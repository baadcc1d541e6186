import Acps.Ca.Crl

/-!
What the status services say about a certificate: whom the OCSP responder speaks of, and where the
signed answer, the batch, the status endpoint and the revocation list agree.
-/

namespace Acps.Ca

open Aic (Text)
open Numerals

def issuedCertificate (serialNumber : ℕ) (status : CertificateStatus) (expiresAt : Time) :
    Certificate :=
  { id := serialNumber
    certificateType := .agent
    serialNumber := upperHex serialNumber
    subject := []
    issuer := []
    status := status
    expiresAt := expiresAt
    revokedAt := none
    revocationReason := none
    certificatePem := { serialNumber := serialNumber, subject := [] }
    version := 1
    parentCertificateId := none
    aic := none }

section Surfaces

def OcspResponseStatus.der : OcspResponseStatus → OcspCertStatus
  | .good => .good
  | .revoked => .revoked
  | .unknown => .unknown
  | .expired => .unknown

def RevocationReason.flag : RevocationReason → ReasonFlags
  | .unspecified => .unspecified
  | .keyCompromise => .keyCompromise
  | .caCompromise => .caCompromise
  | .affiliationChanged => .affiliationChanged
  | .superseded => .superseded
  | .cessationOfOperation => .cessationOfOperation

theorem mapReasonFlag_toAcmeCode (r : RevocationReason) : mapReasonFlag r.toAcmeCode = r.flag := by
  cases r <;> rfl

def derAnswer (caHashes : Text → Text × Text) (c : Certificate) (request : CertId) (now : Time) :
    SingleResponse :=
  buildResponse caHashes (some c) (resolveCertificateStatus (some c)) request now

structure SurfacesAgree (der : SingleResponse) (batch : BatchStatus) (endpoint : StatusResponse)
    (crl : List ReasonFlags) (c : Certificate) (now : Time) : Prop where
  batch_status : batch.status = endpoint.certificateStatus
  der_status : der.certStatus = endpoint.certificateStatus.der
  not_good : c.expiresAt < now →
    der.certStatus ≠ .good ∧ batch.status ≠ .good ∧ endpoint.certificateStatus ≠ .good
  reason : c.status = .revoked → ∃ r, batch.revocationReason = some r ∧
    endpoint.revocationReason = some r ∧ der.revocationReason = some r.flag ∧ crl = [r.flag]

structure Settled (c : Certificate) (now : Time) : Prop where
  current : c.status = .valid → now ≤ c.expiresAt
  revocation : c.status = .revoked → c.revokedAt.isSome ∧
    (c.revocationReason = some .unspecified ∨ c.revocationReason = some .keyCompromise)

variable (caHashes : Text → Text × Text) (table : List Certificate) (c : Certificate)
  (request : CertId) (now : Time)

abbrev Agreement : Prop :=
  SurfacesAgree (derAnswer caHashes c request now)
    (buildBatchStatus (findBySerial table c.serialNumber.1) now)
    (getCertificateStatus table c.serialNumber.1 now)
    ((([c].filter (·.status = .revoked)).filterMap revokedEntry).map (·.reason)) c now

variable {table c}

theorem getCertificateStatus_valid (hfind : findBySerial table c.serialNumber.1 = some c)
    (hstatus : c.status = .valid) :
    (getCertificateStatus table c.serialNumber.1 now).certificateStatus =
      resolveValidCertificateStatus c now := by
  simp [getCertificateStatus, hfind, hstatus]

theorem agreement_valid (hfind : findBySerial table c.serialNumber.1 = some c)
    (hstatus : c.status = .valid) :
    Agreement caHashes table c request now ↔ now ≤ c.expiresAt := by
  have hder : (derAnswer caHashes c request now).certStatus = .good := by
    simp [derAnswer, buildResponse, resolveCertificateStatus, hstatus]
  have hbatch : (buildBatchStatus (findBySerial table c.serialNumber.1) now).status = .good := by
    simp [buildBatchStatus, hfind, hstatus]
  have hendpoint := getCertificateStatus_valid now hfind hstatus
  constructor
  · intro h
    by_contra hexpired
    exact (h.not_good (not_le.mp hexpired)).1 hder
  · intro hcurrent
    rw [resolveValidCertificateStatus, if_neg (not_lt.mpr hcurrent)] at hendpoint
    exact
      { batch_status := hbatch.trans hendpoint.symm
        der_status := by rw [hder, hendpoint]; rfl
        not_good := fun hexpired => absurd hexpired (not_lt.mpr hcurrent)
        reason := fun hrevoked => absurd (hstatus.symm.trans hrevoked) (by decide) }

theorem agreement_revoked (hfind : findBySerial table c.serialNumber.1 = some c)
    (hstatus : c.status = .revoked) :
    Agreement caHashes table c request now ↔ c.revokedAt.isSome ∧
      (c.revocationReason = some .unspecified ∨ c.revocationReason = some .keyCompromise) := by
  have hder : (derAnswer caHashes c request now).revocationReason =
      some (if c.revocationReason = some .keyCompromise then .keyCompromise
        else .unspecified) := by
    simp [derAnswer, buildResponse, resolveCertificateStatus, hstatus]
  have hbatch : (buildBatchStatus (findBySerial table c.serialNumber.1) now).revocationReason =
      c.revocationReason := by
    simp [buildBatchStatus, hfind, hstatus]
  have hendpoint : (getCertificateStatus table c.serialNumber.1 now).revocationReason =
      c.revocationReason := by
    simp [getCertificateStatus, hfind, hstatus]
  have hfilter : [c].filter (·.status = .revoked) = [c] := by simp [hstatus]
  constructor
  · intro h
    obtain ⟨r, hr, -, hflag, hcrl⟩ := h.reason hstatus
    rw [hbatch] at hr
    rw [hder, hr] at hflag
    rw [hfilter] at hcrl
    constructor
    · cases hrevokedAt : c.revokedAt with
      | none => simp [revokedEntry, hrevokedAt] at hcrl
      | some revokedAt => rfl
    · rw [hr]
      cases r <;> simp [RevocationReason.flag] at hflag ⊢
  · rintro ⟨hrevokedAt, hreason⟩
    obtain ⟨revokedAt, hrevokedAt⟩ := Option.isSome_iff_exists.mp hrevokedAt
    have hreason : ∃ r, c.revocationReason = some r ∧
        (if c.revocationReason = some .keyCompromise then ReasonFlags.keyCompromise
          else .unspecified) = r.flag := by
      rcases hreason with hreason | hreason
      · exact ⟨.unspecified, hreason, by rw [hreason]; rfl⟩
      · exact ⟨.keyCompromise, hreason, by rw [hreason]; rfl⟩
    obtain ⟨r, hr, hflag⟩ := hreason
    refine
      { batch_status := by simp [buildBatchStatus, getCertificateStatus, hfind, hstatus]
        der_status := by
          simp [derAnswer, buildResponse, resolveCertificateStatus, getCertificateStatus, hfind,
            hstatus, OcspResponseStatus.der]
        not_good := fun _ => by
          simp [derAnswer, buildResponse, resolveCertificateStatus, getCertificateStatus,
            buildBatchStatus, hfind, hstatus]
        reason := fun _ => ⟨r, hbatch.trans hr, hendpoint.trans hr, ?_, ?_⟩ }
    · rw [hder, hflag]
    · rw [hfilter]
      simp [revokedEntry, hrevokedAt, hr, mapReasonFlag_toAcmeCode]

theorem agreement_other (hfind : findBySerial table c.serialNumber.1 = some c)
    (hstatus : c.status = .pending ∨ c.status = .expired) :
    Agreement caHashes table c request now := by
  have hnot : c.status ≠ .revoked := by
    rcases hstatus with hstatus | hstatus <;> rw [hstatus] <;> decide
  rcases hstatus with hstatus | hstatus <;>
  exact
    { batch_status := by simp [buildBatchStatus, getCertificateStatus, hfind, hstatus]
      der_status := by
        simp [derAnswer, buildResponse, resolveCertificateStatus, getCertificateStatus, hfind,
          hstatus, OcspResponseStatus.der]
      not_good := fun _ => by
        simp [derAnswer, buildResponse, resolveCertificateStatus, getCertificateStatus,
          buildBatchStatus, hfind, hstatus]
      reason := fun hrevoked => absurd hrevoked hnot }

theorem status_surfaces_agree_iff (caHashes : Text → Text × Text) (table : List Certificate)
    (c : Certificate) (request : CertId) (now : Time)
    (hfind : findBySerial table c.serialNumber.1 = some c) :
    Agreement caHashes table c request now ↔ Settled c now := by
  cases hstatus : c.status with
  | valid =>
    rw [agreement_valid caHashes request now hfind hstatus]
    exact ⟨fun h => ⟨fun _ => h, fun hr => absurd (hstatus.symm.trans hr) (by decide)⟩,
      fun h => h.current hstatus⟩
  | revoked =>
    rw [agreement_revoked caHashes request now hfind hstatus]
    exact ⟨fun h => ⟨fun hv => absurd (hstatus.symm.trans hv) (by decide), fun _ => h⟩,
      fun h => h.revocation hstatus⟩
  | pending =>
    refine iff_of_true (agreement_other caHashes request now hfind (.inl hstatus)) ⟨?_, ?_⟩ <;>
      exact fun h => absurd (hstatus.symm.trans h) (by decide)
  | expired =>
    refine iff_of_true (agreement_other caHashes request now hfind (.inr hstatus)) ⟨?_, ?_⟩ <;>
      exact fun h => absurd (hstatus.symm.trans h) (by decide)

theorem status_surfaces_agree_good : Agreement (fun _ => ([], [])) [issuedCertificate 16 .valid 5]
    (issuedCertificate 16 .valid 5) ⟨[], [], [], 16⟩ 5 :=
  (status_surfaces_agree_iff _ _ _ _ _ (by decide)).mpr ⟨fun _ => le_rfl, fun h => by cases h⟩

theorem expired_certificate_reported_good : ¬ Agreement (fun _ => ([], []))
    [issuedCertificate 16 .valid 5] (issuedCertificate 16 .valid 5) ⟨[], [], [], 16⟩ 6 := by
  rw [agreement_valid _ _ _ (by decide) rfl]
  decide

end Surfaces

section Lookup

structure AcmeTable where
  rows : List Certificate
  unique : Keyed.Unique (·.serialNumber.1) rows
  serial : ∀ c ∈ rows, c.serialNumber = upperHex c.certificatePem.serialNumber
  status : ∀ c ∈ rows, c.status = .valid ∨ c.status = .revoked

structure Answers (table : AcmeTable) (n : ℤ) (response : SingleResponse) : Prop where
  serialNumber : response.certId.serialNumber = n
  revoked : ∀ c ∈ table.rows, c.certificatePem.serialNumber = n → c.status = .revoked →
    response.certStatus = .revoked
  good : ∀ c ∈ table.rows, c.certificatePem.serialNumber = n → c.status = .valid →
    response.certStatus = .good
  unknown : (∀ c ∈ table.rows, (c.certificatePem.serialNumber : ℤ) ≠ n) →
    response.certStatus = .unknown

def reread (n : ℤ) : ℕ := Nat.ofDigits 16 (Nat.digits 10 n.natAbs)

theorem decimal_eq_upperHex_iff {n : ℤ} {m : ℕ} :
    (upperHex m).1 = decimal n ↔ 0 ≤ n ∧ m = reread n := by
  unfold decimal
  by_cases hn : n < 0
  · rw [if_pos hn]
    refine iff_of_false (fun h => ?_) (fun h => absurd h.1 (not_le.mpr hn))
    have hminus := (upperHex m).2.2 '-' (h ▸ List.mem_cons_self)
    exact absurd hminus (by decide)
  · rw [if_neg hn]
    exact eq_comm.trans (decimal_eq_upperHex.trans (iff_and_self.mpr fun _ => not_lt.mp hn))

theorem reread_le_nine {n : ℤ} (hzero : 0 ≤ n) (hn : n ≤ 9) : (reread n : ℤ) = n := by
  rw [reread, reread_of_lt (by omega)]
  omega

theorem lt_reread_of_ten_le {n : ℤ} (hn : 10 ≤ n) : n < reread n := by
  have := lt_reread (b := 10) (c := 16) (n := n.natAbs) (by decide) (by decide) (by omega)
  unfold reread
  omega

namespace AcmeTable

variable (table : AcmeTable)

theorem find_iff {n : ℤ} {c : Certificate} :
    findBySerial table.rows (decimal n) = some c ↔
      c ∈ table.rows ∧ 0 ≤ n ∧ c.certificatePem.serialNumber = reread n := by
  rw [findBySerial, Keyed.find_eq_some table.unique]
  refine and_congr_right fun hc => ?_
  rw [table.serial c hc]
  exact decimal_eq_upperHex_iff

theorem eq_of_serial {c d : Certificate} (hc : c ∈ table.rows) (hd : d ∈ table.rows)
    (h : c.certificatePem.serialNumber = d.certificatePem.serialNumber) : c = d := by
  apply table.unique.eq_of_key hc hd
  rw [table.serial c hc, table.serial d hd, h]

def add (m : ℕ) (hm : ∀ c ∈ table.rows, c.certificatePem.serialNumber ≠ m) : AcmeTable where
  rows := table.rows ++ [issuedCertificate m .valid 0]
  unique := Keyed.unique_append table.unique fun c hc h =>
    hm c hc (upperHex_injective (Subtype.ext (table.serial c hc ▸ h)))
  serial := by
    intro c hc
    rcases List.mem_append.mp hc with hc | hc
    · exact table.serial c hc
    · rw [List.mem_singleton.mp hc]
      rfl
  status := by
    intro c hc
    rcases List.mem_append.mp hc with hc | hc
    · exact table.status c hc
    · rw [List.mem_singleton.mp hc]
      exact .inl rfl

def remove (m : ℕ) : AcmeTable where
  rows := table.rows.filter (·.certificatePem.serialNumber ≠ m)
  unique := List.Nodup.sublist (List.filter_sublist.map _) table.unique
  serial := fun c hc => table.serial c (List.mem_of_mem_filter hc)
  status := fun c hc => table.status c (List.mem_of_mem_filter hc)

end AcmeTable

variable (caHashes : Text → Text × Text) (table : AcmeTable) (request : CertId) (now : Time)

theorem response_of_some (c : Certificate) :
    (derAnswer caHashes c request now).certId.serialNumber = c.certificatePem.serialNumber ∧
      (c.status = .revoked → (derAnswer caHashes c request now).certStatus = .revoked) ∧
      (c.status = .valid → (derAnswer caHashes c request now).certStatus = .good) := by
  refine ⟨rfl, fun h => ?_, fun h => ?_⟩ <;>
    simp [derAnswer, buildResponse, resolveCertificateStatus, h]

def Independent : Prop :=
  ∀ other : AcmeTable,
    (∀ c, (c.certificatePem.serialNumber : ℤ) = request.serialNumber →
      (c ∈ table.rows ↔ c ∈ other.rows)) →
    processOcspRequest caHashes other.rows request now =
      processOcspRequest caHashes table.rows request now

variable {table request}

theorem process_of_find {c : Certificate}
    (h : findBySerial table.rows (decimal request.serialNumber) = some c) :
    processOcspRequest caHashes table.rows request now = derAnswer caHashes c request now := by
  unfold processOcspRequest
  rw [h]
  rfl

theorem process_of_none (h : findBySerial table.rows (decimal request.serialNumber) = none) :
    (processOcspRequest caHashes table.rows request now).certStatus = .unknown ∧
      (processOcspRequest caHashes table.rows request now).certId = request := by
  unfold processOcspRequest
  rw [h]
  exact ⟨rfl, rfl⟩

theorem find_of_le_nine (h : request.serialNumber ≤ 9) {c : Certificate} :
    findBySerial table.rows (decimal request.serialNumber) = some c ↔
      c ∈ table.rows ∧ (c.certificatePem.serialNumber : ℤ) = request.serialNumber := by
  rw [table.find_iff]
  refine and_congr_right fun _ => ?_
  by_cases hzero : 0 ≤ request.serialNumber
  · have hreread := reread_le_nine hzero h
    omega
  · omega

theorem answers_of_le_nine (h : request.serialNumber ≤ 9) :
    Answers table request.serialNumber (processOcspRequest caHashes table.rows request now) := by
  cases hfind : findBySerial table.rows (decimal request.serialNumber) with
  | some c =>
    obtain ⟨hc, hserial⟩ := (find_of_le_nine h).mp hfind
    obtain ⟨hcertId, hrevoked, hgood⟩ := response_of_some caHashes request now c
    rw [process_of_find caHashes now hfind]
    have hsame : ∀ d ∈ table.rows, (d.certificatePem.serialNumber : ℤ) = request.serialNumber →
        d = c := fun d hd hdserial => table.eq_of_serial hd hc (by omega)
    exact
      { serialNumber := hcertId.trans hserial
        revoked := fun d hd hdserial hstatus => hrevoked (hsame d hd hdserial ▸ hstatus)
        good := fun d hd hdserial hstatus => hgood (hsame d hd hdserial ▸ hstatus)
        unknown := fun hnone => absurd hserial (hnone c hc) }
  | none =>
    obtain ⟨hunknown, hcertId⟩ := process_of_none caHashes now hfind
    have habsent : ∀ d ∈ table.rows, (d.certificatePem.serialNumber : ℤ) ≠ request.serialNumber := by
      intro d hd hserial
      rw [(find_of_le_nine h).mpr ⟨hd, hserial⟩] at hfind
      cases hfind
    exact
      { serialNumber := by rw [hcertId]
        revoked := fun d hd hserial => absurd hserial (habsent d hd)
        good := fun d hd hserial => absurd hserial (habsent d hd)
        unknown := fun _ => hunknown }

theorem independent_of_le_nine (h : request.serialNumber ≤ 9) :
    Independent caHashes table request now := by
  intro other hother
  cases hfind : findBySerial table.rows (decimal request.serialNumber) with
  | some c =>
    obtain ⟨hc, hserial⟩ := (find_of_le_nine h).mp hfind
    have hfind' := (find_of_le_nine h).mpr ⟨(hother c hserial).mp hc, hserial⟩
    rw [process_of_find caHashes now hfind, process_of_find caHashes now hfind']
  | none =>
    have hfind' : findBySerial other.rows (decimal request.serialNumber) = none := by
      by_contra hsome
      obtain ⟨c, hc⟩ := Option.ne_none_iff_exists'.mp hsome
      obtain ⟨hmem, hserial⟩ := (find_of_le_nine h).mp hc
      rw [(find_of_le_nine h).mpr ⟨(hother c hserial).mpr hmem, hserial⟩] at hfind
      cases hfind
    unfold processOcspRequest
    rw [hfind, hfind']

theorem answers_of_ten_le (h : 10 ≤ request.serialNumber) :
    Answers table request.serialNumber (processOcspRequest caHashes table.rows request now) ↔
      ∀ c ∈ table.rows, (c.certificatePem.serialNumber : ℤ) ≠ request.serialNumber ∧
        c.serialNumber.1 ≠ decimal request.serialNumber := by
  have hlt := lt_reread_of_ten_le h
  cases hfind : findBySerial table.rows (decimal request.serialNumber) with
  | some c =>
    obtain ⟨hc, -, hserial⟩ := table.find_iff.mp hfind
    rw [process_of_find caHashes now hfind]
    refine iff_of_false (fun hanswers => ?_) (fun hnone => ?_)
    · have hcertId := hanswers.serialNumber
      rw [(response_of_some caHashes request now c).1] at hcertId
      omega
    · have htext := Keyed.key_of_find hfind
      exact (hnone c hc).2 htext
  | none =>
    obtain ⟨hunknown, hcertId⟩ := process_of_none caHashes now hfind
    have htext := Keyed.find_eq_none.mp hfind
    constructor
    · intro hanswers c hc
      refine ⟨fun hserial => ?_, htext c hc⟩
      rcases table.status c hc with hstatus | hstatus
      · exact absurd (hunknown.symm.trans (hanswers.good c hc hserial hstatus)) (by decide)
      · exact absurd (hunknown.symm.trans (hanswers.revoked c hc hserial hstatus)) (by decide)
    · intro hnone
      exact
        { serialNumber := by rw [hcertId]
          revoked := fun c hc hserial => absurd hserial (hnone c hc).1
          good := fun c hc hserial => absurd hserial (hnone c hc).1
          unknown := fun _ => hunknown }

theorem not_independent_of_ten_le (h : 10 ≤ request.serialNumber) :
    ¬ Independent caHashes table request now := by
  have hlt := lt_reread_of_ten_le h
  intro hindependent
  cases hfind : findBySerial table.rows (decimal request.serialNumber) with
  | some c =>
    obtain ⟨hc, -, hserial⟩ := table.find_iff.mp hfind
    have hfind' : findBySerial (table.remove (reread request.serialNumber)).rows
        (decimal request.serialNumber) = none := by
      by_contra hsome
      obtain ⟨d, hd⟩ := Option.ne_none_iff_exists'.mp hsome
      obtain ⟨hmem, -, hdserial⟩ := (AcmeTable.find_iff _).mp hd
      exact of_decide_eq_true (List.mem_filter.mp hmem).2 hdserial
    have hsame := hindependent (table.remove (reread request.serialNumber)) fun d hdserial => by
      have hne : d.certificatePem.serialNumber ≠ reread request.serialNumber := by omega
      simp [AcmeTable.remove, hne]
    have hserial' := (response_of_some caHashes request now c).1
    rw [← process_of_find caHashes now hfind, ← hsame,
      (process_of_none caHashes now hfind').2] at hserial'
    omega
  | none =>
    have hfresh : ∀ c ∈ table.rows, c.certificatePem.serialNumber ≠ reread request.serialNumber := by
      intro c hc hserial
      rw [table.find_iff.mpr ⟨hc, by omega, hserial⟩] at hfind
      cases hfind
    have hfind' := (AcmeTable.find_iff (table.add _ hfresh)).mpr
      ⟨List.mem_append_right _ (List.mem_singleton_self _), by omega, rfl⟩
    have hsame := hindependent (table.add _ hfresh) fun d hdserial => by
      refine ⟨List.mem_append_left _, fun hd => (List.mem_append.mp hd).resolve_right fun hd => ?_⟩
      rw [List.mem_singleton.mp hd] at hdserial
      change (reread request.serialNumber : ℤ) = _ at hdserial
      omega
    have hserial := (response_of_some caHashes request now
      (issuedCertificate (reread request.serialNumber) .valid 0)).1
    rw [← process_of_find caHashes now hfind', hsame, (process_of_none caHashes now hfind).2]
      at hserial
    change request.serialNumber = (reread request.serialNumber : ℤ) at hserial
    omega

theorem ocsp_answers_iff (caHashes : Text → Text × Text) (table : AcmeTable) (request : CertId)
    (now : Time) :
    (Answers table request.serialNumber (processOcspRequest caHashes table.rows request now) ∧
        Independent caHashes table request now ↔ request.serialNumber ≤ 9) ∧
      (Answers table request.serialNumber (processOcspRequest caHashes table.rows request now) ↔
        request.serialNumber ≤ 9 ∨
          ∀ c ∈ table.rows, (c.certificatePem.serialNumber : ℤ) ≠ request.serialNumber ∧
            c.serialNumber.1 ≠ decimal request.serialNumber) := by
  by_cases h : request.serialNumber ≤ 9
  · have hanswers : Answers table request.serialNumber
        (processOcspRequest caHashes table.rows request now) := answers_of_le_nine caHashes now h
    exact ⟨iff_of_true ⟨hanswers, independent_of_le_nine caHashes now h⟩ h,
      iff_of_true hanswers (.inl h)⟩
  · have hten : 10 ≤ request.serialNumber := by omega
    refine ⟨iff_of_false (fun hboth => ?_) h, ?_⟩
    · exact not_independent_of_ten_le caHashes now hten hboth.2
    · rw [answers_of_ten_le caHashes now hten, or_iff_right h]

def oneCertificate : AcmeTable where
  rows := [issuedCertificate 16 .valid 5]
  unique := List.nodup_singleton _
  serial := fun c hc => by rw [List.mem_singleton.mp hc]; rfl
  status := fun c hc => by rw [List.mem_singleton.mp hc]; exact .inl rfl

theorem valid_certificate_unknown : ¬ Answers oneCertificate 16
    (processOcspRequest (fun _ => ([], [])) oneCertificate.rows ⟨[], [], [], 16⟩ 1) := by
  intro h
  have hgood := h.good (issuedCertificate 16 .valid 5) (List.mem_singleton_self _) rfl rfl
  exact absurd hgood (by decide)

end Lookup

end Acps.Ca
