import Acps.Ca.CertificateService
import Acps.Lib.Transition

/-!
Revocation in the two tables: what each operation changes, and when a revocation stays as it was
made and the tables say the same.
-/

namespace Acps.Ca

open Aic (Text)

structure Issue where
  orderId : ℕ
  certPem : X509
  notAfter : Time
  agentId : Acme.AgentId
  certId : Text
  id : ℕ
  subject : Text

def issueCertificates (t : Tables) (issues : List Issue) : Except CaError Tables :=
  issues.foldlM
    (fun t i => Acme.createCertificate t
      (Acme.certificateCreate i.orderId i.certPem i.notAfter i.agentId) i.certId i.id i.subject) t

inductive Operation where
  | issue (issues : List Issue)
  | acmeRevoke (cert : X509) (owned : Option (ℕ → Bool)) (reason : Option ℤ) (now : Time)
  | createRoot (subjectName : Text) (validityDays : ℤ) (now : Time) (draws : Draws)
  | createIntermediate (subjectName : Text) (parentCertificateId : ℕ) (validityDays : ℤ)
      (now : Time) (draws : Draws)
  | renew (certificateId : ℕ) (validityDays : Option ℤ) (now : Time) (draws : Draws)
  | revoke (certificateId : ℕ) (reason : Text) (now : Time)
  | revokeNotify (aic : Text) (reason : ℤ) (now : ℕ → Time)

def perform (t : Tables) : Operation → Except CaError Tables
  | .issue issues => issueCertificates t issues
  | .acmeRevoke cert owned reason now => Acme.revokeCert t cert owned reason now
  | .createRoot subjectName validityDays now draws =>
    createRootCertificate t subjectName validityDays now draws
  | .createIntermediate subjectName parentCertificateId validityDays now draws =>
    createIntermediateCertificate t subjectName parentCertificateId validityDays now draws
  | .renew certificateId validityDays now draws =>
    renewCertificate t certificateId validityDays now draws
  | .revoke certificateId reason now => revokeCertificate t certificateId reason now
  | .revokeNotify aic reason now => revokeNotify t aic reason now

def authority : Transition.System Tables Operation where
  step t op :=
    match perform t op with
    | .ok t' => some t'
    | .error _ => some t

def noCertificates : Tables := { acmeCertificates := [], certificates := [] }

section Effects

structure Indexed (t : Tables) : Prop where
  id : Keyed.Unique Certificate.id t.certificates
  serialNumber : Keyed.Unique Certificate.serialNumber t.certificates
  certId : Keyed.Unique AcmeCertificate.certId t.acmeCertificates
  acmeSerialNumber : Keyed.Unique AcmeCertificate.serialNumber t.acmeCertificates
  twin : ∀ a ∈ t.acmeCertificates, ∃ c ∈ t.certificates, c.serialNumber = a.serialNumber ∧
    c.serialNumber = upperHex c.certificatePem.serialNumber

theorem insertCertificate_eq_ok {t t' : Tables} {c : Certificate} :
    t.insertCertificate c = .ok t' ↔ (∀ r ∈ t.certificates, r.id ≠ c.id) ∧
      (∀ r ∈ t.certificates, r.serialNumber ≠ c.serialNumber) ∧
      t' = { t with certificates := t.certificates ++ [c] } := by
  unfold Tables.insertCertificate
  constructor
  · intro h
    obtain ⟨_, hid, h⟩ := Fallible.bind_eq_ok.mp h
    obtain ⟨_, hserial, h⟩ := Fallible.bind_eq_ok.mp h
    obtain ⟨hfresh, rfl⟩ := Keyed.insert_eq_ok.mp hserial
    exact ⟨(Keyed.insert_eq_ok.mp hid).1, hfresh, (Fallible.pure_eq_ok.mp h).symm⟩
  · rintro ⟨hid, hserial, rfl⟩
    exact Fallible.bind_eq_ok.mpr ⟨_, Keyed.insert_eq_ok.mpr ⟨hid, rfl⟩,
      Fallible.bind_eq_ok.mpr ⟨_, Keyed.insert_eq_ok.mpr ⟨hserial, rfl⟩, rfl⟩⟩

theorem insertAcmeCertificate_eq_ok {t t' : Tables} {a : AcmeCertificate} :
    t.insertAcmeCertificate a = .ok t' ↔ (∀ r ∈ t.acmeCertificates, r.certId ≠ a.certId) ∧
      (∀ r ∈ t.acmeCertificates, r.serialNumber ≠ a.serialNumber) ∧
      t' = { t with acmeCertificates := t.acmeCertificates ++ [a] } := by
  unfold Tables.insertAcmeCertificate
  constructor
  · intro h
    obtain ⟨_, hid, h⟩ := Fallible.bind_eq_ok.mp h
    obtain ⟨_, hserial, h⟩ := Fallible.bind_eq_ok.mp h
    obtain ⟨hfresh, rfl⟩ := Keyed.insert_eq_ok.mp hserial
    exact ⟨(Keyed.insert_eq_ok.mp hid).1, hfresh, (Fallible.pure_eq_ok.mp h).symm⟩
  · rintro ⟨hid, hserial, rfl⟩
    exact Fallible.bind_eq_ok.mpr ⟨_, Keyed.insert_eq_ok.mpr ⟨hid, rfl⟩,
      Fallible.bind_eq_ok.mpr ⟨_, Keyed.insert_eq_ok.mpr ⟨hserial, rfl⟩, rfl⟩⟩

def markAll (ids : List ℕ) (now : ℕ → Time) (reason : RevocationReason) (cs : List Certificate) :
    List Certificate :=
  cs.map fun c => if c.id ∈ ids then markRevoked (now c.id) reason c else c

def revokes (t : Tables) : Operation → List ℕ
  | .acmeRevoke cert _ _ _ =>
    (t.certificates.filter fun c =>
      c.serialNumber = upperHex cert.serialNumber ∧ c.status ≠ .revoked).map (·.id)
  | .renew certificateId _ _ _ => [certificateId]
  | .revoke certificateId _ _ => [certificateId]
  | .revokeNotify aic _ _ => (validOf t aic).map (·.id)
  | _ => []

def revocationTime : Operation → ℕ → Time
  | .acmeRevoke _ _ _ now => fun _ => now
  | .renew _ _ now _ => fun _ => now
  | .revoke _ _ now => fun _ => now
  | .revokeNotify _ _ now => now
  | _ => fun _ => 0

def revocationReason : Operation → RevocationReason
  | .acmeRevoke _ _ reason _ => .fromAcmeCode (reason.getD 0)
  | .renew _ _ _ _ => normalizeRevocationReason renewalReason
  | .revoke _ reason _ => normalizeRevocationReason reason
  | .revokeNotify _ reason _ => normalizeRevocationReason (revocationReasonText reason)
  | _ => .unspecified

theorem modify_id_eq_markAll (cs : List Certificate) (id : ℕ) (now : Time)
    (reason : RevocationReason) :
    Keyed.modify Certificate.id cs id (markRevoked now reason) =
      markAll [id] (fun _ => now) reason cs := by
  simp [Keyed.modify, markAll]

theorem markAll_nil (now : ℕ → Time) (reason : RevocationReason) (cs : List Certificate) :
    markAll [] now reason cs = cs := by
  simp [markAll]

theorem markAll_cons (id : ℕ) (ids : List ℕ) (now : ℕ → Time) (reason : RevocationReason)
    (cs : List Certificate) :
    markAll ids now reason (markAll [id] (fun _ => now id) reason cs) =
      markAll (id :: ids) now reason cs := by
  unfold markAll
  rw [List.map_map]
  refine List.map_congr_left fun c _ => ?_
  by_cases hid : c.id = id
  · subst hid
    by_cases hids : c.id ∈ ids <;> simp [hids, markRevoked]
  · simp [hid]

theorem markAll_append (ids : List ℕ) (now : ℕ → Time) (reason : RevocationReason)
    (cs ds : List Certificate) :
    markAll ids now reason (cs ++ ds) = markAll ids now reason cs ++ markAll ids now reason ds :=
  List.map_append

theorem markAll_of_absent {ids : List ℕ} {cs : List Certificate} (now : ℕ → Time)
    (reason : RevocationReason) (h : ∀ c ∈ cs, c.id ∉ ids) : markAll ids now reason cs = cs := by
  unfold markAll
  conv_rhs => rw [← List.map_id cs]
  refine List.map_congr_left fun c hc => ?_
  rw [if_neg (h c hc), id_eq]

theorem markAll_congr {ids ids' : List ℕ} {cs : List Certificate} (now : ℕ → Time)
    (reason : RevocationReason) (h : ∀ c ∈ cs, c.id ∈ ids ↔ c.id ∈ ids') :
    markAll ids now reason cs = markAll ids' now reason cs := by
  refine List.map_congr_left fun c hc => ?_
  simp only [h c hc]

theorem createCertificate_ok {t t' : Tables} {data : CertificateData} {draws : Draws}
    (h : createCertificate t data draws = .ok t') :
    ∃ c, c.status = data.status ∧ (∀ r ∈ t.certificates, r.id ≠ c.id) ∧
      (∀ r ∈ t.certificates, r.serialNumber ≠ c.serialNumber) ∧
      t' = { t with certificates := t.certificates ++ [c] } :=
  ⟨_, rfl, insertCertificate_eq_ok.mp h⟩

theorem revokeCertificate_ok {t t' : Tables} {id : ℕ} {reason : Text} {now : Time}
    (h : revokeCertificate t id reason now = .ok t') :
    (∃ c ∈ t.certificates, c.id = id) ∧ t' =
      { t with certificates :=
          markAll [id] (fun _ => now) (normalizeRevocationReason reason) t.certificates } := by
  unfold revokeCertificate at h
  rw [modify_id_eq_markAll] at h
  cases hfind : getCertificateById t id with
  | none =>
    rw [hfind] at h
    cases h
  | some c =>
    rw [hfind] at h
    exact ⟨⟨c, Keyed.mem_of_find hfind, Keyed.key_of_find hfind⟩, (Except.ok.inj h).symm⟩

theorem revokeCertificate_error {t : Tables} {id : ℕ} {reason : Text} {now : Time} {e : CaError}
    (h : revokeCertificate t id reason now = .error e) : ∀ c ∈ t.certificates, c.id ≠ id := by
  unfold revokeCertificate at h
  cases hfind : getCertificateById t id with
  | none => exact Keyed.find_eq_none.mp hfind
  | some c =>
    rw [hfind] at h
    cases h

theorem revokeOne_eq (reason : Text) (now : ℕ → Time) (state : Tables × ℕ) (c : Certificate) :
    (revokeOne reason now state c).1 =
      { state.1 with
        certificates := markAll [c.id] (fun _ => now c.id) (normalizeRevocationReason reason)
          state.1.certificates } := by
  unfold revokeOne
  cases hrevoke : revokeCertificate state.1 c.id reason (now c.id) with
  | ok t' => exact (revokeCertificate_ok hrevoke).2
  | error e =>
    rw [markAll_of_absent]
    simpa using revokeCertificate_error hrevoke

theorem revokeLoop_eq (reason : Text) (now : ℕ → Time) (targets : List Certificate)
    (state : Tables × ℕ) :
    (targets.foldl (revokeOne reason now) state).1 =
      { state.1 with
        certificates := markAll (targets.map (·.id)) now (normalizeRevocationReason reason)
          state.1.certificates } := by
  induction targets generalizing state with
  | nil => rw [List.map_nil, markAll_nil]; rfl
  | cons c targets ih => rw [List.foldl_cons, ih, revokeOne_eq, markAll_cons, List.map_cons]

theorem getRevocableCertificate_ok {t : Tables} {cert : X509} {owned : Option (ℕ → Bool)}
    {a : AcmeCertificate} (h : Acme.getRevocableCertificate t cert owned = .ok a) :
    a ∈ t.acmeCertificates ∧ a.serialNumber = upperHex cert.serialNumber ∧ a.status ≠ .revoked := by
  unfold Acme.getRevocableCertificate at h
  cases hfind : Keyed.find AcmeCertificate.serialNumber t.acmeCertificates
      (upperHex cert.serialNumber) with
  | none =>
    rw [hfind] at h
    cases h
  | some acmeCert =>
    rw [hfind] at h
    dsimp only at h
    split_ifs at h with howned hstatus
    obtain rfl := Except.ok.inj h
    exact ⟨Keyed.mem_of_find hfind, Keyed.key_of_find hfind, hstatus⟩

theorem validateRevocationReason_ok {reason : Option ℤ} {code : ℤ}
    (h : Acme.validateRevocationReason reason = .ok code) : code = reason.getD 0 := by
  cases reason with
  | none => exact (Except.ok.inj h).symm
  | some reasonCode =>
    unfold Acme.validateRevocationReason at h
    dsimp only at h
    split_ifs at h
    exact (Except.ok.inj h).symm

theorem acmeRevoke_ok {t t' : Tables} (ht : Indexed t) {cert : X509}
    {owned : Option (ℕ → Bool)} {reason : Option ℤ} {now : Time}
    (h : Acme.revokeCert t cert owned reason now = .ok t') :
    ∃ a ∈ t.acmeCertificates, a.serialNumber = upperHex cert.serialNumber ∧ a.status ≠ .revoked ∧
      t'.acmeCertificates = Keyed.modify AcmeCertificate.certId t.acmeCertificates a.certId
        (Acme.markAcmeRevoked now (.fromAcmeCode (reason.getD 0))) ∧
      t'.certificates = markAll (revokes t (.acmeRevoke cert owned reason now)) (fun _ => now)
        (.fromAcmeCode (reason.getD 0)) t.certificates := by
  obtain ⟨code, hcode, h⟩ := Fallible.bind_eq_ok.mp h
  obtain ⟨a, ha, h⟩ := Fallible.bind_eq_ok.mp h
  obtain rfl := Fallible.pure_eq_ok.mp h
  obtain rfl := validateRevocationReason_ok hcode
  obtain ⟨hmem, hserial, hstatus⟩ := getRevocableCertificate_ok ha
  refine ⟨a, hmem, hserial, hstatus, rfl, ?_⟩
  unfold Acme.revokeCertificate
  rw [hserial]
  dsimp only
  cases hfind : Keyed.find Certificate.serialNumber t.certificates (upperHex cert.serialNumber) with
  | none =>
    refine (markAll_of_absent _ _ fun c hc hid => ?_).symm
    obtain ⟨d, hd, hdid⟩ := List.mem_map.mp hid
    rw [List.mem_filter, decide_eq_true_eq] at hd
    exact Keyed.find_eq_none.mp hfind d hd.1 hd.2.1
  | some common =>
    have hcommon := Keyed.mem_of_find hfind
    have hkey := Keyed.key_of_find hfind
    have hids : ∀ id, id ∈ revokes t (.acmeRevoke cert owned reason now) ↔
        common.status ≠ .revoked ∧ common.id = id := by
      intro id
      simp only [revokes, List.mem_map, List.mem_filter, decide_eq_true_eq]
      constructor
      · rintro ⟨d, ⟨hd, hdserial, hdstatus⟩, rfl⟩
        obtain rfl := ht.serialNumber.eq_of_key hcommon hd (hkey.trans hdserial.symm)
        exact ⟨hdstatus, rfl⟩
      · rintro ⟨hcommonStatus, rfl⟩
        exact ⟨common, ⟨hcommon, hkey, hcommonStatus⟩, rfl⟩
    dsimp only
    split_ifs with hcommonStatus
    · rw [modify_id_eq_markAll]
      refine markAll_congr _ _ fun c _ => ?_
      rw [hids, List.mem_singleton, eq_comm]
      exact (and_iff_right hcommonStatus).symm
    · refine (markAll_of_absent _ _ fun c _ hid => ?_).symm
      exact hcommonStatus ((hids _).mp hid).1

structure Added (t : Tables) (newAcme : List AcmeCertificate) (new : List Certificate) : Prop where
  acme : ∀ a ∈ newAcme, a.status = .valid ∧ ∃ c ∈ new, c.serialNumber = a.serialNumber
  common : ∀ c ∈ new, c.status = .valid ∧
    ∀ r ∈ t.certificates, r.id ≠ c.id ∧ r.serialNumber ≠ c.serialNumber

structure Effect (t : Tables) (op : Operation) (t' : Tables) (newAcme : List AcmeCertificate)
    (new : List Certificate) : Prop where
  added : Added t newAcme new
  acme : t'.acmeCertificates =
    (match op with
      | .acmeRevoke cert _ reason now =>
        Keyed.modify AcmeCertificate.serialNumber t.acmeCertificates (upperHex cert.serialNumber)
          (Acme.markAcmeRevoked now (.fromAcmeCode (reason.getD 0)))
      | _ => t.acmeCertificates) ++ newAcme
  common : t'.certificates =
    markAll (revokes t op) (revocationTime op) (revocationReason op) t.certificates ++ new

theorem Added.nil (t : Tables) : Added t [] [] :=
  ⟨fun _ h => absurd h List.not_mem_nil, fun _ h => absurd h List.not_mem_nil⟩

theorem Added.single {t : Tables} {c : Certificate} (hstatus : c.status = .valid)
    (hid : ∀ r ∈ t.certificates, r.id ≠ c.id)
    (hserial : ∀ r ∈ t.certificates, r.serialNumber ≠ c.serialNumber) : Added t [] [c] := by
  refine ⟨fun _ h => absurd h List.not_mem_nil, fun d hd => ?_⟩
  rw [List.mem_singleton.mp hd]
  exact ⟨hstatus, fun r hr => ⟨hid r hr, hserial r hr⟩⟩

theorem Added.append {t : Tables} {newAcme newAcme' : List AcmeCertificate}
    {new new' : List Certificate} (h : Added t newAcme new)
    (h' : Added { acmeCertificates := t.acmeCertificates ++ newAcme,
                  certificates := t.certificates ++ new } newAcme' new') :
    Added t (newAcme ++ newAcme') (new ++ new') := by
  constructor
  · intro a ha
    rcases List.mem_append.mp ha with ha | ha
    · obtain ⟨hstatus, c, hc, hserial⟩ := h.acme a ha
      exact ⟨hstatus, c, List.mem_append_left _ hc, hserial⟩
    · obtain ⟨hstatus, c, hc, hserial⟩ := h'.acme a ha
      exact ⟨hstatus, c, List.mem_append_right _ hc, hserial⟩
  · intro c hc
    rcases List.mem_append.mp hc with hc | hc
    · exact h.common c hc
    · obtain ⟨hstatus, hfresh⟩ := h'.common c hc
      exact ⟨hstatus, fun r hr => hfresh r (List.mem_append_left _ hr)⟩

theorem acmeCreateCertificate_ok {t t' : Tables} (ht : Indexed t) {i : Issue}
    (h : Acme.createCertificate t
      (Acme.certificateCreate i.orderId i.certPem i.notAfter i.agentId) i.certId i.id i.subject =
        .ok t') :
    Indexed t' ∧ ∃ a c, Added t [a] [c] ∧
      t' = { acmeCertificates := t.acmeCertificates ++ [a], certificates := t.certificates ++ [c] } := by
  obtain ⟨u, hu, h⟩ := Fallible.bind_eq_ok.mp h
  obtain ⟨hcertId, hacmeSerial, rfl⟩ := insertAcmeCertificate_eq_ok.mp hu
  obtain ⟨hid, hserial, rfl⟩ := insertCertificate_eq_ok.mp h
  constructor
  · exact
      { id := Keyed.unique_append ht.id hid
        serialNumber := Keyed.unique_append ht.serialNumber hserial
        certId := Keyed.unique_append ht.certId hcertId
        acmeSerialNumber := Keyed.unique_append ht.acmeSerialNumber hacmeSerial
        twin := by
          intro a ha
          rcases List.mem_append.mp ha with ha | ha
          · obtain ⟨c, hc, htwin⟩ := ht.twin a ha
            exact ⟨c, List.mem_append_left _ hc, htwin⟩
          · rw [List.mem_singleton.mp ha]
            exact ⟨_, List.mem_append_right _ (List.mem_singleton_self _), rfl, rfl⟩ }
  · refine ⟨_, _, ⟨fun a ha => ?_, ?_⟩, rfl⟩
    · rw [List.mem_singleton.mp ha]
      exact ⟨rfl, _, List.mem_singleton_self _, rfl⟩
    · exact (Added.single rfl hid hserial).common

theorem issueCertificates_ok {t t' : Tables} (ht : Indexed t) {issues : List Issue}
    (h : issueCertificates t issues = .ok t') :
    Indexed t' ∧ ∃ newAcme new, Added t newAcme new ∧
      t' = { acmeCertificates := t.acmeCertificates ++ newAcme,
             certificates := t.certificates ++ new } := by
  refine Fallible.foldlM_invariant (I := fun u => Indexed u ∧ ∃ newAcme new, Added t newAcme new ∧
    u = { acmeCertificates := t.acmeCertificates ++ newAcme,
          certificates := t.certificates ++ new }) ?_ ⟨ht, [], [], .nil t, by simp⟩ h
  rintro u i v ⟨hu, newAcme, new, hadded, rfl⟩ hv
  obtain ⟨hindexed, a, c, hnext, rfl⟩ := acmeCreateCertificate_ok hu hv
  exact ⟨hindexed, newAcme ++ [a], new ++ [c], hadded.append hnext, by simp⟩

theorem markAll_map {β : Type} {f : Certificate → β}
    (hf : ∀ now reason c, f (markRevoked now reason c) = f c) (ids : List ℕ) (now : ℕ → Time)
    (reason : RevocationReason) (cs : List Certificate) :
    (markAll ids now reason cs).map f = cs.map f := by
  unfold markAll
  rw [List.map_map]
  refine List.map_congr_left fun c _ => ?_
  rw [Function.comp_apply]
  split
  · exact hf _ _ c
  · rfl

theorem Indexed.mark {t : Tables} (ht : Indexed t) (ids : List ℕ) (now : ℕ → Time)
    (reason : RevocationReason) :
    Indexed { t with certificates := markAll ids now reason t.certificates } := by
  have hid := markAll_map (f := Certificate.id) (fun _ _ _ => rfl) ids now reason t.certificates
  have hserial := markAll_map (f := Certificate.serialNumber) (fun _ _ _ => rfl) ids now reason
    t.certificates
  have hpair := markAll_map (f := fun c => (c.serialNumber, c.certificatePem)) (fun _ _ _ => rfl)
    ids now reason t.certificates
  exact
    { id := (congrArg List.Nodup hid).mpr ht.id
      serialNumber := (congrArg List.Nodup hserial).mpr ht.serialNumber
      certId := ht.certId
      acmeSerialNumber := ht.acmeSerialNumber
      twin := by
        intro a ha
        obtain ⟨c, hc, hsame, hissued⟩ := ht.twin a ha
        have hmem := List.mem_map_of_mem (f := fun c => (c.serialNumber, c.certificatePem)) hc
        rw [← hpair] at hmem
        obtain ⟨d, hd, heq⟩ := List.mem_map.mp hmem
        obtain ⟨hdserial, hdpem⟩ := Prod.mk.inj heq
        exact ⟨d, hd, hdserial.trans hsame, by rw [hdserial, hdpem, hissued]⟩ }

theorem Indexed.insert {t : Tables} (ht : Indexed t) {c : Certificate}
    (hid : ∀ r ∈ t.certificates, r.id ≠ c.id)
    (hserial : ∀ r ∈ t.certificates, r.serialNumber ≠ c.serialNumber) :
    Indexed { t with certificates := t.certificates ++ [c] } where
  id := Keyed.unique_append ht.id hid
  serialNumber := Keyed.unique_append ht.serialNumber hserial
  certId := ht.certId
  acmeSerialNumber := ht.acmeSerialNumber
  twin := fun a ha =>
    (ht.twin a ha).imp fun _ ⟨hc, htwin⟩ => ⟨List.mem_append_left _ hc, htwin⟩

theorem created_effect {t t' : Tables} (ht : Indexed t) {data : CertificateData} {draws : Draws}
    (hstatus : data.status = .valid) (h : createCertificate t data draws = .ok t') {op : Operation}
    (hop : revokes t op = []) (hacme : ∀ cert owned reason now, op ≠ .acmeRevoke cert owned reason now) :
    Indexed t' ∧ ∃ newAcme new, Effect t op t' newAcme new := by
  obtain ⟨c, hvalid, hid, hserial, rfl⟩ := createCertificate_ok h
  refine ⟨ht.insert hid hserial, [], [c], .single (hvalid.trans hstatus) hid hserial, ?_, ?_⟩
  · cases op with
    | acmeRevoke cert owned reason now => exact absurd rfl (hacme cert owned reason now)
    | _ => exact (List.append_nil _).symm
  · rw [hop, markAll_nil]

theorem renewCertificate_ok {t t' : Tables} (ht : Indexed t) {id : ℕ} {validityDays : Option ℤ}
    {now : Time} {draws : Draws} (h : renewCertificate t id validityDays now draws = .ok t') :
    Indexed t' ∧ ∃ newAcme new, Effect t (.renew id validityDays now draws) t' newAcme new := by
  unfold renewCertificate at h
  cases hfind : getCertificateById t id with
  | none =>
    rw [hfind] at h
    cases h
  | some old =>
    rw [hfind] at h
    obtain ⟨_, -, h⟩ := Fallible.bind_eq_ok.mp h
    obtain ⟨certPem, -, h⟩ := Fallible.bind_eq_ok.mp h
    obtain ⟨u, hu, h⟩ := Fallible.bind_eq_ok.mp h
    obtain ⟨c, hvalid, hid, hserial, rfl⟩ := createCertificate_ok hu
    obtain ⟨-, rfl⟩ := revokeCertificate_ok h
    have hnew : ∀ d ∈ [c], d.id ∉ [id] := by
      intro d hd hdid
      rw [List.mem_singleton.mp hd, List.mem_singleton] at hdid
      exact hid old (Keyed.mem_of_find hfind) ((Keyed.key_of_find hfind).trans hdid.symm)
    refine ⟨(ht.insert hid hserial).mark _ _ _, [], [c], .single hvalid hid hserial,
      (List.append_nil _).symm, ?_⟩
    dsimp only
    rw [markAll_append, markAll_of_absent _ _ hnew]
    rfl

theorem perform_effect {t t' : Tables} (ht : Indexed t) {op : Operation}
    (h : perform t op = .ok t') :
    Indexed t' ∧ ∃ newAcme new, Effect t op t' newAcme new := by
  cases op with
  | issue issues =>
    obtain ⟨hindexed, newAcme, new, hadded, rfl⟩ := issueCertificates_ok ht h
    exact ⟨hindexed, newAcme, new, hadded, rfl, by simp [revokes, markAll_nil]⟩
  | acmeRevoke cert owned reason now =>
    obtain ⟨a, ha, hserial, -, hacme, hcommon⟩ := acmeRevoke_ok ht h
    obtain ⟨acmeCertificates, certificates⟩ := t'
    dsimp only at hacme hcommon
    subst hacme hcommon
    have hmarked := ht.mark (revokes t (.acmeRevoke cert owned reason now)) (fun _ => now)
      (.fromAcmeCode (reason.getD 0))
    refine ⟨?_, [], [], .nil t, ?_, (List.append_nil _).symm⟩
    · exact
        { id := hmarked.id
          serialNumber := hmarked.serialNumber
          certId := Keyed.unique_modify (fun _ _ _ => rfl) ht.certId
          acmeSerialNumber := Keyed.unique_modify (fun _ _ _ => rfl) ht.acmeSerialNumber
          twin := by
            intro b hb
            obtain ⟨old, hold, rfl⟩ := Keyed.mem_modify.mp hb
            obtain ⟨c, hc, hsame, hissued⟩ := hmarked.twin old hold
            refine ⟨c, hc, hsame.trans ?_, hissued⟩
            split <;> rfl }
    · dsimp only
      rw [Keyed.modify_eq_modify ht.certId ht.acmeSerialNumber ha, hserial, List.append_nil]
  | createRoot subjectName validityDays now draws =>
    obtain ⟨certPem, -, h⟩ := Fallible.bind_eq_ok.mp h
    exact created_effect ht rfl h rfl fun _ _ _ _ h => by cases h
  | createIntermediate subjectName parentCertificateId validityDays now draws =>
    obtain ⟨parent, -, h⟩ := Fallible.bind_eq_ok.mp h
    obtain ⟨certPem, -, h⟩ := Fallible.bind_eq_ok.mp h
    exact created_effect ht rfl h rfl fun _ _ _ _ h => by cases h
  | renew certificateId validityDays now draws => exact renewCertificate_ok ht h
  | revoke certificateId reason now =>
    obtain ⟨-, rfl⟩ := revokeCertificate_ok h
    exact ⟨ht.mark _ _ _, [], [], .nil t, (List.append_nil _).symm, (List.append_nil _).symm⟩
  | revokeNotify aic reason now =>
    obtain ⟨_, -, h⟩ := Fallible.bind_eq_ok.mp h
    obtain rfl := Fallible.pure_eq_ok.mp h
    rw [revokeCertificatesByAic, revokeLoop_eq]
    exact ⟨ht.mark _ _ _, [], [], .nil t, (List.append_nil _).symm, (List.append_nil _).symm⟩

end Effects

section Permanence

def Consistent (t : Tables) : Prop :=
  ∀ a ∈ t.acmeCertificates, ∀ c ∈ t.certificates, a.serialNumber = c.serialNumber →
    a.status = c.status

structure Permanent (t t' : Tables) : Prop where
  acme : ∀ a ∈ t.acmeCertificates, a.status = .revoked → ∃ a' ∈ t'.acmeCertificates,
    a'.certId = a.certId ∧ a'.status = .revoked ∧ a'.revokedAt = a.revokedAt ∧
      a'.revocationReason = a.revocationReason
  common : ∀ c ∈ t.certificates, c.status = .revoked → ∃ c' ∈ t'.certificates,
    c'.id = c.id ∧ c'.status = .revoked ∧ c'.revokedAt = c.revokedAt ∧
      c'.revocationReason = c.revocationReason

def administered (t : Tables) : Operation → List ℕ
  | .acmeRevoke _ _ _ _ => []
  | op => revokes t op

/-- No row that the administration revokes is revoked already, except with the same outcome, and
none has an ACME row that is not. -/
def Unharmed (t : Tables) (op : Operation) : Prop :=
  ∀ c ∈ t.certificates, c.id ∈ administered t op →
    (c.status = .revoked → c.revokedAt = some (revocationTime op c.id) ∧
      c.revocationReason = some (revocationReason op)) ∧
    ∀ a ∈ t.acmeCertificates, a.serialNumber = c.serialNumber → a.status = .revoked

theorem Permanent.refl (t : Tables) : Permanent t t where
  acme := fun a ha hstatus => ⟨a, ha, rfl, hstatus, rfl, rfl⟩
  common := fun c hc hstatus => ⟨c, hc, rfl, hstatus, rfl, rfl⟩

theorem Permanent.trans {t u v : Tables} (h : Permanent t u) (h' : Permanent u v) :
    Permanent t v := by
  constructor
  · intro a ha hstatus
    obtain ⟨b, hb, hid, hbstatus, htime, hreason⟩ := h.acme a ha hstatus
    obtain ⟨d, hd, hid', hdstatus, htime', hreason'⟩ := h'.acme b hb hbstatus
    exact ⟨d, hd, hid'.trans hid, hdstatus, htime'.trans htime, hreason'.trans hreason⟩
  · intro c hc hstatus
    obtain ⟨b, hb, hid, hbstatus, htime, hreason⟩ := h.common c hc hstatus
    obtain ⟨d, hd, hid', hdstatus, htime', hreason'⟩ := h'.common b hb hbstatus
    exact ⟨d, hd, hid'.trans hid, hdstatus, htime'.trans htime, hreason'.trans hreason⟩

variable {t t' : Tables} {op : Operation} {newAcme : List AcmeCertificate} {new : List Certificate}

theorem Effect.mem_common (h : Effect t op t' newAcme new) {c : Certificate} :
    c ∈ t'.certificates ↔ c ∈ new ∨ ∃ old ∈ t.certificates,
      c = if old.id ∈ revokes t op then markRevoked (revocationTime op old.id) (revocationReason op) old
        else old := by
  rw [h.common, List.mem_append, or_comm]
  simp [markAll, eq_comm]

theorem Effect.mark_mem (h : Effect t op t' newAcme new) {c : Certificate}
    (hc : c ∈ t.certificates) (hid : c.id ∈ revokes t op) :
    markRevoked (revocationTime op c.id) (revocationReason op) c ∈ t'.certificates :=
  h.mem_common.mpr (.inr ⟨c, hc, (if_pos hid).symm⟩)

theorem consistent_iff_of_administration (ht : Indexed t) (hconsistent : Consistent t)
    (h : Effect t op t' newAcme new) (hacme : t'.acmeCertificates = t.acmeCertificates ++ newAcme) :
    Consistent t' ↔ ∀ c ∈ t.certificates, c.id ∈ revokes t op → ∀ a ∈ t.acmeCertificates,
      a.serialNumber = c.serialNumber → a.status = .revoked := by
  constructor
  · intro h' c hc hid a ha hserial
    exact h' a (hacme ▸ List.mem_append_left _ ha) _ (h.mark_mem hc hid) hserial
  · intro h' a ha c' hc' hserial
    rw [hacme] at ha
    rcases List.mem_append.mp ha with ha | ha
    · obtain ⟨twin, htwin, htwinSerial, -⟩ := ht.twin a ha
      rcases h.mem_common.mp hc' with hnew | ⟨c, hc, rfl⟩
      · exact absurd (htwinSerial.trans hserial) ((h.added.common c' hnew).2 twin htwin).2
      · split at hserial
        next hid =>
          rw [if_pos hid]
          exact h' c hc hid a ha hserial
        next hid =>
          rw [if_neg hid]
          exact hconsistent a ha c hc hserial
    · obtain ⟨hvalid, twin, htwin, htwinSerial⟩ := h.added.acme a ha
      rcases h.mem_common.mp hc' with hnew | ⟨c, hc, rfl⟩
      · rw [hvalid, (h.added.common c' hnew).1]
      · have hserial' : c.serialNumber = twin.serialNumber := by
          rw [htwinSerial, hserial]
          split <;> rfl
        exact absurd hserial' ((h.added.common twin htwin).2 c hc).2

theorem permanent_iff_of_administration (ht' : Indexed t') (h : Effect t op t' newAcme new)
    (hacme : t'.acmeCertificates = t.acmeCertificates ++ newAcme) :
    Permanent t t' ↔ ∀ c ∈ t.certificates, c.id ∈ revokes t op → c.status = .revoked →
      c.revokedAt = some (revocationTime op c.id) ∧
        c.revocationReason = some (revocationReason op) := by
  constructor
  · intro h' c hc hid hstatus
    obtain ⟨c', hc', hid', -, htime, hreason⟩ := h'.common c hc hstatus
    obtain rfl := ht'.id.eq_of_key hc' (h.mark_mem hc hid) hid'
    exact ⟨htime.symm, hreason.symm⟩
  · intro h'
    constructor
    · intro a ha hstatus
      exact ⟨a, hacme ▸ List.mem_append_left _ ha, rfl, hstatus, rfl, rfl⟩
    · intro c hc hstatus
      by_cases hid : c.id ∈ revokes t op
      · obtain ⟨htime, hreason⟩ := h' c hc hid hstatus
        exact ⟨_, h.mark_mem hc hid, rfl, rfl, htime.symm, hreason.symm⟩
      · exact ⟨c, h.mem_common.mpr (.inr ⟨c, hc, (if_neg hid).symm⟩), rfl, hstatus, rfl, rfl⟩

theorem acmeRevoke_safe (ht : Indexed t) (hconsistent : Consistent t) {cert : X509}
    {owned : Option (ℕ → Bool)} {reason : Option ℤ} {now : Time}
    (h : Acme.revokeCert t cert owned reason now = .ok t') : Consistent t' ∧ Permanent t t' := by
  obtain ⟨a, ha, hserial, hstatus, hacme, hcommon⟩ := acmeRevoke_ok ht h
  have hids : ∀ c ∈ t.certificates, c.id ∈ revokes t (.acmeRevoke cert owned reason now) ↔
      c.serialNumber = a.serialNumber ∧ c.status ≠ .revoked := by
    intro c hc
    simp only [revokes, List.mem_map, List.mem_filter, decide_eq_true_eq, hserial]
    constructor
    · rintro ⟨d, ⟨hd, hmarked⟩, hid⟩
      obtain rfl := ht.id.eq_of_key hd hc hid
      exact hmarked
    · exact fun hmarked => ⟨c, ⟨hc, hmarked⟩, rfl⟩
  have hunmarked : ∀ c ∈ t.certificates, (c.serialNumber = a.serialNumber → c.status = .revoked) →
      c ∈ t'.certificates := by
    intro c hc hnot
    rw [hcommon]
    refine List.mem_map.mpr ⟨c, hc, if_neg fun hid => ?_⟩
    obtain ⟨hsame, hlive⟩ := (hids c hc).mp hid
    exact hlive (hnot hsame)
  constructor
  · intro b' hb' c' hc' hsame
    rw [hacme] at hb'
    rw [hcommon] at hc'
    obtain ⟨b, hb, rfl⟩ := Keyed.mem_modify.mp hb'
    obtain ⟨c, hc, rfl⟩ := List.mem_map.mp hc'
    have hserials : b.serialNumber = c.serialNumber := by
      split at hsame <;> split at hsame <;> exact hsame
    have hbc := hconsistent b hb c hc hserials
    by_cases hba : b.certId = a.certId
    · obtain rfl := ht.certId.eq_of_key hb ha hba
      rw [if_pos rfl, if_pos ((hids c hc).mpr ⟨hserials.symm, hbc ▸ hstatus⟩)]
      rfl
    · have hne : c.serialNumber ≠ a.serialNumber := fun hcserial => hba
        (congrArg _ (ht.acmeSerialNumber.eq_of_key hb ha (hserials.trans hcserial)))
      rw [if_neg hba, if_neg fun hid => hne ((hids c hc).mp hid).1]
      exact hbc
  · constructor
    · intro b hb hrevoked
      have hba : b.certId ≠ a.certId := fun hba =>
        hstatus (ht.certId.eq_of_key hb ha hba ▸ hrevoked)
      refine ⟨b, ?_, rfl, hrevoked, rfl, rfl⟩
      rw [hacme]
      exact Keyed.mem_modify.mpr ⟨b, hb, (if_neg hba).symm⟩
    · intro c hc hrevoked
      exact ⟨c, hunmarked c hc fun _ => hrevoked, rfl, hrevoked, rfl, rfl⟩

theorem perform_safe_iff (ht : Indexed t) (hconsistent : Consistent t)
    (h : perform t op = .ok t') : Consistent t' ∧ Permanent t t' ↔ Unharmed t op := by
  obtain ⟨ht', newAcme, new, heffect⟩ := perform_effect ht h
  have hother (hacme : t'.acmeCertificates = t.acmeCertificates ++ newAcme)
      (hadministered : administered t op = revokes t op) :
      Consistent t' ∧ Permanent t t' ↔ Unharmed t op := by
    rw [consistent_iff_of_administration ht hconsistent heffect hacme,
      permanent_iff_of_administration ht' heffect hacme, Unharmed, hadministered]
    exact ⟨fun h c hc hid => ⟨h.2 c hc hid, h.1 c hc hid⟩,
      fun h => ⟨fun c hc hid => (h c hc hid).2, fun c hc hid => (h c hc hid).1⟩⟩
  cases op with
  | acmeRevoke cert owned reason now =>
    exact iff_of_true (acmeRevoke_safe ht hconsistent h) fun _ _ hid => absurd hid List.not_mem_nil
  | _ => exact hother heffect.acme rfl

def Guarded (t : Tables) (op : Operation) : Prop := ∀ t', perform t op = .ok t' → Unharmed t op

/-- In every state of the run the tables agree, and what is revoked in one is so in every later
one. -/
def RevocationHeld (ops : List Operation) : Prop :=
  ∀ pre mid post s t, ops = pre ++ mid ++ post → authority.exec noCertificates pre = some s →
    authority.exec s mid = some t → Consistent t ∧ Permanent s t

def Safe (s : Tables) (op : Operation) : Prop :=
  ∀ t, authority.step s op = some t → Consistent t ∧ Permanent s t

theorem step_cases {s t : Tables} (h : authority.step s op = some t) :
    perform s op = .ok t ∨ t = s := by
  change (match perform s op with | .ok t' => some t' | .error _ => some s) = some t at h
  cases hperform : perform s op with
  | ok u =>
    rw [hperform] at h
    exact .inl (congrArg Except.ok (Option.some.inj h))
  | error e =>
    rw [hperform] at h
    exact .inr (Option.some.inj h).symm

theorem step_of_ok {s t : Tables} (h : perform s op = .ok t) : authority.step s op = some t := by
  change (match perform s op with | .ok t' => some t' | .error _ => some s) = some t
  rw [h]

theorem safe_iff_guarded (ht : Indexed t) (hconsistent : Consistent t) :
    Safe t op ↔ Guarded t op := by
  constructor
  · intro hsafe t' hperform
    exact (perform_safe_iff ht hconsistent hperform).mp (hsafe t' (step_of_ok hperform))
  · intro hguarded t' hstep
    rcases step_cases hstep with hperform | rfl
    · exact (perform_safe_iff ht hconsistent hperform).mpr (hguarded t' hperform)
    · exact ⟨hconsistent, .refl _⟩

theorem indexed_step {s t : Tables} (hs : Indexed s) (h : authority.step s op = some t) :
    Indexed t := by
  rcases step_cases h with hperform | rfl
  · exact (perform_effect hs hperform).1
  · exact hs

theorem indexed_noCertificates : Indexed noCertificates where
  id := List.nodup_nil
  serialNumber := List.nodup_nil
  certId := List.nodup_nil
  acmeSerialNumber := List.nodup_nil
  twin := fun _ h => absurd h List.not_mem_nil

theorem consistent_noCertificates : Consistent noCertificates :=
  fun _ h => absurd h List.not_mem_nil

theorem revocationHeld_iff_safe (ops : List Operation) :
    RevocationHeld ops ↔ authority.Meets Safe noCertificates ops := by
  constructor
  · intro hheld
    rw [Transition.System.meets_iff]
    rintro pre op post s rfl hs t ht
    refine hheld pre [op] post s t (by simp) hs ?_
    rw [Transition.System.exec_cons, ht]
    rfl
  · rintro hsafe pre mid post s t rfl hs ht
    have hall := (authority.meets_append hsafe (authority.exec_append_of_exec hs ht)).1
    obtain ⟨hpre, hmid⟩ := authority.meets_append hall hs
    have hconsistent : Consistent s := authority.exec_invariant (I := Consistent)
      (fun _ _ u _ hsafe hu => (hsafe u hu).1) consistent_noCertificates hpre hs
    exact authority.exec_invariant (I := fun u => Consistent u ∧ Permanent s u)
      (fun _ _ v hu hsafe hv => ⟨(hsafe v hv).1, hu.2.trans (hsafe v hv).2⟩)
      ⟨hconsistent, .refl s⟩ hmid ht

theorem revocation_held_iff (ops : List Operation) :
    RevocationHeld ops ↔ authority.Meets Guarded noCertificates ops := by
  rw [revocationHeld_iff_safe]
  constructor
  · intro hsafe
    exact authority.meets_of_invariant (I := fun t => Indexed t ∧ Consistent t)
      (fun _ _ u hs hsafe hu => ⟨indexed_step hs.1 hu, (hsafe u hu).1⟩)
      (fun _ _ hs hsafe => (safe_iff_guarded hs.1 hs.2).mp hsafe)
      ⟨indexed_noCertificates, consistent_noCertificates⟩ hsafe
  · intro hguarded
    exact authority.meets_of_invariant (I := fun t => Indexed t ∧ Consistent t)
      (fun _ _ u hs hguarded hu =>
        ⟨indexed_step hs.1 hu, ((safe_iff_guarded hs.1 hs.2).mpr hguarded u hu).1⟩)
      (fun _ _ hs hguarded => (safe_iff_guarded hs.1 hs.2).mpr hguarded)
      ⟨indexed_noCertificates, consistent_noCertificates⟩ hguarded

def agentIssue : Issue :=
  { orderId := 1
    certPem := { serialNumber := 16, subject := [] }
    notAfter := 100
    agentId := ⟨['A'], List.cons_ne_nil _ _⟩
    certId := ['c']
    id := 1
    subject := [] }

def rootDraws : Draws := { id := 2, pairSerial := upperHex 10, serialNumber := upperHex 11 }

theorem administration_harms :
    ¬ RevocationHeld [.issue [agentIssue], .revokeNotify ['A'] 1 fun _ => 5] ∧
      ¬ RevocationHeld [.createRoot [] 10 0 rootDraws, .revoke 2 "keyCompromise".toList 5,
        .revoke 2 [] 6] := by
  constructor
  · intro h
    have hrun : ∃ t, authority.exec noCertificates
          [.issue [agentIssue], .revokeNotify ['A'] 1 fun _ => 5] = some t ∧
        ∃ a ∈ t.acmeCertificates, ∃ c ∈ t.certificates,
          a.serialNumber = c.serialNumber ∧ a.status ≠ c.status := ⟨_, rfl, by decide⟩
    obtain ⟨t, ht, a, ha, c, hc, hserial, hstatus⟩ := hrun
    exact hstatus ((h _ [] [] t t rfl ht rfl).1 a ha c hc hserial)
  · intro h
    have hrun : ∃ s t, authority.exec noCertificates
          [.createRoot [] 10 0 rootDraws, .revoke 2 "keyCompromise".toList 5] = some s ∧
        authority.exec s [.revoke 2 [] 6] = some t ∧
        ∃ c ∈ s.certificates, c.status = .revoked ∧
          ∀ c' ∈ t.certificates, c'.revokedAt ≠ c.revokedAt := ⟨_, _, rfl, rfl, by decide⟩
    obtain ⟨s, t, hs, ht, c, hc, hstatus, hchanged⟩ := hrun
    obtain ⟨c', hc', -, -, htime, -⟩ := (h _ _ [] s t rfl hs ht).2.common c hc hstatus
    exact hchanged c' hc' htime

end Permanence

end Acps.Ca
