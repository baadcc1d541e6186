import Acps.Ca.Versions
import Acps.Lib.Sorter

/-!
Looking up the certificates of an agent by version: when both queries find the one they should.
-/

namespace Acps.Ca

open Aic (Text)

inductive RetrievalError where
  | certificateNotFound (message : String)
  /-- `CertificateNotFoundError` with a message that names the agent. -/
  | noValidCertificate (aic : Text)
  | certificateRetrievalFailed (message : String)
  deriving DecidableEq

def scalarOneOrNone (rows : List Certificate) : Option (Option Certificate) :=
  match rows with
  | [] => some none
  | [c] => some (some c)
  | _ :: _ :: _ => none

def matching (t : Tables) (aic : Text) : Option ℕ → List Certificate
  | some version => t.certificates.filter fun c => c.aic = some aic ∧ c.version = version
  | none => t.certificates.filter fun c => c.aic = some aic ∧ c.status = .valid

def retrieveCertificateByAicAndVersion (t : Tables) (aic : Text) (version : Option ℕ) :
    Except RetrievalError Certificate :=
  match scalarOneOrNone (matching t aic version) with
  | none =>
    .error (.certificateRetrievalFailed "Failed to retrieve certificate by AIC and version.")
  | some none =>
    .error (.certificateNotFound "Certificate not found for the given AIC and version.")
  | some (some c) => .ok c

abbrev VersionSorter := Sorter fun c d : Certificate => d.version ≤ c.version

def getCurrentValidCertificateByAic (S : VersionSorter) (t : Tables) (aic : Text) :
    Except RetrievalError Certificate :=
  match scalarOneOrNone ((S.order (validOf t aic)).take 1) with
  | none =>
    .error (.certificateRetrievalFailed "Failed to retrieve current valid certificate by AIC.")
  | some none => .error (.noValidCertificate aic)
  | some (some c) => .ok c

structure LookupsExact (t : Tables) (aic : Text) : Prop where
  current : validOf t aic ≠ [] → ∃ c ∈ validOf t aic, (∀ d ∈ validOf t aic, d.version ≤ c.version) ∧
    retrieveCertificateByAicAndVersion t aic none = .ok c ∧
      ∀ S, getCurrentValidCertificateByAic S t aic = .ok c
  stored : ∀ c ∈ t.certificates, c.aic = some aic →
    retrieveCertificateByAicAndVersion t aic (some c.version) = .ok c

section Queries

variable {t : Tables} {aic : Text}

theorem retrieve_eq_ok {version : Option ℕ} {c : Certificate} :
    retrieveCertificateByAicAndVersion t aic version = .ok c ↔ matching t aic version = [c] := by
  unfold retrieveCertificateByAicAndVersion
  rcases matching t aic version with _ | ⟨d, _ | ⟨e, rows⟩⟩ <;> simp [scalarOneOrNone]

theorem current_of_singleton {c : Certificate} (h : validOf t aic = [c]) (S : VersionSorter) :
    getCurrentValidCertificateByAic S t aic = .ok c := by
  unfold getCurrentValidCertificateByAic
  rw [h, S.order_singleton]
  rfl

def versionsOf (t : Tables) (aic : Text) : List ℕ :=
  (t.certificates.filter (·.aic = some aic)).map (·.version)

theorem length_matching (t : Tables) (aic : Text) (version : ℕ) :
    (matching t aic (some version)).length = (versionsOf t aic).count version := by
  rw [versionsOf, List.count_eq_countP, List.countP_map, List.countP_filter,
    List.countP_eq_length_filter]
  refine congrArg List.length (List.filter_congr fun c _ => ?_)
  rw [Bool.decide_and, Bool.and_comm]
  rfl

theorem mem_matching {c : Certificate} (hc : c ∈ t.certificates) (haic : c.aic = some aic) :
    c ∈ matching t aic (some c.version) :=
  List.mem_filter.mpr ⟨hc, by simp [haic]⟩

theorem eq_singleton_of_length_le {α : Type} {l : List α} {a : α} (ha : a ∈ l)
    (h : l.length ≤ 1) : l = [a] := by
  match l with
  | [b] => rw [List.mem_singleton.mp ha]

theorem stored_iff : (∀ c ∈ t.certificates, c.aic = some aic →
      retrieveCertificateByAicAndVersion t aic (some c.version) = .ok c) ↔
    (versionsOf t aic).Nodup := by
  rw [List.nodup_iff_count_le_one]
  constructor
  · intro h version
    by_cases hmem : version ∈ versionsOf t aic
    · obtain ⟨c, hc, rfl⟩ := List.mem_map.mp hmem
      obtain ⟨hc, haic⟩ := List.mem_filter.mp hc
      have hone := retrieve_eq_ok.mp (h c hc (of_decide_eq_true haic))
      rw [← length_matching, hone]
      rfl
    · rw [List.count_eq_zero_of_not_mem hmem]
      exact Nat.zero_le 1
  · intro h c hc haic
    apply retrieve_eq_ok.mpr
    apply eq_singleton_of_length_le (mem_matching hc haic)
    rw [length_matching]
    exact h c.version

theorem lookupsExact_iff : LookupsExact t aic ↔
    (validOf t aic).length ≤ 1 ∧ (versionsOf t aic).Nodup := by
  constructor
  · intro h
    refine ⟨?_, stored_iff.mp h.stored⟩
    by_cases hnil : validOf t aic = []
    · simp [hnil]
    · obtain ⟨c, -, -, hretrieve, -⟩ := h.current hnil
      rw [show validOf t aic = [c] from retrieve_eq_ok.mp hretrieve]
      rfl
  · rintro ⟨hlength, hnodup⟩
    refine ⟨fun hne => ?_, stored_iff.mpr hnodup⟩
    obtain ⟨c, hc⟩ := List.exists_mem_of_ne_nil _ hne
    have hone := eq_singleton_of_length_le hc hlength
    refine ⟨c, hc, ?_, retrieve_eq_ok.mpr hone, current_of_singleton hone⟩
    intro d hd
    rw [hone] at hd
    rw [List.mem_singleton.mp hd]

end Queries

section Reachable

open Versions

theorem labels_append (t : Tables) (c : Certificate) :
    labels { t with certificates := t.certificates ++ [c] } = labels t ++ [(c.aic, c.version)] := by
  simp [labels]

theorem labels_modify (t : Tables) (acmeCertificates : List AcmeCertificate) (id : ℕ) (now : Time)
    (reason : RevocationReason) :
    labels { acmeCertificates, certificates :=
      Keyed.modify Certificate.id t.certificates id (markRevoked now reason) } = labels t :=
  labels_revokeRow t (id, now, reason)

theorem labels_markAll (t : Tables) (ids : List ℕ) (now : ℕ → Time) (reason : RevocationReason) :
    labels { t with certificates := markAll ids now reason t.certificates } = labels t := by
  unfold labels markAll
  rw [List.map_map]
  refine List.map_congr_left fun c _ => ?_
  by_cases hid : c.id ∈ ids <;> simp [hid, markRevoked]

def Growing (t : Tables) : Prop := Increasing agents (labels t)

variable {t t' : Tables}

theorem Growing.congr (h : Growing t) (heq : labels t' = labels t) : Growing t' := by
  unfold Growing
  rw [heq]
  exact h

theorem Growing.add (h : Growing t) {c : Certificate}
    (hversion : c.aic ∈ agents → c.version = successor (labels t) c.aic)
    (heq : labels t' = labels t ++ [(c.aic, c.version)]) : Growing t' := by
  unfold Growing
  rw [heq]
  apply increasing_append h (List.pairwise_singleton _ _)
  intro a ha b hb hagent hab
  rw [List.mem_singleton.mp hb] at hab ⊢
  change a.1 = c.aic at hab
  change a.2 < c.version
  rw [hab] at hagent
  rw [hversion hagent, ← hab]
  exact lt_successor ha

theorem growing_createCertificate {data : CertificateData} {draws : Draws} (h : Growing t)
    (hcreate : createCertificate t data draws = .ok t') : Growing t' := by
  rw [createCertificate_eq] at hcreate
  obtain ⟨-, -, rfl⟩ := insertCertificate_eq_ok.mp hcreate
  exact h.add (fun hagent => versionFor_eq t hagent) (labels_append t _)

theorem growing_acmeCreate {data : Acme.CertificateCreate} {certId : Text} {id : ℕ} {subject : Text}
    (h : Growing t) (hcreate : Acme.createCertificate t data certId id subject = .ok t') :
    Growing t' := by
  obtain ⟨u, hu, hcreate⟩ := Fallible.bind_eq_ok.mp hcreate
  obtain ⟨-, -, rfl⟩ := insertAcmeCertificate_eq_ok.mp hu
  obtain ⟨-, -, rfl⟩ := insertCertificate_eq_ok.mp hcreate
  exact h.add (fun _ => getNextCertificateVersion_eq _ data.aic.2) (labels_append t _)

theorem growing_issue {issues : List Issue} (h : Growing t)
    (hissue : issueCertificates t issues = .ok t') : Growing t' := by
  unfold issueCertificates at hissue
  induction issues generalizing t with
  | nil =>
    obtain rfl := Fallible.pure_eq_ok.mp hissue
    exact h
  | cons issue issues ih =>
    rw [List.foldlM_cons] at hissue
    obtain ⟨u, hu, hissue⟩ := Fallible.bind_eq_ok.mp hissue
    exact ih (growing_acmeCreate h hu) hissue

theorem growing_revoke {id : ℕ} {reason : Text} {now : Time} (h : Growing t)
    (hrevoke : revokeCertificate t id reason now = .ok t') : Growing t' := by
  obtain ⟨-, rfl⟩ := revokeCertificate_ok hrevoke
  exact h.congr (labels_markAll t _ _ _)

theorem labels_acmeRevoke (t : Tables) (a : AcmeCertificate) (reason : ℤ) (now : Time) :
    labels (Acme.revokeCertificate t a reason now) = labels t := by
  unfold Acme.revokeCertificate
  dsimp only
  cases Keyed.find Certificate.serialNumber t.certificates a.serialNumber with
  | none => rfl
  | some common =>
    dsimp only
    split_ifs
    · exact labels_modify t _ _ _ _
    · rfl

theorem growing_perform {op : Operation} (h : Growing t) (hperform : perform t op = .ok t') :
    Growing t' := by
  cases op with
  | issue issues => exact growing_issue h hperform
  | acmeRevoke cert owned reason now =>
    obtain ⟨code, -, hperform⟩ := Fallible.bind_eq_ok.mp hperform
    obtain ⟨a, -, hperform⟩ := Fallible.bind_eq_ok.mp hperform
    obtain rfl := Fallible.pure_eq_ok.mp hperform
    exact h.congr (labels_acmeRevoke t a code now)
  | createRoot subjectName validityDays now draws =>
    obtain ⟨certPem, -, hperform⟩ := Fallible.bind_eq_ok.mp hperform
    exact growing_createCertificate h hperform
  | createIntermediate subjectName parentCertificateId validityDays now draws =>
    obtain ⟨parent, -, hperform⟩ := Fallible.bind_eq_ok.mp hperform
    obtain ⟨certPem, -, hperform⟩ := Fallible.bind_eq_ok.mp hperform
    exact growing_createCertificate h hperform
  | renew certificateId validityDays now draws =>
    change renewCertificate t certificateId validityDays now draws = .ok t' at hperform
    unfold renewCertificate at hperform
    cases hfind : getCertificateById t certificateId with
    | none =>
      rw [hfind] at hperform
      cases hperform
    | some old =>
      rw [hfind] at hperform
      obtain ⟨_, -, hperform⟩ := Fallible.bind_eq_ok.mp hperform
      obtain ⟨certPem, -, hperform⟩ := Fallible.bind_eq_ok.mp hperform
      obtain ⟨u, hu, hperform⟩ := Fallible.bind_eq_ok.mp hperform
      exact growing_revoke (growing_createCertificate h hu) hperform
  | revoke certificateId reason now => exact growing_revoke h hperform
  | revokeNotify aic reason now =>
    obtain ⟨-, -, hperform⟩ := Fallible.bind_eq_ok.mp hperform
    obtain rfl := Fallible.pure_eq_ok.mp hperform
    unfold revokeCertificatesByAic
    rw [revokeLoop_eq]
    exact h.congr (labels_markAll t _ _ _)

theorem growing_of_exec {ops : List Operation} (h : authority.exec noCertificates ops = some t) :
    Growing t := by
  refine authority.exec_induction (I := Growing) ?_ (by exact List.Pairwise.nil) h
  intro s op u hs hstep
  rcases step_cases hstep with hperform | rfl
  · exact growing_perform hs hperform
  · exact hs

theorem Growing.nodup_versionsOf (h : Growing t) (aic : Acme.AgentId) :
    (versionsOf t aic.1).Nodup := by
  have hnodup := Increasing.nodup h (k := some aic.1) ⟨aic, rfl⟩
  rw [labels, List.filter_map, List.map_map] at hnodup
  exact hnodup

theorem lookups_exact_iff (t : Tables) :
    (∀ aic : Text, LookupsExact t aic ↔
      (validOf t aic).length ≤ 1 ∧ (versionsOf t aic).Nodup) ∧
    ∀ ops : List Operation, authority.exec noCertificates ops = some t →
      ∀ aic : Acme.AgentId, LookupsExact t aic.1 ↔ (validOf t aic.1).length ≤ 1 := by
  refine ⟨fun aic => lookupsExact_iff, fun ops h aic => ?_⟩
  rw [lookupsExact_iff]
  exact and_iff_left ((growing_of_exec h).nodup_versionsOf aic)

namespace Sample

def again : Issue :=
  { orderId := 2
    certPem := { serialNumber := 32, subject := [] }
    notAfter := 100
    agentId := agentIssue.agentId
    certId := ['d']
    id := 2
    subject := [] }

end Sample

theorem lookup_after_renewal : ∃ t, authority.exec noCertificates
    [.issue [agentIssue], .renew 1 none 5 rootDraws] = some t ∧
      LookupsExact t agentIssue.agentId.1 := by
  refine ⟨_, rfl, ?_⟩
  exact ((lookups_exact_iff _).2 [.issue [agentIssue], .renew 1 none 5 rootDraws] rfl
    agentIssue.agentId).mpr (by decide +kernel)

theorem lookup_among_two_fails : ¬ ∀ (ops : List Operation) (t : Tables),
    authority.exec noCertificates ops = some t →
      ∀ aic : Acme.AgentId, LookupsExact t aic.1 := by
  intro h
  have hrun : (authority.exec noCertificates [.issue [agentIssue], .issue [Sample.again]]).any
      (fun t => (validOf t agentIssue.agentId.1).length = 2) = true := by
    decide +kernel
  obtain ⟨t, ht, hlength⟩ := (Option.any_eq_true _ _).mp hrun
  have hle := (lookupsExact_iff.mp (h _ t ht agentIssue.agentId)).1
  rw [of_decide_eq_true hlength] at hle
  exact absurd hle (by decide)

end Reachable

end Acps.Ca
