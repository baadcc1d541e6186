import Acps.Ca.Revocation
import Acps.Lib.ReadCommitted

/-!
Versions of certificates when transactions run at the same time: what the numbers of one agent
look like after any interleaving, and when no two of them are the same.
-/

namespace Acps.Ca.Versions

open Aic (Text)
open ReadCommitted

section Numbering

variable {κ : Type} [DecidableEq κ]

def successor (labels : List (κ × ℕ)) (k : κ) : ℕ :=
  ((labels.filter (·.1 = k)).map (·.2)).foldr max 0 + 1

theorem lt_successor {labels : List (κ × ℕ)} {l : κ × ℕ} (hl : l ∈ labels) :
    l.2 < successor labels l.1 := by
  have hmem : l.2 ∈ (labels.filter (·.1 = l.1)).map (·.2) :=
    List.mem_map_of_mem (List.mem_filter.mpr ⟨hl, by simp⟩)
  generalize hnumbers : (labels.filter (·.1 = l.1)).map (·.2) = numbers at hmem
  have hle : l.2 ≤ numbers.foldr max 0 := by
    clear hnumbers
    induction numbers with
    | nil => cases hmem
    | cons n numbers ih =>
      rw [List.foldr_cons]
      rcases List.mem_cons.mp hmem with hn | hn
      · omega
      · have := ih hn
        omega
  rw [successor, hnumbers]
  omega

def Increasing (K : Set κ) (labels : List (κ × ℕ)) : Prop :=
  labels.Pairwise fun a b => a.1 ∈ K → a.1 = b.1 → a.2 < b.2

omit [DecidableEq κ] in
theorem increasing_append {K : Set κ} {labels new : List (κ × ℕ)} (h : Increasing K labels)
    (hnew : Increasing K new) (hcross : ∀ a ∈ labels, ∀ b ∈ new, a.1 ∈ K → a.1 = b.1 → a.2 < b.2) :
    Increasing K (labels ++ new) :=
  List.pairwise_append.mpr ⟨h, hnew, hcross⟩

theorem Increasing.nodup {K : Set κ} {labels : List (κ × ℕ)} (h : Increasing K labels) {k : κ}
    (hk : k ∈ K) : ((labels.filter (·.1 = k)).map (·.2)).Nodup := by
  unfold List.Nodup
  rw [List.pairwise_map, List.pairwise_filter]
  apply h.imp
  intro a b hlt ha hb
  simp only [decide_eq_true_eq] at ha hb
  exact Nat.ne_of_lt (hlt (ha ▸ hk) (ha.trans hb.symm))

structure Above (K : Set κ) (labels : List (κ × ℕ)) (begun : List ℕ) : Prop where
  length : begun.length = labels.length
  bound : ∀ j n : ℕ, begun[j]? = some n → n ≤ j
  larger : ∀ (j n : ℕ) (b : κ × ℕ), begun[j]? = some n → labels[j]? = some b →
    ∀ a ∈ labels.take n, a.1 ∈ K → a.1 = b.1 → a.2 < b.2

omit [DecidableEq κ] in
theorem Above.append {K : Set κ} {labels new : List (κ × ℕ)} {begun : List ℕ} {n : ℕ}
    (h : Above K labels begun) (hn : n ≤ labels.length)
    (hnew : ∀ b ∈ new, ∀ a ∈ labels.take n, a.1 ∈ K → a.1 = b.1 → a.2 < b.2) :
    Above K (labels ++ new) (begun ++ List.replicate new.length n) := by
  refine ⟨?_, ?_, ?_⟩
  · simp [h.length]
  · intro j m hj
    rcases Nat.lt_or_ge j begun.length with hlt | hge
    · rw [List.getElem?_append_left hlt] at hj
      exact h.bound j m hj
    · rw [List.getElem?_append_right hge] at hj
      have hm := List.eq_of_mem_replicate (List.mem_of_getElem? hj)
      have hlength := h.length
      omega
  · intro j m b hj hb
    rcases Nat.lt_or_ge j begun.length with hlt | hge
    · rw [List.getElem?_append_left hlt] at hj
      have hm := h.bound j m hj
      have hlength := h.length
      rw [List.getElem?_append_left (by omega)] at hb
      rw [List.take_append_of_le_length (by omega)]
      exact h.larger j m b hj hb
    · rw [List.getElem?_append_right hge] at hj
      obtain rfl := List.eq_of_mem_replicate (List.mem_of_getElem? hj)
      rw [List.getElem?_append_right (by rw [← h.length]; exact hge)] at hb
      rw [List.take_append_of_le_length hn]
      exact hnew b (List.mem_of_getElem? hb)

end Numbering

structure Draft where
  acme : Option AcmeCertificate
  certificate : Certificate
  seen : ℕ

structure Changes where
  /-- How many certificates the table had when the transaction started. -/
  begun : ℕ
  drafts : List Draft
  revoked : List (ℕ × Time × RevocationReason)

structure Store where
  tables : Tables
  begun : List ℕ

def Draft.insert (t : Tables) (d : Draft) : Except CaError Tables := do
  let t ←
    match d.acme with
    | some a => t.insertAcmeCertificate a
    | none => pure t
  t.insertCertificate d.certificate

def revokeRow (t : Tables) (r : ℕ × Time × RevocationReason) : Tables :=
  { t with
    certificates := Keyed.modify Certificate.id t.certificates r.1 (markRevoked r.2.1 r.2.2) }

def Changes.apply (c : Changes) (s : Store) : Option Store :=
  match c.drafts.foldlM Draft.insert s.tables with
  | .error _ => none
  | .ok t =>
    some
      { tables := c.revoked.foldl revokeRow t
        begun := s.begun ++ List.replicate c.drafts.length c.begun }

def seenBy (drafts : List Draft) (t : Tables) : Tables :=
  { acmeCertificates := t.acmeCertificates ++ drafts.filterMap (·.acme)
    certificates := t.certificates ++ drafts.map (·.certificate) }

def versionFor (t : Tables) : Option Text → ℕ
  | some (c :: aic) => t.getNextCertificateVersion (c :: aic)
  | _ => 1

def newCertificate (data : CertificateData) (draws : Draws) (version : ℕ) : Certificate :=
  { id := draws.id
    certificateType := data.certificateType
    serialNumber := draws.serialNumber
    subject := data.subject
    issuer := data.issuer
    status := data.status
    expiresAt := data.expiresAt
    revokedAt := none
    revocationReason := none
    certificatePem := data.certificatePem
    version
    parentCertificateId := data.parentCertificateId
    aic := data.aic }

theorem createCertificate_eq (t : Tables) (data : CertificateData) (draws : Draws) :
    createCertificate t data draws =
      t.insertCertificate (newCertificate data draws (versionFor t data.aic)) := by
  unfold createCertificate newCertificate versionFor
  rcases data.aic with _ | _ | _ <;> rfl

def renewedData (old : Certificate) (certPem : X509) (validityDays : Option ℤ) (now : Time) :
    CertificateData :=
  { certificateType := old.certificateType
    subject := old.subject
    issuer := old.issuer
    status := .valid
    certificatePem := certPem
    parentCertificateId := old.parentCertificateId
    aic := old.aic
    expiresAt := now + days (validityDays.getD (defaultValidityDays old.certificateType)) }

namespace Acme

def acmeCertificate (issue : Issue) : AcmeCertificate :=
  { certId := issue.certId
    orderId := issue.orderId
    serialNumber := upperHex issue.certPem.serialNumber
    certificatePem := issue.certPem
    status := .valid
    notAfter := issue.notAfter
    revokedAt := none
    revocationReason := none
    aic := issue.agentId.1 }

def commonCertificate (issue : Issue) (version : ℕ) : Certificate :=
  { id := issue.id
    certificateType := .agent
    serialNumber := upperHex issue.certPem.serialNumber
    subject := issue.subject
    issuer := "Agent Trusted Registration CA".toList
    status := .valid
    expiresAt := issue.notAfter
    revokedAt := none
    revocationReason := none
    certificatePem := issue.certPem
    version
    parentCertificateId := none
    aic := some issue.agentId.1 }

end Acme

section Programs

def issueAll (begun : ℕ) (drafts : List Draft) : List Issue → Program Store Changes
  | [] => .commit { begun, drafts, revoked := [] }
  | issue :: issues =>
    .query fun s =>
      issueAll begun
        (drafts ++
          [{ acme := some (Acme.acmeCertificate issue)
             certificate := Acme.commonCertificate issue
               ((seenBy drafts s.tables).getNextCertificateVersion issue.agentId.1)
             seen := s.tables.certificates.length }])
        issues

def renewFrom (begun : ℕ) (old : Certificate) (certPem : X509) (validityDays : Option ℤ)
    (now : Time) (draws : Draws) (s : Store) : Program Store Changes :=
  let data := renewedData old certPem validityDays now
  .commit
    { begun
      drafts :=
        [{ acme := none
           certificate := newCertificate data draws (versionFor s.tables data.aic)
           seen := s.tables.certificates.length }]
      revoked := [(old.id, now, normalizeRevocationReason renewalReason)] }

def renewCertificate (begun : ℕ) (certificateId : ℕ) (validityDays : Option ℤ) (now : Time)
    (draws : Draws) : Program Store Changes :=
  .query fun s =>
    match getCertificateById s.tables certificateId with
    | none => .raise
    | some old => .query fun s =>
      match resolveRenewalParentCertificate s.tables old,
          generateCertificatePair old.subject draws.pairSerial with
      | .ok _, .ok certPem =>
        .query fun s => renewFrom begun old certPem validityDays now draws s
      | _, _ => .raise

def revokeCertificate (begun : ℕ) (certificateId : ℕ) (reason : Text) (now : Time) :
    Program Store Changes :=
  .query fun s =>
    match getCertificateById s.tables certificateId with
    | none => .raise
    | some c =>
      .commit { begun, drafts := [], revoked := [(c.id, now, normalizeRevocationReason reason)] }

inductive Request where
  | issue (issues : List Issue)
  | renew (certificateId : ℕ) (validityDays : Option ℤ) (now : Time) (draws : Draws)
  | revoke (certificateId : ℕ) (reason : Text) (now : Time)

def Request.program (begun : ℕ) : Request → Program Store Changes
  | .issue issues => issueAll begun [] issues
  | .renew certificateId validityDays now draws =>
    renewCertificate begun certificateId validityDays now draws
  | .revoke certificateId reason now => revokeCertificate begun certificateId reason now

def service : Service Request Store Changes where
  program r s := r.program s.tables.certificates.length
  apply := Changes.apply
  tick s := s

def empty : Store := { tables := noCertificates, begun := [] }

end Programs

section Labels

def Draft.label (d : Draft) : Option Text × ℕ := (d.certificate.aic, d.certificate.version)

def labels (t : Tables) : List (Option Text × ℕ) := t.certificates.map fun c => (c.aic, c.version)

def agents : Set (Option Text) := { a | ∃ aic : Acme.AgentId, a = some aic.1 }

theorem getNextCertificateVersion_eq (t : Tables) {aic : Text} (h : aic ≠ []) :
    t.getNextCertificateVersion aic = successor (labels t) (some aic) := by
  rw [Tables.getNextCertificateVersion, if_neg h, successor, labels, List.filter_map, List.map_map]
  rfl

theorem versionFor_eq (t : Tables) {a : Option Text} (h : a ∈ agents) :
    versionFor t a = successor (labels t) a := by
  obtain ⟨⟨aic, hne⟩, rfl⟩ := h
  cases aic with
  | nil => exact absurd rfl hne
  | cons c aic => exact getNextCertificateVersion_eq t hne

theorem labels_seenBy (drafts : List Draft) (t : Tables) :
    labels (seenBy drafts t) = labels t ++ drafts.map Draft.label := by
  simp [labels, seenBy, Draft.label]

theorem labels_revokeRow (t : Tables) (r : ℕ × Time × RevocationReason) :
    labels (revokeRow t r) = labels t := by
  unfold labels revokeRow Keyed.modify
  rw [List.map_map]
  refine List.map_congr_left fun c _ => ?_
  by_cases hid : c.id = r.1 <;> simp [hid, markRevoked]

theorem labels_revoked (rs : List (ℕ × Time × RevocationReason)) (t : Tables) :
    labels (rs.foldl revokeRow t) = labels t := by
  induction rs generalizing t with
  | nil => rfl
  | cons r rs ih => rw [List.foldl_cons, ih, labels_revokeRow]

theorem labels_insert {d : Draft} {t t' : Tables} (h : d.insert t = .ok t') :
    labels t' = labels t ++ [d.label] := by
  have hrest : ∃ u : Tables, u.certificates = t.certificates ∧
      u.insertCertificate d.certificate = .ok t' := by
    unfold Draft.insert at h
    cases hacme : d.acme with
    | none =>
      rw [hacme] at h
      exact ⟨t, rfl, h⟩
    | some a =>
      rw [hacme] at h
      obtain ⟨u, hu, h⟩ := Fallible.bind_eq_ok.mp h
      refine ⟨u, ?_, h⟩
      rw [(insertAcmeCertificate_eq_ok.mp hu).2.2]
  obtain ⟨u, hcertificates, hu⟩ := hrest
  rw [(insertCertificate_eq_ok.mp hu).2.2]
  simp [labels, hcertificates, Draft.label]

theorem labels_inserted {drafts : List Draft} {t t' : Tables}
    (h : drafts.foldlM Draft.insert t = .ok t') :
    labels t' = labels t ++ drafts.map Draft.label := by
  induction drafts generalizing t with
  | nil => simp [Fallible.pure_eq_ok.mp h]
  | cons d drafts ih =>
    rw [List.foldlM_cons] at h
    obtain ⟨u, hu, h⟩ := Fallible.bind_eq_ok.mp h
    rw [ih h, labels_insert hu, List.map_cons, List.append_assoc]
    rfl

theorem apply_eq_some {c : Changes} {s t : Store} (h : c.apply s = some t) :
    labels t.tables = labels s.tables ++ c.drafts.map Draft.label ∧
      t.begun = s.begun ++ List.replicate (c.drafts.map Draft.label).length c.begun := by
  unfold Changes.apply at h
  cases hinsert : c.drafts.foldlM Draft.insert s.tables with
  | error e =>
    rw [hinsert] at h
    cases h
  | ok u =>
    rw [hinsert] at h
    cases h
    refine ⟨?_, ?_⟩
    · rw [labels_revoked, labels_inserted hinsert]
    · rw [List.length_map]

end Labels

section Runs

structure Numbered (c : Changes) (s : Store) : Prop where
  begun : c.begun ≤ (labels s.tables).length
  seen : ∀ d ∈ c.drafts, c.begun ≤ d.seen ∧ d.seen ≤ (labels s.tables).length
  larger : ∀ d ∈ c.drafts, ∀ a ∈ (labels s.tables).take d.seen, a.1 ∈ agents →
    a.1 = d.certificate.aic → a.2 < d.certificate.version
  own : Increasing agents (c.drafts.map Draft.label)

theorem Numbered.later {c : Changes} {s t : Store} (h : Numbered c s)
    (hst : labels s.tables <+: labels t.tables) : Numbered c t := by
  obtain ⟨new, hnew⟩ := hst
  refine ⟨?_, ?_, ?_, h.own⟩
  · rw [← hnew, List.length_append]
    have := h.begun
    omega
  · intro d hd
    rw [← hnew, List.length_append]
    have := h.seen d hd
    omega
  · intro d hd
    rw [← hnew, List.take_append_of_le_length (h.seen d hd).2]
    exact h.larger d hd

theorem numbered_nil {begun : ℕ} {s : Store} (h : begun ≤ (labels s.tables).length)
    (revoked : List (ℕ × Time × RevocationReason)) :
    Numbered { begun, drafts := [], revoked } s :=
  ⟨h, fun _ hd => absurd hd List.not_mem_nil, fun _ hd => absurd hd List.not_mem_nil,
    List.Pairwise.nil⟩

theorem Numbered.add {begun : ℕ} {drafts : List Draft} {s : Store}
    (h : Numbered { begun, drafts, revoked := [] } s) {d : Draft}
    (hseen : d.seen = s.tables.certificates.length)
    (hversion : d.certificate.aic ∈ agents →
      d.certificate.version = successor (labels (seenBy drafts s.tables)) d.certificate.aic)
    (revoked : List (ℕ × Time × RevocationReason)) :
    Numbered { begun, drafts := drafts ++ [d], revoked } s := by
  have hlength : d.seen = (labels s.tables).length := by rw [hseen, labels, List.length_map]
  have hlarger : ∀ a ∈ labels s.tables ++ drafts.map Draft.label, a.1 ∈ agents →
      a.1 = d.certificate.aic → a.2 < d.certificate.version := by
    intro a ha hagent heq
    rw [heq] at hagent
    rw [← labels_seenBy] at ha
    rw [hversion hagent, ← heq]
    exact lt_successor ha
  refine ⟨h.begun, ?_, ?_, ?_⟩
  · intro e he
    rcases List.mem_append.mp he with he | he
    · exact h.seen e he
    · rw [List.mem_singleton.mp he, hlength]
      exact ⟨h.begun, le_refl _⟩
  · intro e he a ha
    rcases List.mem_append.mp he with he | he
    · exact h.larger e he a ha
    · rw [List.mem_singleton.mp he] at ha ⊢
      exact hlarger a (List.mem_append_left _ (List.mem_of_mem_take ha))
  · change Increasing agents ((drafts ++ [d]).map Draft.label)
    rw [List.map_append]
    apply increasing_append h.own (List.pairwise_singleton _ _)
    intro a ha b hb hagent heq
    rw [List.mem_singleton.mp hb] at heq ⊢
    exact hlarger a (List.mem_append_right _ ha) hagent heq

def Ordered (s : Store) : Prop := Increasing agents (labels s.tables)

def Alone (c : Changes) (s : Store) : Prop :=
  ∀ d ∈ c.drafts, ∀ b ∈ s.tables.certificates.drop d.seen, b.aic = none ∨ b.aic ≠ d.certificate.aic

variable {C : Changes → Store → Prop}

def Counted (C : Changes → Store → Prop) (s : Store) : Prop :=
  Above agents (labels s.tables) s.begun ∧ ((∀ c t, C c t → Alone c t) → Ordered s)

def Extends (s t : Store) : Prop := labels s.tables <+: labels t.tables

abbrev Ready (C : Changes → Store → Prop) (p : Program Store Changes) (s : Store) : Prop :=
  p.Justified (Counted C) Extends (fun s c => Numbered c s) s

theorem issueAll_ready {begun : ℕ} {drafts : List Draft} {s : Store}
    (h : Numbered { begun, drafts, revoked := [] } s) (issues : List Issue) :
    Ready C (issueAll begun drafts issues) s := by
  induction issues generalizing drafts s with
  | nil => exact fun t _ hst => h.later hst
  | cons issue issues ih =>
    intro t _ hst
    apply ih
    apply (h.later hst).add rfl
    intro _
    exact getNextCertificateVersion_eq _ issue.agentId.2

theorem renewFrom_ready {begun : ℕ} {s : Store} (hbegun : begun ≤ (labels s.tables).length)
    (old : Certificate) (certPem : X509) (validityDays : Option ℤ) (now : Time) (draws : Draws) :
    Ready C (renewFrom begun old certPem validityDays now draws s) s := by
  intro t _ hst
  have hnone : Numbered { begun, drafts := [], revoked := [] } s := numbered_nil hbegun []
  refine (hnone.add rfl ?_ _).later hst
  intro hagent
  rw [labels_seenBy, List.map_nil, List.append_nil]
  exact versionFor_eq s.tables hagent

theorem Extends.length_le {s t : Store} (h : Extends s t) :
    (labels s.tables).length ≤ (labels t.tables).length :=
  List.IsPrefix.length_le h

theorem renewCertificate_ready {begun : ℕ} {s : Store} (hbegun : begun ≤ (labels s.tables).length)
    (certificateId : ℕ) (validityDays : Option ℤ) (now : Time) (draws : Draws) :
    Ready C (renewCertificate begun certificateId validityDays now draws) s := by
  intro t _ hst
  have ht := hbegun.trans hst.length_le
  dsimp only
  cases hfind : getCertificateById t.tables certificateId with
  | none =>
    trivial
  | some old =>
    intro u _ htu
    have hu := ht.trans htu.length_le
    dsimp only
    cases resolveRenewalParentCertificate u.tables old with
    | error e => trivial
    | ok _ =>
      cases generateCertificatePair old.subject draws.pairSerial with
      | error e => trivial
      | ok certPem =>
        intro v _ huv
        exact renewFrom_ready (hu.trans huv.length_le) old certPem validityDays now draws

theorem revokeCertificate_ready {begun : ℕ} {s : Store}
    (hbegun : begun ≤ (labels s.tables).length) (certificateId : ℕ) (reason : Text) (now : Time) :
    Ready C (revokeCertificate begun certificateId reason now) s := by
  intro t _ hst
  have ht := hbegun.trans hst.length_le
  dsimp only
  cases hfind : getCertificateById t.tables certificateId with
  | none =>
    trivial
  | some c => exact fun u _ htu => (numbered_nil ht _).later htu

def Distinct (t : Tables) : Prop :=
  ∀ aic : Acme.AgentId, ((t.certificates.filter (·.aic = some aic.1)).map (·.version)).Nodup

structure LaterLarger (s : Store) : Prop where
  recorded : s.begun.length = s.tables.certificates.length
  larger : ∀ (j n : ℕ) (b : Certificate), s.begun[j]? = some n →
    s.tables.certificates[j]? = some b → ∀ a ∈ s.tables.certificates.take n,
      a.aic ∈ agents → a.aic = b.aic → a.version < b.version

theorem laterLarger_of_above {s : Store} (h : Above agents (labels s.tables) s.begun) :
    LaterLarger s := by
  refine ⟨?_, ?_⟩
  · rw [h.length, labels, List.length_map]
  · intro j n b hj hb a ha
    refine h.larger j n (b.aic, b.version) hj ?_ (a.aic, a.version) ?_
    · rw [labels, List.getElem?_map, hb]
      rfl
    · rw [labels, ← List.map_take]
      exact List.mem_map_of_mem ha

theorem distinct_of_ordered {s : Store} (h : Ordered s) : Distinct s.tables := by
  intro aic
  have hnodup := h.nodup (k := some aic.1) ⟨aic, rfl⟩
  rw [labels, List.filter_map, List.map_map] at hnodup
  exact hnodup

theorem ordered_apply {c : Changes} {s t : Store} (h : Ordered s) (hc : Numbered c s)
    (halone : Alone c s) (hlabels : labels t.tables = labels s.tables ++ c.drafts.map Draft.label) :
    Ordered t := by
  unfold Ordered
  rw [hlabels]
  apply increasing_append h hc.own
  intro a ha b hb hagent heq
  obtain ⟨d, hd, rfl⟩ := List.mem_map.mp hb
  rw [← List.take_append_drop d.seen (labels s.tables)] at ha
  rcases List.mem_append.mp ha with ha | ha
  · exact hc.larger d hd a ha hagent heq
  · rw [labels, ← List.map_drop] at ha
    obtain ⟨e, he, rfl⟩ := List.mem_map.mp ha
    rcases halone d hd e he with hnone | hne
    · obtain ⟨aic, haic⟩ := hagent
      cases hnone.symm.trans haic
    · exact absurd heq hne

theorem guarantee : Guarantee (service.guarded C) (Counted C) Extends fun s c => Numbered c s where
  refl _ := List.prefix_rfl
  trans _ _ _ := List.IsPrefix.trans
  started request s _ := by
    have hlength : s.tables.certificates.length ≤ (labels s.tables).length := by
      rw [labels, List.length_map]
    cases request with
    | issue issues => exact issueAll_ready (numbered_nil hlength []) issues
    | renew certificateId validityDays now draws =>
      exact renewCertificate_ready hlength certificateId validityDays now draws
    | revoke certificateId reason now =>
      exact revokeCertificate_ready hlength certificateId reason now
  tick _ h := ⟨h, List.prefix_rfl⟩
  commit s t c h hc happly := by
    obtain ⟨hC, happly⟩ := guarded_apply_eq_some.mp happly
    obtain ⟨hlabels, hbegun⟩ := apply_eq_some happly
    refine ⟨⟨?_, fun halone => ?_⟩, ?_⟩
    · rw [hlabels, hbegun]
      apply h.1.append hc.begun
      intro b hb a ha
      obtain ⟨d, hd, rfl⟩ := List.mem_map.mp hb
      exact hc.larger d hd a (List.take_subset_take_left _ (hc.seen d hd).1 ha)
    · exact ordered_apply (h.2 halone) hc (halone c s hC) hlabels
    · exact ⟨_, hlabels.symm⟩

theorem counted_empty : Counted C empty :=
  ⟨⟨rfl, by simp [empty], by simp [empty]⟩, fun _ => List.Pairwise.nil⟩

variable {τ : Type} [DecidableEq τ]

/-- In every interleaving of transactions, the version of a certificate is larger than those of its
agent that were committed before its transaction started; and all versions of an agent are
different when no transaction commits a version that was read before another commit for the
agent. -/
theorem versions_increase {schedule : List (ReadCommitted.Action τ Request)} {s : State τ Store Changes}
    (h : (system service).exec (State.idle empty) schedule = some s) :
    LaterLarger s.store ∧
      ((system service).Meets (Commits Alone) (State.idle empty) schedule →
        Distinct s.store.tables) := by
  constructor
  · have hmeets : (system service).Meets (Commits fun _ _ => True)
        (State.idle empty : State τ Store Changes) schedule := by
      apply Transition.System.meets_of_forall
      rintro (⟨i, request⟩ | i | i | _) _ _ <;> first | trivial | exact fun _ _ => trivial
    exact laterLarger_of_above (guarantee.sound_exec (sound_idle counted_empty) hmeets h).store.1
  · intro hmeets
    have hsound := guarantee.sound_exec (sound_idle counted_empty) hmeets h
    exact distinct_of_ordered (hsound.store.2 fun _ _ hC => hC)

instance (c : Changes) (s : Store) : Decidable (Alone c s) := by
  unfold Alone
  infer_instance

namespace Sample

theorem letter_ne_nil : ['A'] ≠ [] := List.cons_ne_nil _ _

def issue (n : ℕ) : Issue :=
  { orderId := n
    certPem := { serialNumber := n, subject := [] }
    notAfter := 100
    agentId := ⟨['A'], letter_ne_nil⟩
    certId := List.replicate n 'c'
    id := n
    subject := [] }

def draws : Draws := { id := 3, pairSerial := upperHex 10, serialNumber := upperHex 11 }

def sequential : List (ReadCommitted.Action ℕ Request) :=
  [.start 0 (.issue [issue 1]), .next 0, .next 0,
    .start 1 (.renew 1 none 5 draws), .next 1, .next 1, .next 1, .next 1]

def interleaved : List (ReadCommitted.Action ℕ Request) :=
  [.start 0 (.issue [issue 1]), .start 1 (.issue [issue 2]), .next 0, .next 1, .next 0, .next 1]

end Sample

theorem sequential_versions : ∃ s : State ℕ Store Changes,
    (system service).exec (State.idle empty) Sample.sequential = some s ∧
      s.store.tables.certificates.map (·.version) = [1, 2] ∧ Distinct s.store.tables := by
  have hrun : ((system service).exec (State.idle empty : State ℕ Store Changes)
      Sample.sequential).any
        (fun s => s.store.tables.certificates.map (·.version) = [1, 2]) = true := by
    decide +kernel
  obtain ⟨s, hs, hversions⟩ := (Option.any_eq_true _ _).mp hrun
  refine ⟨s, hs, of_decide_eq_true hversions, (versions_increase hs).2 ?_⟩
  exact (system service).meets_of_check (fun _ _ h => of_decide_eq_true h)
    (show (system service).check (fun s a => decide (Commits Alone s a)) _ _ = true by
      decide +kernel)

theorem interleaved_versions : ¬ ∀ (schedule : List (ReadCommitted.Action ℕ Request))
    (s : State ℕ Store Changes),
    (system service).exec (State.idle empty) schedule = some s →
      LaterLarger s.store ∧ Distinct s.store.tables := by
  intro h
  have hrun : ((system service).exec (State.idle empty : State ℕ Store Changes)
      Sample.interleaved).any (fun s =>
        ((s.store.tables.certificates.filter (·.aic = some ['A'])).map (·.version)) = [1, 1]) =
          true := by
    decide +kernel
  obtain ⟨s, hs, hversions⟩ := (Option.any_eq_true _ _).mp hrun
  have hnodup := (h _ s hs).2 ⟨['A'], List.cons_ne_nil _ _⟩
  rw [of_decide_eq_true hversions] at hnodup
  exact absurd hnodup (by decide)

end Runs

end Acps.Ca.Versions
