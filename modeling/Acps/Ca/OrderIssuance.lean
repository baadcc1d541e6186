import Acps.Ca.Accounts
import Acps.Lib.LockedRow
import Acps.Lib.Transition
import Mathlib.Logic.Function.Basic

/-!
One order under concurrent requests: finalizing it reads the order once and writes it later, and
deactivating one of its authorizations does the same with both rows.
-/

namespace Acps.Ca.OrderIssuance

/-- Where the transaction of a request stands. The finalize requests carry the certificates that
they have inserted, the others the authorization that they deactivate. -/
inductive Phase (Authz Cert : Type) where
  | idle
  | checked
  | processing (certificates : List Cert)
  | finalized (certificates : List Cert)
  | authorizationRead (authz : Authz) (status : AuthorizationStatus)
  | deactivating (authz : Authz) (order : OrderStatus)
  | orderWritten (authz : Authz)
  | deactivated (authz : Authz)
  | closed

inductive Event (Authz Cert : Type) where
  | issued (i : ℕ) (certificates : List Cert)
  | deactivated (i : ℕ) (authz : Authz)

structure World (Authz Cert : Type) where
  order : LockedRow ℕ OrderStatus
  authorizations : Authz → LockedRow ℕ AuthorizationStatus
  phase : ℕ → Phase Authz Cert
  log : List (Event Authz Cert)

inductive Act (Authz Cert : Type) where
  | getOrder (i : ℕ)
  | updateProcessing (i : ℕ)
  | createCertificate (i : ℕ) (certificate : Cert)
  | updateValid (i : ℕ)
  | getAuthorization (i : ℕ) (authz : Authz)
  | getAuthorizationOrder (i : ℕ)
  | updateOrder (i : ℕ)
  | updateAuthorization (i : ℕ)
  | commit (i : ℕ)
  | rollback (i : ℕ)

section Steps

variable {Authz Cert : Type}

def World.setPhase (s : World Authz Cert) (i : ℕ) (p : Phase Authz Cert) : World Authz Cert :=
  { s with phase := Function.update s.phase i p }

def World.setOrder (s : World Authz Cert) (row : LockedRow ℕ OrderStatus) : World Authz Cert :=
  { s with order := row }

def World.setAuthorization [DecidableEq Authz] (s : World Authz Cert) (a : Authz)
    (row : LockedRow ℕ AuthorizationStatus) : World Authz Cert :=
  { s with authorizations := Function.update s.authorizations a row }

def World.commit (s : World Authz Cert) (i : ℕ) (events : List (Event Authz Cert)) :
    World Authz Cert :=
  { order := s.order.commit i
    authorizations := fun a => (s.authorizations a).commit i
    phase := Function.update s.phase i .closed
    log := s.log ++ events }

def World.rollback (s : World Authz Cert) (i : ℕ) : World Authz Cert :=
  { s with
    order := s.order.rollback i
    authorizations := fun a => (s.authorizations a).rollback i
    phase := Function.update s.phase i .closed }

variable [DecidableEq Authz]

def step (s : World Authz Cert) : Act Authz Cert → Option (World Authz Cert)
  | .getOrder i =>
    match s.phase i with
    | .idle => some (s.setPhase i (if s.order.read i ≠ .ready then .closed else .checked))
    | _ => none
  | .updateProcessing i =>
    match s.phase i with
    | .checked =>
      (s.order.write i .processing).map fun row => (s.setOrder row).setPhase i (.processing [])
    | _ => none
  | .createCertificate i certificate =>
    match s.phase i with
    | .processing certificates => some (s.setPhase i (.processing (certificates ++ [certificate])))
    | _ => none
  | .updateValid i =>
    match s.phase i with
    | .processing (c :: certificates) =>
      (s.order.write i .valid).map fun row =>
        (s.setOrder row).setPhase i (.finalized (c :: certificates))
    | _ => none
  | .getAuthorization i a =>
    match s.phase i with
    | .idle => some (s.setPhase i (.authorizationRead a ((s.authorizations a).read i)))
    | _ => none
  | .getAuthorizationOrder i =>
    -- the order is loaded by a second statement, and the checks follow both
    match s.phase i with
    | .authorizationRead a status =>
      if status = .deactivated then some (s.setPhase i .closed)
      else if ¬ status.Deactivatable then some (s.setPhase i .closed)
      else some (s.setPhase i (.deactivating a (s.order.read i)))
    | _ => none
  | .updateOrder i =>
    match s.phase i with
    | .deactivating a order =>
      if order.Open then
        (s.order.write i .invalid).map fun row => (s.setOrder row).setPhase i (.orderWritten a)
      else some (s.setPhase i (.orderWritten a))
    | _ => none
  | .updateAuthorization i =>
    match s.phase i with
    | .orderWritten a =>
      ((s.authorizations a).write i .deactivated).map fun row =>
        (s.setAuthorization a row).setPhase i (.deactivated a)
    | _ => none
  | .commit i =>
    match s.phase i with
    | .finalized certificates => some (s.commit i [.issued i certificates])
    | .deactivated a => some (s.commit i [.deactivated i a])
    | _ => none
  | .rollback i =>
    match s.phase i with
    | .closed => none
    | _ => some (s.rollback i)

def server : Transition.System (World Authz Cert) (Act Authz Cert) := ⟨step⟩

def World.created : World Authz Cert :=
  { order := .clean .ready
    authorizations := fun _ => .clean .valid
    phase := fun _ => .idle
    log := [] }

end Steps

variable {Authz Cert : Type}

def Event.Issues : Event Authz Cert → Prop
  | .issued _ _ => True
  | .deactivated _ _ => False

instance : (e : Event Authz Cert) → Decidable e.Issues
  | .issued _ _ => inferInstanceAs (Decidable True)
  | .deactivated _ _ => inferInstanceAs (Decidable False)

def IssuedOnce (s : World Authz Cert) : Prop := (s.log.filter (·.Issues)).length ≤ 1

instance (s : World Authz Cert) : Decidable (IssuedOnce s) :=
  inferInstanceAs (Decidable ((s.log.filter (·.Issues)).length ≤ 1))

def NotIssuedAfterDeactivation (s : World Authz Cert) : Prop :=
  s.log.Pairwise fun earlier later => ¬ earlier.Issues → ¬ later.Issues

instance (s : World Authz Cert) : Decidable (NotIssuedAfterDeactivation s) :=
  inferInstanceAs (Decidable (s.log.Pairwise fun earlier later =>
    ¬ earlier.Issues → ¬ later.Issues))

def StillReady (s : World Authz Cert) : Act Authz Cert → Prop
  | .commit i => ∀ certificates, s.phase i = .finalized certificates → s.order.committed = .ready
  | _ => True

def Owns (committed : OrderStatus) (draft : Option OrderStatus) : Phase Authz Cert → Prop
  | .processing _ => draft = some .processing
  | .finalized _ => draft = some .valid
  | .deactivating _ order => draft = none ∧ (order.Open ∨ committed ≠ .ready)
  | .orderWritten _ | .deactivated _ =>
    draft = some .invalid ∨ draft = none ∧ committed ≠ .ready
  | .idle | .checked | .authorizationRead _ _ | .closed => draft = none

structure Sound (s : World Authz Cert) : Prop where
  owns : ∀ i, Owns s.order.committed (s.order.draft i) (s.phase i)
  ready : s.order.committed = .ready ↔ s.log = []

section Steps

variable {s t : World Authz Cert} {i : ℕ} {p : Phase Authz Cert}

theorem Owns.mono {c c' : OrderStatus} {draft : Option OrderStatus} (h : Owns c draft p)
    (hc : c ≠ .ready → c' ≠ .ready) : Owns c' draft p := by
  cases p with
  | deactivating a order => exact ⟨h.1, h.2.imp_right hc⟩
  | orderWritten a | deactivated a => exact h.imp_right (And.imp_right hc)
  | _ => exact h

theorem sound_created : Sound (World.created : World Authz Cert) :=
  ⟨fun _ => rfl, iff_of_true rfl rfl⟩

theorem Sound.setPhase (hs : Sound s) (h : Owns s.order.committed (s.order.draft i) p) :
    Sound (s.setPhase i p) := by
  refine ⟨fun j => ?_, hs.ready⟩
  by_cases hj : j = i
  · subst hj
    simpa [World.setPhase] using h
  · simpa [World.setPhase, hj] using hs.owns j

theorem Sound.setOrder (hs : Sound s) {v : OrderStatus} {row : LockedRow ℕ OrderStatus}
    (hwrite : s.order.write i v = some row) (h : Owns s.order.committed (some v) p) :
    Sound ((s.setOrder row).setPhase i p) := by
  have hcommitted := LockedRow.committed_write hwrite
  refine ⟨fun j => ?_, ?_⟩
  · change Owns row.committed (row.draft j) _
    rw [hcommitted, LockedRow.draft_write hwrite]
    by_cases hj : j = i
    · subst hj
      simpa [World.setPhase] using h
    · simpa [World.setPhase, World.setOrder, hj] using hs.owns j
  · change row.committed = .ready ↔ s.log = []
    rw [hcommitted]
    exact hs.ready

theorem Sound.close (hs : Sound s) {row : LockedRow ℕ OrderStatus}
    (hdraft : ∀ j, row.draft j = if j = i then none else s.order.draft j)
    (hmono : s.order.committed ≠ .ready → row.committed ≠ .ready)
    (hphase : t.phase = Function.update s.phase i .closed) (horder : t.order = row)
    (hready : row.committed = .ready ↔ t.log = []) : Sound t := by
  subst horder
  refine ⟨fun j => ?_, hready⟩
  rw [hdraft, hphase]
  by_cases hj : j = i
  · subst hj
    rw [if_pos rfl, Function.update_self]
    exact rfl
  · rw [if_neg hj, Function.update_of_ne hj]
    exact (hs.owns j).mono hmono

theorem Sound.rollback (hs : Sound s) (i : ℕ) : Sound (s.rollback i) := by
  have hcommitted := s.order.committed_rollback i
  refine hs.close (s.order.draft_rollback i) ?_ rfl rfl ?_
  · rw [hcommitted]
    exact id
  · rw [hcommitted]
    exact hs.ready

theorem Sound.commit (hs : Sound s) {e : Event Authz Cert}
    (hnot : (s.order.draft i).getD s.order.committed ≠ .ready) : Sound (s.commit i [e]) := by
  have hcommitted := s.order.committed_commit i
  refine hs.close (s.order.draft_commit i) ?_ rfl rfl ?_
  · rw [hcommitted]
    exact fun _ => hnot
  · rw [hcommitted]
    exact iff_of_false hnot (List.append_ne_nil_of_right_ne_nil _ (List.cons_ne_nil _ _))

theorem Sound.not_ready_of_finalized (hs : Sound s) {certificates : List Cert}
    (h : s.phase i = .finalized certificates) :
    (s.order.draft i).getD s.order.committed ≠ .ready := by
  have howns := hs.owns i
  rw [h] at howns
  rw [show s.order.draft i = some .valid from howns]
  exact fun h => by cases h

theorem Sound.not_ready_of_deactivated (hs : Sound s) {a : Authz}
    (h : s.phase i = .deactivated a) : (s.order.draft i).getD s.order.committed ≠ .ready := by
  have howns := hs.owns i
  rw [h] at howns
  rcases howns with hdraft | ⟨hdraft, hnot⟩
  · rw [hdraft]
    exact fun h => by cases h
  · rwa [hdraft]

variable [DecidableEq Authz]

theorem sound_step {a : Act Authz Cert} (hs : Sound s) (h : server.step s a = some t) :
    Sound t := by
  change step s a = some t at h
  cases a with
  | getOrder i =>
    unfold step at h
    dsimp only at h
    have howns := hs.owns i
    cases hphase : s.phase i with
    | idle =>
      rw [hphase] at h howns
      obtain rfl := Option.some.inj h
      apply hs.setPhase
      split <;> exact howns
    | _ =>
      rw [hphase] at h
      cases h
  | updateProcessing i =>
    unfold step at h
    dsimp only at h
    cases hphase : s.phase i with
    | checked =>
      rw [hphase] at h
      obtain ⟨row, hwrite, rfl⟩ := Option.map_eq_some_iff.mp h
      exact hs.setOrder hwrite rfl
    | _ =>
      rw [hphase] at h
      cases h
  | createCertificate i certificate =>
    unfold step at h
    dsimp only at h
    have howns := hs.owns i
    cases hphase : s.phase i with
    | processing certificates =>
      rw [hphase] at h howns
      obtain rfl := Option.some.inj h
      exact hs.setPhase howns
    | _ =>
      rw [hphase] at h
      cases h
  | updateValid i =>
    unfold step at h
    dsimp only at h
    cases hphase : s.phase i with
    | processing certificates =>
      rw [hphase] at h
      cases certificates with
      | nil => cases h
      | cons c certificates =>
        obtain ⟨row, hwrite, rfl⟩ := Option.map_eq_some_iff.mp h
        exact hs.setOrder hwrite rfl
    | _ =>
      rw [hphase] at h
      cases h
  | getAuthorization i a =>
    unfold step at h
    dsimp only at h
    have howns := hs.owns i
    cases hphase : s.phase i with
    | idle =>
      rw [hphase] at h howns
      obtain rfl := Option.some.inj h
      exact hs.setPhase howns
    | _ =>
      rw [hphase] at h
      cases h
  | getAuthorizationOrder i =>
    unfold step at h
    dsimp only at h
    have howns := hs.owns i
    cases hphase : s.phase i with
    | authorizationRead a status =>
      rw [hphase] at h howns
      dsimp only at h
      split_ifs at h
      · obtain rfl := Option.some.inj h
        exact hs.setPhase howns
      · obtain rfl := Option.some.inj h
        refine hs.setPhase ⟨howns, ?_⟩
        -- nothing of its own yet: it reads what is committed
        have hread : s.order.read i = s.order.committed := by
          rw [s.order.read_eq_draft, show s.order.draft i = none from howns]
          rfl
        rw [hread]
        cases s.order.committed <;> decide
      · obtain rfl := Option.some.inj h
        exact hs.setPhase howns
    | _ =>
      rw [hphase] at h
      cases h
  | updateOrder i =>
    unfold step at h
    dsimp only at h
    have howns := hs.owns i
    cases hphase : s.phase i with
    | deactivating a order =>
      rw [hphase] at h howns
      dsimp only at h
      split_ifs at h with hopen
      · obtain ⟨row, hwrite, rfl⟩ := Option.map_eq_some_iff.mp h
        exact hs.setOrder hwrite (.inl rfl)
      · obtain rfl := Option.some.inj h
        exact hs.setPhase (.inr ⟨howns.1, howns.2.resolve_left hopen⟩)
    | _ =>
      rw [hphase] at h
      cases h
  | updateAuthorization i =>
    unfold step at h
    dsimp only at h
    have howns := hs.owns i
    cases hphase : s.phase i with
    | orderWritten a =>
      rw [hphase] at h howns
      obtain ⟨row, -, rfl⟩ := Option.map_eq_some_iff.mp h
      have hset : Sound (s.setAuthorization a row) := ⟨hs.owns, hs.ready⟩
      exact hset.setPhase howns
    | _ =>
      rw [hphase] at h
      cases h
  | commit i =>
    unfold step at h
    dsimp only at h
    cases hphase : s.phase i with
    | finalized certificates =>
      rw [hphase] at h
      obtain rfl := Option.some.inj h
      exact hs.commit (hs.not_ready_of_finalized hphase)
    | deactivated a =>
      rw [hphase] at h
      obtain rfl := Option.some.inj h
      exact hs.commit (hs.not_ready_of_deactivated hphase)
    | _ =>
      rw [hphase] at h
      cases h
  | rollback i =>
    unfold step at h
    dsimp only at h
    cases hphase : s.phase i with
    | closed =>
      rw [hphase] at h
      cases h
    | _ =>
      rw [hphase] at h
      obtain rfl := Option.some.inj h
      exact hs.rollback i

end Steps

section Issuance

variable {s t : World Authz Cert}

theorem pairwise_issuance (log : List (Event Authz Cert)) :
    (log.filter (·.Issues)).length ≤ 1 ∧
        log.Pairwise (fun earlier later => ¬ earlier.Issues → ¬ later.Issues) ↔
      log.Pairwise fun _ later => ¬ later.Issues := by
  induction log with
  | nil => simp
  | cons e log ih =>
    rw [List.pairwise_cons, List.pairwise_cons, ← ih]
    by_cases he : e.Issues
    · have hnone : (log.filter (·.Issues)).length = 0 ↔ ∀ e' ∈ log, ¬ e'.Issues := by
        simp
      rw [List.filter_cons_of_pos (by simpa using he), List.length_cons, Nat.succ_le_succ_iff,
        Nat.le_zero, hnone]
      constructor
      · rintro ⟨hlater, -, hrest⟩
        exact ⟨hlater, (Nat.le_zero.mpr (hnone.mpr hlater)).trans (Nat.zero_le 1), hrest⟩
      · rintro ⟨hlater, -, hrest⟩
        exact ⟨hlater, fun e' _ h => absurd he h, hrest⟩
    · rw [List.filter_cons_of_neg (by simpa using he)]
      simp only [he, not_false_eq_true, forall_const]
      exact and_left_comm

theorem issuance_iff : IssuedOnce s ∧ NotIssuedAfterDeactivation s ↔
    s.log.Pairwise fun _ later => ¬ later.Issues := pairwise_issuance s.log

theorem issuance_append (log : List (Event Authz Cert)) (e : Event Authz Cert) :
    (log ++ [e]).Pairwise (fun _ later => ¬ later.Issues) ↔
      log.Pairwise (fun _ later => ¬ later.Issues) ∧ (e.Issues → log = []) := by
  rw [List.pairwise_append]
  refine and_congr_right fun _ => ⟨fun ⟨_, hall⟩ he => ?_, fun hfirst => ⟨?_, fun e' he' l hl hi => ?_⟩⟩
  · rw [List.eq_nil_iff_forall_not_mem]
    exact fun e' he' => hall e' he' e (List.mem_singleton_self e) he
  · exact List.pairwise_singleton _ _
  · rw [List.mem_singleton.mp hl] at hi
    rw [hfirst hi] at he'
    cases he'

variable [DecidableEq Authz]

theorem log_of_step {a : Act Authz Cert} (h : server.step s a = some t)
    (ha : ∀ i, a ≠ .commit i) : t.log = s.log := by
  change step s a = some t at h
  cases a with
  | commit i => exact absurd rfl (ha i)
  | getOrder i | createCertificate i c | getAuthorization i a =>
    unfold step at h
    dsimp only at h
    split at h
    · cases h
      rfl
    · cases h
  | rollback i =>
    unfold step at h
    dsimp only at h
    split at h
    · cases h
    · cases h
      rfl
  | updateProcessing i | updateValid i | updateAuthorization i =>
    unfold step at h
    dsimp only at h
    split at h
    · obtain ⟨row, -, rfl⟩ := Option.map_eq_some_iff.mp h
      rfl
    · cases h
  | getAuthorizationOrder i =>
    unfold step at h
    dsimp only at h
    split at h
    · split_ifs at h <;> cases h <;> rfl
    · cases h
  | updateOrder i =>
    unfold step at h
    dsimp only at h
    split at h
    · split_ifs at h
      · obtain ⟨row, -, rfl⟩ := Option.map_eq_some_iff.mp h
        rfl
      · cases h
        rfl
    · cases h

theorem issuance_step (hs : Sound s) {a : Act Authz Cert} (h : server.step s a = some t) :
    (IssuedOnce t ∧ NotIssuedAfterDeactivation t) ↔
      (IssuedOnce s ∧ NotIssuedAfterDeactivation s) ∧ StillReady s a := by
  rw [issuance_iff, issuance_iff]
  by_cases ha : ∀ i, a ≠ .commit i
  · have hcondition : StillReady s a := by
      cases a with
      | commit i => exact absurd rfl (ha i)
      | _ => trivial
    rw [log_of_step h ha, and_iff_left hcondition]
  · obtain ⟨i, rfl⟩ := not_forall_not.mp ha
    change step s (.commit i) = some t at h
    unfold step at h
    dsimp only at h
    cases hphase : s.phase i with
    | finalized certificates =>
      rw [hphase] at h
      obtain rfl := Option.some.inj h
      have hcondition : StillReady s (.commit i) ↔ s.order.committed = .ready :=
        ⟨fun hready => hready certificates hphase, fun hready _ _ => hready⟩
      change (s.log ++ [_]).Pairwise _ ↔ _
      rw [issuance_append, hcondition, hs.ready]
      exact and_congr_right fun _ => ⟨fun hfirst => hfirst trivial, fun hnil _ => hnil⟩
    | deactivated a =>
      rw [hphase] at h
      obtain rfl := Option.some.inj h
      change (s.log ++ [_]).Pairwise _ ↔ _
      rw [issuance_append]
      refine and_congr_right fun _ => iff_of_true (fun hissues => hissues.elim) ?_
      intro certificates hfinalized
      cases hphase.symm.trans hfinalized
    | _ =>
      rw [hphase] at h
      cases h

theorem one_issuance_iff {acts : List (Act Authz Cert)}
    (h : server.exec World.created acts = some t) :
    (IssuedOnce t ∧ NotIssuedAfterDeactivation t) ↔ server.Meets StillReady World.created acts := by
  rw [server.exec_iff_meets (C := StillReady) (I := Sound)
    (P := fun t => IssuedOnce t ∧ NotIssuedAfterDeactivation t)
    (fun _ _ _ hs h => sound_step hs h) (fun _ _ _ hs h => issuance_step hs h) sound_created h]
  exact and_iff_right (issuance_iff.mpr List.Pairwise.nil)

theorem one_issuance_sequential : ∃ t : World ℕ ℕ, server.exec World.created [.getOrder 0,
    .updateProcessing 0, .createCertificate 0 7, .updateValid 0, .commit 0, .getOrder 1,
    .getAuthorization 2 0, .getAuthorizationOrder 2, .updateOrder 2, .updateAuthorization 2,
    .commit 2] = some t ∧ IssuedOnce t ∧ NotIssuedAfterDeactivation t := by
  have hrun : ∃ t : World ℕ ℕ, server.exec World.created [.getOrder 0,
      .updateProcessing 0, .createCertificate 0 7, .updateValid 0, .commit 0, .getOrder 1,
      .getAuthorization 2 0, .getAuthorizationOrder 2, .updateOrder 2, .updateAuthorization 2,
      .commit 2] = some t := ⟨_, rfl⟩
  obtain ⟨t, ht⟩ := hrun
  refine ⟨t, ht, (one_issuance_iff ht).mpr ?_⟩
  refine Transition.System.meets_of_check (c := fun s a =>
    match a with
    | .commit i =>
      match s.phase i with
      | .finalized _ => s.order.committed = .ready
      | _ => true
    | _ => true) _ (fun s a h => ?_) (by decide)
  cases a with
  | commit i =>
    intro certificates hphase
    dsimp only at h
    rw [hphase] at h
    exact of_decide_eq_true h
  | _ => trivial

theorem order_issued_twice :
    (∃ t : World ℕ ℕ, server.exec World.created [.getOrder 0, .getOrder 1, .updateProcessing 0,
      .createCertificate 0 7, .updateValid 0, .commit 0, .updateProcessing 1,
      .createCertificate 1 8, .updateValid 1, .commit 1] = some t ∧ ¬ IssuedOnce t) ∧
    ∃ t : World ℕ ℕ, server.exec World.created [.getOrder 0, .getAuthorization 1 0,
      .getAuthorizationOrder 1, .updateOrder 1, .updateAuthorization 1, .commit 1,
      .updateProcessing 0, .createCertificate 0 7, .updateValid 0, .commit 0] = some t ∧
      ¬ NotIssuedAfterDeactivation t := by
  constructor
  · refine ⟨_, rfl, fun h => ?_⟩
    exact absurd h (by decide)
  · refine ⟨_, rfl, fun h => ?_⟩
    exact absurd h (by decide)

end Issuance

end Acps.Ca.OrderIssuance
