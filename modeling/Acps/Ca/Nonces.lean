import Acps.Aic.Text
import Acps.Ca.Certificate
import Acps.Lib.LockedRow
import Acps.Lib.Transition

/-!
Anti-replay nonces: a request reads the row of its nonce and marks it used in two statements of the
transaction that it runs in, among the transactions of the other requests.
-/

namespace Acps.Ca.Nonces

open Aic (Text)

structure AcmeNonce where
  used : Bool
  expires : Time
  deriving DecidableEq

inductive Verdict where
  | accepted
  | badNonce
  deriving DecidableEq

inductive Phase where
  | idle
  | issuing
  | found (nonce : Text)
  | working (nonce : Text)
  | closed
  deriving DecidableEq

structure World where
  nonces : Text → LockedRow ℕ (Option AcmeNonce)
  now : Time
  phase : ℕ → Phase
  verdicts : List (Text × Verdict)
  undone : List Text

inductive Act where
  | tick (now : Time)
  | generateNonce (i : ℕ) (nonce : Text) (expires : Time)
  | select (i : ℕ) (nonce : Text)
  | update (i : ℕ)
  | commit (i : ℕ)
  | rollback (i : ℕ)

def selects (now : Time) (row : AcmeNonce) : Bool := ¬ row.used ∧ now < row.expires

namespace World

def setPhase (s : World) (i : ℕ) (p : Phase) : World :=
  { s with phase := Function.update s.phase i p }

def setRow (s : World) (nonce : Text) (row : LockedRow ℕ (Option AcmeNonce)) : World :=
  { s with nonces := Function.update s.nonces nonce row }

def record (s : World) (nonce : Text) (v : Verdict) : World :=
  { s with verdicts := s.verdicts ++ [(nonce, v)] }

end World

def step (s : World) : Act → Option World
  | .tick now => some { s with now := now }
  | .generateNonce i nonce expires =>
    -- the nonce column is unique
    if s.nonces nonce = .clean none then
      let written := ((s.nonces nonce).write i (some ⟨false, expires⟩)).map (s.setRow nonce)
      match s.phase i with
      | .idle => written.map (·.setPhase i .issuing)
      | .issuing | .working _ => written
      | .found _ | .closed => none
    else none
  | .select i nonce =>
    if s.phase i = .idle then
      if ((s.nonces nonce).read i).any (selects s.now) then some (s.setPhase i (.found nonce))
      else some ((s.record nonce .badNonce).setPhase i .closed)
    else none
  | .update i =>
    match s.phase i with
    | .found nonce =>
      let row := ((s.nonces nonce).read i).map fun row => { row with used := true }
      ((s.nonces nonce).write i row).map fun row =>
        ((s.setRow nonce row).record nonce .accepted).setPhase i (.working nonce)
    | _ => none
  | .commit i =>
    match s.phase i with
    | .issuing | .working _ =>
      some ({ s with nonces := fun nonce => (s.nonces nonce).commit i }.setPhase i .closed)
    | _ => none
  | .rollback i =>
    match s.phase i with
    | .closed => none
    | .working nonce =>
      some ({ s with
        nonces := fun nonce => (s.nonces nonce).rollback i
        undone := nonce :: s.undone }.setPhase i .closed)
    | _ =>
      some ({ s with nonces := fun nonce => (s.nonces nonce).rollback i }.setPhase i .closed)

def server : Transition.System World Act := ⟨step⟩

def World.empty : World :=
  { nonces := fun _ => .clean none, now := 0, phase := fun _ => .idle, verdicts := [], undone := [] }

def AntiReplay (s : World) : Prop :=
  s.verdicts.Pairwise fun earlier later =>
    earlier.1 = later.1 → earlier.2 = .accepted → later.2 = .badNonce

instance (s : World) : Decidable (AntiReplay s) :=
  inferInstanceAs (Decidable (s.verdicts.Pairwise fun earlier later =>
    earlier.1 = later.1 → earlier.2 = .accepted → later.2 = .badNonce))

def Used (v : Option AcmeNonce) : Prop := ∃ row ∈ v, row.used = true

instance (v : Option AcmeNonce) : Decidable (Used v) :=
  inferInstanceAs (Decidable (∃ row ∈ v, row.used = true))

def ConsumesOnce (s : World) : Act → Prop
  | .update i => ∀ nonce, s.phase i = .found nonce →
    ¬ Used (s.nonces nonce).committed ∧ nonce ∉ s.undone
  | _ => True

structure Sound (s : World) : Prop where
  held : ∀ nonce i v, (s.nonces nonce).Held i v →
    Used v ∧ s.phase i = .working nonce ∨
    ¬ Used v ∧ (s.nonces nonce).committed = none ∧
      (s.phase i = .issuing ∨ ∃ m, s.phase i = .working m)
  working : ∀ nonce i, s.phase i = .working nonce → ∃ v, (s.nonces nonce).Held i v ∧ Used v
  found : ∀ nonce i, s.phase i = .found nonce → (s.nonces nonce).committed.isSome
  accepted : ∀ nonce, (nonce, Verdict.accepted) ∈ s.verdicts ↔
    nonce ∈ s.undone ∨ Used (s.nonces nonce).committed ∨ ∃ i, s.phase i = .working nonce

section Steps

theorem sound_empty : Sound World.empty where
  held := fun _ _ _ h => absurd h LockedRow.not_held_clean
  working := fun _ _ h => by cases h
  found := fun _ _ h => by cases h
  accepted := by simp [World.empty, Used, LockedRow.clean]

variable {s t : World}

theorem Sound.not_held (hs : Sound s) {i : ℕ}
    (h : s.phase i = .idle ∨ (∃ m, s.phase i = .found m) ∨ s.phase i = .closed) (nonce : Text) :
    ∀ v, ¬ (s.nonces nonce).Held i v := by
  intro v hv
  rcases hs.held nonce i v hv with ⟨-, hworking⟩ | ⟨-, -, hissuing | ⟨m, hworking⟩⟩ <;>
    rcases h with h | ⟨m, h⟩ | h <;> simp_all

theorem Sound.not_working (hs : Sound s) {i : ℕ} {nonce : Text} (hphase : s.phase i = .found nonce)
    (hfree : (s.nonces nonce).Free i) (j : ℕ) : s.phase j ≠ .working nonce := by
  intro hworking
  obtain ⟨v, hv, -⟩ := hs.working nonce j hworking
  obtain rfl := hv.eq_of_free hfree
  exact hs.not_held (.inr (.inl ⟨_, hphase⟩)) nonce v hv

theorem Sound.setPhase_issuing (hs : Sound s) {i : ℕ}
    (h : s.phase i = .idle ∨ s.phase i = .issuing) : Sound (s.setPhase i .issuing) := by
  have hphase : ∀ j m, (s.setPhase i .issuing).phase j = .working m ↔ s.phase j = .working m := by
    intro j m
    by_cases hj : j = i
    · subst hj
      rcases h with h | h <;> simp [World.setPhase, h]
    · simp [World.setPhase, hj]
  constructor
  · intro nonce j v hv
    rcases hs.held nonce j v hv with ⟨hused, hworking⟩ | ⟨hunused, hnone, hissuing | ⟨m, hworking⟩⟩
    · exact .inl ⟨hused, (hphase j nonce).mpr hworking⟩
    · refine .inr ⟨hunused, hnone, .inl ?_⟩
      by_cases hj : j = i <;> simp [World.setPhase, hj, hissuing]
    · exact .inr ⟨hunused, hnone, .inr ⟨m, (hphase j m).mpr hworking⟩⟩
  · exact fun nonce j hworking => hs.working nonce j ((hphase j nonce).mp hworking)
  · intro nonce j hfound
    apply hs.found nonce j
    by_cases hj : j = i
    · simp [World.setPhase, hj] at hfound
    · simpa [World.setPhase, hj] using hfound
  · intro nonce
    rw [show (nonce, Verdict.accepted) ∈ (s.setPhase i .issuing).verdicts ↔ _ from hs.accepted nonce]
    simp only [hphase]
    rfl

theorem Sound.setRow_generated (hs : Sound s) {i : ℕ} {nonce : Text} {expires : Time}
    (hphase : s.phase i = .issuing ∨ ∃ m, s.phase i = .working m)
    (hclean : s.nonces nonce = .clean none) :
    Sound (s.setRow nonce ⟨none, some (i, some ⟨false, expires⟩)⟩) := by
  have hrow : ∀ m, (s.setRow nonce ⟨none, some (i, some ⟨false, expires⟩)⟩).nonces m =
      if m = nonce then ⟨none, some (i, some ⟨false, expires⟩)⟩ else s.nonces m := by
    intro m
    by_cases hm : m = nonce <;> simp [World.setRow, hm]
  have hcommitted : ∀ m, ((s.setRow nonce ⟨none, some (i, some ⟨false, expires⟩)⟩).nonces m).committed =
      (s.nonces m).committed := by
    intro m
    rw [hrow]
    by_cases hm : m = nonce <;> simp [hm, hclean, LockedRow.clean]
  constructor
  · intro m j v hv
    rw [hrow] at hv
    rw [hcommitted]
    by_cases hm : m = nonce
    · rw [if_pos hm] at hv
      obtain ⟨rfl, rfl⟩ := Prod.mk.inj (Option.some.inj hv)
      exact .inr ⟨by simp [Used], by simp [hm, hclean, LockedRow.clean], hphase⟩
    · rw [if_neg hm] at hv
      exact hs.held m j v hv
  · intro m j hworking
    obtain ⟨v, hv, hused⟩ := hs.working m j hworking
    refine ⟨v, ?_, hused⟩
    have hm : m ≠ nonce := by
      rintro rfl
      rw [hclean] at hv
      exact LockedRow.not_held_clean hv
    rwa [hrow, if_neg hm]
  · intro m j hfound
    rw [hcommitted]
    exact hs.found m j hfound
  · intro m
    rw [hcommitted]
    exact hs.accepted m

theorem Sound.setPhase_idle (hs : Sound s) {i : ℕ} (hidle : s.phase i = .idle) {p : Phase}
    (hworking : ∀ m, p ≠ .working m)
    (hfound : ∀ m, p = .found m → (s.nonces m).committed.isSome) : Sound (s.setPhase i p) := by
  have hphase : ∀ j m, (s.setPhase i p).phase j = .working m ↔ s.phase j = .working m := by
    intro j m
    by_cases hj : j = i
    · subst hj
      simp [World.setPhase, hidle, hworking]
    · simp [World.setPhase, hj]
  constructor
  · intro nonce j v hv
    have hj : j ≠ i := by
      rintro rfl
      exact hs.not_held (.inl hidle) nonce v hv
    have hsame : (s.setPhase i p).phase j = s.phase j := by simp [World.setPhase, hj]
    rw [hsame]
    exact hs.held nonce j v hv
  · exact fun nonce j h => hs.working nonce j ((hphase j nonce).mp h)
  · intro nonce j h
    by_cases hj : j = i
    · subst hj
      exact hfound nonce (by simpa [World.setPhase] using h)
    · exact hs.found nonce j (by simpa [World.setPhase, hj] using h)
  · intro nonce
    rw [show (nonce, Verdict.accepted) ∈ (s.setPhase i p).verdicts ↔ _ from hs.accepted nonce]
    simp only [hphase]
    rfl

theorem Sound.record_badNonce (hs : Sound s) (nonce : Text) : Sound (s.record nonce .badNonce) where
  held := hs.held
  working := hs.working
  found := hs.found
  accepted := by
    intro m
    have hmem : (m, Verdict.accepted) ∈ (s.record nonce .badNonce).verdicts ↔
        (m, Verdict.accepted) ∈ s.verdicts := by
      simp [World.record]
    rw [hmem]
    exact hs.accepted m

theorem Sound.consume (hs : Sound s) {i : ℕ} {nonce : Text} (hphase : s.phase i = .found nonce)
    (hfree : (s.nonces nonce).Free i) :
    Sound (((s.setRow nonce ⟨(s.nonces nonce).committed, some (i,
      ((s.nonces nonce).read i).map fun row => { row with used := true })⟩).record nonce
        .accepted).setPhase i (.working nonce)) := by
  have hnot := hs.not_held (.inr (.inl ⟨nonce, hphase⟩))
  obtain ⟨row, hrow⟩ := Option.isSome_iff_exists.mp (hs.found nonce i hphase)
  rw [LockedRow.read_of_not_held (hnot nonce), hrow, Option.map_some]
  have hused : Used (some { row with used := true }) := ⟨_, rfl, rfl⟩
  have hother : ∀ j m, j ≠ i → s.phase j = .working m → m ≠ nonce := by
    rintro j m hj hworking rfl
    exact hs.not_working hphase hfree j hworking
  have hothers (j : ℕ) (hj : j ≠ i) (p : World) : (p.setPhase i (.working nonce)).phase j =
      p.phase j := by simp [World.setPhase, hj]
  have hself (p : World) : (p.setPhase i (.working nonce)).phase i = .working nonce := by
    simp [World.setPhase]
  constructor
  · intro m j v hv
    by_cases hm : m = nonce
    · subst hm
      simp only [World.setPhase, World.record, World.setRow, Function.update_self] at hv
      obtain ⟨rfl, rfl⟩ := Prod.mk.inj (Option.some.inj hv)
      exact .inl ⟨hused, hself _⟩
    · simp only [World.setPhase, World.record, World.setRow, Function.update_of_ne hm] at hv
      have hj : j ≠ i := by
        rintro rfl
        exact hnot m v hv
      rw [hothers j hj]
      simp only [World.setPhase, World.record, World.setRow, Function.update_of_ne hm]
      exact hs.held m j v hv
  · intro m j hworking
    by_cases hj : j = i
    · subst hj
      rw [hself] at hworking
      obtain rfl := Phase.working.inj hworking
      exact ⟨some { row with used := true },
        by simp [World.setPhase, World.record, World.setRow, LockedRow.Held], hused⟩
    · rw [hothers j hj] at hworking
      have hm := hother j m hj hworking
      simp only [World.setPhase, World.record, World.setRow, Function.update_of_ne hm]
      exact hs.working m j hworking
  · intro m j hfound
    have hj : j ≠ i := by
      rintro rfl
      rw [hself] at hfound
      cases hfound
    rw [hothers j hj] at hfound
    have hsome := hs.found m j hfound
    by_cases hm : m = nonce
    · subst hm
      simp [World.setPhase, World.record, World.setRow]
    · simpa [World.setPhase, World.record, World.setRow, hm] using hsome
  · intro m
    by_cases hm : m = nonce
    · subst hm
      exact iff_of_true (List.mem_append_right _ (List.mem_singleton_self _))
        (.inr (.inr ⟨i, hself _⟩))
    · have hmem : (m, Verdict.accepted) ∈ s.verdicts ++ [(nonce, Verdict.accepted)] ↔
          (m, Verdict.accepted) ∈ s.verdicts := by
        simp [hm]
      have hworking : (∃ j, Function.update s.phase i (.working nonce) j = .working m) ↔
          ∃ j, s.phase j = .working m := by
        refine exists_congr fun j => ?_
        by_cases hj : j = i
        · subst hj
          simp [hphase, Ne.symm hm]
        · rw [Function.update_of_ne hj]
      simp only [World.setPhase, World.record, World.setRow, Function.update_of_ne hm]
      rw [hmem, hworking]
      exact hs.accepted m

theorem Sound.close (hs : Sound s) {i : ℕ} (rows : Text → LockedRow ℕ (Option AcmeNonce))
    (undone : List Text)
    (hrows : ∀ nonce, (∃ v w, (s.nonces nonce).Held i v ∧ rows nonce = .clean w ∧
      (w = v ∨ w = (s.nonces nonce).committed)) ∨
      (∀ v, ¬ (s.nonces nonce).Held i v) ∧ rows nonce = s.nonces nonce)
    (haccepted : ∀ nonce,
      (nonce ∈ s.undone ∨ Used (s.nonces nonce).committed ∨ ∃ j, s.phase j = .working nonce) ↔
        nonce ∈ undone ∨ Used (rows nonce).committed ∨ ∃ j, j ≠ i ∧ s.phase j = .working nonce) :
    Sound ({ s with nonces := rows, undone := undone }.setPhase i .closed) := by
  have hphase : ∀ j, ({ s with nonces := rows, undone := undone }.setPhase i .closed).phase j =
      if j = i then .closed else s.phase j := by
    intro j
    by_cases hj : j = i <;> simp [World.setPhase, hj]
  have hworking : ∀ j m, (if j = i then Phase.closed else s.phase j) = .working m ↔
      j ≠ i ∧ s.phase j = .working m := by
    intro j m
    by_cases hj : j = i <;> simp [hj]
  constructor
  · intro nonce j v hv
    change (rows nonce).Held j v at hv
    rcases hrows nonce with ⟨-, w, -, hrow, -⟩ | ⟨hnot, hrow⟩
    · rw [hrow] at hv
      exact absurd hv LockedRow.not_held_clean
    · rw [hrow] at hv
      have hj : j ≠ i := by
        rintro rfl
        exact hnot v hv
      rw [hphase, if_neg hj]
      change _ ∨ _ ∧ (rows nonce).committed = none ∧ _
      rw [hrow]
      exact hs.held nonce j v hv
  · intro nonce j h
    rw [hphase, hworking] at h
    obtain ⟨v, hv, hused⟩ := hs.working nonce j h.2
    refine ⟨v, ?_, hused⟩
    change (rows nonce).Held j v
    rcases hrows nonce with ⟨u, w, hu, -, -⟩ | ⟨-, hrow⟩
    · exact absurd (Prod.mk.inj (Option.some.inj (hv.symm.trans hu))).1 h.1
    · rwa [hrow]
  · intro nonce j h
    rw [hphase] at h
    have hj : j ≠ i := by
      rintro rfl
      rw [if_pos rfl] at h
      cases h
    rw [if_neg hj] at h
    have hsome := hs.found nonce j h
    change (rows nonce).committed.isSome
    rcases hrows nonce with ⟨v, w, hv, hrow, rfl | rfl⟩ | ⟨-, hrow⟩
    · rw [hrow]
      rcases hs.held nonce i w hv with ⟨⟨row, hrow, -⟩, -⟩ | ⟨-, hnone, -⟩
      · exact Option.isSome_of_mem hrow
      · rw [hnone] at hsome
        cases hsome
    · rwa [hrow]
    · rwa [hrow]
  · intro nonce
    simp only [hphase, hworking]
    exact (hs.accepted nonce).trans (haccepted nonce)

theorem Sound.commit (hs : Sound s) (i : ℕ) :
    Sound ({ s with nonces := fun nonce => (s.nonces nonce).commit i }.setPhase i .closed) := by
  refine hs.close (fun nonce => (s.nonces nonce).commit i) s.undone ?_ ?_
  · intro nonce
    rcases (s.nonces nonce).held_or_not i with ⟨v, hv⟩ | hnot
    · exact .inl ⟨v, v, hv, hv.commit_eq, .inl rfl⟩
    · exact .inr ⟨hnot, LockedRow.commit_of_not_held hnot⟩
  · intro nonce
    refine or_congr_right ?_
    rcases (s.nonces nonce).held_or_not i with ⟨v, hv⟩ | hnot
    · rw [hv.commit_eq]
      change _ ↔ Used v ∨ _
      have hself : ∀ j, s.phase j = .working nonce → j = i := by
        intro j hworking
        obtain ⟨w, hw, -⟩ := hs.working nonce j hworking
        exact (Prod.mk.inj (Option.some.inj (hw.symm.trans hv))).1
      have hnone : ¬ ∃ j, j ≠ i ∧ s.phase j = .working nonce :=
        fun ⟨j, hj, hworking⟩ => hj (hself j hworking)
      rw [or_iff_left hnone]
      rcases hs.held nonce i v hv with ⟨hused, hworking⟩ | ⟨hunused, hcommitted, -⟩
      · exact iff_of_true (.inr ⟨i, hworking⟩) hused
      · refine iff_of_false ?_ hunused
        rintro (⟨row, hrow, -⟩ | ⟨j, hworking⟩)
        · rw [hcommitted] at hrow
          cases hrow
        · obtain rfl := hself j hworking
          obtain ⟨w, hw, hused⟩ := hs.working nonce j hworking
          exact hunused ((Prod.mk.inj (Option.some.inj (hw.symm.trans hv))).2 ▸ hused)
    · rw [LockedRow.commit_of_not_held hnot]
      refine or_congr_right (exists_congr fun j => ⟨fun hworking => ⟨?_, hworking⟩, And.right⟩)
      rintro rfl
      obtain ⟨v, hv, -⟩ := hs.working nonce j hworking
      exact hnot v hv

theorem Sound.rollback (hs : Sound s) {i : ℕ} {undone : List Text}
    (hundone : ∀ nonce, nonce ∈ undone ↔ nonce ∈ s.undone ∨ s.phase i = .working nonce) :
    Sound ({ s with
      nonces := fun nonce => (s.nonces nonce).rollback i
      undone := undone }.setPhase i .closed) := by
  have hcommitted : ∀ nonce, ((s.nonces nonce).rollback i).committed =
      (s.nonces nonce).committed := by
    intro nonce
    rcases (s.nonces nonce).held_or_not i with ⟨v, hv⟩ | hnot
    · rw [hv.rollback_eq]
      rfl
    · rw [LockedRow.rollback_of_not_held hnot]
  refine hs.close (fun nonce => (s.nonces nonce).rollback i) undone ?_ ?_
  · intro nonce
    rcases (s.nonces nonce).held_or_not i with ⟨v, hv⟩ | hnot
    · exact .inl ⟨v, _, hv, hv.rollback_eq, .inr rfl⟩
    · exact .inr ⟨hnot, LockedRow.rollback_of_not_held hnot⟩
  · intro nonce
    have hsplit : (∃ j, s.phase j = .working nonce) ↔
        s.phase i = .working nonce ∨ ∃ j, j ≠ i ∧ s.phase j = .working nonce := by
      constructor
      · rintro ⟨j, hworking⟩
        by_cases hj : j = i
        · exact .inl (hj ▸ hworking)
        · exact .inr ⟨j, hj, hworking⟩
      · rintro (hworking | ⟨j, -, hworking⟩)
        · exact ⟨i, hworking⟩
        · exact ⟨j, hworking⟩
    rw [hcommitted, hundone, hsplit]
    tauto

theorem sound_step {a : Act} (hs : Sound s) (h : server.step s a = some t) : Sound t := by
  change step s a = some t at h
  cases a with
  | tick now =>
    obtain rfl := Option.some.inj h
    exact ⟨hs.held, hs.working, hs.found, hs.accepted⟩
  | generateNonce i nonce expires =>
    unfold step at h
    dsimp only at h
    split_ifs at h with hclean
    have hwrite : (s.nonces nonce).write i (some ⟨false, expires⟩) =
        some ⟨none, some (i, some ⟨false, expires⟩)⟩ :=
      LockedRow.write_eq_some.mpr ⟨by simp [hclean, LockedRow.Free, LockedRow.clean],
        by rw [hclean]; rfl⟩
    rw [hwrite, Option.map_some] at h
    cases hphase : s.phase i with
    | idle =>
      rw [hphase] at h
      obtain rfl := Option.some.inj h
      exact (hs.setPhase_issuing (.inl hphase)).setRow_generated
        (.inl (by simp [World.setPhase])) hclean
    | issuing =>
      rw [hphase] at h
      obtain rfl := Option.some.inj h
      exact hs.setRow_generated (.inl hphase) hclean
    | working m =>
      rw [hphase] at h
      obtain rfl := Option.some.inj h
      exact hs.setRow_generated (.inr ⟨m, hphase⟩) hclean
    | found m =>
      rw [hphase] at h
      cases h
    | closed =>
      rw [hphase] at h
      cases h
  | select i nonce =>
    unfold step at h
    dsimp only at h
    split_ifs at h with hidle hany
    · obtain rfl := Option.some.inj h
      refine hs.setPhase_idle hidle (fun m hm => by cases hm) fun m hm => ?_
      obtain rfl := Phase.found.inj hm
      rw [LockedRow.read_of_not_held (hs.not_held (.inl hidle) nonce)] at hany
      cases hrow : (s.nonces nonce).committed with
      | none =>
        rw [hrow] at hany
        cases hany
      | some row => rfl
    · obtain rfl := Option.some.inj h
      exact (hs.record_badNonce nonce).setPhase_idle hidle (fun m hm => by cases hm)
        fun m hm => by cases hm
  | update i =>
    unfold step at h
    dsimp only at h
    cases hphase : s.phase i with
    | found nonce =>
      rw [hphase] at h
      obtain ⟨row, hwrite, rfl⟩ := Option.map_eq_some_iff.mp h
      obtain ⟨hfree, rfl⟩ := LockedRow.write_eq_some.mp hwrite
      exact hs.consume hphase hfree
    | _ =>
      rw [hphase] at h
      cases h
  | commit i =>
    unfold step at h
    dsimp only at h
    cases hphase : s.phase i with
    | issuing | working m =>
      rw [hphase] at h
      obtain rfl := Option.some.inj h
      exact hs.commit i
    | _ =>
      rw [hphase] at h
      cases h
  | rollback i =>
    unfold step at h
    dsimp only at h
    cases hphase : s.phase i with
    | closed =>
      rw [hphase] at h
      cases h
    | working m =>
      rw [hphase] at h
      obtain rfl := Option.some.inj h
      refine hs.rollback fun nonce => ?_
      rw [hphase, List.mem_cons, Phase.working.injEq, or_comm, eq_comm]
    | _ =>
      rw [hphase] at h
      obtain rfl := Option.some.inj h
      exact hs.rollback fun nonce => by simp [hphase]

end Steps

section Replay

variable {s t : World}

theorem antiReplay_append {vs : List (Text × Verdict)} {nonce : Text} {v : Verdict} :
    (vs ++ [(nonce, v)]).Pairwise
        (fun earlier later => earlier.1 = later.1 → earlier.2 = .accepted → later.2 = .badNonce) ↔
      vs.Pairwise
        (fun earlier later => earlier.1 = later.1 → earlier.2 = .accepted → later.2 = .badNonce) ∧
      (v = .accepted → (nonce, Verdict.accepted) ∉ vs) := by
  rw [List.pairwise_append]
  refine and_congr_right fun _ => ⟨fun ⟨_, hall⟩ hv hmem => ?_, fun hnot => ⟨?_, ?_⟩⟩
  · subst hv
    cases hall _ hmem _ (List.mem_singleton_self _) rfl rfl
  · exact List.pairwise_singleton _ _
  · rintro ⟨n, w⟩ he l hl hname hw
    obtain rfl := List.mem_singleton.mp hl
    change n = nonce at hname
    change w = .accepted at hw
    subst hname hw
    cases v with
    | accepted => exact absurd he (hnot rfl)
    | badNonce => rfl

theorem verdicts_of_step {a : Act} (h : server.step s a = some t) (ha : ∀ i, a ≠ .update i) :
    t.verdicts = s.verdicts ∨ ∃ nonce, t.verdicts = s.verdicts ++ [(nonce, .badNonce)] := by
  change step s a = some t at h
  cases a with
  | tick now =>
    obtain rfl := Option.some.inj h
    exact .inl rfl
  | generateNonce i nonce expires =>
    unfold step at h
    dsimp only at h
    split_ifs at h
    cases hphase : s.phase i with
    | idle =>
      rw [hphase] at h
      obtain ⟨u, hu, rfl⟩ := Option.map_eq_some_iff.mp h
      obtain ⟨row, -, rfl⟩ := Option.map_eq_some_iff.mp hu
      exact .inl rfl
    | issuing | working m =>
      rw [hphase] at h
      obtain ⟨row, -, rfl⟩ := Option.map_eq_some_iff.mp h
      exact .inl rfl
    | found m | closed =>
      rw [hphase] at h
      cases h
  | select i nonce =>
    unfold step at h
    dsimp only at h
    split_ifs at h
    · obtain rfl := Option.some.inj h
      exact .inl rfl
    · obtain rfl := Option.some.inj h
      exact .inr ⟨nonce, rfl⟩
  | update i => exact absurd rfl (ha i)
  | commit i =>
    unfold step at h
    dsimp only at h
    cases hphase : s.phase i <;> rw [hphase] at h <;> cases h <;> exact .inl rfl
  | rollback i =>
    unfold step at h
    dsimp only at h
    cases hphase : s.phase i <;> rw [hphase] at h <;> cases h <;> exact .inl rfl

theorem antiReplay_step (hs : Sound s) {a : Act} (h : server.step s a = some t) :
    AntiReplay t ↔ AntiReplay s ∧ ConsumesOnce s a := by
  by_cases ha : ∀ i, a ≠ .update i
  · have hcondition : ConsumesOnce s a := by
      cases a with
      | update i => exact absurd rfl (ha i)
      | _ => trivial
    rw [and_iff_left hcondition]
    rcases verdicts_of_step h ha with hsame | ⟨nonce, hbad⟩
    · unfold AntiReplay
      rw [hsame]
    · unfold AntiReplay
      rw [hbad, antiReplay_append]
      exact and_iff_left fun hv => by cases hv
  · obtain ⟨i, rfl⟩ := not_forall_not.mp ha
    change step s (.update i) = some t at h
    unfold step at h
    dsimp only at h
    cases hphase : s.phase i with
    | found nonce =>
      rw [hphase] at h
      obtain ⟨row, hwrite, rfl⟩ := Option.map_eq_some_iff.mp h
      obtain ⟨hfree, -⟩ := LockedRow.write_eq_some.mp hwrite
      have hnobody : ¬ ∃ j, s.phase j = .working nonce :=
        fun ⟨j, hworking⟩ => hs.not_working hphase hfree j hworking
      have hcondition : ConsumesOnce s (.update i) ↔
          ¬ Used (s.nonces nonce).committed ∧ nonce ∉ s.undone := by
        constructor
        · exact fun h => h nonce hphase
        · intro h m hm
          obtain rfl := Phase.found.inj (hphase.symm.trans hm)
          exact h
      change (s.verdicts ++ [(nonce, Verdict.accepted)]).Pairwise _ ↔ _
      rw [antiReplay_append, hcondition, hs.accepted nonce, or_iff_left hnobody]
      refine and_congr_right fun _ => ⟨fun hnot => ?_, fun hnot _ => ?_⟩
      · exact ⟨fun hused => hnot rfl (.inr hused), fun hundone => hnot rfl (.inl hundone)⟩
      · rintro (hundone | hused)
        · exact hnot.2 hundone
        · exact hnot.1 hused
    | _ =>
      rw [hphase] at h
      cases h

theorem anti_replay_iff {acts : List Act} (h : server.exec World.empty acts = some t) :
    AntiReplay t ↔ server.Meets ConsumesOnce World.empty acts := by
  rw [server.exec_iff_meets (C := ConsumesOnce) (I := Sound) (P := AntiReplay)
    (fun _ _ _ hs h => sound_step hs h) (fun _ _ _ hs h => antiReplay_step hs h) sound_empty h]
  exact and_iff_right List.Pairwise.nil

theorem anti_replay_sequential : ∃ t, server.exec World.empty [.generateNonce 0 ['n'] 10,
    .commit 0, .select 1 ['n'], .update 1, .commit 1, .select 2 ['n']] = some t ∧ AntiReplay t := by
  have hrun : ∃ t, server.exec World.empty [.generateNonce 0 ['n'] 10, .commit 0,
      .select 1 ['n'], .update 1, .commit 1, .select 2 ['n']] = some t := ⟨_, rfl⟩
  obtain ⟨t, ht⟩ := hrun
  refine ⟨t, ht, (anti_replay_iff ht).mpr ?_⟩
  refine Transition.System.meets_of_check (c := fun s a =>
    match a with
    | .update i =>
      match s.phase i with
      | .found nonce => ¬ Used (s.nonces nonce).committed ∧ nonce ∉ s.undone
      | _ => true
    | _ => true) _ (fun s a h => ?_) (by decide)
  cases a with
  | update i =>
    intro nonce hphase
    dsimp only at h
    rw [hphase] at h
    exact of_decide_eq_true h
  | _ => trivial

theorem nonce_accepted_twice :
    (∃ t, server.exec World.empty [.generateNonce 0 ['n'] 10, .commit 0, .select 1 ['n'],
      .select 2 ['n'], .update 1, .commit 1, .update 2] = some t ∧ ¬ AntiReplay t) ∧
    ∃ t, server.exec World.empty [.generateNonce 0 ['n'] 10, .commit 0, .select 1 ['n'], .update 1,
      .rollback 1, .select 2 ['n'], .update 2] = some t ∧ ¬ AntiReplay t := by
  constructor
  · refine ⟨_, rfl, fun h => ?_⟩
    exact absurd h (by decide)
  · refine ⟨_, rfl, fun h => ?_⟩
    exact absurd h (by decide)

end Replay

end Acps.Ca.Nonces
