import Mathlib.Data.Option.Basic

/-!
A row under read committed isolation: a transaction that writes it holds it until it ends, and
the others read what was committed last.
-/

namespace Acps

structure LockedRow (τ V : Type) where
  committed : V
  dirty : Option (τ × V)
  deriving DecidableEq

namespace LockedRow

variable {τ V : Type}

def clean (v : V) : LockedRow τ V := { committed := v, dirty := none }

def Held (r : LockedRow τ V) (i : τ) (v : V) : Prop := r.dirty = some (i, v)

def Free (r : LockedRow τ V) (i : τ) : Prop := ∀ p ∈ r.dirty, p.1 = i

section

variable {r : LockedRow τ V} {i j : τ} {v w : V}

theorem Held.eq_of_free (h : r.Held j w) (hfree : r.Free i) : j = i := hfree (j, w) h

theorem Held.not_held_of_ne (h : r.Held i v) (hij : j ≠ i) (w : V) : ¬ r.Held j w :=
  fun hw => hij (Prod.mk.inj (Option.some.inj (hw.symm.trans h))).1

theorem not_held_clean : ¬ (clean w : LockedRow τ V).Held i v := fun h => by cases h

theorem held_or_not (r : LockedRow τ V) (i : τ) : (∃ v, r.Held i v) ∨ ∀ v, ¬ r.Held i v := by
  by_cases h : ∃ v, r.Held i v
  · exact .inl h
  · exact .inr (not_exists.mp h)

end

variable [DecidableEq τ]

instance (r : LockedRow τ V) (i : τ) : Decidable (r.Free i) :=
  inferInstanceAs (Decidable (∀ p ∈ r.dirty, p.1 = i))

def ifHeld {β : Type} (r : LockedRow τ V) (i : τ) (held : V → β) (other : β) : β :=
  match r.dirty with
  | none => other
  | some (j, v) => if j = i then held v else other

def read (r : LockedRow τ V) (i : τ) : V := r.ifHeld i id r.committed

def write (r : LockedRow τ V) (i : τ) (v : V) : Option (LockedRow τ V) :=
  if r.Free i then some { r with dirty := some (i, v) } else none

def commit (r : LockedRow τ V) (i : τ) : LockedRow τ V := r.ifHeld i clean r

def rollback (r : LockedRow τ V) (i : τ) : LockedRow τ V :=
  r.ifHeld i (fun _ => clean r.committed) r

variable {r r' : LockedRow τ V} {i j : τ} {v w : V}

theorem Held.ifHeld_eq {β : Type} (h : r.Held i v) (held : V → β) (other : β) :
    r.ifHeld i held other = held v := by
  unfold ifHeld
  rw [h]
  exact if_pos rfl

theorem ifHeld_of_not_held {β : Type} (h : ∀ v, ¬ r.Held i v) (held : V → β) (other : β) :
    r.ifHeld i held other = other := by
  unfold ifHeld
  cases hdirty : r.dirty with
  | none => rfl
  | some p =>
    obtain ⟨j, v⟩ := p
    have hne : j ≠ i := by
      rintro rfl
      exact h v hdirty
    exact if_neg hne

theorem write_eq_some : r.write i v = some r' ↔
    r.Free i ∧ r' = { committed := r.committed, dirty := some (i, v) } := by
  unfold write
  split
  next hfree => simp [hfree, eq_comm]
  next hbusy => simp [hbusy]

theorem read_of_not_held (h : ∀ v, ¬ r.Held i v) : r.read i = r.committed :=
  ifHeld_of_not_held h _ _

theorem Held.commit_eq (h : r.Held i v) : r.commit i = clean v := h.ifHeld_eq _ _

theorem Held.rollback_eq (h : r.Held i v) : r.rollback i = clean r.committed := h.ifHeld_eq _ _

theorem commit_of_not_held (h : ∀ v, ¬ r.Held i v) : r.commit i = r := ifHeld_of_not_held h _ _

theorem rollback_of_not_held (h : ∀ v, ¬ r.Held i v) : r.rollback i = r :=
  ifHeld_of_not_held h _ _

def draft (r : LockedRow τ V) (i : τ) : Option V := r.ifHeld i some none

section Draft

theorem Held.draft_eq (h : r.Held i v) : r.draft i = some v := h.ifHeld_eq _ _

theorem draft_of_not_held (h : ∀ v, ¬ r.Held i v) : r.draft i = none := ifHeld_of_not_held h _ _

theorem read_eq_draft (r : LockedRow τ V) (i : τ) : r.read i = (r.draft i).getD r.committed := by
  rcases r.held_or_not i with ⟨v, hv⟩ | hnot
  · rw [hv.draft_eq]
    exact hv.ifHeld_eq _ _
  · rw [draft_of_not_held hnot, read_of_not_held hnot]
    rfl

@[simp] theorem draft_clean (v : V) (i : τ) : (clean v : LockedRow τ V).draft i = none := rfl

theorem draft_write (h : r.write i v = some r') (j : τ) :
    r'.draft j = if j = i then some v else r.draft j := by
  obtain ⟨hfree, rfl⟩ := write_eq_some.mp h
  split
  next hj =>
    subst hj
    exact Held.draft_eq rfl
  next hj =>
    rw [draft_of_not_held fun w hw => hj ?_, draft_of_not_held fun w hw => hj (hw.eq_of_free hfree)]
    exact (Prod.mk.inj (Option.some.inj hw)).1.symm

theorem committed_write (h : r.write i v = some r') : r'.committed = r.committed := by
  obtain ⟨-, rfl⟩ := write_eq_some.mp h
  rfl

theorem draft_release (h : (∃ v w, r.Held i v ∧ r' = clean w) ∨ (∀ v, ¬ r.Held i v) ∧ r' = r)
    (j : τ) : r'.draft j = if j = i then none else r.draft j := by
  rcases h with ⟨v, w, hv, rfl⟩ | ⟨hnot, rfl⟩
  · rw [draft_clean]
    split
    · rfl
    next hij => rw [draft_of_not_held (hv.not_held_of_ne hij)]
  · split
    next hij => rw [hij, draft_of_not_held hnot]
    · rfl

theorem draft_commit (r : LockedRow τ V) (i j : τ) :
    (r.commit i).draft j = if j = i then none else r.draft j := by
  apply draft_release
  rcases r.held_or_not i with ⟨v, hv⟩ | hnot
  · exact .inl ⟨v, v, hv, hv.commit_eq⟩
  · exact .inr ⟨hnot, commit_of_not_held hnot⟩

theorem committed_commit (r : LockedRow τ V) (i : τ) :
    (r.commit i).committed = (r.draft i).getD r.committed := by
  rcases r.held_or_not i with ⟨v, hv⟩ | hnot
  · rw [hv.commit_eq, hv.draft_eq]
    rfl
  · rw [commit_of_not_held hnot, draft_of_not_held hnot]
    rfl

theorem draft_rollback (r : LockedRow τ V) (i j : τ) :
    (r.rollback i).draft j = if j = i then none else r.draft j := by
  apply draft_release
  rcases r.held_or_not i with ⟨v, hv⟩ | hnot
  · exact .inl ⟨v, r.committed, hv, hv.rollback_eq⟩
  · exact .inr ⟨hnot, rollback_of_not_held hnot⟩

theorem committed_rollback (r : LockedRow τ V) (i : τ) :
    (r.rollback i).committed = r.committed := by
  rcases r.held_or_not i with ⟨v, hv⟩ | hnot
  · rw [hv.rollback_eq]
    rfl
  · rw [rollback_of_not_held hnot]

end Draft

end LockedRow

end Acps
