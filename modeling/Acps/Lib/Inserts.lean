import Mathlib.Data.List.Basic
import Mathlib.Data.List.Perm.Basic

/-!
A table that transactions insert into: a row counts once its transaction commits, and an insert
that clashes with the row of another transaction waits for that one to end.
-/

namespace Acps

structure Inserts (τ ρ : Type) where
  committed : List ρ
  pending : List (τ × ρ)

inductive Insertion (τ ρ : Type) where
  | waits
  | violates
  | inserted (rows : Inserts τ ρ)

namespace Inserts

variable {τ ρ : Type} [DecidableEq τ]

def empty : Inserts τ ρ := { committed := [], pending := [] }

def own (t : Inserts τ ρ) (i : τ) : List ρ := (t.pending.filter (·.1 = i)).map (·.2)

def push (t : Inserts τ ρ) (i : τ) (row : ρ) : Inserts τ ρ :=
  { t with pending := t.pending ++ [(i, row)] }

def insert (clash : ρ → ρ → Prop) [DecidableRel clash] (t : Inserts τ ρ) (i : τ) (row : ρ) :
    Insertion τ ρ :=
  if (∃ r ∈ t.committed, clash r row) ∨ ∃ r ∈ t.own i, clash r row then .violates
  else if ∃ p ∈ t.pending, p.1 ≠ i ∧ clash p.2 row then .waits
  else .inserted (t.push i row)

def rollback (t : Inserts τ ρ) (i : τ) : Inserts τ ρ :=
  { t with pending := t.pending.filter (·.1 ≠ i) }

def commit (t : Inserts τ ρ) (i : τ) : Inserts τ ρ :=
  { t.rollback i with committed := t.committed ++ t.own i }

variable (t : Inserts τ ρ) (i j : τ) (row : ρ)

@[simp] theorem own_empty : (empty : Inserts τ ρ).own i = [] := rfl

theorem own_push : (t.push i row).own j = if j = i then t.own i ++ [row] else t.own j := by
  unfold own push
  rw [List.filter_append, List.map_append]
  by_cases h : i = j
  · simp [h]
  · simp [h, Ne.symm h]

theorem own_rollback : (t.rollback i).own j = if j = i then [] else t.own j := by
  unfold own rollback
  rw [List.filter_filter]
  split
  next h => simp [h]
  next h =>
    refine congrArg (List.map _) (List.filter_congr fun p _ => ?_)
    by_cases hp : p.1 = j <;> simp [hp, h]

theorem own_commit : (t.commit i).own j = if j = i then [] else t.own j := t.own_rollback i j

def rows : List ρ := t.committed ++ t.pending.map (·.2)

variable (clash : ρ → ρ → Prop)

def Distinct : Prop := t.rows.Pairwise fun a b => ¬ clash a b

variable {t i row clash}

theorem distinct_push [DecidableRel clash] {t' : Inserts τ ρ} (ht : t.Distinct clash)
    (h : t.insert clash i row = .inserted t') : t' = t.push i row ∧ t'.Distinct clash := by
  unfold insert at h
  split at h
  · cases h
  next hown =>
    split at h
    · cases h
    next hothers =>
      obtain rfl := Insertion.inserted.inj h
      refine ⟨rfl, ?_⟩
      have hrows : (t.push i row).rows = t.rows ++ [row] := by simp [rows, push]
      unfold Distinct
      rw [hrows, List.pairwise_append]
      refine ⟨ht, List.pairwise_singleton _ _, fun r hr new hnew hclash => ?_⟩
      obtain rfl := List.mem_singleton.mp hnew
      rcases List.mem_append.mp hr with hr | hr
      · exact hown (.inl ⟨r, hr, hclash⟩)
      · obtain ⟨p, hp, rfl⟩ := List.mem_map.mp hr
        by_cases hi : p.1 = i
        · exact hown (.inr ⟨p.2, List.mem_map.mpr ⟨p, by simp [hp, hi], rfl⟩, hclash⟩)
        · exact hothers ⟨p, hp, hi, hclash⟩

theorem distinct_rollback (ht : t.Distinct clash) : (t.rollback i).Distinct clash := by
  apply List.Pairwise.sublist _ ht
  exact (List.Sublist.refl _).append (List.filter_sublist.map _)

theorem distinct_commit (hsymm : ∀ a b, clash a b → clash b a) (ht : t.Distinct clash) :
    (t.commit i).Distinct clash := by
  have hperm : (t.commit i).rows.Perm t.rows := by
    unfold rows commit rollback own
    rw [List.append_assoc, ← List.map_append]
    have hsplit := List.filter_append_perm (fun p : τ × ρ => decide (p.1 = i)) t.pending
    simp only [decide_not]
    exact (hsplit.map _).append_left _
  exact (hperm.pairwise_iff fun hab hba => hab (hsymm _ _ hba)).mpr ht

omit [DecidableEq τ] in
theorem Distinct.committed (ht : t.Distinct clash) :
    t.committed.Pairwise fun a b => ¬ clash a b := (List.pairwise_append.mp ht).1

end Inserts

end Acps
