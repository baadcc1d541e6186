import Mathlib.Data.List.Induction
import Mathlib.Data.Int.Notation
import Mathlib.Order.Lattice
import Mathlib.Tactic.Linarith

/-!
Lists of records in which each one is numbered and names the hash of the one before it.
-/

namespace Acps.HashChain

structure View (ρ H : Type) where
  seq : ρ → ℤ
  previous : ρ → Option H
  current : ρ → H

variable {ρ H : Type} (v : View ρ H)

def Follows (last : Option ρ) (r : ρ) : Prop :=
  v.seq r = last.elim (-1) v.seq + 1 ∧ v.previous r = last.map v.current

inductive Chained : List ρ → Prop where
  | nil : Chained []
  | snoc {rs : List ρ} {r : ρ} (h : Chained rs) (hr : Follows v rs.getLast? r) : Chained (rs ++ [r])

namespace Chained

variable {v} {rs : List ρ} {r : ρ}

theorem last_seq (h : Chained v rs) : rs.getLast?.elim (-1) v.seq = rs.length - 1 := by
  induction h with
  | nil => rfl
  | snoc _ hr ih =>
    rw [List.getLast?_concat, Option.elim_some, hr.1, ih, List.length_append, List.length_singleton]
    omega

theorem map_seq (h : Chained v rs) : rs.map v.seq = (List.range rs.length).map (↑·) := by
  induction h with
  | nil => rfl
  | snoc h hr ih =>
    rw [List.map_append, ih, List.length_append, List.length_singleton, List.range_succ,
      List.map_append, List.map_singleton, List.map_singleton, hr.1, h.last_seq, Int.sub_add_cancel]

theorem last_nonneg (h : Chained v rs) (hr : r ∈ rs.getLast?) : 0 ≤ v.seq r := by
  have hlast := h.last_seq
  have hne : rs ≠ [] := by
    rintro rfl
    cases hr
  have hlen := List.length_pos_iff.mpr hne
  rw [Option.mem_def.mp hr, Option.elim_some] at hlast
  omega

theorem previous_genesis (h : Chained v rs) (hr : r ∈ rs) (hseq : v.seq r = 0) :
    v.previous r = none := by
  induction h with
  | nil => cases hr
  | snoc h hlast ih =>
    rcases List.mem_append.mp hr with hold | hnew
    · exact ih hold
    · obtain rfl := List.mem_singleton.mp hnew
      cases hprev : (_ : List ρ).getLast? with
      | none => rw [hlast.2, hprev]; rfl
      | some p =>
        have hp := h.last_nonneg (Option.mem_def.mpr hprev)
        have hseq' := hlast.1
        rw [hprev, Option.elim_some] at hseq'
        omega

theorem previous_later (h : Chained v rs) (hr : r ∈ rs) (hseq : v.seq r ≠ 0) :
    ∃ p ∈ rs, v.seq p + 1 = v.seq r ∧ v.previous r = some (v.current p) := by
  induction h with
  | nil => cases hr
  | snoc h hlast ih =>
    rcases List.mem_append.mp hr with hold | hnew
    · obtain ⟨p, hp, hfollows⟩ := ih hold
      exact ⟨p, List.mem_append_left _ hp, hfollows⟩
    · obtain rfl := List.mem_singleton.mp hnew
      cases hprev : (_ : List ρ).getLast? with
      | none =>
        rw [hprev] at hlast
        exact absurd hlast.1 hseq
      | some p =>
        rw [hprev] at hlast
        exact ⟨p, List.mem_append_left _ (List.mem_of_getLast? hprev), hlast.1.symm, hlast.2⟩

end Chained

end Acps.HashChain
