import Mathlib.Data.List.Basic

/-!
Objects that are kept in a list under their place: what is found after one of them was changed, or a
new one was added at the end.
-/

namespace Acps.Slots

variable {α : Type} {l : List α} {f : α → α} {a x : α} {i j : ℕ}

theorem getElem?_modify_eq_some :
    (l.modify i f)[j]? = some x ↔
      i = j ∧ (∃ y, l[j]? = some y ∧ f y = x) ∨ i ≠ j ∧ l[j]? = some x := by
  by_cases h : i = j
  · subst h
    rw [List.getElem?_modify_eq, Option.map_eq_map, Option.map_eq_some_iff]
    simp
  · rw [List.getElem?_modify_ne f l h]
    simp [h]

theorem getElem?_concat_eq_some :
    (l ++ [a])[i]? = some x ↔ l[i]? = some x ∨ i = l.length ∧ a = x := by
  rcases Nat.lt_trichotomy i l.length with h | rfl | h
  · rw [List.getElem?_append_left h]
    simp [Nat.ne_of_lt h]
  · simp
  · rw [List.getElem?_append_right (Nat.le_of_lt h), List.getElem?_eq_none (Nat.le_of_lt h)]
    have hsub : [a][i - l.length]? = none := List.getElem?_eq_none (Nat.sub_pos_of_lt h)
    rw [hsub]
    simp [Nat.ne_of_gt h]

theorem countP_le_of_places {p : α → Bool} {l l' : List α}
    (h : ∀ (j : ℕ) (x : α), l'[j]? = some x → p x = true → ∃ y, l[j]? = some y ∧ p y = true) :
    l'.countP p ≤ l.countP p := by
  induction l' generalizing l with
  | nil => exact Nat.zero_le _
  | cons x l' ih =>
    have htail (j : ℕ) (z : α) (hz : l'[j]? = some z) (hp : p z = true) :
        ∃ y, l.tail[j]? = some y ∧ p y = true := by
      obtain ⟨y, hy, hyp⟩ := h (j + 1) z hz hp
      exact ⟨y, by rwa [List.getElem?_tail], hyp⟩
    cases l with
    | nil =>
      have hnone : ¬ p x = true := by
        intro hp
        obtain ⟨y, hy, -⟩ := h 0 x rfl hp
        cases hy
      rw [List.countP_cons_of_neg hnone]
      exact ih htail
    | cons y l =>
      have hrest : l'.countP p ≤ l.countP p := ih htail
      by_cases hp : p x = true
      · obtain ⟨z, hz, hzp⟩ := h 0 x rfl hp
        obtain rfl : y = z := Option.some.inj hz
        rw [List.countP_cons_of_pos hp, List.countP_cons_of_pos hzp]
        omega
      · rw [List.countP_cons_of_neg hp]
        exact Nat.le_trans hrest (List.sublist_cons_self y l).countP_le

theorem countP_le_succ_of_places {p : α → Bool} {l l' : List α} {i : ℕ}
    (h : ∀ (j : ℕ) (x : α), j ≠ i → l'[j]? = some x → p x = true → ∃ y, l[j]? = some y ∧ p y = true) :
    l'.countP p ≤ l.countP p + 1 := by
  induction l' generalizing l i with
  | nil => exact Nat.zero_le _
  | cons x l' ih =>
    cases i with
    | zero =>
      have hrest : l'.countP p ≤ l.tail.countP p := by
        apply countP_le_of_places
        intro j z hz hp
        obtain ⟨y, hy, hyp⟩ := h (j + 1) z (Nat.succ_ne_zero j) hz hp
        exact ⟨y, by rwa [List.getElem?_tail], hyp⟩
      have htail : l.tail.countP p ≤ l.countP p := l.tail_sublist.countP_le
      have hcons : (x :: l').countP p ≤ l'.countP p + 1 := by
        by_cases hp : p x = true
        · exact Nat.le_of_eq (List.countP_cons_of_pos hp)
        · exact Nat.le_trans (Nat.le_of_eq (List.countP_cons_of_neg hp)) (Nat.le_succ _)
      omega
    | succ i =>
      have hrest : l'.countP p ≤ l.tail.countP p + 1 := by
        apply ih (i := i)
        intro j z hj hz hp
        obtain ⟨y, hy, hyp⟩ := h (j + 1) z (fun heq => hj (Nat.succ.inj heq)) hz hp
        exact ⟨y, by rwa [List.getElem?_tail], hyp⟩
      by_cases hp : p x = true
      · obtain ⟨y, hy, hyp⟩ := h 0 x (Nat.succ_ne_zero i).symm rfl hp
        cases l with
        | nil => cases hy
        | cons z l =>
          obtain rfl : z = y := Option.some.inj hy
          rw [List.countP_cons_of_pos hp, List.countP_cons_of_pos hyp]
          exact Nat.succ_le_succ hrest
      · rw [List.countP_cons_of_neg hp]
        have htail : l.tail.countP p ≤ l.countP p := l.tail_sublist.countP_le
        omega

end Acps.Slots
