import Mathlib.Data.List.Basic

/-!
Texts made of parts with a separator between them.
-/

namespace Acps.Delimited

variable {α : Type} {sep : α}

theorem mem_intercalate {ps : List (List α)} {c : α} (h : c ∈ [sep].intercalate ps) :
    c = sep ∨ ∃ p ∈ ps, c ∈ p := by
  induction ps with
  | nil => simp at h
  | cons p ps ih =>
    by_cases hps : ps = []
    · subst hps
      exact .inr ⟨p, List.mem_singleton_self p, by simpa using h⟩
    · rw [List.intercalate_cons_of_ne_nil hps, List.mem_append, List.mem_append,
        List.mem_singleton] at h
      rcases h with (h | h) | h
      · exact .inr ⟨p, List.mem_cons_self, h⟩
      · exact .inl h
      · rcases ih h with hsep | ⟨q, hq, hc⟩
        · exact .inl hsep
        · exact .inr ⟨q, List.mem_cons_of_mem p hq, hc⟩

theorem infix_intercalate {ps : List (List α)} {p : List α} (h : p ∈ ps) :
    p <:+: [sep].intercalate ps := by
  induction ps with
  | nil => cases h
  | cons q ps ih =>
    by_cases hps : ps = []
    · subst hps
      refine ⟨[], [], ?_⟩
      rw [List.mem_singleton.mp h, List.intercalate_singleton, List.nil_append, List.append_nil]
    · rw [List.intercalate_cons_of_ne_nil hps]
      rcases List.mem_cons.mp h with rfl | h
      · rw [List.append_assoc]
        exact (List.prefix_append _ _).isInfix
      · exact (ih h).trans (List.suffix_append _ _).isInfix

variable [DecidableEq α]

theorem mem_splitOn {s : List α} {c : α} (h : c ∈ s) : c = sep ∨ ∃ p ∈ s.splitOn sep, c ∈ p := by
  apply mem_intercalate
  rwa [List.intercalate_splitOn]

theorem eq_of_splitOn_singleton {s p : List α} (h : s.splitOn sep = [p]) : s = p := by
  have hjoin : [sep].intercalate (s.splitOn sep) = s := List.intercalate_splitOn sep
  rw [h, List.intercalate_singleton] at hjoin
  exact hjoin.symm

theorem eq_of_splitOn_three {a b c x y z : List α}
    (h : (a ++ sep :: b ++ sep :: c).splitOn sep = [x, y, z]) : a = x ∧ b = y ∧ c = z := by
  rw [List.splitOn_append_cons_self, List.splitOn_append_cons_self] at h
  obtain ⟨a₀, as, ha⟩ := List.exists_cons_of_ne_nil (List.splitOn_ne_nil sep a)
  obtain ⟨b₀, bs, hb⟩ := List.exists_cons_of_ne_nil (List.splitOn_ne_nil sep b)
  obtain ⟨c₀, cs, hc⟩ := List.exists_cons_of_ne_nil (List.splitOn_ne_nil sep c)
  rw [ha, hb, hc] at h
  have hlength := congrArg List.length h
  simp only [List.length_append, List.length_cons, List.length_nil] at hlength
  obtain rfl : as = [] := List.eq_nil_of_length_eq_zero (by omega)
  obtain rfl : bs = [] := List.eq_nil_of_length_eq_zero (by omega)
  obtain rfl : cs = [] := List.eq_nil_of_length_eq_zero (by omega)
  simp only [List.cons_append, List.nil_append, List.cons.injEq, and_true] at h
  obtain ⟨rfl, rfl, rfl⟩ := h
  exact ⟨eq_of_splitOn_singleton ha, eq_of_splitOn_singleton hb, eq_of_splitOn_singleton hc⟩

end Acps.Delimited
