import Mathlib.Data.List.Induction
import Mathlib.Data.List.Sort
import Mathlib.Order.Basic

/-!
Reading a keyed table in key order, one page after another, with the key of the last row
of a page as the cursor of the next.
-/

namespace Acps.Paging

variable {α κ : Type} [LinearOrder κ] (key : α → κ)

def Ascending (l : List α) : Prop := l.Pairwise (fun a b => key a < key b)

def orderBy (l : List α) : List α := l.insertionSort (fun a b => key a ≤ key b)

def after (c : κ) (l : List α) : List α := l.filter (fun a => c < key a)

def cursorAfter (c : κ) (page : List α) : κ := (page.getLast?.map key).getD c

variable {key}

theorem Ascending.filter {l : List α} (h : Ascending key l) (p : α → Bool) :
    Ascending key (l.filter p) := List.Pairwise.filter p h

theorem Ascending.take {l : List α} (h : Ascending key l) (n : ℕ) : Ascending key (l.take n) :=
  List.Pairwise.sublist (List.take_sublist n l) h

theorem Ascending.nodup_map {l : List α} (h : Ascending key l) : (l.map key).Nodup :=
  List.pairwise_map.mpr (h.imp ne_of_lt)

theorem Ascending.eq_of_key {l : List α} (h : Ascending key l) {a b : α} (ha : a ∈ l) (hb : b ∈ l)
    (hab : key a = key b) : a = b := List.inj_on_of_nodup_map h.nodup_map ha hb hab

theorem Ascending.unique {l l' : List α} (h : Ascending key l) (h' : Ascending key l')
    (hmem : ∀ a, a ∈ l ↔ a ∈ l') : l = l' := by
  have hperm : l.Perm l' :=
    (List.perm_ext_iff_of_nodup (h.imp fun hab he => (he ▸ hab).false)
      (h'.imp fun hab he => (he ▸ hab).false)).mpr hmem
  exact hperm.eq_of_pairwise (fun a b _ _ hab hba => absurd hab hba.not_gt) h h'

theorem ascending_append {l : List α} {a : α} (h : Ascending key l)
    (ha : ∀ b ∈ l, key b < key a) : Ascending key (l ++ [a]) := by
  refine List.pairwise_append.mpr ⟨h, List.pairwise_singleton _ _, ?_⟩
  intro b hb c hc
  obtain rfl := List.mem_singleton.mp hc
  exact ha b hb

theorem orderBy_perm (l : List α) : (orderBy key l).Perm l := List.perm_insertionSort _ l

@[simp] theorem mem_orderBy {l : List α} {a : α} : a ∈ orderBy key l ↔ a ∈ l :=
  List.mem_insertionSort _

@[simp] theorem length_orderBy (l : List α) : (orderBy key l).length = l.length :=
  List.length_insertionSort _ _

theorem ascending_orderBy {l : List α} (h : (l.map key).Nodup) : Ascending key (orderBy key l) := by
  have hle : (orderBy key l).Pairwise (fun a b => key a ≤ key b) :=
    List.pairwise_insertionSort (fun a b => key a ≤ key b) l
  have hne : (orderBy key l).Pairwise (fun a b => key a ≠ key b) := by
    rw [← List.pairwise_map (R := (· ≠ ·))]
    exact ((List.perm_insertionSort _ l).map key).nodup_iff.mpr h
  exact (hle.and hne).imp fun hab => lt_of_le_of_ne hab.1 hab.2

theorem orderBy_of_ascending {l : List α} (h : Ascending key l) : orderBy key l = l :=
  (ascending_orderBy h.nodup_map).unique h (fun _ => mem_orderBy)

@[simp] theorem mem_after {c : κ} {l : List α} {a : α} : a ∈ after key c l ↔ a ∈ l ∧ c < key a := by
  simp [after]

omit [LinearOrder κ] in
theorem cursorAfter_nil (c : κ) : cursorAfter key c [] = c := rfl

omit [LinearOrder κ] in
theorem cursorAfter_append_singleton (c : κ) (l : List α) (a : α) :
    cursorAfter key c (l ++ [a]) = key a := by simp [cursorAfter]

omit [LinearOrder κ] in
theorem cursorAfter_cons (c : κ) (a : α) (l : List α) :
    cursorAfter key c (a :: l) = cursorAfter key (key a) l := by
  cases l using List.reverseRec with
  | nil => rfl
  | append_singleton l b =>
    rw [← List.cons_append, cursorAfter_append_singleton, cursorAfter_append_singleton]

theorem mem_le_cursorAfter {l : List α} (h : Ascending key l) (c : κ) {a : α} (ha : a ∈ l) :
    key a ≤ cursorAfter key c l := by
  cases l using List.reverseRec with
  | nil => simp at ha
  | append_singleton l b =>
    rw [cursorAfter_append_singleton]
    rcases List.mem_append.mp ha with ha | ha
    · exact ((List.pairwise_append.mp h).2.2 a ha b (by simp)).le
    · exact (congrArg key (List.mem_singleton.mp ha)).le

theorem le_cursorAfter {l : List α} {c : κ} (h : ∀ a ∈ l, c < key a) :
    c ≤ cursorAfter key c l := by
  cases l using List.reverseRec with
  | nil => exact le_rfl
  | append_singleton l b =>
    rw [cursorAfter_append_singleton]
    exact (h b (by simp)).le

theorem after_cursorAfter_take {l : List α} (h : Ascending key l) (c : κ) (n : ℕ) :
    after key (cursorAfter key c ((after key c l).take n)) l = (after key c l).drop n := by
  have hf : Ascending key (after key c l) := h.filter _
  have hsplit : (after key c l).take n ++ (after key c l).drop n = after key c l :=
    List.take_append_drop n _
  have hcross : ∀ a ∈ (after key c l).take n, ∀ b ∈ (after key c l).drop n, key a < key b := by
    unfold Ascending at hf
    rw [← hsplit] at hf
    exact (List.pairwise_append.mp hf).2.2
  have hdrop : Ascending key ((after key c l).drop n) :=
    List.Pairwise.sublist (List.drop_sublist n _) hf
  apply (h.filter _).unique hdrop
  intro b
  rw [← after, mem_after]
  constructor
  · rintro ⟨hb, hlt⟩
    have hcb : c < key b := by
      refine lt_of_le_of_lt (le_cursorAfter fun a ha => ?_) hlt
      exact (mem_after.mp (List.mem_of_mem_take ha)).2
    have hmem : b ∈ after key c l := mem_after.mpr ⟨hb, hcb⟩
    rw [← hsplit] at hmem
    rcases List.mem_append.mp hmem with hb' | hb'
    · exact absurd hlt (mem_le_cursorAfter (hf.take n) c hb').not_gt
    · exact hb'
  · intro hb
    have hmem := mem_after.mp (List.mem_of_mem_drop hb)
    refine ⟨hmem.1, ?_⟩
    cases hp : (after key c l).take n using List.reverseRec with
    | nil => rw [cursorAfter_nil]; exact hmem.2
    | append_singleton p a =>
      rw [cursorAfter_append_singleton]
      exact hcross a (by rw [hp]; simp) b hb

theorem take_append_after {l : List α} (h : Ascending key l) (c : κ) (n : ℕ) :
    (after key c l).take n ++ after key (cursorAfter key c ((after key c l).take n)) l =
      after key c l := by
  rw [after_cursorAfter_take h]
  exact List.take_append_drop n _

theorem lt_of_not_mem_take {l : List α} (h : Ascending key l) {n : ℕ} {a b : α} (ha : a ∈ l)
    (hna : a ∉ l.take n) (hb : b ∈ l.take n) : key b < key a := by
  rw [← List.take_append_drop n l] at h ha
  exact (List.pairwise_append.mp h).2.2 b hb a ((List.mem_append.mp ha).resolve_left hna)

theorem length_before_lt {l : List α} (h : Ascending key l) {n : ℕ} {a : α} (ha : a ∈ l.take n) :
    (l.filter (fun b => key b < key a)).length < n := by
  have hsub : l.filter (fun b => key b < key a) = (l.take n).filter (fun b => key b < key a) := by
    conv_lhs => rw [← List.take_append_drop n l, List.filter_append]
    rw [← List.take_append_drop n l] at h
    rw [List.append_right_eq_self, List.filter_eq_nil_iff]
    intro b hb
    simpa using ((List.pairwise_append.mp h).2.2 a ha b hb).le
  rw [hsub]
  calc ((l.take n).filter (fun b => key b < key a)).length
      < (l.take n).length := List.length_filter_lt_length_iff_exists.mpr ⟨a, ha, by simp⟩
    _ ≤ n := List.length_take_le n l

theorem length_after_cursorAfter_lt {l : List α} (h : Ascending key l) (c : κ) {n : ℕ} (hn : 0 < n)
    (hne : after key c l ≠ []) :
    (after key (cursorAfter key c ((after key c l).take n)) l).length < (after key c l).length := by
  rw [after_cursorAfter_take h, List.length_drop]
  have := List.length_pos_iff.mpr hne
  omega

omit [LinearOrder κ] in
theorem flatMap_chunks (l : List α) (k n : ℕ) :
    (List.range n).flatMap (fun i => (l.drop (i * k)).take k) = l.take (n * k) := by
  induction n with
  | zero => simp
  | succ n ih =>
    rw [List.range_succ, List.flatMap_append, ih, Nat.succ_mul, List.take_add]
    simp

end Acps.Paging
