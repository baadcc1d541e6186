import Mathlib.Data.List.Perm.Basic
import Mathlib.Data.List.Sort

/-!
A database that sorts the rows of an answer: any arrangement of rows that the order leaves equal
is allowed, and another one in every answer.
-/

namespace Acps

structure Sorter {α : Type} (le : α → α → Prop) where
  order : List α → List α
  perm : ∀ rows, (order rows).Perm rows
  sorted : ∀ rows, (order rows).Pairwise le

namespace Sorter

variable {α : Type} {le : α → α → Prop} (S : Sorter le) {rows : List α} {a b : α}

@[simp] theorem mem_order : a ∈ S.order rows ↔ a ∈ rows := (S.perm rows).mem_iff

@[simp] theorem length_order (rows : List α) : (S.order rows).length = rows.length :=
  (S.perm rows).length_eq

@[simp] theorem order_nil : S.order [] = [] := (S.perm []).eq_nil

@[simp] theorem order_singleton (a : α) : S.order [a] = [a] := List.perm_singleton.mp (S.perm [a])

def insertion (le : α → α → Prop) [DecidableRel le] [Std.Total le] [IsTrans α le] : Sorter le where
  order rows := rows.insertionSort le
  perm rows := List.perm_insertionSort le rows
  sorted rows := List.pairwise_insertionSort le rows

end Sorter

section Leading

variable {α κ : Type} [LinearOrder κ] {key : α → κ}

structure Leading (key : α → κ) (n : ℕ) (wanted top : List α) : Prop where
  ordered : top.Pairwise (fun a b => key a ≤ key b)
  length : top.length = min n wanted.length
  least : ∃ rest, (top ++ rest).Perm wanted ∧ ∀ a ∈ top, ∀ b ∈ rest, key a ≤ key b

theorem key_le_of_mem_take {l : List α} (hl : l.Pairwise (fun a b => key a ≤ key b)) {c : κ} {n : ℕ}
    (hn : n ≤ (l.filter (fun a => key a ≤ c)).length) {a : α} (ha : a ∈ l.take n) : key a ≤ c := by
  induction l generalizing n with
  | nil => simp at ha
  | cons x xs ih =>
    cases n with
    | zero => simp at ha
    | succ n =>
      obtain ⟨hfirst, hrest⟩ := List.pairwise_cons.mp hl
      by_cases hx : key x ≤ c
      · rw [List.filter_cons_of_pos (by simpa using hx), List.length_cons] at hn
        rcases List.mem_cons.mp ha with rfl | ha
        · exact hx
        · exact ih hrest (Nat.le_of_succ_le_succ hn) ha
      · have hnone : (x :: xs).filter (fun a => key a ≤ c) = [] := by
          rw [List.filter_eq_nil_iff]
          intro b hb hbc
          rcases List.mem_cons.mp hb with rfl | hb
          · exact hx (by simpa using hbc)
          · exact hx ((hfirst b hb).trans (by simpa using hbc))
        rw [hnone] at hn
        exact absurd hn (by simp)

theorem length_take_of_mem_drop {l : List α} {n : ℕ} {a : α} (h : a ∈ l.drop n) :
    (l.take n).length = n := by
  have hpos := List.length_pos_of_mem h
  rw [List.length_drop] at hpos
  rw [List.length_take]
  omega

theorem leading_of_groups {groups : List (List α)}
    (hgroups : ∀ g ∈ groups, g.Pairwise (fun a b => key a ≤ key b)) {n fetch : ℕ} (hn : n ≤ fetch)
    {l : List α} (hl : l.Pairwise (fun a b => key a ≤ key b))
    (hperm : l.Perm (groups.flatMap (List.take fetch))) :
    Leading key n groups.flatten (l.take n) := by
  have hcut : (groups.flatMap (List.take fetch) ++ groups.flatMap (List.drop fetch)).Perm
      groups.flatten := by
    have happend := List.flatMap_append_perm groups (List.take fetch) (List.drop fetch)
    simp only [List.take_append_drop] at happend
    rwa [show groups.flatMap (fun g => g) = groups.flatten from List.flatMap_id] at happend
  have hall : (l.take n ++ (l.drop n ++ groups.flatMap (List.drop fetch))).Perm groups.flatten := by
    rw [← List.append_assoc, List.take_append_drop]
    exact (hperm.append_right _).trans hcut
  have hleast : ∀ a ∈ l.take n, ∀ b ∈ l.drop n ++ groups.flatMap (List.drop fetch),
      key a ≤ key b := by
    intro a ha b hb
    rcases List.mem_append.mp hb with hb | hb
    · have hpair := hl
      rw [← List.take_append_drop n l] at hpair
      exact (List.pairwise_append.mp hpair).2.2 a ha b hb
    · -- a row that was cut off has `fetch` rows of its group before it
      obtain ⟨g, hg, hb⟩ := List.mem_flatMap.mp hb
      have hsorted := hgroups g hg
      rw [← List.take_append_drop fetch g] at hsorted
      have hbefore := (List.pairwise_append.mp hsorted).2.2
      apply key_le_of_mem_take hl _ ha
      have hlen := length_take_of_mem_drop hb
      calc n ≤ fetch := hn
        _ = ((g.take fetch).filter (fun a => key a ≤ key b)).length := by
            rw [List.filter_eq_self.mpr, hlen]
            intro x hx
            simpa using hbefore x hx b hb
        _ ≤ ((groups.flatMap (List.take fetch)).filter (fun a => key a ≤ key b)).length := by
            apply List.Sublist.length_le
            apply List.Sublist.filter
            exact List.sublist_flatten_of_mem (List.mem_map_of_mem hg)
        _ = (l.filter (fun a => key a ≤ key b)).length := (hperm.filter _).length_eq.symm
  refine ⟨hl.sublist (List.take_sublist n l), ?_, _, hall, hleast⟩
  rw [List.length_take]
  by_cases hnil : groups.flatMap (List.drop fetch) = []
  · rw [hnil, List.append_nil] at hcut
    rw [(hperm.trans hcut).length_eq]
  · obtain ⟨b, hb⟩ := List.exists_mem_of_ne_nil _ hnil
    obtain ⟨g, hg, hmem⟩ := List.mem_flatMap.mp hb
    have hfull : n ≤ l.length := by
      calc n ≤ fetch := hn
        _ = (g.take fetch).length := (length_take_of_mem_drop hmem).symm
        _ ≤ (groups.flatMap (List.take fetch)).length := by
            apply List.Sublist.length_le
            exact List.sublist_flatten_of_mem (List.mem_map_of_mem hg)
        _ = l.length := hperm.length_eq.symm
    have hle : l.length ≤ groups.flatten.length := by
      rw [hperm.length_eq, ← hcut.length_eq, List.length_append]
      exact Nat.le_add_right ..
    omega

namespace Leading

variable {n : ℕ} {wanted top : List α}

theorem mem (h : Leading key n wanted top) {a : α} (ha : a ∈ top) : a ∈ wanted := by
  obtain ⟨rest, hperm, -⟩ := h.least
  exact hperm.mem_iff.mp (List.mem_append_left _ ha)

theorem perm (h : Leading key n wanted top) {wanted' : List α} (hperm : wanted.Perm wanted') :
    Leading key n wanted' top := by
  obtain ⟨rest, hrest, hleast⟩ := h.least
  exact ⟨h.ordered, hperm.length_eq ▸ h.length, rest, hrest.trans hperm, hleast⟩

theorem filter (h : Leading key n wanted top) {p : α → Bool}
    (hp : ∀ a b, key a ≤ key b → p b = true → p a = true) :
    Leading key n (wanted.filter p) (top.filter p) := by
  obtain ⟨rest, hperm, hleast⟩ := h.least
  have hpermp : (top.filter p ++ rest.filter p).Perm (wanted.filter p) := by
    rw [← List.filter_append]
    exact hperm.filter p
  refine ⟨h.ordered.sublist List.filter_sublist, ?_, rest.filter p, hpermp, ?_⟩
  · by_cases hnil : rest.filter p = []
    · have hle : (top.filter p).length ≤ n :=
        (List.length_filter_le ..).trans (h.length ▸ min_le_left ..)
      rw [hnil, List.append_nil] at hpermp
      rw [← hpermp.length_eq]
      omega
    · -- every one of the first rows passes if a later one does
      obtain ⟨b, hb⟩ := List.exists_mem_of_ne_nil _ hnil
      obtain ⟨hb, hpb⟩ := List.mem_filter.mp hb
      have hself : top.filter p = top :=
        List.filter_eq_self.mpr fun a ha => hp a b (hleast a ha b hb) hpb
      have hlen := hperm.length_eq
      have hlenp := hpermp.length_eq
      have hpos := List.length_pos_of_mem hb
      have hlength := h.length
      rw [hself] at hlenp ⊢
      simp only [List.length_append] at hlen hlenp
      omega
  · intro a ha b hb
    exact hleast a (List.mem_filter.mp ha).1 b (List.mem_filter.mp hb).1

theorem of_filter (h : Leading key n wanted top) {q : α → Bool}
    (hq : ∀ a b, key a ≤ key b → q a = true → q b = true) (hn : 0 < n)
    (h' : Leading key n (wanted.filter q) top) {a : α} (ha : a ∈ wanted) : q a = true := by
  have htop {b : α} (hb : b ∈ top) : q b = true := (List.mem_filter.mp (h'.mem hb)).2
  obtain ⟨rest, hperm, hleast⟩ := h.least
  rcases List.mem_append.mp (hperm.mem_iff.mpr ha) with ha | hrest
  · exact htop ha
  · have hpos : 0 < top.length := by
      rw [h.length]
      exact lt_min hn (List.length_pos_of_mem ha)
    obtain ⟨b, hb⟩ := List.exists_mem_of_length_pos hpos
    exact hq b a (hleast b hb a hrest) (htop hb)

end Leading

end Leading

end Acps
