import Acps.Lib.Paging

/-!
Append-only streams trimmed from the front, and consumer groups over them. An entry is
named by its position among all entries ever added, so a trim leaves the names alone.
-/

namespace Acps

structure Stream (ε : Type) where
  added : List ε
  trimmed : ℕ
  trimmed_le : trimmed ≤ added.length

namespace Stream

variable {ε : Type}

def empty : Stream ε := ⟨[], 0, le_rfl⟩

def entries (s : Stream ε) : List ε := s.added.drop s.trimmed

def get? (s : Stream ε) (i : ℕ) : Option ε := if s.trimmed ≤ i then s.added[i]? else none

def xadd (s : Stream ε) (e : ε) : Stream ε where
  added := s.added ++ [e]
  trimmed := s.trimmed
  trimmed_le := s.trimmed_le.trans (by simp)

def xtrim (s : Stream ε) (i : ℕ) : Stream ε where
  added := s.added
  trimmed := max s.trimmed (min i s.added.length)
  trimmed_le := max_le s.trimmed_le (min_le_right _ _)

def xaddMaxLen (s : Stream ε) (maxLen cut : ℕ) (e : ε) : Stream ε :=
  if maxLen + cut ≤ (s.xadd e).entries.length then (s.xadd e).xtrim (s.trimmed + cut) else s.xadd e

@[simp] theorem added_empty : (empty : Stream ε).added = [] := rfl

@[simp] theorem added_xadd (s : Stream ε) (e : ε) : (s.xadd e).added = s.added ++ [e] := rfl

@[simp] theorem trimmed_xadd (s : Stream ε) (e : ε) : (s.xadd e).trimmed = s.trimmed := rfl

@[simp] theorem added_xtrim (s : Stream ε) (i : ℕ) : (s.xtrim i).added = s.added := rfl

@[simp] theorem added_xaddMaxLen (s : Stream ε) (maxLen cut : ℕ) (e : ε) :
    (s.xaddMaxLen maxLen cut e).added = s.added ++ [e] := by
  unfold xaddMaxLen
  split <;> rfl

theorem length_entries (s : Stream ε) : s.entries.length = s.added.length - s.trimmed :=
  List.length_drop

theorem trimmed_le_xtrim (s : Stream ε) (i : ℕ) : s.trimmed ≤ (s.xtrim i).trimmed := le_max_left _ _

theorem trimmed_le_xaddMaxLen (s : Stream ε) (maxLen cut : ℕ) (e : ε) :
    s.trimmed ≤ (s.xaddMaxLen maxLen cut e).trimmed := by
  unfold xaddMaxLen
  split
  · exact trimmed_le_xtrim (s.xadd e) _
  · exact le_rfl

theorem length_entries_xaddMaxLen {n maxLen : ℕ} (hn : n ≤ maxLen) (cut : ℕ) (s : Stream ε) (e : ε)
    (h : min n s.added.length ≤ s.entries.length) :
    min n (s.added.length + 1) ≤ (s.xaddMaxLen maxLen cut e).entries.length := by
  have hle := s.trimmed_le
  rw [length_entries] at h
  unfold xaddMaxLen
  split
  · next hcut =>
    rw [length_entries] at hcut ⊢
    simp only [added_xadd, trimmed_xadd, xtrim, List.length_append,
      List.length_singleton] at hcut ⊢
    omega
  · rw [length_entries]
    simp only [added_xadd, trimmed_xadd, List.length_append, List.length_singleton]
    omega

theorem get?_eq_some {s : Stream ε} {i : ℕ} {e : ε} :
    s.get? i = some e ↔ s.trimmed ≤ i ∧ s.added[i]? = some e := by
  unfold get?
  split <;> simp_all

end Stream

structure Group (γ : Type) where
  lastDelivered : ℕ
  pending : List (ℕ × γ)

namespace Group

variable {ε γ : Type}

def create : Group γ := ⟨0, []⟩

def undelivered (g : Group γ) (s : Stream ε) : List (ε × ℕ) :=
  s.added.zipIdx.drop (max g.lastDelivered s.trimmed)

def xreadgroup (g : Group γ) (s : Stream ε) (consumer : γ) (count : ℕ) :
    List (ε × ℕ) × Group γ :=
  let batch := (g.undelivered s).take count
  (batch,
    { lastDelivered := (batch.getLast?.map (fun e => e.2 + 1)).getD g.lastDelivered
      pending := g.pending ++ batch.map (fun e => (e.2, consumer)) })

def xack (g : Group γ) (i : ℕ) : Group γ :=
  { g with pending := g.pending.filter (fun p => p.1 ≠ i) }

def delconsumer [DecidableEq γ] (g : Group γ) (consumer : γ) : Group γ :=
  { g with pending := g.pending.filter (fun p => p.2 ≠ consumer) }

def xpendingFirst (g : Group γ) : Option ℕ := (g.pending.map Prod.fst).min?

structure Claim (ε γ : Type) where
  claimed : List (ε × ℕ)
  group : Group γ
  more : Bool

def xautoclaim (g : Group γ) (s : Stream ε) (consumer : γ) (count : ℕ) : Claim ε γ :=
  let seen := ((Paging.orderBy Prod.fst g.pending).take count).map Prod.fst
  { claimed := seen.filterMap (fun i => (s.get? i).map (fun e => (e, i)))
    group :=
      { g with
        pending := g.pending.filterMap (fun p =>
          if p.1 ∈ seen then (s.get? p.1).map (fun _ => (p.1, consumer)) else some p) }
    more := decide (count < g.pending.length) }

def Pends (g : Group γ) (i : ℕ) : Prop := ∃ c, (i, c) ∈ g.pending

theorem mem_undelivered {g : Group γ} {s : Stream ε} {e : ε} {i : ℕ} :
    (e, i) ∈ g.undelivered s ↔
      s.added[i]? = some e ∧ g.lastDelivered ≤ i ∧ s.trimmed ≤ i := by
  unfold undelivered
  rw [List.mem_drop_iff_getElem]
  constructor
  · rintro ⟨j, hj, he⟩
    simp only [List.getElem_zipIdx, Prod.mk.injEq, Nat.zero_add] at he
    obtain ⟨rfl, rfl⟩ := he
    refine ⟨List.getElem?_eq_getElem _, ?_, ?_⟩ <;> omega
  · rintro ⟨he, hg, hs⟩
    obtain ⟨hlt, rfl⟩ := List.getElem?_eq_some_iff.mp he
    refine ⟨i - max g.lastDelivered s.trimmed, ?_, ?_⟩
    · simp only [List.length_zipIdx]
      omega
    · simp only [List.getElem_zipIdx, Prod.mk.injEq, Nat.zero_add]
      have hi : max g.lastDelivered s.trimmed + (i - max g.lastDelivered s.trimmed) = i := by omega
      simp only [hi, and_self]

theorem pends_xack {g : Group γ} {i p : ℕ} : (g.xack i).Pends p ↔ g.Pends p ∧ p ≠ i := by
  simp [Pends, xack]

theorem pends_of_delconsumer [DecidableEq γ] {g : Group γ} {c : γ} {p : ℕ} (h : (g.delconsumer c).Pends p) :
    g.Pends p := by
  obtain ⟨c', h⟩ := h
  exact ⟨c', (List.mem_filter.mp h).1⟩

theorem pends_delconsumer [DecidableEq γ] {g : Group γ} {c : γ} {p : ℕ} (h : g.Pends p)
    (hc : (p, c) ∉ g.pending) :
    (g.delconsumer c).Pends p := by
  obtain ⟨c', h⟩ := h
  refine ⟨c', List.mem_filter.mpr ⟨h, decide_eq_true ?_⟩⟩
  rintro rfl
  exact hc h

theorem pends_of_xpendingFirst {g : Group γ} {i : ℕ} (h : g.xpendingFirst = some i) : g.Pends i := by
  have hmem := List.min?_mem h
  obtain ⟨⟨_, c⟩, hc, rfl⟩ := List.mem_map.mp hmem
  exact ⟨c, hc⟩

theorem map_snd_undelivered (g : Group γ) (s : Stream ε) :
    (g.undelivered s).map Prod.snd =
      List.range' (max g.lastDelivered s.trimmed)
        (s.added.length - max g.lastDelivered s.trimmed) := by
  rw [undelivered, List.map_drop, List.zipIdx_map_snd, List.drop_range']
  simp

theorem pends_xreadgroup {g : Group γ} {s : Stream ε} {c : γ} {count p : ℕ} :
    (g.xreadgroup s c count).2.Pends p ↔
      g.Pends p ∨ p ∈ (g.xreadgroup s c count).1.map Prod.snd := by
  simp only [Pends, xreadgroup, List.mem_append, List.mem_map, Prod.mk.injEq]
  constructor
  · rintro ⟨c', h | ⟨e, he, rfl, rfl⟩⟩
    · exact .inl ⟨c', h⟩
    · exact .inr ⟨e, he, rfl⟩
  · rintro (⟨c', h⟩ | ⟨e, he, rfl⟩)
    · exact ⟨c', .inl h⟩
    · exact ⟨c, .inr ⟨e, he, rfl, rfl⟩⟩

theorem map_snd_xreadgroup (g : Group γ) (s : Stream ε) (c : γ) (count : ℕ) :
    (g.xreadgroup s c count).1.map Prod.snd =
      List.range' (max g.lastDelivered s.trimmed)
        (min count (s.added.length - max g.lastDelivered s.trimmed)) := by
  rw [xreadgroup, List.map_take, map_snd_undelivered]
  cases le_total count (s.added.length - max g.lastDelivered s.trimmed) with
  | inl h => rw [List.take_range'_of_length_ge h, min_eq_left h]
  | inr h => rw [List.take_range'_of_length_le h, min_eq_right h]

theorem mem_xreadgroup {g : Group γ} {s : Stream ε} {c : γ} {count : ℕ} {x : ε × ℕ}
    (h : x ∈ (g.xreadgroup s c count).1) : s.added[x.2]? = some x.1 :=
  (mem_undelivered.mp (List.mem_of_mem_take h)).1

theorem lastDelivered_xreadgroup (g : Group γ) (s : Stream ε) (c : γ) (count : ℕ) :
    (g.xreadgroup s c count).2.lastDelivered =
      if (g.xreadgroup s c count).1.length = 0 then g.lastDelivered
      else max g.lastDelivered s.trimmed + (g.xreadgroup s c count).1.length := by
  have hlast : (g.xreadgroup s c count).2.lastDelivered =
      (((g.xreadgroup s c count).1.map Prod.snd).getLast?.map (· + 1)).getD g.lastDelivered := by
    rw [List.getLast?_map, Option.map_map]
    rfl
  have hlength : (g.xreadgroup s c count).1.length =
      min count (s.added.length - max g.lastDelivered s.trimmed) := by
    rw [← List.length_map (f := Prod.snd), map_snd_xreadgroup, List.length_range']
  rw [hlast, map_snd_xreadgroup, List.getLast?_range', hlength]
  split
  · rfl
  · simp only [Option.map_some, Option.getD_some]
    omega

theorem of_lt_lastDelivered_xreadgroup {g : Group γ} {s : Stream ε} {c : γ} {count p : ℕ}
    (h : p < (g.xreadgroup s c count).2.lastDelivered) :
    p < g.lastDelivered ∨ p < s.trimmed ∨ p ∈ (g.xreadgroup s c count).1.map Prod.snd := by
  have hlength := congrArg List.length (map_snd_xreadgroup g s c count)
  rw [List.length_map, List.length_range'] at hlength
  rw [lastDelivered_xreadgroup] at h
  rw [map_snd_xreadgroup, List.mem_range'_1]
  split at h
  · exact .inl h
  · omega

theorem lt_lastDelivered_of_mem_xreadgroup {g : Group γ} {s : Stream ε} {c : γ} {count p : ℕ}
    (h : p ∈ (g.xreadgroup s c count).1.map Prod.snd) :
    p < (g.xreadgroup s c count).2.lastDelivered := by
  have hne : (g.xreadgroup s c count).1 ≠ [] := by
    rintro hnil
    simp [hnil] at h
  have hlength := congrArg List.length (map_snd_xreadgroup g s c count)
  rw [List.length_map, List.length_range'] at hlength
  rw [map_snd_xreadgroup, List.mem_range'_1] at h
  rw [lastDelivered_xreadgroup, if_neg (mt List.length_eq_zero_iff.mp hne)]
  omega

theorem lastDelivered_le_xreadgroup (g : Group γ) (s : Stream ε) (c : γ) (count : ℕ) :
    g.lastDelivered ≤ (g.xreadgroup s c count).2.lastDelivered := by
  rw [lastDelivered_xreadgroup]
  split
  · exact le_rfl
  · omega

theorem lastDelivered_xreadgroup_le {g : Group γ} {s : Stream ε} (h : g.lastDelivered ≤ s.added.length)
    (c : γ) (count : ℕ) : (g.xreadgroup s c count).2.lastDelivered ≤ s.added.length := by
  have hlength := congrArg List.length (map_snd_xreadgroup g s c count)
  rw [List.length_map, List.length_range'] at hlength
  rw [lastDelivered_xreadgroup]
  split
  · exact h
  · omega

section Autoclaim

variable {g : Group γ} {s : Stream ε} {c : γ} {count p : ℕ}

theorem mem_claimed {x : ε × ℕ} (h : x ∈ (g.xautoclaim s c count).claimed) :
    s.added[x.2]? = some x.1 := by
  obtain ⟨i, _, hi⟩ := List.mem_filterMap.mp h
  obtain ⟨e, he, rfl⟩ := Option.map_eq_some_iff.mp hi
  exact (Stream.get?_eq_some.mp he).2

theorem pends_of_xautoclaim (h : (g.xautoclaim s c count).group.Pends p) : g.Pends p := by
  obtain ⟨c', hc⟩ := h
  obtain ⟨⟨i, c''⟩, hmem, heq⟩ := List.mem_filterMap.mp hc
  refine ⟨c'', ?_⟩
  dsimp only at heq
  split at heq
  · obtain ⟨_, _, hpc⟩ := Option.map_eq_some_iff.mp heq
    exact (Prod.mk.inj hpc).1 ▸ hmem
  · exact (Prod.mk.inj (Option.some.inj heq)).1 ▸ hmem

theorem pends_xautoclaim (h : g.Pends p) {e : ε} (he : s.get? p = some e) :
    (g.xautoclaim s c count).group.Pends p := by
  obtain ⟨c', hc⟩ := h
  by_cases hseen : p ∈ ((Paging.orderBy Prod.fst g.pending).take count).map Prod.fst
  · exact ⟨c, List.mem_filterMap.mpr ⟨(p, c'), hc, by simp only [hseen, he]; rfl⟩⟩
  · exact ⟨c', List.mem_filterMap.mpr ⟨(p, c'), hc, by simp only [hseen]; rfl⟩⟩

theorem mem_claimed_of_pends (hmore : (g.xautoclaim s c count).more = false)
    (h : (g.xautoclaim s c count).group.Pends p) :
    p ∈ (g.xautoclaim s c count).claimed.map Prod.snd := by
  have hle : g.pending.length ≤ count := not_lt.mp (of_decide_eq_false hmore)
  have hseen : ∀ i c', (i, c') ∈ g.pending →
      i ∈ ((Paging.orderBy Prod.fst g.pending).take count).map Prod.fst := by
    intro i c' hi
    rw [List.take_of_length_le (by rwa [Paging.length_orderBy])]
    exact List.mem_map.mpr ⟨(i, c'), Paging.mem_orderBy.mpr hi, rfl⟩
  obtain ⟨c', hc⟩ := h
  obtain ⟨⟨i, c''⟩, hmem, heq⟩ := List.mem_filterMap.mp hc
  dsimp only at heq
  rw [if_pos (hseen i c'' hmem)] at heq
  obtain ⟨e, he, hpc⟩ := Option.map_eq_some_iff.mp heq
  obtain rfl := (Prod.mk.inj hpc).1
  refine List.mem_map.mpr ⟨(e, i), List.mem_filterMap.mpr ⟨i, hseen i c'' hmem, ?_⟩, rfl⟩
  rw [he, Option.map_some]

end Autoclaim

end Group

end Acps
