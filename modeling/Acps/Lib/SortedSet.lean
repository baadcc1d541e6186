import Acps.Lib.Paging
import Mathlib.Data.Prod.Lex

/-!
A set of members with a score each, read in the order of the scores and, among members of
one score, of the members.
-/

namespace Acps

structure SortedSet (μ σ : Type) where
  entries : List (μ × σ)
  nodup : (entries.map Prod.fst).Nodup

namespace SortedSet

variable {μ σ : Type} [DecidableEq μ]

def empty : SortedSet μ σ := ⟨[], List.nodup_nil⟩

def score (z : SortedSet μ σ) (m : μ) : Option σ :=
  (z.entries.find? (fun e => e.1 = m)).map Prod.snd

def zrem (z : SortedSet μ σ) (m : μ) : SortedSet μ σ where
  entries := z.entries.filter (fun e => e.1 ≠ m)
  nodup := z.nodup.sublist (List.filter_sublist.map Prod.fst)

def zadd (z : SortedSet μ σ) (x : σ) (m : μ) : SortedSet μ σ where
  entries := (m, x) :: (z.zrem m).entries
  nodup := by
    refine List.nodup_cons.mpr ⟨?_, (z.zrem m).nodup⟩
    simp [zrem]

def rangeByScore [LinearOrder μ] [LinearOrder σ] (z : SortedSet μ σ) (p : σ → Bool) :
    List (μ × σ) :=
  Paging.orderBy (fun e => toLex (e.2, e.1)) (z.entries.filter (fun e => p e.2))

@[simp] theorem score_empty (m : μ) : (empty : SortedSet μ σ).score m = none := rfl

theorem mem_entries {z : SortedSet μ σ} {m : μ} {x : σ} : (m, x) ∈ z.entries ↔ z.score m = some x := by
  constructor
  · intro h
    cases hf : z.entries.find? (fun e => e.1 = m) with
    | none => simpa using List.find?_eq_none.mp hf (m, x) h
    | some e =>
      have hm : e.1 = m := by simpa using List.find?_some hf
      have he : e = (m, x) :=
        List.inj_on_of_nodup_map z.nodup (List.mem_of_find?_eq_some hf) h hm
      rw [score, hf, he, Option.map_some]
  · intro h
    obtain ⟨e, hf, rfl⟩ := Option.map_eq_some_iff.mp h
    obtain rfl : e.1 = m := by simpa using List.find?_some hf
    exact List.mem_of_find?_eq_some hf

theorem score_eq_none {z : SortedSet μ σ} {m : μ} :
    z.score m = none ↔ ∀ x, (m, x) ∉ z.entries := by
  rw [Option.eq_none_iff_forall_ne_some]
  exact forall_congr' fun x => not_congr mem_entries.symm

@[simp] theorem score_zrem_self (z : SortedSet μ σ) (m : μ) : (z.zrem m).score m = none := by
  rw [score_eq_none]
  intro x
  simp [zrem]

theorem score_zrem_of_ne {m k : μ} (h : k ≠ m) (z : SortedSet μ σ) :
    (z.zrem m).score k = z.score k := by
  ext x
  rw [← mem_entries, ← mem_entries]
  simp [zrem, h]

@[simp] theorem score_zadd_self (z : SortedSet μ σ) (x : σ) (m : μ) :
    (z.zadd x m).score m = some x := mem_entries.mp (by simp [zadd])

theorem score_zadd_of_ne {m k : μ} (h : k ≠ m) (z : SortedSet μ σ) (x : σ) :
    (z.zadd x m).score k = z.score k := by
  ext y
  rw [← mem_entries, ← mem_entries]
  simp [zadd, zrem, h]

variable [LinearOrder μ] [LinearOrder σ]

omit [DecidableEq μ] in
theorem ascending_rangeByScore (z : SortedSet μ σ) (p : σ → Bool) :
    Paging.Ascending (fun e : μ × σ => toLex (e.2, e.1)) (z.rangeByScore p) := by
  apply Paging.ascending_orderBy
  have hnodup : (z.entries.filter (fun e => p e.2)).Nodup := (List.Nodup.of_map _ z.nodup).filter _
  apply hnodup.map
  intro a b hab
  have h : (a.2, a.1) = (b.2, b.1) := hab
  exact Prod.ext (congrArg Prod.snd h) (congrArg Prod.fst h)

theorem mem_rangeByScore {z : SortedSet μ σ} {p : σ → Bool} {m : μ} {x : σ} :
    (m, x) ∈ z.rangeByScore p ↔ z.score m = some x ∧ p x = true := by
  rw [rangeByScore, Paging.mem_orderBy, List.mem_filter, mem_entries]

end SortedSet

end Acps
