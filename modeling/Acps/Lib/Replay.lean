import Mathlib.Data.List.Induction
import Mathlib.Logic.Function.Basic

/-!
Replaying a log of keyed entries as a map. An entry carries the value of its key from
then on, or none if it removes the key.
-/

namespace Acps.Replay

variable {ε κ V : Type} [DecidableEq κ] (key : ε → κ) (value : ε → Option V)

def write (m : κ → Option V) (e : ε) : κ → Option V := Function.update m (key e) (value e)

def replay (m : κ → Option V) (es : List ε) : κ → Option V := es.foldl (write key value) m

def lastOn (k : κ) (es : List ε) : Option ε := (es.filter (fun e => key e = k)).getLast?

variable {key value}

@[simp] theorem replay_nil (m : κ → Option V) : replay key value m [] = m := rfl

theorem replay_append (m : κ → Option V) (es fs : List ε) :
    replay key value m (es ++ fs) = replay key value (replay key value m es) fs :=
  List.foldl_append

@[simp] theorem lastOn_nil (k : κ) : lastOn key k [] = none := rfl

theorem lastOn_append (k : κ) (es fs : List ε) :
    lastOn key k (es ++ fs) = (lastOn key k fs).or (lastOn key k es) := by
  unfold lastOn
  rw [List.filter_append, List.getLast?_append]

theorem lastOn_concat_self (key : ε → κ) (es : List ε) (e : ε) : lastOn key (key e) (es ++ [e]) = some e := by
  rw [lastOn_append]
  simp [lastOn]

theorem lastOn_concat_of_ne {key : ε → κ} {k : κ} {e : ε} (h : key e ≠ k) (es : List ε) :
    lastOn key k (es ++ [e]) = lastOn key k es := by
  rw [lastOn_append]
  simp [lastOn, h]

theorem mem_of_lastOn {k : κ} {es : List ε} {e : ε} (h : lastOn key k es = some e) :
    e ∈ es ∧ key e = k := by
  have hmem := List.mem_of_getLast? h
  simpa using hmem

theorem lastOn_eq_none {k : κ} {es : List ε} :
    lastOn key k es = none ↔ ∀ e ∈ es, key e ≠ k := by
  simp [lastOn]

theorem exists_split_of_lastOn {k : κ} {es : List ε} {e : ε} (h : lastOn key k es = some e) :
    ∃ before after, es = before ++ e :: after ∧ ∀ f ∈ after, key f ≠ k := by
  induction es using List.reverseRecOn with
  | nil => simp at h
  | append_singleton es f ih =>
    by_cases hf : key f = k
    · subst hf
      rw [lastOn_concat_self] at h
      obtain rfl := Option.some.inj h
      exact ⟨es, [], rfl, by simp⟩
    · rw [lastOn_concat_of_ne hf] at h
      obtain ⟨before, after, rfl, hafter⟩ := ih h
      refine ⟨before, after ++ [f], by simp, ?_⟩
      intro g hg
      rcases List.mem_append.mp hg with hg | hg
      · exact hafter g hg
      · exact List.mem_singleton.mp hg ▸ hf

theorem lastOn_filter_congr {k : κ} {es : List ε} {p q : ε → Bool}
    (h : ∀ e ∈ es, key e = k → p e = q e) :
    lastOn key k (es.filter p) = lastOn key k (es.filter q) := by
  unfold lastOn
  rw [List.filter_filter, List.filter_filter]
  congr 1
  apply List.filter_congr
  intro e he
  by_cases hk : key e = k
  · simp [h e he hk]
  · simp [hk]

theorem exists_lastOn_of_mem {k : κ} {es : List ε} {e : ε} (he : e ∈ es) (hk : key e = k) :
    ∃ f, lastOn key k es = some f := by
  cases h : lastOn key k es with
  | none => exact absurd hk (lastOn_eq_none.mp h e he)
  | some f => exact ⟨f, rfl⟩

theorem lastOn_map {ε' : Type} {key' : ε' → κ} {f : ε → ε'} (hf : ∀ e, key' (f e) = key e) (k : κ)
    (es : List ε) : lastOn key' k (es.map f) = (lastOn key k es).map f := by
  unfold lastOn
  rw [List.filter_map, List.getLast?_map]
  congr 3
  funext e
  simp only [Function.comp, hf]

section Ranked

variable {rank : ε → ℕ} {k : κ} {es : List ε} {e : ε}

theorem lastOn_eq_some_iff (h : es.Pairwise fun a b => rank a < rank b) :
    lastOn key k es = some e ↔ e ∈ es ∧ key e = k ∧ ∀ f ∈ es, key f = k → rank f ≤ rank e := by
  have hle : ∀ e, lastOn key k es = some e → ∀ f ∈ es, key f = k → f = e ∨ rank f < rank e := by
    intro e he f hf hk
    obtain ⟨before, after, rfl, hafter⟩ := exists_split_of_lastOn he
    rcases List.mem_append.mp hf with hf | hf
    · exact .inr ((List.pairwise_append.mp h).2.2 f hf e List.mem_cons_self)
    · rcases List.mem_cons.mp hf with rfl | hf
      · exact .inl rfl
      · exact absurd hk (hafter f hf)
  constructor
  · intro he
    obtain ⟨hmem, hk⟩ := mem_of_lastOn he
    refine ⟨hmem, hk, fun f hf hfk => ?_⟩
    rcases hle e he f hf hfk with rfl | hlt
    · exact Nat.le_refl _
    · exact Nat.le_of_lt hlt
  · rintro ⟨hmem, hk, hmax⟩
    obtain ⟨f, hf⟩ := exists_lastOn_of_mem hmem hk
    obtain ⟨hfmem, hfk⟩ := mem_of_lastOn hf
    rcases hle f hf e hmem hk with rfl | hlt
    · exact hf
    · have := hmax f hfmem hfk
      omega

end Ranked

theorem write_self (m : κ → Option V) (e : ε) : write key value m e (key e) = value e :=
  Function.update_self ..

theorem write_of_ne {k : κ} {e : ε} (h : key e ≠ k) (m : κ → Option V) :
    write key value m e k = m k := Function.update_of_ne (Ne.symm h) ..

theorem replay_apply (m : κ → Option V) (es : List ε) (k : κ) :
    replay key value m es k = (lastOn key k es).elim (m k) value := by
  induction es using List.reverseRecOn with
  | nil => rfl
  | append_singleton es e ih =>
    rw [replay_append]
    by_cases he : key e = k
    · subst he
      rw [lastOn_concat_self]
      exact write_self _ e
    · rw [lastOn_concat_of_ne he, ← ih]
      exact write_of_ne he _

end Acps.Replay
