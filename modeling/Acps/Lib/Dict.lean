import Mathlib.Data.List.Nodup

/-!
Dictionaries that keep the order in which their keys were set first.
-/

namespace Acps

structure Dict (κ ν : Type) where
  entries : List (κ × ν)
  nodup : (entries.map Prod.fst).Nodup

namespace Dict

variable {κ ν μ : Type}

def empty : Dict κ ν := ⟨[], List.nodup_nil⟩

def keys (d : Dict κ ν) : List κ := d.entries.map Prod.fst

def map (f : κ → ν → μ) (d : Dict κ ν) : Dict κ μ where
  entries := d.entries.map fun e => (e.1, f e.1 e.2)
  nodup := by
    rw [List.map_map]
    exact d.nodup

variable {d : Dict κ ν} {j k : κ} {v w : ν}

@[simp] theorem keys_empty : (empty : Dict κ ν).keys = [] := rfl

@[simp] theorem entries_empty : (empty : Dict κ ν).entries = [] := rfl

theorem mem_keys : k ∈ d.keys ↔ ∃ v, (k, v) ∈ d.entries := by
  simp [keys]

theorem mem_keys_of_mem (h : (k, v) ∈ d.entries) : k ∈ d.keys := mem_keys.mpr ⟨v, h⟩

@[simp] theorem keys_map {f : κ → ν → μ} : (d.map f).keys = d.keys := by
  unfold keys map
  rw [List.map_map]
  rfl

variable [DecidableEq κ]

def get (d : Dict κ ν) (k : κ) : Option ν := (d.entries.find? fun e => e.1 = k).map Prod.snd

def put (entries : List (κ × ν)) (k : κ) (v : ν) : List (κ × ν) :=
  if k ∈ entries.map Prod.fst then entries.map fun e => if e.1 = k then (k, v) else e
  else entries ++ [(k, v)]

theorem keys_put (entries : List (κ × ν)) (k : κ) (v : ν) :
    (put entries k v).map Prod.fst =
      if k ∈ entries.map Prod.fst then entries.map Prod.fst else entries.map Prod.fst ++ [k] := by
  unfold put
  split
  next =>
    rw [List.map_map]
    apply List.map_congr_left
    intro e _
    dsimp only [Function.comp]
    split
    next heq => exact heq.symm
    next => rfl
  next => rw [List.map_append, List.map_singleton]

def set (d : Dict κ ν) (k : κ) (v : ν) : Dict κ ν where
  entries := put d.entries k v
  nodup := by
    rw [keys_put]
    split
    next => exact d.nodup
    next hnew => exact List.nodup_append.mpr ⟨d.nodup, List.nodup_singleton _, by
      intro a ha b hb heq
      rw [List.mem_singleton.mp hb] at heq
      exact hnew (heq ▸ ha)⟩

def setDefault (d : Dict κ ν) (k : κ) (v : ν) : Dict κ ν :=
  if k ∈ d.keys then d else d.set k v

@[simp] theorem get_empty : (empty : Dict κ ν).get k = none := rfl

theorem get_eq_some : d.get k = some v ↔ (k, v) ∈ d.entries := by
  unfold get
  constructor
  · intro h
    obtain ⟨e, he, rfl⟩ := Option.map_eq_some_iff.mp h
    have hkey : e.1 = k := by simpa using List.find?_some he
    rw [← hkey]
    exact List.mem_of_find?_eq_some he
  · intro h
    cases hfind : d.entries.find? fun e => e.1 = k with
    | none => simpa using List.find?_eq_none.mp hfind _ h
    | some e =>
      have hkey : e.1 = k := by simpa using List.find?_some hfind
      have heq : e = (k, v) := List.inj_on_of_nodup_map d.nodup (List.mem_of_find?_eq_some hfind) h hkey
      rw [heq, Option.map_some]

theorem get_eq_none : d.get k = none ↔ k ∉ d.keys := by
  unfold get keys
  rw [Option.map_eq_none_iff, List.find?_eq_none]
  constructor
  · intro h hmem
    obtain ⟨e, he, rfl⟩ := List.mem_map.mp hmem
    simpa using h e he
  · intro h e he heq
    refine h (List.mem_map.mpr ⟨e, he, ?_⟩)
    simpa using heq

theorem value_unique (hv : (k, v) ∈ d.entries) (hw : (k, w) ∈ d.entries) : v = w := by
  have h := get_eq_some.mpr hv
  rw [get_eq_some.mpr hw] at h
  exact (Option.some.inj h).symm

theorem mem_entries_set :
    (j, w) ∈ (d.set k v).entries ↔ j = k ∧ w = v ∨ j ≠ k ∧ (j, w) ∈ d.entries := by
  change _ ∈ put d.entries k v ↔ _
  unfold put
  split
  next hold =>
    rw [List.mem_map]
    constructor
    · rintro ⟨e, he, heq⟩
      by_cases hkey : e.1 = k
      · rw [if_pos hkey] at heq
        exact .inl ⟨(congrArg Prod.fst heq).symm, (congrArg Prod.snd heq).symm⟩
      · rw [if_neg hkey] at heq
        subst heq
        exact .inr ⟨hkey, he⟩
    · rintro (⟨rfl, rfl⟩ | ⟨hne, he⟩)
      · obtain ⟨e, he, hkey⟩ := List.mem_map.mp hold
        exact ⟨e, he, if_pos hkey⟩
      · exact ⟨(j, w), he, if_neg hne⟩
  next hnew =>
    rw [List.mem_append, List.mem_singleton, Prod.mk.injEq]
    constructor
    · rintro (he | heq)
      · exact .inr ⟨fun heq => hnew (heq ▸ mem_keys_of_mem he), he⟩
      · exact .inl heq
    · rintro (heq | ⟨-, he⟩)
      · exact .inr heq
      · exact .inl he

theorem keys_set : (d.set k v).keys = if k ∈ d.keys then d.keys else d.keys ++ [k] :=
  keys_put d.entries k v

theorem mem_keys_set : j ∈ (d.set k v).keys ↔ j = k ∨ j ∈ d.keys := by
  rw [keys_set]
  split
  next hold =>
    constructor
    · exact Or.inr
    · rintro (rfl | h)
      · exact hold
      · exact h
  next => rw [List.mem_append, List.mem_singleton, or_comm]

@[simp] theorem get_set_self : (d.set k v).get k = some v :=
  get_eq_some.mpr (mem_entries_set.mpr (.inl ⟨rfl, rfl⟩))

theorem get_set_ne (hne : j ≠ k) : (d.set k v).get j = d.get j := by
  ext w
  rw [get_eq_some, get_eq_some, mem_entries_set]
  constructor
  · rintro (⟨heq, -⟩ | ⟨-, h⟩)
    · exact absurd heq hne
    · exact h
  · exact fun h => .inr ⟨hne, h⟩

theorem countP_key : d.entries.countP (fun e => e.1 = k) = if k ∈ d.keys then 1 else 0 := by
  have hcount : d.entries.countP (fun e => e.1 = k) = d.keys.count k := by
    rw [keys, List.count, List.countP_map]
    rfl
  rw [hcount]
  split
  next h => exact List.count_eq_one_of_mem d.nodup h
  next h => exact List.count_eq_zero.mpr h

theorem filter_of_mem {entries : List (κ × ν)} (hnodup : (entries.map Prod.fst).Nodup)
    (h : (k, v) ∈ entries) : entries.filter (Prod.fst · = k) = [(k, v)] := by
  induction entries with
  | nil => cases h
  | cons e entries ih =>
    rw [List.map_cons, List.nodup_cons] at hnodup
    rcases List.mem_cons.mp h with rfl | h
    · rw [List.filter_cons_of_pos (by simp), List.filter_eq_nil_iff.mpr]
      intro e he
      simp only [decide_eq_true_eq]
      exact fun heq => hnodup.1 (List.mem_map.mpr ⟨e, he, heq⟩)
    · rw [List.filter_cons_of_neg, ih hnodup.2 h]
      simp only [decide_eq_true_eq]
      rintro rfl
      exact hnodup.1 (List.mem_map.mpr ⟨_, h, rfl⟩)

theorem filter_key : d.entries.filter (Prod.fst · = k) = (d.get k).toList.map (k, ·) := by
  cases hget : d.get k with
  | none =>
    refine List.filter_eq_nil_iff.mpr fun e he => ?_
    simp only [decide_eq_true_eq]
    exact fun heq => get_eq_none.mp hget (List.mem_map.mpr ⟨e, he, heq⟩)
  | some v => exact filter_of_mem d.nodup (get_eq_some.mp hget)

section Updates

variable {α : Type} (f : Option ν → α → Option ν) (key : α → κ)

def update (d : Dict κ ν) (a : α) : Option (Dict κ ν) := (f (d.get (key a)) a).map (d.set (key a))

def gather (v : Option ν) (as : List α) : Option (Option ν) :=
  as.foldlM (fun v a => (f v a).map some) v

variable {f key} {a : α} {as : List α} {d' : Dict κ ν}

theorem get_update (h : update f key d a = some d') (k : κ) :
    gather f (d.get k) ([a].filter (key · = k)) = some (d'.get k) := by
  obtain ⟨w, hw, rfl⟩ := Option.map_eq_some_iff.mp h
  by_cases hkey : key a = k
  · subst hkey
    rw [List.filter_cons_of_pos (by simp), get_set_self, gather, List.filter_nil, List.foldlM_cons,
      hw]
    rfl
  · rw [List.filter_cons_of_neg (by simpa using hkey), get_set_ne (Ne.symm hkey)]
    rfl

theorem gather_append {bs : List α} {v : Option ν} :
    gather f v (as ++ bs) = (gather f v as).bind fun w => gather f w bs := by
  unfold gather
  rw [List.foldlM_append]
  rfl

theorem get_foldlM_update (h : as.foldlM (update f key) d = some d') (k : κ) :
    gather f (d.get k) (as.filter (key · = k)) = some (d'.get k) := by
  induction as generalizing d with
  | nil =>
    rw [List.foldlM_nil] at h
    rw [← Option.some.inj h]
    rfl
  | cons a as ih =>
    rw [List.foldlM_cons] at h
    obtain ⟨e, he, h⟩ := Option.bind_eq_some_iff.mp h
    rw [← List.singleton_append, List.filter_append, gather_append, get_update he k, Option.bind_some]
    exact ih h

theorem isSome_foldlM_update
    (h : ∀ k, (gather f (d.get k) (as.filter (key · = k))).isSome = true) :
    (as.foldlM (update f key) d).isSome = true := by
  induction as generalizing d with
  | nil => rfl
  | cons a as ih =>
    have hstep : ∃ e, update f key d a = some e := by
      have hkey := h (key a)
      rw [List.filter_cons_of_pos (by simp), gather, List.foldlM_cons] at hkey
      cases hf : f (d.get (key a)) a with
      | none =>
        rw [hf] at hkey
        cases hkey
      | some w => exact ⟨d.set (key a) w, by rw [update, hf, Option.map_some]⟩
    obtain ⟨e, he⟩ := hstep
    rw [List.foldlM_cons, he]
    refine ih fun k => ?_
    have hk := h k
    rwa [← List.singleton_append, List.filter_append, gather_append, get_update he k,
      Option.bind_some] at hk

end Updates

end Dict

end Acps
