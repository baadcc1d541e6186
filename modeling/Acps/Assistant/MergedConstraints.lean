import Acps.Assistant.RequiredFields

/-!
What the merged field stands for: where the constraints of several partners are merged into their
conjunction, and where the two components come to the same field.
-/

namespace Acps.Assistant

open RequiredField ClarificationMerger

variable {ν : Type} [LinearOrder ν] [Zero ν] [One ν] {sets : PyValue.Intersection ν}

section Meaning

/-- What a key and its value ask of a value `x`: the keys that no component knows are opaque
predicates. -/
def Meets (P : String → PyValue ν → PyValue ν → Prop) (key : String) (v x : PyValue ν) : Prop :=
  if key ∈ lowerKeys then v.le x = true
  else if key ∈ upperKeys then x.le v = true
  else if key ∈ choiceKeys then PyValue.mem x v = true
  else P key v x

def RequiredField.under (key : String) (field : RequiredField ν) : Option (PyValue ν) :=
  field.constraints.bind fun constraints => constraints.get key

def Allows (P : String → PyValue ν → PyValue ν → Prop) (field : RequiredField ν)
    (x : PyValue ν) : Prop :=
  ∀ key v, field.under key = some v → Meets P key v x

end Meaning

section Keys

variable {P : String → PyValue ν → PyValue ν → Prop} {key : String} {a b v x : PyValue ν}

theorem meets_mergeKey (h : mergeKey sets key a b = some v)
    (hknown : key ∈ lowerKeys ++ upperKeys ++ choiceKeys) :
    Meets P key v x ↔ Meets P key a x ∧ Meets P key b x := by
  unfold mergeKey at h
  unfold Meets
  by_cases hlower : key ∈ lowerKeys
  · rw [if_pos hlower] at h
    simp only [if_pos hlower]
    exact PyValue.le_of_max h
  rw [if_neg hlower] at h
  simp only [if_neg hlower]
  by_cases hupper : key ∈ upperKeys
  · rw [if_pos hupper] at h
    simp only [if_pos hupper]
    exact PyValue.le_of_min h
  rw [if_neg hupper] at h
  simp only [if_neg hupper]
  by_cases hchoice : key ∈ choiceKeys
  · rw [if_pos hchoice] at h
    simp only [if_pos hchoice]
    rw [PyValue.mem_intersect h, Bool.and_eq_true]
  · simp [hlower, hupper, hchoice] at hknown

theorem mergeKey_other (hother : key ∉ lowerKeys ++ upperKeys ++ choiceKeys) :
    mergeKey sets key a b = some a := by
  simp only [List.mem_append, not_or] at hother
  rw [mergeKey, if_neg hother.1.1, if_neg hother.1.2, if_neg hother.2]

end Keys

section OneMerge

theorem under_eq_given {ν : Type} (field : RequiredField ν) (key : String) :
    field.under key = field.given.bind fun constraints => constraints.get key := by
  unfold RequiredField.under RequiredField.given
  cases field.constraints with
  | none => rfl
  | some d =>
    by_cases hempty : d.entries = []
    · have hget : d.get key = none := Dict.get_eq_none.mpr fun h => by
        simp [Dict.keys, hempty] at h
      simp [Option.filter, hempty, hget]
    · simp [Option.filter, hempty]

def joinKey (sets : PyValue.Intersection ν) (key : String) :
    Option (PyValue ν) → Option (PyValue ν) → Option (Option (PyValue ν))
  | some old, some value => (mergeKey sets key old value).map some
  | some old, none => some (some old)
  | none, v => some v

theorem gather_entries (d : Dict String (PyValue ν)) (key : String) (old : Option (PyValue ν)) :
    Dict.gather (mergeItem sets) old (d.entries.filter (Prod.fst · = key)) =
      joinKey sets key old (d.get key) := by
  rw [Dict.filter_key]
  cases d.get key with
  | none => cases old <;> rfl
  | some v =>
    cases old with
    | none => rfl
    | some old =>
      change (mergeKey sets key old v).map some >>= _ = _
      cases hmerge : mergeKey sets key old v <;> simp [joinKey, hmerge]

variable {a b m : RequiredField ν} {key : String}

theorem under_merge (h : InputRouter.mergeFieldConstraints sets a b = some m) (key : String) :
    joinKey sets key (a.under key) (b.under key) = some (m.under key) := by
  rw [under_eq_given a, under_eq_given b]
  unfold InputRouter.mergeFieldConstraints at h
  cases hb : b.given with
  | none =>
    rw [hb] at h
    have hm : m = { a with required := a.required || b.required } := by
      cases ha : a.given <;> rw [ha] at h <;> exact (Option.some.inj h).symm
    have hunder : m.under key = a.under key := by rw [hm]; rfl
    rw [hunder, under_eq_given a]
    cases a.given.bind fun constraints => constraints.get key <;> rfl
  | some constraints =>
    rw [hb] at h
    cases ha : a.given with
    | none =>
      rw [ha] at h
      rw [← Option.some.inj h]
      rfl
    | some old =>
      rw [ha] at h
      obtain ⟨merged, hmerged, h⟩ := Option.bind_eq_some_iff.mp h
      rw [← Option.some.inj h, Option.bind_some, Option.bind_some, ← gather_entries]
      exact Dict.get_foldlM_update hmerged key

theorem isSome_merge (h : ∀ key, (joinKey sets key (a.under key) (b.under key)).isSome = true) :
    (InputRouter.mergeFieldConstraints sets a b).isSome = true := by
  unfold InputRouter.mergeFieldConstraints
  cases hb : b.given with
  | none => cases a.given <;> rfl
  | some constraints =>
    cases ha : a.given with
    | none => rfl
    | some old =>
      have hmerged : (mergeConstraints sets old constraints).isSome = true := by
        refine Dict.isSome_foldlM_update fun key => ?_
        have hkey := h key
        rw [under_eq_given a, under_eq_given b, ha, hb] at hkey
        rw [gather_entries]
        exact hkey
      obtain ⟨merged, hmerged⟩ := Option.isSome_iff_exists.mp hmerged
      change ((mergeConstraints sets old constraints).bind _).isSome = true
      rw [hmerged]
      rfl

end OneMerge

section Values

def values (key : String) (fields : List (RequiredField ν)) : List (PyValue ν) :=
  fields.filterMap (·.under key)

def strictest (sets : PyValue.Intersection ν) (key : String) :
    List (PyValue ν) → Option (Option (PyValue ν))
  | [] => some none
  | v :: vs => (vs.foldlM (mergeKey sets key) v).map some

theorem foldlM_joinKey_some {key : String} (fields : List (RequiredField ν)) (old : PyValue ν) :
    fields.foldlM (fun v f => joinKey sets key v (f.under key)) (some old) =
      ((values key fields).foldlM (mergeKey sets key) old).map some := by
  induction fields generalizing old with
  | nil => rfl
  | cons f fields ih =>
    rw [List.foldlM_cons, values, List.filterMap_cons]
    cases f.under key with
    | none => exact ih old
    | some v =>
      change (mergeKey sets key old v).map some >>= _ = _
      rw [List.foldlM_cons]
      cases mergeKey sets key old v with
      | none => rfl
      | some w => exact ih w

theorem foldlM_joinKey {key : String} (fields : List (RequiredField ν)) :
    fields.foldlM (fun v f => joinKey sets key v (f.under key)) none =
      strictest sets key (values key fields) := by
  induction fields with
  | nil => rfl
  | cons f fields ih =>
    rw [List.foldlM_cons, values, List.filterMap_cons]
    cases f.under key with
    | none => exact ih
    | some v => exact foldlM_joinKey_some fields v

variable {P : String → PyValue ν → PyValue ν → Prop} {key : String} {v w x : PyValue ν}
  {vs : List (PyValue ν)}

theorem meets_foldlM (hknown : key ∈ lowerKeys ++ upperKeys ++ choiceKeys)
    (h : vs.foldlM (mergeKey sets key) v = some w) :
    Meets P key w x ↔ ∀ u ∈ v :: vs, Meets P key u x := by
  induction vs generalizing v with
  | nil =>
    obtain rfl := Option.some.inj h
    rw [List.forall_mem_singleton]
  | cons u vs ih =>
    rw [List.foldlM_cons] at h
    obtain ⟨m, hm, h⟩ := Option.bind_eq_some_iff.mp h
    rw [ih h, List.forall_mem_cons, List.forall_mem_cons, List.forall_mem_cons,
      meets_mergeKey hm hknown, and_assoc]

theorem foldlM_other (hother : key ∉ lowerKeys ++ upperKeys ++ choiceKeys) (v : PyValue ν) :
    vs.foldlM (mergeKey sets key) v = some v := by
  induction vs with
  | nil => rfl
  | cons u vs ih =>
    rw [List.foldlM_cons, mergeKey_other hother]
    exact ih

theorem isSome_foldlM_choice (hlower : key ∉ lowerKeys) (hupper : key ∉ upperKeys)
    (hchoice : key ∈ choiceKeys) : (vs.foldlM (mergeKey sets key) v).isSome = true ↔
      (vs ≠ [] → ∀ u ∈ v :: vs, (PyValue.collect u).isSome = true) := by
  have hmerge (a b : PyValue ν) : mergeKey sets key a b = PyValue.intersect sets a b := by
    rw [mergeKey, if_neg hlower, if_neg hupper, if_pos hchoice]
  induction vs generalizing v with
  | nil => exact iff_of_true rfl fun h => absurd rfl h
  | cons u vs ih =>
    rw [List.foldlM_cons, hmerge]
    cases hm : PyValue.intersect sets v u with
    | none =>
      have hnone : ¬ ((PyValue.collect v).isSome = true ∧ (PyValue.collect u).isSome = true) := by
        rw [← PyValue.isSome_intersect (i := sets), hm]
        simp
      refine iff_of_false (by simp) fun h => hnone ?_
      have hall := h (List.cons_ne_nil u vs)
      exact ⟨hall v (by simp), hall u (by simp)⟩
    | some m =>
      obtain ⟨hv, hu⟩ := PyValue.isSome_intersect.mp (Option.isSome_of_mem hm)
      refine (ih (v := m)).trans ?_
      simp only [List.forall_mem_cons, hv, hu, true_and, PyValue.collect_intersect hm]
      exact ⟨fun h _ w hw => h (List.ne_nil_of_mem hw) w hw, fun h _ => h (List.cons_ne_nil u vs)⟩

end Values

section ManyMerges

variable {a b first m : RequiredField ν} {rest : List (RequiredField ν)} {key : String}

def joined (sets : PyValue.Intersection ν) (key : String) (v : Option (PyValue ν))
    (fields : List (RequiredField ν)) : Option (Option (PyValue ν)) :=
  fields.foldlM (fun v f => joinKey sets key v (f.under key)) v

theorem joined_eq (first : RequiredField ν) (rest : List (RequiredField ν)) :
    joined sets key (first.under key) rest =
      strictest sets key (values key (first :: rest)) := by
  rw [← foldlM_joinKey, List.foldlM_cons]
  rfl

theorem joined_foldlM (h : rest.foldlM (InputRouter.mergeFieldConstraints sets) first = some m)
    (key : String) : joined sets key (first.under key) rest = some (m.under key) := by
  induction rest generalizing first with
  | nil =>
    rw [← Option.some.inj h]
    rfl
  | cons f rest ih =>
    rw [List.foldlM_cons] at h
    obtain ⟨n, hn, h⟩ := Option.bind_eq_some_iff.mp h
    unfold joined
    rw [List.foldlM_cons, under_merge hn key]
    exact ih h

theorem merge_eq (h : InputRouter.mergeFieldConstraints sets a b = some m) :
    ∃ constraints, m = { a with required := a.required || b.required, constraints } := by
  unfold InputRouter.mergeFieldConstraints at h
  split at h
  next =>
    obtain ⟨constraints, -, h⟩ := Option.bind_eq_some_iff.mp h
    exact ⟨some constraints, (Option.some.inj h).symm⟩
  next => exact ⟨_, (Option.some.inj h).symm⟩
  next => exact ⟨a.constraints, (Option.some.inj h).symm⟩

theorem foldlM_eq (h : rest.foldlM (InputRouter.mergeFieldConstraints sets) first = some m) :
    ∃ constraints, m = { first with
      required := (first :: rest).any (·.required), constraints } := by
  induction rest generalizing first with
  | nil =>
    refine ⟨first.constraints, ?_⟩
    rw [← Option.some.inj h]
    simp
  | cons f rest ih =>
    rw [List.foldlM_cons] at h
    obtain ⟨n, hn, h⟩ := Option.bind_eq_some_iff.mp h
    obtain ⟨_, rfl⟩ := merge_eq hn
    obtain ⟨constraints, rfl⟩ := ih h
    exact ⟨constraints, by simp [Bool.or_assoc]⟩

end ManyMerges

section Descriptions

def size (description : Option String) : ℕ := (description.getD "").length

theorem mergeDescription_eq (a b : Option String) :
    mergeDescription a b = if size a < size b then b else a := by
  have hsize (d : Option String) : d.any (· ≠ "") = true ↔ 0 < size d := by
    cases d with
    | none => simp [size]
    | some s => simp [size, Nat.pos_iff_ne_zero, String.length_eq_zero_iff]
  unfold mergeDescription
  by_cases h : size a < size b
  · rw [if_pos h, if_pos]
    exact ⟨(hsize b).mpr (Nat.lt_of_le_of_lt (Nat.zero_le _) h), .inr h⟩
  · rw [if_neg h, if_neg]
    rintro ⟨hb, ha | hlt⟩
    · rw [hsize] at ha hb
      omega
    · exact h hlt

theorem size_foldl (ds : List (Option String)) (d : Option String) :
    size d ≤ size (ds.foldl mergeDescription d) ∧
      ∀ e ∈ ds, size e ≤ size (ds.foldl mergeDescription d) := by
  induction ds generalizing d with
  | nil => exact ⟨Nat.le_refl _, fun e he => by cases he⟩
  | cons f ds ih =>
    obtain ⟨hd, hds⟩ := ih (mergeDescription d f)
    have hboth : size d ≤ size (mergeDescription d f) ∧ size f ≤ size (mergeDescription d f) := by
      rw [mergeDescription_eq]
      split <;> omega
    rw [List.foldl_cons, List.forall_mem_cons]
    exact ⟨Nat.le_trans hboth.1 hd, Nat.le_trans hboth.2 hd, hds⟩

theorem foldl_mergeDescription_eq_iff {ds : List (Option String)} {d : Option String} :
    ds.foldl mergeDescription d = d ↔ ∀ e ∈ ds, size e ≤ size d := by
  constructor
  · intro h e he
    have hsize := (size_foldl ds d).2 e he
    rwa [h] at hsize
  · intro h
    induction ds with
    | nil => rfl
    | cons f ds ih =>
      obtain ⟨hf, hds⟩ := List.forall_mem_cons.mp h
      rw [List.foldl_cons, mergeDescription_eq, if_neg (Nat.not_lt.mpr hf)]
      exact ih hds

theorem merge_describe (a b : RequiredField ν) (d : Option String) :
    InputRouter.mergeFieldConstraints sets { a with description := d } b =
      (InputRouter.mergeFieldConstraints sets a b).map ({ · with description := d }) := by
  have hgiven : ({ a with description := d } : RequiredField ν).given = a.given := rfl
  unfold InputRouter.mergeFieldConstraints
  rw [hgiven]
  cases a.given with
  | none => cases b.given <;> rfl
  | some old =>
    cases b.given with
    | none => rfl
    | some constraints => cases hm : mergeConstraints sets old constraints <;> simp [hm]

theorem merger_foldlM (sets : PyValue.Intersection ν) (rest : List (RequiredField ν))
    (first : RequiredField ν) (d : Option String) :
    rest.foldlM (ClarificationMerger.mergeFieldConstraints sets) { first with description := d } =
      (rest.foldlM (InputRouter.mergeFieldConstraints sets) first).map
        ({ · with description := (rest.map (·.description)).foldl mergeDescription d }) := by
  induction rest generalizing first d with
  | nil => rfl
  | cons f rest ih =>
    rw [List.foldlM_cons, List.foldlM_cons, ClarificationMerger.mergeFieldConstraints,
      merge_describe]
    cases InputRouter.mergeFieldConstraints sets first f with
    | none => rfl
    | some m => exact ih m (mergeDescription d f.description)

end Descriptions

end Acps.Assistant
