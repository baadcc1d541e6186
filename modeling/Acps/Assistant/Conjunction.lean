import Acps.Assistant.MergedConstraints
import Mathlib.Algebra.Ring.Int.Defs

/-!
When the merged constraints are the conjunction of what the partners ask: the fields of one name first,
then the map of all names.
-/

namespace Acps.Assistant

open RequiredField ClarificationMerger

variable {ν : Type} [LinearOrder ν] [Zero ν] [One ν]

structure Mergeable (fields : List (RequiredField ν)) : Prop where
  lower : ∀ key ∈ lowerKeys, ∀ v vs, values key fields = v :: vs →
    (vs.foldlM PyValue.max v).isSome = true
  upper : ∀ key ∈ upperKeys, ∀ v vs, values key fields = v :: vs →
    (vs.foldlM PyValue.min v).isSome = true
  choice : ∀ key ∈ choiceKeys, ∀ v u vs, values key fields = v :: u :: vs →
    ∀ w ∈ v :: u :: vs, (PyValue.collect w).isSome = true

/-- Where a value is left within all bounds and choices, the fields give each opaque key one value. -/
def Unambiguous (fields : List (RequiredField ν)) : Prop :=
  ∀ x, (∀ f ∈ fields, Allows (fun _ _ _ => True) f x) →
    ∀ key ∉ lowerKeys ++ upperKeys ++ choiceKeys, ∀ v ∈ values key fields, ∀ w ∈ values key fields,
      v = w

section OneName

variable {sets : PyValue.Intersection ν} {P : String → PyValue ν → PyValue ν → Prop} {key : String}
  {vs : List (PyValue ν)} {v x : PyValue ν} {fields rest : List (RequiredField ν)}
  {first m : RequiredField ν}

theorem not_lower_of_upper : ∀ key ∈ upperKeys, key ∉ lowerKeys := by decide

theorem not_lower_of_choice : ∀ key ∈ choiceKeys, key ∉ lowerKeys := by decide

theorem not_upper_of_choice : ∀ key ∈ choiceKeys, key ∉ upperKeys := by decide

theorem mergeKey_lower (sets : PyValue.Intersection ν) (h : key ∈ lowerKeys) : mergeKey sets key = PyValue.max := by
  funext a b
  rw [mergeKey, if_pos h]

theorem mergeKey_upper (sets : PyValue.Intersection ν) (h : key ∈ upperKeys) : mergeKey sets key = PyValue.min := by
  funext a b
  rw [mergeKey, if_neg (not_lower_of_upper key h), if_pos h]

theorem isSome_strictest_cons :
    (strictest sets key (v :: vs)).isSome = true ↔ (vs.foldlM (mergeKey sets key) v).isSome = true := by
  rw [strictest, Option.isSome_map]

theorem strictest_other (hother : key ∉ lowerKeys ++ upperKeys ++ choiceKeys) :
    strictest sets key vs = some vs.head? := by
  cases vs with
  | nil => rfl
  | cons v vs => rw [strictest, foldlM_other hother, Option.map_some, List.head?_cons]

theorem mergeable_iff (sets : PyValue.Intersection ν) :
    Mergeable fields ↔ ∀ key, (strictest sets key (values key fields)).isSome = true := by
  constructor
  · intro h key
    cases hvs : values key fields with
    | nil => rfl
    | cons v vs =>
      rw [isSome_strictest_cons]
      by_cases hlower : key ∈ lowerKeys
      · rw [mergeKey_lower sets hlower]
        exact h.lower key hlower v vs hvs
      by_cases hupper : key ∈ upperKeys
      · rw [mergeKey_upper sets hupper]
        exact h.upper key hupper v vs hvs
      by_cases hchoice : key ∈ choiceKeys
      · rw [isSome_foldlM_choice hlower hupper hchoice]
        intro hvs'
        obtain ⟨u, us, rfl⟩ := List.exists_cons_of_ne_nil hvs'
        exact h.choice key hchoice v u us hvs
      · rw [foldlM_other (by simp [hlower, hupper, hchoice])]
        rfl
  · intro h
    have hcons {key : String} {v : PyValue ν} {vs : List (PyValue ν)}
        (hvs : values key fields = v :: vs) : (vs.foldlM (mergeKey sets key) v).isSome = true := by
      rw [← isSome_strictest_cons, ← hvs]
      exact h key
    constructor
    · intro key hkey v vs hvs
      rw [← mergeKey_lower sets hkey]
      exact hcons hvs
    · intro key hkey v vs hvs
      rw [← mergeKey_upper sets hkey]
      exact hcons hvs
    · intro key hkey v u vs hvs
      have hsome := hcons hvs
      rw [isSome_foldlM_choice (not_lower_of_choice key hkey) (not_upper_of_choice key hkey) hkey]
        at hsome
      exact hsome (List.cons_ne_nil u vs)

theorem meets_strictest (hknown : key ∈ lowerKeys ++ upperKeys ++ choiceKeys)
    {o : Option (PyValue ν)} (h : strictest sets key vs = some o) :
    (∀ v, o = some v → Meets P key v x) ↔ ∀ v ∈ vs, Meets P key v x := by
  cases vs with
  | nil =>
    obtain rfl := Option.some.inj h
    simp
  | cons v vs =>
    obtain ⟨w, hw, rfl⟩ := Option.map_eq_some_iff.mp h
    rw [← meets_foldlM hknown hw]
    simp

theorem mem_values {ν : Type} {key : String} {fields : List (RequiredField ν)} {v : PyValue ν} :
    v ∈ values key fields ↔ ∃ f ∈ fields, f.under key = some v := List.mem_filterMap

theorem allows_all_iff :
    (∀ f ∈ fields, Allows P f x) ↔ ∀ key, ∀ v ∈ values key fields, Meets P key v x := by
  constructor
  · intro h key v hv
    obtain ⟨f, hf, hunder⟩ := mem_values.mp hv
    exact h f hf key v hunder
  · intro h f hf key v hunder
    exact h key v (mem_values.mpr ⟨f, hf, hunder⟩)

theorem meets_other (hother : key ∉ lowerKeys ++ upperKeys ++ choiceKeys) :
    Meets P key v x ↔ P key v x := by
  simp only [List.mem_append, not_or] at hother
  rw [Meets, if_neg hother.1.1, if_neg hother.1.2, if_neg hother.2]

theorem meets_known {Q : String → PyValue ν → PyValue ν → Prop}
    (hknown : key ∈ lowerKeys ++ upperKeys ++ choiceKeys) (h : Meets P key v x) :
    Meets Q key v x := by
  unfold Meets at h ⊢
  split
  next hlower => rwa [if_pos hlower] at h
  next hlower =>
    rw [if_neg hlower] at h
    split
    next hupper => rwa [if_pos hupper] at h
    next hupper =>
      rw [if_neg hupper] at h
      split
      next hchoice => rwa [if_pos hchoice] at h
      next hchoice => simp [hlower, hupper, hchoice] at hknown

theorem conjunction_iff (h : ∀ key, strictest sets key (values key fields) = some (m.under key)) :
    (∀ P x, Allows P m x ↔ ∀ f ∈ fields, Allows P f x) ↔ Unambiguous fields := by
  have hknown {P : String → PyValue ν → PyValue ν → Prop} {x : PyValue ν} {key : String}
      (hkey : key ∈ lowerKeys ++ upperKeys ++ choiceKeys) :=
    meets_strictest (P := P) (x := x) hkey (h key)
  have hother {key : String} (hkey : key ∉ lowerKeys ++ upperKeys ++ choiceKeys) :
      (values key fields).head? = m.under key := by
    have hkey' := h key
    rw [strictest_other hkey] at hkey'
    exact Option.some.inj hkey'
  constructor
  · intro hall x hx key hkey
    rw [allows_all_iff] at hx
    -- No later value differs from the first: the merged field allows `x` where the predicate of `key`
    -- fails for that value only.
    have hfirst (c : PyValue ν) (hc : c ∈ values key fields) : m.under key = some c := by
      by_contra hne
      let P : String → PyValue ν → PyValue ν → Prop := fun key' v _ => key' = key → v ≠ c
      have hm : Allows P m x := by
        intro key' v hv
        by_cases hkey' : key' ∈ lowerKeys ++ upperKeys ++ choiceKeys
        · exact (hknown hkey').mpr (fun v hv => meets_known hkey' (hx key' v hv)) v hv
        · rw [meets_other hkey']
          rintro rfl rfl
          exact hne hv
      have hc' := allows_all_iff.mp ((hall P x).mp hm) key c hc
      rw [meets_other hkey] at hc'
      exact hc' rfl rfl
    intro v hv w hw
    exact Option.some.inj ((hfirst v hv).symm.trans (hfirst w hw))
  · intro hun P x
    rw [allows_all_iff]
    constructor
    · intro hm
      have hbounds (key : String) (hkey : key ∈ lowerKeys ++ upperKeys ++ choiceKeys) :
          ∀ v ∈ values key fields, Meets P key v x := (hknown hkey).mp (hm key)
      intro key v hv
      by_cases hkey : key ∈ lowerKeys ++ upperKeys ++ choiceKeys
      · exact hbounds key hkey v hv
      · have htrivial : ∀ f ∈ fields, Allows (fun _ _ _ => True) f x := by
          rw [allows_all_iff]
          intro key' v' hv'
          by_cases hkey' : key' ∈ lowerKeys ++ upperKeys ++ choiceKeys
          · exact meets_known hkey' (hbounds key' hkey' v' hv')
          · rw [meets_other hkey']
            trivial
        cases hunder : m.under key with
        | none =>
          rw [← hother hkey, List.head?_eq_none_iff] at hunder
          rw [hunder] at hv
          cases hv
        | some w =>
          have hw : w ∈ values key fields := List.mem_of_mem_head? ((hother hkey).trans hunder)
          rw [hun x htrivial key hkey v hv w hw]
          exact hm key w hunder
    · intro hall key v hv
      by_cases hkey : key ∈ lowerKeys ++ upperKeys ++ choiceKeys
      · exact (hknown hkey).mpr (hall key) v hv
      · exact hall key v (List.mem_of_mem_head? ((hother hkey).trans hv))

end OneName

section Demands

inductive Demand (ν : Type) where
  | field (partnerAic : String) (field : RequiredField ν)
  | answer (item : PartnerClarificationItem ν)

namespace Demand

variable {ν : Type}

def name : Demand ν → String
  | field _ f => f.fieldName
  | answer item => genericFieldName item

def asked : Demand ν → Option (RequiredField ν)
  | field _ f => some f
  | answer _ => none

def aic : Demand ν → String
  | field aic _ => aic
  | answer item => item.partnerAic

end Demand

variable {ν : Type} (merge : RequiredField ν → RequiredField ν → Option (RequiredField ν))

def enter : Option (FieldEntry ν) → Demand ν → Option (FieldEntry ν)
  | none, .field aic f => some ⟨f, [aic]⟩
  | none, .answer item => some ⟨genericField item (item.questionText.getD ""), [item.partnerAic]⟩
  | some e, .field aic f => (merge e.field f).map (⟨·, notePartner e.partners aic⟩)
  | some e, .answer item => some { e with partners := notePartner e.partners item.partnerAic }

abbrev enterAll (ds : List (Demand ν)) (map : Dict String (FieldEntry ν)) :
    Option (Dict String (FieldEntry ν)) :=
  ds.foldlM (Dict.update (enter merge) Demand.name) map

def fieldDemands (item : PartnerClarificationItem ν) : List (Demand ν) :=
  item.requiredFields.map (.field item.partnerAic)

def demands (item : PartnerClarificationItem ν) : List (Demand ν) :=
  fieldDemands item ++ if asksByText item then [.answer item] else []

def fieldsNamed (name : String) (items : List (PartnerClarificationItem ν)) :
    List (RequiredField ν) :=
  (items.flatMap (·.requiredFields)).filter (·.fieldName = name)

def Unanswered (name : String) (items : List (PartnerClarificationItem ν)) : Prop :=
  ∀ item ∈ items, asksByText item = true → genericFieldName item ≠ name

def PartnerClarificationItem.gap (item : PartnerClarificationItem ν) :
    PartnerGapInfo ν where
  partnerAic := item.partnerAic
  aipTaskId := item.aipTaskId
  awaitingFields := item.requiredFields

variable {merge} {map : Dict String (FieldEntry ν)} {name : String} {e : FieldEntry ν}
  {ds : List (Demand ν)} {items : List (PartnerClarificationItem ν)}

theorem enterAll_append {ds' : List (Demand ν)} :
    enterAll merge (ds ++ ds') map = (enterAll merge ds map).bind (enterAll merge ds') :=
  List.foldlM_append

theorem addFields_eq (item : PartnerClarificationItem ν) :
    addFields merge item.partnerAic item.requiredFields map =
      enterAll merge (fieldDemands item) map := by
  rw [enterAll, fieldDemands, List.foldlM_map, addFields]
  congr 1
  funext map f
  unfold addField Dict.update
  cases hget : map.get f.fieldName with
  | none => simp [Demand.name, hget, enter]
  | some e => cases hm : merge e.field f <;> simp [Demand.name, hget, enter, hm]

theorem addAnswer_eq (merge : RequiredField ν → RequiredField ν → Option (RequiredField ν))
    (map : Dict String (FieldEntry ν)) (item : PartnerClarificationItem ν) :
    some (addAnswer item map) = enterAll merge [.answer item] map := by
  rw [enterAll, List.foldlM_cons]
  unfold addAnswer Dict.update
  change _ = Option.bind (Option.map _ (enter merge (map.get (genericFieldName item)) _)) _
  cases map.get (genericFieldName item) <;> rfl

theorem fieldDemands_filter (item : PartnerClarificationItem ν) (name : String) :
    ((fieldDemands item).filter (·.name = name)).filterMap Demand.asked =
      item.requiredFields.filter (·.fieldName = name) := by
  rw [fieldDemands, List.filter_map, List.filterMap_map]
  exact List.filterMap_some

theorem demands_filter_asked (item : PartnerClarificationItem ν) (name : String) :
    ((demands item).filter (·.name = name)).filterMap Demand.asked =
      item.requiredFields.filter (·.fieldName = name) := by
  rw [demands, List.filter_append, List.filterMap_append, fieldDemands_filter]
  split
  next =>
    rw [List.append_right_eq_self, List.filterMap_eq_nil_iff]
    intro d hd
    rw [List.mem_singleton.mp (List.mem_of_mem_filter hd)]
    rfl
  next => exact List.append_nil _

theorem asked_named (items : List (PartnerClarificationItem ν)) (name : String) :
    ((items.flatMap demands).filter (·.name = name)).filterMap Demand.asked =
      fieldsNamed name items := by
  rw [List.filter_flatMap, List.filterMap_flatMap, fieldsNamed, List.filter_flatMap]
  simp only [demands_filter_asked]

theorem asked_named_fields (items : List (PartnerClarificationItem ν)) (name : String) :
    ((items.flatMap fieldDemands).filter (·.name = name)).filterMap Demand.asked =
      fieldsNamed name items := by
  rw [List.filter_flatMap, List.filterMap_flatMap, fieldsNamed, List.filter_flatMap]
  simp only [fieldDemands_filter]

theorem demands_named (hname : Unanswered name items) :
    (items.flatMap demands).filter (·.name = name) =
      (items.flatMap fieldDemands).filter (·.name = name) := by
  rw [List.filter_flatMap, List.filter_flatMap]
  refine List.flatMap_congr fun item hitem => ?_
  rw [demands, List.filter_append, List.append_right_eq_self, List.filter_eq_nil_iff]
  intro d hd
  split at hd
  next htext =>
    rw [List.mem_singleton.mp hd]
    exact decide_eq_true_iff.not.mpr (hname item hitem htext)
  next => cases hd

theorem asked_isSome {d : Demand ν} (hd : d ∈ (items.flatMap fieldDemands).filter (·.name = name)) :
    d.asked.isSome = true := by
  obtain ⟨item, -, hd⟩ := List.mem_flatMap.mp (List.mem_of_mem_filter hd)
  obtain ⟨f, -, rfl⟩ := List.mem_map.mp hd
  rfl

theorem gather_some (hds : ∀ d ∈ ds, d.asked.isSome = true) :
    Dict.gather (enter merge) (some e) ds =
      ((ds.filterMap Demand.asked).foldlM merge e.field).map fun m =>
        some ⟨m, (ds.map Demand.aic).foldl notePartner e.partners⟩ := by
  induction ds generalizing e with
  | nil => rfl
  | cons d ds ih =>
    obtain ⟨hhead, htail⟩ := List.forall_mem_cons.mp hds
    cases d with
    | answer item => cases hhead
    | field aic f =>
      have hasked : (Demand.field aic f :: ds).filterMap Demand.asked =
        f :: ds.filterMap Demand.asked := rfl
      rw [Dict.gather, List.foldlM_cons, hasked, List.foldlM_cons]
      change ((merge e.field f).map _).map some >>= _ = _
      cases merge e.field f with
      | none => rfl
      | some m => exact ih htail

theorem gather_none {first : RequiredField ν} {rest : List (RequiredField ν)}
    (hds : ∀ d ∈ ds, d.asked.isSome = true) (hfields : ds.filterMap Demand.asked = first :: rest) :
    Dict.gather (enter merge) none ds =
      (rest.foldlM merge first).map fun m =>
        some ⟨m, (ds.map Demand.aic).foldl notePartner []⟩ := by
  cases ds with
  | nil => cases hfields
  | cons d ds =>
    obtain ⟨hhead, htail⟩ := List.forall_mem_cons.mp hds
    cases d with
    | answer item => cases hhead
    | field aic f =>
      obtain ⟨rfl, rfl⟩ := List.cons.inj hfields
      exact gather_some htail

end Demands

section Success

variable {ν : Type} [LinearOrder ν] [Zero ν] [One ν] {sets : PyValue.Intersection ν}
  {merge : RequiredField ν → RequiredField ν → Option (RequiredField ν)} {ds : List (Demand ν)}

structure Joins (sets : PyValue.Intersection ν)
    (merge : RequiredField ν → RequiredField ν → Option (RequiredField ν)) : Prop where
  under : ∀ {a b m}, merge a b = some m →
    ∀ key, joinKey sets key (a.under key) (b.under key) = some (m.under key)
  isSome : ∀ {a b}, (∀ key, (joinKey sets key (a.under key) (b.under key)).isSome = true) →
    (merge a b).isSome = true

theorem joins_router : Joins sets (InputRouter.mergeFieldConstraints sets) where
  under := under_merge
  isSome := isSome_merge

theorem joins_merger : Joins sets (ClarificationMerger.mergeFieldConstraints sets) where
  under := by
    intro a b m h key
    obtain ⟨n, hn, h⟩ := Option.bind_eq_some_iff.mp h
    rw [← Option.some.inj h]
    exact under_merge hn key
  isSome := by
    intro a b h
    obtain ⟨n, hn⟩ := Option.isSome_iff_exists.mp (isSome_merge h)
    change ((InputRouter.mergeFieldConstraints sets a b).bind _).isSome = true
    rw [hn]
    rfl

def entered (key : String) (v : Option (FieldEntry ν)) : Option (PyValue ν) :=
  v.bind fun e => e.field.under key

theorem isSome_gather_iff (h : Joins sets merge) (v : Option (FieldEntry ν)) :
    (Dict.gather (enter merge) v ds).isSome = true ↔
      ∀ key, (joined sets key (entered key v) (ds.filterMap Demand.asked)).isSome = true := by
  induction ds generalizing v with
  | nil => exact iff_of_true rfl fun _ => rfl
  | cons d ds ih =>
    rw [Dict.gather, List.foldlM_cons]
    cases d with
    | answer item =>
      cases v with
      | none => exact ih _
      | some e => exact ih _
    | field aic f =>
      have hasked (key : String) (v : Option (FieldEntry ν)) :
          joined sets key (entered key v) ((Demand.field aic f :: ds).filterMap Demand.asked) =
            (joinKey sets key (entered key v) (f.under key)).bind fun w =>
              joined sets key w (ds.filterMap Demand.asked) := rfl
      simp only [hasked]
      cases v with
      | none => exact ih _
      | some e =>
        change ((((merge e.field f).map _).map some).bind _).isSome = true ↔ _
        cases hm : merge e.field f with
        | none =>
          refine iff_of_false Bool.false_ne_true fun hall => ?_
          have hsome := h.isSome (a := e.field) (b := f) fun key => by
            have hkey := hall key
            cases hj : joinKey sets key (e.field.under key) (f.under key) with
            | none =>
              change ((joinKey sets key (e.field.under key) (f.under key)).bind _).isSome = true at hkey
              rw [hj] at hkey
              cases hkey
            | some v => rfl
          rw [hm] at hsome
          cases hsome
        | some m =>
          have hunder (key : String) : joinKey sets key (entered key (some e)) (f.under key) =
            some (m.under key) := h.under hm key
          simp only [hunder]
          exact ih _

theorem isSome_enterAll_iff (h : Joins sets merge) :
    (enterAll merge ds .empty).isSome = true ↔
      ∀ name, Mergeable ((ds.filter (·.name = name)).filterMap Demand.asked) := by
  have hgather (name : String) :
      (Dict.gather (enter merge) none (ds.filter (·.name = name))).isSome = true ↔
        Mergeable ((ds.filter (·.name = name)).filterMap Demand.asked) := by
    rw [isSome_gather_iff h, mergeable_iff sets]
    simp only [← foldlM_joinKey]
    rfl
  simp only [← hgather]
  constructor
  · intro hall name
    obtain ⟨map, hmap⟩ := Option.isSome_iff_exists.mp hall
    have hget := Dict.get_foldlM_update hmap name
    rw [Dict.get_empty] at hget
    rw [hget]
    rfl
  · intro h
    exact Dict.isSome_foldlM_update h

variable {items : List (PartnerClarificationItem ν)}

theorem addItem_eq (map : Dict String (FieldEntry ν)) (item : PartnerClarificationItem ν) :
    addItem sets map item =
      enterAll (ClarificationMerger.mergeFieldConstraints sets) (demands item) map := by
  rw [demands, enterAll_append, ← addFields_eq]
  unfold addItem
  congr 1
  funext map
  split
  next => exact addAnswer_eq _ map item
  next => rfl

theorem mergeFields_eq : mergeFields sets items =
    enterAll (ClarificationMerger.mergeFieldConstraints sets) (items.flatMap demands) .empty := by
  unfold mergeFields
  generalize (Dict.empty : Dict String (FieldEntry ν)) = map
  induction items generalizing map with
  | nil => rfl
  | cons item items ih =>
    rw [List.foldlM_cons, List.flatMap_cons, enterAll_append, addItem_eq]
    congr 1
    funext map
    exact ih map

theorem buildFieldMapping_eq :
    InputRouter.buildFieldMapping sets (items.map (·.gap)) =
      enterAll (InputRouter.mergeFieldConstraints sets) (items.flatMap fieldDemands) .empty := by
  unfold InputRouter.buildFieldMapping
  generalize (Dict.empty : Dict String (FieldEntry ν)) = map
  induction items generalizing map with
  | nil => rfl
  | cons item items ih =>
    rw [List.map_cons, List.foldlM_cons, List.flatMap_cons, enterAll_append, ← addFields_eq]
    congr 1
    funext map
    exact ih map

end Success

section Conjunction

variable {ν : Type} [LinearOrder ν] [Zero ν] [One ν] {sets : PyValue.Intersection ν}
  {items : List (PartnerClarificationItem ν)}

/-- The merged field of a name, in the question and in the routing: it allows what every partner that
asks for it allows, and is required when one of them requires it. -/
def MergedInto (e : FieldEntry ν) (fields : List (RequiredField ν)) : Prop :=
  (∀ P x, Allows P e.field x ↔ ∀ f ∈ fields, Allows P f x) ∧
    (e.field.required = true ↔ ∃ f ∈ fields, f.required = true)

/-- Both components succeed, with one entry for each name that is asked for as a field only. -/
def Conjoined (sets : PyValue.Intersection ν) (items : List (PartnerClarificationItem ν)) : Prop :=
  ∃ question routing, mergeFields sets items = some question ∧
    InputRouter.buildFieldMapping sets (items.map (·.gap)) = some routing ∧
    ∀ name, Unanswered name items → fieldsNamed name items ≠ [] →
      ∃ e, question.get name = some e ∧ routing.get name = some e ∧
        MergedInto e (fieldsNamed name items)

structure Compatible (items : List (PartnerClarificationItem ν)) : Prop where
  mergeable : ∀ name, Mergeable (fieldsNamed name items)
  unambiguous : ∀ name, Unanswered name items → Unambiguous (fieldsNamed name items)
  described : ∀ name first rest, Unanswered name items → fieldsNamed name items = first :: rest →
    ∀ f ∈ rest, size f.description ≤ size first.description

theorem both_succeed_iff (sets : PyValue.Intersection ν) (items : List (PartnerClarificationItem ν)) :
    ((mergeFields sets items).isSome = true ∧
      (InputRouter.buildFieldMapping sets (items.map (·.gap))).isSome = true) ↔
      ∀ name, Mergeable (fieldsNamed name items) := by
  rw [mergeFields_eq, buildFieldMapping_eq, isSome_enterAll_iff joins_merger,
    isSome_enterAll_iff joins_router]
  simp only [asked_named, asked_named_fields]
  exact and_self_iff

variable {name : String} {first : RequiredField ν} {rest : List (RequiredField ν)}
  {question routing : Dict String (FieldEntry ν)}

theorem entries_eq (hname : Unanswered name items) (hfields : fieldsNamed name items = first :: rest)
    (hquestion : mergeFields sets items = some question)
    (hrouting : InputRouter.buildFieldMapping sets (items.map (·.gap)) = some routing) :
    ∃ m partners, rest.foldlM (InputRouter.mergeFieldConstraints sets) first = some m ∧
      routing.get name = some ⟨m, partners⟩ ∧
      question.get name = some ⟨{ m with
        description := (rest.map (·.description)).foldl mergeDescription first.description },
        partners⟩ := by
  rw [mergeFields_eq] at hquestion
  rw [buildFieldMapping_eq] at hrouting
  have hq := Dict.get_foldlM_update hquestion name
  have hr := Dict.get_foldlM_update hrouting name
  rw [demands_named hname] at hq
  rw [Dict.get_empty, gather_none (fun d => asked_isSome) ((asked_named_fields items name).trans hfields)]
    at hq hr
  obtain ⟨m, hm, hr⟩ := Option.map_eq_some_iff.mp hr
  have hmerger := merger_foldlM sets rest first first.description
  rw [hm] at hmerger
  obtain ⟨n, hn, hq⟩ := Option.map_eq_some_iff.mp hq
  obtain rfl : _ = n := Option.some.inj (hmerger.symm.trans hn)
  exact ⟨m, _, hm, hr.symm, hq.symm⟩

theorem merged_required_iff {m : RequiredField ν}
    (h : rest.foldlM (InputRouter.mergeFieldConstraints sets) first = some m) :
    m.required = true ↔ ∃ f ∈ first :: rest, f.required = true := by
  obtain ⟨constraints, rfl⟩ := foldlM_eq h
  exact List.any_eq_true

theorem merged_strictest {m : RequiredField ν}
    (h : rest.foldlM (InputRouter.mergeFieldConstraints sets) first = some m) (key : String) :
    strictest sets key (values key (first :: rest)) = some (m.under key) := by
  rw [← joined_eq, joined_foldlM h]

theorem described_iff {m : RequiredField ν}
    (h : rest.foldlM (InputRouter.mergeFieldConstraints sets) first = some m) :
    (rest.map (·.description)).foldl mergeDescription first.description = m.description ↔
      ∀ f ∈ rest, size f.description ≤ size first.description := by
  obtain ⟨constraints, rfl⟩ := foldlM_eq h
  rw [foldl_mergeDescription_eq_iff]
  exact List.forall_mem_map

theorem Conjoined.compatible_fields (h : Conjoined sets items) (hname : Unanswered name items)
    (hfields : fieldsNamed name items = first :: rest) :
    Unambiguous (first :: rest) ∧ ∀ f ∈ rest, size f.description ≤ size first.description := by
  obtain ⟨question, routing, hquestion, hrouting, hnames⟩ := h
  obtain ⟨e, hq, hr, hall, -⟩ := hnames name hname (hfields ▸ List.cons_ne_nil first rest)
  obtain ⟨m, partners, hm, hr', hq'⟩ := entries_eq hname hfields hquestion hrouting
  obtain rfl : _ = e := Option.some.inj (hr'.symm.trans hr)
  have hdescription := Option.some.inj (hq'.symm.trans hq)
  rw [hfields] at hall
  exact ⟨(conjunction_iff (merged_strictest hm)).mp hall,
    (described_iff hm).mp (congrArg (·.field.description) hdescription)⟩

theorem conjoined_iff : Conjoined sets items ↔ Compatible items := by
  constructor
  · intro h
    refine ⟨?_, fun name hname => ?_, fun name first rest hname hfields =>
      (h.compatible_fields hname hfields).2⟩
    · obtain ⟨question, routing, hquestion, hrouting, -⟩ := h
      exact (both_succeed_iff sets items).mp
        ⟨Option.isSome_of_mem hquestion, Option.isSome_of_mem hrouting⟩
    · cases hfields : fieldsNamed name items with
      | nil =>
        intro x _ key _ v hv
        cases hv
      | cons first rest => exact (h.compatible_fields hname hfields).1
  · intro h
    obtain ⟨hq, hr⟩ := (both_succeed_iff sets items).mpr h.mergeable
    obtain ⟨question, hquestion⟩ := Option.isSome_iff_exists.mp hq
    obtain ⟨routing, hrouting⟩ := Option.isSome_iff_exists.mp hr
    refine ⟨question, routing, hquestion, hrouting, fun name hname hne => ?_⟩
    obtain ⟨first, rest, hfields⟩ := List.exists_cons_of_ne_nil hne
    obtain ⟨m, partners, hm, hr, hq⟩ := entries_eq hname hfields hquestion hrouting
    rw [(described_iff hm).mpr (h.described name first rest hname hfields)] at hq
    refine ⟨⟨m, partners⟩, hq, hr, ?_, ?_⟩
    · rw [hfields]
      exact (conjunction_iff (merged_strictest hm)).mpr (hfields ▸ h.unambiguous name hname)
    · rw [hfields]
      exact merged_required_iff hm

end Conjunction

section Conflict

namespace Sample

def intersection : PyValue.Intersection ℤ where
  common xs ys := xs.filter fun x => ys.any (PyValue.eqv x)
  any_common xs ys x := by
    rw [List.any_filter, Bool.eq_iff_iff, Bool.and_eq_true, List.any_eq_true, List.any_eq_true,
      List.any_eq_true]
    simp only [Bool.and_eq_true, List.any_eq_true, PyValue.eqv, decide_eq_true_eq]
    constructor
    · rintro ⟨z, hz, ⟨y, hy, hzy⟩, hxz⟩
      exact ⟨⟨z, hz, hxz⟩, y, hy, hxz.trans hzy⟩
    · rintro ⟨⟨z, hz, hxz⟩, y, hy, hxy⟩
      exact ⟨z, hz, ⟨y, hy, hxz.symm.trans hxy⟩, hxz⟩
  mem_common xs ys x hx := .inl (List.mem_of_mem_filter hx)

def phone (pattern : String) : RequiredField ℤ :=
  ⟨"phone", "", "string", none, true, some ⟨[("pattern", .str pattern)], List.nodup_singleton _⟩, none⟩

def asks (partnerAic pattern : String) : PartnerClarificationItem ℤ :=
  ⟨partnerAic, "stay", "", none, [phone pattern]⟩

end Sample

open Sample in
theorem patterns_conflict : ¬ Conjoined intersection [asks "hotel" "a", asks "inn" "b"] := by
  intro h
  have hname : Unanswered "phone" [asks "hotel" "a", asks "inn" "b"] := by
    intro item hitem htext
    rcases List.mem_pair.mp hitem with rfl | rfl <;> cases htext
  obtain ⟨hun, -⟩ := h.compatible_fields hname (rfl : _ = [phone "a", phone "b"])
  have hfree (p : String) : Allows (fun _ _ _ => True) (phone p) .null := by
    intro key v hunder
    obtain ⟨rfl, -⟩ := Prod.mk.inj (List.mem_singleton.mp (Dict.get_eq_some.mp hunder))
    exact (meets_other (by decide)).mpr trivial
  have heq := hun .null (by simp [hfree]) "pattern" (by decide)
    (.str "a") (mem_values.mpr ⟨phone "a", by simp, rfl⟩)
    (.str "b") (mem_values.mpr ⟨phone "b", by simp, rfl⟩)
  exact absurd (PyValue.str.inj heq) (by decide)

end Conflict

end Acps.Assistant
