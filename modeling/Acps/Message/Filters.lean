import Acps.Lib.Fallible
import Acps.Monitor.Sql

/-!
Filters of the message interfaces.
-/

namespace Acps.Message

open Monitor

def events : List String := ["events"]

def lifecyclesDl : List String := ["lifecycles", "deadletters"]

def eventFilterFields : Fields :=
  [("logId", ⟨"log_id", "String", events⟩), ("aic", ⟨"aic", "String", events⟩),
    ("traceId", ⟨"trace_id", "String", events⟩),
    ("correlationId", ⟨"correlation_id", "String", events⟩),
    ("direction", ⟨"direction", "String", events⟩), ("eventType", ⟨"event_type", "String", events⟩),
    ("system", ⟨"system", "String", events⟩),
    ("destination.name", ⟨"destination_name", "String", events⟩),
    ("destination.kind", ⟨"destination_kind", "String", events⟩),
    ("destination.virtualHost", ⟨"virtual_host", "String", events⟩),
    ("subscriptionName", ⟨"subscription_name", "String", events⟩),
    ("consumerGroupName", ⟨"consumer_group_name", "String", events⟩),
    ("routing.key", ⟨"routing_key", "String", events⟩),
    ("routing.partition", ⟨"partition", "String", events⟩),
    ("routing.offset", ⟨"offset", "Int64", events⟩),
    ("messageId", ⟨"message_id", "String", events⟩),
    ("lifecycleKey", ⟨"lifecycle_key", "String", events⟩),
    ("deliveryAttempt", ⟨"delivery_attempt", "UInt16", events⟩),
    ("settlement.latencyMs", ⟨"settlement_latency_ms", "UInt32", events⟩),
    ("deadLettered", ⟨"__dead_lettered_events", "UInt8", events⟩),
    ("deadLetterReason", ⟨"settlement_reason", "String", events⟩),
    ("error.code", ⟨"error_code", "String", events⟩)]

def lifecycleImmutableFields : List String :=
  ["system", "destination.name", "destination.kind", "destination.virtualHost", "lifecycleKey"]

def lifecycleFilterFields : Fields :=
  [("system", ⟨"system", "String", lifecyclesDl⟩),
    ("destination.name", ⟨"destination_name", "String", lifecyclesDl⟩),
    ("destination.kind", ⟨"destination_kind", "String", lifecyclesDl⟩),
    ("destination.virtualHost", ⟨"virtual_host", "String", lifecyclesDl⟩),
    ("lifecycleKey", ⟨"lifecycle_key", "String", lifecyclesDl⟩),
    ("aic", ⟨"__aic_in_arrays", "String", lifecyclesDl⟩),
    ("traceId", ⟨"trace_id", "String", lifecyclesDl⟩),
    ("correlationId", ⟨"correlation_id", "String", lifecyclesDl⟩),
    ("messageId", ⟨"message_id", "String", lifecyclesDl⟩),
    ("subscriptionName", ⟨"subscription_name", "String", lifecyclesDl⟩),
    ("consumerGroupName", ⟨"consumer_group_name", "String", lifecyclesDl⟩),
    ("maxDeliveryAttempt", ⟨"max_delivery_attempt", "UInt16", lifecyclesDl⟩),
    ("terminalState", ⟨"terminal_state", "String", lifecyclesDl⟩),
    ("deadLettered", ⟨"dead_lettered", "UInt8", lifecyclesDl⟩),
    ("deadLetterReason", ⟨"dead_letter_reason", "String", lifecyclesDl⟩)]

def lifecycleLogicalKey : List String :=
  ["system", "destination_name", "destination_kind", "virtual_host", "lifecycle_key"]

def eventTypeColumn : Column := { name := "event_type", type := "String" }

/-- The two special columns stand for a condition on other columns: whether the event is a dead
letter, and the agents on either side of a lifecycle. -/
def compileSingleCondition (api : String) (fields : Fields) (cond : AMPFilterCondition) :
    Except FilterError Fragment := do
  let spec ← requireField api fields cond.field
  let c := spec.asColumn
  if spec.column = "__dead_lettered_events" then
    match cond.op with
    | .compare .eq =>
      return if cond.value.truthy then .textIs eventTypeColumn "dead_letter"
        else .textIsNot eventTypeColumn "dead_letter"
    | op => throw (.unsupportedOperator op)
  else if spec.column = "__aic_in_arrays" then
    match cond.op with
    | .compare .eq => return .has c cond.value
    | op => throw (.unsupportedOperator op)
  else
    match cond.op with
    | .compare k => return .compare k c cond.value
    | .isIn =>
      match cond.value with
      | .arr vs => return .oneOf c vs
      | _ => throw .invalidFilter
    | .nin =>
      match cond.value with
      | .arr vs => return .noneOf c vs
      | _ => throw .invalidFilter
    | .contains => return .positionCaseInsensitive c cond.value
    | .starts_with => return .startsWith c cond.value
    | .isNull => return .isNull c
    | op => throw (.unsupportedOperator op)

def view (row : Row) : Row := fun column =>
  if column = "__dead_lettered_events" then
    match row "event_type" with
    | .null => .null
    | cell => .flag (cell = .text "dead_letter")
  else row column

def Caseless (σ : Store) (s : String) : Prop :=
  ∀ c ∈ s.toList, ∀ d, σ.fold d = σ.fold c → d = c

/-- A dead letter flag is to be given as a flag, `starts_with` tells upper and lower case apart, and
`is_null` always asks for no value. -/
def Faithful (σ : Store) (spec : FieldSpec) (op : FilterOp) (value : Json) : Prop :=
  if spec.column = "__dead_lettered_events" then
    σ.bind spec.chType value = some (.flag value.truthy)
  else
    match op with
    | .starts_with => ∀ s, σ.bind spec.chType value = some (.text s) → Caseless σ s
    | .isNull => value.truthy = true
    | _ => True

section Faithfulness

variable {σ : Store} {spec : FieldSpec} {op : FilterOp} {value : Json} {fragment : Fragment}

theorem view_of_ne {column : String} (h : column ≠ "__dead_lettered_events") (row : Row) :
    view row column = row column := if_neg h

theorem folded_prefix_iff {p q : List Char} (hp : ∀ c ∈ p, ∀ d, σ.fold d = σ.fold c → d = c) :
    p.map σ.fold <+: q.map σ.fold ↔ p <+: q := by
  induction p generalizing q with
  | nil => simp
  | cons c p ih =>
    cases q with
    | nil => simp
    | cons d q =>
      have hhead : σ.fold c = σ.fold d ↔ c = d :=
        ⟨fun h => (hp c List.mem_cons_self d h.symm).symm, congrArg σ.fold⟩
      have htail := ih (q := q) fun x hx => hp x (List.mem_cons_of_mem c hx)
      rw [List.map_cons, List.map_cons, List.cons_prefix_cons, List.cons_prefix_cons, hhead, htail]

theorem bind_of_any_same {b : Bool} {bound : Option Cell}
    (h : bound.any (fun v => σ.same (.flag b) v) = true) : bound = some (.flag b) := by
  cases bound with
  | none => cases h
  | some v => cases v <;> simp_all [Store.same]

theorem dead_letter_means_iff :
    (if value.truthy then Fragment.textIs eventTypeColumn "dead_letter"
        else .textIsNot eventTypeColumn "dead_letter").Means σ
      (fun row => (FilterOp.compare .eq).relates σ spec.chType
        (view row "__dead_lettered_events") value) ↔
      σ.bind spec.chType value = some (.flag value.truthy) := by
  have hview (row : Row) : view row "__dead_lettered_events" = match row "event_type" with
    | .null => .null
    | cell => .flag (cell = .text "dead_letter") := if_pos rfl
  constructor
  · intro h
    -- an event that the fragment lets through
    apply bind_of_any_same (σ := σ)
    cases htruthy : value.truthy with
    | false =>
      rw [htruthy] at h
      exact (h fun _ => .text "").symm
    | true =>
      rw [htruthy] at h
      exact (h fun _ => .text "dead_letter").symm
  · intro hbind row
    change _ = (σ.bind spec.chType value).any fun v => σ.same _ v
    rw [hbind, Option.any_some, hview]
    cases value.truthy <;> cases hrow : row "event_type" <;>
      simp [Fragment.eval, eventTypeColumn, hrow, Store.same]

theorem startsWith_means_iff (hbind : (σ.bind spec.chType value).isSome) :
    (Fragment.startsWith spec.asColumn value).Means σ
      (fun row => FilterOp.starts_with.relates σ spec.chType (row spec.column) value) ↔
      ∀ s, σ.bind spec.chType value = some (.text s) → Caseless σ s := by
  obtain ⟨v, hv⟩ := Option.isSome_iff_exists.mp hbind
  have hmeans : (Fragment.startsWith spec.asColumn value).Means σ
      (fun row => FilterOp.starts_with.relates σ spec.chType (row spec.column) value) ↔
      ∀ cell, Store.startsWithExactly cell v = σ.startsWithFolded cell v := by
    simp only [Fragment.Means, Fragment.eval, FilterOp.relates, FieldSpec.asColumn, hv,
      Option.any_some]
    exact ⟨fun h cell => h fun _ => cell, fun h row => h (row spec.column)⟩
  rw [hmeans]
  constructor
  · intro h s hs c hc d hd
    obtain rfl := Option.some.inj (hv.symm.trans hs)
    have hfold : (s.toList.map fun x => if x = c then d else x).map σ.fold = s.toList.map σ.fold := by
      rw [List.map_map]
      apply List.map_congr_left
      intro x _
      by_cases hx : x = c <;> simp [hx, hd]
    have hboth := h (.text (String.ofList (s.toList.map fun x => if x = c then d else x)))
    have hprefix : s.toList <+: s.toList.map fun x => if x = c then d else x := by
      simpa [Store.startsWithExactly, Store.startsWithFolded, Store.folded, hfold] using hboth
    have hsame := hprefix.eq_of_length (List.length_map _).symm
    have hat := List.map_inj_left.mp (hsame.symm.trans (List.map_id _).symm) c hc
    simpa using hat
  · intro h cell
    cases cell with
    | text t =>
      cases v with
      | text s =>
        exact decide_eq_decide.mpr (folded_prefix_iff (h s hv)).symm
      | _ => rfl
    | _ => cases v <;> rfl

theorem compileSingleCondition_means_iff {api : String} {fields : Fields}
    {cond : AMPFilterCondition} (hspec : fieldOf api fields cond.field = some spec)
    (htyped : spec.column = "__aic_in_arrays" → spec.chType = "String")
    (h : compileSingleCondition api fields cond = .ok fragment) (haccepts : fragment.accepts σ) :
    fragment.Means σ (fun row => cond.op.relates σ spec.chType (view row spec.column) cond.value) ↔
      Faithful σ spec cond.op cond.value := by
  obtain ⟨field, op, value⟩ := cond
  have hrequire := requireField_eq_ok.mpr hspec
  unfold compileSingleCondition at h
  simp only [hrequire, Fallible.ok_bind] at h
  unfold Faithful
  by_cases hdead : spec.column = "__dead_lettered_events"
  · rw [if_pos hdead]
    rw [if_pos hdead] at h
    cases op with
    | compare k =>
      cases k with
      | eq =>
        obtain rfl := Fallible.pure_eq_ok.mp h
        rw [hdead]
        exact dead_letter_means_iff
      | _ => cases h
    | _ => cases h
  rw [if_neg hdead]
  rw [if_neg hdead] at h
  simp only [view_of_ne hdead]
  have hexact {p : Prop} (hp : p)
      (hsame : ∀ row, fragment.eval σ row = op.relates σ spec.chType (row spec.column) value) :
      fragment.Means σ (fun row => op.relates σ spec.chType (row spec.column) value) ↔ p :=
    iff_of_true hsame hp
  by_cases haic : spec.column = "__aic_in_arrays"
  · rw [if_pos haic] at h
    cases op with
    | compare k =>
      cases k with
      | eq =>
        obtain rfl := Fallible.pure_eq_ok.mp h
        apply hexact trivial
        intro row
        simp only [Fragment.eval, FilterOp.relates, htyped haic]
        rfl
      | _ => cases h
    | _ => cases h
  rw [if_neg haic] at h
  cases op with
  | compare k | contains =>
    obtain rfl := Fallible.pure_eq_ok.mp h
    exact hexact trivial fun row => rfl
  | isIn | nin =>
    cases value with
    | arr vs =>
      obtain rfl := Fallible.pure_eq_ok.mp h
      exact hexact trivial fun row => rfl
    | _ => cases h
  | starts_with =>
    obtain rfl := Fallible.pure_eq_ok.mp h
    exact startsWith_means_iff (of_decide_eq_true haccepts).2
  | isNull =>
    obtain rfl := Fallible.pure_eq_ok.mp h
    constructor
    · intro hmeans
      simpa [Fragment.eval, FilterOp.relates, FieldSpec.asColumn] using hmeans fun _ => .null
    · intro htruthy row
      change decide (row spec.column = .null) =
        decide (decide (row spec.column = .null) = value.truthy)
      rw [htruthy]
      exact Bool.decide_eq_true.symm
  | containsCs | startsWith | between | present | other => cases h

end Faithfulness

def compileFilter (api : String) (fields : Fields) (f : AMPFilter) :
    Except FilterError (List Fragment) := do
  if f.conditions = [] ∧ f.groups.isEmpty then return []
  else
    Fallible.require (f.logic = .and) .invalidFilter
    f.conditions.mapM (compileSingleCondition api fields)

def splitLifecycleWhere (api : String) (f : AMPFilter) :
    Except FilterError (List Fragment × List Fragment) := do
  let fragments ← f.conditions.mapM fun cond => do
    let fragment ← compileSingleCondition api lifecycleFilterFields cond
    return (decide (cond.field ∈ lifecycleImmutableFields), fragment)
  return ((fragments.filter (·.1)).map (·.2), (fragments.filter fun p => ! p.1).map (·.2))

end Acps.Message
