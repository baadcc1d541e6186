import Acps.Lib.Fallible
import Acps.Monitor.Sql

/-!
Filters of the access interfaces.
-/

namespace Acps.Access

open Monitor

def eventsOpsErrSlow : List String := ["events", "operations", "errors", "slow"]

def eventsOpsTraceSlow : List String := ["events", "operations", "traces", "slow"]

def eventsTraceSlow : List String := ["events", "traces", "slow"]

def eventsOnly : List String := ["events"]

def allButTopology : List String := ["events", "operations", "traces", "errors", "slow"]

def eventFilterFields : Fields :=
  [("aic", ⟨"aic", "String", allButTopology⟩), ("traceId", ⟨"trace_id", "String", allButTopology⟩),
    ("spanId", ⟨"span_id", "String", eventsOnly⟩),
    ("parentSpanId", ⟨"parent_span_id", "String", eventsOnly⟩),
    ("correlationId", ⟨"correlation_id", "String", eventsOpsErrSlow⟩),
    ("severity", ⟨"severity", "String", eventsOpsErrSlow⟩),
    ("request.method", ⟨"request_method", "String", allButTopology⟩),
    ("request.route", ⟨"request_route", "String", allButTopology⟩),
    ("request.url", ⟨"request_url", "String", eventsTraceSlow⟩),
    ("response.statusCode", ⟨"response_status", "UInt16", allButTopology⟩),
    ("caller.aic", ⟨"caller_aic", "String", eventsOpsErrSlow⟩),
    ("caller.serviceName", ⟨"caller_service", "String", eventsOpsErrSlow⟩),
    ("caller.ip", ⟨"caller_ip", "String", eventsOpsErrSlow⟩),
    ("callee.aic", ⟨"callee_aic", "String", eventsOpsErrSlow⟩),
    ("callee.serviceName", ⟨"callee_service", "String", eventsOpsErrSlow⟩),
    ("callee.ip", ⟨"callee_ip", "String", eventsOpsErrSlow⟩),
    ("durationMs", ⟨"duration_ms", "UInt32", eventsOpsTraceSlow⟩),
    ("error.code", ⟨"error_code", "String", eventsOpsErrSlow⟩),
    ("error.message", ⟨"error_message", "String", eventsOpsErrSlow⟩),
    ("serviceName", ⟨"service_name", "String", eventsOpsErrSlow⟩),
    ("deploymentEnv", ⟨"deployment_env", "String", eventsOpsErrSlow⟩)]

def traceSpanFilterFields : Fields :=
  (eventFilterFields.filter fun p => p.1 ∉ ["error.message", "caller.ip", "callee.ip",
    "correlationId", "severity", "deploymentEnv"]).map fun p => (p.1, { p.2 with apis := ["traces"] })

def topologyFilterFields : Fields :=
  [("caller.aic", ⟨"caller_aic", "String", ["topology"]⟩),
    ("caller.serviceName", ⟨"caller_service", "String", ["topology"]⟩),
    ("callee.aic", ⟨"callee_aic", "String", ["topology"]⟩),
    ("callee.serviceName", ⟨"callee_service", "String", ["topology"]⟩)]

def compileCondition (spec : FieldSpec) (op : FilterOp) (value : Json) :
    Except FilterError Fragment :=
  let c := spec.asColumn
  match op with
  | .compare k => .ok (.compare k c value)
  | .contains => .ok (.positionCaseInsensitive c value)
  | .containsCs => .ok (.position c value)
  | .startsWith => .ok (.startsWithLower c value)
  | .isIn =>
    match value with
    | .arr vs => .ok (.oneOf c vs)
    | _ => .error .invalidFilter
  | .nin =>
    match value with
    | .arr vs => .ok (.noneOf c vs)
    | _ => .error .invalidFilter
  | .between =>
    match value with
    | .arr [lo, hi] => .ok (.between c lo hi)
    | _ => .error .invalidFilter
  | .present => .ok (.notEmpty c)
  | .starts_with | .isNull | .other _ => .error (.unsupportedOperator op)

theorem compileCondition_means_iff (σ : Store) {spec : FieldSpec} {op : FilterOp} {value : Json}
    {fragment : Fragment} (h : compileCondition spec op value = .ok fragment) :
    fragment.Means σ (fun row => op.relates σ spec.chType (row spec.column) value) ↔
      (op = .present → value.truthy = true) := by
  have hexact (hop : op ≠ .present)
      (hsame : ∀ row, fragment.eval σ row = op.relates σ spec.chType (row spec.column) value) :
      fragment.Means σ (fun row => op.relates σ spec.chType (row spec.column) value) ↔
        (op = .present → value.truthy = true) :=
    iff_of_true hsame fun h => absurd h hop
  unfold compileCondition at h
  cases op with
  | compare k | contains | containsCs | startsWith =>
    obtain rfl := Except.ok.inj h
    exact hexact (by intro h; cases h) fun row => rfl
  | isIn | nin =>
    cases value with
    | arr vs =>
      obtain rfl := Except.ok.inj h
      exact hexact (by intro h; cases h) fun row => rfl
    | _ => cases h
  | between =>
    simp only at h
    split at h
    · obtain rfl := Except.ok.inj h
      exact hexact (by intro h; cases h) fun row => rfl
    · cases h
  | present =>
    obtain rfl := Except.ok.inj h
    constructor
    · intro hmeans _
      simpa [Fragment.eval, FilterOp.relates, Cell.Present, FieldSpec.asColumn] using
        hmeans fun _ => .text "x"
    · intro htruthy row
      change decide (row spec.column).Present =
        decide (decide (row spec.column).Present = value.truthy)
      rw [htruthy rfl]
      exact Bool.decide_eq_true.symm
  | starts_with | isNull | other => cases h

def compileFilter (api : String) (fields : Fields) (f : AMPFilter) :
    Except FilterError (List Fragment) :=
  f.conditions.mapM fun cond => do
    let spec ← requireField api fields cond.field
    compileCondition spec cond.op cond.value

end Acps.Access
