import Acps.Audit.Chain
import Acps.Lib.Fallible
import Acps.Monitor.Filter
import Acps.Monitor.Sql
import Mathlib.Data.List.Dedup

/-!
Queries on the audit records: the fields that they may name, the records of a time range page by
page, and their counts by group.
-/

namespace Acps.Audit

open Monitor (Column Cell Row)

def fieldMap : List (String × Column) :=
  [("auditId", ⟨"audit_id", "uuid"⟩), ("logId", ⟨"log_id", "text"⟩), ("aic", ⟨"aic", "text"⟩),
    ("tenantId", ⟨"tenant_id", "text"⟩), ("traceId", ⟨"trace_id", "text"⟩),
    ("correlationId", ⟨"correlation_id", "text"⟩), ("chainId", ⟨"chain_id", "text"⟩),
    ("chainSeq", ⟨"chain_seq", "bigint"⟩), ("body.actor.id", ⟨"actor_id", "text"⟩),
    ("body.actor.name", ⟨"actor_name", "text"⟩), ("body.actor.type", ⟨"actor_type", "text"⟩),
    ("body.actor.role", ⟨"actor_role", "text"⟩), ("body.actor.ip", ⟨"actor_ip", "text"⟩),
    ("body.action.name", ⟨"action_name", "text"⟩), ("body.action.type", ⟨"action_type", "text"⟩),
    ("body.action.method", ⟨"action_method", "text"⟩),
    ("body.target.type", ⟨"target_type", "text"⟩), ("body.target.id", ⟨"target_id", "text"⟩),
    ("body.target.name", ⟨"target_name", "text"⟩),
    ("body.result.status", ⟨"result_status", "text"⟩),
    ("body.result.errorCode", ⟨"result_error_code", "text"⟩),
    ("integrity.signatureVerified", ⟨"signature_verified", "boolean"⟩),
    ("integrity.chainVerified", ⟨"chain_verified", "boolean"⟩),
    ("integrity.verificationFailureType", ⟨"verification_failure_type", "text"⟩),
    ("integrity.signatureKeyId", ⟨"signature_kid", "text"⟩)]

def columnOf (field : String) : Option Column := fieldMap.lookup field

def nullable (s : Option String) : Cell := s.elim .null .text

def nullableFlag (b : Option Bool) : Cell := b.elim .null .flag

def AuditRecord.row (r : AuditRecord) : Row := fun column =>
  ([("audit_id", .text r.auditId.str), ("log_id", .text r.logId), ("aic", .text r.aic),
    ("tenant_id", nullable r.tenantId), ("trace_id", nullable r.traceId),
    ("correlation_id", nullable r.correlationId), ("chain_id", .text r.chainId),
    ("chain_seq", .num r.chainSeq), ("actor_id", .text r.body.actorId),
    ("actor_name", nullable r.body.actorName), ("actor_type", .text r.body.actorType),
    ("actor_role", nullable r.body.actorRole), ("actor_ip", nullable r.body.actorIp),
    ("action_name", .text r.body.actionName), ("action_type", .text r.body.actionType),
    ("action_method", nullable r.body.actionMethod), ("target_type", .text r.body.targetType),
    ("target_id", .text r.body.targetId), ("target_name", nullable r.body.targetName),
    ("result_status", .text r.body.resultStatus),
    ("result_error_code", nullable r.body.resultErrorCode),
    ("signature_verified", .flag r.signature.verified),
    ("chain_verified", nullableFlag r.chainVerified),
    ("verification_failure_type", nullable r.signature.verificationFailureType),
    ("signature_kid", .text r.signature.kid)] : List (String × Cell)).lookup column |>.getD .null

structure AMPTimeRange where
  startAt : String
  endAt : String

structure Window where
  startAt : Time
  endAt : Time

def AMPTimeRange.parse (π : Platform) (range : AMPTimeRange) : Option Window := do
  let startAt ← π.fromIsoFormat range.startAt
  let endAt ← π.fromIsoFormat range.endAt
  return { startAt, endAt }

def Window.Covers (w : Window) (r : AuditRecord) : Prop :=
  w.startAt ≤ r.timestamp ∧ r.timestamp < w.endAt

instance (w : Window) (r : AuditRecord) : Decidable (w.Covers r) :=
  inferInstanceAs (Decidable (w.startAt ≤ r.timestamp ∧ r.timestamp < w.endAt))

def Window.Fences (w : Window) (lag : Time) (r : AuditRecord) : Prop :=
  w.startAt - lag ≤ r.committedAt ∧ r.committedAt ≤ w.endAt + lag

instance (w : Window) (lag : Time) (r : AuditRecord) : Decidable (w.Fences lag r) :=
  inferInstanceAs (Decidable (w.startAt - lag ≤ r.committedAt ∧ r.committedAt ≤ w.endAt + lag))

inductive QueryError where
  | invalidFilter
  | invalidTimeRange
  | unsupportedField (field : String)
  | cursorInvalid
  | valueError
  deriving DecidableEq

end Acps.Audit

namespace Acps.Audit

open Monitor (AMPFilter AMPFilterCondition Cell Column FilterOp Fragment Store)

structure AMPPaginationRequest where
  limit : ℕ
  limit_ge : 1 ≤ limit
  limit_le : limit ≤ 500
  cursor : Option String

structure RecordQueryRequest where
  timeRange : Option AMPTimeRange
  filter : Option AMPFilter
  keyword : Option String
  page : Option AMPPaginationRequest

structure Database where
  platform : Platform
  store : Store
  maxEventLag : Time
  b64decode : String → Option String
  textEq_iff : ∀ s t, store.textEq s t = true ↔ s = t

variable (db : Database)

def requireTimeRange (range : Option AMPTimeRange) : Except QueryError Window :=
  match range.bind (AMPTimeRange.parse db.platform) with
  | none => .error .invalidTimeRange
  | some w => .ok w

structure Cursor where
  timestamp : Time
  auditId : Uuid

def splitBar (raw : String) : Option (String × String) :=
  match raw.toList.span (· ≠ '|') with
  | (before, _ :: after) => some (String.ofList before, String.ofList after)
  | (_, []) => none

def readCursor (page : Option AMPPaginationRequest) : Except QueryError (Option Cursor) :=
  match (page.bind AMPPaginationRequest.cursor).filter (· ≠ "") with
  | none => .ok none
  | some cursor =>
    match (db.b64decode cursor).bind splitBar with
    | none => .error .cursorInvalid
    | some (timestamp, auditId) =>
      if timestamp = "" ∨ auditId = "" then .ok none
      else
        match db.platform.fromIsoFormat timestamp, db.platform.uuid auditId with
        | some timestamp, some auditId => .ok (some { timestamp, auditId })
        | _, _ => .error .valueError

def Cursor.Passed (c : Cursor) (r : AuditRecord) : Prop :=
  r.timestamp < c.timestamp ∨ r.timestamp = c.timestamp ∧ r.auditId.toNat < c.auditId.toNat

instance (c : Cursor) (r : AuditRecord) : Decidable (c.Passed r) :=
  inferInstanceAs (Decidable (r.timestamp < c.timestamp ∨
    r.timestamp = c.timestamp ∧ r.auditId.toNat < c.auditId.toNat))

def whereClause (c : Column) (op : FilterOp) (value : Json) : Option Fragment :=
  match op with
  | .compare k => some (.compare k c value)
  | .contains => some (.ilike c ('%' :: ((db.store.str value).toList ++ ['%'])))
  | .starts_with => some (.ilike c ((db.store.str value).toList ++ ['%']))
  | .isNull => some (if value.truthy then .isNull c else .isNotNull c)
  | _ => none

def validateFilterFields (conditions : List AMPFilterCondition) : Except QueryError Unit :=
  conditions.forM fun c => Fallible.require (columnOf c.field).isSome (.unsupportedField c.field)

def filterClauses (filter : AMPFilter) : Except QueryError (List Fragment) := do
  validateFilterFields filter.conditions
  return filter.conditions.filterMap fun c =>
    (columnOf c.field).bind fun column => whereClause db column c.op c.value

def keywordColumns : List Column :=
  ["actor_id", "actor_name", "action_name", "action_type", "target_type", "target_id",
    "result_error_code"].map fun name => { name, type := "text" }

def keywordClauses (keyword : String) : List Fragment :=
  .compare .eq { name := "log_id", type := "text" } (.str keyword) ::
    keywordColumns.map fun c => .ilike c (keyword.toList ++ ['%'])

def Selects (w : Window) (cursor : Option Cursor) (clauses : List Fragment)
    (keyword : Option String) (r : AuditRecord) : Bool :=
  w.Covers r ∧ w.Fences db.maxEventLag r ∧ (∀ c ∈ cursor, c.Passed r) ∧
    clauses.all (fun fragment => fragment.eval db.store r.row) ∧
    ∀ k ∈ keyword.filter (· ≠ ""),
      (keywordClauses k).any (fun fragment => fragment.eval db.store r.row) = true

def newestFirst (a b : AuditRecord) : Bool :=
  b.timestamp < a.timestamp ∨ a.timestamp = b.timestamp ∧ b.auditId.toNat ≤ a.auditId.toNat

def queryRecords (records : List AuditRecord) (request : RecordQueryRequest) :
    Except QueryError (List AuditRecord) := do
  let w ← requireTimeRange db request.timeRange
  let cursor ← readCursor db request.page
  let clauses ← (request.filter.elim (.ok []) (filterClauses db))
  Fallible.require (clauses.all (Fragment.accepts db.store)) .valueError
  let selected := records.filter (Selects db w cursor clauses request.keyword)
  return (selected.mergeSort newestFirst).take (request.page.elim 50 AMPPaginationRequest.limit)

structure Group where
  key : List Cell
  rows : List AuditRecord
  deriving DecidableEq

def groups (columns : List Column) (rows : List AuditRecord) : List Group :=
  let keyOf (r : AuditRecord) := columns.map fun c => r.row c.name
  (rows.map keyOf).dedup.map fun key => { key, rows := rows.filter fun r => keyOf r = key }

end Acps.Audit
