import Acps.Audit.Chain
import Acps.Lib.Inserts
import Acps.Lib.LockedRow
import Acps.Lib.Transition
import Mathlib.Data.List.DropRight
import Mathlib.Logic.Function.Basic

/-!
The writers of the audit log: each takes a message through the check for its `log_id`, the lock on
the head of its chain, the two inserts and the update of the head, all in one transaction, among
the transactions of the others.
-/

namespace Acps.Audit

structure LogRecordIntegrity where
  alg : String
  kid : String
  sig : String
  deriving DecidableEq

structure LogRecord where
  timestamp : String
  aic : String
  logType : String
  logId : Option String
  traceId : Option String
  correlationId : Option String
  body : Option JsonObject
  integrity : Option LogRecordIntegrity
  deriving DecidableEq

section Parsing

variable (o : JsonObject) (k : String)

def requiredText : Option String :=
  match o.get k with
  | some (.str s) => some s
  | _ => none

def optionalText : Option (Option String) :=
  match o.get k with
  | none | some .null => some none
  | some (.str s) => some (some s)
  | some _ => none

def optionalObject : Option (Option JsonObject) :=
  match o.get k with
  | none | some .null => some none
  | some (.obj members) => some (some members)
  | some _ => none

def textColumn : Option String :=
  match o.get k with
  | none => some ""
  | some (.str s) => some s
  | some _ => none

def objectAt : Option JsonObject :=
  match o.get k with
  | none => some []
  | some (.obj members) => some members
  | some _ => none

def jsonColumn : Option Json := (o.get k).filter (· ≠ .null)

end Parsing

def LogRecordIntegrity.modelValidate (o : JsonObject) : Option LogRecordIntegrity := do
  let alg ← requiredText o "alg"
  let kid ← requiredText o "kid"
  let sig ← requiredText o "sig"
  return { alg, kid, sig }

def LogRecord.modelValidate (o : JsonObject) : Option LogRecord := do
  let _ ← requiredText o "schema_version"
  let timestamp ← requiredText o "timestamp"
  let aic ← requiredText o "aic"
  let logType ← requiredText o "log_type"
  let logId ← optionalText o "log_id"
  let traceId ← optionalText o "trace_id"
  let correlationId ← optionalText o "correlation_id"
  let body ← optionalObject o "body"
  let integrity ← (← optionalObject o "integrity").mapM LogRecordIntegrity.modelValidate
  return { timestamp, aic, logType, logId, traceId, correlationId, body, integrity }

def bodyColumns (body : JsonObject) : Option BodyColumns := do
  let actor ← objectAt body "actor"
  let action ← objectAt body "action"
  let target ← objectAt body "target"
  let result ← objectAt body "result"
  return {
    actorId := ← textColumn actor "id"
    actorType := ← textColumn actor "type"
    actorName := ← optionalText actor "name"
    actorRole := ← optionalText actor "role"
    actorIp := ← optionalText actor "ip"
    actorUserAgent := ← optionalText actor "userAgent"
    actionName := ← textColumn action "name"
    actionType := ← textColumn action "type"
    actionMethod := ← optionalText action "method"
    targetType := ← textColumn target "type"
    targetId := ← textColumn target "id"
    targetName := ← optionalText target "name"
    targetBefore := jsonColumn target "before"
    targetAfter := jsonColumn target "after"
    resultStatus := ← textColumn result "status"
    resultReason := ← optionalText result "reason"
    resultErrorCode := ← optionalText result "errorCode" }

inductive KeyAnswer where
  | resolved (verified : Bool)
  | unavailable
  | notFound
  deriving DecidableEq

def verification (integrity : Option LogRecordIntegrity) (answer : KeyAnswer) :
    Bool × Option String :=
  match integrity, answer with
  | some _, .resolved true => (true, none)
  | some _, .resolved false => (false, some "signature")
  | some _, .unavailable | some _, .notFound | none, _ => (false, some "missing_public_key")

def logIdHashFields : List String :=
  ["timestamp", "aic", "trace_id", "span_id", "parent_span_id", "correlation_id", "log_type", "body"]

section

variable (π : Platform)

def computeLogIdFallback (rawDict : JsonObject) : Option String :=
  let payload := rawDict.filter fun m => m.1 ∈ logIdHashFields ∧ m.2 ≠ .null
  (π.canonicalize (.obj payload)).map fun canonical =>
    String.ofList ((π.b64encode (π.sha256 canonical)).rdropWhile (· = '='))

def effectiveLogId (record : LogRecord) (rawDict : JsonObject) : Option String :=
  match record.logId with
  | some logId => if logId = "" then computeLogIdFallback π rawDict else some logId
  | none => computeLogIdFallback π rawDict

end

structure Unseen where
  logId : String
  record : LogRecord
  rawDict : JsonObject
  validated : LogRecord.modelValidate rawDict = some record

inductive Phase where
  | idle
  | unseen (m : Unseen)
  | locked (m : Unseen) (answer : KeyAnswer) (chainId : String) (head : AuditChainHead)
  | flushed (row : AuditRecord) (nowUtc : Time)
  | advanced (row : AuditRecord)

structure World where
  identities : Inserts ℕ AuditRecordIdentity
  records : Inserts ℕ AuditRecord
  heads : String → Option (LockedRow ℕ AuditChainHead)
  phase : ℕ → Phase

inductive Act where
  | handleMessage (i : ℕ) (rawDict : JsonObject)
  | lockHead (i : ℕ) (answer : KeyAnswer)
  | flush (i : ℕ) (auditId : Uuid) (committedAt nowUtc : Time)
  | updateHead (i : ℕ)
  | commit (i : ℕ)
  | fail (i : ℕ)

namespace World

variable (s : World) (i : ℕ)

def setPhase (p : Phase) : World := { s with phase := Function.update s.phase i p }

def setHead (chainId : String) (row : LockedRow ℕ AuditChainHead) : World :=
  { s with heads := Function.update s.heads chainId (some row) }

def insertRows (identity : AuditRecordIdentity) (row : AuditRecord) : World :=
  { s with identities := s.identities.push i identity, records := s.records.push i row }

def commit : World :=
  { identities := s.identities.commit i
    records := s.records.commit i
    heads := fun c => (s.heads c).map (·.commit i)
    phase := Function.update s.phase i .idle }

def rollback : World :=
  { identities := s.identities.rollback i
    records := s.records.rollback i
    heads := fun c => (s.heads c).map (·.rollback i)
    phase := Function.update s.phase i .idle }

end World

def AuditRecordIdentity.Clash (a b : AuditRecordIdentity) : Prop :=
  a.auditId = b.auditId ∨ a.logId = b.logId ∨ a.chainId = b.chainId ∧ a.chainSeq = b.chainSeq

instance : DecidableRel AuditRecordIdentity.Clash := fun a b =>
  inferInstanceAs (Decidable (a.auditId = b.auditId ∨ a.logId = b.logId ∨
    a.chainId = b.chainId ∧ a.chainSeq = b.chainSeq))

def auditRow (π : Platform) (m : Unseen) (answer : KeyAnswer) (chainId : String)
    (head : AuditChainHead) (auditId : Uuid) (committedAt nowUtc : Time) : Option AuditRecord := do
  let rawLogHash ← computeRawLogHash π m.rawDict
  let chainSeq := head.lastChainSeq + 1
  let previousHash := if chainSeq > 0 then head.lastCurrentHash else none
  let currentHash ← computeCurrentHash π auditId.str m.logId m.record.timestamp m.record.aic chainId
    chainSeq rawLogHash previousHash
  let body ← bodyColumns (m.record.body.getD [])
  let timestamp ← π.fromIsoFormat m.record.timestamp
  let checked := verification m.record.integrity answer
  let integrity := m.record.integrity.getD { alg := "", kid := "", sig := "" }
  return {
    auditId, logId := m.logId, timestamp, committedAt, aic := m.record.aic, tenantId := none
    traceId := m.record.traceId, correlationId := m.record.correlationId, chainId, chainSeq, body
    signature := {
      alg := integrity.alg, kid := integrity.kid, value := integrity.sig
      verified := checked.1, checkedAt := nowUtc, verificationFailureType := checked.2 }
    hashVersion := 1, rawLogHash, previousHash, currentHash
    chainVerified := none, rawLog := m.rawDict }

def identityRow (row : AuditRecord) (nowUtc : Time) : AuditRecordIdentity :=
  { auditId := row.auditId, logId := row.logId, timestamp := row.timestamp
    committedAt := row.committedAt, chainId := row.chainId, chainSeq := row.chainSeq
    createdAt := nowUtc }

def headAfter (row : AuditRecord) (nowUtc : Time) : AuditChainHead :=
  { lastAuditId := some row.auditId, lastChainSeq := row.chainSeq
    lastCurrentHash := some row.currentHash, updatedAt := nowUtc }

section Steps

variable (π : Platform) (logicalChainCount : ℕ)

def handleMessage (s : World) (i : ℕ) (rawDict : JsonObject) : World :=
  match hrecord : LogRecord.modelValidate rawDict with
  | none => s
  | some record =>
    if record.logType ≠ "audit" then s
    else
      match effectiveLogId π record rawDict with
      | none => s
      | some logId =>
        if ∃ row ∈ s.identities.committed, row.logId = logId then s
        else s.setPhase i (.unseen { logId, record, rawDict, validated := hrecord })

def lockHead (s : World) (i : ℕ) (m : Unseen) (answer : KeyAnswer) : Option World :=
  match computeChainId π m.record.aic logicalChainCount with
  | none => some (s.rollback i)
  | some chainId =>
    match s.heads chainId with
    | none => some (s.rollback i)
    | some row =>
      (row.write i (row.read i)).map fun row' =>
        (s.setHead chainId row').setPhase i (.locked m answer chainId (row.read i))

def flush (s : World) (i : ℕ) (row : AuditRecord) (nowUtc : Time) : Option World :=
  match s.identities.insert AuditRecordIdentity.Clash i (identityRow row nowUtc) with
  | .waits => none
  | .violates => some (s.rollback i)
  | .inserted _ =>
    some ((s.insertRows i (identityRow row nowUtc) row).setPhase i (.flushed row nowUtc))

def updateHead (s : World) (i : ℕ) (row : AuditRecord) (nowUtc : Time) : Option World :=
  match s.heads row.chainId with
  | none => some (s.rollback i)
  | some head =>
    (head.write i (headAfter row nowUtc)).map fun head' =>
      (s.setHead row.chainId head').setPhase i (.advanced row)

def step (s : World) : Act → Option World
  | .handleMessage i rawDict =>
    match s.phase i with
    | .idle => some (handleMessage π s i rawDict)
    | _ => none
  | .lockHead i answer =>
    match s.phase i with
    | .unseen m => lockHead π logicalChainCount s i m answer
    | _ => none
  | .flush i auditId committedAt nowUtc =>
    match s.phase i with
    | .locked m answer chainId head =>
      match auditRow π m answer chainId head auditId committedAt nowUtc with
      | none => some (s.rollback i)
      | some row => flush s i row nowUtc
    | _ => none
  | .updateHead i =>
    match s.phase i with
    | .flushed row nowUtc => updateHead s i row nowUtc
    | _ => none
  | .commit i =>
    match s.phase i with
    | .advanced _ => some (s.commit i)
    | _ => none
  | .fail i =>
    match s.phase i with
    | .idle => none
    | _ => some (s.rollback i)

def writers : Transition.System World Act := ⟨step π logicalChainCount⟩

end Steps

def World.migrated (logicalChainCount : ℕ) (now : Time) : World where
  identities := .empty
  records := .empty
  heads c :=
    if c ∈ (List.range logicalChainCount).map (chainName logicalChainCount) then
      some (.clean { lastAuditId := none, lastChainSeq := -1, lastCurrentHash := none, updatedAt := now })
    else none
  phase _ := .idle

end Acps.Audit
