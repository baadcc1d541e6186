import Mathlib.Logic.Function.Basic
import Acps.Lib.Json
import Acps.Lib.Transition

/-!
The writer of metrics: messages are taken from Kafka into a buffer, the identifiers of a batch are
claimed in Redis, the samples of what was not claimed before are written, and only then are offsets
committed.
-/

namespace Acps.Metrics

structure Message where
  value : List UInt8
  timestamp : Option ℤ
  timestampType : Option ℕ

structure LogRecord where
  aic : String
  logType : String
  logId : Option String
  observedTimestamp : Option String
  body : Option JsonObject
  resource : Option JsonObject

/-- The library calls that a message goes through: the validation of a record, its identifier where
it brings none, the reading of a date, and the samples that its body is expanded to. -/
structure Codec (Sample : Type) where
  loads : List UInt8 → Option Json
  logRecord : Json → Option LogRecord
  logIdFallback : Json → String
  isoMs : String → Option ℤ
  expandMetricsBody : String → JsonObject → Option JsonObject → ℤ → Option (List Sample)

structure PreparedRecord (Sample : Type) where
  logId : String
  observedAtMs : ℤ
  samples : List Sample
  deriving DecidableEq

inductive Parsed (Sample : Type) where
  | skipped
  | invalid
  | record (record : PreparedRecord Sample)

namespace Codec

variable {Sample : Type} (C : Codec Sample)

def extractObservedAt (message : Message) (record : LogRecord) : Option ℤ :=
  match message.timestamp.filter (0 < ·) with
  | some timestamp =>
    if message.timestampType = some 1 then some timestamp
    else (record.observedTimestamp.filter (· ≠ "")).bind C.isoMs
  | none => (record.observedTimestamp.filter (· ≠ "")).bind C.isoMs

def parse (message : Message) : Parsed Sample :=
  if message.value = [] then .skipped
  else
    match C.loads message.value with
    | none => .invalid
    | some rawDict =>
      match C.logRecord rawDict with
      | none => .invalid
      | some record =>
        if record.logType ≠ "metrics" then .skipped
        else
          match C.extractObservedAt message record with
          | none => .invalid
          | some observedAtMs =>
            match C.expandMetricsBody record.aic (record.body.getD []) record.resource
              observedAtMs with
            | none => .invalid
            | some samples => .record
                { logId := (record.logId.filter (· ≠ "")).getD (C.logIdFallback rawDict)
                  observedAtMs, samples }

end Codec

variable {P Sample : Type}

/-- Where the loop is: between two polls, or in a flush whose identifiers are claimed, whose write
was refused (and may have been applied all the same), whose claim is released after that, or whose
samples have been written. -/
inductive Phase (Sample : Type) where
  | polling
  | claimed (kept : List (PreparedRecord Sample))
  | refused (kept : List (PreparedRecord Sample)) (applied : Bool)
  | released
  | written (kept : List (PreparedRecord Sample))
  | cached

/-- The topic with the offsets of the group, a writer, what Remote Write has accepted, and Redis.
`orphans` are the identifiers that a run of the writer left claimed though their samples had not
been accepted; it is only recorded. -/
structure World (P Sample : Type) where
  log : P → List Message
  dlq : List (P × ℕ)
  committed : P → Option ℕ
  position : P → ℕ
  pending : List (PreparedRecord Sample)
  phase : Phase Sample
  accepted : List Sample
  keys : List String
  watermark : Option ℤ
  orphans : List String

def World.initial : World P Sample :=
  { log := fun _ => [], dlq := [], committed := fun _ => none, position := fun _ => 0
    pending := [], phase := .polling, accepted := [], keys := [], watermark := none, orphans := [] }

inductive WriteOutcome where
  | accepted
  | refused (applied : Bool)
  | raised (applied : Bool)

inductive Act (P : Type) where
  | append (p : P) (message : Message)
  | consume (p : P) (dlqUp : Bool)
  | claimLogIds
  | claimRaises (done : ℕ)
  | remoteWrite (outcome : WriteOutcome)
  | releaseLogIds
  | releaseRaises (done : ℕ)
  | seekToCommitted
  | updateCache
  | commit
  | crash
  | expire (logId : String)

section Steps

variable [DecidableEq P] (C : Codec Sample) (s : World P Sample)

def logIds (records : List (PreparedRecord Sample)) : List String :=
  records.map PreparedRecord.logId

def allSamples (records : List (PreparedRecord Sample)) : List Sample :=
  records.flatMap PreparedRecord.samples

def unclaimed (records : List (PreparedRecord Sample)) : List (PreparedRecord Sample) :=
  records.filter fun r => r.logId ∉ s.keys

def seekToCommitted : World P Sample :=
  { s with position := fun p => (s.committed p).getD 0, pending := [], phase := .polling }

def restart (orphans : List String) : World P Sample :=
  { seekToCommitted s with orphans := s.orphans ++ orphans }

def inFlight : List String :=
  match s.phase with
  | .claimed kept | .refused kept false => logIds kept
  | _ => []

def consume (p : P) (dlqUp : Bool) : Option (World P Sample) :=
  match s.phase, (s.log p)[s.position p]? with
  | .polling, some message =>
    let t := { s with position := Function.update s.position p (s.position p + 1) }
    match C.parse message with
    | .skipped => some t
    | .invalid => some (if dlqUp then { t with dlq := s.dlq ++ [(p, s.position p)] } else t)
    | .record record => some { t with pending := s.pending ++ [record] }
  | _, _ => none

def claimLogIds : Option (World P Sample) :=
  match s.phase, s.pending with
  | .polling, _ :: _ =>
    let kept := unclaimed s s.pending
    some { s with
      keys := s.keys ++ logIds kept
      phase := if kept = [] then .cached else .claimed kept }
  | _, _ => none

def claimRaises (done : ℕ) : Option (World P Sample) :=
  match s.phase with
  | .polling =>
    let kept := unclaimed s (s.pending.take done)
    some { restart s (logIds kept) with keys := s.keys ++ logIds kept }
  | _ => none

def remoteWrite (outcome : WriteOutcome) : Option (World P Sample) :=
  match s.phase with
  | .claimed kept =>
    match outcome with
    | .accepted => some { s with accepted := s.accepted ++ allSamples kept, phase := .written kept }
    | .refused applied => some { s with
        accepted := if applied then s.accepted ++ allSamples kept else s.accepted
        phase := .refused kept applied }
    | .raised applied =>
      let t := restart s (if applied then [] else logIds kept)
      some { t with accepted := if applied then s.accepted ++ allSamples kept else s.accepted }
  | _ => none

def releaseLogIds : Option (World P Sample) :=
  match s.phase with
  | .refused kept _ => some { s with
      keys := s.keys.filter (· ∉ logIds kept), phase := .released }
  | _ => none

def releaseRaises (done : ℕ) : Option (World P Sample) :=
  match s.phase with
  | .refused kept applied =>
    let freed := logIds (kept.take done)
    let t := restart s (if applied then [] else (logIds kept).filter (· ∉ freed))
    some { t with keys := s.keys.filter (· ∉ freed) }
  | _ => none

def updateCache : Option (World P Sample) :=
  match s.phase with
  | .written kept => some { s with
      watermark := (s.watermark.toList ++ kept.map PreparedRecord.observedAtMs).max?
      phase := .cached }
  | _ => none

def commit : Option (World P Sample) :=
  match s.phase with
  | .cached => some { s with
      committed := fun p => some (s.position p), pending := [], phase := .polling }
  | _ => none

def step : Act P → Option (World P Sample)
  | .append p message => some { s with log := Function.update s.log p (s.log p ++ [message]) }
  | .consume p dlqUp => consume C s p dlqUp
  | .claimLogIds => claimLogIds s
  | .claimRaises done => claimRaises s done
  | .remoteWrite outcome => remoteWrite s outcome
  | .releaseLogIds => releaseLogIds s
  | .releaseRaises done => releaseRaises s done
  | .seekToCommitted =>
    match s.phase with
    | .released => some (seekToCommitted s)
    | _ => none
  | .updateCache => updateCache s
  | .commit => commit s
  | .crash => some (restart s (inFlight s))
  | .expire logId => some { s with
      keys := s.keys.filter (· ≠ logId), orphans := s.orphans.filter (· ≠ logId) }

def writer : Transition.System (World P Sample) (Act P) := ⟨step C⟩

end Steps

end Acps.Metrics
