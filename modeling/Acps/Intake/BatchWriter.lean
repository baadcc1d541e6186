import Acps.Lib.Json
import Acps.Lib.Transition
import Mathlib.Logic.Function.Basic

/-!
The batch writers of messages and of accesses: records are taken from Kafka into a buffer, the
buffer is inserted as a whole, the watermarks of its partitions are advanced, and only then are
offsets committed.
-/

namespace Acps.Intake

abbrev Time := ℤ

/-- The library calls and the record types that a writer goes through: the validation of a log
record with the `log_id` that it has or is given, and that of its body with the row made of it. -/
structure Codec (Row : Type) where
  loads : List UInt8 → Option Json
  logId : JsonObject → Option String
  eventRow : JsonObject → Option Row
  timestampMs : Row → Time

structure Format (Row : Type) extends Codec Row where
  logType : String

variable {P Row : Type}

def messageFormat (C : Codec Row) : Format Row := { C with logType := "message" }

def accessFormat (C : Codec Row) : Format Row := { C with logType := "access" }

inductive Parsed (Row : Type) where
  | skipped
  | invalid
  | record (logId : String) (row : Option Row)
  deriving DecidableEq

def Format.parseObject (F : Format Row) (rawDict : JsonObject) : Parsed Row :=
  if rawDict.get "log_type" ≠ some (.str F.logType) then .skipped
  else
    match F.logId rawDict with
    | none => .invalid
    | some logId => .record logId (F.eventRow rawDict)

def Format.parse (F : Format Row) (value : List UInt8) : Parsed Row :=
  if value = [] then .skipped
  else
    match F.loads value with
    | some (.obj rawDict) => F.parseObject rawDict
    | _ => .invalid

structure PreparedRecord (P Row : Type) where
  logId : String
  partition : P
  timestampMs : Time
  row : Row

/-- Where the loop is: between two polls, or in a flush whose insert is done, with the watermarks
that are still to be advanced and the identifiers to be marked. -/
inductive Phase (P : Type) where
  | polling
  | flushed (now : Time) (todo : List (P × Time)) (kept : List String)

/-- A writer with the topic, the group's offsets, ClickHouse and Redis. `written` is how much of
each partition there was when a watermark was last written. -/
structure World (P Row : Type) where
  log : P → List (List UInt8)
  dlq : List (P × ℕ)
  committed : P → Option ℕ
  position : P → ℕ
  highwater : P → Option ℕ
  pending : List (PreparedRecord P Row)
  phase : Phase P
  events : List (PreparedRecord P Row)
  marks : List String
  partitions : List P
  watermark : P → Option Time
  written : P → ℕ

namespace World

variable (s : World P Row)

def batchLogIds : List String := s.pending.map PreparedRecord.logId

def insertedIds : List String := s.events.map PreparedRecord.logId

def readEventsWatermark : Option Time := (s.partitions.mapM s.watermark).bind List.min?

end World

inductive InsertOutcome where
  | inserted
  | failed (applied : Bool)
  deriving DecidableEq

inductive Act (P : Type) where
  | append (p : P) (value : List UInt8)
  | fetched (p : P)
  | consume (p : P) (dlqUp : Bool)
  | flush (redisUp : Bool) (outcome : InsertOutcome) (now : Time)
  | advancePartitionWatermark
  | markSeenAndCommit (marked : List String)
  | advanceIdlePartition (p : P) (now : Time)
  | expire (logId : String)

section Steps

variable [DecidableEq P] (F : Format Row) (s : World P Row)

def handleMessage (p : P) (value : List UInt8) : Option (List (PreparedRecord P Row)) :=
  match F.parse value with
  | .skipped => some s.pending
  | .invalid => none
  | .record logId row =>
    if logId ∈ s.batchLogIds then some s.pending
    else row.map fun row =>
      s.pending ++ [{ logId, partition := p, timestampMs := F.timestampMs row, row }]

def consume (p : P) (dlqUp : Bool) : Option (World P Row) :=
  match s.phase, (s.log p)[s.position p]? with
  | .polling, some value =>
    let t := { s with position := Function.update s.position p (s.position p + 1) }
    match handleMessage F s p value with
    | some pending => some { t with pending }
    | none => some (if dlqUp then { t with dlq := s.dlq ++ [(p, s.position p)] } else t)
  | _, _ => none

def filterUnseen (redisUp : Bool) : List (PreparedRecord P Row) :=
  s.pending.filter fun r => ¬ redisUp ∨ r.logId ∉ s.marks

def partitionMaxTs (kept : List (PreparedRecord P Row)) : List (P × Time) :=
  (kept.map PreparedRecord.partition).eraseDups.map fun p =>
    (p, (kept.filter (·.partition = p)).foldl (fun m r => max m r.timestampMs) 0)

def seekToCommitted : World P Row :=
  { s with position := fun p => (s.committed p).getD (s.position p) }

def flushBatch (redisUp : Bool) (outcome : InsertOutcome) (now : Time) : Option (World P Row) :=
  match s.phase, s.pending with
  | .polling, _ :: _ =>
    let kept := filterUnseen s redisUp
    if kept = [] then some { s with phase := .flushed now [] [] }
    else
      match outcome with
      | .inserted => some { s with
          events := s.events ++ kept
          phase := .flushed now (partitionMaxTs kept) (kept.map PreparedRecord.logId) }
      | .failed applied => some { seekToCommitted s with
          events := if applied then s.events ++ kept else s.events
          pending := [] }
  | _, _ => none

def setWatermark (p : P) (value : Time) : World P Row :=
  { s with
    watermark := Function.update s.watermark p (some value)
    partitions := if p ∈ s.partitions then s.partitions else s.partitions ++ [p]
    written := fun q => (s.log q).length }

def watermarkWrite : Act P → Option (P × Time)
  | .advancePartitionWatermark =>
    match s.phase with
    | .flushed now ((p, batchMaxTs) :: _) _ =>
      some (p, min now (max ((s.watermark p).getD 0) batchMaxTs))
    | _ => none
  | .advanceIdlePartition p now => some (p, max ((s.watermark p).getD 0) now)
  | _ => none

def advancePartitionWatermark : Option (World P Row) :=
  match s.phase with
  | .flushed now ((p, batchMaxTs) :: todo) kept =>
    some { setWatermark s p (min now (max ((s.watermark p).getD 0) batchMaxTs)) with
      phase := .flushed now todo kept }
  | _ => none

def markSeenAndCommit (marked : List String) : Option (World P Row) :=
  match s.phase with
  | .flushed _ [] kept =>
    if ∀ logId ∈ marked, logId ∈ kept then
      some { s with
        marks := s.marks ++ marked
        committed := fun p => some (s.position p)
        pending := []
        phase := .polling }
    else none
  | _ => none

def advanceIdlePartition (p : P) (now : Time) : Option (World P Row) :=
  match s.phase with
  | .polling =>
    if (s.highwater p).any (· ≤ s.position p) then
      some (setWatermark s p (max ((s.watermark p).getD 0) now))
    else none
  | .flushed _ _ _ => none

def step : Act P → Option (World P Row)
  | .append p value => some { s with log := Function.update s.log p (s.log p ++ [value]) }
  | .fetched p => some { s with highwater := Function.update s.highwater p (s.log p).length }
  | .consume p dlqUp => consume F s p dlqUp
  | .flush redisUp outcome now => flushBatch s redisUp outcome now
  | .advancePartitionWatermark => advancePartitionWatermark s
  | .markSeenAndCommit marked => markSeenAndCommit s marked
  | .advanceIdlePartition p now => advanceIdlePartition s p now
  | .expire logId => some { s with marks := s.marks.filter (· ≠ logId) }

def writer : Transition.System (World P Row) (Act P) := ⟨step F⟩

end Steps

end Acps.Intake
