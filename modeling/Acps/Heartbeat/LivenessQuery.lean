import Acps.Heartbeat.Analytics
import Acps.Heartbeat.LivenessCursor
import Acps.Monitor.Filter
import Mathlib.Algebra.Order.BigOperators.Group.List
import Mathlib.Data.Rat.Floor

/-!
The list query over the liveness state: a filter becomes a plan, either a list of AICs or a range of
scores, and the plan is run over the shards, page by page.
-/

namespace Acps.Heartbeat

open Monitor (FilterLogic)

inductive QueryValue where
  | null
  | flag (b : Bool)
  | number (q : ℚ)
  | text (s : String)
  | list (values : List QueryValue)

structure QueryCondition where
  field : String
  op : String
  value : QueryValue

inductive LivenessFilter where
  | mk (conditions : List QueryCondition) (groups : List LivenessFilter) (logic : FilterLogic)

def LivenessFilter.conditions : LivenessFilter → List QueryCondition
  | mk conditions _ _ => conditions

structure LivenessQueryRequest where
  filter : Option LivenessFilter
  timeRange : Option (String × String)
  limit : Option ℕ
  cursor : Option String

inductive QueryError where
  | unsupportedField (field : String)
  | queryRequiresSelectiveFilter
  | cursorInvalid
  deriving DecidableEq

inductive LivenessQueryPlan where
  | aicIn (aics : List String)
  | silenceRange (lower : Option ℤ) (upper : ℤ)
  deriving DecidableEq

structure QueryLibrary where
  str : QueryValue → String
  filterFingerprint : LivenessFilter → String
  json : JsonLibrary

section Plan

variable (L : QueryLibrary)

def truncate (q : ℚ) : ℤ := if 0 ≤ q then ⌊q⌋ else ⌈q⌉

def QueryValue.asNumber : QueryValue → Option ℚ
  | .number q => some q
  | .flag b => some (if b then 1 else 0)
  | _ => none

def QueryCondition.aics (c : QueryCondition) : Option (List String) :=
  if c.field = "aic" then
    match c.value with
    | .text s => if c.op = "eq" then some [s] else none
    | .list values => if c.op = "in" then some (values.map L.str) else none
    | _ => none
  else none

def silenceBounds (bounds : Option ℤ × Option ℤ) (c : QueryCondition) : Option ℤ × Option ℤ :=
  if c.field = "silenceDurationSeconds" then
    match c.value.asNumber with
    | none => bounds
    | some q =>
      let v := truncate q * 1000
      if c.op = "gte" then (some v, bounds.2)
      else if c.op = "gt" then (some (v + 1), bounds.2)
      else if c.op = "lte" then (bounds.1, some v)
      else if c.op = "lt" then (bounds.1, some (v - 1))
      else bounds
  else bounds

def planLivenessQuery (request : LivenessQueryRequest) (now : ℤ) :
    Except QueryError LivenessQueryPlan :=
  if request.timeRange.isSome then .error (.unsupportedField "timeRange")
  else match request.filter with
    | none => .error .queryRequiresSelectiveFilter
    | some filter =>
      match filter.conditions.findSome? (QueryCondition.aics L) with
      | some aics => .ok (.aicIn aics)
      | none =>
        match filter.conditions.foldl silenceBounds (none, none) with
        | (none, none) => .error .queryRequiresSelectiveFilter
        | (minSilenceMs, maxSilenceMs) =>
          .ok (.silenceRange (maxSilenceMs.map (now - ·)) (now - minSilenceMs.getD 0))

end Plan

section Run

abbrev StoredEntry := ℕ × String × Latest

structure Scan where
  items : List StoredEntry
  positions : List (Text × ShardPosition)

def inRange (lower : Option ℤ) (upper x : ℤ) : Bool := lower.all (· ≤ x) && decide (x ≤ upper)

def zrevrangeByScore (s : Shard) (lower : Option ℤ) (upper : ℤ) (limit : ℕ) : List (String × ℤ) :=
  ((s.livenessZset.rangeByScore (inRange lower upper)).reverse).take limit

def mgetEntries (s : Shard) (shard : ℕ) (aics : List String) : List StoredEntry :=
  aics.filterMap fun aic => (s.latest aic).map fun row => (shard, aic, row)

def scanShard (sharding : Sharding) (f : Fleet) (lower : Option ℤ) (upper : ℤ) (limit : ℕ)
    (cursor : List (Text × ShardPosition)) (scan : Scan) (shard : ℕ) : Scan :=
  if scan.items.length ≥ limit then scan
  else
    let name := shardId shard sharding.shardCount
    let upper := (cursor.lookup name).elim upper fun pos => pos.lastSeenAtMs - 1
    let found := zrevrangeByScore (f shard) lower upper (limit - scan.items.length)
    match found.getLast? with
    | none => scan
    | some (lastAic, lastScore) =>
      ⟨scan.items ++ mgetEntries (f shard) shard (found.map Prod.fst),
        scan.positions ++ [(name, ⟨lastScore, lastAic⟩)]⟩

def scanShards (sharding : Sharding) (f : Fleet) (lower : Option ℤ) (upper : ℤ) (limit : ℕ)
    (cursor : List (Text × ShardPosition)) : Scan :=
  (List.range sharding.shardCount).foldl (scanShard sharding f lower upper limit cursor) ⟨[], []⟩

def queryEntries (L : QueryLibrary) (sharding : Sharding) (f : Fleet) (now : ℤ)
    (request : LivenessQueryRequest) : Except QueryError (List StoredEntry × Option String) := do
  match ← planLivenessQuery L request now with
  | .aicIn aics =>
    return ((shardAics sharding aics).flatMap fun (shard, aics) => mgetEntries (f shard) shard aics,
      none)
  | .silenceRange lower upper =>
    let fingerprint := (request.filter.map L.filterFingerprint).getD ""
    let cursor ← match request.cursor.filter (· ≠ "") with
      | none => pure []
      | some raw =>
        (decodeCursor L.json raw fingerprint).elim (.error .cursorInvalid) fun c => .ok c.positions
    let scan := scanShards sharding f lower upper (request.limit.getD 50) cursor
    return (scan.items,
      if scan.positions = [] then none else some (encodeCursor L.json ⟨scan.positions, fingerprint⟩))

end Run

section Meaning

structure LivenessView where
  aic : String
  isAlive : Bool
  livenessState : String
  lastSeenAt : String
  sourceTimestamp : Option String
  silenceDurationSeconds : ℤ

def reportedSeconds (silenceMs : ℤ) : ℤ := max 0 (silenceMs.tdiv 1000)

def buildView (msToIso : ℤ → String) (silenceThresholdSeconds now : ℤ) (aic : String)
    (row : Latest) : LivenessView :=
  let silenceMs := now - row.lastSeenAtMs
  let isAlive : Bool := silenceMs ≤ silenceThresholdSeconds * 1000
  { aic
    isAlive
    livenessState := if isAlive then "alive" else "silent"
    lastSeenAt := row.lastSeenAt
    sourceTimestamp := row.sourceTimestampMs.map msToIso
    silenceDurationSeconds := reportedSeconds silenceMs }

def entryView (msToIso : ℤ → String) (silenceThresholdSeconds now : ℤ) (e : StoredEntry) : LivenessView :=
  buildView msToIso silenceThresholdSeconds now e.2.1 e.2.2

def queryLiveness (L : QueryLibrary) (msToIso : ℤ → String) (silenceThresholdSeconds : ℤ)
    (sharding : Sharding) (f : Fleet) (now : ℤ) (request : LivenessQueryRequest) :
    Except QueryError (List LivenessView × Option String) :=
  (queryEntries L sharding f now request).map fun (items, nextCursor) =>
    (items.map (entryView msToIso silenceThresholdSeconds now), nextCursor)

def LivenessView.field (v : LivenessView) (name : String) : Option QueryValue :=
  if name = "aic" then some (.text v.aic)
  else if name = "isAlive" then some (.flag v.isAlive)
  else if name = "livenessState" then some (.text v.livenessState)
  else if name = "lastSeenAt" then some (.text v.lastSeenAt)
  else if name = "sourceTimestamp" then some (v.sourceTimestamp.elim .null .text)
  else if name = "silenceDurationSeconds" then some (.number v.silenceDurationSeconds)
  else none

def QueryValue.same : QueryValue → QueryValue → Bool
  | .text s, .text t => s = t
  | .flag a, .flag b => a = b
  | .number p, .number q => p = q
  | .null, .null => true
  | _, _ => false

def QueryValue.less : QueryValue → QueryValue → Bool
  | .text s, .text t => s < t
  | .number p, .number q => p < q
  | _, _ => false

def relates (reported value : QueryValue) (op : String) : Bool :=
  if op = "eq" then reported.same value
  else if op = "ne" then !reported.same value
  else if op = "gt" then value.less reported
  else if op = "gte" then value.less reported || reported.same value
  else if op = "lt" then reported.less value
  else if op = "lte" then reported.less value || reported.same value
  else
    match reported, value with
    | reported, .list values =>
      if op = "in" then values.any reported.same
      else if op = "nin" then !values.any reported.same
      else false
    | .text s, .text t =>
      if op = "contains" then decide (t.toList <:+: s.toList)
      else if op = "starts_with" then decide (t.toList <+: s.toList)
      else false
    | .null, .flag b => op = "is_null" && b
    | _, .flag b => op = "is_null" && !b
    | _, _ => false

def QueryCondition.holds (v : LivenessView) (c : QueryCondition) : Bool :=
  (v.field c.field).any fun reported => relates reported c.value c.op

mutual

def LivenessFilter.sat (v : LivenessView) : LivenessFilter → Bool
  | .mk conditions groups logic =>
    logic.combine (conditions.map (QueryCondition.holds v) ++ satAll v groups)

def satAll (v : LivenessView) : List LivenessFilter → List Bool
  | [] => []
  | f :: fs => f.sat v :: satAll v fs

end

end Meaning

section Unpaged

variable {L : QueryLibrary} {sharding : Sharding} {f : Fleet} {now : ℤ}

structure Stored (sharding : Sharding) (f : Fleet) (e : StoredEntry) : Prop where
  shard : e.1 < sharding.shardCount
  row : (f e.1).latest e.2.1 = some e.2.2

namespace Sample

def queryLibrary : QueryLibrary where
  str v := match v with
    | .text s => s
    | _ => ""
  filterFingerprint _ := ""
  json := plainJson

end Sample

section Bounds

variable {v silenceMs : ℤ}

theorem lt_reportedSeconds_iff (hv : 0 ≤ v) :
    v < reportedSeconds silenceMs ↔ (v + 1) * 1000 ≤ silenceMs := by
  unfold reportedSeconds
  by_cases hpast : 0 ≤ silenceMs
  · rw [Int.tdiv_eq_ediv_of_nonneg hpast]
    omega
  · have hneg : silenceMs.tdiv 1000 ≤ 0 := by
      have := Int.tdiv_nonneg (a := -silenceMs) (b := 1000) (by omega) (by decide)
      rw [Int.neg_tdiv] at this
      omega
    omega

theorem gt_bound_iff (hv : 0 ≤ v) : (v * 1000 + 1 ≤ silenceMs ↔ v < reportedSeconds silenceMs) ↔
    ¬ (v * 1000 < silenceMs ∧ silenceMs < (v + 1) * 1000) := by
  have h := @lt_reportedSeconds_iff v silenceMs hv
  omega

theorem lte_bound_iff (hv : 0 ≤ v) : (silenceMs ≤ v * 1000 ↔ reportedSeconds silenceMs ≤ v) ↔
    ¬ (v * 1000 < silenceMs ∧ silenceMs < (v + 1) * 1000) := by
  have h := @lt_reportedSeconds_iff v silenceMs hv
  omega

end Bounds

end Unpaged

end Acps.Heartbeat
