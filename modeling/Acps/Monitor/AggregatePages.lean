import Acps.Monitor.EventPages
import Mathlib.Data.List.Dedup
import Mathlib.Data.List.MinMax
import Mathlib.Data.List.Permutation

/-!
The lifecycles, the dead letters and the operations page by page: a page begins behind a bound that
is met by a row that comes first in any one of several columns.
-/

namespace Acps.Monitor

inductive AggregateApi where
  | lifecycles
  | deadletters
  | operations
  deriving DecidableEq

section Values

inductive Value where
  | int (n : ℕ)
  | float (x : ℚ)
  | time (ms : ℕ)
  | text (s : String)
  deriving DecidableEq

namespace Value

def sortKey : Value → SortKey
  | int n => toLex ((n : ℚ), "")
  | float x => toLex (x, "")
  | time ms => toLex ((ms : ℚ), "")
  | text s => toLex (0, s)

def beside (v : Value) : Value → Value
  | int n =>
    match v with
    | time _ => time (n * 1000)
    | float _ => float n
    | int _ | text _ => int n
  | w => w

def less : Value → Value → Bool
  | int m, int n => m < n
  | float x, float y => x < y
  | time s, time t => s < t
  | text s, text t => s < t
  | _, _ => false

end Value

inductive ParamType where
  | int64
  | string
  deriving DecidableEq

structure Atom where
  column : String
  order : SortOrder
  type : ParamType
  value : Option Value
  deriving DecidableEq

namespace Atom

def accepted (a : Atom) : Bool :=
  match a.type, a.value with
  | .int64, some (.int _) => true
  | .int64, _ => false
  | .string, v => v.isSome

def holds (a : Atom) (v : Value) : Bool :=
  a.value.any fun w =>
    match a.order with
    | .desc => v.less (v.beside w)
    | .asc => (v.beside w).less v

end Atom

structure AggregateCursor where
  sortValue : Option Value
  tiebreak : List (String × Value)
  fingerprint : String

end Values

end Acps.Monitor

namespace Acps.Message

open Monitor

def toEpochMs : Option Value → ℕ
  | some (.int n) => n
  | some (.float x) => ⌊x⌋₊
  | some (.time ms) => Monitor.toEpochMs ms
  | some (.text _) | none => 0

def toKeysetBound (c : AggregateCursor) : List ResolvedSort → List Atom
  | [] => []
  | s :: _ =>
    { column := s.columnOrAlias, order := s.order, type := .int64
      value := some (.int (toEpochMs c.sortValue)) } ::
    c.tiebreak.map fun p =>
      { column := p.1, order := .desc, type := .string, value := some p.2 }

structure Lifecycle where
  firstSeenAt : ℕ
  lastSeenAt : ℕ
  deadLetteredAt : Option ℕ
  receiveCount : ℕ
  deadLettered : Bool
  lifecycleKey : String
  compactedAt : ℕ
  columns : Row
  firstSeenAt_lt : firstSeenAt < 10413792000000
  lastSeenAt_lt : lastSeenAt < 10413792000000
  deadLetteredAt_lt : ∀ t ∈ deadLetteredAt, t < 10413792000000
  receiveCount_lt : receiveCount < 2 ^ 32

namespace Lifecycle

def row (l : Lifecycle) : Row := fun column =>
  if column = "lifecycle_key" then .text l.lifecycleKey
  else if column = "dead_lettered" then .num l.deadLettered.toNat
  else l.columns column

def logicalKey (l : Lifecycle) : List Cell := lifecycleLogicalKey.map l.row

def value (column : String) (l : Lifecycle) : Option Value :=
  if column = "last_seen_at" then some (.time l.lastSeenAt)
  else if column = "first_seen_at" then some (.time l.firstSeenAt)
  else if column = "dead_lettered_at" then l.deadLetteredAt.map .time
  else if column = "receive_count" then some (.int l.receiveCount)
  else if column = "lifecycle_key" then some (.text l.lifecycleKey)
  else none

end Lifecycle

def highSelectivityFields : List String := ["messageId", "lifecycleKey", "correlationId", "traceId"]

def Selective (filter : Option AMPFilter) : Prop :=
  ∃ f ∈ filter, (∃ c ∈ f.conditions, c.field ∈ highSelectivityFields) ∨
    (∃ c ∈ f.conditions, c.field = "system") ∧ ∃ c ∈ f.conditions, c.field = "destination.name"

instance (filter : Option AMPFilter) : Decidable (Selective filter) := by
  unfold Selective
  infer_instance

end Acps.Message

namespace Acps.Access

open Monitor

def toKeysetBound (c : AggregateCursor) : List ResolvedSort → List Atom
  | [] => []
  | s :: _ =>
    { column := s.columnOrAlias, order := s.order, type := .int64, value := c.sortValue } ::
    c.tiebreak.map fun p =>
      { column := p.1, order := .desc, type := .string, value := some p.2 }

structure Operation where
  group : Option ℕ × List Cell
  requestCount : ℕ
  errorCount : ℕ
  avgDurationMs : ℚ
  p95DurationMs : ℚ
  lastSeenAt : ℕ

namespace Operation

def value (column : String) (o : Operation) : Option Value :=
  if column = "request_count" then some (.int o.requestCount)
  else if column = "error_count" then some (.int o.errorCount)
  else if column = "avg_duration_ms" then some (.float o.avgDurationMs)
  else if column = "last_seen_at" then some (.time o.lastSeenAt)
  else if column = "error_rate" then
    some (.float (Binary64.round (o.errorCount / o.requestCount)))
  else if column = "p95_duration_ms" then some (.float o.p95DurationMs)
  else none

end Operation

end Acps.Access

namespace Acps.Monitor

section Queries

structure Aggregation where
  argMax : List Message.Lifecycle → Message.Lifecycle
  quantileTDigest : List Event → ℚ

structure AggregateSettings where
  lifecycleRetentionDays : ℕ
  deadletterQueryMaxN : ℕ
  errorStatusThreshold : ℕ
  deadletterQueryMaxN_pos : 0 < deadletterQueryMaxN

structure AggregateQuery where
  fromMs : ℕ
  toMs : ℕ
  filter : Option AMPFilter
  sort : Option (List AMPSortSpec)
  groupBy : List String
  bucket : Option (ℕ → ℕ)
  minRequestCount : ℕ
  limit : ℕ
  fromMs_gt : 2 ^ 40 < fromMs
  limit_ge : 1 ≤ limit
  limit_le : limit ≤ 500

inductive AggregateQueryError where
  | filter (e : FilterError)
  | lifecycleKeyRequired
  | cursorInvalid
  | readModelLagging

variable (A : Aggregation) (settings : AggregateSettings) (store : Store) (q : AggregateQuery)

def lifecycleGroups (inner : List Fragment) (versions : List Message.Lifecycle) :
    List Message.Lifecycle :=
  let kept := versions.filter fun l => (∀ c ∈ inner, c.eval store l.row) ∧
    q.fromMs ≤ l.firstSeenAt + settings.lifecycleRetentionDays * 86400000
  (kept.map (·.logicalKey)).dedup.map fun k => A.argMax (kept.filter (·.logicalKey = k))

def operationsDimCols : List (String × List String) :=
  [("aic", ["aic"]), ("service", ["service_name"]), ("endpoint", ["request_method", "request_route"])]

def groupOf (e : Event) : Option ℕ × List Cell :=
  (q.bucket.map fun bucket => bucket e.timestamp,
    (q.groupBy.flatMap fun g => (operationsDimCols.lookup g).getD []).map e.row)

def Cell.count : Cell → ℕ
  | .num n => n.toNat
  | _ => 0

def summarize (group : Option ℕ × List Cell) (events : List Event) : Access.Operation where
  group := group
  requestCount := events.length
  errorCount := events.countP fun e =>
    settings.errorStatusThreshold ≤ (e.row "response_status").count ∨
      e.row "error_code" ≠ .text ""
  avgDurationMs :=
    Binary64.round (((events.map fun e => (e.row "duration_ms").count).sum : ℚ) / events.length)
  p95DurationMs := A.quantileTDigest events
  lastSeenAt := ((events.map (·.timestamp)).max?).getD 0

def operationGroups (clauses : List Fragment) (events : List Event) : List Access.Operation :=
  let kept := events.filter fun e =>
    q.fromMs ≤ e.timestamp ∧ e.timestamp < q.toMs ∧ ∀ c ∈ clauses, c.eval store e.row
  (kept.map (groupOf q)).dedup.map fun k =>
    summarize A settings k (kept.filter fun e => groupOf q e = k)

def AggregateQuery.InRange (ms : ℕ) : Prop := q.fromMs ≤ ms ∧ ms ≤ q.toMs

instance (ms : ℕ) : Decidable (q.InRange ms) := inferInstanceAs (Decidable (_ ∧ _))

namespace AggregateApi

def Source : AggregateApi → Type
  | lifecycles | deadletters => Message.Lifecycle
  | operations => Event

def Group : AggregateApi → Type
  | lifecycles | deadletters => Message.Lifecycle
  | operations => Access.Operation

def validateSort : AggregateApi → Option (List AMPSortSpec) → Except FilterError (List ResolvedSort)
  | lifecycles => Message.validateSort "lifecycles"
  | deadletters => Message.validateSort "deadletters"
  | operations => Access.validateSort "operations"

def orderBy : AggregateApi → List ResolvedSort → List ResolvedSort
  | lifecycles | deadletters => fun sort => sort
  | operations => fun sort => Access.buildOrderBy sort none

def compile : AggregateApi → Except AggregateQueryError (List Fragment × List Fragment)
  | lifecycles => do
    Fallible.require (Message.Selective q.filter) .lifecycleKeyRequired
    (q.filter.elim (.ok ([], [])) (Message.splitLifecycleWhere "lifecycles")).mapError .filter
  | deadletters => do
    Fallible.require (Message.Selective q.filter) .lifecycleKeyRequired
    (q.filter.elim (.ok ([], [])) (Message.splitLifecycleWhere "deadletters")).mapError .filter
  | operations => do
    Fallible.require (∀ g ∈ q.groupBy, (operationsDimCols.lookup g).isSome) (.filter .invalidFilter)
    let clauses ← (q.filter.elim (.ok [])
      (Access.compileFilter "operations" Access.eventFilterFields)).mapError .filter
    return (clauses, [])

def value : (api : AggregateApi) → String → api.Group → Option Value
  | lifecycles | deadletters => Message.Lifecycle.value
  | operations => Access.Operation.value

def columns : AggregateApi → List String
  | lifecycles | deadletters =>
    ["last_seen_at", "first_seen_at", "dead_lettered_at", "receive_count", "lifecycle_key"]
  | operations => ["request_count", "error_count", "avg_duration_ms", "last_seen_at"]

def limit : AggregateApi → ℕ
  | lifecycles | operations => q.limit
  | deadletters => min q.limit settings.deadletterQueryMaxN

def matching (w : List Fragment × List Fragment) :
    (api : AggregateApi) → List api.Source → List (api.Group × ℕ)
  | lifecycles => fun table =>
    (lifecycleGroups A settings store q w.1 table).zipIdx.filter fun l =>
      q.InRange l.1.lastSeenAt ∧ ∀ c ∈ w.2, c.eval store l.1.row
  | deadletters => fun table =>
    (lifecycleGroups A settings store q w.1 table).zipIdx.filter fun l =>
      l.1.deadLettered ∧ (∃ ms ∈ l.1.deadLetteredAt, q.InRange ms) ∧
        ∀ c ∈ w.2, c.eval store l.1.row
  | operations => fun table =>
    (operationGroups A settings store q w.1 table).zipIdx.filter fun o =>
      q.minRequestCount ≤ o.1.requestCount

def cursorOf (sort : List ResolvedSort) (fingerprint : String) :
    (api : AggregateApi) → api.Group → AggregateCursor
  | lifecycles => fun last =>
    { sortValue := some (.time last.lastSeenAt)
      tiebreak :=
        [("last_seen_at", .time last.lastSeenAt), ("lifecycle_key", .text last.lifecycleKey)]
      fingerprint }
  | deadletters => fun last =>
    { sortValue := some (last.deadLetteredAt.elim (.text "") .time)
      tiebreak :=
        [("dead_lettered_at", last.deadLetteredAt.elim (.text "") .time),
          ("lifecycle_key", .text last.lifecycleKey)]
      fingerprint }
  | operations => fun last =>
    { sortValue := (sort.head?.map (·.columnOrAlias)).elim (some (.int last.requestCount)) fun column =>
        last.value column
      tiebreak := [("last_seen_at", .time last.lastSeenAt)]
      fingerprint }

def toKeysetBound : AggregateApi → AggregateCursor → List ResolvedSort → List Atom
  | lifecycles | deadletters => Message.toKeysetBound
  | operations => Access.toKeysetBound

variable (api : AggregateApi)

def key (column : String) (r : api.Group) : SortKey :=
  (api.value column r).elim (toLex (0, "")) Value.sortKey

def GroupLe (sort : List ResolvedSort) (a b : api.Group × ℕ) : Prop := SortLe api.key sort a.1 b.1

def Passes (bound : List Atom) (r : api.Group × ℕ) : Prop :=
  bound = [] ∨ ∃ a ∈ bound, ∃ v ∈ api.value a.column r.1, a.holds v = true

instance (bound : List Atom) (r : api.Group × ℕ) : Decidable (api.Passes bound r) :=
  inferInstanceAs (Decidable (_ ∨ _))

theorem passes_cons_iff {a : Atom} {rest : List Atom} {r : api.Group × ℕ} :
    api.Passes (a :: rest) r ↔ (∃ v ∈ api.value a.column r.1, a.holds v = true) ∨
      ∃ b ∈ rest, ∃ v ∈ api.value b.column r.1, b.holds v = true := by
  unfold Passes
  rw [or_iff_right (List.cons_ne_nil a rest)]
  exact List.exists_mem_cons_iff _ a rest

end AggregateApi

abbrev GroupSorters (api : AggregateApi) :=
  ∀ orderBy : List ResolvedSort, Sorter (api.GroupLe orderBy)

structure AggregatePage (api : AggregateApi) where
  rows : List (api.Group × ℕ)
  nextCursor : Option AggregateCursor

def decodeAggregateCursor (expectedFingerprint : String) :
    Option AggregateCursor → Except AggregateQueryError (Option AggregateCursor)
  | none => .ok none
  | some c => if c.fingerprint = expectedFingerprint then .ok (some c) else .error .cursorInvalid

variable {api : AggregateApi} (D : GroupSorters api) (queryFingerprint : AggregateQuery → String)
  (table : List api.Source)

def aggregatePageOf (sort : List ResolvedSort) (rows : List (api.Group × ℕ)) : AggregatePage api :=
  if api.limit settings q < rows.length then
    { rows := rows.take (api.limit settings q)
      nextCursor := (rows.take (api.limit settings q)).getLast?.map fun last =>
        api.cursorOf sort (queryFingerprint q) last.1 }
  else { rows, nextCursor := none }

def queryAggregates (cursor : Option AggregateCursor) :
    Except AggregateQueryError (AggregatePage api) := do
  let w ← api.compile q
  let sort ← (api.validateSort q.sort).mapError .filter
  let state ← decodeAggregateCursor (queryFingerprint q) cursor
  let bound := state.elim [] fun c => api.toKeysetBound c sort
  Fallible.require ((w.1 ++ w.2).all (Fragment.accepts store) ∧
    (∀ s ∈ sort, s.columnOrAlias ∈ api.columns) ∧ bound.all Atom.accepted) .readModelLagging
  let selected := (api.matching A settings store q w table).filter (api.Passes bound)
  let rows := ((D (api.orderBy sort)).order selected).take (api.limit settings q + 1)
  return aggregatePageOf settings q queryFingerprint sort rows

def followAggregates : ℕ → Option AggregateCursor →
    Option (Except AggregateQueryError (List (List (api.Group × ℕ))))
  | 0, _ => none
  | fuel + 1, cursor =>
    match queryAggregates A settings store q D queryFingerprint table cursor with
    | .error e => some (.error e)
    | .ok page =>
      match page.nextCursor with
      | none => some (.ok [page.rows])
      | some next => (followAggregates fuel (some next)).map fun rest => rest.map (page.rows :: ·)

/-- Following the cursors from the first page ends, with each matching row once and in order. -/
def AggregatesPaged (sort : List ResolvedSort) (w : List Fragment × List Fragment) : Prop :=
  ∃ fuel pages,
    followAggregates A settings store q D queryFingerprint table fuel none = some (.ok pages) ∧
      pages.flatten.Perm (api.matching A settings store q w table) ∧
      pages.flatten.Pairwise (api.GroupLe sort)

end Queries

section Pages

variable {A : Aggregation} {settings : AggregateSettings} {store : Store} {q : AggregateQuery}
  {api : AggregateApi} {D : GroupSorters api} {queryFingerprint : AggregateQuery → String}
  {table : List api.Source} {sort : List ResolvedSort} {w : List Fragment × List Fragment}

namespace AggregateApi

structure Accepted (api : AggregateApi) (store : Store) (q : AggregateQuery)
    (sort : List ResolvedSort) (w : List Fragment × List Fragment) : Prop where
  compile : api.compile q = .ok w
  validateSort : api.validateSort q.sort = .ok sort
  accepts : (w.1 ++ w.2).all (Fragment.accepts store) = true

def Known (api : AggregateApi) (sort : List ResolvedSort) : Prop :=
  ∀ s ∈ sort, s.columnOrAlias ∈ api.columns

instance (sort : List ResolvedSort) : Decidable (api.Known sort) := by
  unfold Known
  infer_instance

def Comparable : AggregateApi → List ResolvedSort → Prop
  | lifecycles, _ | deadletters, _ => True
  | operations, sort => ∀ s ∈ sort.head?, s.columnOrAlias ∈ ["request_count", "error_count"]

theorem orderBy_eq (api : AggregateApi) (sort : List ResolvedSort) : api.orderBy sort = sort := by
  cases api with
  | lifecycles | deadletters => rfl
  | operations => exact List.append_nil sort

theorem accepted_bound_iff (hknown : api.Known sort) (fingerprint : String) (last : api.Group) :
    (api.toKeysetBound (api.cursorOf sort fingerprint last) sort).all Atom.accepted = true ↔
      api.Comparable sort := by
  cases sort with
  | nil => cases api <;> exact iff_of_true rfl (by simp [Comparable])
  | cons s rest =>
    cases api with
    | lifecycles | deadletters => exact iff_of_true rfl trivial
    | operations =>
      have hcolumn := hknown s List.mem_cons_self
      simp only [columns, List.mem_cons, List.not_mem_nil, or_false] at hcolumn
      rcases hcolumn with h | h | h | h <;>
        simp [toKeysetBound, Access.toKeysetBound, cursorOf, Access.Operation.value, Atom.accepted,
          Comparable, h]

end AggregateApi

open AggregateApi

def behindGroup (api : AggregateApi) (q : AggregateQuery) (queryFingerprint : AggregateQuery → String)
    (sort : List ResolvedSort) (last r : api.Group × ℕ) : Bool :=
  api.Passes (api.toKeysetBound (api.cursorOf sort (queryFingerprint q) last.1) sort) r

theorem behindGroup_iff {last r : api.Group × ℕ} :
    behindGroup api q queryFingerprint sort last r = true ↔
      api.Passes (api.toKeysetBound (api.cursorOf sort (queryFingerprint q) last.1) sort) r :=
  decide_eq_true_iff

theorem decodeAggregateCursor_cursorOf (last : api.Group) :
    decodeAggregateCursor (queryFingerprint q) (some (api.cursorOf sort (queryFingerprint q) last)) =
      .ok (some (api.cursorOf sort (queryFingerprint q) last)) := by
  refine if_pos ?_
  cases api <;> rfl

theorem queryAggregates_eq (h : api.Accepted store q sort w) {cursor : Option AggregateCursor}
    (hcursor : decodeAggregateCursor (queryFingerprint q) cursor = .ok cursor) :
    queryAggregates A settings store q D queryFingerprint table cursor =
      if api.Known sort ∧
          (cursor.elim [] fun c => api.toKeysetBound c sort).all Atom.accepted then
        .ok (aggregatePageOf settings q queryFingerprint sort ((D (api.orderBy sort)).order
          ((api.matching A settings store q w table).filter
            (api.Passes (cursor.elim [] fun c => api.toKeysetBound c sort)))))
      else .error .readModelLagging := by
  unfold queryAggregates
  rw [h.compile, h.validateSort, hcursor]
  simp only [Except.mapError, Fallible.ok_bind]
  unfold Fallible.require
  by_cases haccepted : api.Known sort ∧
      (cursor.elim [] fun c => api.toKeysetBound c sort).all Atom.accepted
  · rw [if_pos haccepted, if_pos ⟨h.accepts, haccepted⟩]
    refine congrArg Except.ok ?_
    unfold aggregatePageOf
    rw [List.length_take, List.take_take, Nat.min_eq_left (Nat.le_succ _)]
    split
    · rw [if_pos (by omega)]
    · rw [if_neg (by omega), List.take_of_length_le (by omega)]
  · rw [if_neg haccepted, if_neg fun hall => haccepted hall.2]
    rfl

theorem filter_passes_nil (rows : List (api.Group × ℕ)) :
    rows.filter (fun r => api.Passes [] r) = rows :=
  List.filter_eq_self.mpr fun _ _ => decide_eq_true (.inl rfl)

theorem followAggregates_eq (h : api.Accepted store q sort w) (hknown : api.Known sort)
    (hcomparable : api.Comparable sort) {cursor : Option AggregateCursor}
    (hcursor : decodeAggregateCursor (queryFingerprint q) cursor = .ok cursor)
    (haccepted : (cursor.elim [] fun c => api.toKeysetBound c sort).all Atom.accepted)
    (fuel : ℕ) :
    followAggregates A settings store q D queryFingerprint table fuel cursor =
      (Keyset.follow (D (api.orderBy sort)) (behindGroup api q queryFingerprint sort)
        (api.limit settings q) (api.matching A settings store q w table) fuel
        ((api.matching A settings store q w table).filter
          (api.Passes (cursor.elim [] fun c => api.toKeysetBound c sort)))).map .ok := by
  induction fuel generalizing cursor with
  | zero => rfl
  | succ fuel ih =>
    rw [followAggregates, queryAggregates_eq h hcursor, if_pos ⟨hknown, haccepted⟩, Keyset.follow]
    generalize (D (api.orderBy sort)).order _ = rows
    unfold aggregatePageOf
    by_cases hmore : api.limit settings q < rows.length
    · rw [if_pos hmore, if_pos hmore]
      cases hlast : (rows.take (api.limit settings q)).getLast? with
      | none => rfl
      | some last =>
        rw [Option.map_some]
        dsimp only
        rw [ih (decodeAggregateCursor_cursorOf last.1)
          ((accepted_bound_iff hknown _ last.1).mpr hcomparable), Option.map_map, Option.map_map]
        rfl
    · rw [if_neg hmore, if_neg hmore]
      rfl

theorem aggregatesPaged_iff (h : api.Accepted store q sort w) (hknown : api.Known sort)
    (hcomparable : api.Comparable sort) :
    AggregatesPaged A settings store q D queryFingerprint table sort w ↔
      Keyset.Complete (D (api.orderBy sort)) (behindGroup api q queryFingerprint sort)
        (api.limit settings q) (api.matching A settings store q w table) (api.GroupLe sort) := by
  unfold AggregatesPaged Keyset.Complete
  refine exists_congr fun fuel => ?_
  rw [followAggregates_eq h hknown hcomparable rfl rfl, Option.elim_none, filter_passes_nil]
  constructor
  · rintro ⟨pages, hpages, hrest⟩
    obtain ⟨pages', hfollow, heq⟩ := Option.map_eq_some_iff.mp hpages
    exact ⟨pages', hfollow, Except.ok.inj heq ▸ hrest⟩
  · rintro ⟨pages, hpages, hrest⟩
    exact ⟨pages, hpages ▸ rfl, hrest⟩

theorem limit_pos (settings : AggregateSettings) (q : AggregateQuery) (api : AggregateApi) :
    0 < api.limit settings q := by
  cases api with
  | lifecycles | operations => exact q.limit_ge
  | deadletters => exact lt_min q.limit_ge settings.deadletterQueryMaxN_pos

theorem paged_of_fits (h : api.Accepted store q sort w) (hknown : api.Known sort)
    (hfits : (api.matching A settings store q w table).length ≤ api.limit settings q) :
    AggregatesPaged A settings store q D queryFingerprint table sort w := by
  refine ⟨1, [(D (api.orderBy sort)).order (api.matching A settings store q w table)], ?_, ?_, ?_⟩
  · rw [followAggregates, queryAggregates_eq h rfl, if_pos ⟨hknown, rfl⟩, Option.elim_none,
      filter_passes_nil]
    unfold aggregatePageOf
    rw [if_neg]
    rw [Sorter.length_order]
    omega
  · rw [List.flatten_singleton]
    exact (D (api.orderBy sort)).perm _
  · rw [List.flatten_singleton]
    have hsorted := (D (api.orderBy sort)).sorted (api.matching A settings store q w table)
    exact hsorted.imp fun hab => orderBy_eq api sort ▸ hab

end Pages

section Bounds

variable {store : Store} {q : AggregateQuery} {queryFingerprint : AggregateQuery → String}
  {sort : List ResolvedSort} {w : List Fragment × List Fragment}

def Value.Small : Value → Prop
  | .time ms => ms < 10413792000000
  | .int n => n < 2 ^ 32
  | .float _ | .text _ => False

theorem Atom.holds_small {c : String} {o : SortOrder} {n : ℕ} {v : Value}
    (hn : 2 ^ 38 ≤ n) (hv : v.Small) :
    (Atom.mk c o .int64 (some (.int n))).holds v = true ↔ o = .desc := by
  cases v with
  | time ms =>
    have hlt : ms < n * 1000 := by
      have hms : ms < 10413792000000 := hv
      omega
    cases o with
    | desc => exact iff_of_true (decide_eq_true hlt) rfl
    | asc => exact iff_of_false (fun h => hlt.asymm (of_decide_eq_true h)) (by decide)
  | int m =>
    have hlt : m < n := by
      have hm : m < 2 ^ 32 := hv
      omega
    cases o with
    | desc => exact iff_of_true (decide_eq_true hlt) rfl
    | asc => exact iff_of_false (fun h => hlt.asymm (of_decide_eq_true h)) (by decide)
  | float x => exact hv.elim
  | text s => exact hv.elim

theorem exists_first_iff {c : String} {o : SortOrder} {n : ℕ} {stored : Option Value} {v : Value}
    (h : stored = some v) (hn : 2 ^ 38 ≤ n) (hv : v.Small) :
    (∃ u ∈ stored, (Atom.mk c o .int64 (some (.int n))).holds u = true) ↔ o = .desc := by
  constructor
  · rintro ⟨u, hu, hholds⟩
    obtain rfl := Option.some.inj (h.symm.trans hu)
    exact (Atom.holds_small hn hv).mp hholds
  · intro ho
    exact ⟨v, h, (Atom.holds_small hn hv).mpr ho⟩

theorem exists_tie_iff {c : String} {stored : Option Value} {v w : Value} (h : stored = some v) :
    (∃ u ∈ stored, (Atom.mk c .desc .string (some w)).holds u = true) ↔
      v.less (v.beside w) = true := by
  constructor
  · rintro ⟨u, hu, hholds⟩
    obtain rfl := Option.some.inj (h.symm.trans hu)
    exact hholds
  · intro hless
    exact ⟨v, h, hless⟩

theorem exists_mem_singleton_iff {a : Atom} {p : Atom → Prop} : (∃ b ∈ [a], p b) ↔ p a := by
  rw [List.exists_mem_cons_iff]
  exact or_iff_left fun ⟨_, h, _⟩ => List.not_mem_nil h

theorem le_toEpochMs_of_lt {ms : ℕ} (h : 2 ^ 40 < ms) : 2 ^ 38 ≤ toEpochMs ms := by
  have hread := le_toEpochMs ms
  omega

theorem mem_columns_of_resolveSort {allowed : List (String × String)} {default : List ResolvedSort}
    {spec : Option (List AMPSortSpec)} (h : resolveSort allowed default spec = .ok sort)
    {s : ResolvedSort} (hs : s ∈ sort.head?) :
    s ∈ default.head? ∨ s.columnOrAlias ∈ allowed.map Prod.snd := by
  cases spec with
  | none =>
    obtain rfl := Except.ok.inj h
    exact .inl hs
  | some spec =>
    obtain ⟨t, -, ht⟩ := (Fallible.mem_of_mapM h).mp (List.mem_of_mem_head? hs)
    split at ht
    · cases ht
    · rename_i column hcolumn
      obtain rfl := Except.ok.inj ht
      obtain ⟨l₁, l₂, hl, -⟩ := List.lookup_eq_some_iff.mp hcolumn
      right
      rw [hl]
      simp

theorem exists_small_lifecycle {column : String} (l : Message.Lifecycle)
    (h : column ∈ ["last_seen_at", "first_seen_at", "receive_count"]) :
    ∃ v, l.value column = some v ∧ v.Small := by
  simp only [List.mem_cons, List.not_mem_nil, or_false] at h
  rcases h with rfl | rfl | rfl
  · exact ⟨_, rfl, l.lastSeenAt_lt⟩
  · exact ⟨_, rfl, l.firstSeenAt_lt⟩
  · exact ⟨_, rfl, l.receiveCount_lt⟩

theorem exists_small_deadletter {column : String} {l : Message.Lifecycle} {ms : ℕ}
    (hms : l.deadLetteredAt = some ms) (h : column ∈ ["dead_lettered_at", "last_seen_at"]) :
    ∃ v, l.value column = some v ∧ v.Small := by
  simp only [List.mem_cons, List.not_mem_nil, or_false] at h
  rcases h with rfl | rfl
  · exact ⟨.time ms, congrArg (Option.map Value.time) hms, l.deadLetteredAt_lt ms hms⟩
  · exact ⟨_, rfl, l.lastSeenAt_lt⟩

end Bounds

section Message

variable {A : Aggregation} {settings : AggregateSettings} {store : Store} {q : AggregateQuery}
  {queryFingerprint : AggregateQuery → String} {sort : List ResolvedSort}
  {w : List Fragment × List Fragment} {table : List Message.Lifecycle}
  {last r : Message.Lifecycle × ℕ}

open AggregateApi

theorem head_desc_iff {s : ResolvedSort} {rest : List ResolvedSort} :
    (∀ t ∈ (s :: rest).head?, t.order = .desc) ↔ s.order = .desc := by
  simp

theorem lifecycle_behind_iff (h : lifecycles.Accepted store q sort w)
    (hlast : last ∈ lifecycles.matching A settings store q w table) :
    behindGroup lifecycles q queryFingerprint sort last r = true ↔
      (∀ s ∈ sort.head?, s.order = .desc) ∨ r.1.lastSeenAt < last.1.lastSeenAt ∨
        r.1.lifecycleKey < last.1.lifecycleKey := by
  have htime : 2 ^ 40 < last.1.lastSeenAt :=
    q.fromMs_gt.trans_le (of_decide_eq_true (List.mem_filter.mp hlast).2).1.1
  cases sort with
  | nil => exact iff_of_true (behindGroup_iff.mpr (.inl rfl)) (.inl fun s hs => by cases hs)
  | cons s rest =>
    have hcolumn : s.columnOrAlias ∈ ["last_seen_at", "first_seen_at", "receive_count"] := by
      rcases mem_columns_of_resolveSort h.validateSort (s := s) rfl with hs | hs
      · obtain rfl := Option.some.inj hs
        decide
      · exact hs
    obtain ⟨v, hvalue, hsmall⟩ := exists_small_lifecycle r.1 hcolumn
    refine (behindGroup_iff.trans (passes_cons_iff lifecycles)).trans (or_congr ?_ ?_)
    · rw [head_desc_iff]
      exact exists_first_iff hvalue (le_toEpochMs_of_lt htime) hsmall
    · refine (List.exists_mem_cons_iff _ _ _).trans (or_congr ?_ ?_)
      · exact (exists_tie_iff rfl).trans decide_eq_true_iff
      · exact exists_mem_singleton_iff.trans ((exists_tie_iff rfl).trans decide_eq_true_iff)

theorem cursorOf_deadletter {l : Message.Lifecycle} {ms : ℕ} (hms : l.deadLetteredAt = some ms)
    (sort : List ResolvedSort) (fingerprint : String) : deadletters.cursorOf sort fingerprint l =
      { sortValue := some (.time ms)
        tiebreak := [("dead_lettered_at", .time ms), ("lifecycle_key", .text l.lifecycleKey)]
        fingerprint } := by
  simp only [cursorOf, hms, Option.elim_some]

theorem deadletter_behind_iff (h : deadletters.Accepted store q sort w)
    (hlast : last ∈ deadletters.matching A settings store q w table)
    (hr : r ∈ deadletters.matching A settings store q w table) :
    behindGroup deadletters q queryFingerprint sort last r = true ↔
      (∀ s ∈ sort.head?, s.order = .desc) ∨
        r.1.deadLetteredAt.getD 0 < last.1.deadLetteredAt.getD 0 ∨
        r.1.lifecycleKey < last.1.lifecycleKey := by
  obtain ⟨ms, hms, hrange, -⟩ := (of_decide_eq_true (List.mem_filter.mp hlast).2).2.1
  obtain ⟨ms', hms', -⟩ := (of_decide_eq_true (List.mem_filter.mp hr).2).2.1
  have htime : 2 ^ 40 < ms := q.fromMs_gt.trans_le hrange
  cases sort with
  | nil => exact iff_of_true (behindGroup_iff.mpr (.inl rfl)) (.inl fun s hs => by cases hs)
  | cons s rest =>
    have hcolumn : s.columnOrAlias ∈ ["dead_lettered_at", "last_seen_at"] := by
      rcases mem_columns_of_resolveSort h.validateSort (s := s) rfl with hs | hs
      · obtain rfl := Option.some.inj hs
        decide
      · exact hs
    obtain ⟨v, hvalue, hsmall⟩ := exists_small_deadletter hms' hcolumn
    have hpasses := congrArg
      (fun c => deadletters.Passes (deadletters.toKeysetBound c (s :: rest)) r)
      (cursorOf_deadletter hms (s :: rest) (queryFingerprint q))
    refine (behindGroup_iff.trans (Iff.of_eq hpasses)).trans ?_
    refine (passes_cons_iff deadletters).trans (or_congr ?_ ?_)
    · rw [head_desc_iff]
      exact exists_first_iff hvalue (le_toEpochMs_of_lt htime) hsmall
    · rw [hms, hms']
      refine (List.exists_mem_cons_iff _ _ _).trans (or_congr ?_ ?_)
      · exact (exists_tie_iff (congrArg (Option.map Value.time) hms')).trans decide_eq_true_iff
      · exact exists_mem_singleton_iff.trans ((exists_tie_iff rfl).trans decide_eq_true_iff)

end Message

section Operations

variable {q : AggregateQuery} {queryFingerprint : AggregateQuery → String}
  {sort : List ResolvedSort} {last r : Access.Operation × ℕ}

open AggregateApi

def countRank : List ResolvedSort → Access.Operation → ℤ
  | [], _ => 0
  | s :: _, o =>
    let count := if s.columnOrAlias = "request_count" then o.requestCount else o.errorCount
    match s.order with
    | .desc => count
    | .asc => -count

theorem countRank_lt_iff {s : ResolvedSort} {rest : List ResolvedSort} {a b : Access.Operation}
    (hcolumn : s.columnOrAlias ∈ ["request_count", "error_count"]) :
    (∃ v ∈ a.value s.columnOrAlias,
      (Atom.mk s.columnOrAlias s.order .int64 (b.value s.columnOrAlias)).holds v = true) ↔
      countRank (s :: rest) a < countRank (s :: rest) b := by
  simp only [List.mem_cons, List.not_mem_nil, or_false] at hcolumn
  obtain ⟨field, column, order⟩ := s
  rcases hcolumn with rfl | rfl <;> cases order <;>
    simp [countRank, Access.Operation.value, Atom.holds, Value.beside, Value.less]

theorem operation_behind_iff (hcomparable : operations.Comparable sort) :
    behindGroup operations q queryFingerprint sort last r = true ↔
      sort = [] ∨ countRank sort r.1 < countRank sort last.1 ∨
        r.1.lastSeenAt < last.1.lastSeenAt := by
  cases sort with
  | nil => exact iff_of_true (behindGroup_iff.mpr (.inl rfl)) (.inl rfl)
  | cons s rest =>
    rw [or_iff_right (List.cons_ne_nil s rest)]
    refine (behindGroup_iff.trans (passes_cons_iff operations)).trans (or_congr ?_ ?_)
    · exact countRank_lt_iff (hcomparable s rfl)
    · exact exists_mem_singleton_iff.trans ((exists_tie_iff rfl).trans decide_eq_true_iff)

end Operations

section Paging

variable {A : Aggregation} {settings : AggregateSettings} {store : Store} {q : AggregateQuery}
  {api : AggregateApi} {queryFingerprint : AggregateQuery → String} {table : List api.Source}
  {sort : List ResolvedSort} {w : List Fragment × List Fragment}

theorem behind_or_behind {β γ : Type} [LinearOrder β] [LinearOrder γ] {P : Prop} {f f'' : β}
    {g g'' : γ} (f' : β) (g' : γ) (h : P ∨ f'' < f ∨ g'' < g) :
    (P ∨ f' < f ∨ g' < g) ∨ (P ∨ f'' < f' ∨ g'' < g') := by
  rcases h with h | h | h
  · exact .inl (.inl h)
  · rcases lt_or_ge f' f with hf | hf
    · exact .inl (.inr (.inl hf))
    · exact .inr (.inr (.inl (h.trans_le hf)))
  · rcases lt_or_ge g' g with hg | hg
    · exact .inl (.inr (.inr hg))
    · exact .inr (.inr (.inr (h.trans_le hg)))

theorem behindGroup_negTrans (h : api.Accepted store q sort w) (hcomparable : api.Comparable sort)
    {a b c : api.Group × ℕ} (ha : a ∈ api.matching A settings store q w table)
    (hb : b ∈ api.matching A settings store q w table)
    (hc : c ∈ api.matching A settings store q w table)
    (hac : behindGroup api q queryFingerprint sort a c = true) :
    behindGroup api q queryFingerprint sort a b = true ∨
      behindGroup api q queryFingerprint sort b c = true := by
  cases api with
  | lifecycles =>
    have hcases := behind_or_behind b.1.lastSeenAt b.1.lifecycleKey
      ((lifecycle_behind_iff h ha).mp hac)
    exact hcases.imp (lifecycle_behind_iff h ha).mpr (lifecycle_behind_iff h hb).mpr
  | deadletters =>
    have hcases := behind_or_behind (b.1.deadLetteredAt.getD 0) b.1.lifecycleKey
      ((deadletter_behind_iff h ha hc).mp hac)
    exact hcases.imp (deadletter_behind_iff h ha hb).mpr (deadletter_behind_iff h hb hc).mpr
  | operations =>
    have hcases := behind_or_behind (countRank sort b.1) b.1.lastSeenAt
      ((operation_behind_iff hcomparable).mp hac)
    exact hcases.imp (operation_behind_iff hcomparable).mpr (operation_behind_iff hcomparable).mpr

theorem nodup_aggregates : (api.matching A settings store q w table).Nodup := by
  have hzip {α : Type} (l : List α) : l.zipIdx.Nodup :=
    (List.zipIdx_map_snd 0 l ▸ List.nodup_range').of_map _
  cases api with
  | lifecycles | deadletters | operations => exact (hzip _).filter _

instance (orderBy : List ResolvedSort) : Std.Total (api.GroupLe orderBy) :=
  ⟨fun a b => sortLe_total orderBy a.1 b.1⟩

instance (orderBy : List ResolvedSort) : IsTrans (api.Group × ℕ) (api.GroupLe orderBy) :=
  ⟨fun _ _ _ => SortLe.trans⟩

instance (orderBy : List ResolvedSort) : DecidableRel (api.GroupLe orderBy) := fun a b =>
  inferInstanceAs (Decidable (SortLe api.key orderBy a.1 b.1))

def GroupSorters.insertion (api : AggregateApi) : GroupSorters api := fun orderBy =>
  Sorter.insertion (api.GroupLe orderBy)

theorem forall_complete_iff (h : api.Accepted store q sort w) (hknown : api.Known sort)
    (hcomparable : api.Comparable sort) :
    (∀ D : GroupSorters api, AggregatesPaged A settings store q D queryFingerprint table sort w) ↔
      ∀ L : List (api.Group × ℕ), L.Perm (api.matching A settings store q w table) →
        L.Pairwise (api.GroupLe sort) →
        Keyset.Seams (behindGroup api q queryFingerprint sort) (api.limit settings q) L := by
  have hnodup : (api.matching A settings store q w table).Nodup := nodup_aggregates
  have hneg : ∀ a ∈ api.matching A settings store q w table,
      ∀ b ∈ api.matching A settings store q w table, ∀ c ∈ api.matching A settings store q w table,
      behindGroup api q queryFingerprint sort a c → behindGroup api q queryFingerprint sort a b ∨
        behindGroup api q queryFingerprint sort b c :=
    fun _ ha _ hb _ hc => behindGroup_negTrans h hcomparable ha hb hc
  have hcomplete : ∀ orderBy, orderBy = sort → ((∀ D : GroupSorters api,
      Keyset.Complete (D orderBy) (behindGroup api q queryFingerprint sort) (api.limit settings q)
        (api.matching A settings store q w table) (api.GroupLe sort)) ↔
      ∀ S : Sorter (api.GroupLe sort),
        Keyset.Complete S (behindGroup api q queryFingerprint sort) (api.limit settings q)
          (api.matching A settings store q w table) (api.GroupLe sort)) := by
    rintro orderBy rfl
    constructor
    · intro hall S
      have hpaged := hall (Function.update (GroupSorters.insertion api) orderBy S)
      rw [Function.update_self] at hpaged
      exact hpaged
    · intro hall D
      exact hall (D orderBy)
  rw [← Keyset.complete_iff_of_negTrans hnodup (limit_pos settings q api) hneg,
    ← hcomplete _ (AggregateApi.orderBy_eq api sort)]
  exact forall_congr' fun D => aggregatesPaged_iff h hknown hcomparable

end Paging

theorem behindGroup_of_desc {A : Aggregation} {settings : AggregateSettings} {store : Store}
    {q : AggregateQuery} {api : AggregateApi} {queryFingerprint : AggregateQuery → String}
    {table : List api.Source} {sort : List ResolvedSort} {w : List Fragment × List Fragment}
    (hapi : api ≠ .operations) (h : api.Accepted store q sort w) {last : api.Group × ℕ}
    (hlast : last ∈ api.matching A settings store q w table)
    (hdesc : ∀ s ∈ sort.head?, s.order = .desc) :
    behindGroup api q queryFingerprint sort last last = true := by
  cases api with
  | lifecycles => exact (lifecycle_behind_iff h hlast).mpr (.inl hdesc)
  | deadletters => exact (deadletter_behind_iff h hlast hlast).mpr (.inl hdesc)
  | operations => exact absurd rfl hapi

namespace Sample

theorem zero_lt_maxTime : 0 < 10413792000000 := by decide

theorem zero_lt_maxCount : 0 < 2 ^ 32 := by decide

theorem none_lt_maxTime : ∀ t ∈ (none : Option ℕ), t < 10413792000000 := fun _ h => by cases h

theorem hundred_pos : 0 < 100 := by decide

theorem maxFrom : 2 ^ 40 < 1600000000000 := by decide

def lifecycle : Message.Lifecycle where
  firstSeenAt := 0
  lastSeenAt := 0
  deadLetteredAt := none
  receiveCount := 0
  deadLettered := false
  lifecycleKey := ""
  compactedAt := 0
  columns _ := .num 0
  firstSeenAt_lt := zero_lt_maxTime
  lastSeenAt_lt := zero_lt_maxTime
  deadLetteredAt_lt := none_lt_maxTime
  receiveCount_lt := zero_lt_maxCount

def aggregation : Aggregation where
  argMax versions := match versions with
    | [] => lifecycle
    | l :: rest => rest.foldl (fun best l => if best.compactedAt < l.compactedAt then l else best) l
  quantileTDigest events := (((events.map fun e => (e.row "duration_ms").count).max?).getD 0 : ℕ)

def aggregateSettings : AggregateSettings where
  lifecycleRetentionDays := 30
  deadletterQueryMaxN := 100
  errorStatusThreshold := 400
  deadletterQueryMaxN_pos := hundred_pos

def operationQuery : AggregateQuery where
  fromMs := 1600000000000
  toMs := 1800000000000
  filter := none
  sort := none
  groupBy := ["service"]
  bucket := none
  minRequestCount := 0
  limit := 1
  fromMs_gt := maxFrom
  limit_ge := one_le_smallest
  limit_le := one_le_largest

theorem time_lt {ms : ℕ} (h : ms < 1000) : 1700000000000 + ms < 10413792000000 := by omega

def request (service : String) (ms : ℕ) (h : ms < 1000) : Event where
  timestamp := 1700000000000 + ms
  timestamp_lt := time_lt h
  logId := service
  columns column :=
    if column = "service_name" then .text service
    else if column = "response_status" then .num 200
    else if column = "duration_ms" then .num 5
    else .text ""

def operation (service : String) (events : List Event) : Access.Operation :=
  summarize aggregation aggregateSettings (none, [.text service]) events

theorem one_lt : 1 < 1000 := by decide

def once : AggregateApi.operations.Group × ℕ := (operation "b" [request "b" 1 one_lt], 1)

def keyQuery : AggregateQuery :=
  { operationQuery with filter := some (.mk [⟨"lifecycleKey", .compare .eq, .str ""⟩] [] .and) }

def seen : Message.Lifecycle :=
  { lifecycle with
    firstSeenAt := 1700000000000 + 1
    lastSeenAt := 1700000000000 + 1
    firstSeenAt_lt := time_lt one_lt
    lastSeenAt_lt := time_lt one_lt }

end Sample

/-- In descending order, which is their default, lifecycles and dead letters are complete on one
page or not at all. -/
theorem descending_paged_iff {A : Aggregation} {settings : AggregateSettings} {store : Store}
    {q : AggregateQuery} {api : AggregateApi} {queryFingerprint : AggregateQuery → String}
    {table : List api.Source} {sort : List ResolvedSort} {w : List Fragment × List Fragment}
    (hapi : api ≠ .operations) (h : api.Accepted store q sort w) (hknown : api.Known sort)
    (hdesc : ∀ s ∈ sort.head?, s.order = .desc) :
    (∀ D : GroupSorters api, AggregatesPaged A settings store q D queryFingerprint table sort w) ↔
      (api.matching A settings store q w table).length ≤ api.limit settings q := by
  have hcomparable : api.Comparable sort := by
    cases api with
    | lifecycles | deadletters => trivial
    | operations => exact absurd rfl hapi
  constructor
  · intro hall
    have hseams := (forall_complete_iff h hknown hcomparable).mp hall
    by_contra hmany
    have hmore : api.limit settings q <
        ((GroupSorters.insertion api sort).order (api.matching A settings store q w table)).length := by
      rw [Sorter.length_order]
      omega
    obtain ⟨front, last, rest, hrows, hfront, hrest⟩ :=
      Keyset.exists_cut (limit_pos settings q api) hmore
    have hperm := (GroupSorters.insertion api sort).perm (api.matching A settings store q w table)
    have hsorted := (GroupSorters.insertion api sort).sorted (api.matching A settings store q w table)
    have hlast : last ∈ front ++ last :: rest := List.mem_append_right _ List.mem_cons_self
    have hmem : last ∈ api.matching A settings store q w table := hperm.mem_iff.mp (hrows ▸ hlast)
    have hagain := (hseams _ hperm hsorted front last rest hrows (hfront ▸ dvd_rfl) hrest last
      (hrows ▸ hlast)).mp (behindGroup_of_desc hapi h hmem hdesc)
    have hnodup : (front ++ last :: rest).Nodup := hrows ▸ hperm.nodup_iff.mpr nodup_aggregates
    exact (List.nodup_cons.mp (List.nodup_append.mp hnodup).2.1).1 hagain
  · intro hfits D
    exact paged_of_fits h hknown hfits

theorem sole_lifecycle_paged : ∃ sort w, ∀ D : GroupSorters .lifecycles,
    AggregatesPaged Sample.aggregation Sample.aggregateSettings Audit.Sample.store Sample.keyQuery D
      (fun _ => "f") [Sample.seen] sort w :=
  ⟨_, _, (descending_paged_iff (by decide : AggregateApi.lifecycles ≠ .operations)
    ⟨rfl, rfl, by decide⟩ (by decide) (by decide)).mpr (by decide)⟩

end Acps.Monitor
