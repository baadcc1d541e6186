import Acps.Lib.Sorter
import Mathlib.Data.List.Induction
import Mathlib.Data.List.MinMax
import Mathlib.Data.List.Sort
import Mathlib.Data.String.Basic
import Mathlib.Order.Lattice

/-!
The two summaries of a trace: one aggregated by the database, the other rebuilt from the spans.
-/

namespace Acps.Access.Traces

structure AccessTraceSpan where
  timestamp : ℕ
  aic : String
  traceId : String
  spanId : String
  parentSpanId : String
  durationMs : ℕ
  responseStatus : ℕ
  errorCode : String
  deriving DecidableEq

def AccessTraceSpan.stop (s : AccessTraceSpan) : ℕ := s.timestamp + s.durationMs

def AccessTraceSpan.IsRoot (s : AccessTraceSpan) : Prop := s.parentSpanId = ""

instance (s : AccessTraceSpan) : Decidable s.IsRoot := inferInstanceAs (Decidable (_ = _))

def SpanLe (a b : AccessTraceSpan) : Prop :=
  a.timestamp < b.timestamp ∨ a.timestamp = b.timestamp ∧ a.spanId ≤ b.spanId

/-- What the database leaves open: the order of rows that sort alike and the row that `argMin` takes
among several of the least time; and `tsToMs`, which reads back the text that the driver gives for a
timestamp. -/
structure Clickhouse where
  sorter : Sorter SpanLe
  argMin : List AccessTraceSpan → Option AccessTraceSpan
  argMin_eq_none : ∀ rows, argMin rows = none ↔ rows = []
  argMin_least : ∀ rows r, argMin rows = some r → r ∈ rows ∧ ∀ s ∈ rows, r.timestamp ≤ s.timestamp
  tsToMs : ℕ → ℤ

structure AccessTraceSummary where
  firstSeenAt : ℕ
  lastSeenAt : ℕ
  durationMs : ℕ
  totalSpans : ℕ
  errorCount : ℕ
  rootAic : Option String
  deriving DecidableEq

structure AccessTraceSummaryMeta where
  firstSeenAt : ℕ
  lastSeenAt : ℕ
  durationMs : ℕ
  totalSpans : ℕ
  errorCount : ℕ
  rootSpanId : Option String
  rootAic : Option String
  deriving DecidableEq

structure Settings where
  errorStatusThreshold : ℕ
  traceMaxSpans : ℕ
  traceMaxDurationHours : ℕ
  errorStatusThreshold_ge : 400 ≤ errorStatusThreshold

structure TraceQuery where
  fromMs : ℕ
  toMs : ℕ
  traceId : String

def TraceQuery.Covers (q : TraceQuery) (hours : ℕ) (s : AccessTraceSpan) : Prop :=
  q.fromMs ≤ s.timestamp + hours * 3600000 ∧ s.timestamp ≤ q.toMs + hours * 3600000

instance (q : TraceQuery) (hours : ℕ) (s : AccessTraceSpan) : Decidable (q.Covers hours s) :=
  inferInstanceAs (Decidable (_ ∧ _))

variable (D : Clickhouse) (settings : Settings) (table : List AccessTraceSpan)

def runTracesQuery (q : TraceQuery) : Option AccessTraceSummary :=
  let rows := table.filter fun s =>
    s.traceId = q.traceId ∧ q.Covers (max 1 settings.traceMaxDurationHours) s
  if rows = [] then none
  else
    some
      { firstSeenAt := (rows.map (·.timestamp)).min?.getD 0
        lastSeenAt := (rows.map (·.timestamp)).max?.getD 0
        durationMs :=
          ((rows.map (·.stop)).max?.getD 0 - (rows.map (·.timestamp)).min?.getD 0) % 2 ^ 32
        totalSpans := rows.length
        errorCount := rows.countP fun s =>
          s.errorCode ≠ "" ∨ settings.errorStatusThreshold ≤ s.responseStatus
        rootAic := ((D.argMin (rows.filter (·.IsRoot))).map (·.aic)).filter (· ≠ "") }

def fetchTraceSpans (traceId : String) : List AccessTraceSpan :=
  ((D.sorter.order (table.filter (·.traceId = traceId))).take (settings.traceMaxSpans + 1)).take
    settings.traceMaxSpans

def summarizeSpan (state : Option String × ℕ) (s : AccessTraceSpan) : Option String × ℕ :=
  (if s.parentSpanId = "" then some s.spanId else state.1,
    if s.errorCode ≠ "" ∨ s.responseStatus ≠ 0 ∧ settings.errorStatusThreshold ≤ s.responseStatus
    then state.2 + 1 else state.2)

def getTraceSummary (traceId : String) : Option AccessTraceSummaryMeta :=
  let spans := fetchTraceSpans D settings table traceId
  match spans.head?, spans.getLast? with
  | some first, some last =>
    let state := spans.foldl (summarizeSpan settings) (none, 0)
    some
      { firstSeenAt := first.timestamp
        lastSeenAt := last.timestamp
        durationMs :=
          (max 0 (D.tsToMs last.timestamp + last.durationMs - D.tsToMs first.timestamp)).toNat
        totalSpans := spans.length
        errorCount := state.2
        rootSpanId := state.1
        rootAic := if state.1 = some first.spanId then some first.aic else none }
  | _, _ => none

structure Agree (m : AccessTraceSummaryMeta) (s : AccessTraceSummary) : Prop where
  durationMs : m.durationMs = s.durationMs
  totalSpans : m.totalSpans = s.totalSpans
  errorCount : m.errorCount = s.errorCount
  rootAic : m.rootAic = s.rootAic

section Loop

variable {settings}

theorem foldl_summarizeSpan (spans : List AccessTraceSpan) (root : Option String) (n : ℕ) :
    spans.foldl (summarizeSpan settings) (root, n) =
      ((((spans.filter (·.IsRoot)).getLast?.map (·.spanId)).or root),
        n + spans.countP fun s =>
          s.errorCode ≠ "" ∨ settings.errorStatusThreshold ≤ s.responseStatus) := by
  induction spans using List.reverseRecOn with
  | nil => simp
  | append_singleton spans s ih =>
    have hstatus : (s.responseStatus ≠ 0 ∧ settings.errorStatusThreshold ≤ s.responseStatus) ↔
        settings.errorStatusThreshold ≤ s.responseStatus := by
      have := settings.errorStatusThreshold_ge
      omega
    rw [List.foldl_append, ih, List.foldl_cons, List.foldl_nil, List.filter_append,
      List.countP_append]
    unfold summarizeSpan
    simp only [hstatus]
    refine Prod.ext ?_ ?_
    · by_cases hroot : s.parentSpanId = ""
      · simp [hroot, AccessTraceSpan.IsRoot]
      · simp [hroot, AccessTraceSpan.IsRoot]
    · by_cases herror : s.errorCode ≠ "" ∨ settings.errorStatusThreshold ≤ s.responseStatus
      · simp [herror, Nat.add_assoc]
      · simp [herror]

end Loop

section Agreement

variable {D settings table} {q : TraceQuery} {m : AccessTraceSummaryMeta} {s : AccessTraceSummary}

def traceOf (table : List AccessTraceSpan) (traceId : String) : List AccessTraceSpan :=
  table.filter (·.traceId = traceId)

def latestStop (trace : List AccessTraceSpan) : ℕ := (trace.map (·.stop)).max?.getD 0

/-- The span that sorts last ends as late as any, as far as the conversions and the 32 bits of the
database let it be seen. -/
def EndsLast (D : Clickhouse) (trace : List AccessTraceSpan) : Prop :=
  ∀ first ∈ (D.sorter.order trace).head?, ∀ last ∈ (D.sorter.order trace).getLast?,
    (max 0 (D.tsToMs last.timestamp + last.durationMs - D.tsToMs first.timestamp)).toNat =
      (latestStop trace - first.timestamp) % 2 ^ 32

/-- The last root is the first span, and that one has the agent of the earliest root; or the earliest
root has no agent. -/
def RootFirst (D : Clickhouse) (trace : List AccessTraceSpan) : Prop :=
  ∀ first ∈ (D.sorter.order trace).head?,
    ∀ lastRoot ∈ ((D.sorter.order trace).filter (·.IsRoot)).getLast?,
      ∀ root ∈ D.argMin (trace.filter (·.IsRoot)),
        lastRoot.spanId = first.spanId ∧ first.aic = root.aic ∧ root.aic ≠ "" ∨
          lastRoot.spanId ≠ first.spanId ∧ root.aic = ""

theorem fetchTraceSpans_eq (hmax : (traceOf table q.traceId).length ≤ settings.traceMaxSpans) :
    fetchTraceSpans D settings table q.traceId = D.sorter.order (traceOf table q.traceId) := by
  unfold fetchTraceSpans
  rw [List.take_take, Nat.min_eq_left (Nat.le_succ _), List.take_of_length_le]
  · rfl
  · rw [Sorter.length_order]
    exact hmax

theorem rows_eq (hin : ∀ a ∈ traceOf table q.traceId, q.fromMs ≤ a.timestamp ∧ a.timestamp ≤ q.toMs) :
    (table.filter fun a =>
      a.traceId = q.traceId ∧ q.Covers (max 1 settings.traceMaxDurationHours) a) =
      traceOf table q.traceId := by
  unfold traceOf
  refine List.filter_congr fun a ha => ?_
  rw [decide_eq_decide]
  refine and_iff_left_of_imp fun htrace => ?_
  have hwithin := hin a (List.mem_filter.mpr ⟨ha, decide_eq_true htrace⟩)
  exact ⟨by omega, by omega⟩

theorem head_least {trace : List AccessTraceSpan} {first a : AccessTraceSpan}
    (hfirst : (D.sorter.order trace).head? = some first) (ha : a ∈ trace) :
    first.timestamp ≤ a.timestamp := by
  have hsorted := D.sorter.sorted trace
  have hmem : a ∈ D.sorter.order trace := D.sorter.mem_order.mpr ha
  obtain ⟨rest, hrest⟩ := List.head?_eq_some_iff.mp hfirst
  rw [hrest] at hsorted hmem
  rcases List.mem_cons.mp hmem with rfl | hmem
  · exact le_rfl
  · rcases (List.pairwise_cons.mp hsorted).1 a hmem with hlt | ⟨heq, -⟩
    · exact hlt.le
    · exact heq.le

theorem min_timestamps {trace : List AccessTraceSpan} {first : AccessTraceSpan}
    (hfirst : (D.sorter.order trace).head? = some first) :
    (trace.map (·.timestamp)).min? = some first.timestamp := by
  rw [List.min?_eq_some_iff]
  refine ⟨List.mem_map_of_mem (D.sorter.mem_order.mp (List.mem_of_head? hfirst)), ?_⟩
  intro b hb
  obtain ⟨a, ha, rfl⟩ := List.mem_map.mp hb
  exact head_least hfirst ha

theorem latestStop_eq {trace : List AccessTraceSpan} {a : AccessTraceSpan} (ha : a ∈ trace)
    (hlatest : ∀ b ∈ trace, b.stop ≤ a.stop) : latestStop trace = a.stop := by
  have hmax : (trace.map (·.stop)).max? = some a.stop := by
    rw [List.max?_eq_some_iff]
    refine ⟨List.mem_map_of_mem ha, ?_⟩
    intro n hn
    obtain ⟨b, hb, rfl⟩ := List.mem_map.mp hn
    exact hlatest b hb
  rw [latestStop, hmax]
  rfl

theorem exists_latest {trace : List AccessTraceSpan} (h : trace ≠ []) :
    ∃ a ∈ trace, ∀ b ∈ trace, b.stop ≤ a.stop := by
  have hne : trace.map (·.stop) ≠ [] := by simpa using h
  obtain ⟨n, hn⟩ := Option.isSome_iff_exists.mp (List.isSome_max?_of_ne_nil hne)
  obtain ⟨hmem, hle⟩ := List.max?_eq_some_iff.mp hn
  obtain ⟨a, ha, rfl⟩ := List.mem_map.mp hmem
  exact ⟨a, ha, fun b hb => hle _ (List.mem_map_of_mem hb)⟩

theorem runTracesQuery_eq (hin : ∀ a ∈ traceOf table q.traceId,
      q.fromMs ≤ a.timestamp ∧ a.timestamp ≤ q.toMs)
    (h : runTracesQuery D settings table q = some s) {first : AccessTraceSpan}
    (hfirst : (D.sorter.order (traceOf table q.traceId)).head? = some first) :
    s.durationMs = (latestStop (traceOf table q.traceId) - first.timestamp) % 2 ^ 32 ∧
      s.totalSpans = (traceOf table q.traceId).length ∧
      s.errorCount = (traceOf table q.traceId).countP (fun a =>
        a.errorCode ≠ "" ∨ settings.errorStatusThreshold ≤ a.responseStatus) ∧
      s.rootAic = ((D.argMin ((traceOf table q.traceId).filter (·.IsRoot))).map (·.aic)).filter
        (· ≠ "") := by
  unfold runTracesQuery at h
  rw [rows_eq hin] at h
  dsimp only at h
  split at h
  · cases h
  · obtain rfl := Option.some.inj h
    refine ⟨?_, rfl, rfl, rfl⟩
    dsimp only
    rw [min_timestamps hfirst]
    rfl

theorem getTraceSummary_eq (hmax : (traceOf table q.traceId).length ≤ settings.traceMaxSpans)
    (h : getTraceSummary D settings table q.traceId = some m) :
    ∃ first last, (D.sorter.order (traceOf table q.traceId)).head? = some first ∧
      (D.sorter.order (traceOf table q.traceId)).getLast? = some last ∧
      m.durationMs =
        (max 0 (D.tsToMs last.timestamp + last.durationMs - D.tsToMs first.timestamp)).toNat ∧
      m.totalSpans = (traceOf table q.traceId).length ∧
      m.errorCount = (traceOf table q.traceId).countP (fun a =>
        a.errorCode ≠ "" ∨ settings.errorStatusThreshold ≤ a.responseStatus) ∧
      m.rootAic = if (((D.sorter.order (traceOf table q.traceId)).filter (·.IsRoot)).getLast?.map
        (·.spanId)) = some first.spanId then some first.aic else none := by
  unfold getTraceSummary at h
  rw [fetchTraceSpans_eq hmax] at h
  dsimp only at h
  split at h
  · rename_i first last hfirst hlast
    rw [foldl_summarizeSpan, Option.or_none, Nat.zero_add] at h
    obtain rfl := Option.some.inj h
    refine ⟨first, last, hfirst, hlast, rfl, D.sorter.length_order _, ?_, rfl⟩
    exact (D.sorter.perm _).countP_eq _
  · cases h

theorem filter_order_eq_nil {trace : List AccessTraceSpan} :
    (D.sorter.order trace).filter (·.IsRoot) = [] ↔ trace.filter (·.IsRoot) = [] := by
  simp only [List.filter_eq_nil_iff, Sorter.mem_order]

theorem rootAic_iff {trace : List AccessTraceSpan} {first : AccessTraceSpan}
    (hfirst : (D.sorter.order trace).head? = some first) :
    (if (((D.sorter.order trace).filter (·.IsRoot)).getLast?.map (·.spanId)) = some first.spanId
      then some first.aic else none) =
        ((D.argMin (trace.filter (·.IsRoot))).map (·.aic)).filter (· ≠ "") ↔
      RootFirst D trace := by
  unfold RootFirst
  rw [hfirst]
  cases hroots : D.argMin (trace.filter (·.IsRoot)) with
  | none =>
    have hnil := (D.argMin_eq_none _).mp hroots
    rw [filter_order_eq_nil.mpr hnil]
    simp
  | some root =>
    have hne : (D.sorter.order trace).filter (·.IsRoot) ≠ [] := by
      intro hnil
      rw [(D.argMin_eq_none _).mpr (filter_order_eq_nil.mp hnil)] at hroots
      cases hroots
    rw [List.getLast?_eq_some_getLast hne]
    generalize ((D.sorter.order trace).filter (·.IsRoot)).getLast hne = lastRoot
    by_cases hid : lastRoot.spanId = first.spanId
    · by_cases haic : root.aic = ""
      · simp [hid, haic, Option.filter_some]
      · simp [hid, haic, Option.filter_some]
    · by_cases haic : root.aic = ""
      · simp [hid, haic, Option.filter_some]
      · simp [hid, haic, Option.filter_some]

structure Measured (D : Clickhouse) (trace : List AccessTraceSpan) : Prop where
  exact : ∀ a ∈ trace, ∀ b ∈ trace,
    D.tsToMs a.timestamp - D.tsToMs b.timestamp = a.timestamp - b.timestamp
  short : ∀ a ∈ trace, ∀ b ∈ trace, a.stop - b.timestamp < 2 ^ 32

theorem endsLast_iff {trace : List AccessTraceSpan} (h : Measured D trace) :
    EndsLast D trace ↔
      ∀ last ∈ (D.sorter.order trace).getLast?, ∀ a ∈ trace, a.stop ≤ last.stop := by
  constructor
  · intro hends last hlast a ha
    have hmem : last ∈ trace := D.sorter.mem_order.mp (List.mem_of_getLast? hlast)
    obtain ⟨latest, hlatest, hle⟩ := exists_latest (List.ne_nil_of_mem ha)
    cases hfirst : (D.sorter.order trace).head? with
    | none =>
      rw [List.head?_eq_none_iff] at hfirst
      rw [hfirst] at hlast
      cases hlast
    | some first =>
      have hfirstMem : first ∈ trace := D.sorter.mem_order.mp (List.mem_of_head? hfirst)
      have heq := hends first hfirst last hlast
      have hexact := h.exact last hmem first hfirstMem
      have hshort := h.short latest hlatest first hfirstMem
      have hleast := head_least hfirst hmem
      have hleastLatest := head_least hfirst hlatest
      rw [latestStop_eq hlatest hle, Nat.mod_eq_of_lt hshort] at heq
      have hstop := hle a ha
      unfold AccessTraceSpan.stop at *
      omega
  · intro hlatest first hfirst last hlast
    have hmem : last ∈ trace := D.sorter.mem_order.mp (List.mem_of_getLast? hlast)
    have hfirstMem : first ∈ trace := D.sorter.mem_order.mp (List.mem_of_head? hfirst)
    have hexact := h.exact last hmem first hfirstMem
    have hshort := h.short last hmem first hfirstMem
    have hleast := head_least hfirst hmem
    rw [latestStop_eq hmem (hlatest last hlast), Nat.mod_eq_of_lt hshort]
    unfold AccessTraceSpan.stop at *
    omega

theorem trace_summaries_agree_iff
    (hin : ∀ a ∈ traceOf table q.traceId, q.fromMs ≤ a.timestamp ∧ a.timestamp ≤ q.toMs)
    (hmax : (traceOf table q.traceId).length ≤ settings.traceMaxSpans)
    (hm : getTraceSummary D settings table q.traceId = some m)
    (hs : runTracesQuery D settings table q = some s) :
    (Agree m s ↔ EndsLast D (traceOf table q.traceId) ∧ RootFirst D (traceOf table q.traceId)) ∧
      (Measured D (traceOf table q.traceId) →
        (EndsLast D (traceOf table q.traceId) ↔
          ∀ last ∈ (D.sorter.order (traceOf table q.traceId)).getLast?,
            ∀ a ∈ traceOf table q.traceId, a.stop ≤ last.stop)) := by
  obtain ⟨first, last, hfirst, hlast, hduration, htotal, herrors, hroot⟩ :=
    getTraceSummary_eq hmax hm
  obtain ⟨hduration', htotal', herrors', hroot'⟩ := runTracesQuery_eq hin hs hfirst
  refine ⟨?_, endsLast_iff⟩
  rw [← rootAic_iff hfirst, ← hroot, ← hroot']
  constructor
  · intro h
    refine ⟨?_, h.rootAic⟩
    intro first' hfirst' last' hlast'
    obtain rfl := Option.some.inj (hfirst.symm.trans hfirst')
    obtain rfl := Option.some.inj (hlast.symm.trans hlast')
    rw [← hduration, ← hduration', h.durationMs]
  · rintro ⟨hends, haic⟩
    refine ⟨?_, htotal.trans htotal'.symm, herrors.trans herrors'.symm, haic⟩
    rw [hduration, hduration', hends first hfirst last hlast]

instance : DecidableRel SpanLe := fun a b =>
  inferInstanceAs (Decidable (a.timestamp < b.timestamp ∨
    a.timestamp = b.timestamp ∧ a.spanId ≤ b.spanId))

theorem spanLe_total (a b : AccessTraceSpan) : SpanLe a b ∨ SpanLe b a := by
  unfold SpanLe
  rcases Nat.lt_trichotomy a.timestamp b.timestamp with hlt | heq | hlt
  · exact .inl (.inl hlt)
  · rcases le_total a.spanId b.spanId with hle | hle
    · exact .inl (.inr ⟨heq, hle⟩)
    · exact .inr (.inr ⟨heq.symm, hle⟩)
  · exact .inr (.inl hlt)

theorem spanLe_trans (a b c : AccessTraceSpan) (hab : SpanLe a b) (hbc : SpanLe b c) :
    SpanLe a c := by
  rcases hab with hab | ⟨hab, hid⟩ <;> rcases hbc with hbc | ⟨hbc, hid'⟩
  · exact .inl (hab.trans hbc)
  · exact .inl (hbc ▸ hab)
  · exact .inl (hab ▸ hbc)
  · exact .inr ⟨hab.trans hbc, hid.trans hid'⟩

namespace Sample

def clickhouse : Clickhouse where
  sorter :=
    { order rows := rows.insertionSort SpanLe
      perm rows := List.perm_insertionSort _ rows
      sorted rows :=
        have : Std.Total SpanLe := ⟨spanLe_total⟩
        have : IsTrans AccessTraceSpan SpanLe := ⟨spanLe_trans⟩
        List.pairwise_insertionSort _ rows }
  argMin rows := rows.argmin (·.timestamp)
  argMin_eq_none _ := List.argmin_eq_none
  argMin_least _ _ h :=
    ⟨List.argmin_mem h, fun _ hs => List.le_of_mem_argmin hs h⟩
  tsToMs n := n

def limits : Settings where
  errorStatusThreshold := 500
  traceMaxSpans := 10000
  traceMaxDurationHours := 1
  errorStatusThreshold_ge := by decide

def root : AccessTraceSpan :=
  { timestamp := 1000, aic := "A", traceId := "t", spanId := "r", parentSpanId := ""
    durationMs := 100, responseStatus := 200, errorCode := "" }

def call (durationMs : ℕ) : AccessTraceSpan :=
  { timestamp := 1010, aic := "B", traceId := "t", spanId := "c", parentSpanId := "r"
    durationMs, responseStatus := 200, errorCode := "" }

def query : TraceQuery := { fromMs := 0, toMs := 2000, traceId := "t" }

end Sample

theorem outlasting_call_agrees : ∃ m s,
    getTraceSummary Sample.clickhouse Sample.limits [Sample.root, Sample.call 95] "t" = some m ∧
    runTracesQuery Sample.clickhouse Sample.limits [Sample.root, Sample.call 95] Sample.query =
      some s ∧ Agree m s := by
  have hm : getTraceSummary Sample.clickhouse Sample.limits [Sample.root, Sample.call 95]
      Sample.query.traceId = some ⟨1000, 1010, 105, 2, 0, some "r", some "A"⟩ := by
    decide +kernel
  have hs : runTracesQuery Sample.clickhouse Sample.limits [Sample.root, Sample.call 95]
      Sample.query = some ⟨1000, 1010, 105, 2, 0, some "A"⟩ := by
    decide +kernel
  refine ⟨_, _, hm, hs, (trace_summaries_agree_iff (by decide) (by decide) hm hs).1.mpr ?_⟩
  constructor
  · unfold EndsLast
    decide +kernel
  · unfold RootFirst
    decide +kernel

theorem nested_call_disagrees : ¬ ∀ (D : Clickhouse) (settings : Settings)
    (table : List AccessTraceSpan) (q : TraceQuery) (m : AccessTraceSummaryMeta)
    (s : AccessTraceSummary),
    (∀ a ∈ traceOf table q.traceId, q.fromMs ≤ a.timestamp ∧ a.timestamp ≤ q.toMs) →
    (traceOf table q.traceId).length ≤ settings.traceMaxSpans →
    getTraceSummary D settings table q.traceId = some m →
    runTracesQuery D settings table q = some s → Agree m s := by
  intro h
  have hm : getTraceSummary Sample.clickhouse Sample.limits [Sample.root, Sample.call 20]
      Sample.query.traceId = some ⟨1000, 1010, 30, 2, 0, some "r", some "A"⟩ := by
    decide +kernel
  have hs : runTracesQuery Sample.clickhouse Sample.limits [Sample.root, Sample.call 20]
      Sample.query = some ⟨1000, 1010, 100, 2, 0, some "A"⟩ := by
    decide +kernel
  have hagree := h _ _ _ _ _ _ (by decide) (by decide) hm hs
  exact absurd hagree.durationMs (by decide)

end Agreement

end Acps.Access.Traces
