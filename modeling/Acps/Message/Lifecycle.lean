import Mathlib.Data.Int.Notation
import Mathlib.Data.List.Dedup

/-!
The events of a message and the lifecycle that they make up: what the compaction computes for a
logical key from all events under it.
-/

namespace Acps.Message

abbrev Time := ℤ

structure LifecycleKey where
  system : String
  destinationName : String
  destinationKind : String
  virtualHost : String
  lifecycleKey : String
  deriving DecidableEq

structure EventRow where
  logId : String
  timestamp : Time
  observedAt : Time
  aic : String
  traceId : String
  correlationId : String
  eventType : String
  key : LifecycleKey
  subscriptionName : String
  consumerGroupName : String
  messageId : String
  deliveryAttempt : Option ℕ
  settlementReason : String
  deriving DecidableEq

structure LifecycleRow where
  key : LifecycleKey
  messageId : String
  correlationId : String
  traceId : String
  subscriptionName : String
  consumerGroupName : String
  firstSeenAt : Time
  lastSeenAt : Time
  compactedAt : Time
  deadLetteredAt : Option Time
  producerAics : List String
  consumerAics : List String
  sendCount : ℕ
  receiveCount : ℕ
  maxDeliveryAttempt : Option ℕ
  deadLettered : Bool
  deadLetterReason : String
  terminalState : String
  deriving DecidableEq

section Aggregates

variable (events : List EventRow)

def EventRow.Before (a b : EventRow) : Prop :=
  a.timestamp < b.timestamp ∨ a.timestamp = b.timestamp ∧ a.logId < b.logId

instance (a b : EventRow) : Decidable (a.Before b) :=
  inferInstanceAs (Decidable (a.timestamp < b.timestamp ∨
    a.timestamp = b.timestamp ∧ a.logId < b.logId))

def argMax (column : EventRow → String) : String :=
  (events.foldl (fun best e => best.elim (some e) fun b => if b.Before e then some e else some b)
    none).elim "" column

def argMaxIf (column : EventRow → String) (c : EventRow → Bool) : String :=
  argMax (events.filter c) column

def EventRow.isType (eventType : String) (e : EventRow) : Bool := e.eventType = eventType

def isSettlement (e : EventRow) : Bool := e.eventType ∈ ["ack", "nack", "reject", "timeout"]

def deadLetteredAt : Option Time :=
  ((events.filter (EventRow.isType "dead_letter")).map EventRow.timestamp).max?.filter (· ≠ 0)

def terminalState : String :=
  if events.any (EventRow.isType "dead_letter") then "dead_lettered"
  else argMaxIf events EventRow.eventType isSettlement

def lifecycleRow (key : LifecycleKey) (compactedAt : Time) (first : EventRow)
    (rest : List EventRow) : LifecycleRow :=
  let events := first :: rest
  { key
    messageId := argMax events EventRow.messageId
    correlationId := argMax events EventRow.correlationId
    traceId := argMax events EventRow.traceId
    subscriptionName := argMax events EventRow.subscriptionName
    consumerGroupName := argMax events EventRow.consumerGroupName
    firstSeenAt := rest.foldl (fun t e => min t e.timestamp) first.timestamp
    lastSeenAt := rest.foldl (fun t e => max t e.timestamp) first.timestamp
    compactedAt
    deadLetteredAt := deadLetteredAt events
    producerAics := ((events.filter (EventRow.isType "send")).map EventRow.aic).dedup
    consumerAics := ((events.filter (EventRow.isType "receive")).map EventRow.aic).dedup
    sendCount := events.countP (EventRow.isType "send")
    receiveCount := events.countP (EventRow.isType "receive")
    maxDeliveryAttempt := (events.filterMap EventRow.deliveryAttempt).max?
    deadLettered := events.any (EventRow.isType "dead_letter")
    deadLetterReason := argMaxIf events EventRow.settlementReason (EventRow.isType "dead_letter")
    terminalState := terminalState events }

end Aggregates

def under (key : LifecycleKey) (events : List EventRow) : List EventRow :=
  events.filter (·.key = key)

def recompute (key : LifecycleKey) (compactedAt : Time) (events : List EventRow) :
    Option LifecycleRow :=
  match under key events with
  | [] => none
  | first :: rest => some (lifecycleRow key compactedAt first rest)

theorem under_append (key : LifecycleKey) (events more : List EventRow) :
    under key (events ++ more) = under key events ++ under key more :=
  List.filter_append ..

theorem under_eq_nil {key : LifecycleKey} {events : List EventRow} :
    under key events = [] ↔ ∀ e ∈ events, e.key ≠ key := by
  simp [under]

theorem recompute_congr {key : LifecycleKey} {compactedAt : Time} {events events' : List EventRow}
    (h : under key events = under key events') :
    recompute key compactedAt events = recompute key compactedAt events' := by
  unfold recompute
  rw [h]

theorem recompute_eq_none {key : LifecycleKey} {compactedAt : Time} {events : List EventRow} :
    recompute key compactedAt events = none ↔ under key events = [] := by
  unfold recompute
  split <;> simp_all

theorem recompute_eq_some {key : LifecycleKey} {compactedAt : Time} {events : List EventRow}
    {row : LifecycleRow} (h : recompute key compactedAt events = some row) :
    row.key = key ∧ row.compactedAt = compactedAt := by
  unfold recompute at h
  split at h
  · cases h
  · obtain rfl := Option.some.inj h
    exact ⟨rfl, rfl⟩

def later (best : Option LifecycleRow) (r : LifecycleRow) : Option LifecycleRow :=
  best.elim (some r) fun b => if b.compactedAt < r.compactedAt then some r else some b

def newest (key : LifecycleKey) (rows : List LifecycleRow) : Option LifecycleRow :=
  (rows.filter (·.key = key)).foldl later none

theorem newest_append_of_ne {key : LifecycleKey} {rows more : List LifecycleRow}
    (h : ∀ r ∈ more, r.key ≠ key) : newest key (rows ++ more) = newest key rows := by
  have hnone : more.filter (·.key = key) = [] := by simpa using h
  unfold newest
  rw [List.filter_append, hnone, List.append_nil]

theorem foldl_later_bound {rows : List LifecycleRow} {r : LifecycleRow} {best : Option LifecycleRow}
    (hbest : ∀ b ∈ best, b.compactedAt < r.compactedAt)
    (h : ∀ r' ∈ rows, r'.compactedAt < r.compactedAt) :
    ∀ b ∈ rows.foldl later best, b.compactedAt < r.compactedAt := by
  induction rows generalizing best with
  | nil => exact hbest
  | cons r' rows ih =>
    apply ih _ fun x hx => h x (List.mem_cons_of_mem r' hx)
    have hr' := h r' List.mem_cons_self
    cases best with
    | none =>
      intro b hb
      obtain rfl := Option.some.inj hb
      exact hr'
    | some c =>
      intro b hb
      simp only [later, Option.elim_some] at hb
      split at hb
      · obtain rfl := Option.some.inj hb
        exact hr'
      · obtain rfl := Option.some.inj hb
        exact hbest c rfl

theorem foldl_later_same {rows : List LifecycleRow} {r : LifecycleRow}
    (h : ∀ r' ∈ rows, r' = r) : rows.foldl later (some r) = some r := by
  induction rows with
  | nil => rfl
  | cons r' rows ih =>
    obtain rfl := h r' List.mem_cons_self
    have hhead : later (some r') r' = some r' := by simp [later]
    rw [List.foldl_cons, hhead]
    exact ih fun x hx => h x (List.mem_cons_of_mem r' hx)

theorem newest_append_later {key : LifecycleKey} {rows more : List LifecycleRow} {r : LifecycleRow}
    (hrows : ∀ r' ∈ rows, r'.key = key → r'.compactedAt < r.compactedAt)
    (hmore : ∀ r' ∈ more, r'.key = key → r' = r) (hr : r ∈ more) (hkey : r.key = key) :
    newest key (rows ++ more) = some r := by
  have hold : ∀ b ∈ (rows.filter (·.key = key)).foldl later none, b.compactedAt < r.compactedAt := by
    apply foldl_later_bound (fun b hb => by cases hb)
    intro r' hr'
    obtain ⟨hmem, hkey'⟩ := List.mem_filter.mp hr'
    exact hrows r' hmem (of_decide_eq_true hkey')
  have hnew : ∀ r' ∈ more.filter (·.key = key), r' = r := by
    intro r' hr'
    obtain ⟨hmem, hkey'⟩ := List.mem_filter.mp hr'
    exact hmore r' hmem (of_decide_eq_true hkey')
  have hmem : r ∈ more.filter (·.key = key) := List.mem_filter.mpr ⟨hr, decide_eq_true hkey⟩
  unfold newest
  rw [List.filter_append, List.foldl_append]
  generalize (rows.filter (·.key = key)).foldl later none = best at hold ⊢
  cases hsplit : more.filter (·.key = key) with
  | nil =>
    rw [hsplit] at hmem
    cases hmem
  | cons r' rest =>
    rw [hsplit] at hnew
    obtain rfl := hnew r' List.mem_cons_self
    have hhead : later best r' = some r' := by
      cases best with
      | none => rfl
      | some b =>
        unfold later
        rw [Option.elim_some, if_pos (hold b rfl)]
    rw [List.foldl_cons, hhead]
    exact foldl_later_same fun x hx => hnew x (List.mem_cons_of_mem r' hx)

end Acps.Message
