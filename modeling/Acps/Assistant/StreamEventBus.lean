import Mathlib.Logic.Function.Basic
import Acps.Lib.Slots
import Acps.Lib.Transition
import Acps.Partner.Task

/-!
The bus for the events of streams: the partners that are executed over a stream push the events of
their session, and each of them a sentinel at its end; every subscriber has a queue of its own.
-/

namespace Acps.Assistant

open Transition Slots
open Partner (Time)

abbrev SessionId := String

def doneTtl : ℕ := 300

structure StreamEventBus (ε : Type) where
  subscribers : SessionId → List ℕ
  doneAt : SessionId → Option Time
  queues : List (List (Option ε))

variable {ε : Type}

namespace StreamEventBus

variable (bus : StreamEventBus ε)

def put (event : Option ε) (q : ℕ) : StreamEventBus ε :=
  { bus with queues := bus.queues.modify q fun queue => queue ++ [event] }

def putAll (event : Option ε) (qs : List ℕ) : StreamEventBus ε :=
  qs.foldl (fun bus q => bus.put event q) bus

def expired (now : Time) (sessionId : SessionId) : Bool :=
  (bus.doneAt sessionId).any fun doneAt => doneTtl < now - doneAt

def cleanupExpired (now : Time) : StreamEventBus ε :=
  { bus with
    doneAt := fun sessionId => if bus.expired now sessionId then none else bus.doneAt sessionId
    subscribers := fun sessionId =>
      if bus.expired now sessionId then [] else bus.subscribers sessionId }

def subscribe (sessionId : SessionId) : StreamEventBus ε :=
  if (bus.doneAt sessionId).isSome then { bus with queues := bus.queues ++ [[none]] }
  else
    { bus with
      queues := bus.queues ++ [[]]
      subscribers := Function.update bus.subscribers sessionId
        (bus.subscribers sessionId ++ [bus.queues.length]) }

def unsubscribe (sessionId : SessionId) (q : ℕ) : StreamEventBus ε :=
  { bus with subscribers :=
    Function.update bus.subscribers sessionId ((bus.subscribers sessionId).erase q) }

def push (sessionId : SessionId) (event : ε) : StreamEventBus ε :=
  bus.putAll (some event) (bus.subscribers sessionId)

def pushEnd (sessionId : SessionId) (now : Time) : StreamEventBus ε :=
  let bus := { bus with doneAt := Function.update bus.doneAt sessionId (some now) }.cleanupExpired now
  bus.putAll none (bus.subscribers sessionId)

end StreamEventBus

structure Subscription where
  sessionId : SessionId
  since : ℕ
  connected : Bool

/-- The bus between the streaming partners that are running, each with its session, and the clients:
the subscription of queue `i` is the `i`-th one. `pushed` only records. -/
structure Streaming (ε : Type) where
  bus : StreamEventBus ε
  subscriptions : List Subscription
  running : List SessionId
  pushed : SessionId → List ε

inductive StreamingAct (ε : Type) where
  | subscribe (sessionId : SessionId)
  | unsubscribe (i : ℕ)
  | start (sessionId : SessionId)
  | event (sessionId : SessionId) (event : ε)
  | finish (sessionId : SessionId) (now : Time)

namespace Streaming

def initial : Streaming ε :=
  { bus := { subscribers := fun _ => [], doneAt := fun _ => none, queues := [] }
    subscriptions := [], running := [], pushed := fun _ => [] }

variable (s : Streaming ε)

def subscribe (sessionId : SessionId) : Streaming ε :=
  { s with
    bus := s.bus.subscribe sessionId
    subscriptions := s.subscriptions ++
      [{ sessionId, since := (s.pushed sessionId).length, connected := true }] }

def unsubscribe (i : ℕ) : Option (Streaming ε) :=
  (s.subscriptions[i]?).bind fun subscription =>
    if subscription.connected then
      some { s with
        bus := s.bus.unsubscribe subscription.sessionId i
        subscriptions := s.subscriptions.modify i fun subscription =>
          { subscription with connected := false } }
    else none

def event (sessionId : SessionId) (event : ε) : Option (Streaming ε) :=
  if sessionId ∈ s.running then
    some { s with
      bus := s.bus.push sessionId event
      pushed := Function.update s.pushed sessionId (s.pushed sessionId ++ [event]) }
  else none

def finish (sessionId : SessionId) (now : Time) : Option (Streaming ε) :=
  if sessionId ∈ s.running then
    some { s with
      bus := s.bus.pushEnd sessionId now
      running := s.running.erase sessionId }
  else none

def step : StreamingAct ε → Option (Streaming ε)
  | .subscribe sessionId => some (s.subscribe sessionId)
  | .unsubscribe i => s.unsubscribe i
  | .start sessionId => some { s with running := s.running ++ [sessionId] }
  | .event sessionId event => s.event sessionId event
  | .finish sessionId now => s.finish sessionId now

end Streaming

def streaming (ε : Type) : System (Streaming ε) (StreamingAct ε) := ⟨fun s => s.step⟩

namespace Streaming

def received (s : Streaming ε) (i : ℕ) : List (Option ε) := (s.bus.queues[i]?).getD []

def sentinels (s : Streaming ε) (i : ℕ) : ℕ := (s.received i).countP Option.isNone

/-- Who is still subscribed has received, before any sentinel, all the events that were pushed since
it subscribed. -/
def Complete (s : Streaming ε) : Prop :=
  ∀ (i : ℕ) (subscription : Subscription), s.subscriptions[i]? = some subscription →
    subscription.connected = true → (s.received i).takeWhile Option.isSome =
      ((s.pushed subscription.sessionId).drop subscription.since).map some

/-- A step leaves nobody without an event, and puts a sentinel into a queue only if no streaming partner
of its session is running. -/
def Delivers (s : Streaming ε) (a : StreamingAct ε) : Prop :=
  ∀ t, s.step a = some t → t.Complete ∧
    ∀ (i : ℕ) (subscription : Subscription), t.subscriptions[i]? = some subscription →
      s.sentinels i < t.sentinels i → subscription.sessionId ∉ t.running

/-- No stream ends before the others of its session if somebody listens; nobody subscribes after an end
while a partner is running; and no event is pushed while somebody is subscribed that has got the
sentinel. -/
def Single (s : Streaming ε) : StreamingAct ε → Prop
  | .subscribe sessionId => (s.bus.doneAt sessionId).isSome = true → sessionId ∉ s.running
  | .event sessionId _ => ∀ i ∈ List.range s.subscriptions.length,
    (s.subscriptions[i]?).all (fun subscription => subscription.connected = true →
      subscription.sessionId = sessionId → s.sentinels i = 0) = true
  | .finish sessionId _ => s.bus.subscribers sessionId ≠ [] → sessionId ∉ s.running.erase sessionId
  | _ => True

instance (s : Streaming ε) (a : StreamingAct ε) : Decidable (s.Single a) := by
  cases a with
  | subscribe sessionId =>
    exact inferInstanceAs (Decidable ((s.bus.doneAt sessionId).isSome = true →
      sessionId ∉ s.running))
  | event sessionId event =>
    exact inferInstanceAs (Decidable (∀ i ∈ List.range s.subscriptions.length,
      (s.subscriptions[i]?).all (fun subscription => subscription.connected = true →
        subscription.sessionId = sessionId → s.sentinels i = 0) = true))
  | finish sessionId now =>
    exact inferInstanceAs (Decidable (s.bus.subscribers sessionId ≠ [] →
      sessionId ∉ s.running.erase sessionId))
  | unsubscribe | start => exact instDecidableTrue

structure Inv (s : Streaming ε) : Prop where
  length : s.bus.queues.length = s.subscriptions.length
  nodup : ∀ sessionId, (s.bus.subscribers sessionId).Nodup
  registered : ∀ sessionId, ∀ i ∈ s.bus.subscribers sessionId, ∃ subscription : Subscription,
    s.subscriptions[i]? = some subscription ∧ subscription.sessionId = sessionId ∧
      subscription.connected = true
  waiting : ∀ (i : ℕ) (subscription : Subscription), s.subscriptions[i]? = some subscription →
    subscription.connected = true → s.sentinels i = 0 →
      i ∈ s.bus.subscribers subscription.sessionId
  done : ∀ sessionId, (s.bus.doneAt sessionId).isSome = true →
    ∀ i ∈ s.bus.subscribers sessionId, s.sentinels i ≠ 0
  since : ∀ subscription ∈ s.subscriptions,
    subscription.since ≤ (s.pushed subscription.sessionId).length

end Streaming

section Put

variable {bus : StreamEventBus ε} {event : Option ε} {sessionId : SessionId} {now : Time}

theorem length_putAll (bus : StreamEventBus ε) (event : Option ε) (qs : List ℕ) :
    (bus.putAll event qs).queues.length = bus.queues.length := by
  induction qs generalizing bus with
  | nil => rfl
  | cons q qs ih =>
    refine (ih (bus.put event q)).trans ?_
    exact List.length_modify ..

theorem subscribers_putAll (bus : StreamEventBus ε) (event : Option ε) (qs : List ℕ) :
    (bus.putAll event qs).subscribers = bus.subscribers ∧
      (bus.putAll event qs).doneAt = bus.doneAt := by
  induction qs generalizing bus with
  | nil => exact ⟨rfl, rfl⟩
  | cons q qs ih => exact ih (bus.put event q)

theorem queues_putAll_of_notMem (bus : StreamEventBus ε) (event : Option ε) {qs : List ℕ} {i : ℕ}
    (hi : i ∉ qs) : (bus.putAll event qs).queues[i]? = bus.queues[i]? := by
  induction qs generalizing bus with
  | nil => rfl
  | cons q qs ih =>
    obtain ⟨hq, hqs⟩ := not_or.mp (fun h => hi (List.mem_cons.mpr h))
    refine (ih (bus.put event q) hqs).trans ?_
    exact List.getElem?_modify_ne _ _ (Ne.symm hq)

theorem queues_putAll_of_mem (bus : StreamEventBus ε) (event : Option ε) {qs : List ℕ} {i : ℕ}
    (hqs : qs.Nodup) (hi : i ∈ qs) :
    (bus.putAll event qs).queues[i]? = (bus.queues[i]?).map (· ++ [event]) := by
  induction qs generalizing bus with
  | nil => cases hi
  | cons q qs ih =>
    obtain ⟨hq, hqs⟩ := List.nodup_cons.mp hqs
    rcases List.mem_cons.mp hi with rfl | hi
    · refine (queues_putAll_of_notMem (bus.put event i) event hq).trans ?_
      exact List.getElem?_modify_eq ..
    · have hne : q ≠ i := by
        rintro rfl
        exact hq hi
      rw [show bus.putAll event (q :: qs) = (bus.put event q).putAll event qs from rfl, ih _ hqs hi]
      congr 1
      exact List.getElem?_modify_ne _ _ hne

theorem subscribers_cleanup (bus : StreamEventBus ε) (sessionId : SessionId) (now : Time) :
    (StreamEventBus.cleanupExpired { bus with
      doneAt := Function.update bus.doneAt sessionId (some now) } now).subscribers sessionId =
      bus.subscribers sessionId := by
  unfold StreamEventBus.cleanupExpired StreamEventBus.expired
  simp

end Put

namespace Streaming

section Invariant

variable {s t : Streaming ε} {a : StreamingAct ε} {sessionId : SessionId} {now : Time}

theorem inv_initial : (initial : Streaming ε).Inv where
  length := rfl
  nodup := fun _ => List.nodup_nil
  registered := by
    intro sessionId i hi
    cases hi
  waiting := by
    intro i subscription h
    cases h
  done := by
    intro sessionId h
    cases h
  since := by
    intro subscription h
    cases h

theorem exists_received (h : s.Inv) {i : ℕ} {subscription : Subscription}
    (hi : s.subscriptions[i]? = some subscription) : s.bus.queues[i]? = some (s.received i) := by
  have hlt : i < s.bus.queues.length := by
    rw [h.length]
    exact (List.getElem?_eq_some_iff.mp hi).1
  unfold received
  rw [List.getElem?_eq_getElem hlt]
  rfl

theorem received_putAll {bus : StreamEventBus ε} {event : Option ε} {qs : List ℕ} (h : s.Inv)
    (hbus : bus.queues = s.bus.queues) (ht : t.bus = bus.putAll event qs) (hqs : qs.Nodup) {i : ℕ}
    {subscription : Subscription} (hi : s.subscriptions[i]? = some subscription) :
    t.received i = if i ∈ qs then s.received i ++ [event] else s.received i := by
  have hqueue := exists_received h hi
  unfold received
  rw [ht]
  split
  · next hmem => rw [queues_putAll_of_mem bus event hqs hmem, hbus, hqueue]; rfl
  · next hmem => rw [queues_putAll_of_notMem bus event hmem, hbus]

theorem sentinels_concat (queue : List (Option ε)) (event : Option ε) :
    (queue ++ [event]).countP Option.isNone =
      queue.countP Option.isNone + if event.isNone then 1 else 0 := by
  rw [List.countP_append, List.countP_singleton]

theorem inv_subscribe (h : s.Inv) (sessionId : SessionId) : (s.subscribe sessionId).Inv := by
  have hlength := h.length
  have hold {i : ℕ} (hi : i < s.subscriptions.length) :
      (s.subscribe sessionId).received i = s.received i := by
    unfold received subscribe StreamEventBus.subscribe
    rw [← hlength] at hi
    split
    · rw [List.getElem?_append_left hi]
    · rw [List.getElem?_append_left hi]
  have hlt {y : SessionId} {i : ℕ} (hi : i ∈ s.bus.subscribers y) : i < s.subscriptions.length := by
    obtain ⟨subscription, hsub, -⟩ := h.registered y i hi
    exact (List.getElem?_eq_some_iff.mp hsub).1
  -- Who is registered was so before, or is the new subscriber.
  have hmem {y : SessionId} {i : ℕ} (hi : i ∈ (s.subscribe sessionId).bus.subscribers y) :
      i ∈ s.bus.subscribers y ∨
        i = s.subscriptions.length ∧ y = sessionId ∧ s.bus.doneAt sessionId = none := by
    unfold subscribe StreamEventBus.subscribe at hi
    split at hi
    · exact .inl hi
    · next hnone =>
      dsimp only at hi
      by_cases hy : y = sessionId
      · subst hy
        rw [Function.update_self] at hi
        rcases List.mem_append.mp hi with hi | hi
        · exact .inl hi
        · exact .inr ⟨(List.mem_singleton.mp hi).trans hlength, rfl, by simpa using hnone⟩
      · rw [Function.update_of_ne hy] at hi
        exact .inl hi
  have hdone : (s.subscribe sessionId).bus.doneAt = s.bus.doneAt := by
    unfold subscribe StreamEventBus.subscribe
    split <;> rfl
  refine ⟨?_, ?_, ?_, ?_, ?_, ?_⟩
  · unfold subscribe StreamEventBus.subscribe
    split
    · simp [hlength]
    · simp [hlength]
  · intro y
    unfold subscribe StreamEventBus.subscribe
    split
    · exact h.nodup y
    · dsimp only
      by_cases hy : y = sessionId
      · subst hy
        rw [Function.update_self]
        refine List.Nodup.append (h.nodup y) (List.nodup_singleton _) ?_
        rw [List.disjoint_singleton]
        intro hi
        exact absurd (hlt hi) (by rw [hlength]; exact Nat.lt_irrefl _)
      · rw [Function.update_of_ne hy]
        exact h.nodup y
  · intro y i hi
    rcases hmem hi with hi | ⟨rfl, rfl, -⟩
    · obtain ⟨subscription, hsub, hrest⟩ := h.registered y i hi
      exact ⟨subscription, getElem?_concat_eq_some.mpr (.inl hsub), hrest⟩
    · exact ⟨_, getElem?_concat_eq_some.mpr (.inr ⟨rfl, rfl⟩), rfl, rfl⟩
  · intro i subscription hi hconnected hnone
    rcases getElem?_concat_eq_some.mp hi with hi | ⟨rfl, rfl⟩
    · have hlt := (List.getElem?_eq_some_iff.mp hi).1
      unfold sentinels at hnone
      rw [hold hlt] at hnone
      have hregistered := h.waiting i subscription hi hconnected hnone
      unfold subscribe StreamEventBus.subscribe
      split
      · exact hregistered
      · dsimp only
        by_cases hy : subscription.sessionId = sessionId
        · rw [← hy, Function.update_self]
          exact List.mem_append_left _ hregistered
        · rw [Function.update_of_ne hy]
          exact hregistered
    · unfold sentinels received subscribe StreamEventBus.subscribe at hnone
      unfold subscribe StreamEventBus.subscribe
      split
      · next hsome =>
        rw [if_pos hsome, ← hlength] at hnone
        simp at hnone
      · dsimp only
        rw [Function.update_self, hlength]
        exact List.mem_append_right _ (List.mem_singleton_self _)
  · intro y hy i hi
    rw [hdone] at hy
    rcases hmem hi with hi | ⟨-, rfl, hnone⟩
    · unfold sentinels
      rw [hold (hlt hi)]
      exact h.done y hy i hi
    · rw [hnone] at hy
      cases hy
  · intro subscription hsub
    rcases List.mem_append.mp hsub with hsub | hsub
    · exact h.since subscription hsub
    · obtain rfl := List.mem_singleton.mp hsub
      exact Nat.le_refl _

theorem inv_unsubscribe (h : s.Inv) {i : ℕ} (ht : s.unsubscribe i = some t) : t.Inv := by
  obtain ⟨left, hleft, ht⟩ := Option.bind_eq_some_iff.mp ht
  obtain ⟨-, ht⟩ := Option.ite_none_right_eq_some.mp ht
  obtain rfl := Option.some.inj ht
  have hmem {y : SessionId} {j : ℕ}
      (hj : j ∈ (s.bus.unsubscribe left.sessionId i).subscribers y) :
      j ∈ s.bus.subscribers y ∧ (y = left.sessionId → j ≠ i) := by
    unfold StreamEventBus.unsubscribe at hj
    dsimp only at hj
    by_cases hy : y = left.sessionId
    · subst hy
      rw [Function.update_self, (h.nodup _).mem_erase_iff] at hj
      exact ⟨hj.2, fun _ => hj.1⟩
    · rw [Function.update_of_ne hy] at hj
      exact ⟨hj, fun hyes => absurd hyes hy⟩
  refine ⟨by simpa [StreamEventBus.unsubscribe] using h.length, ?_, ?_, ?_, ?_, ?_⟩
  · intro y
    unfold StreamEventBus.unsubscribe
    dsimp only
    by_cases hy : y = left.sessionId
    · subst hy
      rw [Function.update_self]
      exact (h.nodup _).erase _
    · rw [Function.update_of_ne hy]
      exact h.nodup y
  · intro y j hj
    obtain ⟨hj, hne⟩ := hmem hj
    obtain ⟨subscription, hsub, hy, hconnected⟩ := h.registered y j hj
    refine ⟨subscription, getElem?_modify_eq_some.mpr (.inr ⟨?_, hsub⟩), hy, hconnected⟩
    rintro rfl
    obtain rfl := Option.some.inj (hleft.symm.trans hsub)
    exact hne hy.symm rfl
  · intro j subscription hsub hconnected hnone
    rcases getElem?_modify_eq_some.mp hsub with ⟨-, old, -, rfl⟩ | ⟨hne, hsub⟩
    · cases hconnected
    · have hregistered := h.waiting j subscription hsub hconnected hnone
      change j ∈ Function.update s.bus.subscribers left.sessionId _ subscription.sessionId
      by_cases hy : subscription.sessionId = left.sessionId
      · rw [hy] at hregistered ⊢
        rw [Function.update_self, (h.nodup _).mem_erase_iff]
        exact ⟨Ne.symm hne, hregistered⟩
      · rw [Function.update_of_ne hy]
        exact hregistered
  · intro y hy j hj
    exact h.done y hy j (hmem hj).1
  · intro subscription hsub
    obtain ⟨j, hj⟩ := List.mem_iff_getElem?.mp hsub
    rcases getElem?_modify_eq_some.mp hj with ⟨-, old, hold, rfl⟩ | ⟨-, hj⟩
    · exact h.since old (List.mem_of_getElem? hold)
    · exact h.since subscription (List.mem_of_getElem? hj)

theorem inv_event (h : s.Inv) {event : ε} (ht : s.event sessionId event = some t) : t.Inv := by
  obtain ⟨-, ht⟩ := Option.ite_none_right_eq_some.mp ht
  obtain rfl := Option.some.inj ht
  obtain ⟨hsubscribers, hdone⟩ :=
    subscribers_putAll s.bus (some event) (s.bus.subscribers sessionId)
  have hsentinels {i : ℕ} {subscription : Subscription}
      (hi : s.subscriptions[i]? = some subscription) :
      ((s.bus.push sessionId event).queues[i]?.getD []).countP Option.isNone = s.sentinels i := by
    have hreceived := received_putAll (t := { s with bus := s.bus.push sessionId event }) h rfl rfl
      (h.nodup sessionId) hi
    unfold received at hreceived
    dsimp only at hreceived
    rw [hreceived]
    split
    · rw [sentinels_concat]
      rfl
    · rfl
  refine ⟨?_, ?_, ?_, ?_, ?_, ?_⟩
  · exact (length_putAll _ _ _).trans h.length
  · intro y
    exact hsubscribers ▸ h.nodup y
  · intro y i hi
    unfold StreamEventBus.push at hi
    dsimp only at hi
    rw [hsubscribers] at hi
    exact h.registered y i hi
  · intro i subscription hi hconnected hnone
    have hnone : ((s.bus.push sessionId event).queues[i]?.getD []).countP Option.isNone = 0 := hnone
    rw [hsentinels hi] at hnone
    have hregistered := h.waiting i subscription hi hconnected hnone
    unfold StreamEventBus.push
    dsimp only
    rw [hsubscribers]
    exact hregistered
  · intro y hy i hi
    unfold StreamEventBus.push at hy hi
    dsimp only at hy hi
    rw [hdone] at hy
    rw [hsubscribers] at hi
    obtain ⟨subscription, hsub, -⟩ := h.registered y i hi
    have hkept := h.done y hy i hi
    rw [← hsentinels hsub] at hkept
    exact hkept
  · intro subscription hsub
    have hsince := h.since subscription hsub
    dsimp only
    by_cases hy : subscription.sessionId = sessionId
    · rw [hy, Function.update_self, List.length_append]
      rw [hy] at hsince
      exact Nat.le_add_right_of_le hsince
    · rw [Function.update_of_ne hy]
      exact hsince

theorem pushEnd_registered (bus : StreamEventBus ε) (sessionId y : SessionId) (now : Time) :
    (bus.pushEnd sessionId now).subscribers y =
      (if y ≠ sessionId ∧ bus.expired now y then [] else bus.subscribers y) ∧
    (bus.pushEnd sessionId now).doneAt y =
      if y = sessionId then some now else if bus.expired now y then none else bus.doneAt y := by
  unfold StreamEventBus.pushEnd
  dsimp only
  obtain ⟨hsubscribers, hdone⟩ := subscribers_putAll (StreamEventBus.cleanupExpired { bus with
    doneAt := Function.update bus.doneAt sessionId (some now) } now) none
    ((StreamEventBus.cleanupExpired { bus with
      doneAt := Function.update bus.doneAt sessionId (some now) } now).subscribers sessionId)
  rw [hsubscribers, hdone]
  unfold StreamEventBus.cleanupExpired StreamEventBus.expired
  dsimp only
  by_cases hy : y = sessionId
  · subst hy
    simp
  · simp [hy]

theorem received_finish (h : s.Inv) (ht : s.finish sessionId now = some t) {i : ℕ}
    {subscription : Subscription} (hi : s.subscriptions[i]? = some subscription) :
    t.received i = if i ∈ s.bus.subscribers sessionId then s.received i ++ [none]
      else s.received i := by
  obtain ⟨-, ht⟩ := Option.ite_none_right_eq_some.mp ht
  obtain rfl := Option.some.inj ht
  have hcleaned : (StreamEventBus.cleanupExpired { s.bus with
      doneAt := Function.update s.bus.doneAt sessionId (some now) } now).queues = s.bus.queues := rfl
  refine received_putAll h hcleaned ?_ (h.nodup sessionId) hi
  unfold StreamEventBus.pushEnd
  dsimp only
  rw [subscribers_cleanup]

theorem sentinels_finish (h : s.Inv) (ht : s.finish sessionId now = some t) {i : ℕ}
    {subscription : Subscription} (hi : s.subscriptions[i]? = some subscription) :
    t.sentinels i = s.sentinels i + if i ∈ s.bus.subscribers sessionId then 1 else 0 := by
  unfold sentinels
  rw [received_finish h ht hi]
  split
  · rw [sentinels_concat]
    rfl
  · rfl

theorem inv_finish (h : s.Inv) (ht : s.finish sessionId now = some t) : t.Inv := by
  have hsentinels {i : ℕ} {subscription : Subscription}
      (hi : s.subscriptions[i]? = some subscription) := sentinels_finish h ht hi
  obtain ⟨-, ht⟩ := Option.ite_none_right_eq_some.mp ht
  obtain rfl := Option.some.inj ht
  have hregistered (y : SessionId) := pushEnd_registered s.bus sessionId y now
  have hmem {y : SessionId} {i : ℕ} (hi : i ∈ (s.bus.pushEnd sessionId now).subscribers y) :
      i ∈ s.bus.subscribers y := by
    rw [(hregistered y).1] at hi
    split at hi
    · cases hi
    · exact hi
  refine ⟨?_, ?_, ?_, ?_, ?_, h.since⟩
  · exact (length_putAll _ _ _).trans h.length
  · intro y
    dsimp only
    rw [(hregistered y).1]
    split
    · exact List.nodup_nil
    · exact h.nodup y
  · intro y i hi
    exact h.registered y i (hmem hi)
  · intro i subscription hi hconnected hnone
    rw [hsentinels hi] at hnone
    obtain ⟨hnone, hother⟩ := Nat.add_eq_zero_iff.mp hnone
    have hwaiting := h.waiting i subscription hi hconnected hnone
    dsimp only
    rw [(hregistered subscription.sessionId).1, if_neg]
    · exact hwaiting
    · -- The end of its session would be remembered, and its sentinel with it.
      rintro ⟨-, hexpired⟩
      obtain ⟨doneAt, hdone, -⟩ := (Option.any_eq_true _ _).mp hexpired
      exact h.done subscription.sessionId (by rw [hdone]; rfl) i hwaiting hnone
  · intro y hy i hi
    have hold := hmem hi
    obtain ⟨subscription, hsub, hsession, -⟩ := h.registered y i hold
    rw [hsentinels hsub]
    by_cases hself : y = sessionId
    · subst hself
      rw [if_pos hold]
      exact Nat.succ_ne_zero _
    · dsimp only at hy
      rw [(hregistered y).2, if_neg hself] at hy
      split at hy
      · cases hy
      · intro hzero
        exact h.done y hy i hold (Nat.add_eq_zero_iff.mp hzero).1

theorem inv_step (h : s.Inv) (ht : s.step a = some t) : t.Inv := by
  cases a with
  | subscribe sessionId =>
    obtain rfl := Option.some.inj ht
    exact inv_subscribe h sessionId
  | unsubscribe i => exact inv_unsubscribe h ht
  | start sessionId =>
    obtain rfl := Option.some.inj ht
    exact ⟨h.length, h.nodup, h.registered, h.waiting, h.done, h.since⟩
  | event sessionId event => exact inv_event h ht
  | finish sessionId now => exact inv_finish h ht

end Invariant

section Delivery

variable {s t : Streaming ε} {a : StreamingAct ε} {sessionId : SessionId} {now : Time}

theorem takeWhile_concat_none (queue : List (Option ε)) :
    (queue ++ [none]).takeWhile Option.isSome = queue.takeWhile Option.isSome := by
  induction queue with
  | nil => rfl
  | cons item queue ih =>
    cases item with
    | none => rfl
    | some event => simp [ih]

theorem takeWhile_concat (queue : List (Option ε)) (event : ε) :
    (queue ++ [some event]).takeWhile Option.isSome =
      if queue.countP Option.isNone = 0 then queue.takeWhile Option.isSome ++ [some event]
      else queue.takeWhile Option.isSome := by
  induction queue with
  | nil => rfl
  | cons item queue ih =>
    cases item with
    | none => simp
    | some event' =>
      simp only [List.cons_append, List.takeWhile_cons, Option.isSome_some, ↓reduceIte, ih,
        List.countP_cons, Option.isNone_some, Bool.false_eq_true, Nat.add_zero]
      split <;> rfl

theorem single_event {event : ε} : s.Single (.event sessionId event) ↔
    ∀ (i : ℕ) (subscription : Subscription), s.subscriptions[i]? = some subscription →
      subscription.connected = true → subscription.sessionId = sessionId → s.sentinels i = 0 := by
  change (∀ i ∈ List.range s.subscriptions.length, _) ↔ _
  constructor
  · intro h i subscription hi
    have hall := h i (List.mem_range.mpr (List.getElem?_eq_some_iff.mp hi).1)
    rw [hi, Option.all_some] at hall
    exact of_decide_eq_true hall
  · intro h i hi
    cases hsub : s.subscriptions[i]? with
    | none => rfl
    | some subscription => exact decide_eq_true (h i subscription hsub)

theorem delivers_event (h : s.Inv) (hcomplete : s.Complete) {event : ε}
    (hrunning : sessionId ∈ s.running) :
    s.Delivers (.event sessionId event) ↔ s.Single (.event sessionId event) := by
  have hstep : s.step (.event sessionId event) = some { s with
      bus := s.bus.push sessionId event
      pushed := Function.update s.pushed sessionId (s.pushed sessionId ++ [event]) } :=
    if_pos hrunning
  have hreceived {i : ℕ} {subscription : Subscription}
      (hi : s.subscriptions[i]? = some subscription) :
      Streaming.received { s with
        bus := s.bus.push sessionId event
        pushed := Function.update s.pushed sessionId (s.pushed sessionId ++ [event]) } i =
      if i ∈ s.bus.subscribers sessionId then s.received i ++ [some event] else s.received i :=
    received_putAll h rfl rfl (h.nodup sessionId) hi
  -- The events that a subscriber of the session is to have received by then.
  have hsince {i : ℕ} {subscription : Subscription}
      (hi : s.subscriptions[i]? = some subscription) (hsession : subscription.sessionId = sessionId) :
      (s.pushed sessionId ++ [event]).drop subscription.since =
        (s.pushed sessionId).drop subscription.since ++ [event] := by
    have hle := h.since subscription (List.mem_of_getElem? hi)
    rw [hsession] at hle
    exact List.drop_append_of_le_length hle
  rw [single_event]
  constructor
  · intro hdelivers i subscription hi hconnected hsession
    have hafter := (hdelivers _ hstep).1 i subscription hi hconnected
    have hbefore := hcomplete i subscription hi hconnected
    rw [hreceived hi] at hafter
    dsimp only at hafter
    rw [hsession, Function.update_self, hsince hi hsession, List.map_append] at hafter
    rw [hsession] at hbefore
    by_contra hsome
    have hkept : (if i ∈ s.bus.subscribers sessionId then s.received i ++ [some event]
        else s.received i).takeWhile Option.isSome = (s.received i).takeWhile Option.isSome := by
      split
      · rw [takeWhile_concat]
        exact if_neg hsome
      · rfl
    rw [hkept, hbefore] at hafter
    simpa using congrArg List.length hafter
  · rintro hsingle t ht
    obtain rfl := Option.some.inj (hstep.symm.trans ht)
    constructor
    · intro i subscription hi hconnected
      have hi : s.subscriptions[i]? = some subscription := hi
      have hbefore := hcomplete i subscription hi hconnected
      rw [hreceived hi]
      dsimp only
      by_cases hsession : subscription.sessionId = sessionId
      · have hnone := hsingle i subscription hi hconnected hsession
        have hregistered := h.waiting i subscription hi hconnected hnone
        rw [hsession] at hregistered hbefore ⊢
        rw [if_pos hregistered, takeWhile_concat]
        unfold sentinels at hnone
        rw [if_pos hnone, hbefore, Function.update_self, hsince hi hsession, List.map_append]
        rfl
      · rw [Function.update_of_ne hsession, if_neg]
        · exact hbefore
        · intro hmem
          obtain ⟨subscription', hi', hsession', -⟩ := h.registered sessionId i hmem
          obtain rfl := Option.some.inj (hi.symm.trans hi')
          exact hsession hsession'
    · intro i subscription hi hmore
      have hi : s.subscriptions[i]? = some subscription := hi
      unfold sentinels at hmore
      rw [hreceived hi] at hmore
      split at hmore
      · rw [sentinels_concat] at hmore
        exact absurd hmore (Nat.lt_irrefl _)
      · exact absurd hmore (Nat.lt_irrefl _)

theorem delivers_finish (h : s.Inv) (hcomplete : s.Complete) (hrunning : sessionId ∈ s.running) :
    s.Delivers (.finish sessionId now) ↔ s.Single (.finish sessionId now) := by
  have hstep : s.finish sessionId now = some { s with
      bus := s.bus.pushEnd sessionId now, running := s.running.erase sessionId } := if_pos hrunning
  constructor
  · intro hdelivers hlistened
    obtain ⟨i, hi⟩ := List.exists_mem_of_ne_nil _ hlistened
    obtain ⟨subscription, hsub, hsession, -⟩ := h.registered sessionId i hi
    have hended := (hdelivers _ hstep).2 i subscription hsub
    rw [sentinels_finish h hstep hsub, if_pos hi, hsession] at hended
    exact hended (Nat.lt_succ_self _)
  · rintro hsingle t ht
    obtain rfl := Option.some.inj (hstep.symm.trans ht)
    constructor
    · intro i subscription hi hconnected
      have hi : s.subscriptions[i]? = some subscription := hi
      rw [received_finish h hstep hi]
      split
      · rw [takeWhile_concat_none]
        exact hcomplete i subscription hi hconnected
      · exact hcomplete i subscription hi hconnected
    · intro i subscription hi hmore
      have hi : s.subscriptions[i]? = some subscription := hi
      rw [sentinels_finish h hstep hi] at hmore
      split at hmore
      · next hmem =>
        obtain ⟨subscription', hi', hsession, -⟩ := h.registered sessionId i hmem
        obtain rfl := Option.some.inj (hi.symm.trans hi')
        rw [hsession]
        exact hsingle (List.ne_nil_of_mem hmem)
      · exact absurd hmore (Nat.lt_irrefl _)

theorem delivers_subscribe (h : s.Inv) (hcomplete : s.Complete) :
    s.Delivers (.subscribe sessionId) ↔ s.Single (.subscribe sessionId) := by
  have hlength := h.length
  have hold {i : ℕ} (hi : i < s.subscriptions.length) :
      (s.subscribe sessionId).received i = s.received i := by
    unfold received subscribe StreamEventBus.subscribe
    rw [← hlength] at hi
    split
    · rw [List.getElem?_append_left hi]
    · rw [List.getElem?_append_left hi]
  have hnew : (s.subscribe sessionId).received s.subscriptions.length =
      if (s.bus.doneAt sessionId).isSome then [none] else [] := by
    unfold received subscribe StreamEventBus.subscribe
    rw [← hlength]
    split
    · simp
    · simp
  have hbefore : s.sentinels s.subscriptions.length = 0 := by
    unfold sentinels received
    rw [← hlength, List.getElem?_eq_none (Nat.le_refl _)]
    rfl
  constructor
  · intro hdelivers hdone
    have hended := (hdelivers _ rfl).2 s.subscriptions.length _
      (getElem?_concat_eq_some.mpr (.inr ⟨rfl, rfl⟩))
    apply hended
    rw [hbefore]
    unfold sentinels
    rw [hnew, if_pos hdone]
    exact Nat.one_pos
  · rintro hsingle t ht
    obtain rfl := Option.some.inj ht
    constructor
    · intro i subscription hi hconnected
      rcases getElem?_concat_eq_some.mp hi with hi | ⟨rfl, rfl⟩
      · rw [hold (List.getElem?_eq_some_iff.mp hi).1]
        exact hcomplete i subscription hi hconnected
      · rw [hnew]
        change _ = ((s.pushed sessionId).drop (s.pushed sessionId).length).map some
        rw [List.drop_length]
        split <;> rfl
    · intro i subscription hi hmore
      rcases getElem?_concat_eq_some.mp hi with hi | ⟨rfl, rfl⟩
      · unfold sentinels at hmore
        rw [hold (List.getElem?_eq_some_iff.mp hi).1] at hmore
        exact absurd hmore (Nat.lt_irrefl _)
      · apply hsingle
        by_contra hnone
        unfold sentinels at hmore
        rw [hnew, if_neg hnone] at hmore
        exact absurd hmore (Nat.not_lt_zero _)

theorem delivers_iff (h : s.Inv) (hcomplete : s.Complete) (ht : s.step a = some t) :
    s.Delivers a ↔ s.Single a := by
  cases a with
  | subscribe sessionId => exact delivers_subscribe h hcomplete
  | unsubscribe i =>
    refine ⟨fun _ => trivial, fun _ u hu => ?_⟩
    obtain ⟨left, hleft, hu⟩ := Option.bind_eq_some_iff.mp hu
    obtain ⟨-, hu⟩ := Option.ite_none_right_eq_some.mp hu
    obtain rfl := Option.some.inj hu
    refine ⟨fun j subscription hj hconnected => ?_, fun j _ _ hmore => absurd hmore (Nat.lt_irrefl _)⟩
    rcases getElem?_modify_eq_some.mp hj with ⟨-, old, -, rfl⟩ | ⟨-, hj⟩
    · cases hconnected
    · exact hcomplete j subscription hj hconnected
  | start sessionId =>
    refine ⟨fun _ => trivial, fun _ u hu => ?_⟩
    obtain rfl := Option.some.inj hu
    exact ⟨hcomplete, fun j _ _ hmore => absurd hmore (Nat.lt_irrefl _)⟩
  | event sessionId event =>
    exact delivers_event h hcomplete (Option.ite_none_right_eq_some.mp ht).1
  | finish sessionId now =>
    exact delivers_finish h hcomplete (Option.ite_none_right_eq_some.mp ht).1

end Delivery

section Runs

variable {schedule : List (StreamingAct ε)}

theorem complete_initial : (initial : Streaming ε).Complete := by
  intro i subscription h
  cases h

theorem events_reach_subscribers {s : Streaming ε}
    (hrun : (streaming ε).exec initial schedule = some s) :
    (streaming ε).Meets Delivers initial schedule ↔ (streaming ε).Meets Single initial schedule := by
  suffices hall : ∀ (s u : Streaming ε), s.Inv → s.Complete →
      (streaming ε).exec s schedule = some u →
      ((streaming ε).Meets Delivers s schedule ↔ (streaming ε).Meets Single s schedule) from
    hall initial s inv_initial complete_initial hrun
  clear hrun
  induction schedule with
  | nil => exact fun _ _ _ _ _ => Iff.rfl
  | cons a schedule ih =>
    intro s u h hcomplete hexec
    obtain ⟨t, ht, hrest⟩ := (streaming ε).exec_cons_eq_some.mp hexec
    have hiff := delivers_iff h hcomplete ht
    constructor
    · intro hmeets
      have hnext := ih t u (inv_step h ht) (hmeets.1 t ht).1 hrest
      exact (streaming ε).meets_cons (hiff.mp hmeets.1) ht (hnext.mp (hmeets.2 t ht))
    · intro hmeets
      have hdelivers := hiff.mpr hmeets.1
      have hnext := ih t u (inv_step h ht) (hdelivers t ht).1 hrest
      exact (streaming ε).meets_cons hdelivers ht (hnext.mpr (hmeets.2 t ht))

namespace Sample

def oneStream : List (StreamingAct ℕ) :=
  [.subscribe "s", .start "s", .event "s" 1, .event "s" 2, .finish "s" 5]

end Sample

theorem one_stream_reaches :
    ∃ s : Streaming ℕ, (streaming ℕ).exec initial Sample.oneStream = some s ∧
      (streaming ℕ).Meets Delivers initial Sample.oneStream ∧
      s.received 0 = [some 1, some 2, none] := by
  have hruns : ((streaming ℕ).exec initial Sample.oneStream).any
      (fun s => s.received 0 = [some 1, some 2, none]) = true := by
    decide +kernel
  obtain ⟨s, hs, hreceived⟩ := (Option.any_eq_true _ _).mp hruns
  refine ⟨s, hs, (events_reach_subscribers hs).mpr ?_, of_decide_eq_true hreceived⟩
  exact (streaming ℕ).meets_of_check (fun _ _ h => of_decide_eq_true h)
    (show (streaming ℕ).check (fun s a => decide (s.Single a)) initial Sample.oneStream = true by
      decide +kernel)

theorem events_do_not_reach :
    (∃ s : Streaming ℕ, (streaming ℕ).exec initial [.subscribe "s", .start "s", .start "s"] = some s ∧
      ¬ s.Delivers (.finish "s" 5)) ∧
    (∃ s : Streaming ℕ, (streaming ℕ).exec initial
      [.subscribe "s", .start "s", .start "s", .finish "s" 5] = some s ∧
        ¬ s.Delivers (.event "s" 1)) ∧
    ∃ s : Streaming ℕ, (streaming ℕ).exec initial [.start "s", .finish "s" 5, .start "s"] = some s ∧
      ¬ s.Delivers (.subscribe "s") := by
  have hended (schedule : List (StreamingAct ℕ)) (a : StreamingAct ℕ)
      (h : ((streaming ℕ).exec initial schedule).any (fun s => (s.step a).any fun t =>
        (t.subscriptions[0]?).any fun subscription =>
          s.sentinels 0 < t.sentinels 0 ∧ subscription.sessionId ∈ t.running) = true) :
      ∃ s : Streaming ℕ, (streaming ℕ).exec initial schedule = some s ∧ ¬ s.Delivers a := by
    obtain ⟨s, hs, hends⟩ := (Option.any_eq_true _ _).mp h
    obtain ⟨t, ht, hends⟩ := (Option.any_eq_true _ _).mp hends
    obtain ⟨subscription, hi, hends⟩ := (Option.any_eq_true _ _).mp hends
    obtain ⟨hmore, hrunning⟩ := of_decide_eq_true hends
    exact ⟨s, hs, fun hdelivers => (hdelivers t ht).2 0 subscription hi hmore hrunning⟩
  refine ⟨hended _ _ (by decide +kernel), ?_, hended _ _ (by decide +kernel)⟩
  have hlate : ((streaming ℕ).exec initial
      [.subscribe "s", .start "s", .start "s", .finish "s" 5]).any (fun s =>
        (s.step (.event "s" 1)).any fun t => (t.subscriptions[0]?).any fun subscription =>
          subscription.connected = true ∧ (t.received 0).takeWhile Option.isSome ≠
            ((t.pushed subscription.sessionId).drop subscription.since).map some) = true := by
    decide +kernel
  obtain ⟨s, hs, hends⟩ := (Option.any_eq_true _ _).mp hlate
  obtain ⟨t, ht, hends⟩ := (Option.any_eq_true _ _).mp hends
  obtain ⟨subscription, hi, hends⟩ := (Option.any_eq_true _ _).mp hends
  obtain ⟨hconnected, hmissed⟩ := of_decide_eq_true hends
  exact ⟨s, hs, fun hdelivers => hmissed ((hdelivers t ht).1 0 subscription hi hconnected)⟩

end Runs

end Streaming

end Acps.Assistant
