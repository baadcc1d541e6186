import Acps.Lib.Transition
import Acps.Sse.Hub

/-!
One call of `stream_with_reconnect`: what the client asks for, how the server answers, and what the
network between them does.
-/

namespace Acps.Sse

open Transition

inductive Frame (π : Type) where
  | event (channel : ℕ) (e : BufferedStreamEvent π)
  | error (code : ℤ)

inductive Generator (π : Type) where
  | created (lastEventSeq : Option ℕ)
  | running (channel : ℕ) (replayed : List (BufferedStreamEvent π)) (queue : Option ℕ)
  | finished

inductive Connection (π : Type) where
  | closed
  | requested (restream : Bool) (lastEventSeq : Option ℕ)
  | opened (generator : Generator π) (inFlight : List (Frame π))

inductive Status where
  | unused
  | running
  | ended
  | raised
  deriving DecidableEq

structure World (π : Type) where
  hub : StreamHub π
  status : Status
  lastEventSeq : Option ℕ
  reconnectCount : ℕ
  connection : Connection π
  yielded : List (ℕ × BufferedStreamEvent π)

def World.initial {π : Type} (maxBuffer : ℕ) (lastEventSeq : Option ℕ) : World π :=
  { hub := .empty maxBuffer, status := .unused, lastEventSeq, reconnectCount := 0
    connection := .closed, yielded := [] }

structure StreamSettings where
  taskId : String
  maxReconnects : ℕ
  onReStream : Bool

inductive HubAct (π : Type) where
  | getOrCreateChannel (taskId : String)
  | publish (taskId : String) (payload : π) (isTerminal : Bool)
  | closeStream (taskId : String)
  | removeChannel (taskId : String)

inductive Act (π : Type) where
  | hub (a : HubAct π)
  | streamWithReconnect
  | handleStreamRequest (found : Option ℕ)
  | beginGenerator
  | emit
  | receive
  | endOfStream
  | disconnect
  | reStream
  | raise

section Steps

variable {π : Type} (settings : StreamSettings) (s : World π)

def hubStep (h : StreamHub π) : HubAct π → StreamHub π
  | .getOrCreateChannel taskId => (h.getOrCreateChannel taskId).1
  | .publish taskId payload isTerminal => h.publish taskId payload isTerminal
  | .closeStream taskId => h.closeStream taskId
  | .removeChannel taskId => h.removeChannel taskId

def streamWithReconnect : Option (World π) :=
  if s.status = .unused then
    some { s with status := .running, connection := .requested false none }
  else none

def handleStreamRequest (found : Option ℕ) : Option (World π) :=
  match s.connection with
  | .requested false lastEventSeq => some { s with
      hub := (s.hub.getOrCreateChannel settings.taskId).1
      connection := .opened (.created lastEventSeq) [] }
  | .requested true lastEventSeq =>
    if found = s.hub.channels settings.taskId ∨ settings.onReStream then
      match found.bind (s.hub.objects[·]?) with
      | none => some { s with status := .raised, connection := .closed }
      | some c =>
        if c.canResume lastEventSeq then
          some { s with connection := .opened (.created lastEventSeq) [] }
        else some { s with connection := .opened .finished [.error (-32002)] }
    else none
  | _ => none

def beginGenerator : Option (World π) :=
  match s.connection with
  | .opened (.created lastEventSeq) inFlight =>
    match s.hub.channels settings.taskId with
    | none => some { s with connection := .opened .finished (inFlight ++ [.error (-32001)]) }
    | some i =>
      match s.hub.objects[i]? with
      | none => none
      | some c =>
        if c.closed then
          some { s with
            connection := .opened (.running i (c.replay lastEventSeq) none) inFlight }
        else some { s with
          hub := s.hub.modify i TaskStreamChannel.subscribe
          connection := .opened (.running i (c.replay lastEventSeq) (some c.nextQueue)) inFlight }
  | _ => none

def emit : Option (World π) :=
  match s.connection with
  | .opened (.running i (e :: replayed) queue) inFlight => some { s with
      connection := .opened (.running i replayed queue) (inFlight ++ [.event i e]) }
  | .opened (.running _ [] none) inFlight =>
    some { s with connection := .opened .finished inFlight }
  | .opened (.running i [] (some q)) inFlight =>
    match (s.hub.objects[i]?).bind (·.queues q) with
    | some (some e :: items) => some { s with
        hub := s.hub.modify i fun c => c.setQueue q (some items)
        connection := .opened (.running i [] (some q)) (inFlight ++ [.event i e]) }
    | some (none :: _) => some { s with
        hub := s.hub.modify i fun c => c.setQueue q none
        connection := .opened .finished inFlight }
    | _ => none
  | _ => none

def receive : Option (World π) :=
  match s.connection with
  | .opened generator (.event i e :: inFlight) => some { s with
      lastEventSeq := some e.eventSeq
      yielded := s.yielded ++ [(i, e)]
      connection := .opened generator inFlight }
  | .opened _ (.error _ :: _) => some { s with status := .raised, connection := .closed }
  | _ => none

def endOfStream : Option (World π) :=
  match s.connection with
  | .opened .finished [] => some { s with status := .ended, connection := .closed }
  | _ => none

def disconnect : Option (World π) :=
  if s.status = .running ∧ ¬ s.connection matches .closed then
    if settings.maxReconnects ≤ s.reconnectCount then
      some { s with status := .raised, connection := .closed }
    else some { s with reconnectCount := s.reconnectCount + 1, connection := .closed }
  else none

def reStream : Option (World π) :=
  match s.status, s.connection with
  | .running, .closed => some { s with connection := .requested true s.lastEventSeq }
  | _, _ => none

def step : Act π → Option (World π)
  | .hub a => some { s with hub := hubStep s.hub a }
  | .streamWithReconnect => streamWithReconnect s
  | .handleStreamRequest found => handleStreamRequest settings s found
  | .beginGenerator => beginGenerator settings s
  | .emit => emit s
  | .receive => receive s
  | .endOfStream => endOfStream s
  | .disconnect => disconnect settings s
  | .reStream => reStream s
  | .raise =>
    if s.status = .running then some { s with status := .raised, connection := .closed } else none

def streaming : System (World π) (Act π) := ⟨step settings⟩

end Steps

section Properties

variable {π : Type}

def Frame.payload : Frame π → Option (ℕ × BufferedStreamEvent π)
  | .event i e => some (i, e)
  | .error _ => none

def Generator.upcoming (hub : StreamHub π) : Generator π → List (ℕ × BufferedStreamEvent π)
  | .running i replayed queue =>
    let queued := ((queue.bind fun q => (hub.objects[i]?).bind (·.queues q)).getD [])
    (replayed ++ live queued).map (Prod.mk i)
  | .created _ | .finished => []

def Connection.upcoming (hub : StreamHub π) : Connection π → List (ℕ × BufferedStreamEvent π)
  | .opened generator inFlight => inFlight.filterMap Frame.payload ++ generator.upcoming hub
  | .closed | .requested _ _ => []

def World.history (s : World π) (i : ℕ) : List (ℕ × BufferedStreamEvent π) :=
  (((s.hub.objects[i]?).map TaskStreamChannel.published).getD []).map (Prod.mk i)

def World.flow (s : World π) : List (ℕ × BufferedStreamEvent π) :=
  s.yielded ++ s.connection.upcoming s.hub

/-- Nothing that the client needs was dropped, and it asks for no less. Events that it already has
came through this channel; where it has none yet, it remembers no number of another task, or there
is nothing yet that it could miss. -/
def Continues (yielded : List (ℕ × BufferedStreamEvent π)) (lastEventSeq : Option ℕ) (i : ℕ)
    (c : TaskStreamChannel π) : Prop :=
  c.evicted ≤ yielded.length ∧
    match yielded.getLast? with
    | none => lastEventSeq = none ∨ c.published = []
    | some y => y.1 = i

instance (yielded : List (ℕ × BufferedStreamEvent π)) (lastEventSeq : Option ℕ) (i : ℕ)
    (c : TaskStreamChannel π) : Decidable (Continues yielded lastEventSeq i c) := by
  unfold Continues
  cases yielded.getLast? with
  | none => exact decidable_of_iff (c.evicted ≤ yielded.length ∧
      (lastEventSeq = none ∨ c.published.isEmpty)) (by simp)
  | some y => exact inferInstanceAs (Decidable (_ ∧ y.1 = i))

def Resumes (yielded : List (ℕ × BufferedStreamEvent π)) (i : ℕ) (c : TaskStreamChannel π) :
    Connection π → Prop
  | .opened (.created lastEventSeq) _ => Continues yielded lastEventSeq i c
  | _ => True

instance (yielded : List (ℕ × BufferedStreamEvent π)) (i : ℕ) (c : TaskStreamChannel π)
    (connection : Connection π) : Decidable (Resumes yielded i c connection) :=
  match connection with
  | .opened (.created lastEventSeq) _ =>
    inferInstanceAs (Decidable (Continues yielded lastEventSeq i c))
  | .opened (.running ..) _ | .opened .finished _ | .closed | .requested .. => isTrue trivial

def Careful (settings : StreamSettings) (s : World π) : Act π → Prop
  | .beginGenerator => ∀ i ∈ s.hub.channels settings.taskId, ∀ c ∈ s.hub.objects[i]?,
    Resumes s.yielded i c s.connection
  | _ => True

instance (settings : StreamSettings) (s : World π) (a : Act π) : Decidable (Careful settings s a) :=
  match a with
  | .beginGenerator => inferInstanceAs (Decidable (∀ i ∈ s.hub.channels settings.taskId,
      ∀ c ∈ s.hub.objects[i]?, Resumes s.yielded i c s.connection))
  | .hub _ | .streamWithReconnect | .handleStreamRequest _ | .emit | .receive | .endOfStream
  | .disconnect | .reStream | .raise => isTrue trivial

end Properties

end Acps.Sse
