import Acps.Partner.Histories
import Acps.Sse.Hub

/-!
The stream of a task: state changes spawn listeners that publish the task, a start over a stream
passes through the hub, and what is put out to a subscriber is the task as it is by then.
-/

namespace Acps.Partner

open Sse Transition

deriving instance DecidableEq for TaskStatus, Product, TaskResult

structure Change where
  ctx : ℕ
  task : TaskResult
  deriving DecidableEq

def changesOf (ctx : ℕ) (before after : TaskResult) : List Change :=
  let n := before.statusHistory.length
  (after.statusHistory.drop n).zipIdx.map fun (status, k) =>
    { ctx, task := { after with status, statusHistory := after.statusHistory.take (n + k + 1) } }

def World.changes (before after : World) : List Change :=
  (before.heap.zip after.heap).zipIdx.flatMap fun ((c, c'), ctx) => changesOf ctx c.task c'.task

structure Subscription where
  channel : ℕ
  replayed : List (BufferedStreamEvent Change)
  queue : Option ℕ

structure Delivery where
  channel : ℕ
  event : BufferedStreamEvent Change
  task : TaskResult

structure StreamWorld where
  runner : World
  hub : StreamHub Change
  owners : List String
  listeners : List Change
  streamStarts : List TaskCommand
  runnerStarts : List TaskCommand
  subscriptions : List Subscription
  delivered : List Delivery

def StreamWorld.initial (maxBuffer : ℕ) : StreamWorld :=
  { runner := .initial, hub := .empty maxBuffer, owners := [], listeners := []
    streamStarts := [], runnerStarts := [], subscriptions := [], delivered := [] }

inductive StreamAct where
  | run (a : Act)
  | handleStreamRequest (command : TaskCommand)
  | onStreamStart (k : ℕ)
  | onStart (k : ℕ) (now : Time)
  | onRunnerStateChange (k : ℕ)
  | subscribe (taskId : String) (lastEventSeq : Option ℕ)
  | put (k : ℕ)

namespace StreamWorld

variable (s : StreamWorld)

def goOn (runner : World) : StreamWorld :=
  { s with runner, listeners := s.listeners ++ s.runner.changes runner }

def getOrCreateChannel (taskId : String) : StreamWorld :=
  { s with
    hub := (s.hub.getOrCreateChannel taskId).1
    owners := if (s.hub.channels taskId).isSome then s.owners else s.owners ++ [taskId] }

def next (σ : Subscription) : Option (BufferedStreamEvent Change) × Subscription × StreamHub Change :=
  match σ.replayed with
  | e :: rest => (some e, { σ with replayed := rest }, s.hub)
  | [] =>
    match σ.queue.bind fun q => ((s.hub.objects[σ.channel]?).bind (·.queues q)).map (q, ·) with
    | some (q, some e :: items) =>
      (some e, σ, s.hub.modify σ.channel fun c => c.setQueue q (some items))
    | some (q, none :: _) =>
      (none, { σ with queue := none }, s.hub.modify σ.channel fun c => c.setQueue q none)
    | _ => (none, σ, s.hub)

end StreamWorld

namespace StreamHandler

variable (s : StreamWorld)

def handleStreamRequest (command : TaskCommand) : Option StreamWorld :=
  if command.command = .start ∧ (command.taskId.filter (· ≠ "")).isSome then
    some { s.getOrCreateChannel command.target with streamStarts := s.streamStarts ++ [command] }
  else none

def onStreamStart (k : ℕ) : Option StreamWorld :=
  (s.streamStarts[k]?).map fun command =>
    { s.getOrCreateChannel command.target with
      streamStarts := s.streamStarts.eraseIdx k
      runnerStarts := s.runnerStarts ++ [command] }

def onStart (agent : Agent) (k : ℕ) (now : Time) : Option StreamWorld :=
  (s.runnerStarts[k]?).map fun command =>
    { s.goOn (Partner.onStreamStart agent command now s.runner) with
      runnerStarts := s.runnerStarts.eraseIdx k }

def onRunnerStateChange (k : ℕ) : Option StreamWorld :=
  (s.listeners[k]?).bind fun change =>
    (s.runner.heap[change.ctx]?).map fun c =>
      let taskId := c.task.taskId
      let isTerminal : Bool := c.task.state ∈ terminalStates
      let s := s.getOrCreateChannel taskId
      let hub := s.hub.publish taskId change isTerminal
      { s with
        hub := if isTerminal then hub.closeStream taskId else hub
        listeners := s.listeners.eraseIdx k }

def subscribe (taskId : String) (lastEventSeq : Option ℕ) : StreamWorld :=
  match s.hub.channels taskId with
  | none => s
  | some i =>
    match s.hub.objects[i]? with
    | none => s
    | some c =>
      let replayed := c.replay lastEventSeq
      if c.closed then
        { s with subscriptions := s.subscriptions ++ [{ channel := i, replayed, queue := none }] }
      else
        { s with
          hub := s.hub.modify i TaskStreamChannel.subscribe
          subscriptions :=
            s.subscriptions ++ [{ channel := i, replayed, queue := some c.nextQueue }] }

def put (k : ℕ) : Option StreamWorld :=
  (s.subscriptions[k]?).map fun σ =>
    let (e, σ', hub) := s.next σ
    let task := e.bind fun e => (s.runner.heap[e.payload.ctx]?).map fun c => (e, c.task)
    { s with
      hub
      subscriptions := s.subscriptions.set k σ'
      delivered := s.delivered ++
        task.toList.map fun (event, task) => { channel := σ.channel, event, task } }

end StreamHandler

section System

variable (agent : Agent) (s : StreamWorld)

def runStep (a : Act) : Option StreamWorld :=
  match a with
  | .onStreamStart _ _ => none
  | a => (step agent s.runner a).map s.goOn

def streamStep : StreamAct → Option StreamWorld
  | .run a => runStep agent s a
  | .handleStreamRequest command => StreamHandler.handleStreamRequest s command
  | .onStreamStart k => StreamHandler.onStreamStart s k
  | .onStart k now => StreamHandler.onStart s agent k now
  | .onRunnerStateChange k => StreamHandler.onRunnerStateChange s k
  | .subscribe taskId lastEventSeq => some (StreamHandler.subscribe s taskId lastEventSeq)
  | .put k => StreamHandler.put s k

def taskStreams : System StreamWorld StreamAct := ⟨streamStep agent⟩

end System

section Properties

variable (s : StreamWorld)

/-- The channels of the task are closed and end with a terminal event, and whoever waits at one of
them comes to its end. -/
def ClosedFor (taskId : String) : Prop :=
  ∀ i : ℕ, s.owners[i]? = some taskId → ∃ c : TaskStreamChannel Change, s.hub.objects[i]? = some c ∧
    c.closed = true ∧ (∃ e ∈ c.published.getLast?, e.isTerminal = true) ∧
    ∀ q items, c.queues q = some items → none ∈ items

structure TrueHistory : Prop where
  terminalLast : ∀ (i : ℕ) (c : TaskStreamChannel Change), s.hub.objects[i]? = some c →
    ∀ (k : ℕ) (e : BufferedStreamEvent Change), c.published[k]? = some e → e.isTerminal = true →
      k + 1 = c.published.length
  asCaused : ∀ d ∈ s.delivered, d.task.status = d.event.payload.task.status
  same : ∀ d ∈ s.delivered, ∀ d' ∈ s.delivered, d.channel = d'.channel →
    d.event.eventSeq = d'.event.eventSeq → d.task = d'.task
  ended : ∀ (taskId : String) (r : ℕ) (c : TaskContext), s.runner.tasks taskId = some r →
    s.runner.heap[r]? = some c → c.task.state ∈ terminalStates →
    (∀ change ∈ s.listeners, change.ctx ≠ r) → ClosedFor s taskId

def Change.Current (change : Change) (task : TaskResult) : Prop :=
  task.statusHistory.length = change.task.statusHistory.length ∧
    task.commandHistory.length = change.task.commandHistory.length

instance (change : Change) (task : TaskResult) : Decidable (change.Current task) :=
  inferInstanceAs (Decidable (_ ∧ _))

def StreamWorld.starting : List String := (s.streamStarts ++ s.runnerStarts).map TaskCommand.target

def Timely (agent : Agent) (s : StreamWorld) : StreamAct → Prop
  | .put k => ∀ σ ∈ s.subscriptions[k]?, ∀ e ∈ (s.next σ).1,
    ∀ c ∈ s.runner.heap[e.payload.ctx]?, e.payload.Current c.task
  | .handleStreamRequest command =>
    s.runner.tasks command.target = none ∧ command.target ∉ s.starting
  | .run a => ∀ start ∈ a.startCommand, start.1.target ∉ s.starting
  | .onStart _ _ => (activeTasks s.runner : ℤ) < agent.maxConcurrentTasks
  | .onStreamStart _ | .onRunnerStateChange _ | .subscribe _ _ => True

instance (agent : Agent) (s : StreamWorld) : (a : StreamAct) → Decidable (Timely agent s a)
  | .put k => inferInstanceAs (Decidable (∀ σ ∈ s.subscriptions[k]?, ∀ e ∈ (s.next σ).1,
      ∀ c ∈ s.runner.heap[e.payload.ctx]?, e.payload.Current c.task))
  | .handleStreamRequest command => inferInstanceAs (Decidable
      (s.runner.tasks command.target = none ∧ command.target ∉ s.starting))
  | .run a => inferInstanceAs (Decidable (∀ start ∈ a.startCommand, start.1.target ∉ s.starting))
  | .onStart _ _ => inferInstanceAs (Decidable ((activeTasks s.runner : ℤ) < agent.maxConcurrentTasks))
  | .onStreamStart _ | .onRunnerStateChange _ | .subscribe _ _ => isTrue trivial

end Properties

end Acps.Partner
