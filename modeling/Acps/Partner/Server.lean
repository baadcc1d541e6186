import Acps.Partner.GroupMember
import Acps.Partner.StateStream

/-!
A partner with all its transports: commands over RPC and from groups, streams, and notifications
that are pushed to callbacks. All of them find a task by the identifier that the caller chose.
-/

namespace Acps.Partner

open Sse Transition

structure NotificationSubscription where
  taskId : String
  configId : String
  ownerAic : String
  notifyOnStates : List TaskState
  deriving DecidableEq

structure NotificationService where
  store : String → String → String → Option String
  subs : List NotificationSubscription

namespace NotificationService

variable (service : NotificationService)

def setConfig (owner taskId configId : String) (url : Option String) : NotificationService :=
  { service with store := Function.update service.store owner (Function.update (service.store owner)
      taskId (Function.update (service.store owner taskId) configId url)) }

def subMatches (taskId : String) (state : TaskState) : List NotificationSubscription :=
  service.subs.filter fun sub =>
    sub.taskId = taskId ∧ (sub.notifyOnStates = [] ∨ state ∈ sub.notifyOnStates)

def recipients (taskId : String) (state : TaskState) : List String :=
  let subs := service.subMatches taskId state
  if subs.all fun sub => (service.store sub.ownerAic taskId sub.configId).isSome then
    subs.map NotificationSubscription.ownerAic
  else []

end NotificationService

inductive Receiver where
  | agent (aic : String)
  | group (groupId : String)
  deriving DecidableEq

structure Receipt where
  receiver : Receiver
  task : TaskResult

structure Asked where
  senderId : String
  taskId : String
  start : Bool
  group : Option String
  deriving DecidableEq

/-- What waits for the answers of commands is kept with their senders and groups. `subscribers` are
those of the subscriptions to streams, in the same order. `asked` and `received` only record. -/
structure Server where
  streams : StreamWorld
  handler : GroupHandler
  notifications : NotificationService
  replies : List (String × ℕ)
  generators : List (String × String × Option ℕ)
  subscribers : List String
  updates : List (ℕ × Option String)
  groupChanges : List ℕ
  dispatches : List ℕ
  received : List Receipt
  asked : List Asked

def Server.initial (maxBuffer : ℕ) : Server :=
  { streams := .initial maxBuffer, handler := .initial
    notifications := { store := fun _ _ _ => none, subs := [] }
    replies := [], generators := [], subscribers := [], updates := [], groupChanges := []
    dispatches := [], received := [], asked := [] }

inductive ServerAct where
  | rpc (command : TaskCommand) (now : Time)
  | reply (k : ℕ)
  | stream (command : TaskCommand) (lastEventSeq : Option ℕ)
  | onStreamStart (k : ℕ)
  | onStart (k : ℕ) (now : Time)
  | onRunnerStateChange (k : ℕ)
  | generate (k : ℕ)
  | put (k : ℕ)
  | notificationSet (owner taskId configId url : String)
  | notificationDelete (owner taskId configId : String)
  | notificationStart (owner : String) (command : TaskCommand) (configId : String)
    (notifyOnStates : List TaskState)
  | dispatchNotification (k : ℕ)
  | joinGroup (groupId leader : String)
  | receive (groupId : String) (message : GroupMessage) (now : Time)
  | handleLeaveRequest (groupId : String)
  | cleanupGroupResources (groupId : String)
  | broadcastUpdate (k : ℕ)
  | onGroupStateChange (k : ℕ)
  | resume (future : ℕ) (r : Resumption)
  | resumeCancel (cancellation : ℕ) (now : Time)

def TaskCommand.named (command : TaskCommand) : Bool := (command.taskId.filter (· ≠ "")).isSome

namespace Server

variable (s : Server) (agent : Agent)

def runner : World := s.streams.runner

def context (taskId : String) : Option TaskContext := s.runner.context taskId

def goOn (runner : World) : Server := { s with streams := s.streams.goOn runner }

def receipt (receiver : Receiver) (task : TaskResult) : Server :=
  { s with received := s.received ++ [{ receiver, task }] }

def result (command : TaskCommand) : Option ℕ :=
  if command.command = .reStream then none else s.runner.tasks command.target

def handleRpcRequest (command : TaskCommand) (now : Time) : Server :=
  let s := s.goOn (dispatch agent command now s.runner)
  if command.named then
    { s with replies := s.replies ++ (s.result command).toList.map (command.senderId, ·) }
  else s

def reply (k : ℕ) : Option Server :=
  (s.replies[k]?).bind fun (senderId, ctx) =>
    (s.runner.heap[ctx]?).map fun c =>
      { s.receipt (.agent senderId) c.task with replies := s.replies.eraseIdx k }

def handleStreamRequest (command : TaskCommand) (lastEventSeq : Option ℕ) : Option Server :=
  match command.command with
  | .start => (StreamHandler.handleStreamRequest s.streams command).map fun streams =>
    { s with
      streams
      generators := s.generators ++ [(command.senderId, command.target, none)] }
  | .reStream =>
    if command.named ∧ (((s.streams.hub.channels command.target).bind
        (s.streams.hub.objects[·]?)).any fun c => c.canResume lastEventSeq) then
      some { s with
        generators := s.generators ++ [(command.senderId, command.target, lastEventSeq)] }
    else none
  | .get | .continue | .cancel | .complete => none

def generate (k : ℕ) : Option Server :=
  (s.generators[k]?).map fun (senderId, taskId, lastEventSeq) =>
    let streams := StreamHandler.subscribe s.streams taskId lastEventSeq
    { s with
      streams
      generators := s.generators.eraseIdx k
      subscribers := s.subscribers ++
        (streams.subscriptions.drop s.streams.subscriptions.length).map fun _ => senderId }

def put (k : ℕ) : Option Server :=
  (s.subscribers[k]?).bind fun aic =>
    (StreamHandler.put s.streams k).map fun streams =>
      { s with
        streams
        received := s.received ++ (streams.delivered.drop s.streams.delivered.length).map fun d =>
          { receiver := .agent aic, task := d.task } }

def handleNotificationStart (owner : String) (command : TaskCommand) (configId : String)
    (notifyOnStates : List TaskState) : Option Server :=
  if command.senderId = owner ∧ command.named ∧
      (s.notifications.store owner command.target configId).isSome then
    some { s with notifications := { s.notifications with subs := s.notifications.subs ++
      [{ taskId := command.target, configId, ownerAic := owner, notifyOnStates }] } }
  else none

def dispatchNotification (k : ℕ) : Option Server :=
  (s.dispatches[k]?).bind fun ctx =>
    (s.runner.heap[ctx]?).map fun c =>
      { s with
        dispatches := s.dispatches.eraseIdx k
        received := s.received ++ (s.notifications.recipients c.task.taskId c.task.state).map fun aic =>
          { receiver := .agent aic, task := c.task } }

def broadcastTaskUpdate (c : TaskContext) (group : Option String) : Server :=
  match (group.filter (· ≠ "")).or (s.handler.taskGroupMap
      (if c.task.taskId = "" then c.task.id else c.task.taskId)) with
  | none => s
  | some group =>
    if (s.handler.client group).any (·.isJoined) ∧ c.task.sessionId ≠ "" then
      s.receipt (.group group) c.task
    else s

def broadcastUpdate (k : ℕ) : Option Server :=
  (s.updates[k]?).bind fun (ctx, group) =>
    (s.runner.heap[ctx]?).map fun c =>
      { s.broadcastTaskUpdate c group with updates := s.updates.eraseIdx k }

def onGroupStateChange (k : ℕ) : Option Server :=
  (s.groupChanges[k]?).bind fun ctx =>
    (s.runner.heap[ctx]?).map fun c =>
      let s := { s with groupChanges := s.groupChanges.eraseIdx k }
      if c.task.taskId = "" then s
      else
        match s.handler.taskGroupMap c.task.taskId with
        | none => s
        | some group => s.broadcastTaskUpdate c (some group)

def onTaskCommand (command : TaskCommand) (groupId : Option String) (now : Time) : Server :=
  let group := s.handler.resolveGroupForTaskCommand groupId command.senderId
  let s := { s.goOn (toTask agent command now s.runner) with
    handler := s.handler.mapTask command groupId }
  { s with updates := s.updates ++ (s.result command).toList.map (·, group) }

def commandOf (groupId : String) (message : GroupMessage) : Option TaskCommand :=
  match message.body with
  | .taskCommand command mentions =>
    if (s.handler.client groupId).any (·.ofGroup message) ∧ message.senderId ≠ agent.aic ∧
        isMentioned mentions agent.aic then
      some { command with senderId := message.senderId }
    else none
  | _ => none

def receive (groupId : String) (message : GroupMessage) (now : Time) : Option Server :=
  (s.handler.client groupId).map fun client =>
    match s.commandOf agent groupId message, message.body with
    | some command, _ => s.onTaskCommand agent command message.groupId now
    | none, .groupMgmtCommand command mentions sessionId =>
      if client.ofGroup message ∧ message.senderId ≠ agent.aic then
        let answer :=
          GroupPartnerMqClient.handleMgmtCommand agent.aic command mentions sessionId
        { s with handler := s.handler.modifyClient groupId answer }
      else s
    | none, _ => s

def handleLeaveRequest (groupId : String) : Option Server :=
  (s.handler.client groupId).bind fun client =>
    if client.pendingLeave then
      some { s with handler :=
        s.handler.modifyClient groupId GroupPartnerMqClient.handleLeaveRequest }
    else none

def cleanupGroupResources (groupId : String) : Option Server :=
  (s.handler.client groupId).bind fun client =>
    if client.state = .leaving then
      some { s with handler := s.handler.removeGroupState groupId }
    else none

def perform : ServerAct → Option Server
  | .rpc command now => some (s.handleRpcRequest agent command now)
  | .reply k => s.reply k
  | .stream command lastEventSeq => s.handleStreamRequest command lastEventSeq
  | .onStreamStart k => (StreamHandler.onStreamStart s.streams k).map fun streams =>
    { s with streams }
  | .onStart k now => (StreamHandler.onStart s.streams agent k now).map fun streams =>
    { s with streams }
  | .onRunnerStateChange k => (StreamHandler.onRunnerStateChange s.streams k).map fun streams =>
    { s with streams }
  | .generate k => s.generate k
  | .put k => s.put k
  | .notificationSet owner taskId configId url =>
    some { s with notifications := s.notifications.setConfig owner taskId configId (some url) }
  | .notificationDelete owner taskId configId =>
    some { s with notifications := s.notifications.setConfig owner taskId configId none }
  | .notificationStart owner command configId states =>
    s.handleNotificationStart owner command configId states
  | .dispatchNotification k => s.dispatchNotification k
  | .joinGroup groupId leader => some { s with handler := s.handler.joinGroup groupId leader }
  | .receive groupId message now => s.receive agent groupId message now
  | .handleLeaveRequest groupId => s.handleLeaveRequest groupId
  | .cleanupGroupResources groupId => s.cleanupGroupResources groupId
  | .broadcastUpdate k => s.broadcastUpdate k
  | .onGroupStateChange k => s.onGroupStateChange k
  | .resume future r => (step agent s.runner (.resume future r)).map s.goOn
  | .resumeCancel cancellation now =>
    (step agent s.runner (.resumeCancel cancellation now)).map s.goOn

def asks : ServerAct → Option Asked
  | .rpc command _ =>
    if command.named then
      some { senderId := command.senderId, taskId := command.target
             start := command.command = .start, group := none }
    else none
  | .stream command _ =>
    some { senderId := command.senderId, taskId := command.target
           start := command.command = .start, group := none }
  | .notificationStart _ command _ _ =>
    some { senderId := command.senderId, taskId := command.target, start := false, group := none }
  | .receive groupId message _ => (s.commandOf agent groupId message).map fun command =>
    { senderId := command.senderId, taskId := command.target, start := command.command = .start
      group := s.handler.resolveGroupForTaskCommand message.groupId command.senderId }
  | _ => none

def serverStep (a : ServerAct) : Option Server :=
  (s.perform agent a).map fun t =>
    let changed := (s.runner.changes t.runner).map Change.ctx
    { t with
      groupChanges := t.groupChanges ++ changed
      dispatches := t.dispatches ++ changed
      asked := s.asked ++ (s.asks agent a).toList }

def task : ServerAct → Option String
  | .rpc command _ => if command.named then some command.target else none
  | .onStart k _ => (s.streams.runnerStarts[k]?).map TaskCommand.target
  | .receive groupId message _ => (s.commandOf agent groupId message).map TaskCommand.target
  | .resume future r => Act.task s.runner (.resume future r)
  | .resumeCancel cancellation now => Act.task s.runner (.resumeCancel cancellation now)
  | _ => none

end Server

def server (agent : Agent) : System Server ServerAct := ⟨fun s => s.serverStep agent⟩

end Acps.Partner
