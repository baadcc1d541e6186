import Acps.Lib.Transition
import Acps.Partner.Stages

/-!
The runner of a partner: commands that come over three transports, and the coroutines of the stages
that run between them. A step is what happens from one `await` to the next.
-/

namespace Acps.Partner

open Transition

inductive Stage where
  | decisionCreated (command : TaskCommand)
  | decisionLlm (command : TaskCommand)
  | decisionAudit (command : TaskCommand) (d : Decision)
  | analysisCreated
  | analysisLlm (ctx : ℕ)
  | skill (ctx : ℕ) (skillId : String) (rest outputs : List String)
  | gather (ctx : ℕ) (skills : List String)
  | productionLlm (ctx : ℕ)
  | done
  deriving DecidableEq

structure Coroutine where
  taskId : String
  stage : Stage
  cancelRequested : Bool

structure Cancellation where
  ctx : ℕ
  future : ℕ

structure World where
  heap : List TaskContext
  tasks : String → Option ℕ
  futures : List Coroutine
  cancellations : List Cancellation
  went : List (String × TaskState)

def World.initial : World :=
  { heap := [], tasks := fun _ => none, futures := [], cancellations := [], went := [] }

namespace World

variable (s : World)

def statesOf (taskId : String) : List TaskState :=
  (s.went.filter (·.1 = taskId)).map Prod.snd

def context (taskId : String) : Option TaskContext := (s.tasks taskId).bind (s.heap[·]?)

def modify (ctx : ℕ) (f : TaskContext → TaskContext) : World :=
  { s with heap := s.heap.modify ctx f }

def setStage (future : ℕ) (stage : Stage) : World :=
  { s with futures := s.futures.modify future fun c => { c with stage } }

def running (future : ℕ) : Bool := (s.futures[future]?).any fun c => c.stage ≠ .done

def store (ctx : TaskContext) : World :=
  { s with
    heap := s.heap ++ [ctx]
    tasks := fun taskId =>
      if taskId = ctx.task.taskId then some s.heap.length else s.tasks taskId }

def spawn (ctx : ℕ) (taskId : String) (stage : Stage) : World :=
  { s.modify ctx fun c => { c with runningFuture := some s.futures.length } with
    futures := s.futures ++ [{ taskId, stage, cancelRequested := false }] }

end World

def TaskContext.setStatus (status : TaskStatus) (c : TaskContext) : TaskContext :=
  { c with task :=
      { c.task with status, statusHistory := c.task.statusHistory ++ [status] } }

def updateTaskStatus (taskId : String) (state : TaskState) (dataItems : List String) (now : Time)
    (s : World) : World :=
  match s.tasks taskId with
  | none => s
  | some ctx =>
    { s.modify ctx (TaskContext.setStatus { state, stateChangedAt := now, dataItems }) with
      went := s.went ++ [(taskId, state)] }

def addCommand (taskId : String) (command : TaskCommand) (s : World) : World :=
  match s.tasks taskId with
  | none => s
  | some ctx => s.modify ctx fun c => { c with
      task := { c.task with commandHistory := c.task.commandHistory ++ [command] } }

variable (agent : Agent)

section Commands

variable (command : TaskCommand) (now : Time)

def activeTasks (s : World) : ℕ :=
  s.heap.zipIdx.countP fun (c, ctx) => s.tasks c.task.taskId = some ctx ∧
    c.task.state ∈ [.working, .awaitingInput, .awaitingCompletion]

def newTask (status : TaskStatus) (statusHistory : List TaskStatus) : TaskContext :=
  { task :=
      { id := "result-" ++ command.target
        senderId := agent.aic
        taskId := command.target
        sessionId := command.sessionId
        status
        products := none
        commandHistory := [command]
        statusHistory }
    requirements := none
    runningFuture := none }

def rejectedTask : TaskContext :=
  newTask agent command
    { state := .rejected, stateChangedAt := now, dataItems := ["System busy"] } []

def acceptedTask : TaskContext :=
  newTask agent command { state := .accepted, stateChangedAt := now, dataItems := [] }
    [{ state := .accepted, stateChangedAt := now, dataItems := [] }]

def onStart (task : Option ℕ) (s : World) : World :=
  if task.isSome then addCommand command.target command s
  else if agent.maxConcurrentTasks ≤ activeTasks s then
    { s.store (rejectedTask agent command now) with
      went := s.went ++ [(command.target, .rejected)] }
  else
    { (s.store (acceptedTask agent command now)).spawn s.heap.length command.target
        (.decisionCreated command) with
      went := s.went ++ [(command.target, .accepted)] }

def finishCancel (ctx : ℕ) (s : World) : World :=
  match s.heap[ctx]? with
  | none => s
  | some c =>
    if c.task.state ∈ terminalStates then s
    else updateTaskStatus c.task.taskId .canceled [] now s

def requestCancel (future : ℕ) (s : World) : World :=
  { s with futures := s.futures.modify future fun c => { c with cancelRequested := true } }

def onCancel (ctx : ℕ) (s : World) : World :=
  let s := addCommand command.target command s
  match ((s.heap[ctx]?).bind TaskContext.runningFuture).filter s.running with
  | some future => { requestCancel future s with
      cancellations := s.cancellations ++ [{ ctx, future }] }
  | none => finishCancel now ctx s

def onComplete (ctx : ℕ) (s : World) : World :=
  let s := addCommand command.target command s
  match s.heap[ctx]? with
  | none => s
  | some c =>
    if c.task.state = .awaitingCompletion then
      updateTaskStatus c.task.taskId .completed [] now s
    else s

def onContinue (ctx : ℕ) (s : World) : World :=
  let s := addCommand command.target command s
  match s.heap[ctx]? with
  | none => s
  | some c =>
    if c.task.state ∈ [.awaitingInput, .awaitingCompletion] ∧ ¬ blank command.extractText then
      let s := updateTaskStatus c.task.taskId .working [] now s
      s.spawn ctx c.task.taskId .analysisCreated
    else s

def onCommand (ctx : ℕ) (s : World) : World :=
  match command.command with
  | .start => onStart agent command now (some ctx) s
  | .cancel => onCancel command now ctx s
  | .complete => onComplete command now ctx s
  | .continue => onContinue command now ctx s
  | .get | .reStream => s

def toTask (s : World) : World :=
  match s.tasks command.target with
  | some ctx => onCommand agent command now ctx s
  | none => if command.command = .start then onStart agent command now none s else s

def dispatch (s : World) : World :=
  if (command.taskId.filter (· ≠ "")).isSome then toTask agent command now s else s

def onTaskCommand (isMentioned : Bool) (s : World) : World :=
  if isMentioned then toTask agent command now s else s

def onStreamStart (s : World) : World :=
  if (command.taskId.filter (· ≠ "")).isSome then onStart agent command now none s else s

end Commands

section Stages

inductive Awaited where
  | returned (content : String)
  | failed (error : String)
  | raised (error : String)

inductive Entry where
  | reached
  | raised (error : String)
  | escaped (error : String)

structure Resumption where
  now : Time
  awaited : Awaited
  results : Option (List Awaited)
  entry : Entry
  production : Entry

variable (future : ℕ) (taskId : String) (now : Time)

def finish (state : TaskState) (dataItems : List String) (s : World) : World :=
  (updateTaskStatus taskId state dataItems now s).setStage future .done

def fail (e : String) (s : World) : World := finish future taskId now .failed [internalError e] s

def awaitedSkill (skillId : String) : Awaited → Except String String
  | .returned content =>
    .ok (if skillId ∈ agent.skillPrompts then skillOutput agent skillId content else "")
  | .failed e => .ok (skillOutput agent skillId ("(Execution Failed: " ++ e ++ ")"))
  | .raised e => .error e

def gatheredSkill (skillId : String) (a : Awaited) : String :=
  match awaitedSkill agent skillId a with
  | .ok output => output
  | .error e => skillOutput agent skillId ("(Execution Failed: " ++ e ++ ")")

def produced (ctx : ℕ) (output : String) (s : World) : World :=
  finish future taskId now .awaitingCompletion ["Task completed. Please review."]
    (s.modify ctx fun c => { c with
      task := { c.task with products := some [{ id := now, dataItems := [output] }] } })

def runProductionStage (ctx : ℕ) (entry : Entry) (s : World) : World :=
  if agent.executionMode ≠ .singleShot ∧ hasSkillsConfig agent then
    match s.heap[ctx]? with
    | none => s
    | some c =>
      let n := normalizeRequirements agent (c.requirements.getD [])
      let s := s.modify ctx fun c => { c with requirements := some n.requirements }
      match n.skills with
      | [] => produced future taskId now ctx (finalOutput [] false) s
      | skillId :: rest =>
        if agent.executionMode = .sequentialSkills then
          s.setStage future (.skill ctx skillId rest [])
        else s.setStage future (.gather ctx (skillId :: rest))
  else
    match entry with
    | .reached => s.setStage future (.productionLlm ctx)
    | .raised e | .escaped e => fail future taskId now e s

def runAnalysisStage (nested : Bool) (entry : Entry) (s : World) : World :=
  match s.tasks taskId, entry with
  | some ctx, .reached => s.setStage future (.analysisLlm ctx)
  | _, .raised e => fail future taskId now e s
  | _, .escaped e => if nested then fail future taskId now e s else s.setStage future .done
  | none, .reached => s

def decisionMade (d : Decision) (entry : Entry) (s : World) : World :=
  if isReject d then
    match textDataItem agent d.reason with
    | .ok reason => finish future taskId now .rejected [reason] s
    | .error e => fail future taskId now e s
  else
    runAnalysisStage future taskId now true entry (updateTaskStatus taskId .working [] now s)

def analysisMade (ctx : ℕ) (content : String) (entry : Entry) (s : World) : World :=
  match s.heap[ctx]? with
  | none => s
  | some c =>
    let (requirements, v) := analyse agent c.requirements content
    let s := s.modify ctx fun c => { c with requirements }
    match v with
    | .ok (.awaitingInput text) => finish future taskId now .awaitingInput [text] s
    | .ok .complete => runProductionStage agent future taskId now ctx entry s
    | .error e => fail future taskId now e s

def skillMade (ctx : ℕ) (skillId : String) (rest outputs : List String) (awaited : Awaited)
    (s : World) : World :=
  match awaitedSkill agent skillId awaited with
  | .error e => fail future taskId now e s
  | .ok output =>
    match rest with
    | next :: rest => s.setStage future (.skill ctx next rest (outputs ++ [output]))
    | [] => produced future taskId now ctx (finalOutput (outputs ++ [output]) false) s

def resume (r : Resumption) (c : Coroutine) (s : World) : World :=
  match c.stage with
  | .decisionCreated command =>
    match r.entry with
    | .reached => s.setStage future (.decisionLlm command)
    | .raised e => fail future c.taskId r.now e s
    | .escaped _ => s.setStage future .done
  | .decisionLlm command =>
    match r.awaited with
    | .returned content =>
      match decisionOf agent content with
      | .ok d => s.setStage future (.decisionAudit command d)
      | .error e => fail future c.taskId r.now e s
    | .failed e | .raised e => fail future c.taskId r.now e s
  | .decisionAudit _ d => decisionMade agent future c.taskId r.now d r.entry s
  | .analysisCreated => runAnalysisStage future c.taskId r.now false r.entry s
  | .analysisLlm ctx =>
    match r.awaited with
    | .returned content => analysisMade agent future c.taskId r.now ctx content r.production s
    | .failed e | .raised e => fail future c.taskId r.now e s
  | .skill ctx skillId rest outputs =>
    skillMade agent future c.taskId r.now ctx skillId rest outputs r.awaited s
  | .gather ctx skills =>
    match r.results with
    | some results => produced future c.taskId r.now ctx
        (finalOutput (List.zipWith (gatheredSkill agent) skills results) false) s
    | none => produced future c.taskId r.now ctx (finalOutput [] true) s
  | .productionLlm ctx =>
    match r.awaited with
    | .returned content => produced future c.taskId r.now ctx content s
    | .failed e | .raised e => fail future c.taskId r.now e s
  | .done => s

end Stages

inductive Act where
  | dispatch (command : TaskCommand) (now : Time)
  | onTaskCommand (command : TaskCommand) (isMentioned : Bool) (now : Time)
  | onStreamStart (command : TaskCommand) (now : Time)
  | resume (future : ℕ) (r : Resumption)
  | resumeCancel (cancellation : ℕ) (now : Time)

def resumeStep (future : ℕ) (r : Resumption) (s : World) : Option World :=
  match s.futures[future]? with
  | none => none
  | some c =>
    if c.stage = .done then none
    else if c.cancelRequested then some (s.setStage future .done)
    else some (resume agent future r c s)

def resumeCancelStep (cancellation : ℕ) (now : Time) (s : World) : Option World :=
  match s.cancellations[cancellation]? with
  | none => none
  | some w =>
    if s.running w.future then none
    else some (finishCancel now w.ctx
      { s.modify w.ctx fun c => { c with runningFuture := none } with
        cancellations := s.cancellations.eraseIdx cancellation })

def step (s : World) : Act → Option World
  | .dispatch command now => some (dispatch agent command now s)
  | .onTaskCommand command isMentioned now => some (onTaskCommand agent command now isMentioned s)
  | .onStreamStart command now => some (onStreamStart agent command now s)
  | .resume future r => resumeStep agent future r s
  | .resumeCancel cancellation now => resumeCancelStep cancellation now s

def runner : System World Act := ⟨step agent⟩

end Acps.Partner
