import Acps.Assistant.BackgroundExecutor
import Acps.Assistant.Session

/-!
One session of the leader: its submits and cancellations go from one `await` to the next, and so do
the runs in the background. Every submit has a number, and the task that it plans has the same one.
-/

namespace Acps.Assistant

open Transition
open Partner (TaskState Time)

inductive IntentType where
  | chitChat
  | taskNew
  | taskInput
  deriving DecidableEq

structure IntentDecision where
  intentType : IntentType
  targetScenario : Option String
  taskInstruction : Option String
  responseGuide : Option String
  deriving DecidableEq

structure SubmitRequest where
  query : String
  mode : Option ExecutionMode
  clientRequestId : Option String
  activeTaskId : Option ActiveTaskId
  deriving DecidableEq

structure RoutingResult where
  isSufficient : Bool
  patchesByPartner : List String
  missingFields : List String
  routingSummary : String
  deriving DecidableEq

inductive SubmitStage where
  | analysis
  | audit (intent : IntentDecision)
  | cancellation (intent : IntentDecision) (taskId : ActiveTaskId) (run : Option ℕ)
  | termination (intent : IntentDecision) (taskId : ActiveTaskId) (rest : List String)
  | planning (intent : IntentDecision) (replaced : Option ActiveTaskId)
  | planAudit (planning : PlanningResult) (replaced : Option ActiveTaskId)
  | routing (taskId : ActiveTaskId)
  | continuation (taskId : ActiveTaskId) (routing : RoutingResult) (partnerAic : String)
    (rest : List String) (successes : ℕ)
  | partialContinuation (taskId : ActiveTaskId) (routing : RoutingResult) (partnerAic : String)
    (rest : List String)
  | clarification (taskId : ActiveTaskId)
  | done
  deriving DecidableEq

structure Submit where
  request : SubmitRequest
  stage : SubmitStage
  deriving DecidableEq

inductive CancelStage where
  | notification (taskId : ActiveTaskId) (rest : List String)
  | audit
  | done
  deriving DecidableEq

inductive SubmitEffect where
  | handled (intentType : IntentType)
  | terminated (taskId : ActiveTaskId)
  | installed (replaced : Option ActiveTaskId)
  | submitted (replaced : Option ActiveTaskId)
  | continued (taskId : ActiveTaskId) (partnerAic : String)
  deriving DecidableEq

structure SubmitEvent where
  submit : ℕ
  effect : SubmitEffect
  closed : Bool
  activeTask : Option ActiveTaskId
  deriving DecidableEq

structure Leader where
  session : Session
  executor : BackgroundExecutor
  submits : List Submit
  cancels : List CancelStage
  events : List SubmitEvent
  terminated : List ℕ

def Leader.initial (mode : ExecutionMode) : Leader :=
  { session := .initial mode, executor := .initial, submits := [], cancels := [], events := []
    terminated := [] }

/-- The components of the leader are there once it has started. Partners may have no endpoint, in
what the planner has discovered or in what the session has resolved. -/
structure Orchestrator where
  endpoint : String → Bool
  resolvedEndpoint : String → Bool
  requestHash : Option ExecutionMode → String → Option ActiveTaskId → String

def Orchestrator.hashOf (o : Orchestrator) (r : SubmitRequest) : String :=
  o.requestHash r.mode r.query r.activeTaskId

inductive SubmitError where
  | sessionClosed
  | modeMismatch
  | duplicateRequest
  | activeTaskMismatch
  deriving DecidableEq

inductive LeaderAct where
  | submit (request : SubmitRequest)
  | analyzed (k : ℕ) (intent : Option IntentDecision)
  | handleIntent (k : ℕ) (now : Time)
  | cancelled (k : ℕ)
  | terminated (k : ℕ)
  | planned (k : ℕ) (planning : Option PlanningResult) (now : Time)
  | planAudited (k : ℕ)
  | routed (k : ℕ) (routing : Option RoutingResult) (now : Time)
  | continued (k : ℕ) (state : Option TaskState) (now : Time)
  | clarified (k : ℕ)
  | cancel (now : Time)
  | partnerNotified (j : ℕ)
  | cancelAudited (j : ℕ)
  | run (i : ℕ) (awaited : Awaited) (now : Time)
  | pollUpdate (i : ℕ) (result : ExecutionResult) (now : Time)
  | progress (i : ℕ) (message : String) (now : Time)
  | callback (i : ℕ)

namespace Leader

variable (o : Orchestrator) (s : Leader) (k : ℕ)

def validate (r : SubmitRequest) : Except SubmitError Unit :=
  if s.session.closed then .error .sessionClosed
  else if r.mode.any (· ≠ s.session.mode) then .error .modeMismatch
  else if ((r.clientRequestId.filter (· ≠ "")).bind s.session.requestCache).any
      (· ≠ o.hashOf r) then
    .error .duplicateRequest
  else if r.activeTaskId.isSome ∧ s.session.activeTask ≠ r.activeTaskId then
    .error .activeTaskMismatch
  else .ok ()

def setStage (stage : SubmitStage) : Leader :=
  { s with submits := s.submits.modify k fun submit => { submit with stage } }

def record (effect : SubmitEffect) : Leader :=
  { s with events := s.events ++
    [{ submit := k, effect, closed := s.session.closed, activeTask := s.session.activeTask }] }

def finish : Leader :=
  match (s.submits[k]?).bind fun submit =>
      (submit.request.clientRequestId.filter (· ≠ "")).map (·, o.hashOf submit.request) with
  | some (clientRequestId, hash) =>
    { s.setStage k .done with session := { s.session with
      requestCache := Function.update s.session.requestCache clientRequestId (some hash) } }
  | none => s.setStage k .done

def raise : Leader := s.setStage k .done

def setUserResult (type : UserResultType) (text : String) (now : Time) : Leader :=
  { s with session := { s.session with userResult := { type, text, updatedAt := now } } }

def liveRuns (taskId : ActiveTaskId) : List ℕ :=
  (List.range s.executor.runs.length).filter fun i =>
    (s.executor.runs[i]?).any fun run => run.taskId = taskId ∧ run.stage ≠ .done

def submit (r : SubmitRequest) : Leader :=
  match s.validate o r with
  | .ok () => { s with submits := s.submits ++ [{ request := r, stage := .analysis }] }
  | .error _ => s

def handleChitChat (intent : IntentDecision) (now : Time) : Leader :=
  let text := (intent.responseGuide.filter (· ≠ "")).getD "您好！我是智能助手，有什么可以帮您？"
  let s := s.setUserResult .final text now
  { s with session := { s.session with activeTask := none } }.finish o k

def startPlanning (intent : IntentDecision) (replaced : Option ActiveTaskId) : Leader :=
  if s.session.expertScenario.isSome then s.setStage k (.planning intent replaced) else s.finish o k

def nextPartner (reachable : String → Bool) (taskId : ActiveTaskId) :
    List String → Option (String × List String)
  | [] => none
  | partnerAic :: rest =>
    let partner := (s.session.tasks taskId).bind fun task =>
      Keyed.find PartnerTask.partnerAic task.partnerTasks partnerAic
    if partner.any (fun partner => partner.state ∉ terminalStates) ∧ reachable partnerAic then
      some (partnerAic, rest)
    else nextPartner reachable taskId rest

def partnersOf (taskId : ActiveTaskId) : List String :=
  (s.session.tasks taskId).toList.flatMap fun task => task.partnerTasks.map PartnerTask.partnerAic

def terminate (intent : IntentDecision) (taskId : ActiveTaskId) (partners : List String) : Leader :=
  match s.nextPartner o.endpoint taskId partners with
  | some (_, rest) => s.setStage k (.termination intent taskId rest)
  | none => s.startPlanning o k intent (some taskId)

def handleTaskNew (intent : IntentDecision) : Leader :=
  let s := { s with session := { s.session with
    expertScenario := (intent.targetScenario.filter (· ≠ "")).or s.session.expertScenario } }
  match s.session.activeTask with
  | some taskId =>
    let waited := s.executor.cancelTaskAndWait taskId
    { s.record k (.terminated taskId) with
      executor := waited.1
      terminated := s.terminated ++ s.liveRuns taskId }.setStage k
        (.cancellation intent taskId waited.2)
  | none => s.startPlanning o k intent none

def handleTaskInput : Leader :=
  match s.session.activeTask with
  | some taskId =>
    if (s.session.tasks taskId).any fun task =>
        task.partnerTasks.any fun partner => partner.state = .awaitingInput then
      s.setStage k (.routing taskId)
    else s.finish o k
  | none => s.finish o k

def handleIntent (intent : IntentDecision) (now : Time) : Leader :=
  let s := s.record k (.handled intent.intentType)
  match intent.intentType with
  | .chitChat => s.handleChitChat o k intent now
  | .taskNew => s.handleTaskNew o k intent
  | .taskInput => s.handleTaskInput o k

def planText (taskText : String) (planning : PlanningResult) : String :=
  "我理解您的需求是：" ++ taskText ++ "\n\n已创建任务（ID: " ++ toString k ++ "）\n\n**规划概要：**\n" ++
    "- 涉及维度：" ++ ", ".intercalate ((planning.selectedPartners.filter fun selected =>
      selected.2 ≠ []).map Prod.fst) ++ "\n- 分配 Partner 数：" ++ toString planning.partnerCount ++
    "\n\n正在分发任务给各 Partner，请稍候..."

def installTask (taskText : String) (replaced : Option ActiveTaskId) (planning : PlanningResult)
    (now : Time) : Leader :=
  let s := s.record k (.installed replaced)
  let task : ActiveTask :=
    { externalStatus := .pending, partnerTasks := planning.initialPartnerTasks now }
  { s with session := { s.session with
      activeTask := some k
      tasks := Function.update s.session.tasks k (some task)
      userResult :=
        { type := .pending, text := planText k taskText planning, updatedAt := now } } }.setStage k
    (.planAudit planning replaced)

def submitTask (planning : PlanningResult) (replaced : Option ActiveTaskId) : Leader :=
  let s := s.record k (.submitted replaced)
  { s with executor := s.executor.submitTask k planning }.finish o k

def nextContinue (taskId : ActiveTaskId) : List String → Except Unit (Option (String × List String))
  | [] => .ok none
  | partnerAic :: rest =>
    if o.endpoint partnerAic then .ok (some (partnerAic, rest))
    else if (s.session.tasks taskId).any fun task =>
        (Keyed.find PartnerTask.partnerAic task.partnerTasks partnerAic).isSome then .error ()
    else nextContinue taskId rest

def continueText (routing : RoutingResult) (successes : ℕ) : String :=
  let total := routing.patchesByPartner.length
  "✅ 已收到您的补充信息并转发给相关服务\n\n**路由摘要：** " ++ routing.routingSummary ++
    "\n\n**执行结果：** 成功 " ++ toString successes ++ "/" ++ toString total ++ " 个 Partner\n\n" ++
    (if successes < total then "**注意：** 部分 Partner 处理失败\n" else "") ++ "正在等待各服务返回结果..."

def concludeContinue (taskId : ActiveTaskId) (routing : RoutingResult) (successes : ℕ)
    (now : Time) : Leader :=
  let s := s.setUserResult .pending (continueText routing successes) now
  (if 0 < successes then
    { s with executor :=
      s.executor.resumeAfterContinue taskId s.session.rebuildPlanningResult }
  else s).finish o k

def continuePartners (taskId : ActiveTaskId) (routing : RoutingResult) (partners : List String)
    (successes : ℕ) (now : Time) : Leader :=
  match s.nextContinue o taskId partners with
  | .ok (some (partnerAic, rest)) =>
    (s.record k (.continued taskId partnerAic)).setStage k
      (.continuation taskId routing partnerAic rest successes)
  | .ok none => s.concludeContinue o k taskId routing successes now
  | .error () => s.raise k

def continuePartially (taskId : ActiveTaskId) (routing : RoutingResult) (partners : List String) :
    Leader :=
  match s.nextContinue o taskId partners with
  | .ok (some (partnerAic, rest)) =>
    (s.record k (.continued taskId partnerAic)).setStage k
      (.partialContinuation taskId routing partnerAic rest)
  | .ok none =>
    if routing.missingFields ≠ [] then s.setStage k (.clarification taskId) else s.finish o k
  | .error () => s.raise k

def continuedPartner (taskId : ActiveTaskId) (partnerAic : String) (state : Option TaskState) :
    Leader :=
  match state with
  | some state =>
    { s with session := (s.session.modifyTask taskId fun task =>
      { task with partnerTasks :=
        Keyed.modify PartnerTask.partnerAic task.partnerTasks partnerAic fun partner =>
          { partner with state } }) }
  | none => s

def close (taskId : Option ActiveTaskId) : Leader :=
  { s with
    session := { s.session with
      closed := true
      activeTask := if taskId.isSome then none else s.session.activeTask }
    terminated := s.terminated ++ taskId.toList.flatMap s.liveRuns }

def cancel : Leader :=
  match s.session.activeTask with
  | some taskId =>
    match s.nextPartner o.resolvedEndpoint taskId (s.partnersOf taskId) with
    | some (_, rest) => { s with cancels := s.cancels ++ [.notification taskId rest] }
    | none => { s.close (some taskId) with cancels := s.cancels ++ [.audit] }
  | none => { s.close none with cancels := s.cancels ++ [.audit] }

def setCancelStage (j : ℕ) (stage : CancelStage) : Leader :=
  { s with cancels := s.cancels.modify j fun _ => stage }

def partnerNotified (j : ℕ) : Option Leader :=
  match s.cancels[j]? with
  | some (.notification taskId rest) =>
    match s.nextPartner o.resolvedEndpoint taskId rest with
    | some (_, rest) => some (s.setCancelStage j (.notification taskId rest))
    | none => some ((s.close (some taskId)).setCancelStage j .audit)
  | _ => none

def cancelAudited (j : ℕ) : Option Leader :=
  match s.cancels[j]? with
  | some .audit => some (s.setCancelStage j .done)
  | _ => none

def stage : Option SubmitStage := (s.submits[k]?).map Submit.stage

def analyzed (intent : Option IntentDecision) : Option Leader :=
  match s.stage k with
  | some .analysis => match intent with
    | some intent => some (s.setStage k (.audit intent))
    | none => some (s.raise k)
  | _ => none

def audited (now : Time) : Option Leader :=
  match s.stage k with
  | some (.audit intent) => some (s.handleIntent o k intent now)
  | _ => none

def cancelled : Option Leader :=
  match s.stage k with
  | some (.cancellation intent taskId run) =>
    if run.all fun i => (s.executor.runs[i]?).all fun run => run.stage = .done then
      some (s.terminate o k intent taskId (s.partnersOf taskId))
    else none
  | _ => none

def terminatedPartner : Option Leader :=
  match s.stage k with
  | some (.termination intent taskId rest) => some (s.terminate o k intent taskId rest)
  | _ => none

def planned (planning : Option PlanningResult) (now : Time) : Option Leader :=
  match s.stage k, s.submits[k]? with
  | some (.planning intent replaced), some submit => match planning with
    | some planning =>
      some (s.installTask k (intent.taskInstruction.getD submit.request.query) replaced planning now)
    | none => some (s.finish o k)
  | _, _ => none

def planAudited : Option Leader :=
  match s.stage k with
  | some (.planAudit planning replaced) => some (s.submitTask o k planning replaced)
  | _ => none

def routed (routing : Option RoutingResult) (now : Time) : Option Leader :=
  match s.stage k with
  | some (.routing taskId) => match routing with
    | some routing =>
      if routing.isSufficient then
        some (s.continuePartners o k taskId routing routing.patchesByPartner 0 now)
      else some (s.continuePartially o k taskId routing routing.patchesByPartner)
    | none => some (s.finish o k)
  | _ => none

def continued (state : Option TaskState) (now : Time) : Option Leader :=
  match s.stage k with
  | some (.continuation taskId routing partnerAic rest successes) =>
    some ((s.continuedPartner taskId partnerAic state).continuePartners o k taskId routing rest
      (if state.isSome then successes + 1 else successes) now)
  | some (.partialContinuation taskId routing _ rest) =>
    some (s.continuePartially o k taskId routing rest)
  | _ => none

def clarified : Option Leader :=
  match s.stage k with
  | some (.clarification _) => some (s.finish o k)
  | _ => none

def runStep (i : ℕ) (awaited : Awaited) (now : Time) : Option Leader :=
  (s.executor.runs[i]?).bind fun run => (run.next true awaited).map fun segment =>
    { s with
      session := s.session.writeAll run now segment.writes
      executor := s.executor.advance i run segment }

def whileWaiting (i : ℕ) (stage : RunStage) (now : Time) (w : Write) : Option Leader :=
  (s.executor.runs[i]?).bind fun run =>
    if run.stage = stage ∧ run.cancelRequested = false then
      some { s with session := s.session.write run now w }
    else none

def callback (i : ℕ) : Option Leader :=
  (s.executor.callback i).map fun executor => { s with executor }

def step : LeaderAct → Option Leader
  | .submit r => some (s.submit o r)
  | .analyzed k intent => s.analyzed k intent
  | .handleIntent k now => s.audited o k now
  | .cancelled k => s.cancelled o k
  | .terminated k => s.terminatedPartner o k
  | .planned k planning now => s.planned o k planning now
  | .planAudited k => s.planAudited o k
  | .routed k routing now => s.routed o k routing now
  | .continued k state now => s.continued o k state now
  | .clarified k => s.clarified o k
  | .cancel _ => some (s.cancel o)
  | .partnerNotified j => s.partnerNotified o j
  | .cancelAudited j => s.cancelAudited j
  | .run i awaited now => s.runStep i awaited now
  | .pollUpdate i result now => s.whileWaiting i .execution now (.partnerTasks result)
  | .progress i message now => s.whileWaiting i .completionGate now (.userResult .pending message)
  | .callback i => s.callback i

end Leader

def leader (o : Orchestrator) : System Leader LeaderAct := ⟨fun s => s.step o⟩

end Acps.Assistant
