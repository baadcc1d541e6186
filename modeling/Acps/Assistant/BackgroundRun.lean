import Acps.Partner.Task
import Mathlib.Data.Nat.Notation

/-!
The coroutines that execute tasks in the background: the one that starts a task and the one that
resumes its polling, from one `await` to the next.
-/

namespace Acps.Assistant

open Partner (TaskState)

abbrev ActiveTaskId := ℕ

inductive TaskExecutionStatus where
  | pending
  | running
  | awaitingInput
  | completed
  | failed
  | cancelled
  deriving DecidableEq

structure TaskExecution where
  status : TaskExecutionStatus
  responseText : Option String
  clarificationText : Option String
  errorMessage : Option String
  deriving DecidableEq

namespace TaskExecution

variable (e : TaskExecution)

def create : TaskExecution :=
  { status := .pending, responseText := none, clarificationText := none, errorMessage := none }

def markRunning : TaskExecution := { e with status := .running }

def markAwaitingInput (clarificationText : String) : TaskExecution :=
  { e with status := .awaitingInput, clarificationText := some clarificationText }

def markCompleted (responseText : String) : TaskExecution :=
  { e with
    status := .completed
    responseText := if responseText = "" then e.responseText else some responseText }

def markFailed (errorMessage : String) : TaskExecution :=
  { e with status := .failed, errorMessage := some errorMessage }

def markCancelled : TaskExecution := { e with status := .cancelled }

def isTerminal : Bool :=
  e.status = .completed ∨ e.status = .failed ∨ e.status = .cancelled

def isPendingOrRunning : Bool := e.status = .pending ∨ e.status = .running

end TaskExecution

inductive Mark where
  | running
  | awaitingInput (clarificationText : String)
  | completed (responseText : String)
  | failed (errorMessage : String)
  | cancelled

def TaskExecution.mark (e : TaskExecution) : Mark → TaskExecution
  | .running => e.markRunning
  | .awaitingInput clarificationText => e.markAwaitingInput clarificationText
  | .completed responseText => e.markCompleted responseText
  | .failed errorMessage => e.markFailed errorMessage
  | .cancelled => e.markCancelled

theorem isPendingOrRunning_mark (e : TaskExecution) (m : Mark) :
    (e.mark m).isPendingOrRunning = true ↔ m = .running := by
  cases m <;> simp [TaskExecution.mark, TaskExecution.isPendingOrRunning, TaskExecution.markRunning,
    TaskExecution.markAwaitingInput, TaskExecution.markCompleted, TaskExecution.markFailed,
    TaskExecution.markCancelled]

inductive ExecutionPhase where
  | starting
  | polling
  | awaitingInput
  | awaitingCompletion
  | completed
  | failed
  | timeout
  deriving DecidableEq

def ExecutionPhase.value : ExecutionPhase → String
  | .starting => "starting"
  | .polling => "polling"
  | .awaitingInput => "awaiting_input"
  | .awaitingCompletion => "awaiting_completion"
  | .completed => "completed"
  | .failed => "failed"
  | .timeout => "timeout"

structure ExecutionResult where
  phase : ExecutionPhase
  partnerResults : List (String × TaskState)
  awaitingInputPartners : List String
  questionsForUser : List String
  deriving DecidableEq

structure PlanningResult where
  selectedPartners : List (String × List String)
  deriving DecidableEq

def PlanningResult.partnerCount (planning : PlanningResult) : ℕ :=
  (planning.selectedPartners.map fun selected => selected.2.length).sum

inductive UserResultType where
  | pending
  | clarification
  | final
  | error
  deriving DecidableEq

inductive ActiveTaskStatus where
  | pending
  | running
  | awaitingInput
  | completed
  | failed
  deriving DecidableEq

/-- A write to the session. Those of `externalStatus` and `partnerTasks` are made only if the task is
still the active one, that of `anyExternalStatus` to whatever task is active. -/
inductive Write where
  | userResult (type : UserResultType) (text : String)
  | externalStatus (status : ActiveTaskStatus)
  | anyExternalStatus (status : ActiveTaskStatus)
  | partnerTasks (result : ExecutionResult)

inductive RunKind where
  | execute
  | resume
  deriving DecidableEq

inductive RunStage where
  | created
  | execution
  | completionGate
  | aggregation (result : ExecutionResult)
  | done
  deriving DecidableEq

structure Segment where
  mark : Option Mark
  writes : List Write
  stage : RunStage

inductive Awaited where
  | returned (result : ExecutionResult)
  | aggregated (text : String)
  | raised (error : String)

structure Run where
  taskId : ActiveTaskId
  kind : RunKind
  planning : PlanningResult
  stage : RunStage
  cancelRequested : Bool
  calledBack : Bool
  deriving DecidableEq

def buildClarificationText (result : ExecutionResult) : String :=
  if result.questionsForUser ≠ [] then
    "为了更好地完成您的请求，请提供以下信息：\n\n" ++
      "\n".intercalate (result.questionsForUser.map fun question => "- " ++ question)
  else if result.awaitingInputPartners ≠ [] then
    "以下服务需要更多信息：" ++ ", ".intercalate result.awaitingInputPartners ++ "\n\n请补充相关信息。"
  else "请提供更多信息以继续处理您的请求。"

namespace Run

variable (aggregator : Bool) (run : Run)

def live : Bool := run.stage ≠ .done

def start : Segment :=
  let count := toString run.planning.partnerCount
  { mark := some .running
    writes := [.userResult .pending (match run.kind with
      | .execute => "正在调度 " ++ count ++ " 个 Partner 执行任务..."
      | .resume => "正在等待 " ++ count ++ " 个 Partner 响应...")]
    stage := .execution }

def complete (result : ExecutionResult) (text : String) : Segment :=
  match run.kind with
  | .execute =>
    { mark := some (.completed text)
      writes := if text = "" then [] else
        [.userResult .final text, .externalStatus .completed, .partnerTasks result]
      stage := .done }
  | .resume =>
    { mark := some (.completed text)
      writes := [.userResult .final (if text = "" then "任务已完成" else text),
        .anyExternalStatus .completed]
      stage := .done }

def fail (error : String) : Segment :=
  { mark := some (.failed error)
    writes := [.userResult .error ("任务执行失败：" ++ error), .anyExternalStatus .failed]
    stage := .done }

def cancel : Segment :=
  if run.kind = .execute ∧ run.stage ≠ .created then
    { mark := some .cancelled, writes := [.externalStatus .failed], stage := .done }
  else { mark := none, writes := [], stage := .done }

def clarify (result : ExecutionResult) (writes : List Write) : Segment :=
  let text := buildClarificationText result
  { mark := some (.awaitingInput text)
    writes := writes ++ [.userResult .clarification text]
    stage := .done }

def aggregate (result : ExecutionResult) (writes : List Write) : Segment :=
  let completed := (result.partnerResults.filter fun partner => partner.2 = .completed).length
  let writes := writes ++ [.userResult .pending ("正在整合 Partner 结果 (" ++ toString completed ++ "/" ++
    toString result.partnerResults.length ++ " 完成)...")]
  if aggregator then { mark := none, writes, stage := .aggregation result }
  else
    let ending := run.complete result (match run.kind with
      | .execute => "任务执行完成。\n\n任务 ID: " ++ toString run.taskId ++ "\n执行阶段: " ++
          result.phase.value
      | .resume => "")
    { ending with writes := writes ++ ending.writes }

def executed (result : ExecutionResult) : Segment :=
  let writes := [.partnerTasks result, .externalStatus .running]
  match result.phase with
  | .awaitingInput => clarify result writes
  | .awaitingCompletion =>
    { mark := none
      writes := writes ++ [.userResult .pending "正在评估 Partner 产出物完整性..."]
      stage := .completionGate }
  | _ => run.aggregate aggregator result writes

def gated (result : ExecutionResult) : Segment :=
  match result.phase with
  | .awaitingInput => clarify result [.partnerTasks result]
  | _ => run.aggregate aggregator result [.partnerTasks result]

def advance (awaited : Awaited) : Option Segment :=
  match run.stage, awaited with
  | .created, _ => some run.start
  | .execution, .returned result => some (run.executed aggregator result)
  | .completionGate, .returned result => some (run.gated aggregator result)
  | .aggregation result, .aggregated text => some (run.complete result text)
  | .aggregation result, .raised error =>
    match run.kind with
    | .execute => some (fail error)
    | .resume => some (run.complete result "结果整合失败，请查看各服务的输出。")
  | .execution, .raised error | .completionGate, .raised error => some (fail error)
  | _, _ => none

def next (awaited : Awaited) : Option Segment :=
  if run.stage = .done then none
  else if run.cancelRequested then some run.cancel
  else run.advance aggregator awaited

end Run

end Acps.Assistant
