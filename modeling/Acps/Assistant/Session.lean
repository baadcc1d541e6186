import Mathlib.Logic.Function.Basic
import Acps.Lib.Keyed
import Acps.Assistant.BackgroundRun

/-!
The session that a leader holds with its user: the active task, the result that is shown, and what the
runs in the background write there.
-/

namespace Acps.Assistant

open Partner (TaskState Time)

inductive ExecutionMode where
  | directRpc
  | group
  deriving DecidableEq

structure PartnerTask where
  partnerAic : String
  dimensions : List String
  state : TaskState
  lastStateChangedAt : Time
  deriving DecidableEq

structure ActiveTask where
  externalStatus : ActiveTaskStatus
  partnerTasks : List PartnerTask
  deriving DecidableEq

structure UserResult where
  type : UserResultType
  text : String
  updatedAt : Time
  deriving DecidableEq

/-- `tasks` has every task that was active once: some that are no longer active are still held. The
cache has the hashes of the requests that were answered. -/
structure Session where
  mode : ExecutionMode
  closed : Bool
  activeTask : Option ActiveTaskId
  tasks : ActiveTaskId → Option ActiveTask
  userResult : UserResult
  expertScenario : Option String
  requestCache : String → Option String

def terminalStates : List TaskState := [.completed, .failed, .rejected, .canceled]

def PlanningResult.dimensionsOf (planning : PlanningResult) (partnerAic : String) : List String :=
  planning.selectedPartners.flatMap fun selected =>
    (selected.2.filter (· = partnerAic)).map fun _ => selected.1

def PlanningResult.initialPartnerTasks (planning : PlanningResult) (now : Time) :
    List PartnerTask :=
  (planning.selectedPartners.flatMap Prod.snd).eraseDups.map fun partnerAic =>
    { partnerAic, dimensions := planning.dimensionsOf partnerAic, state := .accepted
      lastStateChangedAt := now }

def updatePartnerTask (planning : PlanningResult) (now : Time) (partnerTasks : List PartnerTask)
    (result : String × TaskState) : List PartnerTask :=
  if (Keyed.find PartnerTask.partnerAic partnerTasks result.1).isSome then
    Keyed.modify PartnerTask.partnerAic partnerTasks result.1 fun task =>
      { task with state := result.2, lastStateChangedAt := now }
  else
    partnerTasks ++
      [{ partnerAic := result.1, dimensions := planning.dimensionsOf result.1, state := result.2
         lastStateChangedAt := now }]

namespace Session

variable (s : Session)

def initial (mode : ExecutionMode) : Session :=
  { mode, closed := false, activeTask := none, tasks := fun _ => none
    userResult := { type := .pending, text := "", updatedAt := 0 }
    expertScenario := none, requestCache := fun _ => none }

def active : Option ActiveTask := s.activeTask.bind s.tasks

def modifyTask (taskId : ActiveTaskId) (f : ActiveTask → ActiveTask) : Session :=
  { s with tasks := Function.update s.tasks taskId ((s.tasks taskId).map f) }

def isCurrentActiveTask (taskId : ActiveTaskId) : Bool := s.activeTask = some taskId

def rebuildPlanningResult : Option PlanningResult :=
  (s.active.filter fun task => task.partnerTasks ≠ []).map fun task =>
    { selectedPartners := task.partnerTasks.map fun partner =>
        (partner.dimensions.headD "unknown", [partner.partnerAic]) }

def write (run : Run) (now : Time) : Write → Session
  | .userResult type text => { s with userResult := { type, text, updatedAt := now } }
  | .externalStatus status =>
    if s.isCurrentActiveTask run.taskId then
      s.modifyTask run.taskId fun task => { task with externalStatus := status }
    else s
  | .anyExternalStatus status =>
    match s.activeTask with
    | some taskId => s.modifyTask taskId fun task => { task with externalStatus := status }
    | none => s
  | .partnerTasks result =>
    if s.isCurrentActiveTask run.taskId then
      s.modifyTask run.taskId fun task =>
        { task with partnerTasks :=
          result.partnerResults.foldl (updatePartnerTask run.planning now) task.partnerTasks }
    else s

def writeAll (run : Run) (now : Time) (writes : List Write) : Session :=
  writes.foldl (fun s w => s.write run now w) s

end Session

end Acps.Assistant
