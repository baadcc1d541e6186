import Mathlib.Logic.Function.Basic
import Acps.Lib.Slots
import Acps.Lib.Transition
import Acps.Assistant.BackgroundRun

/-!
The executor of tasks in the background: the records of the tasks, the runs, and the run that is
registered for each task. A run goes on from one `await` to the next, and some time after its end its
done-callback takes the task out of the registry.
-/

namespace Acps.Assistant

open Transition

structure BackgroundExecutor where
  executions : ActiveTaskId → Option TaskExecution
  runs : List Run
  runningTasks : ActiveTaskId → Option ℕ

inductive ExecutorAct where
  | submitTask (taskId : ActiveTaskId) (planning : PlanningResult)
  | resumeAfterContinue (taskId : ActiveTaskId) (planning : Option PlanningResult)
  | cancelTask (taskId : ActiveTaskId)
  | cancelTaskAndWait (taskId : ActiveTaskId)
  | run (i : ℕ) (awaited : Awaited)
  | callback (i : ℕ)

namespace BackgroundExecutor

def initial : BackgroundExecutor :=
  { executions := fun _ => none, runs := [], runningTasks := fun _ => none }

variable (aggregator : Bool) (s : BackgroundExecutor) (taskId : ActiveTaskId)

def createTask : BackgroundExecutor :=
  { s with executions :=
    Function.update s.executions taskId (some ((s.executions taskId).getD .create)) }

def spawn (kind : RunKind) (planning : PlanningResult) : BackgroundExecutor :=
  { s with
    runs := s.runs ++
      [{ taskId, kind, planning, stage := .created, cancelRequested := false, calledBack := false }]
    runningTasks := Function.update s.runningTasks taskId (some s.runs.length) }

def submitTask (planning : PlanningResult) : BackgroundExecutor :=
  (s.createTask taskId).spawn taskId .execute planning

def registered : Option ℕ :=
  (s.runningTasks taskId).filter fun i => (s.runs[i]?).any Run.live

def resumeAfterContinue (planning : Option PlanningResult) : BackgroundExecutor :=
  match s.registered taskId, planning with
  | none, some planning => s.spawn taskId .resume planning
  | _, _ => s

def cancelTask : BackgroundExecutor :=
  match s.registered taskId with
  | none => s
  | some i => { s with runs := s.runs.modify i fun run => { run with cancelRequested := true } }

def cancelTaskAndWait : BackgroundExecutor × Option ℕ :=
  (s.cancelTask taskId, s.registered taskId)

def applyMark (mark : Option Mark) : BackgroundExecutor :=
  match mark with
  | none => s
  | some mark =>
    { s with executions :=
      Function.update s.executions taskId ((s.executions taskId).map fun e => e.mark mark) }

def advance (i : ℕ) (run : Run) (segment : Segment) : BackgroundExecutor :=
  { s.applyMark run.taskId segment.mark with
    runs := s.runs.modify i fun run => { run with stage := segment.stage } }

def runStep (i : ℕ) (awaited : Awaited) : Option BackgroundExecutor :=
  (s.runs[i]?).bind fun run => (run.next aggregator awaited).map fun segment =>
    s.advance i run segment

def callback (i : ℕ) : Option BackgroundExecutor :=
  (s.runs[i]?).bind fun run =>
    if run.stage = .done ∧ run.calledBack = false then
      some { s with
        runs := s.runs.modify i fun run => { run with calledBack := true }
        runningTasks := Function.update s.runningTasks run.taskId none }
    else none

def step : ExecutorAct → Option BackgroundExecutor
  | .submitTask taskId planning => some (s.submitTask taskId planning)
  | .resumeAfterContinue taskId planning => some (s.resumeAfterContinue taskId planning)
  | .cancelTask taskId => some (s.cancelTask taskId)
  | .cancelTaskAndWait taskId => some (s.cancelTaskAndWait taskId).1
  | .run i awaited => s.runStep aggregator i awaited
  | .callback i => s.callback i

end BackgroundExecutor

def backgroundExecutor (aggregator : Bool) : System BackgroundExecutor ExecutorAct :=
  ⟨fun s => s.step aggregator⟩

section Segments

variable {aggregator : Bool} {run : Run} {awaited : Awaited} {segment : Segment}

def Segment.Closing (segment : Segment) : Prop :=
  segment.mark = none ∧ segment.stage ≠ .done ∨
    segment.stage = .done ∧ ∃ m, segment.mark = some m ∧ m ≠ .running

theorem closing_complete (run : Run) (result : ExecutionResult) (text : String) :
    (run.complete result text).Closing := by
  unfold Run.complete
  split
  · exact .inr ⟨rfl, _, rfl, by simp⟩
  · exact .inr ⟨rfl, _, rfl, by simp⟩

theorem closing_fail (error : String) : (Run.fail error).Closing :=
  .inr ⟨rfl, _, rfl, by simp⟩

theorem closing_clarify (result : ExecutionResult) (writes : List Write) :
    (Run.clarify result writes).Closing :=
  .inr ⟨rfl, _, rfl, by simp⟩

theorem closing_aggregate (result : ExecutionResult) (writes : List Write) :
    (run.aggregate aggregator result writes).Closing := by
  unfold Run.aggregate
  dsimp only
  split
  · exact .inl ⟨rfl, by simp⟩
  · exact closing_complete run result _

theorem closing_advance (h : run.advance aggregator awaited = some segment)
    (hstarted : run.stage ≠ .created) : segment.Closing := by
  unfold Run.advance at h
  split at h
  · next hstage => exact absurd hstage hstarted
  · obtain rfl := Option.some.inj h
    unfold Run.executed
    dsimp only
    split
    · exact closing_clarify _ _
    · exact .inl ⟨rfl, by simp⟩
    · exact closing_aggregate _ _
  · obtain rfl := Option.some.inj h
    unfold Run.gated
    split
    · exact closing_clarify _ _
    · exact closing_aggregate _ _
  · obtain rfl := Option.some.inj h
    exact closing_complete _ _ _
  · split at h
    · obtain rfl := Option.some.inj h
      exact closing_fail _
    · obtain rfl := Option.some.inj h
      exact closing_complete _ _ _
  · obtain rfl := Option.some.inj h
    exact closing_fail _
  · obtain rfl := Option.some.inj h
    exact closing_fail _
  · cases h

theorem next_cases (h : run.next aggregator awaited = some segment) :
    run.stage ≠ .done ∧ (run.cancelRequested = true ∧ segment = run.cancel ∨
      run.cancelRequested = false ∧ (run.stage = .created ∧ segment = run.start ∨
        run.stage ≠ .created ∧ segment.Closing)) := by
  unfold Run.next at h
  split at h
  · cases h
  · next hlive =>
    refine ⟨hlive, ?_⟩
    split at h
    · next hcancel => exact .inl ⟨hcancel, (Option.some.inj h).symm⟩
    · next hcancel =>
      refine .inr ⟨by simpa using hcancel, ?_⟩
      by_cases hstage : run.stage = .created
      · unfold Run.advance at h
        rw [hstage] at h
        exact .inl ⟨hstage, (Option.some.inj h).symm⟩
      · exact .inr ⟨hstage, closing_advance h hstage⟩

end Segments

end Acps.Assistant
