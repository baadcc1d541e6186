import Acps.Assistant.Steps
import Acps.Assistant.TaskEnds

/-!
A run in the background writes to the session while its task is the active one and the session is
open, if nothing takes the task away before the run has been asked to stop.
-/

namespace Acps.Assistant

open Transition
open Partner (Time)

def LeaderAct.runOf : LeaderAct → Option ℕ
  | .run i _ _ | .pollUpdate i _ _ | .progress i _ _ => some i
  | _ => none

/-- What a run changes, it changes while the session is open and its task is the active one. -/
def Leader.WritesCurrent (o : Orchestrator) (s : Leader) (a : LeaderAct) : Prop :=
  ∀ (i : ℕ) (run : Run) (t : Leader), a.runOf = some i → s.executor.runs[i]? = some run →
    s.step o a = some t →
    t.session.userResult ≠ s.session.userResult ∨ t.session.tasks ≠ s.session.tasks →
    s.session.closed = false ∧ s.session.activeTask = some run.taskId

/-- When the session is closed or its active task replaced, the runs of that task have all been asked
to stop; and a run is started for the active task of an open session. -/
structure Leader.Unattended (o : Orchestrator) (s : Leader) (a : LeaderAct) : Prop where
  stopped : s.closes o a = true ∨ s.replaces a = true → ∀ run ∈ s.executor.runs,
    run.stage ≠ .done → s.session.activeTask = some run.taskId → run.cancelRequested = true
  started : ∀ taskId ∈ s.starts o a, s.session.closed = false ∧ s.session.activeTask = some taskId

instance (o : Orchestrator) (s : Leader) (a : LeaderAct) : Decidable (s.Unattended o a) :=
  decidable_of_iff ((s.closes o a = true ∨ s.replaces a = true → ∀ run ∈ s.executor.runs,
      run.stage ≠ .done → s.session.activeTask = some run.taskId → run.cancelRequested = true) ∧
    ∀ taskId ∈ s.starts o a, s.session.closed = false ∧ s.session.activeTask = some taskId)
    ⟨fun h => ⟨h.1, h.2⟩, fun h => ⟨h.stopped, h.started⟩⟩

/-- A run that goes on is one of the active task, unless it is about to stop. Once the session is
closed no run that goes on has the active task any more, for a submit can still make its own active. -/
structure Leader.Current (s : Leader) : Prop where
  running : ∀ (i : ℕ) (run : Run), s.executor.runs[i]? = some run → run.stage ≠ .done →
    run.cancelRequested = false →
    s.session.closed = false ∧ s.session.activeTask = some run.taskId
  closed : s.session.closed = true → ∀ (i : ℕ) (run : Run), s.executor.runs[i]? = some run →
    run.stage ≠ .done → s.session.activeTask ≠ some run.taskId
  runs : ∀ (i : ℕ) (run : Run), s.executor.runs[i]? = some run → s.Settled run.taskId
  active : ∀ taskId, s.session.activeTask = some taskId → s.Settled taskId

section Invariant

variable {o : Orchestrator} {s t : Leader} {a : LeaderAct}

theorem current_initial (mode : ExecutionMode) : (Leader.initial mode).Current where
  running := by
    intro i run hrun
    cases hrun
  closed := by
    intro h
    cases h
  runs := by
    intro i run hrun
    cases hrun
  active := by
    intro taskId h
    cases h

theorem stopped_of_unattended (h : s.Current) (hC : s.Unattended o a)
    (htakes : s.closes o a = true ∨ s.replaces a = true) {i : ℕ} {run : Run}
    (hrun : s.executor.runs[i]? = some run) (hlive : run.stage ≠ .done) :
    run.cancelRequested = true := by
  by_contra hgoes
  have hgoes : run.cancelRequested = false := by simpa using hgoes
  obtain ⟨-, hactive⟩ := h.running i run hrun hlive hgoes
  have hstopped := hC.stopped htakes run (List.mem_of_getElem? hrun) hlive hactive
  rw [hgoes] at hstopped
  cases hstopped

theorem starts_of_takes (htakes : s.closes o a = true ∨ s.replaces a = true) :
    s.starts o a = none := by
  cases a with
  | planAudited k | continued k state now => rcases htakes with h | h <;> cases h
  | _ => rfl

theorem runs_of_takes (htakes : s.closes o a = true ∨ s.replaces a = true)
    (ht : s.step o a = some t) {i : ℕ} {run' : Run} (hrun' : t.executor.runs[i]? = some run') :
    ∃ run : Run, s.executor.runs[i]? = some run ∧ run'.taskId = run.taskId ∧
      (run'.stage ≠ .done → run.stage ≠ .done) ∧
      (run'.cancelRequested = false → run.cancelRequested = false) := by
  rcases runs_step ht i run' hrun' with hold | ⟨-, hstarted⟩
  · exact hold
  · rw [starts_of_takes htakes] at hstarted
    cases hstarted

theorem running_step (h : s.Current) (hC : s.Unattended o a) (ht : s.step o a = some t) {i : ℕ}
    {run' : Run} (hrun' : t.executor.runs[i]? = some run') (hlive' : run'.stage ≠ .done)
    (hgoes' : run'.cancelRequested = false) :
    t.session.closed = false ∧ t.session.activeTask = some run'.taskId := by
  by_cases htakes : s.closes o a = true ∨ s.replaces a = true
  · obtain ⟨run, hrun, -, hlive, hgoes⟩ := runs_of_takes htakes ht hrun'
    have hstopped := stopped_of_unattended h hC htakes hrun (hlive hlive')
    rw [hgoes hgoes'] at hstopped
    cases hstopped
  · obtain ⟨hcloses, hreplaces⟩ := not_or.mp htakes
    obtain ⟨hclosed, hactive⟩ := step_session (Bool.eq_false_iff.mpr hcloses)
      (Bool.eq_false_iff.mpr hreplaces) ht
    rw [hclosed, hactive]
    rcases runs_step ht i run' hrun' with ⟨run, hrun, hid, hlive, hgoes⟩ | ⟨-, hstarted⟩
    · rw [hid]
      exact h.running i run hrun (hlive hlive') (hgoes hgoes')
    · exact hC.started _ hstarted

theorem closed_step (h : s.Current) (hC : s.Unattended o a) (ht : s.step o a = some t)
    (hclosed' : t.session.closed = true) {i : ℕ} {run' : Run}
    (hrun' : t.executor.runs[i]? = some run') (hlive' : run'.stage ≠ .done) :
    t.session.activeTask ≠ some run'.taskId := by
  cases hcloses : s.closes o a with
  | true =>
    obtain ⟨taskId, cancels, -, -, hnone⟩ := step_closes hcloses ht
    rw [hnone]
    intro hsome
    cases hsome
  | false =>
    cases hreplaces : s.replaces a with
    | true =>
      obtain ⟨hclosed, -, -, hnew⟩ := step_replaces hreplaces ht
      rcases hnew with ⟨-, -, -, -, -, -, -, hnone⟩ | ⟨k, planning, -, intent, replaced, -, hstage, -, -, hk⟩
      · rw [hnone]
        intro hsome
        cases hsome
      · rw [hk]
        intro hid
        obtain ⟨run, hrun, hsame, -⟩ := runs_of_takes (.inr hreplaces) ht hrun'
        -- The submit that has just planned its task has no run yet.
        have hsettled := h.runs i run hrun
        rw [← hsame, ← Option.some.inj hid] at hsettled
        unfold Leader.Settled at hsettled
        rw [hstage] at hsettled
        cases hsettled
    | false =>
      obtain ⟨hclosed, hactive⟩ := step_session hcloses hreplaces ht
      rw [hactive]
      rw [hclosed] at hclosed'
      rcases runs_step ht i run' hrun' with ⟨run, hrun, hid, hlive, -⟩ | ⟨-, hstarted⟩
      · rw [hid]
        exact h.closed hclosed' i run hrun (hlive hlive')
      · have hopen := (hC.started _ hstarted).1
        rw [hclosed'] at hopen
        cases hopen

theorem active_step (h : s.Current) (ht : s.step o a = some t) {taskId : ActiveTaskId}
    (hactive' : t.session.activeTask = some taskId) : t.Settled taskId := by
  cases hcloses : s.closes o a with
  | true =>
    obtain ⟨-, -, -, -, hnone⟩ := step_closes hcloses ht
    rw [hnone] at hactive'
    cases hactive'
  | false =>
    cases hreplaces : s.replaces a with
    | true =>
      obtain ⟨-, -, -, hnew⟩ := step_replaces hreplaces ht
      rcases hnew with ⟨-, -, -, -, -, -, -, hnone⟩ | ⟨k, planning, -, -, replaced, -, -, -, hstage, hk⟩
      · rw [hnone] at hactive'
        cases hactive'
      · rw [hk] at hactive'
        obtain rfl := Option.some.inj hactive'
        unfold Leader.Settled
        rw [hstage]
        rfl
    | false =>
      rw [(step_session hcloses hreplaces ht).2] at hactive'
      exact settled_step ht (h.active taskId hactive')

theorem current_step (h : s.Current) (hC : s.Unattended o a) (ht : s.step o a = some t) :
    t.Current where
  running := fun _ _ hrun hlive hgoes => running_step h hC ht hrun hlive hgoes
  closed := fun hclosed _ _ hrun hlive => closed_step h hC ht hclosed hrun hlive
  runs := by
    intro i run' hrun'
    rcases runs_step ht i run' hrun' with ⟨run, hrun, hid, -⟩ | ⟨-, hstarted⟩
    · rw [hid]
      exact settled_step ht (h.runs i run hrun)
    · exact settled_step ht (h.active _ (hC.started _ hstarted).2)
  active := fun _ hactive => active_step h ht hactive

theorem stopping_writes (s : Session) {run : Run} (now : Time)
    (hother : s.activeTask ≠ some run.taskId) : s.writeAll run now run.cancel.writes = s := by
  unfold Run.cancel
  split
  · change s.write run now (.externalStatus .failed) = s
    unfold Session.write Session.isCurrentActiveTask
    simp [hother]
  · rfl

theorem writesCurrent_step (h : s.Current) : s.WritesCurrent o a := by
  intro i run t hrunOf hrun ht hchanged
  -- The session can change only if some step of a run that has not ended is made.
  have hlive : run.stage ≠ .done ∧ (run.cancelRequested = true →
      s.session.activeTask = some run.taskId) := by
    cases a with
    | run j awaited now =>
      obtain rfl := Option.some.inj hrunOf
      obtain ⟨run', hrun', ht⟩ := Option.bind_eq_some_iff.mp ht
      obtain rfl := Option.some.inj (hrun.symm.trans hrun')
      obtain ⟨segment, hnext, rfl⟩ := Option.map_eq_some_iff.mp ht
      obtain ⟨hlive, hcases⟩ := next_cases hnext
      refine ⟨hlive, fun hstopping => ?_⟩
      rcases hcases with ⟨-, rfl⟩ | ⟨hgoes, -⟩
      · by_contra hother
        dsimp only at hchanged
        rw [stopping_writes s.session now hother] at hchanged
        simp at hchanged
      · rw [hstopping] at hgoes
        cases hgoes
    | pollUpdate j result now | progress j result now =>
      obtain rfl := Option.some.inj hrunOf
      obtain ⟨run', hrun', ht⟩ := Option.bind_eq_some_iff.mp ht
      obtain rfl := Option.some.inj (hrun.symm.trans hrun')
      obtain ⟨⟨hstage, hgoes⟩, -⟩ := Option.ite_none_right_eq_some.mp ht
      refine ⟨by simp [hstage], fun hstopping => ?_⟩
      rw [hstopping] at hgoes
      cases hgoes
    | _ => cases hrunOf
  cases hgoes : run.cancelRequested with
  | false => exact h.running i run hrun hlive.1 hgoes
  | true =>
    have hactive := hlive.2 hgoes
    refine ⟨?_, hactive⟩
    by_contra hclosed
    exact h.closed (by simpa using hclosed) i run hrun hlive.1 hactive

end Invariant

section Runs

variable {o : Orchestrator} {mode : ExecutionMode} {schedule : List LeaderAct}

theorem current_task_writes
    (hunattended : (leader o).Meets (Leader.Unattended o) (.initial mode) schedule) :
    (leader o).Meets (Leader.WritesCurrent o) (.initial mode) schedule :=
  (leader o).meets_of_invariant (fun _ _ _ h hC ht => current_step h hC ht)
    (fun _ _ h _ => writesCurrent_step h) (current_initial mode) hunattended

namespace Sample

def orchestrator : Orchestrator :=
  { endpoint := fun _ => true, resolvedEndpoint := fun _ => true
    requestHash := fun _ query _ => query }

def request (query : String) : SubmitRequest :=
  { query, mode := none, clientRequestId := none, activeTaskId := none }

def intent (intentType : IntentType) : IntentDecision :=
  { intentType, targetScenario := some "food", taskInstruction := none, responseGuide := none }

def asked (k : ℕ) (intentType : IntentType) (now : Time) : List LeaderAct :=
  [.submit (request "dinner"), .analyzed k (some (intent intentType)), .handleIntent k now]

def running : List LeaderAct :=
  asked 0 .taskNew 1 ++ [.planned 0 (some planning) 2, .planAudited 0, .run 0 (.raised "") 3]

def returned (i : ℕ) (now : Time) : LeaderAct := .run i (.returned (resultOf .awaitingInput)) now

def replaced : List LeaderAct :=
  running ++ asked 1 .taskNew 4 ++ [.run 0 (.raised "") 5, .callback 0, .cancelled 1, .terminated 1,
    .planned 1 (some planning) 6, .planAudited 1, .run 1 (.raised "") 7]

end Sample

theorem replacing_task_writes :
    ∃ s, (leader Sample.orchestrator).exec (.initial .directRpc) Sample.replaced = some s ∧
      s.WritesCurrent Sample.orchestrator (Sample.returned 1 8) ∧
      (s.step Sample.orchestrator (Sample.returned 1 8)).any (fun t =>
        t.session.userResult ≠ s.session.userResult) = true := by
  have hmeets := current_task_writes ((leader Sample.orchestrator).meets_of_check
    (fun _ _ h => of_decide_eq_true h)
    (show (leader Sample.orchestrator).check (fun s a => decide (s.Unattended Sample.orchestrator a))
      (.initial .directRpc) (Sample.replaced ++ [Sample.returned 1 8]) = true by decide +kernel))
  have hruns : ((leader Sample.orchestrator).exec (.initial .directRpc) Sample.replaced).any
      (fun s => (s.step Sample.orchestrator (Sample.returned 1 8)).any (fun t =>
        t.session.userResult ≠ s.session.userResult)) = true := by
    decide +kernel
  obtain ⟨s, hs, hwrites⟩ := (Option.any_eq_true _ _).mp hruns
  exact ⟨s, hs, ((leader Sample.orchestrator).meets_append hmeets hs).2.1, hwrites⟩

theorem others_write :
    (∃ s, (leader Sample.orchestrator).exec (.initial .directRpc)
      (Sample.running ++ [.cancel 4, .partnerNotified 0, .cancelAudited 0]) = some s ∧
        ¬ s.WritesCurrent Sample.orchestrator (Sample.returned 0 5)) ∧
    ∃ s, (leader Sample.orchestrator).exec (.initial .directRpc)
      (Sample.running ++ Sample.asked 1 .chitChat 4) = some s ∧
        ¬ s.WritesCurrent Sample.orchestrator (Sample.returned 0 5) := by
  have hwrites (schedule : List LeaderAct)
      (h : ((leader Sample.orchestrator).exec (.initial .directRpc) schedule).any (fun s =>
        s.session.activeTask = none ∧ s.executor.runs ≠ [] ∧
          (s.step Sample.orchestrator (Sample.returned 0 5)).any fun t =>
            t.session.userResult ≠ s.session.userResult) = true) :
      ∃ s, (leader Sample.orchestrator).exec (.initial .directRpc) schedule = some s ∧
        ¬ s.WritesCurrent Sample.orchestrator (Sample.returned 0 5) := by
    obtain ⟨s, hs, hends⟩ := (Option.any_eq_true _ _).mp h
    obtain ⟨hnone, hruns, hends⟩ := of_decide_eq_true hends
    obtain ⟨t, ht, hchanged⟩ := (Option.any_eq_true _ _).mp hends
    refine ⟨s, hs, fun hcurrent => ?_⟩
    have hrun : s.executor.runs[0]? = some (s.executor.runs.head hruns) := by
      rw [List.head_eq_getElem, List.getElem?_eq_getElem]
    have hactive := (hcurrent 0 _ t rfl hrun ht (.inl (of_decide_eq_true hchanged))).2
    rw [hnone] at hactive
    cases hactive
  exact ⟨hwrites _ (by decide +kernel), hwrites _ (by decide +kernel)⟩

end Runs

end Acps.Assistant
