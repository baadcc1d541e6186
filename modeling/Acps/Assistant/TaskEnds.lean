import Acps.Assistant.BackgroundExecutor

/-!
When the executions of tasks end and stay ended, and a cancellation reaches the run of its task.
-/

namespace Acps.Assistant

open Slots Transition

/-- A run that has not ended is the one that is registered for its task, and a task whose runs have
ended and been called back is neither pending nor running. -/
structure Accounted (s : BackgroundExecutor) : Prop where
  registered : ∀ (i : ℕ) (run : Run), s.runs[i]? = some run → run.stage ≠ .done →
    s.runningTasks run.taskId = some i
  settled : ∀ (taskId : ActiveTaskId) (e : TaskExecution), s.executions taskId = some e →
    (∀ run ∈ s.runs, run.taskId = taskId → run.stage = .done ∧ run.calledBack = true) →
      e.isPendingOrRunning = false

def StaysEnded (aggregator : Bool) (s : BackgroundExecutor) (a : ExecutorAct) : Prop :=
  ∀ t, s.step aggregator a = some t → ∀ (taskId : ActiveTaskId) (e : TaskExecution),
    s.executions taskId = some e → e.isTerminal = true →
      ∃ e', t.executions taskId = some e' ∧ e'.status = e.status

/-- A cancelled run that marks nothing leaves nothing to mark, a run that makes its first step finds
its task not ended, and no run is live for a task that is submitted, or whose done-callback runs. -/
def Orderly (s : BackgroundExecutor) : ExecutorAct → Prop
  | .submitTask taskId _ => ∀ run ∈ s.runs, run.taskId = taskId → run.stage = .done
  | .run i _ => ∀ run ∈ s.runs[i]?, run.stage ≠ .done → ∀ e ∈ s.executions run.taskId,
    if run.cancelRequested then
      run.kind = .execute ∧ run.stage ≠ .created ∨ e.isPendingOrRunning = false
    else run.stage = .created → e.isTerminal = false
  | .callback i => ∀ run ∈ s.runs[i]?, ∀ other ∈ s.runs, other.taskId = run.taskId →
    other.stage = .done
  | .resumeAfterContinue _ _ | .cancelTask _ | .cancelTaskAndWait _ => True

namespace BackgroundExecutor

structure Inv (s : BackgroundExecutor) : Prop where
  registered : ∀ (i : ℕ) (run : Run), s.runs[i]? = some run → run.stage ≠ .done →
    s.runningTasks run.taskId = some i
  pending : ∀ (taskId : ActiveTaskId) (e : TaskExecution), s.executions taskId = some e →
    e.isPendingOrRunning = true → ∃ (i : ℕ) (run : Run), s.runs[i]? = some run ∧
      run.taskId = taskId ∧ run.stage ≠ .done
  running : ∀ (i : ℕ) (run : Run), s.runs[i]? = some run → run.stage ≠ .done →
    run.stage ≠ .created → ∀ e, s.executions run.taskId = some e → e.status = .running

section Operations

variable {aggregator : Bool} {s t : BackgroundExecutor} {taskId : ActiveTaskId} {i : ℕ}

theorem inv_initial : initial.Inv where
  registered := (fun i run hrun => by cases hrun)
  pending := (fun taskId e he => by cases he)
  running := (fun i run hrun => by cases hrun)

theorem Inv.accounted (h : s.Inv) : Accounted s where
  registered := h.registered
  settled := by
    intro taskId e he hdone
    by_contra hpending
    obtain ⟨i, run, hrun, htask, hlive⟩ := h.pending taskId e he (by simpa using hpending)
    exact hlive (hdone run (List.mem_of_getElem? hrun) htask).1

theorem Inv.unique (h : s.Inv) {j : ℕ} {run other : Run} (hi : s.runs[i]? = some run)
    (hj : s.runs[j]? = some other) (hlive : run.stage ≠ .done) (hlive' : other.stage ≠ .done)
    (htask : other.taskId = run.taskId) : j = i := by
  have hregistered := h.registered i run hi hlive
  have hregistered' := h.registered j other hj hlive'
  rw [htask, hregistered] at hregistered'
  exact (Option.some.inj hregistered').symm

theorem Inv.spawn (h : s.Inv) (hdone : ∀ run ∈ s.runs, run.taskId = taskId → run.stage = .done)
    (kind : RunKind) (planning : PlanningResult) : (s.spawn taskId kind planning).Inv := by
  have hold : ∀ (i : ℕ) (run : Run), s.runs[i]? = some run → run.stage ≠ .done →
      run.taskId ≠ taskId :=
    fun i run hrun hlive htask => hlive (hdone run (List.mem_of_getElem? hrun) htask)
  refine ⟨fun i run hrun hlive => ?_, fun id e he hpending => ?_, fun i run hrun hlive hstarted => ?_⟩
  · change Function.update s.runningTasks taskId (some s.runs.length) run.taskId = some i
    rcases getElem?_concat_eq_some.mp hrun with hrun | ⟨rfl, rfl⟩
    · rw [Function.update_of_ne (hold i run hrun hlive)]
      exact h.registered i run hrun hlive
    · exact Function.update_self ..
  · obtain ⟨i, run, hrun, htask, hlive⟩ := h.pending id e he hpending
    exact ⟨i, run, getElem?_concat_eq_some.mpr (.inl hrun), htask, hlive⟩
  · rcases getElem?_concat_eq_some.mp hrun with hrun | ⟨-, rfl⟩
    · exact h.running i run hrun hlive hstarted
    · exact absurd rfl hstarted

theorem Inv.submitTask (h : s.Inv)
    (hdone : ∀ run ∈ s.runs, run.taskId = taskId → run.stage = .done) (planning : PlanningResult) :
    (s.submitTask taskId planning).Inv := by
  refine ⟨fun i run hrun hlive => ?_, fun id e he hpending => ?_, fun i run hrun hlive hstarted => ?_⟩
  · exact (h.spawn hdone .execute planning).registered i run hrun hlive
  · change Function.update s.executions taskId _ id = some e at he
    by_cases hid : id = taskId
    · subst hid
      exact ⟨s.runs.length, _, getElem?_concat_eq_some.mpr (.inr ⟨rfl, rfl⟩), rfl, by simp⟩
    · rw [Function.update_of_ne hid] at he
      exact (h.spawn hdone .execute planning).pending id e he hpending
  · intro e he
    change Function.update s.executions taskId _ run.taskId = some e at he
    rcases getElem?_concat_eq_some.mp hrun with hrun | ⟨-, rfl⟩
    · have hother : run.taskId ≠ taskId :=
        fun htask => hlive (hdone run (List.mem_of_getElem? hrun) htask)
      rw [Function.update_of_ne hother] at he
      exact h.running i run hrun hlive hstarted e he
    · exact absurd rfl hstarted

theorem registered_eq_none (h : s.Inv) (hnone : s.registered taskId = none) :
    ∀ run ∈ s.runs, run.taskId = taskId → run.stage = .done := by
  intro run hrun htask
  by_contra hlive
  obtain ⟨i, hi⟩ := List.getElem?_of_mem hrun
  have hregistered := h.registered i run hi hlive
  rw [htask] at hregistered
  unfold registered at hnone
  rw [hregistered, Option.filter_some, hi] at hnone
  simp [Run.live, hlive] at hnone

theorem Inv.resumeAfterContinue (h : s.Inv) (planning : Option PlanningResult) :
    (s.resumeAfterContinue taskId planning).Inv := by
  unfold BackgroundExecutor.resumeAfterContinue
  split
  · next planning hnone => exact h.spawn (registered_eq_none h hnone) .resume planning
  · exact h

theorem Inv.cancelTask (h : s.Inv) : (s.cancelTask taskId).Inv := by
  unfold BackgroundExecutor.cancelTask
  split
  · exact h
  · next i hi =>
    have hback : ∀ (j : ℕ) (run : Run),
        (s.runs.modify i fun run => { run with cancelRequested := true })[j]? = some run →
        ∃ run', s.runs[j]? = some run' ∧ run.taskId = run'.taskId ∧ run.stage = run'.stage := by
      intro j run hrun
      rcases getElem?_modify_eq_some.mp hrun with ⟨-, run', hrun', rfl⟩ | ⟨-, hrun⟩
      · exact ⟨run', hrun', rfl, rfl⟩
      · exact ⟨run, hrun, rfl, rfl⟩
    refine ⟨fun j run hrun hlive => ?_, fun id e he hpending => ?_, fun j run hrun hlive hstarted => ?_⟩
    · obtain ⟨run', hrun', htask, hstage⟩ := hback j run hrun
      rw [htask]
      exact h.registered j run' hrun' (hstage ▸ hlive)
    · obtain ⟨j, run, hrun, htask, hlive⟩ := h.pending id e he hpending
      by_cases hj : i = j
      · exact ⟨j, _, getElem?_modify_eq_some.mpr (.inl ⟨hj, run, hrun, rfl⟩), htask, hlive⟩
      · exact ⟨j, run, getElem?_modify_eq_some.mpr (.inr ⟨hj, hrun⟩), htask, hlive⟩
    · obtain ⟨run', hrun', htask, hstage⟩ := hback j run hrun
      rw [htask]
      exact h.running j run' hrun' (hstage ▸ hlive) (hstage ▸ hstarted)

theorem Inv.callback (h : s.Inv)
    (hdone : ∀ run ∈ s.runs[i]?, ∀ other ∈ s.runs, other.taskId = run.taskId → other.stage = .done)
    (ht : s.callback i = some t) : t.Inv := by
  obtain ⟨run, hrun, ht⟩ := Option.bind_eq_some_iff.mp ht
  obtain ⟨⟨hstage, -⟩, ht⟩ := Option.ite_none_right_eq_some.mp ht
  obtain rfl := Option.some.inj ht
  have hother : ∀ (j : ℕ) (other : Run), s.runs[j]? = some other → other.stage ≠ .done →
      other.taskId ≠ run.taskId :=
    fun j other hj hlive htask => hlive (hdone run hrun other (List.mem_of_getElem? hj) htask)
  have hback : ∀ (j : ℕ) (other : Run),
      (s.runs.modify i fun run => { run with calledBack := true })[j]? = some other →
      other.stage ≠ .done → s.runs[j]? = some other := by
    intro j other hj hlive
    rcases getElem?_modify_eq_some.mp hj with ⟨rfl, run', hrun', rfl⟩ | ⟨-, hj⟩
    · obtain rfl := Option.some.inj (hrun.symm.trans hrun')
      exact absurd hstage hlive
    · exact hj
  refine ⟨fun j other hj hlive => ?_, fun id e he hpending => ?_, fun j other hj hlive hstarted => ?_⟩
  · have hj' := hback j other hj hlive
    change Function.update s.runningTasks run.taskId none other.taskId = some j
    rw [Function.update_of_ne (hother j other hj' hlive)]
    exact h.registered j other hj' hlive
  · obtain ⟨j, other, hj, htask, hlive⟩ := h.pending id e he hpending
    have hne : i ≠ j := by
      rintro rfl
      obtain rfl := Option.some.inj (hrun.symm.trans hj)
      exact hlive hstage
    exact ⟨j, other, getElem?_modify_eq_some.mpr (.inr ⟨hne, hj⟩), htask, hlive⟩
  · exact h.running j other (hback j other hj hlive) hlive hstarted

theorem executions_applyMark_of_ne {id : ActiveTaskId} (hne : id ≠ taskId) (mark : Option Mark) :
    (s.applyMark taskId mark).executions id = s.executions id := by
  cases mark with
  | none => rfl
  | some m => exact Function.update_of_ne hne _ _

theorem executions_applyMark_self (m : Mark) :
    (s.applyMark taskId (some m)).executions taskId =
      (s.executions taskId).map fun e => e.mark m :=
  Function.update_self ..

theorem executions_advance_of_ne {id : ActiveTaskId} {run : Run} {segment : Segment}
    (hne : id ≠ run.taskId) : (s.advance i run segment).executions id = s.executions id :=
  executions_applyMark_of_ne hne segment.mark

theorem runningTasks_advance (s : BackgroundExecutor) (i : ℕ) (run : Run) (segment : Segment) :
    (s.advance i run segment).runningTasks = s.runningTasks := by
  unfold advance applyMark
  split <;> rfl

theorem getElem?_advance {run : Run} {segment : Segment} {j : ℕ} {other : Run}
    (hrun : s.runs[i]? = some run)
    (hj : (s.advance i run segment).runs[j]? = some other) :
    i = j ∧ other = { run with stage := segment.stage } ∨ i ≠ j ∧ s.runs[j]? = some other := by
  rcases getElem?_modify_eq_some.mp hj with ⟨rfl, run', hrun', rfl⟩ | hj
  · obtain rfl := Option.some.inj (hrun.symm.trans hrun')
    exact .inl ⟨rfl, rfl⟩
  · exact .inr hj

theorem Inv.goOn (h : s.Inv) {run : Run} {segment : Segment} (hrun : s.runs[i]? = some run)
    (hlive : run.stage ≠ .done) (hstage : segment.stage ≠ .done)
    (hrunning : ∀ e, (s.advance i run segment).executions run.taskId = some e →
      e.status = .running) : (s.advance i run segment).Inv := by
  refine ⟨fun j other hj hlive' => ?_, fun id e he hpending => ?_, fun j other hj hlive' hstarted => ?_⟩
  · rcases getElem?_advance hrun hj with ⟨rfl, rfl⟩ | ⟨-, hj⟩
    · rw [runningTasks_advance]
      exact h.registered i run hrun hlive
    · rw [runningTasks_advance]
      exact h.registered j other hj hlive'
  · by_cases hid : id = run.taskId
    · exact ⟨i, _, getElem?_modify_eq_some.mpr (.inl ⟨rfl, run, hrun, rfl⟩), hid.symm, hstage⟩
    · rw [executions_advance_of_ne hid] at he
      obtain ⟨j, other, hj, htask, hlive'⟩ := h.pending id e he hpending
      have hne : i ≠ j := by
        rintro rfl
        obtain rfl := Option.some.inj (hrun.symm.trans hj)
        exact hid htask.symm
      exact ⟨j, other, getElem?_modify_eq_some.mpr (.inr ⟨hne, hj⟩), htask, hlive'⟩
  · rcases getElem?_advance hrun hj with ⟨rfl, rfl⟩ | ⟨hne, hj⟩
    · exact hrunning
    · have htask : other.taskId ≠ run.taskId :=
        fun htask => hne (h.unique hrun hj hlive hlive' htask).symm
      rw [executions_advance_of_ne htask]
      exact h.running j other hj hlive' hstarted

theorem Inv.ended (h : s.Inv) {run : Run} {segment : Segment} (hrun : s.runs[i]? = some run)
    (hlive : run.stage ≠ .done) (hstage : segment.stage = .done)
    (hsettled : ∀ e, (s.advance i run segment).executions run.taskId = some e →
      e.isPendingOrRunning = false) : (s.advance i run segment).Inv := by
  refine ⟨fun j other hj hlive' => ?_, fun id e he hpending => ?_, fun j other hj hlive' hstarted => ?_⟩
  · rcases getElem?_advance hrun hj with ⟨rfl, rfl⟩ | ⟨-, hj⟩
    · exact absurd hstage hlive'
    · rw [runningTasks_advance]
      exact h.registered j other hj hlive'
  · by_cases hid : id = run.taskId
    · subst hid
      rw [hsettled e he] at hpending
      cases hpending
    · rw [executions_advance_of_ne hid] at he
      obtain ⟨j, other, hj, htask, hlive'⟩ := h.pending id e he hpending
      have hne : i ≠ j := by
        rintro rfl
        obtain rfl := Option.some.inj (hrun.symm.trans hj)
        exact hid htask.symm
      exact ⟨j, other, getElem?_modify_eq_some.mpr (.inr ⟨hne, hj⟩), htask, hlive'⟩
  · rcases getElem?_advance hrun hj with ⟨rfl, rfl⟩ | ⟨hne, hj⟩
    · exact absurd hstage hlive'
    · have htask : other.taskId ≠ run.taskId :=
        fun htask => hne (h.unique hrun hj hlive hlive' htask).symm
      rw [executions_advance_of_ne htask]
      exact h.running j other hj hlive' hstarted

theorem executions_advance_self {run : Run} {segment : Segment} {m : Mark} {e : TaskExecution}
    (hmark : segment.mark = some m)
    (he : (s.advance i run segment).executions run.taskId = some e) :
    ∃ e', s.executions run.taskId = some e' ∧ e = e'.mark m := by
  change (s.applyMark run.taskId segment.mark).executions run.taskId = some e at he
  rw [hmark, executions_applyMark_self] at he
  obtain ⟨e', he', rfl⟩ := Option.map_eq_some_iff.mp he
  exact ⟨e', he', rfl⟩

theorem executions_advance_none {run : Run} {segment : Segment} (hmark : segment.mark = none) :
    (s.advance i run segment).executions = s.executions := by
  change (s.applyMark run.taskId segment.mark).executions = s.executions
  rw [hmark]
  rfl

theorem cancel_cases (run : Run) :
    run.cancel.stage = .done ∧ (run.kind = .execute ∧ run.stage ≠ .created ∧
      run.cancel.mark = some .cancelled ∨
      ¬(run.kind = .execute ∧ run.stage ≠ .created) ∧ run.cancel.mark = none) := by
  unfold Run.cancel
  split
  · next hcatches => exact ⟨rfl, .inl ⟨hcatches.1, hcatches.2, rfl⟩⟩
  · next hcatches => exact ⟨rfl, .inr ⟨hcatches, rfl⟩⟩

theorem Inv.runStep (h : s.Inv) {awaited : Awaited} (horderly : Orderly s (.run i awaited))
    (ht : s.runStep aggregator i awaited = some t) :
    t.Inv ∧ ∀ (id : ActiveTaskId) (e : TaskExecution), s.executions id = some e →
      e.isTerminal = true → ∃ e', t.executions id = some e' ∧ e'.status = e.status := by
  obtain ⟨run, hrun, ht⟩ := Option.bind_eq_some_iff.mp ht
  obtain ⟨segment, hsegment, rfl⟩ := Option.map_eq_some_iff.mp ht
  obtain ⟨hlive, hcases⟩ := next_cases hsegment
  have hcondition := horderly run hrun hlive
  -- A run that has started is the only one of its task, which is running then.
  have hrunning : run.stage ≠ .created → ∀ e, s.executions run.taskId = some e →
      e.status = .running := h.running i run hrun hlive
  have hended : ∀ {e : TaskExecution}, e.status = .running → e.isTerminal = false := by
    intro e he
    simp [TaskExecution.isTerminal, he]
  have hstays : (∀ e, s.executions run.taskId = some e → e.isTerminal = true →
      ∃ e', (s.advance i run segment).executions run.taskId = some e' ∧ e'.status = e.status) →
      ∀ (id : ActiveTaskId) (e : TaskExecution), s.executions id = some e → e.isTerminal = true →
        ∃ e', (s.advance i run segment).executions id = some e' ∧ e'.status = e.status := by
    intro hown id e he hterminal
    by_cases hid : id = run.taskId
    · subst hid
      exact hown e he hterminal
    · exact ⟨e, (executions_advance_of_ne hid).trans he, rfl⟩
  rcases hcases with ⟨hcancel, rfl⟩ | ⟨hcancel, ⟨hcreated, rfl⟩ | ⟨hstarted, hclosing⟩⟩
  · obtain ⟨hstage, ⟨-, hstarted, hmark⟩ | ⟨hcatches, hmark⟩⟩ := cancel_cases run
    · refine ⟨h.ended hrun hlive hstage fun e he => ?_, hstays fun e he hterminal => ?_⟩
      · obtain ⟨e', -, rfl⟩ := executions_advance_self hmark he
        have hpending := isPendingOrRunning_mark e' .cancelled
        simpa using hpending
      · rw [hended (hrunning hstarted e he)] at hterminal
        cases hterminal
    · refine ⟨h.ended hrun hlive hstage fun e he => ?_, hstays fun e he hterminal => ⟨e, ?_, rfl⟩⟩
      · rw [executions_advance_none hmark] at he
        have hleft := hcondition e he
        rw [if_pos hcancel] at hleft
        exact hleft.resolve_left hcatches
      · rw [executions_advance_none hmark]
        exact he
  · refine ⟨h.goOn hrun hlive (by simp [Run.start]) fun e he => ?_,
      hstays fun e he hterminal => ?_⟩
    · obtain ⟨e', -, rfl⟩ := executions_advance_self (m := .running) rfl he
      rfl
    · have hopen := hcondition e he
      rw [hcancel] at hopen
      have hopen := hopen hcreated
      rw [hterminal] at hopen
      cases hopen
  · rcases hclosing with ⟨hmark, hstage⟩ | ⟨hstage, m, hmark, hm⟩
    · refine ⟨h.goOn hrun hlive hstage fun e he => ?_, hstays fun e he hterminal => ⟨e, ?_, rfl⟩⟩
      · rw [executions_advance_none hmark] at he
        exact hrunning hstarted e he
      · rw [executions_advance_none hmark]
        exact he
    · refine ⟨h.ended hrun hlive hstage fun e he => ?_, hstays fun e he hterminal => ?_⟩
      · obtain ⟨e', -, rfl⟩ := executions_advance_self hmark he
        have hpending := (isPendingOrRunning_mark e' m).not.mpr hm
        simpa using hpending
      · rw [hended (hrunning hstarted e he)] at hterminal
        cases hterminal

end Operations

section Steps

variable {aggregator : Bool} {s t : BackgroundExecutor} {a : ExecutorAct}

theorem inv_step (h : s.Inv) (horderly : Orderly s a) (ht : s.step aggregator a = some t) :
    t.Inv := by
  cases a with
  | submitTask taskId planning =>
    obtain rfl := Option.some.inj ht
    exact h.submitTask horderly planning
  | resumeAfterContinue taskId planning =>
    obtain rfl := Option.some.inj ht
    exact h.resumeAfterContinue planning
  | cancelTask taskId | cancelTaskAndWait taskId =>
    obtain rfl := Option.some.inj ht
    exact h.cancelTask
  | run i awaited => exact (h.runStep horderly ht).1
  | callback i => exact h.callback horderly ht

theorem executions_cancelTask (s : BackgroundExecutor) (taskId : ActiveTaskId) :
    (s.cancelTask taskId).executions = s.executions := by
  unfold cancelTask
  split <;> rfl

theorem executions_resumeAfterContinue (s : BackgroundExecutor) (taskId : ActiveTaskId)
    (planning : Option PlanningResult) :
    (s.resumeAfterContinue taskId planning).executions = s.executions := by
  unfold resumeAfterContinue
  split <;> rfl

theorem staysEnded_step (h : s.Inv) (horderly : Orderly s a) : StaysEnded aggregator s a := by
  intro t ht taskId e he hterminal
  cases a with
  | submitTask id planning =>
    obtain rfl := Option.some.inj ht
    refine ⟨e, ?_, rfl⟩
    change Function.update s.executions id _ taskId = some e
    by_cases hid : taskId = id
    · subst hid
      rw [Function.update_self, he]
      rfl
    · rw [Function.update_of_ne hid]
      exact he
  | resumeAfterContinue id planning =>
    obtain rfl := Option.some.inj ht
    exact ⟨e, (congrFun (executions_resumeAfterContinue s id planning) taskId).trans he, rfl⟩
  | cancelTask id | cancelTaskAndWait id =>
    obtain rfl := Option.some.inj ht
    exact ⟨e, (congrFun (executions_cancelTask s id) taskId).trans he, rfl⟩
  | run i awaited => exact (h.runStep horderly ht).2 taskId e he hterminal
  | callback i =>
    obtain ⟨run, -, ht⟩ := Option.bind_eq_some_iff.mp ht
    obtain ⟨-, ht⟩ := Option.ite_none_right_eq_some.mp ht
    obtain rfl := Option.some.inj ht
    exact ⟨e, he, rfl⟩

end Steps

end BackgroundExecutor

section Runs

open BackgroundExecutor

variable {aggregator : Bool} {schedule : List ExecutorAct} {s : BackgroundExecutor}

instance (s : BackgroundExecutor) (a : ExecutorAct) : Decidable (Orderly s a) := by
  cases a with
  | submitTask taskId planning =>
    exact inferInstanceAs (Decidable (∀ run ∈ s.runs, run.taskId = taskId → run.stage = .done))
  | run i awaited =>
    exact inferInstanceAs (Decidable (∀ run ∈ s.runs[i]?, run.stage ≠ .done →
      ∀ e ∈ s.executions run.taskId,
        if run.cancelRequested then
          run.kind = .execute ∧ run.stage ≠ .created ∨ e.isPendingOrRunning = false
        else run.stage = .created → e.isTerminal = false))
  | callback i =>
    exact inferInstanceAs (Decidable (∀ run ∈ s.runs[i]?, ∀ other ∈ s.runs,
      other.taskId = run.taskId → other.stage = .done))
  | resumeAfterContinue taskId planning | cancelTask taskId | cancelTaskAndWait taskId =>
    exact instDecidableTrue

theorem cancelTask_reaches (h : s.Inv) {i : ℕ} {run : Run} (hrun : s.runs[i]? = some run)
    (hlive : run.stage ≠ .done) :
    (s.cancelTask run.taskId).runs[i]? = some { run with cancelRequested := true } := by
  have hregistered : s.registered run.taskId = some i := by
    unfold registered
    rw [h.registered i run hrun hlive, Option.filter_some, hrun]
    simp [Run.live, hlive]
  unfold cancelTask
  rw [hregistered]
  exact getElem?_modify_eq_some.mpr (.inl ⟨rfl, run, hrun, rfl⟩)

theorem executions_end (hrun : (backgroundExecutor aggregator).exec initial schedule = some s)
    (horderly : (backgroundExecutor aggregator).Meets Orderly initial schedule) :
    Accounted s ∧
    (∀ (i j : ℕ) (run other : Run), s.runs[i]? = some run → s.runs[j]? = some other →
      run.stage ≠ .done → other.stage ≠ .done → other.taskId = run.taskId → j = i) ∧
    (∀ (i : ℕ) (run : Run), s.runs[i]? = some run → run.stage ≠ .done →
      (s.cancelTask run.taskId).runs[i]? = some { run with cancelRequested := true }) ∧
    (backgroundExecutor aggregator).Meets (StaysEnded aggregator) initial schedule := by
  have h : s.Inv := (backgroundExecutor aggregator).exec_invariant
    (fun _ _ _ h horderly ht => inv_step h horderly ht) inv_initial horderly hrun
  refine ⟨h.accounted, fun i j run other hi hj => h.unique hi hj,
    fun i run hi hlive => cancelTask_reaches h hi hlive, ?_⟩
  exact (backgroundExecutor aggregator).meets_of_invariant
    (fun _ _ _ h horderly ht => inv_step h horderly ht)
    (fun _ _ h horderly => staysEnded_step h horderly) inv_initial horderly

namespace Sample

def planning : PlanningResult := { selectedPartners := [("food", ["p"])] }

def resultOf (phase : ExecutionPhase) : ExecutionResult :=
  { phase, partnerResults := [], awaitingInputPartners := [], questionsForUser := [] }

def submitted : List ExecutorAct := [.submitTask 0 planning, .run 0 (.raised "")]

def awaiting : List ExecutorAct :=
  submitted ++ [.run 0 (.returned (resultOf .awaitingInput))]

def completedTask : List ExecutorAct :=
  awaiting ++ [.callback 0, .resumeAfterContinue 0 (some planning), .run 1 (.raised ""),
    .run 1 (.returned (resultOf .completed)), .run 1 (.aggregated "done"), .callback 1]

end Sample

theorem completed_executions_end :
    ∃ s, (backgroundExecutor true).exec initial Sample.completedTask = some s ∧ Accounted s ∧
      (s.executions 0).map TaskExecution.status = some .completed := by
  have hends : ((backgroundExecutor true).exec initial Sample.completedTask).any
      (fun s => (s.executions 0).map TaskExecution.status = some .completed) = true := by
    decide +kernel
  obtain ⟨s, hs, hend⟩ := (Option.any_eq_true _ _).mp hends
  refine ⟨s, hs, (executions_end hs ?_).1, of_decide_eq_true hend⟩
  exact (backgroundExecutor true).meets_of_check (fun _ _ h => of_decide_eq_true h)
    (show (backgroundExecutor true).check (fun s a => decide (Orderly s a)) initial
      Sample.completedTask = true by decide +kernel)

theorem executions_do_not_end :
    (∃ s, (backgroundExecutor true).exec initial [.submitTask 0 Sample.planning, .cancelTask 0,
      .run 0 (.raised ""), .callback 0] = some s ∧ ¬ Accounted s) ∧
    (∃ s, (backgroundExecutor true).exec initial (Sample.awaiting ++ [.callback 0,
      .resumeAfterContinue 0 (some Sample.planning), .run 1 (.raised ""), .cancelTask 0,
      .run 1 (.raised ""), .callback 1]) = some s ∧ ¬ Accounted s) ∧
    (∃ s, (backgroundExecutor true).exec initial (Sample.awaiting ++
      [.resumeAfterContinue 0 (some Sample.planning), .callback 0]) = some s ∧ ¬ Accounted s) ∧
    ∃ s, (backgroundExecutor true).exec initial (Sample.submitted ++ [.run 0 (.raised "timeout"),
      .callback 0, .resumeAfterContinue 0 (some Sample.planning)]) = some s ∧
        ¬ StaysEnded true s (.run 1 (.raised "")) := by
  have hunsettled (schedule : List ExecutorAct)
      (h : ((backgroundExecutor true).exec initial schedule).any (fun s =>
        (s.executions 0).any TaskExecution.isPendingOrRunning &&
          s.runs.all fun run => run.stage = .done ∧ run.calledBack = true) = true) :
      ∃ s, (backgroundExecutor true).exec initial schedule = some s ∧ ¬ Accounted s := by
    obtain ⟨s, hs, hends⟩ := (Option.any_eq_true _ _).mp h
    obtain ⟨hpending, hdone⟩ := Bool.and_eq_true_iff.mp hends
    obtain ⟨e, he, hpending⟩ := (Option.any_eq_true _ _).mp hpending
    refine ⟨s, hs, fun haccounted => ?_⟩
    have hsettled := haccounted.settled 0 e he fun run hrun _ =>
      of_decide_eq_true (List.all_eq_true.mp hdone run hrun)
    rw [hpending] at hsettled
    cases hsettled
  refine ⟨hunsettled _ (by decide +kernel), hunsettled _ (by decide +kernel), ?_, ?_⟩
  · have hlost : ((backgroundExecutor true).exec initial (Sample.awaiting ++
        [.resumeAfterContinue 0 (some Sample.planning), .callback 0])).any (fun s =>
          (s.runs[1]?).any fun run => run.stage ≠ .done ∧ s.runningTasks run.taskId = none) =
        true := by
      decide +kernel
    obtain ⟨s, hs, hends⟩ := (Option.any_eq_true _ _).mp hlost
    obtain ⟨run, hrun, hends⟩ := (Option.any_eq_true _ _).mp hends
    obtain ⟨hlive, hnone⟩ := of_decide_eq_true hends
    refine ⟨s, hs, fun haccounted => ?_⟩
    have hregistered := haccounted.registered 1 run hrun hlive
    rw [hnone] at hregistered
    cases hregistered
  · have hagain : ((backgroundExecutor true).exec initial (Sample.submitted ++
        [.run 0 (.raised "timeout"), .callback 0,
          .resumeAfterContinue 0 (some Sample.planning)])).any (fun s =>
          (s.executions 0).map TaskExecution.status = some .failed ∧
            (s.step true (.run 1 (.raised ""))).any fun t =>
              (t.executions 0).map TaskExecution.status = some .running) = true := by
      decide +kernel
    obtain ⟨s, hs, hends⟩ := (Option.any_eq_true _ _).mp hagain
    obtain ⟨hfailed, hends⟩ := of_decide_eq_true hends
    obtain ⟨t, ht, hends⟩ := (Option.any_eq_true _ _).mp hends
    obtain ⟨e, he, hstatus⟩ := Option.map_eq_some_iff.mp hfailed
    refine ⟨s, hs, fun hstays => ?_⟩
    obtain ⟨e', he', hsame⟩ := hstays t ht 0 e he (by simp [TaskExecution.isTerminal, hstatus])
    have hrunning := of_decide_eq_true hends
    rw [he', Option.map_some, hsame, hstatus] at hrunning
    cases hrunning

end Runs

end Acps.Assistant
