import Acps.Assistant.Orchestrator

/-!
What one step of the leader can do: it closes the session or takes the active task away, it starts a
run, or it leaves both alone.
-/

namespace Acps.Assistant

open Slots
open Partner (Time TaskState)

namespace Leader

variable {o : Orchestrator} {s t u : Leader} {k : ℕ}

structure Own (k : ℕ) (s t : Leader) : Prop where
  others : ∀ j, j ≠ k → t.submits[j]? = s.submits[j]?
  request : (t.submits[k]?).map Submit.request = (s.submits[k]?).map Submit.request

theorem own_of_eq (h : t.submits = s.submits) : Own k s t :=
  ⟨fun j _ => congrArg (·[j]?) h, by rw [h]⟩

theorem Own.trans (h : Own k s t) (h' : Own k t u) : Own k s u :=
  ⟨fun j hj => (h'.others j hj).trans (h.others j hj), h'.request.trans h.request⟩

theorem Own.of_eq (h : Own k u t) (hsame : u.submits = s.submits) : Own k s t :=
  (own_of_eq hsame).trans h

theorem own_setStage (s : Leader) (k : ℕ) (stage : SubmitStage) : Own k s (s.setStage k stage) := by
  refine ⟨fun j hj => List.getElem?_modify_ne _ _ (Ne.symm hj), ?_⟩
  change ((s.submits.modify k _)[k]?).map _ = _
  rw [List.getElem?_modify_eq]
  cases s.submits[k]? with
  | none => rfl
  | some submit => rfl

structure Works (k : ℕ) (s t : Leader) : Prop where
  own : Own k s t
  closed : t.session.closed = s.session.closed
  activeTask : t.session.activeTask = s.session.activeTask
  executor : t.executor = s.executor
  terminated : t.terminated = s.terminated

theorem works_refl (s : Leader) : Works k s s := ⟨own_of_eq rfl, rfl, rfl, rfl, rfl⟩

theorem Works.trans (h : Works k s t) (h' : Works k t u) : Works k s u where
  own := h.own.trans h'.own
  closed := h'.closed.trans h.closed
  activeTask := h'.activeTask.trans h.activeTask
  executor := h'.executor.trans h.executor
  terminated := h'.terminated.trans h.terminated

theorem works_of_session {session : Session} (hclosed : session.closed = s.session.closed)
    (hactive : session.activeTask = s.session.activeTask) : Works k s { s with session } :=
  ⟨own_of_eq rfl, hclosed, hactive, rfl, rfl⟩

theorem works_setStage (s : Leader) (k : ℕ) (stage : SubmitStage) : Works k s (s.setStage k stage) :=
  ⟨own_setStage s k stage, rfl, rfl, rfl, rfl⟩

theorem works_record (s : Leader) (j : ℕ) (effect : SubmitEffect) : Works k s (s.record j effect) :=
  ⟨own_of_eq rfl, rfl, rfl, rfl, rfl⟩

theorem works_setUserResult (s : Leader) (type : UserResultType) (text : String) (now : Time) :
    Works k s (s.setUserResult type text now) :=
  works_of_session rfl rfl

theorem works_raise (s : Leader) (k : ℕ) : Works k s (s.raise k) := works_setStage s k .done

theorem works_finish (s : Leader) (k : ℕ) : Works k s (s.finish o k) := by
  unfold finish
  split
  · exact (works_setStage s k .done).trans (works_of_session rfl rfl)
  · exact works_setStage s k .done

theorem works_startPlanning (s : Leader) (intent : IntentDecision) (replaced : Option ActiveTaskId) :
    Works k s (s.startPlanning o k intent replaced) := by
  unfold startPlanning
  split
  · exact works_setStage s k _
  · exact works_finish s k

theorem works_terminate (s : Leader) (intent : IntentDecision) (taskId : ActiveTaskId)
    (partners : List String) : Works k s (s.terminate o k intent taskId partners) := by
  unfold terminate
  split
  · exact works_setStage s k _
  · exact works_startPlanning s intent _

theorem works_handleTaskInput (s : Leader) : Works k s (s.handleTaskInput o k) := by
  unfold handleTaskInput
  split
  · split
    · exact works_setStage s k _
    · exact works_finish s k
  · exact works_finish s k

theorem works_continuedPartner (s : Leader) (taskId : ActiveTaskId) (partnerAic : String)
    (state : Option TaskState) : Works k s (s.continuedPartner taskId partnerAic state) := by
  unfold continuedPartner
  split
  · exact works_of_session rfl rfl
  · exact works_refl s

theorem works_continuePartially (s : Leader) (taskId : ActiveTaskId) (routing : RoutingResult)
    (partners : List String) : Works k s (s.continuePartially o k taskId routing partners) := by
  unfold continuePartially
  split
  · exact (works_record s k _).trans (works_setStage _ k _)
  · split
    · exact works_setStage s k _
    · exact works_finish s k
  · exact works_raise s k

def resumes (o : Orchestrator) (s : Leader) (taskId : ActiveTaskId) (partners : List String)
    (successes : ℕ) : Bool :=
  (s.nextContinue o taskId partners matches .ok none) && decide (0 < successes) &&
    (s.executor.registered taskId).isNone && s.session.rebuildPlanningResult.isSome

theorem works_continuePartners (taskId : ActiveTaskId) (routing : RoutingResult)
    (partners : List String) (successes : ℕ) (now : Time)
    (hnone : s.resumes o taskId partners successes = false) :
    Works k s (s.continuePartners o k taskId routing partners successes now) := by
  unfold continuePartners
  split
  · exact (works_record s k _).trans (works_setStage _ k _)
  · next hend =>
    have hanswered := works_setUserResult (k := k) s .pending (continueText routing successes) now
    unfold concludeContinue
    dsimp only
    split
    · next hsuccess =>
      -- Nothing is resumed: some run is registered, or no task is active.
      have hsame : (s.setUserResult .pending (continueText routing successes) now).executor.resumeAfterContinue
          taskId (s.setUserResult .pending
            (continueText routing successes) now).session.rebuildPlanningResult = s.executor := by
        unfold resumes at hnone
        rw [hend, decide_eq_true hsuccess] at hnone
        change s.executor.resumeAfterContinue taskId s.session.rebuildPlanningResult = s.executor
        unfold BackgroundExecutor.resumeAfterContinue
        split
        · next planning hregistered hplanning =>
          rw [hregistered, hplanning] at hnone
          cases hnone
        · rfl
      rw [hsame]
      exact hanswered.trans (works_finish _ k)
    · exact hanswered.trans (works_finish _ k)
  · exact works_raise s k

end Leader

def RunsFrom (e e' : BackgroundExecutor) (started : Option ActiveTaskId) : Prop :=
  ∀ (i : ℕ) (run' : Run), e'.runs[i]? = some run' →
    (∃ run : Run, e.runs[i]? = some run ∧ run'.taskId = run.taskId ∧
      (run'.stage ≠ .done → run.stage ≠ .done) ∧
      (run'.cancelRequested = false → run.cancelRequested = false)) ∨
    i = e.runs.length ∧ started = some run'.taskId

section Executor

variable {e e' : BackgroundExecutor} {taskId : ActiveTaskId} {started : Option ActiveTaskId}

theorem runsFrom_of_eq (h : e'.runs = e.runs) : RunsFrom e e' started := by
  intro i run hrun
  rw [h] at hrun
  exact .inl ⟨run, hrun, rfl, id, id⟩

theorem runsFrom_spawn (e : BackgroundExecutor) (taskId : ActiveTaskId) (kind : RunKind)
    (planning : PlanningResult) : RunsFrom e (e.spawn taskId kind planning) (some taskId) := by
  intro i run hrun
  rcases getElem?_concat_eq_some.mp hrun with hrun | ⟨rfl, rfl⟩
  · exact .inl ⟨run, hrun, rfl, id, id⟩
  · exact .inr ⟨rfl, rfl⟩

theorem runsFrom_cancelTask (e : BackgroundExecutor) (taskId : ActiveTaskId) :
    RunsFrom e (e.cancelTask taskId) started := by
  unfold BackgroundExecutor.cancelTask
  split
  · exact runsFrom_of_eq rfl
  · intro i run hrun
    rcases getElem?_modify_eq_some.mp hrun with ⟨-, run', hrun', rfl⟩ | ⟨-, hrun⟩
    · exact .inl ⟨run', hrun', rfl, id, by simp⟩
    · exact .inl ⟨run, hrun, rfl, id, id⟩

theorem runsFrom_advance (e : BackgroundExecutor) {i : ℕ} {run : Run} {awaited : Awaited}
    {segment : Segment} (hrun : e.runs[i]? = some run) (hnext : run.next true awaited = some segment) :
    RunsFrom e (e.advance i run segment) started := by
  intro j run' hrun'
  rcases getElem?_modify_eq_some.mp hrun' with ⟨rfl, run'', hrun'', rfl⟩ | ⟨-, hrun'⟩
  · obtain rfl := Option.some.inj (hrun.symm.trans hrun'')
    exact .inl ⟨run, hrun, rfl, fun _ => (next_cases hnext).1, id⟩
  · exact .inl ⟨run', hrun', rfl, id, id⟩

theorem runsFrom_callback {i : ℕ} (h : e.callback i = some e') : RunsFrom e e' started := by
  obtain ⟨run, -, h⟩ := Option.bind_eq_some_iff.mp h
  obtain ⟨-, h⟩ := Option.ite_none_right_eq_some.mp h
  obtain rfl := Option.some.inj h
  intro j run' hrun'
  rcases getElem?_modify_eq_some.mp hrun' with ⟨-, run'', hrun'', rfl⟩ | ⟨-, hrun'⟩
  · exact .inl ⟨run'', hrun'', rfl, id, id⟩
  · exact .inl ⟨run', hrun', rfl, id, id⟩

end Executor

section Session

variable {s : Session} {run : Run} {now : Time}

theorem write_same (s : Session) (run : Run) (now : Time) (w : Write) :
    (s.write run now w).closed = s.closed ∧ (s.write run now w).activeTask = s.activeTask := by
  unfold Session.write
  split
  · exact ⟨rfl, rfl⟩
  · split <;> exact ⟨rfl, rfl⟩
  · split <;> exact ⟨rfl, rfl⟩
  · split <;> exact ⟨rfl, rfl⟩

theorem writeAll_same (s : Session) (run : Run) (now : Time) (writes : List Write) :
    (s.writeAll run now writes).closed = s.closed ∧
      (s.writeAll run now writes).activeTask = s.activeTask := by
  induction writes generalizing s with
  | nil => exact ⟨rfl, rfl⟩
  | cons w writes ih =>
    have hfirst := write_same s run now w
    have hrest := ih (s.write run now w)
    exact ⟨hrest.1.trans hfirst.1, hrest.2.trans hfirst.2⟩

end Session

def Leader.closes (o : Orchestrator) (s : Leader) : LeaderAct → Bool
  | .cancel _ => s.session.activeTask.all fun taskId =>
    (s.nextPartner o.resolvedEndpoint taskId (s.partnersOf taskId)).isNone
  | .partnerNotified j => match s.cancels[j]? with
    | some (.notification taskId rest) => (s.nextPartner o.resolvedEndpoint taskId rest).isNone
    | _ => false
  | _ => false

def Leader.replaces (s : Leader) : LeaderAct → Bool
  | .handleIntent k _ => match s.stage k with
    | some (.audit intent) => intent.intentType = .chitChat
    | _ => false
  | .planned _ planning _ => planning.isSome
  | _ => false

def Leader.starts (o : Orchestrator) (s : Leader) : LeaderAct → Option ActiveTaskId
  | .planAudited k => some k
  | .continued k state _ => match s.stage k with
    | some (.continuation taskId _ partnerAic rest successes) =>
      if (s.continuedPartner taskId partnerAic state).resumes o taskId rest
          (if state.isSome then successes + 1 else successes) then
        some taskId
      else none
    | _ => none
  | _ => none

def SubmitStage.settled : SubmitStage → Bool
  | .planAudit _ _ | .done => true
  | _ => false

def Leader.Settled (s : Leader) (k : ℕ) : Prop := (s.stage k).any SubmitStage.settled = true

section Steps

open Leader

variable {o : Orchestrator} {s t : Leader} {a : LeaderAct} {k : ℕ}

theorem Leader.stage_setStage (s : Leader) (k : ℕ) (stage : SubmitStage) :
    (s.setStage k stage).stage k = (s.stage k).map fun _ => stage := by
  change ((s.submits.modify k _)[k]?).map Submit.stage = ((s.submits[k]?).map Submit.stage).map _
  rw [List.getElem?_modify_eq]
  cases s.submits[k]? with
  | none => rfl
  | some submit => rfl

theorem Leader.stage_finish (s : Leader) (k : ℕ) :
    (s.finish o k).stage k = (s.stage k).map fun _ => SubmitStage.done := by
  unfold finish
  split
  · exact stage_setStage s k .done
  · exact stage_setStage s k .done

theorem Leader.Own.stage {j : ℕ} (h : Own k s t) (hne : j ≠ k) : t.stage j = s.stage j :=
  congrArg (Option.map Submit.stage) (h.others j hne)

theorem works_continued {state : Option TaskState} {now : Time}
    (hstarts : s.starts o (.continued k state now) = none) (ht : s.continued o k state now = some t) :
    Works k s t := by
  unfold Leader.continued at ht
  split at ht
  · next taskId routing partnerAic rest successes hstage =>
    obtain rfl := Option.some.inj ht
    have hnone : (s.continuedPartner taskId partnerAic state).resumes o taskId rest
        (if state.isSome then successes + 1 else successes) = false := by
      unfold Leader.starts at hstarts
      dsimp only at hstarts
      rw [hstage] at hstarts
      simpa using hstarts
    exact (works_continuedPartner s taskId partnerAic state).trans
      (works_continuePartners taskId routing rest _ now hnone)
  · obtain rfl := Option.some.inj ht
    exact works_continuePartially s _ _ _
  · cases ht

theorem works_routed {routing : Option RoutingResult} {now : Time}
    (ht : s.routed o k routing now = some t) : Works k s t := by
  unfold Leader.routed at ht
  split at ht
  · split at ht
    · split at ht
      · obtain rfl := Option.some.inj ht
        refine works_continuePartners _ _ _ 0 now ?_
        unfold resumes
        simp
      · obtain rfl := Option.some.inj ht
        exact works_continuePartially s _ _ _
    · obtain rfl := Option.some.inj ht
      exact works_finish s k
  · cases ht

theorem works_analyzed {intent : Option IntentDecision} (ht : s.analyzed k intent = some t) :
    Works k s t := by
  unfold analyzed at ht
  split at ht
  · cases intent with
    | some intent =>
      obtain rfl := Option.some.inj ht
      exact works_setStage s k _
    | none =>
      obtain rfl := Option.some.inj ht
      exact works_raise s k
  · cases ht

theorem works_cancelled (ht : s.cancelled o k = some t) : Works k s t := by
  unfold Leader.cancelled at ht
  split at ht
  · obtain ⟨-, ht⟩ := Option.ite_none_right_eq_some.mp ht
    obtain rfl := Option.some.inj ht
    exact works_terminate s _ _ _
  · cases ht

theorem works_terminatedPartner (ht : s.terminatedPartner o k = some t) : Works k s t := by
  unfold terminatedPartner at ht
  split at ht
  · obtain rfl := Option.some.inj ht
    exact works_terminate s _ _ _
  · cases ht

theorem works_clarified (ht : s.clarified o k = some t) : Works k s t := by
  unfold clarified at ht
  split at ht
  · obtain rfl := Option.some.inj ht
    exact works_finish s k
  · cases ht

def LeaderAct.Plain (a : LeaderAct) (k : ℕ) : Prop :=
  match a with
  | .analyzed j _ | .cancelled j | .terminated j | .routed j _ _ | .continued j _ _ | .clarified j =>
    j = k
  | _ => False

theorem works_step (hplain : a.Plain k) (hstarts : s.starts o a = none) (ht : s.step o a = some t) :
    Works k s t := by
  cases a with
  | analyzed j intent =>
    obtain rfl : j = k := hplain
    exact works_analyzed ht
  | cancelled j =>
    obtain rfl : j = k := hplain
    exact works_cancelled ht
  | terminated j =>
    obtain rfl : j = k := hplain
    exact works_terminatedPartner ht
  | routed j routing now =>
    obtain rfl : j = k := hplain
    exact works_routed ht
  | continued j state now =>
    obtain rfl : j = k := hplain
    exact works_continued hstarts ht
  | clarified j =>
    obtain rfl : j = k := hplain
    exact works_clarified ht
  | _ => exact hplain.elim

theorem resumed_of_starts {state : Option TaskState} {now : Time} {taskId : ActiveTaskId}
    (hstarts : s.starts o (.continued k state now) = some taskId)
    (ht : s.continued o k state now = some t) :
    ∃ routing partnerAic rest successes,
      s.stage k = some (.continuation taskId routing partnerAic rest successes) ∧
      ∃ planning, s.executor.registered taskId = none ∧
        Own k s t ∧ t.session.closed = s.session.closed ∧
        t.session.activeTask = s.session.activeTask ∧ t.terminated = s.terminated ∧
        t.stage k = some .done ∧ t.executor = s.executor.spawn taskId .resume planning := by
  unfold Leader.starts at hstarts
  dsimp only at hstarts
  unfold Leader.continued at ht
  split at hstarts
  · next taskId' routing partnerAic rest successes hstage =>
    obtain ⟨hresumes, hid⟩ := Option.ite_none_right_eq_some.mp hstarts
    obtain rfl := Option.some.inj hid
    rw [hstage] at ht
    obtain rfl := Option.some.inj ht
    refine ⟨routing, partnerAic, rest, successes, hstage, ?_⟩
    have hkept := works_continuedPartner (k := k) s taskId' partnerAic state
    have hstage' : (s.continuedPartner taskId' partnerAic state).stage k = some _ :=
      (congrArg (Option.map Submit.stage) (by
        unfold continuedPartner
        split <;> rfl)).trans hstage
    generalize s.continuedPartner taskId' partnerAic state = u at hresumes hkept hstage'
    generalize (if state.isSome then successes + 1 else successes) = n at hresumes
    unfold resumes at hresumes
    simp only [Bool.and_eq_true, decide_eq_true_eq, Option.isNone_iff_eq_none] at hresumes
    obtain ⟨⟨⟨hend, hsuccess⟩, hregistered⟩, hplanning⟩ := hresumes
    obtain ⟨planning, hplanning⟩ := Option.isSome_iff_exists.mp hplanning
    have hnext : u.nextContinue o taskId' rest = .ok none := by
      revert hend
      cases u.nextContinue o taskId' rest with
      | error e => simp
      | ok next =>
        cases next with
        | none => simp
        | some next => simp
    have hconclude : u.continuePartners o k taskId' routing rest n now =
        ({ u.setUserResult .pending (continueText routing n) now with
          executor := u.executor.spawn taskId' .resume planning }).finish o k := by
      unfold continuePartners
      rw [hnext]
      dsimp only
      unfold concludeContinue
      dsimp only
      rw [if_pos hsuccess]
      congr 2
      change u.executor.resumeAfterContinue taskId' u.session.rebuildPlanningResult = _
      unfold BackgroundExecutor.resumeAfterContinue
      rw [hregistered, hplanning]
    rw [hconclude]
    have hanswered : Own k u { u.setUserResult .pending (continueText routing n) now with
        executor := u.executor.spawn taskId' .resume planning } := own_of_eq rfl
    have hfinish := works_finish (o := o) { u.setUserResult .pending (continueText routing n) now with
          executor := u.executor.spawn taskId' .resume planning } k
    refine ⟨planning, hkept.executor ▸ hregistered, hkept.own.trans (hanswered.trans hfinish.own),
      hfinish.closed.trans hkept.closed, hfinish.activeTask.trans hkept.activeTask,
      hfinish.terminated.trans hkept.terminated, ?_, ?_⟩
    · rw [stage_finish]
      change (u.stage k).map _ = _
      rw [hstage']
      rfl
    · rw [hfinish.executor]
      change u.executor.spawn taskId' .resume planning = _
      rw [hkept.executor]
  · cases hstarts

theorem cancel_of_open (hcloses : s.closes o (.cancel 0) = false) :
    ∃ cancels, s.cancel o = { s with cancels } := by
  unfold Leader.closes at hcloses
  unfold Leader.cancel
  split
  · next taskId hactive =>
    rw [hactive] at hcloses
    split
    · exact ⟨_, rfl⟩
    · next hnone =>
      rw [Option.all_some, hnone] at hcloses
      cases hcloses
  · next hactive =>
    rw [hactive] at hcloses
    cases hcloses

theorem cancel_of_closes (hcloses : s.closes o (.cancel 0) = true) :
    ∃ cancels, s.cancel o = { s.close s.session.activeTask with cancels } := by
  unfold Leader.closes at hcloses
  unfold Leader.cancel
  split
  · next taskId hactive =>
    rw [hactive, Option.all_some, Option.isNone_iff_eq_none] at hcloses
    rw [hcloses, hactive]
    exact ⟨_, rfl⟩
  · next hactive =>
    rw [hactive]
    exact ⟨_, rfl⟩

theorem partnerNotified_of_open {j : ℕ} (hcloses : s.closes o (.partnerNotified j) = false)
    (ht : s.partnerNotified o j = some t) : ∃ cancels, t = { s with cancels } := by
  unfold Leader.closes at hcloses
  unfold Leader.partnerNotified at ht
  dsimp only at hcloses
  split at ht
  · next taskId rest hstage =>
    rw [hstage] at hcloses
    split at ht
    · obtain rfl := Option.some.inj ht
      exact ⟨_, rfl⟩
    · next hnone =>
      dsimp only at hcloses
      rw [hnone] at hcloses
      cases hcloses
  · cases ht

theorem partnerNotified_of_closes {j : ℕ} (hcloses : s.closes o (.partnerNotified j) = true)
    (ht : s.partnerNotified o j = some t) :
    ∃ taskId cancels, t = { s.close (some taskId) with cancels } := by
  unfold Leader.closes at hcloses
  unfold Leader.partnerNotified at ht
  dsimp only at hcloses
  split at ht
  · next taskId rest hstage =>
    rw [hstage] at hcloses
    split at ht
    · next hsome =>
      dsimp only at hcloses
      rw [hsome] at hcloses
      cases hcloses
    · obtain rfl := Option.some.inj ht
      exact ⟨taskId, _, rfl⟩
  · cases ht

theorem step_closes (hcloses : s.closes o a = true) (ht : s.step o a = some t) :
    ∃ (taskId : Option ActiveTaskId) (cancels : List CancelStage),
      t = { s.close taskId with cancels } ∧ t.session.closed = true ∧
        t.session.activeTask = none := by
  cases a with
  | cancel now =>
    obtain rfl := Option.some.inj ht
    obtain ⟨cancels, hcancel⟩ := cancel_of_closes (o := o) (s := s) hcloses
    refine ⟨s.session.activeTask, cancels, hcancel, ?_, ?_⟩
    · rw [hcancel]
      rfl
    · rw [hcancel]
      change (if s.session.activeTask.isSome then none else s.session.activeTask) = none
      cases s.session.activeTask <;> rfl
  | partnerNotified j =>
    obtain ⟨taskId, cancels, rfl⟩ := partnerNotified_of_closes hcloses ht
    exact ⟨some taskId, cancels, rfl, rfl, rfl⟩
  | _ => cases hcloses

theorem works_handleTaskNew (s : Leader) (k : ℕ) (intent : IntentDecision) :
    Own k s (s.handleTaskNew o k intent) ∧
      (s.handleTaskNew o k intent).session.closed = s.session.closed ∧
      (s.handleTaskNew o k intent).session.activeTask = s.session.activeTask := by
  unfold handleTaskNew
  dsimp only
  split
  · exact ⟨(own_setStage _ k _).of_eq rfl, rfl, rfl⟩
  · have hplanning := works_startPlanning (o := o) (k := k) { s with session := { s.session with
      expertScenario := (intent.targetScenario.filter (· ≠ "")).or s.session.expertScenario } } intent
        none
    exact ⟨hplanning.own.of_eq rfl, hplanning.closed, hplanning.activeTask⟩

theorem step_session (hcloses : s.closes o a = false) (hreplaces : s.replaces a = false)
    (ht : s.step o a = some t) :
    t.session.closed = s.session.closed ∧ t.session.activeTask = s.session.activeTask := by
  cases a with
  | submit r =>
    obtain rfl := Option.some.inj ht
    unfold Leader.submit
    split <;> exact ⟨rfl, rfl⟩
  | handleIntent k now =>
    change s.audited o k now = some t at ht
    unfold Leader.audited at ht
    unfold Leader.replaces at hreplaces
    dsimp only at hreplaces
    split at ht
    · next intent hstage =>
      obtain rfl := Option.some.inj ht
      rw [hstage] at hreplaces
      have hrecord := works_record (k := k) s k (.handled intent.intentType)
      unfold Leader.handleIntent
      dsimp only
      split
      · next hintent =>
        simp [hintent] at hreplaces
      · have hnew := works_handleTaskNew (o := o) (s.record k (.handled intent.intentType)) k intent
        exact ⟨hnew.2.1.trans hrecord.closed, hnew.2.2.trans hrecord.activeTask⟩
      · have hinput := works_handleTaskInput (o := o) (k := k) (s.record k (.handled intent.intentType))
        exact ⟨hinput.closed.trans hrecord.closed, hinput.activeTask.trans hrecord.activeTask⟩
    · cases ht
  | planned k planning now =>
    cases planning with
    | some planning => cases hreplaces
    | none =>
      change s.planned o k none now = some t at ht
      unfold Leader.planned at ht
      split at ht
      · obtain rfl := Option.some.inj ht
        exact ⟨(works_finish s k).closed, (works_finish s k).activeTask⟩
      · cases ht
  | planAudited k =>
    change s.planAudited o k = some t at ht
    unfold Leader.planAudited at ht
    split at ht
    · next planning replaced hstage =>
      obtain rfl := Option.some.inj ht
      unfold Leader.submitTask
      dsimp only
      exact ⟨(works_finish _ k).closed, (works_finish _ k).activeTask⟩
    · cases ht
  | continued k state now =>
    cases hstarts : s.starts o (.continued k state now) with
    | none =>
      have hworks := works_continued hstarts ht
      exact ⟨hworks.closed, hworks.activeTask⟩
    | some taskId =>
      obtain ⟨-, -, -, -, -, -, -, -, hclosed, hactive, -⟩ := resumed_of_starts hstarts ht
      exact ⟨hclosed, hactive⟩
  | analyzed k intent =>
    exact ⟨(works_analyzed ht).closed, (works_analyzed ht).activeTask⟩
  | cancelled k => exact ⟨(works_cancelled ht).closed, (works_cancelled ht).activeTask⟩
  | terminated k =>
    exact ⟨(works_terminatedPartner ht).closed, (works_terminatedPartner ht).activeTask⟩
  | routed k routing now => exact ⟨(works_routed ht).closed, (works_routed ht).activeTask⟩
  | clarified k => exact ⟨(works_clarified ht).closed, (works_clarified ht).activeTask⟩
  | cancel now =>
    obtain rfl := Option.some.inj ht
    obtain ⟨cancels, hcancel⟩ := cancel_of_open (o := o) (s := s) hcloses
    rw [hcancel]
    exact ⟨rfl, rfl⟩
  | partnerNotified j =>
    obtain ⟨cancels, rfl⟩ := partnerNotified_of_open hcloses ht
    exact ⟨rfl, rfl⟩
  | cancelAudited j =>
    change s.cancelAudited j = some t at ht
    unfold Leader.cancelAudited at ht
    split at ht
    · obtain rfl := Option.some.inj ht
      exact ⟨rfl, rfl⟩
    · cases ht
  | run i awaited now =>
    obtain ⟨run, -, ht⟩ := Option.bind_eq_some_iff.mp ht
    obtain ⟨segment, -, rfl⟩ := Option.map_eq_some_iff.mp ht
    exact writeAll_same s.session run now segment.writes
  | pollUpdate i result now | progress i result now =>
    obtain ⟨run, -, ht⟩ := Option.bind_eq_some_iff.mp ht
    obtain ⟨-, ht⟩ := Option.ite_none_right_eq_some.mp ht
    obtain rfl := Option.some.inj ht
    exact write_same s.session run now _
  | callback i =>
    obtain ⟨executor, -, rfl⟩ := Option.map_eq_some_iff.mp ht
    exact ⟨rfl, rfl⟩

theorem step_replaces (hreplaces : s.replaces a = true) (ht : s.step o a = some t) :
    t.session.closed = s.session.closed ∧ t.executor = s.executor ∧ t.terminated = s.terminated ∧
      ((∃ k now intent, a = .handleIntent k now ∧ s.stage k = some (.audit intent) ∧ Own k s t ∧
        t.stage k = some .done ∧ t.session.activeTask = none) ∨
      ∃ k planning now intent replaced, a = .planned k (some planning) now ∧
        s.stage k = some (.planning intent replaced) ∧ Own k s t ∧
        t.stage k = some (.planAudit planning replaced) ∧ t.session.activeTask = some k) := by
  cases a with
  | handleIntent k now =>
    change s.audited o k now = some t at ht
    unfold Leader.audited at ht
    unfold Leader.replaces at hreplaces
    dsimp only at hreplaces
    split at ht
    · next intent hstage =>
      obtain rfl := Option.some.inj ht
      rw [hstage] at hreplaces
      have hintent : intent.intentType = .chitChat := of_decide_eq_true hreplaces
      unfold Leader.handleIntent
      rw [hintent]
      dsimp only
      unfold handleChitChat
      dsimp only
      refine ⟨(works_finish _ k).closed, (works_finish _ k).executor, (works_finish _ k).terminated,
        .inl ⟨k, now, intent, rfl, hstage, ?_, ?_, (works_finish _ k).activeTask⟩⟩
      · exact (works_finish _ k).own.of_eq rfl
      · rw [stage_finish]
        change (s.stage k).map _ = _
        rw [hstage]
        rfl
    · cases ht
  | planned k planning now =>
    obtain ⟨planning, rfl⟩ := Option.isSome_iff_exists.mp hreplaces
    change s.planned o k (some planning) now = some t at ht
    unfold Leader.planned at ht
    split at ht
    · next intent replaced submit hstage hsubmit =>
      obtain rfl := Option.some.inj ht
      refine ⟨rfl, rfl, rfl, .inr ⟨k, planning, now, intent, replaced, rfl, hstage, ?_, ?_, rfl⟩⟩
      · exact (own_setStage _ k _).of_eq rfl
      · unfold Leader.installTask
        dsimp only
        rw [stage_setStage]
        change (s.stage k).map _ = _
        rw [hstage]
        rfl
    · cases ht
  | _ => cases hreplaces

def LeaderAct.submitOf : LeaderAct → Option ℕ
  | .analyzed k _ | .handleIntent k _ | .cancelled k | .terminated k | .planned k _ _
  | .planAudited k | .routed k _ _ | .continued k _ _ | .clarified k => some k
  | _ => none

theorem own_step (hsubmit : a.submitOf = some k) (ht : s.step o a = some t) : Own k s t := by
  cases a with
  | analyzed j intent =>
    obtain rfl := Option.some.inj hsubmit
    exact (works_analyzed ht).own
  | handleIntent j now =>
    obtain rfl := Option.some.inj hsubmit
    change s.audited o j now = some t at ht
    unfold Leader.audited at ht
    split at ht
    · next intent hstage =>
      obtain rfl := Option.some.inj ht
      unfold Leader.handleIntent
      dsimp only
      split
      · unfold handleChitChat
        dsimp only
        exact (works_finish _ j).own.of_eq rfl
      · exact (works_handleTaskNew _ j intent).1.of_eq rfl
      · exact (works_handleTaskInput _).own.of_eq rfl
    · cases ht
  | planned j planning now =>
    obtain rfl := Option.some.inj hsubmit
    change s.planned o j planning now = some t at ht
    unfold Leader.planned at ht
    split at ht
    · split at ht
      · obtain rfl := Option.some.inj ht
        exact (own_setStage _ j _).of_eq rfl
      · obtain rfl := Option.some.inj ht
        exact (works_finish s j).own
    · cases ht
  | planAudited j =>
    obtain rfl := Option.some.inj hsubmit
    change s.planAudited o j = some t at ht
    unfold Leader.planAudited at ht
    split at ht
    · obtain rfl := Option.some.inj ht
      exact (works_finish _ j).own.of_eq rfl
    · cases ht
  | continued j state now =>
    obtain rfl := Option.some.inj hsubmit
    cases hstarts : s.starts o (.continued j state now) with
    | none => exact (works_continued hstarts ht).own
    | some taskId =>
      obtain ⟨-, -, -, -, -, -, -, hown, -⟩ := resumed_of_starts hstarts ht
      exact hown
  | cancelled j =>
    obtain rfl := Option.some.inj hsubmit
    exact (works_cancelled ht).own
  | terminated j =>
    obtain rfl := Option.some.inj hsubmit
    exact (works_terminatedPartner ht).own
  | routed j routing now =>
    obtain rfl := Option.some.inj hsubmit
    exact (works_routed ht).own
  | clarified j =>
    obtain rfl := Option.some.inj hsubmit
    exact (works_clarified ht).own
  | _ => cases hsubmit

theorem submits_step (hsubmit : a.submitOf = none) (ht : s.step o a = some t) :
    t.submits = s.submits ∨ ∃ r, a = .submit r ∧ s.validate o r = .ok () ∧
      t.submits = s.submits ++ [{ request := r, stage := .analysis }] := by
  cases a with
  | submit r =>
    obtain rfl := Option.some.inj ht
    unfold Leader.submit
    split
    · next hvalid => exact .inr ⟨r, rfl, hvalid, rfl⟩
    · exact .inl rfl
  | cancel now =>
    obtain rfl := Option.some.inj ht
    left
    unfold Leader.cancel
    split
    · split <;> rfl
    · rfl
  | partnerNotified j =>
    change s.partnerNotified o j = some t at ht
    unfold Leader.partnerNotified at ht
    split at ht
    · split at ht
      · obtain rfl := Option.some.inj ht
        exact .inl rfl
      · obtain rfl := Option.some.inj ht
        exact .inl rfl
    · cases ht
  | cancelAudited j =>
    change s.cancelAudited j = some t at ht
    unfold Leader.cancelAudited at ht
    split at ht
    · obtain rfl := Option.some.inj ht
      exact .inl rfl
    · cases ht
  | run i awaited now =>
    obtain ⟨run, -, ht⟩ := Option.bind_eq_some_iff.mp ht
    obtain ⟨segment, -, rfl⟩ := Option.map_eq_some_iff.mp ht
    exact .inl rfl
  | pollUpdate i result now | progress i result now =>
    obtain ⟨run, -, ht⟩ := Option.bind_eq_some_iff.mp ht
    obtain ⟨-, ht⟩ := Option.ite_none_right_eq_some.mp ht
    obtain rfl := Option.some.inj ht
    exact .inl rfl
  | callback i =>
    obtain ⟨executor, -, rfl⟩ := Option.map_eq_some_iff.mp ht
    exact .inl rfl
  | _ => cases hsubmit

theorem submits_added (hsubmit : a.submitOf = none) (ht : s.step o a = some t) :
    ∃ added : List Submit, t.submits = s.submits ++ added ∧
      ∀ submit ∈ added, submit.stage = .analysis := by
  rcases submits_step hsubmit ht with hsame | ⟨r, -, -, hadded⟩
  · exact ⟨[], by rw [hsame, List.append_nil], by simp⟩
  · exact ⟨_, hadded, by simp⟩

theorem stage_step (hsubmit : a.submitOf = some k) (ht : s.step o a = some t)
    (hsettled : s.Settled k) : a = .planAudited k ∧ t.stage k = some .done := by
  unfold Leader.Settled at hsettled
  cases a with
  | planAudited j =>
    obtain rfl := Option.some.inj hsubmit
    change s.planAudited o j = some t at ht
    unfold Leader.planAudited at ht
    split at ht
    · next planning replaced hstage =>
      obtain rfl := Option.some.inj ht
      refine ⟨rfl, ?_⟩
      unfold Leader.submitTask
      dsimp only
      rw [stage_finish]
      change (s.stage j).map _ = _
      rw [hstage]
      rfl
    · cases ht
  | planned j planning now =>
    obtain rfl := Option.some.inj hsubmit
    change s.planned o j planning now = some t at ht
    unfold Leader.planned at ht
    split at ht
    · next hstage _ =>
      rw [hstage] at hsettled
      cases hsettled
    · cases ht
  | analyzed j intent =>
    obtain rfl := Option.some.inj hsubmit
    change s.analyzed j intent = some t at ht
    unfold Leader.analyzed at ht
    split at ht
    · next hstage =>
      rw [hstage] at hsettled
      cases hsettled
    · cases ht
  | handleIntent j now =>
    obtain rfl := Option.some.inj hsubmit
    change s.audited o j now = some t at ht
    unfold Leader.audited at ht
    split at ht
    · next hstage =>
      rw [hstage] at hsettled
      cases hsettled
    · cases ht
  | cancelled j =>
    obtain rfl := Option.some.inj hsubmit
    change s.cancelled o j = some t at ht
    unfold Leader.cancelled at ht
    split at ht
    · next hstage =>
      rw [hstage] at hsettled
      cases hsettled
    · cases ht
  | terminated j =>
    obtain rfl := Option.some.inj hsubmit
    change s.terminatedPartner o j = some t at ht
    unfold Leader.terminatedPartner at ht
    split at ht
    · next hstage =>
      rw [hstage] at hsettled
      cases hsettled
    · cases ht
  | routed j routing now =>
    obtain rfl := Option.some.inj hsubmit
    change s.routed o j routing now = some t at ht
    unfold Leader.routed at ht
    split at ht
    · next hstage =>
      rw [hstage] at hsettled
      cases hsettled
    · cases ht
  | continued j state now =>
    obtain rfl := Option.some.inj hsubmit
    change s.continued o j state now = some t at ht
    unfold Leader.continued at ht
    split at ht
    · next hstage =>
      rw [hstage] at hsettled
      cases hsettled
    · next hstage =>
      rw [hstage] at hsettled
      cases hsettled
    · cases ht
  | clarified j =>
    obtain rfl := Option.some.inj hsubmit
    change s.clarified o j = some t at ht
    unfold Leader.clarified at ht
    split at ht
    · next hstage =>
      rw [hstage] at hsettled
      cases hsettled
    · cases ht
  | _ => cases hsubmit

theorem settled_step {j : ℕ} (ht : s.step o a = some t) (hsettled : s.Settled j) : t.Settled j := by
  cases hsubmit : a.submitOf with
  | none =>
    obtain ⟨added, hadded, -⟩ := submits_added hsubmit ht
    unfold Leader.Settled Leader.stage at hsettled ⊢
    obtain ⟨stage, hstage, hsettled⟩ := (Option.any_eq_true _ _).mp hsettled
    obtain ⟨submit, hsubmit, rfl⟩ := Option.map_eq_some_iff.mp hstage
    have hlt : j < s.submits.length := (List.getElem?_eq_some_iff.mp hsubmit).1
    rw [hadded, List.getElem?_append_left hlt, hsubmit]
    exact hsettled
  | some k =>
    by_cases hk : j = k
    · subst hk
      obtain ⟨-, hdone⟩ := stage_step hsubmit ht hsettled
      unfold Leader.Settled
      rw [hdone]
      rfl
    · unfold Leader.Settled
      rw [(own_step hsubmit ht).stage hk]
      exact hsettled

theorem Leader.Works.runsFrom (h : Works k s t) (started : Option ActiveTaskId) :
    RunsFrom s.executor t.executor started :=
  runsFrom_of_eq (congrArg BackgroundExecutor.runs h.executor)

theorem runsFrom_handleTaskNew (s : Leader) (k : ℕ) (intent : IntentDecision) :
    RunsFrom s.executor (s.handleTaskNew o k intent).executor none := by
  unfold Leader.handleTaskNew
  dsimp only
  split
  · exact runsFrom_cancelTask s.executor _
  · rw [(works_startPlanning (k := k) _ intent none).executor]
    exact runsFrom_of_eq rfl

theorem runs_step (ht : s.step o a = some t) : RunsFrom s.executor t.executor (s.starts o a) := by
  cases a with
  | handleIntent k now =>
    change s.audited o k now = some t at ht
    unfold Leader.audited at ht
    split at ht
    · next intent hstage =>
      obtain rfl := Option.some.inj ht
      unfold Leader.handleIntent
      dsimp only
      split
      · unfold handleChitChat
        dsimp only
        exact (works_finish _ k).runsFrom _
      · exact runsFrom_handleTaskNew _ k intent
      · exact (works_handleTaskInput _).runsFrom _
    · cases ht
  | planned k planning now =>
    change s.planned o k planning now = some t at ht
    unfold Leader.planned at ht
    split at ht
    · split at ht
      · obtain rfl := Option.some.inj ht
        exact runsFrom_of_eq rfl
      · obtain rfl := Option.some.inj ht
        exact (works_finish s k).runsFrom _
    · cases ht
  | planAudited k =>
    change s.planAudited o k = some t at ht
    unfold Leader.planAudited at ht
    split at ht
    · next planning replaced hstage =>
      obtain rfl := Option.some.inj ht
      unfold Leader.submitTask
      dsimp only
      rw [(works_finish _ k).executor]
      exact runsFrom_spawn (s.executor.createTask k) k .execute planning
    · cases ht
  | continued k state now =>
    cases hstarts : s.starts o (.continued k state now) with
    | none => exact (works_continued hstarts ht).runsFrom _
    | some taskId =>
      obtain ⟨-, -, -, -, -, planning, -, -, -, -, -, -, hexecutor⟩ := resumed_of_starts hstarts ht
      rw [hexecutor]
      exact runsFrom_spawn s.executor taskId .resume planning
  | analyzed k intent =>
    exact (works_analyzed ht).runsFrom _
  | cancelled k => exact (works_cancelled ht).runsFrom _
  | terminated k =>
    exact (works_terminatedPartner ht).runsFrom _
  | routed k routing now =>
    exact (works_routed ht).runsFrom _
  | clarified k => exact (works_clarified ht).runsFrom _
  | submit r =>
    obtain rfl := Option.some.inj ht
    unfold Leader.submit
    split
    · exact runsFrom_of_eq rfl
    · exact runsFrom_of_eq rfl
  | cancel now =>
    obtain rfl := Option.some.inj ht
    unfold Leader.cancel
    split
    · split
      · exact runsFrom_of_eq rfl
      · exact runsFrom_of_eq rfl
    · exact runsFrom_of_eq rfl
  | partnerNotified j =>
    change s.partnerNotified o j = some t at ht
    unfold Leader.partnerNotified at ht
    split at ht
    · split at ht
      · obtain rfl := Option.some.inj ht
        exact runsFrom_of_eq rfl
      · obtain rfl := Option.some.inj ht
        exact runsFrom_of_eq rfl
    · cases ht
  | cancelAudited j =>
    change s.cancelAudited j = some t at ht
    unfold Leader.cancelAudited at ht
    split at ht
    · obtain rfl := Option.some.inj ht
      exact runsFrom_of_eq rfl
    · cases ht
  | run i awaited now =>
    obtain ⟨run, hrun, ht⟩ := Option.bind_eq_some_iff.mp ht
    obtain ⟨segment, hnext, rfl⟩ := Option.map_eq_some_iff.mp ht
    exact runsFrom_advance s.executor hrun hnext
  | pollUpdate i result now | progress i result now =>
    obtain ⟨run, -, ht⟩ := Option.bind_eq_some_iff.mp ht
    obtain ⟨-, ht⟩ := Option.ite_none_right_eq_some.mp ht
    obtain rfl := Option.some.inj ht
    exact runsFrom_of_eq rfl
  | callback i =>
    obtain ⟨executor, hcallback, rfl⟩ := Option.map_eq_some_iff.mp ht
    exact runsFrom_callback hcallback

end Steps

end Acps.Assistant
