import Acps.Partner.Invariant

/-!
The states of a task follow the rules of the runner in every run in which no stream starts a task
that is there.
-/

namespace Acps.Partner

open Slots Transition

section Stages

variable {agent : Agent} {s : World} {i : ℕ} {taskId : String} {r : ℕ} {state : TaskState}

theorem Held.produced (h : Held s (some i) taskId r .working) (output : String) (now : Time) :
    Inv (produced i taskId now r output s) := by
  have hmodified := h.modify r (f := fun c => { c with
    task := { c.task with products := some [{ id := now, dataItems := [output] }] } })
    fun _ => ⟨rfl, rfl, rfl, rfl⟩
  exact hmodified.finish (by decide) _ now

theorem Held.runProductionStage (h : Held s (some i) taskId r .working) (entry : Entry) (now : Time) :
    Inv (runProductionStage agent i taskId now r entry s) := by
  obtain ⟨c, hc, -⟩ := h.context
  unfold Partner.runProductionStage
  split
  · rw [hc]
    have hmodified := h.modify r (f := fun c' => { c' with
      requirements := some (normalizeRequirements agent (c.requirements.getD [])).requirements })
      fun _ => ⟨rfl, rfl, rfl, rfl⟩
    cases hskills : (normalizeRequirements agent (c.requirements.getD [])).skills with
    | nil =>
      simp only [hskills]
      exact hmodified.produced _ now
    | cons skillId rest =>
      simp only [hskills]
      split
      · exact hmodified.setStage ⟨rfl, rfl⟩
      · exact hmodified.setStage ⟨rfl, rfl⟩
  · cases entry with
    | reached => exact h.setStage ⟨rfl, rfl⟩
    | raised e => exact h.fail (.inr rfl) e now
    | escaped e => exact h.fail (.inr rfl) e now

theorem Held.runAnalysisStage (h : Held s (some i) taskId r .working) (nested : Bool) (entry : Entry)
    (now : Time) : Inv (runAnalysisStage i taskId now nested entry s) := by
  unfold Partner.runAnalysisStage
  rw [h.tasks]
  cases entry with
  | reached => exact h.setStage ⟨rfl, rfl⟩
  | raised e => exact h.fail (.inr rfl) e now
  | escaped e =>
    cases nested with
    | true => exact h.fail (.inr rfl) e now
    | false => exact h.setStage trivial

theorem Held.decisionMade (h : Held s (some i) taskId r .accepted) (d : Decision) (entry : Entry)
    (now : Time) : Inv (decisionMade agent i taskId now d entry s) := by
  unfold Partner.decisionMade
  split
  · cases textDataItem agent d.reason with
    | ok reason => exact h.finish (by decide) [reason] now
    | error e => exact h.fail (.inl rfl) e now
  · exact (h.update (by decide) (fun hnone => by cases hnone) [] now).runAnalysisStage true entry now

theorem Held.analysisMade (h : Held s (some i) taskId r .working) (content : String) (entry : Entry)
    (now : Time) : Inv (analysisMade agent i taskId now r content entry s) := by
  obtain ⟨c, hc, -⟩ := h.context
  unfold Partner.analysisMade
  rw [hc]
  have hmodified := h.modify r (f := fun c' => { c' with
    requirements := (analyse agent c.requirements content).1 }) fun _ => ⟨rfl, rfl, rfl, rfl⟩
  cases hverdict : (analyse agent c.requirements content).2 with
  | error e =>
    simp only [hverdict]
    exact hmodified.fail (.inr rfl) e now
  | ok v =>
    cases v with
    | awaitingInput text =>
      simp only [hverdict]
      exact hmodified.finish (by decide) [text] now
    | complete =>
      simp only [hverdict]
      exact hmodified.runProductionStage entry now

theorem Held.skillMade (h : Held s (some i) taskId r .working) (skillId : String)
    (rest outputs : List String) (awaited : Awaited) (now : Time) :
    Inv (skillMade agent i taskId now r skillId rest outputs awaited s) := by
  unfold Partner.skillMade
  cases awaitedSkill agent skillId awaited with
  | error e => exact h.fail (.inr rfl) e now
  | ok output =>
    cases rest with
    | nil => exact h.produced _ now
    | cons next rest => exact h.setStage ⟨rfl, rfl⟩

theorem Inv.resume (h : Inv s) {c : Coroutine} (hc : s.futures[i]? = some c)
    (hlive : c.stage ≠ .done) (hcancel : c.cancelRequested = false) (res : Resumption) :
    Inv (resume agent i res c s) := by
  obtain ⟨r, state, hheld, hmatch⟩ := h.held hc hlive hcancel
  unfold Partner.resume
  cases hstage : c.stage with
  | decisionCreated command =>
    rw [hstage] at hmatch
    obtain rfl := hmatch
    cases hentry : res.entry with
    | reached => exact hheld.setStage rfl
    | raised e => exact hheld.fail (.inl rfl) e res.now
    | escaped e => exact hheld.setStage trivial
  | decisionLlm command =>
    rw [hstage] at hmatch
    obtain rfl := hmatch
    cases res.awaited with
    | returned content =>
      cases hdecision : decisionOf agent content with
      | ok d =>
        simp only [hdecision]
        exact hheld.setStage rfl
      | error e =>
        simp only [hdecision]
        exact hheld.fail (.inl rfl) e res.now
    | failed e => exact hheld.fail (.inl rfl) e res.now
    | raised e => exact hheld.fail (.inl rfl) e res.now
  | decisionAudit command d =>
    rw [hstage] at hmatch
    obtain rfl := hmatch
    exact hheld.decisionMade d res.entry res.now
  | analysisCreated =>
    rw [hstage] at hmatch
    obtain rfl := hmatch
    exact hheld.runAnalysisStage false res.entry res.now
  | analysisLlm ctx =>
    rw [hstage] at hmatch
    obtain ⟨rfl, rfl⟩ := hmatch
    cases res.awaited with
    | returned content => exact hheld.analysisMade content res.production res.now
    | failed e => exact hheld.fail (.inr rfl) e res.now
    | raised e => exact hheld.fail (.inr rfl) e res.now
  | skill ctx skillId rest outputs =>
    rw [hstage] at hmatch
    obtain ⟨rfl, rfl⟩ := hmatch
    exact hheld.skillMade skillId rest outputs res.awaited res.now
  | gather ctx skills =>
    rw [hstage] at hmatch
    obtain ⟨rfl, rfl⟩ := hmatch
    cases res.results with
    | some results => exact hheld.produced _ res.now
    | none => exact hheld.produced _ res.now
  | productionLlm ctx =>
    rw [hstage] at hmatch
    obtain ⟨rfl, rfl⟩ := hmatch
    cases res.awaited with
    | returned content => exact hheld.produced content res.now
    | failed e => exact hheld.fail (.inr rfl) e res.now
    | raised e => exact hheld.fail (.inr rfl) e res.now
  | done => exact absurd hstage hlive

theorem Inv.cancelled (h : Inv s) {c : Coroutine} (hc : s.futures[i]? = some c)
    (hlive : c.stage ≠ .done) : Inv (s.setStage i .done) := by
  have ht := h.task c.taskId
  obtain ⟨r, ctx, hr, hctx, hrun, hmatch⟩ := ht.live i c hc rfl hlive
  obtain ⟨d, hd, hid, hrec, howns⟩ := ht.stored r hr
  obtain rfl := Option.some.inj (hctx.symm.trans hd)
  have hquiet : ∀ (j : ℕ) (f : Coroutine), (s.setStage i .done).futures[j]? = some f →
      f.taskId = c.taskId → f.stage = .done := by
    intro j f hf hfid
    rcases getElem?_modify_eq_some.mp hf with ⟨-, f', -, rfl⟩ | ⟨hij, hf'⟩
    · rfl
    · by_contra hlive'
      exact hij (Option.some.inj (hrun.symm.trans (ht.alone hr hctx hf' hfid hlive').1))
  refine ⟨h.current, h.waiting, fun id => ?_⟩
  by_cases hne : id = c.taskId
  · subst hne
    refine ⟨fun hnone => ?_, fun r' hr' => ?_, fun j f hf hfid hflive => ?_,
      fun w hw hw' => ?_⟩
    · cases hr.symm.trans hnone
    · obtain rfl := Option.some.inj (hr.symm.trans hr')
      exact ⟨ctx, hctx, hid, hrec, howns.modify _ fun _ => rfl⟩
    · exact absurd (hquiet j f hf hfid) hflive
    · refine .inr ⟨fun d hd => ?_, hquiet⟩
      have hd' : s.context c.taskId = some d := hd
      rw [World.context, hr, Option.bind_some, hctx] at hd'
      obtain rfl := Option.some.inj hd'
      rcases hmatch.state hlive with hstate | hstate <;> rw [hstate] <;> decide
  · apply (h.task id).of_same (same_setStage ?_)
    intro f hf
    obtain rfl := Option.some.inj (hc.symm.trans hf)
    exact Ne.symm hne

theorem Inv.resumeStep (h : Inv s) {t : World} {res : Resumption}
    (ht : resumeStep agent i res s = some t) : Inv t := by
  unfold Partner.resumeStep at ht
  cases hc : s.futures[i]? with
  | none =>
    rw [hc] at ht
    cases ht
  | some c =>
    simp only [hc] at ht
    by_cases hdone : c.stage = .done
    · rw [if_pos hdone] at ht
      cases ht
    · rw [if_neg hdone] at ht
      by_cases hcancel : c.cancelRequested = true
      · rw [if_pos hcancel] at ht
        obtain rfl := Option.some.inj ht
        exact h.cancelled hc hdone
      · rw [if_neg hcancel] at ht
        obtain rfl := Option.some.inj ht
        exact h.resume hc hdone (Bool.not_eq_true _ ▸ hcancel) res

end Stages

section Commands

variable {agent : Agent} {s : World} {command : TaskCommand} {now : Time} {r : ℕ}

theorem running_eq_false {j : ℕ} (h : s.running j = false) {f : Coroutine}
    (hf : s.futures[j]? = some f) : f.stage = .done := by
  unfold World.running at h
  rw [hf] at h
  simpa using h

theorem Inv.quiet (h : Inv s) {c : TaskContext} (hc : s.heap[r]? = some c)
    (hnone : c.runningFuture.filter s.running = none) (j : ℕ) (f : Coroutine)
    (hf : s.futures[j]? = some f) (hid : f.taskId = c.task.taskId) : f.stage = .done := by
  by_contra hlive
  have hr := h.current r c hc
  obtain ⟨hrun, -⟩ := (h.task c.task.taskId).alone hr hc hf hid hlive
  rw [hrun, Option.filter_some] at hnone
  split at hnone
  · cases hnone
  · next hstopped => exact hlive (running_eq_false (by simpa using hstopped) hf)

theorem Inv.quiet_of_awaiting (h : Inv s) {c : TaskContext} (hc : s.heap[r]? = some c)
    (hstate : c.task.state = .awaitingInput ∨ c.task.state = .awaitingCompletion) (j : ℕ)
    (f : Coroutine) (hf : s.futures[j]? = some f) (hid : f.taskId = c.task.taskId) :
    f.stage = .done := by
  by_contra hlive
  obtain ⟨-, hmatch⟩ :=
    (h.task c.task.taskId).alone (h.current r c hc) hc hf hid hlive
  rcases hmatch.state hlive with h' | h' <;> rcases hstate with h'' | h'' <;>
    cases h'.symm.trans h''

theorem Held.finishCancel {taskId : String} {state : TaskState}
    (h : Held s none taskId r state) : Inv (finishCancel now r s) := by
  obtain ⟨c, hc, rfl, -, rfl, -⟩ := h.context
  unfold Partner.finishCancel
  simp only [hc]
  split
  · exact h.release
  · next hterminal =>
    apply (h.update ?_ (fun _ => by decide) [] now).release
    revert hterminal
    cases c.task.state <;> decide

theorem Inv.requestCancel (h : Inv s) {c : TaskContext} (hc : s.heap[r]? = some c) {j : ℕ}
    (hrun : c.runningFuture = some j) (hrunning : s.running j = true) :
    Inv { requestCancel j s with
      cancellations := s.cancellations ++ [{ ctx := r, future := j }] } := by
  have hr := h.current r c hc
  have ht := h.task c.task.taskId
  obtain ⟨d, hd, -, hrec, howns⟩ := ht.stored r hr
  obtain rfl := Option.some.inj (hc.symm.trans hd)
  obtain ⟨f, hf, hfid⟩ := howns j hrun
  have hlive : f.stage ≠ .done := by
    unfold World.running at hrunning
    rw [hf] at hrunning
    simpa using hrunning
  have hrequested : ∃ g : Coroutine, (Partner.requestCancel j s).futures[j]? = some g ∧
      g.taskId = c.task.taskId ∧ g.stage ≠ .done ∧ g.cancelRequested = true :=
    ⟨_, getElem?_modify_eq_some.mpr (.inl ⟨rfl, f, hf, rfl⟩), hfid, hlive, rfl⟩
  refine ⟨h.current, ?_, fun id => ?_⟩
  · intro w hw
    rcases List.mem_append.mp hw with hw | hw
    · exact h.waiting w hw
    · obtain rfl := List.mem_singleton.mp hw
      exact (List.getElem?_eq_some_iff.mp hc).1
  by_cases hne : id = c.task.taskId
  · subst hne
    refine ⟨ht.absent, fun r' hr' => ?_, fun k g hg hgid hglive => ?_, fun w hw hw' => ?_⟩
    · obtain rfl := Option.some.inj (hr.symm.trans hr')
      exact ⟨c, hc, rfl, hrec, howns.modify _ fun _ => rfl⟩
    · rcases getElem?_modify_eq_some.mp hg with ⟨rfl, g', hg', rfl⟩ | ⟨-, hg'⟩
      · exact ht.live j g' hg' hgid hglive
      · exact ht.live k g hg' hgid hglive
    · rcases List.mem_append.mp hw with hw | hw
      · rcases ht.pending w hw hw' with ⟨g, hg, hgid, hglive, -⟩ | hhalted
        · obtain rfl := Option.some.inj
            ((ht.alone hr hc hf hfid hlive).1.symm.trans (ht.alone hr hc hg hgid hglive).1)
          exact .inl hrequested
        · exact absurd (hhalted.quiet j f hf hfid) hlive
      · obtain rfl := List.mem_singleton.mp hw
        exact .inl hrequested
  · have hfuture : ∀ g : Coroutine, s.futures[j]? = some g → g.taskId ≠ id := by
      intro g hg
      obtain rfl := Option.some.inj (hf.symm.trans hg)
      rw [hfid]
      exact Ne.symm hne
    have hsame : Same s (Partner.requestCancel j s) id := same_modifyFuture hfuture fun _ => rfl
    refine (h.task id).of_same { hsame with cancellations := fun w hw hw' => ?_ }
    rcases List.mem_append.mp hw with hw | hw
    · exact hw
    · obtain rfl := List.mem_singleton.mp hw
      obtain ⟨d, hd, hdid, -⟩ := (h.task id).stored r hw'
      obtain rfl := Option.some.inj (hc.symm.trans hd)
      exact absurd hdid.symm hne

theorem Held.forget {taskId : String} {state : TaskState} (h : Held s none taskId r state)
    (cancellations : List Cancellation) (hsub : ∀ w ∈ cancellations, w ∈ s.cancellations) :
    Held { s.modify r fun c => { c with runningFuture := none } with cancellations } none taskId r
      state := by
  obtain ⟨c, hc, rfl, -, rfl, hrec, -⟩ := h.context
  refine ⟨current_modify h.current fun _ => rfl,
    fun w hw => waiting_modify h.waiting w (hsub w hw), fun id hne => ?_, h.tasks,
    ⟨_, getElem?_modify_eq_some.mpr (.inl ⟨rfl, c, hc, rfl⟩), rfl, fun j hj => (by cases hj), rfl,
      ⟨hrec.follows, hrec.last, hrec.history⟩, fun j hj => (by cases hj)⟩, h.alone,
    fun w hw => h.pending w (hsub w hw)⟩
  have hsame := same_modify s r id (f := fun c => { c with runningFuture := none })
    fun _ hr => absurd hr (h.ne hne)
  exact (h.other id hne).of_same { hsame with cancellations := fun w hw _ => hsub w hw }

theorem Inv.addCommand (h : Inv s) (taskId : String) : Inv (addCommand taskId command s) := by
  unfold Partner.addCommand
  cases hr : s.tasks taskId with
  | none => exact h
  | some r =>
    exact ⟨current_modify h.current fun _ => rfl, waiting_modify h.waiting,
      fun id => (h.task id).of_same (same_modify s r id fun _ _ => ⟨rfl, rfl, rfl, rfl⟩)⟩

theorem Held.spawn {taskId : String} {state : TaskState} (h : Held s none taskId r state)
    (hfree : ∀ w ∈ s.cancellations, w.ctx ≠ r) {stage : Stage}
    (hmatch : stage.Matches r state) : Inv (s.spawn r taskId stage) := by
  obtain ⟨c, hc, rfl, -, rfl, hrec, -⟩ := h.context
  have hnew : ({ s.modify r fun c => { c with runningFuture := some s.futures.length } with
      futures := s.futures ++ [{ taskId := c.task.taskId, stage, cancelRequested := false }] } :
      World).heap[r]? = some { c with runningFuture := some s.futures.length } :=
    getElem?_modify_eq_some.mpr (.inl ⟨rfl, c, hc, rfl⟩)
  refine ⟨current_modify h.current fun _ => rfl, waiting_modify h.waiting, fun id => ?_⟩
  by_cases hne : id = c.task.taskId
  · subst hne
    refine ⟨fun hnone => ?_, fun r' hr' => ?_, fun k g hg hgid hglive => ?_, fun w hw hw' => ?_⟩
    · cases h.tasks.symm.trans hnone
    · obtain rfl := Option.some.inj (h.tasks.symm.trans hr')
      refine ⟨_, hnew, rfl, ⟨hrec.follows, hrec.last, hrec.history⟩, ?_⟩
      rintro j ⟨⟩
      exact ⟨_, List.getElem?_concat_length, rfl⟩
    · rcases getElem?_concat_eq_some.mp hg with hg' | ⟨rfl, rfl⟩
      · cases h.alone k g hg' hgid hglive
      · exact ⟨r, _, h.tasks, hnew, rfl, hmatch⟩
    · exact absurd (Option.some.inj (h.tasks.symm.trans hw')).symm (hfree w hw)
  · have hsame := same_modify s r id
      (f := fun c => { c with runningFuture := some s.futures.length })
      fun _ hr => absurd hr (h.ne hne)
    refine (h.other id hne).of_same { hsame with futures := fun i f hid => ?_ }
    refine getElem?_concat_eq_some.trans (or_iff_left ?_)
    rintro ⟨-, rfl⟩
    exact hne hid.symm

theorem Inv.store (h : Inv s) {c : TaskContext} {state : TaskState}
    (hr : s.tasks c.task.taskId = none) (hstate : c.task.state = state)
    (hnext : state = .accepted ∨ state = .rejected) (hnone : c.runningFuture = none)
    (hhistory : state ≠ .rejected → c.task.statusHistory.map TaskStatus.state = [state]) :
    Held { s.store c with went := s.went ++ [(c.task.taskId, state)] } none c.task.taskId
      s.heap.length state := by
  have hstates : s.statesOf c.task.taskId = [] := (h.task c.task.taskId).absent hr
  refine ⟨fun r' d hd => ?_, fun w hw => ?_, fun id hne => ?_, if_pos rfl,
    ⟨c, List.getElem?_concat_length, rfl, fun j hj => (by cases hj), hstate, ?_, ?_⟩,
    fun j f hf hid hlive => ?_, fun w hw hctx => ?_⟩
  · rcases getElem?_concat_eq_some.mp hd with hd' | ⟨rfl, rfl⟩
    · have hold := h.current r' d hd'
      have hne : d.task.taskId ≠ c.task.taskId := by
        intro heq
        rw [heq, hr] at hold
        cases hold
      exact (if_neg hne).trans hold
    · exact if_pos rfl
  · change w.ctx < (s.heap ++ [c]).length
    rw [List.length_append]
    exact Nat.lt_add_right 1 (h.waiting w hw)
  · refine (h.task id).of_same ⟨if_neg hne, fun r' d _ hd => ?_, fun _ _ _ => Iff.rfl,
      fun w hw _ => hw, statesOf_append_ne rfl (Ne.symm hne)⟩
    exact ⟨d, getElem?_concat_eq_some.mpr (.inl hd), rfl, rfl, rfl, rfl⟩
  · rw [statesOf_append_self (s := s) rfl, hstates]
    refine ⟨follows_append follows_nil ?_, ?_, ?_⟩
    · rcases hnext with rfl | rfl <;> decide
    · rw [hstate]
      rfl
    · intro hstates'
      apply hhistory
      rintro rfl
      exact hstates' rfl
  · intro j hj
    rw [hnone] at hj
    cases hj
  · obtain ⟨r', d, hr', -⟩ := (h.task c.task.taskId).live j f hf hid hlive
    cases hr.symm.trans hr'
  · refine ⟨rfl, ?_⟩
    rcases hnext with rfl | rfl <;> decide

theorem Inv.onStart_none (h : Inv s) (hnone : s.tasks command.target = none) :
    Inv (onStart agent command now none s) := by
  unfold onStart
  simp only [Option.isSome_none, Bool.false_eq_true, if_false]
  split
  · exact (h.store (c := rejectedTask agent command now) hnone rfl (.inr rfl) rfl
      fun hne => absurd rfl hne).release
  · have hheld := h.store (c := acceptedTask agent command now) hnone rfl (.inl rfl) rfl
      fun _ => rfl
    refine hheld.spawn (fun w hw => Nat.ne_of_lt (h.waiting w hw)) ?_
    exact rfl

theorem Inv.onCancel (h : Inv s) : Inv (onCancel command now r s) := by
  have h' : Inv (Partner.addCommand command.target command s) := h.addCommand command.target
  unfold Partner.onCancel
  simp only
  generalize Partner.addCommand command.target command s = s' at h' ⊢
  cases hc : s'.heap[r]? with
  | none =>
    unfold Partner.finishCancel
    simp only [Option.bind_none, Option.filter_none, hc]
    exact h'
  | some c =>
    cases hrun : c.runningFuture.filter s'.running with
    | none =>
      simp only [Option.bind_some, hrun]
      exact (h'.held_none hc (h'.quiet hc hrun)).finishCancel
    | some j =>
      simp only [Option.bind_some, hrun]
      obtain ⟨hsome, hrunning⟩ := Option.filter_eq_some_iff.mp hrun
      exact h'.requestCancel hc hsome hrunning

theorem Inv.onComplete (h : Inv s) : Inv (onComplete command now r s) := by
  have h' : Inv (Partner.addCommand command.target command s) := h.addCommand command.target
  unfold Partner.onComplete
  simp only
  generalize Partner.addCommand command.target command s = s' at h' ⊢
  cases hc : s'.heap[r]? with
  | none => exact h'
  | some c =>
    simp only
    split
    · next hstate =>
      have hheld := h'.held_none hc (h'.quiet_of_awaiting hc (.inr hstate))
      rw [hstate] at hheld
      exact (hheld.update (by decide) (fun _ => by decide) [] now).release
    · exact h'

theorem Inv.onContinue (h : Inv s) : Inv (onContinue command now r s) := by
  have h' : Inv (Partner.addCommand command.target command s) := h.addCommand command.target
  unfold Partner.onContinue
  simp only
  generalize Partner.addCommand command.target command s = s' at h' ⊢
  cases hc : s'.heap[r]? with
  | none => exact h'
  | some c =>
    simp only
    split
    · next hcond =>
      have hstate : c.task.state = .awaitingInput ∨ c.task.state = .awaitingCompletion := by
        simpa using hcond.1
      have hheld := h'.held_none hc (h'.quiet_of_awaiting hc hstate)
      refine (hheld.update ?_ (fun _ => by decide) [] now).spawn ?_ rfl
      · rcases hstate with hstate | hstate <;> rw [hstate] <;> decide
      · intro w hw hctx
        have hw' : w ∈ s'.cancellations := by
          unfold updateTaskStatus at hw
          rwa [hheld.tasks] at hw
        obtain ⟨-, hinput, hcompletion⟩ := hheld.pending w hw' hctx
        exact hstate.elim hinput hcompletion
    · exact h'

theorem Inv.onStart_some (h : Inv s) : Inv (onStart agent command now (some r) s) := by
  unfold onStart
  exact h.addCommand command.target

theorem Inv.onCommand (h : Inv s) : Inv (onCommand agent command now r s) := by
  unfold Partner.onCommand
  cases command.command with
  | get => exact h
  | start => exact h.onStart_some
  | «continue» => exact h.onContinue
  | cancel => exact h.onCancel
  | complete => exact h.onComplete
  | reStream => exact h

theorem Inv.toTask (h : Inv s) : Inv (toTask agent command now s) := by
  unfold Partner.toTask
  cases hr : s.tasks command.target with
  | some r => exact h.onCommand
  | none =>
    simp only
    split
    · exact h.onStart_none hr
    · exact h

theorem Inv.resumeCancelStep (h : Inv s) {t : World} {k : ℕ}
    (ht : resumeCancelStep k now s = some t) : Inv t := by
  unfold Partner.resumeCancelStep at ht
  cases hw : s.cancellations[k]? with
  | none =>
    rw [hw] at ht
    cases ht
  | some w =>
    simp only [hw] at ht
    by_cases hrunning : s.running w.future = true
    · rw [if_pos hrunning] at ht
      cases ht
    · rw [if_neg hrunning] at ht
      obtain rfl := Option.some.inj ht
      have hmem : w ∈ s.cancellations := List.mem_of_getElem? hw
      obtain ⟨c, hc⟩ : ∃ c, s.heap[w.ctx]? = some c :=
        ⟨_, List.getElem?_eq_getElem (h.waiting w hmem)⟩
      have hr := h.current w.ctx c hc
      have hhalted : Halted s c.task.taskId := by
        rcases (h.task c.task.taskId).pending w hmem hr with ⟨f, hf, -, hlive, -⟩ | hhalted
        · exact absurd (running_eq_false (Bool.not_eq_true _ ▸ hrunning) hf) hlive
        · exact hhalted
      have hheld := h.held_none hc hhalted.quiet
      exact (hheld.forget (s.cancellations.eraseIdx k) fun v hv =>
        List.mem_of_mem_eraseIdx hv).finishCancel

end Commands

def NewOnStream (s : World) : Act → Prop
  | .onStreamStart command _ =>
    (command.taskId.filter (· ≠ "")).isSome → s.tasks command.target = none
  | _ => True

instance (s : World) : (a : Act) → Decidable (NewOnStream s a)
  | .onStreamStart command _ => inferInstanceAs (Decidable
      ((command.taskId.filter (· ≠ "")).isSome → s.tasks command.target = none))
  | .dispatch _ _ | .onTaskCommand _ _ _ | .resume _ _ | .resumeCancel _ _ =>
    inferInstanceAs (Decidable True)

section Run

variable {agent : Agent}

theorem inv_initial : Inv World.initial where
  current := fun r c hc => by cases hc
  waiting := fun w hw => by cases hw
  task := fun taskId => {
    absent := fun _ => rfl
    stored := fun r hr => by cases hr
    live := fun i f hf => by cases hf
    pending := fun w hw => by cases hw }

theorem inv_step (s : World) (a : Act) (t : World) (h : Inv s) (hC : NewOnStream s a)
    (ht : step agent s a = some t) : Inv t := by
  cases a with
  | dispatch command now =>
    obtain rfl := Option.some.inj ht
    unfold dispatch
    split
    · exact h.toTask
    · exact h
  | onTaskCommand command isMentioned now =>
    obtain rfl := Option.some.inj ht
    unfold onTaskCommand
    split
    · exact h.toTask
    · exact h
  | onStreamStart command now =>
    obtain rfl := Option.some.inj ht
    unfold onStreamStart
    split
    · next hid => exact h.onStart_none (hC hid)
    · exact h
  | resume future r => exact h.resumeStep ht
  | resumeCancel k now => exact h.resumeCancelStep ht

structure Conformant (agent : Agent) (s : World) : Prop where
  follows : ∀ taskId, Follows runnerRules (s.statesOf taskId)
  terminal : ∀ taskId before state after, s.statesOf taskId = before ++ state :: after →
    state ∈ terminalStates → after = []
  current : ∀ taskId c, s.context taskId = some c →
    (s.statesOf taskId).getLast? = some c.task.state
  history : ∀ taskId c, s.context taskId = some c → s.statesOf taskId ≠ [.rejected] →
    c.task.statusHistory.map TaskStatus.state = s.statesOf taskId
  ignored : ∀ command now, command.command = .start → (s.tasks command.target).isSome →
    ((command.taskId.filter (· ≠ "")).isSome →
      dispatch agent command now s = addCommand command.target command s) ∧
    onTaskCommand agent command now true s = addCommand command.target command s

theorem start_ignored {s : World} {command : TaskCommand} (now : Time)
    (hstart : command.command = .start) (hsome : (s.tasks command.target).isSome) :
    toTask agent command now s = addCommand command.target command s := by
  obtain ⟨r, hr⟩ := Option.isSome_iff_exists.mp hsome
  unfold toTask
  rw [hr]
  simp only [onCommand, hstart, onStart, Option.isSome_some, if_true]

theorem Inv.follows {s : World} (h : Inv s) (taskId : String) :
    Follows runnerRules (s.statesOf taskId) := by
  cases hr : s.tasks taskId with
  | none =>
    rw [(h.task taskId).absent hr]
    exact follows_nil
  | some r =>
    obtain ⟨c, -, -, hrec, -⟩ := (h.task taskId).stored r hr
    exact hrec.follows

theorem Inv.recorded {s : World} (h : Inv s) {taskId : String} {c : TaskContext}
    (hc : s.context taskId = some c) : Recorded (s.statesOf taskId) c := by
  obtain ⟨r, hr, hget⟩ := Option.bind_eq_some_iff.mp hc
  obtain ⟨d, hd, -, hrec, -⟩ := (h.task taskId).stored r hr
  obtain rfl := Option.some.inj (hd.symm.trans hget)
  exact hrec

theorem runner_conformant {schedule : List Act} {t : World}
    (hrun : (runner agent).exec World.initial schedule = some t)
    (hmeets : (runner agent).Meets NewOnStream World.initial schedule) : Conformant agent t := by
  have h := (runner agent).exec_invariant inv_step inv_initial hmeets hrun
  refine ⟨h.follows, ?_, fun _ _ hc => (h.recorded hc).last, fun _ _ hc => (h.recorded hc).history,
    ?_⟩
  · intro taskId before state after hstates hterminal
    exact follows_terminal (hstates ▸ h.follows taskId) hterminal
  · intro command now hstart hsome
    refine ⟨fun hid => ?_, start_ignored now hstart hsome⟩
    unfold dispatch
    rw [if_pos hid]
    exact start_ignored now hstart hsome

end Run

namespace Sample

def agent (maxConcurrentTasks : ℤ) : Agent where
  agentName := "agent"
  aic := "a"
  maxConcurrentTasks
  forceAcceptDecision := false
  parseResponse content :=
    if content = "accept" ∨ content = "reject" then
      .ok (.obj [("decision", .str content), ("reason", .str "")])
    else .error "Expecting value"
  validationError _ := "Input should be a valid string"
  skillsConfig := []
  slotLabels := none
  skillPrompts := []
  executionMode := .singleShot
  normalizeSlots slots := slots
  normalizeSkill skillId _ := skillId

def command (type : TaskCommandType) : TaskCommand :=
  { id := "c", sessionId := "s", senderId := "l", command := type, taskId := some "t"
    texts := ["text"] }

def answer (future : ℕ) (awaited : Awaited) : Act :=
  .resume future
    { now := 0, awaited, results := none, entry := .reached, production := .reached }

def started : List Act := [.dispatch (command .start) 0, answer 0 (.returned "")]

def rejected : List Act := started ++ [answer 0 (.returned "reject"), answer 0 (.returned "")]

def failed : List Act := started ++ [answer 0 (.failed "timeout")]

def working : List Act := started ++ [answer 0 (.returned "accept"), answer 0 (.returned "")]

def restarted : List Act := working ++ [.onStreamStart (command .start) 0]

def cancelled : List Act :=
  working ++ [.onTaskCommand (command .start) true 0, answer 0 (.returned "accept"),
    answer 0 (.returned "product"), .onTaskCommand (command .continue) true 0,
    .dispatch (command .cancel) 0, answer 1 (.returned ""), .resumeCancel 0 0]

end Sample

theorem rules_broken :
    (∃ t, (runner (Sample.agent 10)).exec World.initial Sample.rejected = some t ∧
      ¬ Follows aipRules (t.statesOf "t")) ∧
    (∃ t, (runner (Sample.agent 10)).exec World.initial Sample.failed = some t ∧
      ¬ Follows aipRules (t.statesOf "t")) ∧
    (∃ t, (runner (Sample.agent 10)).exec World.initial Sample.restarted = some t ∧
      ¬ Follows aipRules (t.statesOf "t")) ∧
    ∃ t c, (runner (Sample.agent 0)).exec World.initial [.dispatch (Sample.command .start) 0] =
      some t ∧ t.context "t" = some c ∧ t.statesOf "t" = [.rejected] ∧
      c.task.statusHistory.map TaskStatus.state = [] := by
  have hfails (schedule : List Act)
      (hends : ((runner (Sample.agent 10)).exec World.initial schedule).any
        (fun t => ¬ Follows aipRules (t.statesOf "t")) = true) :
      ∃ t, (runner (Sample.agent 10)).exec World.initial schedule = some t ∧
        ¬ Follows aipRules (t.statesOf "t") := by
    obtain ⟨t, ht, hend⟩ := (Option.any_eq_true _ _).mp hends
    exact ⟨t, ht, of_decide_eq_true hend⟩
  refine ⟨hfails _ (by decide +kernel), hfails _ (by decide +kernel),
    hfails _ (by decide +kernel), ?_⟩
  exact ⟨_, _, rfl, rfl, rfl, rfl⟩

theorem cancelled_conformant :
    ∃ t, (runner (Sample.agent 10)).exec World.initial Sample.cancelled = some t ∧
      t.statesOf "t" = [.accepted, .working, .awaitingCompletion, .working, .canceled] ∧
      Conformant (Sample.agent 10) t := by
  have hends : ((runner (Sample.agent 10)).exec World.initial Sample.cancelled).any
      (fun t => t.statesOf "t" =
        [.accepted, .working, .awaitingCompletion, .working, .canceled]) = true := by
    decide +kernel
  obtain ⟨t, ht, hend⟩ := (Option.any_eq_true _ _).mp hends
  refine ⟨t, ht, of_decide_eq_true hend, runner_conformant ht ?_⟩
  exact (runner (Sample.agent 10)).meets_of_check (fun _ _ h => of_decide_eq_true h)
    (show (runner (Sample.agent 10)).check (fun s a => decide (NewOnStream s a)) World.initial
      Sample.cancelled = true by decide +kernel)

end Acps.Partner
