import Acps.Lib.Slots
import Acps.Partner.GenericRunner

/-!
The invariant of the runner: it ties each coroutine to the task that it works on. `Held` is what
holds in between, while a coroutine or a command works on a task.
-/

namespace Acps.Partner

open Slots

structure Recorded (states : List TaskState) (c : TaskContext) : Prop where
  follows : Follows runnerRules states
  last : states.getLast? = some c.task.state
  history : states ≠ [.rejected] → c.task.statusHistory.map TaskStatus.state = states

structure Core (c c' : TaskContext) : Prop where
  taskId : c'.task.taskId = c.task.taskId
  status : c'.task.status = c.task.status
  statusHistory : c'.task.statusHistory = c.task.statusHistory
  runningFuture : c'.runningFuture = c.runningFuture

theorem Core.state {c c' : TaskContext} (h : Core c c') : c'.task.state = c.task.state :=
  congrArg TaskStatus.state h.status

theorem Recorded.of_core {states : List TaskState} {c c' : TaskContext} (h : Recorded states c)
    (hc : Core c c') : Recorded states c' := by
  refine ⟨h.follows, ?_, ?_⟩
  · rw [hc.state]
    exact h.last
  · rw [hc.statusHistory]
    exact h.history

theorem runnerRules_rejected : runnerRules (some .rejected) = [] := rfl

theorem Recorded.setStatus {states : List TaskState} {c : TaskContext} (h : Recorded states c)
    (status : TaskStatus) (hnext : status.state ∈ runnerRules (some c.task.state)) :
    Recorded (states ++ [status.state]) (c.setStatus status) := by
  refine ⟨follows_append h.follows (by rwa [h.last]), List.getLast?_concat, fun _ => ?_⟩
  have hgoes : states ≠ [.rejected] := by
    rintro rfl
    have hstate : c.task.state = .rejected := (Option.some.inj h.last).symm
    rw [hstate, runnerRules_rejected] at hnext
    cases hnext
  change (c.task.statusHistory ++ [status]).map TaskStatus.state = states ++ [status.state]
  rw [List.map_append, h.history hgoes]
  rfl

def Stage.Matches (ctx : ℕ) (state : TaskState) : Stage → Prop
  | .decisionCreated _ | .decisionLlm _ | .decisionAudit _ _ => state = .accepted
  | .analysisCreated => state = .working
  | .analysisLlm held | .skill held _ _ _ | .gather held _ | .productionLlm held =>
    held = ctx ∧ state = .working
  | .done => True

theorem Stage.Matches.state {ctx : ℕ} {state : TaskState} {stage : Stage}
    (h : stage.Matches ctx state) (hstage : stage ≠ .done) :
    state = .accepted ∨ state = .working := by
  cases stage with
  | decisionCreated | decisionLlm | decisionAudit => exact .inl h
  | analysisCreated => exact .inr h
  | analysisLlm | skill | gather | productionLlm => exact .inr h.2
  | done => exact absurd rfl hstage

structure Halted (s : World) (taskId : String) : Prop where
  state : ∀ c, s.context taskId = some c →
    c.task.state ≠ .awaitingInput ∧ c.task.state ≠ .awaitingCompletion
  quiet : ∀ (i : ℕ) (f : Coroutine), s.futures[i]? = some f → f.taskId = taskId → f.stage = .done

def Owns (futures : List Coroutine) (c : TaskContext) : Prop :=
  ∀ j ∈ c.runningFuture, ∃ f : Coroutine, futures[j]? = some f ∧ f.taskId = c.task.taskId

structure TaskInv (s : World) (taskId : String) : Prop where
  absent : s.tasks taskId = none → s.statesOf taskId = []
  stored : ∀ r, s.tasks taskId = some r → ∃ c : TaskContext, s.heap[r]? = some c ∧ c.task.taskId = taskId ∧
    Recorded (s.statesOf taskId) c ∧ Owns s.futures c
  live : ∀ (i : ℕ) (f : Coroutine), s.futures[i]? = some f → f.taskId = taskId → f.stage ≠ .done →
    ∃ (r : ℕ) (c : TaskContext), s.tasks taskId = some r ∧ s.heap[r]? = some c ∧ c.runningFuture = some i ∧
      f.stage.Matches r c.task.state
  pending : ∀ w ∈ s.cancellations, s.tasks taskId = some w.ctx →
    (∃ f : Coroutine, s.futures[w.future]? = some f ∧ f.taskId = taskId ∧ f.stage ≠ .done ∧
      f.cancelRequested = true) ∨ Halted s taskId

theorem Owns.modify {futures : List Coroutine} {c : TaskContext} (h : Owns futures c) (i : ℕ)
    {g : Coroutine → Coroutine} (hg : ∀ f, (g f).taskId = f.taskId) :
    Owns (futures.modify i g) c := by
  intro j hj
  obtain ⟨f, hf, hfid⟩ := h j hj
  by_cases hij : i = j
  · exact ⟨g f, getElem?_modify_eq_some.mpr (.inl ⟨hij, f, hf, rfl⟩), (hg f).trans hfid⟩
  · exact ⟨f, getElem?_modify_eq_some.mpr (.inr ⟨hij, hf⟩), hfid⟩

theorem Owns.of_core {futures : List Coroutine} {c c' : TaskContext} (h : Owns futures c)
    (hc : Core c c') : Owns futures c' := by
  unfold Owns
  rw [hc.runningFuture, hc.taskId]
  exact h

structure Inv (s : World) : Prop where
  current : ∀ (r : ℕ) (c : TaskContext), s.heap[r]? = some c → s.tasks c.task.taskId = some r
  waiting : ∀ w ∈ s.cancellations, w.ctx < s.heap.length
  task : ∀ taskId, TaskInv s taskId

structure Same (s t : World) (taskId : String) : Prop where
  tasks : t.tasks taskId = s.tasks taskId
  context : ∀ (r : ℕ) (c : TaskContext), s.tasks taskId = some r → s.heap[r]? = some c →
    ∃ c', t.heap[r]? = some c' ∧ Core c c'
  futures : ∀ (i : ℕ) (f : Coroutine), f.taskId = taskId → (t.futures[i]? = some f ↔ s.futures[i]? = some f)
  cancellations : ∀ w ∈ t.cancellations, s.tasks taskId = some w.ctx → w ∈ s.cancellations
  states : t.statesOf taskId = s.statesOf taskId

section Frame

variable {s t : World} {taskId : String}

theorem TaskInv.of_same (h : TaskInv s taskId) (hst : Same s t taskId) : TaskInv t taskId := by
  have hstored : ∀ r, t.tasks taskId = some r → ∃ c c', s.heap[r]? = some c ∧
      c.task.taskId = taskId ∧ Recorded (s.statesOf taskId) c ∧ Owns s.futures c ∧
      t.heap[r]? = some c' ∧ Core c c' := by
    intro r hr
    rw [hst.tasks] at hr
    obtain ⟨c, hc, hid, hrec, howns⟩ := h.stored r hr
    obtain ⟨c', hc', hcore⟩ := hst.context r c hr hc
    exact ⟨c, c', hc, hid, hrec, howns, hc', hcore⟩
  refine ⟨?_, ?_, ?_, ?_⟩
  · intro hnone
    rw [hst.states]
    exact h.absent (hst.tasks ▸ hnone)
  · intro r hr
    obtain ⟨c, c', -, hid, hrec, howns, hc', hcore⟩ := hstored r hr
    refine ⟨c', hc', hcore.taskId.trans hid, ?_, fun j hj => ?_⟩
    · rw [hst.states]
      exact hrec.of_core hcore
    · rw [hcore.runningFuture] at hj
      obtain ⟨f, hf, hfid⟩ := howns j hj
      exact ⟨f, (hst.futures j f (hfid.trans hid)).mpr hf, hfid.trans hcore.taskId.symm⟩
  · intro i f hf hid hlive
    obtain ⟨r, c, hr, hc, hrun, hmatch⟩ := h.live i f ((hst.futures i f hid).mp hf) hid hlive
    obtain ⟨c', hc', hcore⟩ := hst.context r c hr hc
    refine ⟨r, c', hst.tasks.trans hr, hc', hcore.runningFuture.trans hrun, ?_⟩
    rwa [hcore.state]
  · intro w hw hctx
    rw [hst.tasks] at hctx
    rcases h.pending w (hst.cancellations w hw hctx) hctx with ⟨f, hf, hid, hlive⟩ | hhalted
    · exact .inl ⟨f, (hst.futures w.future f hid).mpr hf, hid, hlive⟩
    · refine .inr ⟨?_, fun i f hf hid => hhalted.quiet i f ((hst.futures i f hid).mp hf) hid⟩
      intro d hd
      obtain ⟨r, hr, hget⟩ := Option.bind_eq_some_iff.mp hd
      obtain ⟨c, c', hc, -, -, -, hc', hcore⟩ := hstored r hr
      obtain rfl := Option.some.inj (hc'.symm.trans hget)
      rw [hcore.state]
      apply hhalted.state c
      rw [World.context, ← hst.tasks, hr]
      exact hc

theorem Same.refl (s : World) (taskId : String) : Same s s taskId where
  tasks := rfl
  context := fun _ c _ hc => ⟨c, hc, rfl, rfl, rfl, rfl⟩
  futures := fun _ _ _ => Iff.rfl
  cancellations := fun _ hw _ => hw
  states := rfl

theorem Same.trans {u : World} (hst : Same s t taskId) (htu : Same t u taskId) :
    Same s u taskId where
  tasks := htu.tasks.trans hst.tasks
  context r c hr hc := by
    obtain ⟨c', hc', hcore⟩ := hst.context r c hr hc
    obtain ⟨c'', hc'', hcore'⟩ := htu.context r c' (hst.tasks.trans hr) hc'
    exact ⟨c'', hc'', hcore'.taskId.trans hcore.taskId, hcore'.status.trans hcore.status,
      hcore'.statusHistory.trans hcore.statusHistory,
      hcore'.runningFuture.trans hcore.runningFuture⟩
  futures i f hid := (htu.futures i f hid).trans (hst.futures i f hid)
  cancellations w hw hr :=
    hst.cancellations w (htu.cancellations w hw (hst.tasks.trans hr)) hr
  states := htu.states.trans hst.states

theorem same_modify (s : World) (r : ℕ) (taskId : String) {f : TaskContext → TaskContext}
    (hf : ∀ c, s.tasks taskId = some r → Core c (f c)) : Same s (s.modify r f) taskId where
  tasks := rfl
  context := by
    intro r' c hr' hc
    by_cases h : r = r'
    · subst h
      refine ⟨f c, ?_, hf c hr'⟩
      rw [World.modify, List.getElem?_modify_eq, hc]
      rfl
    · refine ⟨c, ?_, rfl, rfl, rfl, rfl⟩
      rw [World.modify, List.getElem?_modify_ne f s.heap h, hc]
  futures := fun _ _ _ => Iff.rfl
  cancellations := fun _ hw _ => hw
  states := rfl

theorem current_modify {r : ℕ} {f : TaskContext → TaskContext}
    (h : ∀ (r : ℕ) (c : TaskContext), s.heap[r]? = some c → s.tasks c.task.taskId = some r)
    (hf : ∀ c, (f c).task.taskId = c.task.taskId) (r' : ℕ) (c : TaskContext)
    (hc : (s.modify r f).heap[r']? = some c) : s.tasks c.task.taskId = some r' := by
  rcases getElem?_modify_eq_some.mp hc with ⟨-, c', hc', rfl⟩ | ⟨-, hc'⟩
  · rw [hf]
    exact h r' c' hc'
  · exact h r' c hc'

theorem waiting_modify {r : ℕ} {f : TaskContext → TaskContext}
    (h : ∀ w ∈ s.cancellations, w.ctx < s.heap.length) :
    ∀ w ∈ s.cancellations, w.ctx < (s.modify r f).heap.length := by
  intro w hw
  rw [World.modify, List.length_modify]
  exact h w hw

theorem same_modifyFuture {i : ℕ} {g : Coroutine → Coroutine}
    (hi : ∀ f : Coroutine, s.futures[i]? = some f → f.taskId ≠ taskId)
    (hg : ∀ f, (g f).taskId = f.taskId) :
    Same s { s with futures := s.futures.modify i g } taskId where
  tasks := rfl
  context := fun _ c _ hc => ⟨c, hc, rfl, rfl, rfl, rfl⟩
  futures := by
    intro j f hid
    constructor
    · intro hf
      rcases getElem?_modify_eq_some.mp hf with ⟨rfl, f', hf', rfl⟩ | ⟨-, hf'⟩
      · exact absurd ((hg f').symm.trans hid) (hi f' hf')
      · exact hf'
    · intro hf
      refine getElem?_modify_eq_some.mpr (.inr ⟨?_, hf⟩)
      rintro rfl
      exact hi f hf hid
  cancellations := fun _ hw _ => hw
  states := rfl

theorem same_setStage {i : ℕ} {stage : Stage}
    (hi : ∀ f : Coroutine, s.futures[i]? = some f → f.taskId ≠ taskId) :
    Same s (s.setStage i stage) taskId := same_modifyFuture hi fun _ => rfl

theorem statesOf_append_ne {other : String} {state : TaskState}
    (hwent : t.went = s.went ++ [(other, state)]) (h : other ≠ taskId) :
    t.statesOf taskId = s.statesOf taskId := by
  unfold World.statesOf
  rw [hwent, List.filter_append]
  simp [h]

theorem statesOf_append_self {state : TaskState} (hwent : t.went = s.went ++ [(taskId, state)]) :
    t.statesOf taskId = s.statesOf taskId ++ [state] := by
  unfold World.statesOf
  rw [hwent, List.filter_append, List.map_append]
  simp

end Frame

/-- No coroutine but this one, if any, runs for the task. Only where it waits next is still open,
and whoever waits for the end of one has nothing to fear. -/
structure Held (s : World) (i : Option ℕ) (taskId : String) (r : ℕ) (state : TaskState) :
    Prop where
  current : ∀ (r : ℕ) (c : TaskContext), s.heap[r]? = some c → s.tasks c.task.taskId = some r
  waiting : ∀ w ∈ s.cancellations, w.ctx < s.heap.length
  other : ∀ id, id ≠ taskId → TaskInv s id
  tasks : s.tasks taskId = some r
  context : ∃ c : TaskContext, s.heap[r]? = some c ∧ c.task.taskId = taskId ∧
    (∀ j ∈ i, c.runningFuture = some j) ∧ c.task.state = state ∧
    Recorded (s.statesOf taskId) c ∧ Owns s.futures c
  alone : ∀ (j : ℕ) (f : Coroutine), s.futures[j]? = some f → f.taskId = taskId →
    f.stage ≠ .done → j ∈ i
  pending : ∀ w ∈ s.cancellations, w.ctx = r →
    i = none ∧ state ≠ .awaitingInput ∧ state ≠ .awaitingCompletion

section Held

variable {s : World} {i : Option ℕ} {taskId : String} {r : ℕ} {state : TaskState}

theorem TaskInv.alone (h : TaskInv s taskId) {c : TaskContext} (hr : s.tasks taskId = some r)
    (hc : s.heap[r]? = some c) {j : ℕ} {f : Coroutine} (hf : s.futures[j]? = some f)
    (hid : f.taskId = taskId) (hlive : f.stage ≠ .done) :
    c.runningFuture = some j ∧ f.stage.Matches r c.task.state := by
  obtain ⟨r', c', hr', hc', hrun, hmatch⟩ := h.live j f hf hid hlive
  obtain rfl := Option.some.inj (hr.symm.trans hr')
  obtain rfl := Option.some.inj (hc.symm.trans hc')
  exact ⟨hrun, hmatch⟩

theorem Inv.held (h : Inv s) {j : ℕ} {f : Coroutine} (hf : s.futures[j]? = some f)
    (hlive : f.stage ≠ .done) (hcancel : f.cancelRequested = false) :
    ∃ r state, Held s (some j) f.taskId r state ∧ f.stage.Matches r state := by
  have ht := h.task f.taskId
  obtain ⟨r, c, hr, hc, hrun, hmatch⟩ := ht.live j f hf rfl hlive
  obtain ⟨d, hd, hid, hrec, howns⟩ := ht.stored r hr
  obtain rfl := Option.some.inj (hc.symm.trans hd)
  have halone : ∀ (k : ℕ) (g : Coroutine), s.futures[k]? = some g → g.taskId = f.taskId →
      g.stage ≠ .done → k ∈ some j := by
    intro k g hg hgid hglive
    exact hrun.symm.trans (ht.alone hr hc hg hgid hglive).1
  refine ⟨r, c.task.state, ⟨h.current, h.waiting, fun id _ => h.task id, hr,
    ⟨c, hc, hid, fun k hk => hrun.trans hk, rfl, hrec, howns⟩, halone, ?_⟩, hmatch⟩
  rintro w hw rfl
  rcases ht.pending w hw hr with ⟨g, hg, hgid, hglive, hgcancel⟩ | hhalted
  · obtain rfl := Option.some.inj (halone w.future g hg hgid hglive)
    obtain rfl := Option.some.inj (hf.symm.trans hg)
    rw [hcancel] at hgcancel
    cases hgcancel
  · exact absurd (hhalted.quiet j f hf rfl) hlive

theorem Inv.held_none (h : Inv s) {c : TaskContext} (hc : s.heap[r]? = some c)
    (hquiet : ∀ (j : ℕ) (f : Coroutine), s.futures[j]? = some f → f.taskId = c.task.taskId →
      f.stage = .done) : Held s none c.task.taskId r c.task.state := by
  have hr := h.current r c hc
  obtain ⟨d, hd, hid, hrec, howns⟩ := (h.task c.task.taskId).stored r hr
  obtain rfl := Option.some.inj (hc.symm.trans hd)
  refine ⟨h.current, h.waiting, fun id _ => h.task id, hr,
    ⟨c, hc, rfl, fun k hk => (by cases hk), rfl, hrec, howns⟩, fun k f hf hfid hlive => absurd (hquiet k f hf hfid) hlive, ?_⟩
  rintro w hw rfl
  refine ⟨rfl, ?_⟩
  rcases (h.task c.task.taskId).pending w hw hr with ⟨g, hg, hgid, hglive, -⟩ | hhalted
  · exact absurd (hquiet w.future g hg hgid) hglive
  · apply hhalted.state c
    rw [World.context, hr]
    exact hc

theorem Held.ne (h : Held s i taskId r state) {id : String} (hid : id ≠ taskId) :
    s.tasks id ≠ some r := by
  intro hr
  obtain ⟨c, hc, hcid, -⟩ := h.context
  obtain ⟨d, hd, hdid, -⟩ := (h.other id hid).stored r hr
  obtain rfl := Option.some.inj (hc.symm.trans hd)
  exact hid (hdid.symm.trans hcid)

theorem Held.release (h : Held s none taskId r state) : Inv s := by
  obtain ⟨c, hc, hid, -, rfl, hrec, howns⟩ := h.context
  have hquiet : ∀ (j : ℕ) (f : Coroutine), s.futures[j]? = some f → f.taskId = taskId →
      f.stage = .done := by
    intro j f hf hfid
    by_contra hlive
    cases h.alone j f hf hfid hlive
  refine ⟨h.current, h.waiting, fun id => ?_⟩
  by_cases hne : id = taskId
  · subst hne
    refine ⟨fun hnone => ?_, fun r' hr' => ?_, fun j g hg hgid hglive => ?_, fun w hw hr => ?_⟩
    · cases h.tasks.symm.trans hnone
    · obtain rfl := Option.some.inj (h.tasks.symm.trans hr')
      exact ⟨c, hc, hid, hrec, howns⟩
    · exact absurd (hquiet j g hg hgid) hglive
    · obtain rfl := Option.some.inj (h.tasks.symm.trans hr)
      refine .inr ⟨fun d hd => ?_, hquiet⟩
      rw [World.context, h.tasks, Option.bind_some, hc] at hd
      obtain rfl := Option.some.inj hd
      exact (h.pending w hw rfl).2
  · exact h.other id hne

theorem Held.setStage {j : ℕ} (h : Held s (some j) taskId r state) {stage : Stage}
    (hmatch : stage.Matches r state) : Inv (s.setStage j stage) := by
  obtain ⟨c, hc, hid, hrun, rfl, hrec, howns⟩ := h.context
  obtain ⟨f, hf, hfid⟩ := howns j (hrun j rfl)
  refine ⟨h.current, h.waiting, fun id => ?_⟩
  by_cases hne : id = taskId
  · subst hne
    refine ⟨fun hnone => ?_, fun r' hr' => ?_, fun k g hg hgid hglive => ?_, fun w hw hr => ?_⟩
    · cases h.tasks.symm.trans hnone
    · obtain rfl := Option.some.inj (h.tasks.symm.trans hr')
      exact ⟨c, hc, hid, hrec, howns.modify _ fun _ => rfl⟩
    · rcases getElem?_modify_eq_some.mp hg with ⟨rfl, g', -, rfl⟩ | ⟨hjk, hg'⟩
      · exact ⟨r, c, h.tasks, hc, hrun j rfl, hmatch⟩
      · exact absurd (Option.some.inj (h.alone k g hg' hgid hglive)) hjk
    · obtain rfl := Option.some.inj (h.tasks.symm.trans hr)
      cases (h.pending w hw rfl).1
  · apply (h.other id hne).of_same (same_setStage ?_)
    intro g hg
    obtain rfl := Option.some.inj (hf.symm.trans hg)
    rw [hfid, hid]
    exact Ne.symm hne

theorem Held.modify (h : Held s i taskId r state) (r' : ℕ) {f : TaskContext → TaskContext}
    (hf : ∀ c, Core c (f c)) : Held (s.modify r' f) i taskId r state := by
  obtain ⟨c, hc, hid, hrun, rfl, hrec, howns⟩ := h.context
  obtain ⟨c', hc', hcore⟩ := (same_modify s r' _ fun c _ => hf c).context r c h.tasks hc
  exact {
    current := current_modify h.current fun c => (hf c).taskId
    waiting := waiting_modify h.waiting
    other := fun id hne => (h.other id hne).of_same (same_modify s r' _ fun c _ => hf c)
    tasks := h.tasks
    context := ⟨c', hc', hcore.taskId.trans hid,
      fun j hj => hcore.runningFuture.trans (hrun j hj), hcore.state, hrec.of_core hcore,
      howns.of_core hcore⟩
    alone := h.alone
    pending := h.pending }

theorem Held.update (h : Held s i taskId r state) {next : TaskState}
    (hnext : next ∈ runnerRules (some state))
    (hnone : i = none → next ≠ .awaitingInput ∧ next ≠ .awaitingCompletion)
    (dataItems : List String) (now : Time) :
    Held (updateTaskStatus taskId next dataItems now s) i taskId r next := by
  obtain ⟨c, hc, hid, hrun, rfl, hrec, howns⟩ := h.context
  unfold updateTaskStatus
  rw [h.tasks]
  refine ⟨current_modify h.current fun c => rfl, waiting_modify h.waiting, fun id hne => ?_,
    h.tasks,
    ⟨_, getElem?_modify_eq_some.mpr (.inl ⟨rfl, c, hc, rfl⟩), hid, hrun, rfl, ?_, howns⟩,
    h.alone, fun w hw hctx => ?_⟩
  · have hsame := same_modify s r id
      (f := TaskContext.setStatus { state := next, stateChangedAt := now, dataItems })
      fun _ hr => absurd hr (h.ne hne)
    exact (h.other id hne).of_same
      { hsame with states := statesOf_append_ne rfl (Ne.symm hne) }
  · rw [statesOf_append_self rfl]
    exact hrec.setStatus { state := next, stateChangedAt := now, dataItems } hnext
  · have hi := (h.pending w hw hctx).1
    exact ⟨hi, hnone hi⟩

theorem Held.finish {j : ℕ} (h : Held s (some j) taskId r state) {next : TaskState}
    (hnext : next ∈ runnerRules (some state)) (dataItems : List String) (now : Time) :
    Inv (finish j taskId now next dataItems s) :=
  (h.update hnext (fun hnone => by cases hnone) dataItems now).setStage trivial

theorem Held.fail {j : ℕ} (h : Held s (some j) taskId r state)
    (hstate : state = .accepted ∨ state = .working) (e : String) (now : Time) :
    Inv (fail j taskId now e s) := by
  apply h.finish
  rcases hstate with rfl | rfl <;> decide

end Held

end Acps.Partner
