import Acps.Partner.Frames

/-!
A partner bounds its work and ends it: one stage at a time for a task, no more active tasks than it
was set up for, and a task that was cancelled stays as it is.
-/

namespace Acps.Partner

open Slots Transition

def activeStates : List TaskState := [.working, .awaitingInput, .awaitingCompletion]

def SameResult (c c' : TaskContext) : Prop :=
  c'.task.status = c.task.status ∧ c'.task.products = c.task.products

theorem SameResult.state {c c' : TaskContext} (h : SameResult c c') :
    c'.task.state = c.task.state := congrArg TaskStatus.state h.1

theorem SameResult.trans {c c' c'' : TaskContext} (h : SameResult c c') (h' : SameResult c' c'') :
    SameResult c c'' := ⟨h'.1.trans h.1, h'.2.trans h.2⟩

structure Steady (admitted : Option ℕ) (s t : World) : Prop where
  tasks : ∀ (id : String) (r : ℕ), s.tasks id = some r → t.tasks id = some r
  settled : ∀ (r : ℕ) (c : TaskContext), s.heap[r]? = some c → c.task.state ∈ terminalStates →
    ∃ c', t.heap[r]? = some c' ∧ SameResult c c'
  active : ∀ (r : ℕ) (c' : TaskContext), r ∉ admitted → t.heap[r]? = some c' →
    c'.task.state ∈ activeStates → ∃ c : TaskContext, s.heap[r]? = some c ∧ c.task.state ∈ activeStates

section Steady

variable {s t u : World} {taskId : String} {r : ℕ}

theorem steady_of_heap (hheap : t.heap = s.heap) (htasks : t.tasks = s.tasks) :
    Steady none s t where
  tasks := fun _ _ hr => htasks ▸ hr
  settled := fun _ c hc _ => ⟨c, hheap ▸ hc, rfl, rfl⟩
  active := fun _ c _ hc hactive => ⟨c, hheap ▸ hc, hactive⟩

theorem Steady.trans (h : Steady none s t) (h' : Steady none t u) : Steady none s u where
  tasks := fun id r hr => h'.tasks id r (h.tasks id r hr)
  settled r c hc hterminal := by
    obtain ⟨c', hc', hsame⟩ := h.settled r c hc hterminal
    obtain ⟨c'', hc'', hsame'⟩ := h'.settled r c' hc' (hsame.state ▸ hterminal)
    exact ⟨c'', hc'', hsame.trans hsame'⟩
  active r c'' hr hc'' hactive := by
    obtain ⟨c', hc', hactive'⟩ := h'.active r c'' hr hc'' hactive
    exact h.active r c' hr hc' hactive'

theorem steady_modify (s : World) (k : ℕ) {f : TaskContext → TaskContext}
    (hactive : ∀ c, s.heap[k]? = some c → (f c).task.state ∈ activeStates →
      c.task.state ∈ activeStates)
    (hsettled : ∀ c, s.heap[k]? = some c → c.task.state ∈ terminalStates → SameResult c (f c)) :
    Steady none s (s.modify k f) := by
  refine ⟨fun _ _ hr => hr, fun r c hc hterminal => ?_, fun r c' _ hc' hactive' => ?_⟩
  · by_cases hk : k = r
    · subst hk
      exact ⟨f c, getElem?_modify_eq_some.mpr (.inl ⟨rfl, c, hc, rfl⟩), hsettled c hc hterminal⟩
    · exact ⟨c, getElem?_modify_eq_some.mpr (.inr ⟨hk, hc⟩), rfl, rfl⟩
  · rcases getElem?_modify_eq_some.mp hc' with ⟨rfl, c, hc, rfl⟩ | ⟨-, hc⟩
    · exact ⟨c, hc, hactive c hc hactive'⟩
    · exact ⟨c', hc, hactive'⟩

theorem steady_modify_same (s : World) (k : ℕ) {f : TaskContext → TaskContext}
    (hf : ∀ c, SameResult c (f c)) : Steady none s (s.modify k f) :=
  steady_modify s k (fun c _ hactive => (hf c).state ▸ hactive) fun c _ _ => hf c

theorem steady_addCommand (taskId : String) (command : TaskCommand) (s : World) :
    Steady none s (addCommand taskId command s) := by
  unfold addCommand
  split
  · exact steady_of_heap rfl rfl
  · exact steady_modify_same s _ fun _ => ⟨rfl, rfl⟩

theorem steady_updateTaskStatus {state : TaskState}
    (hopen : ∀ (r : ℕ) (c : TaskContext), s.tasks taskId = some r → s.heap[r]? = some c →
      c.task.state ∉ terminalStates ∧ (state ∈ activeStates → c.task.state ∈ activeStates))
    (dataItems : List String) (now : Time) :
    Steady none s (updateTaskStatus taskId state dataItems now s) := by
  unfold updateTaskStatus
  split
  · exact steady_of_heap rfl rfl
  · next r hr =>
    have hmodify := steady_modify s r
      (f := TaskContext.setStatus { state, stateChangedAt := now, dataItems })
      (fun c hc hactive => (hopen r c hr hc).2 hactive)
      fun c hc hterminal => absurd hterminal (hopen r c hr hc).1
    exact hmodify.trans (steady_of_heap rfl rfl)

theorem steady_of_works {admitted : Option ℕ} (h : Inv s) (hhistories : Histories s t)
    (hworks : Works taskId s t) {c : TaskContext} (hr : s.tasks taskId = some r)
    (hc : s.heap[r]? = some c) (hopen : c.task.state ∉ terminalStates)
    (hactive : r ∈ admitted ∨ c.task.state ∈ activeStates ∨
      ∀ c', t.heap[r]? = some c' → c'.task.state ∉ activeStates) : Steady admitted s t := by
  have hown (k : ℕ) (d : TaskContext) (hd : s.heap[k]? = some d) (hid : d.task.taskId = taskId) :
      k = r ∧ d = c := by
    have hk := h.current k d hd
    rw [hid, hr] at hk
    obtain rfl := Option.some.inj hk
    exact ⟨rfl, Option.some.inj (hd.symm.trans hc)⟩
  refine ⟨fun id k hk => hhistories.tasks ▸ hk, fun k d hd hterminal => ?_,
    fun k d' hk hd' hactive' => ?_⟩
  · obtain ⟨d', hd', -, hsame⟩ := hworks.kept k d hd
    by_cases hid : d.task.taskId = taskId
    · obtain ⟨-, rfl⟩ := hown k d hd hid
      exact absurd hterminal hopen
    · exact ⟨d', hd', by rw [hsame hid]; exact ⟨rfl, rfl⟩⟩
  · have hlt : k < s.heap.length := hhistories.length ▸ (List.getElem?_eq_some_iff.mp hd').1
    obtain ⟨d, hd⟩ : ∃ d, s.heap[k]? = some d := ⟨_, List.getElem?_eq_getElem hlt⟩
    refine ⟨d, hd, ?_⟩
    obtain ⟨d'', hd'', -, hsame⟩ := hworks.kept k d hd
    obtain rfl := Option.some.inj (hd'.symm.trans hd'')
    by_cases hid : d.task.taskId = taskId
    · obtain ⟨rfl, rfl⟩ := hown k d hd hid
      rcases hactive with hadmitted | hwas | hnot
      · exact absurd hadmitted hk
      · exact hwas
      · exact absurd hactive' (hnot d' hd')
    · rwa [hsame hid] at hactive'

end Steady

section Commands

variable {agent : Agent} {s : World} {command : TaskCommand} {now : Time} {r : ℕ}

variable (now) in
theorem finishCancel_ended (hcurrent : ∀ (r : ℕ) (c : TaskContext), s.heap[r]? = some c →
      s.tasks c.task.taskId = some r) {c : TaskContext} (hc : s.heap[r]? = some c) :
    ∃ c', (finishCancel now r s).heap[r]? = some c' ∧ c'.task.state ∈ terminalStates ∧
      (finishCancel now r s).tasks c.task.taskId = some r := by
  have hr := hcurrent r c hc
  unfold finishCancel
  rw [hc]
  dsimp only
  split
  · next hterminal => exact ⟨c, hc, hterminal, hr⟩
  · unfold updateTaskStatus
    rw [hr]
    have hcanceled : TaskState.canceled ∈ terminalStates := by decide
    exact ⟨_, getElem?_modify_eq_some.mpr (.inl ⟨rfl, c, hc, rfl⟩), hcanceled, hr⟩

theorem steady_finishCancel (hcurrent : ∀ (r : ℕ) (c : TaskContext), s.heap[r]? = some c →
    s.tasks c.task.taskId = some r) (r : ℕ) : Steady none s (finishCancel now r s) := by
  unfold finishCancel
  split
  · exact steady_of_heap rfl rfl
  · next c hc =>
    split
    · exact steady_of_heap rfl rfl
    · next hopen =>
      apply steady_updateTaskStatus
      intro k d hk hd
      obtain rfl := Option.some.inj ((hcurrent r c hc).symm.trans hk)
      obtain rfl := Option.some.inj (hc.symm.trans hd)
      exact ⟨hopen, fun hactive => absurd hactive (by decide)⟩

variable (now) in
theorem steady_update_of_awaiting (h : Inv s) {c : TaskContext} (hc : s.heap[r]? = some c)
    (hstate : c.task.state = .awaitingInput ∨ c.task.state = .awaitingCompletion)
    (state : TaskState) : Steady none s (updateTaskStatus c.task.taskId state [] now s) := by
  apply steady_updateTaskStatus
  intro k d hk hd
  obtain rfl := Option.some.inj ((h.current r c hc).symm.trans hk)
  obtain rfl := Option.some.inj (hc.symm.trans hd)
  rcases hstate with hstate | hstate
  · rw [hstate]
    exact ⟨by decide, fun _ => by decide⟩
  · rw [hstate]
    exact ⟨by decide, fun _ => by decide⟩

theorem steady_spawn (s : World) (r : ℕ) (taskId : String) (stage : Stage) :
    Steady none s (s.spawn r taskId stage) := by
  have hmodify := steady_modify_same s r
    (f := fun c => { c with runningFuture := some s.futures.length }) fun _ => ⟨rfl, rfl⟩
  exact hmodify.trans (steady_of_heap rfl rfl)

theorem steady_onCommand (h : Inv s) (r : ℕ) : Steady none s (onCommand agent command now r s) := by
  have h' : Inv (addCommand command.target command s) := h.addCommand command.target
  have hadd := steady_addCommand command.target command s
  unfold onCommand
  cases command.command with
  | get | reStream => exact steady_of_heap rfl rfl
  | start => exact hadd
  | cancel =>
    change Steady none s (onCancel command now r s)
    unfold onCancel
    dsimp only
    split
    · exact hadd.trans (steady_of_heap rfl rfl)
    · exact hadd.trans (steady_finishCancel h'.current r)
  | complete =>
    change Steady none s (onComplete command now r s)
    unfold onComplete
    dsimp only
    split
    · exact hadd
    · next c hc =>
      split
      · next hstate => exact hadd.trans (steady_update_of_awaiting now h' hc (.inr hstate) _)
      · exact hadd
  | «continue» =>
    change Steady none s (onContinue command now r s)
    unfold onContinue
    dsimp only
    split
    · exact hadd
    · next c hc =>
      split
      · next hcond =>
        have hstate : c.task.state = .awaitingInput ∨ c.task.state = .awaitingCompletion := by
          simpa using hcond.1
        have hupdate := hadd.trans (steady_update_of_awaiting now h' hc hstate .working)
        exact hupdate.trans (steady_spawn _ _ _ _)
      · exact hadd

theorem steady_onStart_none (hnone : s.tasks command.target = none) :
    Steady none s (onStart agent command now none s) := by
  refine ⟨fun id k hk => ?_, fun k c hc _ => ⟨c, onStart_none_kept hc, rfl, rfl⟩,
    fun k c hk hc hactive => ?_⟩
  · have hne : id ≠ command.target := by
      rintro rfl
      cases hnone.symm.trans hk
    rw [onStart_none_tasks, if_neg hne]
    exact hk
  · have hlt : k < s.heap.length + 1 :=
      onStart_none_length ▸ (List.getElem?_eq_some_iff.mp hc).1
    rcases Nat.lt_succ_iff_lt_or_eq.mp hlt with hlt | rfl
    · obtain ⟨d, hd⟩ : ∃ d, s.heap[k]? = some d := ⟨_, List.getElem?_eq_getElem hlt⟩
      obtain rfl := Option.some.inj (hc.symm.trans (onStart_none_kept hd))
      exact ⟨c, hd, hactive⟩
    · rw [onStart_none_added hc] at hactive
      split at hactive
      · exact absurd hactive (by decide)
      · exact absurd hactive (by decide)

theorem steady_toTask (h : Inv s) : Steady none s (toTask agent command now s) := by
  unfold toTask
  split
  · exact steady_onCommand h _
  · next hnone =>
    split
    · exact steady_onStart_none hnone
    · exact steady_of_heap rfl rfl

end Commands

def Coroutine.accepts (c : Coroutine) (r : Resumption) : Bool :=
  match c.stage, r.entry with
  | .decisionAudit _ d, .reached => !isReject d
  | _, _ => false

def Act.accepts (s : World) : Act → Bool
  | .resume future r => (s.futures[future]?).any fun c => !c.cancelRequested && c.accepts r
  | .dispatch _ _ | .onTaskCommand _ _ _ | .onStreamStart _ _ | .resumeCancel _ _ => false

section Stages

variable {agent : Agent} {s : World} {taskId : String} {r i : ℕ}

theorem finish_inactive (hr : s.tasks taskId = some r) {state : TaskState}
    (hstate : state ∉ activeStates) (now : Time) (dataItems : List String) (c' : TaskContext)
    (hc' : (finish i taskId now state dataItems s).heap[r]? = some c') :
    c'.task.state ∉ activeStates := by
  unfold finish updateTaskStatus at hc'
  rw [hr] at hc'
  rcases getElem?_modify_eq_some.mp hc' with ⟨-, c, -, rfl⟩ | ⟨hne, -⟩
  · exact hstate
  · exact absurd rfl hne

theorem resume_inactive {c : Coroutine} (h : Held s (some i) c.taskId r .accepted)
    (hmatch : c.stage.Matches r .accepted) (hlive : c.stage ≠ .done) {res : Resumption}
    (haccepts : c.accepts res = false) (c' : TaskContext)
    (hc' : (resume agent i res c s).heap[r]? = some c') : c'.task.state ∉ activeStates := by
  have hkept (hkept : s.heap[r]? = some c') : c'.task.state ∉ activeStates := by
    obtain ⟨d, hd, -, -, hstate, -⟩ := h.context
    obtain rfl := Option.some.inj (hd.symm.trans hkept)
    rw [hstate]
    decide
  unfold Coroutine.accepts at haccepts
  unfold resume at hc'
  cases hstage : c.stage with
  | decisionCreated command =>
    simp only [hstage] at hc'
    cases hentry : res.entry with
    | reached =>
      simp only [hentry] at hc'
      exact hkept hc'
    | raised e =>
      simp only [hentry] at hc'
      exact finish_inactive h.tasks (by decide) _ _ c' hc'
    | escaped e =>
      simp only [hentry] at hc'
      exact hkept hc'
  | decisionLlm command =>
    simp only [hstage] at hc'
    split at hc'
    · split at hc'
      · exact hkept hc'
      · exact finish_inactive h.tasks (by decide) _ _ c' hc'
    · exact finish_inactive h.tasks (by decide) _ _ c' hc'
    · exact finish_inactive h.tasks (by decide) _ _ c' hc'
  | decisionAudit command d =>
    simp only [hstage] at hc' haccepts
    have hworking : (updateTaskStatus c.taskId .working [] res.now s).tasks c.taskId = some r :=
      (histories_updateTaskStatus c.taskId .working [] res.now s).tasks ▸ h.tasks
    unfold decisionMade at hc'
    split at hc'
    · split at hc'
      · exact finish_inactive h.tasks (by decide) _ _ c' hc'
      · exact finish_inactive h.tasks (by decide) _ _ c' hc'
    · next hreject =>
      unfold runAnalysisStage at hc'
      rw [hworking] at hc'
      cases hentry : res.entry with
      | reached =>
        simp [hentry, hreject] at haccepts
      | raised e =>
        simp only [hentry] at hc'
        exact finish_inactive hworking (by decide) _ _ c' hc'
      | escaped e =>
        simp only [hentry, if_true] at hc'
        exact finish_inactive hworking (by decide) _ _ c' hc'
  | analysisCreated => rw [hstage] at hmatch; cases hmatch
  | analysisLlm ctx => rw [hstage] at hmatch; cases hmatch.2
  | skill ctx skillId rest outputs => rw [hstage] at hmatch; cases hmatch.2
  | gather ctx skills => rw [hstage] at hmatch; cases hmatch.2
  | productionLlm ctx => rw [hstage] at hmatch; cases hmatch.2
  | done => exact absurd hstage hlive

theorem steady_resume (h : Inv s) (hs : Sited s) {c : Coroutine} (hc : s.futures[i]? = some c)
    (hlive : c.stage ≠ .done) (hcancel : c.cancelRequested = false) (res : Resumption) :
    ∃ admitted, Steady admitted s (resume agent i res c s) ∧
      (admitted.isSome → (Act.resume i res).accepts s = true) := by
  obtain ⟨r, state, hheld, hmatch⟩ := h.held hc hlive hcancel
  have hhistories : Histories s (resume agent i res c s) :=
    histories_resume h hc hlive hcancel res
  have hworks : Works c.taskId s (resume agent i res c s) := works_resume hs hc res
  obtain ⟨d, hd, -, -, hstate, -⟩ := hheld.context
  rcases hmatch.state hlive with rfl | rfl
  · have hopen : d.task.state ∉ terminalStates := by
      rw [hstate]
      decide
    cases haccepts : c.accepts res with
    | true =>
      refine ⟨some r, steady_of_works h hhistories hworks hheld.tasks hd hopen (.inl rfl), fun _ => ?_⟩
      change (s.futures[i]?).any _ = true
      rw [hc]
      simp [hcancel, haccepts]
    | false =>
      have hinactive (d' : TaskContext) (hd' : (resume agent i res c s).heap[r]? = some d') :
          d'.task.state ∉ activeStates := resume_inactive hheld hmatch hlive haccepts d' hd'
      exact ⟨none, steady_of_works h hhistories hworks hheld.tasks hd hopen (.inr (.inr hinactive)),
        fun hsome => by cases hsome⟩
  · refine ⟨none, steady_of_works h hhistories hworks hheld.tasks hd ?_ (.inr (.inl ?_)),
      fun hsome => by cases hsome⟩
    · rw [hstate]
      decide
    · rw [hstate]
      decide

end Stages

section Steps

variable {agent : Agent} {s t : World} {a : Act}

theorem steady_step (h : Inv s) (hs : Sited s) (hnew : NewOnStream s a)
    (ht : step agent s a = some t) :
    ∃ admitted, Steady admitted s t ∧ (admitted.isSome → a.accepts s = true) := by
  have hnone (hst : Steady none s t) :
      ∃ admitted, Steady admitted s t ∧ (admitted.isSome → a.accepts s = true) :=
    ⟨none, hst, fun hsome => by cases hsome⟩
  cases a with
  | dispatch command now =>
    obtain rfl := Option.some.inj ht
    apply hnone
    unfold dispatch
    split
    · exact steady_toTask h
    · exact steady_of_heap rfl rfl
  | onTaskCommand command isMentioned now =>
    obtain rfl := Option.some.inj ht
    apply hnone
    unfold onTaskCommand
    split
    · exact steady_toTask h
    · exact steady_of_heap rfl rfl
  | onStreamStart command now =>
    obtain rfl := Option.some.inj ht
    apply hnone
    unfold onStreamStart
    split
    · next hid => exact steady_onStart_none (hnew hid)
    · exact steady_of_heap rfl rfl
  | resume future res =>
    change resumeStep agent future res s = some t at ht
    unfold resumeStep at ht
    split at ht
    · cases ht
    · next c hc =>
      split at ht
      · cases ht
      · next hlive =>
        split at ht
        · obtain rfl := Option.some.inj ht
          exact hnone (steady_of_heap rfl rfl)
        · next hcancel =>
          obtain rfl := Option.some.inj ht
          exact steady_resume h hs hc hlive (Bool.not_eq_true _ ▸ hcancel) res
  | resumeCancel k now =>
    apply hnone
    change resumeCancelStep k now s = some t at ht
    unfold resumeCancelStep at ht
    split at ht
    · cases ht
    · next w hw =>
      split at ht
      · cases ht
      · obtain rfl := Option.some.inj ht
        have hforget := steady_modify_same s w.ctx (f := fun c => { c with runningFuture := none })
          fun _ => ⟨rfl, rfl⟩
        have herase : Steady none s { s.modify w.ctx fun c => { c with runningFuture := none } with
            cancellations := s.cancellations.eraseIdx k } :=
          hforget.trans (steady_of_heap rfl rfl)
        have hcurrent := current_modify (r := w.ctx) (f := fun c => { c with runningFuture := none })
          h.current fun _ => rfl
        refine herase.trans (steady_finishCancel ?_ w.ctx)
        exact hcurrent

theorem Inv.activeTasks_eq (h : Inv s) :
    activeTasks s = s.heap.countP fun c => c.task.state ∈ activeStates := by
  have hcount : activeTasks s =
      s.heap.zipIdx.countP ((fun c : TaskContext => decide (c.task.state ∈ activeStates)) ∘ Prod.fst) := by
    apply List.countP_congr
    rintro ⟨c, r⟩ hmem
    have hr := h.current r c (List.mem_zipIdx_iff_getElem?.mp hmem)
    simp [hr, activeStates]
  rw [hcount, ← List.countP_map, List.zipIdx_map_fst]

theorem Steady.activeTasks_le (hst : Steady none s t) (h : Inv s) (h' : Inv t) :
    activeTasks t ≤ activeTasks s := by
  rw [h.activeTasks_eq, h'.activeTasks_eq]
  apply countP_le_of_places
  intro r c' hc' hactive
  obtain ⟨c, hc, hactive'⟩ := hst.active r c' (by simp) hc' (of_decide_eq_true hactive)
  exact ⟨c, hc, decide_eq_true hactive'⟩

theorem Steady.activeTasks_le_succ {r : ℕ} (hst : Steady (some r) s t) (h : Inv s) (h' : Inv t) :
    activeTasks t ≤ activeTasks s + 1 := by
  rw [h.activeTasks_eq, h'.activeTasks_eq]
  apply countP_le_succ_of_places (i := r)
  intro k c' hk hc' hactive
  obtain ⟨c, hc, hactive'⟩ := hst.active k c' (fun hr => hk (Option.some.inj hr).symm) hc'
    (of_decide_eq_true hactive)
  exact ⟨c, hc, decide_eq_true hactive'⟩

theorem Steady.context {admitted : Option ℕ} (hst : Steady admitted s t) {taskId : String}
    {c : TaskContext} (hc : s.context taskId = some c) (hterminal : c.task.state ∈ terminalStates) :
    ∃ c', t.context taskId = some c' ∧ SameResult c c' := by
  obtain ⟨r, hr, hget⟩ := Option.bind_eq_some_iff.mp hc
  obtain ⟨c', hc', hsame⟩ := hst.settled r c hget hterminal
  refine ⟨c', ?_, hsame⟩
  rw [World.context, hst.tasks taskId r hr]
  exact hc'

end Steps

section Cancel

variable {agent : Agent} {s t : World} {a : Act} {taskId : String}

def cancelledAtOnce (command : TaskCommand) (s : World) : Option String :=
  match s.tasks command.target with
  | some ctx =>
    if command.command = .cancel ∧
        (((s.heap[ctx]?).bind TaskContext.runningFuture).filter s.running).isNone then
      some command.target
    else none
  | none => none

def Act.cancelled (s : World) : Act → Option String
  | .dispatch command _ =>
    if (command.taskId.filter (· ≠ "")).isSome then cancelledAtOnce command s else none
  | .onTaskCommand command isMentioned _ => if isMentioned then cancelledAtOnce command s else none
  | .resumeCancel cancellation _ => (s.cancellations[cancellation]?).bind fun w =>
    (s.heap[w.ctx]?).map fun c => c.task.taskId
  | .onStreamStart _ _ | .resume _ _ => none

theorem addCommand_running (command : TaskCommand) (r : ℕ) :
    ((((addCommand command.target command s).heap[r]?).bind TaskContext.runningFuture).filter
      (addCommand command.target command s).running) =
        ((s.heap[r]?).bind TaskContext.runningFuture).filter s.running := by
  unfold addCommand
  split
  · rfl
  · next k _ =>
    have hbind : ((s.heap.modify k fun c => { c with
        task := { c.task with commandHistory := c.task.commandHistory ++ [command] } })[r]?).bind
          TaskContext.runningFuture = (s.heap[r]?).bind TaskContext.runningFuture := by
      rw [List.getElem?_modify]
      cases s.heap[r]? with
      | none => rfl
      | some c =>
        by_cases hk : k = r
        · simp [hk]
        · simp [hk]
    exact congrArg (Option.filter s.running) hbind

theorem context_of_finishCancel (h : Inv s) {now : Time} {r : ℕ} (hr : s.tasks taskId = some r) :
    ∃ c, (finishCancel now r s).context taskId = some c ∧ c.task.state ∈ terminalStates := by
  obtain ⟨c, hc, hid, -⟩ := (h.task taskId).stored r hr
  obtain ⟨c', hc', hterminal, hr'⟩ := finishCancel_ended now h.current hc
  refine ⟨c', ?_, hterminal⟩
  rw [World.context, ← hid, hr']
  exact hc'

theorem toTask_cancelled (h : Inv s) {command : TaskCommand} {now : Time}
    (hcancelled : cancelledAtOnce command s = some taskId) :
    ∃ c, (toTask agent command now s).context taskId = some c ∧ c.task.state ∈ terminalStates := by
  unfold cancelledAtOnce at hcancelled
  split at hcancelled
  · next r hr =>
    split at hcancelled
    · next hcond =>
      obtain ⟨hcancel, hidle⟩ := hcond
      obtain rfl := Option.some.inj hcancelled
      have h' : Inv (addCommand command.target command s) := h.addCommand command.target
      have hr' : (addCommand command.target command s).tasks command.target = some r :=
        (steady_addCommand command.target command s).tasks _ r hr
      have hends : toTask agent command now s =
          finishCancel now r (addCommand command.target command s) := by
        unfold toTask onCommand onCancel
        rw [hr]
        simp only [hcancel]
        rw [addCommand_running, Option.isNone_iff_eq_none.mp hidle]
      rw [hends]
      exact context_of_finishCancel h' hr'
    · cases hcancelled
  · cases hcancelled

theorem step_cancelled (h : Inv s) (ht : step agent s a = some t)
    (hcancelled : a.cancelled s = some taskId) :
    ∃ c, t.context taskId = some c ∧ c.task.state ∈ terminalStates := by
  cases a with
  | dispatch command now =>
    obtain rfl := Option.some.inj ht
    simp only [Act.cancelled] at hcancelled
    unfold dispatch
    split
    · next hid =>
      rw [if_pos hid] at hcancelled
      exact toTask_cancelled h hcancelled
    · next hid =>
      rw [if_neg hid] at hcancelled
      cases hcancelled
  | onTaskCommand command isMentioned now =>
    obtain rfl := Option.some.inj ht
    simp only [Act.cancelled] at hcancelled
    unfold onTaskCommand
    split
    · next hmentioned =>
      rw [if_pos hmentioned] at hcancelled
      exact toTask_cancelled h hcancelled
    · next hmentioned =>
      rw [if_neg hmentioned] at hcancelled
      cases hcancelled
  | onStreamStart command now => cases hcancelled
  | resume future res => cases hcancelled
  | resumeCancel k now =>
    change resumeCancelStep k now s = some t at ht
    unfold resumeCancelStep at ht
    change (s.cancellations[k]?).bind _ = some taskId at hcancelled
    obtain ⟨w, hw, hid⟩ := Option.bind_eq_some_iff.mp hcancelled
    obtain ⟨c, hc, rfl⟩ := Option.map_eq_some_iff.mp hid
    rw [hw] at ht
    dsimp only at ht
    split at ht
    · cases ht
    · obtain rfl := Option.some.inj ht
      obtain ⟨c', hc', hterminal, hr⟩ := finishCancel_ended now
        (s := { s.modify w.ctx fun c => { c with runningFuture := none } with
          cancellations := s.cancellations.eraseIdx k })
        (current_modify h.current fun _ => rfl)
        (getElem?_modify_eq_some.mpr (.inl ⟨rfl, c, hc, rfl⟩))
      refine ⟨c', ?_, hterminal⟩
      rw [World.context, hr]
      exact hc'

end Cancel

def HasRoom (agent : Agent) (s : World) (a : Act) : Prop :=
  a.accepts s = true → (activeTasks s : ℤ) < agent.maxConcurrentTasks

instance (agent : Agent) (s : World) (a : Act) : Decidable (HasRoom agent s a) :=
  inferInstanceAs (Decidable (a.accepts s = true → (activeTasks s : ℤ) < agent.maxConcurrentTasks))

/-- A stream starts only tasks that are new, and a task becomes active where there is room. -/
def Careful (agent : Agent) (s : World) (a : Act) : Prop := NewOnStream s a ∧ HasRoom agent s a

structure Bounded (agent : Agent) (schedule : List Act) (t : World) : Prop where
  final : ∀ (pre post : List Act) (a : Act) (s u : World) (taskId : String),
    schedule = pre ++ a :: post → (runner agent).exec World.initial pre = some s →
    step agent s a = some u → a.cancelled s = some taskId →
    ∃ c c', u.context taskId = some c ∧ t.context taskId = some c' ∧ SameResult c c'
  oneStage : ∀ (i j : ℕ) (f g : Coroutine), t.futures[i]? = some f → t.futures[j]? = some g →
    f.taskId = g.taskId → f.stage ≠ .done → g.stage ≠ .done → i = j
  capacity : (activeTasks t : ℤ) ≤ agent.maxConcurrentTasks

section Run

variable {agent : Agent} {s t u : World}

theorem Inv.oneStage (h : Inv s) {i j : ℕ} {f g : Coroutine} (hf : s.futures[i]? = some f)
    (hg : s.futures[j]? = some g) (hid : f.taskId = g.taskId) (hflive : f.stage ≠ .done)
    (hglive : g.stage ≠ .done) : i = j := by
  obtain ⟨r, c, hr, hc, hrun, -⟩ := (h.task g.taskId).live i f hf hid hflive
  exact Option.some.inj (hrun.symm.trans ((h.task g.taskId).alone hr hc hg rfl hglive).1)

theorem capacity_step {a : Act} (h : Inv s) (hs : Sited s) (hC : Careful agent s a)
    (ht : step agent s a = some t) (hcapacity : (activeTasks s : ℤ) ≤ agent.maxConcurrentTasks) :
    (activeTasks t : ℤ) ≤ agent.maxConcurrentTasks := by
  have h' : Inv t := inv_step s a t h hC.1 ht
  obtain ⟨admitted, hst, hadmitted⟩ := steady_step h hs hC.1 ht
  cases admitted with
  | none =>
    have hle := hst.activeTasks_le h h'
    omega
  | some r =>
    have hle := hst.activeTasks_le_succ h h'
    have hroom := hC.2 (hadmitted rfl)
    omega

theorem final_of_ended {post : List Act} (h : Inv u) (hs : Sited u)
    (hmeets : (runner agent).Meets NewOnStream u post) (ht : (runner agent).exec u post = some t)
    {taskId : String} {c : TaskContext} (hc : u.context taskId = some c)
    (hterminal : c.task.state ∈ terminalStates) :
    ∃ c', t.context taskId = some c' ∧ SameResult c c' := by
  have hinv : Inv t ∧ Sited t ∧ ∃ c', t.context taskId = some c' ∧ SameResult c c' := by
    refine (runner agent).exec_invariant (C := NewOnStream)
      (I := fun v => Inv v ∧ Sited v ∧ ∃ c', v.context taskId = some c' ∧ SameResult c c') ?_
      ⟨h, hs, c, hc, rfl, rfl⟩ hmeets ht
    rintro v a v' ⟨hv, hvs, c', hc', hsame⟩ hnew hstep
    obtain ⟨admitted, hst, -⟩ := steady_step hv hvs hnew hstep
    obtain ⟨c'', hc'', hsame'⟩ := hst.context hc' (hsame.state ▸ hterminal)
    exact ⟨inv_step v a v' hv hnew hstep, sited_step hvs hstep, c'', hc'', hsame.trans hsame'⟩
  exact hinv.2.2

theorem bounded_of_careful {schedule : List Act} (hcapacity : 0 ≤ agent.maxConcurrentTasks)
    (hrun : (runner agent).exec World.initial schedule = some t)
    (hmeets : (runner agent).Meets (Careful agent) World.initial schedule) :
    Bounded agent schedule t := by
  have hreached (pre : List Act) (s : World) (hpre : (runner agent).exec World.initial pre = some s)
      (hC : (runner agent).Meets (Careful agent) World.initial pre) :
      Inv s ∧ Sited s ∧ (activeTasks s : ℤ) ≤ agent.maxConcurrentTasks := by
    refine (runner agent).exec_invariant (C := Careful agent)
      (I := fun v => Inv v ∧ Sited v ∧ (activeTasks v : ℤ) ≤ agent.maxConcurrentTasks) ?_
      ⟨inv_initial, sited_initial, hcapacity⟩ hC hpre
    rintro v a v' ⟨hv, hvs, hle⟩ hC hstep
    exact ⟨inv_step v a v' hv hC.1 hstep, sited_step hvs hstep, capacity_step hv hvs hC hstep hle⟩
  obtain ⟨hinv, -, hle⟩ := hreached schedule t hrun hmeets
  refine ⟨?_, fun i j f g => hinv.oneStage, hle⟩
  rintro pre post a s u taskId rfl hpre hstep hcancelled
  obtain ⟨hmeets', hrest⟩ := (runner agent).meets_append hmeets hpre
  obtain ⟨hs, hsited, -⟩ := hreached pre s hpre hmeets'
  have hu : Inv u := inv_step s a u hs hrest.1.1 hstep
  obtain ⟨c, hc, hterminal⟩ := step_cancelled hs hstep hcancelled
  have hpost : (runner agent).exec u post = some t := by
    rw [System.exec_append, hpre, Option.bind_some, System.exec_cons] at hrun
    change (step agent s a).bind _ = some t at hrun
    rwa [hstep, Option.bind_some] at hrun
  have hnew : (runner agent).Meets NewOnStream u post :=
    (runner agent).meets_of_invariant (I := fun _ => True) (fun _ _ _ _ _ _ => trivial)
      (fun _ _ _ hC => hC.1) trivial (hrest.2 u hstep)
  obtain ⟨c', hc', hsame⟩ := final_of_ended hu (sited_step hsited hstep) hnew hpost hc hterminal
  exact ⟨c, c', hc, hc', hsame⟩

end Run

namespace Sample

def otherStart : TaskCommand := { command .start with taskId := some "u" }

def overfull : List Act :=
  [.dispatch (command .start) 0, .dispatch otherStart 0, answer 0 (.returned ""), answer 1 (.returned ""),
    answer 0 (.returned "accept"), answer 1 (.returned "accept"), answer 0 (.returned ""),
    answer 1 (.returned "")]

def ended : List Act := started ++ [answer 0 (.failed "timeout")]

def revived : List Act :=
  ended ++ [.dispatch (command .cancel) 0, .onStreamStart (command .start) 0]

end Sample

theorem bounds_exceeded :
    (∃ t, (runner (Sample.agent 1)).exec World.initial Sample.overfull = some t ∧
      ¬ Bounded (Sample.agent 1) Sample.overfull t) ∧
    (∃ t, (runner (Sample.agent 10)).exec World.initial Sample.restarted = some t ∧
      ¬ Bounded (Sample.agent 10) Sample.restarted t) ∧
    ∃ t, (runner (Sample.agent 10)).exec World.initial Sample.revived = some t ∧
      ¬ Bounded (Sample.agent 10) Sample.revived t := by
  refine ⟨⟨_, rfl, fun h => ?_⟩, ⟨_, rfl, fun h => ?_⟩, ⟨_, rfl, fun h => ?_⟩⟩
  · exact absurd h.capacity (by decide +kernel)
  · have hsame := h.oneStage 0 1 _ _ rfl rfl rfl (by decide) (by decide)
    cases hsame
  · obtain ⟨c, c', hc, hc', hsame⟩ := h.final Sample.ended [.onStreamStart (Sample.command .start) 0]
      (.dispatch (Sample.command .cancel) 0) _ _ "t" rfl rfl rfl (by decide +kernel)
    cases hc
    cases hc'
    cases hsame.1

theorem cancelled_bounded :
    ∃ t, (runner (Sample.agent 10)).exec World.initial Sample.cancelled = some t ∧
      Bounded (Sample.agent 10) Sample.cancelled t := by
  refine ⟨_, rfl, bounded_of_careful (by decide) rfl ?_⟩
  exact (runner (Sample.agent 10)).meets_of_check
    (c := fun s a => decide (NewOnStream s a) && decide (HasRoom (Sample.agent 10) s a))
    (fun _ _ h => ⟨of_decide_eq_true (Bool.and_eq_true_iff.mp h).1,
      of_decide_eq_true (Bool.and_eq_true_iff.mp h).2⟩) (by decide +kernel)

end Acps.Partner
