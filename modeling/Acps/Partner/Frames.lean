import Acps.Partner.Histories

/-!
What the work on one task leaves as it is: the other tasks, and to which task each context belongs.
-/

namespace Acps.Partner

open Slots

def World.Holds (s : World) (r : ℕ) (taskId : String) : Prop :=
  ∃ c : TaskContext, s.heap[r]? = some c ∧ c.task.taskId = taskId

def Stage.held : Stage → Option ℕ
  | .analysisLlm ctx | .skill ctx _ _ _ | .gather ctx _ | .productionLlm ctx => some ctx
  | .decisionCreated _ | .decisionLlm _ | .decisionAudit _ _ | .analysisCreated | .done => none

structure Sited (s : World) : Prop where
  stored : ∀ (taskId : String) (r : ℕ), s.tasks taskId = some r → s.Holds r taskId
  held : ∀ (i : ℕ) (f : Coroutine), s.futures[i]? = some f → ∀ r ∈ f.stage.held, s.Holds r f.taskId
  waiting : ∀ w ∈ s.cancellations, ∃ taskId, s.Holds w.ctx taskId

theorem sited_initial : Sited World.initial where
  stored := fun taskId r hr => by cases hr
  held := fun i f hf => by cases hf
  waiting := fun w hw => by cases hw

structure Works (taskId : String) (s t : World) : Prop where
  tasks : ∀ id, id ≠ taskId → t.tasks id = s.tasks id
  kept : ∀ (r : ℕ) (c : TaskContext), s.heap[r]? = some c → ∃ c', t.heap[r]? = some c' ∧
    c'.task.taskId = c.task.taskId ∧ (c.task.taskId ≠ taskId → c' = c)
  stored : ∀ r, t.tasks taskId = some r → s.tasks taskId = some r ∨ t.Holds r taskId
  held : ∀ (i : ℕ) (f' : Coroutine), t.futures[i]? = some f' →
    (∃ f, s.futures[i]? = some f ∧ f'.taskId = f.taskId ∧ f'.stage = f.stage) ∨
      ∀ r ∈ f'.stage.held, t.Holds r f'.taskId
  waiting : ∀ w ∈ t.cancellations, w ∈ s.cancellations ∨ ∃ id, t.Holds w.ctx id

section Works

variable {taskId : String} {s t u : World} {r : ℕ}

theorem Works.holds (h : Works taskId s t) {id : String} (hr : s.Holds r id) : t.Holds r id := by
  obtain ⟨c, hc, hid⟩ := hr
  obtain ⟨c', hc', hid', -⟩ := h.kept r c hc
  exact ⟨c', hc', hid'.trans hid⟩

theorem works_of_heap (hheap : t.heap = s.heap) (htasks : t.tasks = s.tasks)
    (hfutures : t.futures = s.futures) (hwaiting : ∀ w ∈ t.cancellations, w ∈ s.cancellations) :
    Works taskId s t where
  tasks := fun id _ => by rw [htasks]
  kept := fun r c hc => ⟨c, hheap ▸ hc, rfl, fun _ => rfl⟩
  stored := fun r hr => .inl (htasks ▸ hr)
  held := fun i f hf => .inl ⟨f, hfutures ▸ hf, rfl, rfl⟩
  waiting := fun w hw => .inl (hwaiting w hw)

theorem works_refl (s : World) : Works taskId s s :=
  works_of_heap rfl rfl rfl fun _ hw => hw

theorem Works.trans (h : Works taskId s t) (h' : Works taskId t u) : Works taskId s u := by
  refine ⟨fun id hne => (h'.tasks id hne).trans (h.tasks id hne), fun r c hc => ?_, fun r hr => ?_,
    fun i f hf => ?_, fun w hw => ?_⟩
  · obtain ⟨c', hc', hid', hsame'⟩ := h.kept r c hc
    obtain ⟨c'', hc'', hid'', hsame''⟩ := h'.kept r c' hc'
    refine ⟨c'', hc'', hid''.trans hid', fun hne => ?_⟩
    rw [hsame'' (hid' ▸ hne), hsame' hne]
  · rcases h'.stored r hr with hr | hr
    · exact (h.stored r hr).imp_right h'.holds
    · exact .inr hr
  · rcases h'.held i f hf with ⟨f', hf', hid, hstage⟩ | hheld
    · rcases h.held i f' hf' with ⟨f'', hf'', hid', hstage'⟩ | hheld
      · exact .inl ⟨f'', hf'', hid.trans hid', hstage.trans hstage'⟩
      · refine .inr fun r hr => ?_
        rw [hid]
        exact h'.holds (hheld r (hstage ▸ hr))
    · exact .inr hheld
  · rcases h'.waiting w hw with hw | hw
    · exact (h.waiting w hw).imp_right fun ⟨id, hid⟩ => ⟨id, h'.holds hid⟩
    · exact .inr hw

theorem Works.sited (h : Works taskId s t) (hs : Sited s) : Sited t := by
  refine ⟨fun id r hr => ?_, fun i f hf r hr => ?_, fun w hw => ?_⟩
  · by_cases hid : id = taskId
    · subst hid
      rcases h.stored r hr with hr | hr
      · exact h.holds (hs.stored id r hr)
      · exact hr
    · rw [h.tasks id hid] at hr
      exact h.holds (hs.stored id r hr)
  · rcases h.held i f hf with ⟨f', hf', hid, hstage⟩ | hheld
    · rw [hid]
      exact h.holds (hs.held i f' hf' r (hstage ▸ hr))
    · exact hheld r hr
  · rcases h.waiting w hw with hw | hw
    · obtain ⟨id, hid⟩ := hs.waiting w hw
      exact ⟨id, h.holds hid⟩
    · exact hw

theorem Works.context (h : Works taskId s t) (hs : Sited s) {id : String} (hne : id ≠ taskId) :
    t.context id = s.context id := by
  unfold World.context
  rw [h.tasks id hne]
  cases hr : s.tasks id with
  | none => rfl
  | some r =>
    obtain ⟨c, hc, hid⟩ := hs.stored id r hr
    obtain ⟨c', hc', -, hsame⟩ := h.kept r c hc
    rw [Option.bind_some, Option.bind_some, hc, hc', hsame (hid ▸ hne)]

theorem works_modify (hr : s.Holds r taskId) {f : TaskContext → TaskContext}
    (hf : ∀ c, (f c).task.taskId = c.task.taskId) : Works taskId s (s.modify r f) := by
  refine ⟨fun _ _ => rfl, fun k c hc => ?_, fun _ hr => .inl hr, fun _ f hf => .inl ⟨f, hf, rfl, rfl⟩,
    fun _ hw => .inl hw⟩
  by_cases hk : r = k
  · subst hk
    obtain ⟨d, hd, hid⟩ := hr
    obtain rfl := Option.some.inj (hd.symm.trans hc)
    exact ⟨f d, getElem?_modify_eq_some.mpr (.inl ⟨rfl, d, hd, rfl⟩), hf d, fun hne => absurd hid hne⟩
  · exact ⟨c, getElem?_modify_eq_some.mpr (.inr ⟨hk, hc⟩), rfl, fun _ => rfl⟩

theorem works_setStage {future : ℕ} {stage : Stage}
    (hstage : ∀ r ∈ stage.held, ∀ f, s.futures[future]? = some f → s.Holds r f.taskId) :
    Works taskId s (s.setStage future stage) := by
  refine ⟨fun _ _ => rfl, fun _ c hc => ⟨c, hc, rfl, fun _ => rfl⟩, fun _ hr => .inl hr,
    fun i f hf => ?_, fun _ hw => .inl hw⟩
  rcases getElem?_modify_eq_some.mp hf with ⟨rfl, f', hf', rfl⟩ | ⟨-, hf⟩
  · exact .inr fun r hr => hstage r hr f' hf'
  · exact .inl ⟨f, hf, rfl, rfl⟩

theorem works_done (future : ℕ) (s : World) : Works taskId s (s.setStage future .done) :=
  works_setStage fun r hr => by cases hr

theorem works_updateTaskStatus (hat : ∀ r, s.tasks taskId = some r → s.Holds r taskId)
    (state : TaskState) (dataItems : List String) (now : Time) :
    Works taskId s (updateTaskStatus taskId state dataItems now s) := by
  unfold updateTaskStatus
  split
  · exact works_refl s
  · next r hr =>
    have hmodify := works_modify (f := TaskContext.setStatus
      { state, stateChangedAt := now, dataItems }) (hat r hr) fun _ => rfl
    exact hmodify.trans (works_of_heap rfl rfl rfl fun _ hw => hw)

theorem works_addCommand (hat : ∀ r, s.tasks taskId = some r → s.Holds r taskId)
    (command : TaskCommand) : Works taskId s (addCommand taskId command s) := by
  unfold addCommand
  split
  · exact works_refl s
  · next r hr => exact works_modify (hat r hr) fun _ => rfl

theorem works_spawn (hr : s.Holds r taskId) {stage : Stage} (hheld : stage.held = none)
    (id : String) : Works taskId s (s.spawn r id stage) := by
  have hmodify := works_modify (f := fun c => { c with runningFuture := some s.futures.length })
    hr fun _ => rfl
  refine ⟨hmodify.tasks, hmodify.kept, hmodify.stored, fun i f hf => ?_, fun _ hw => .inl hw⟩
  rcases getElem?_concat_eq_some.mp hf with hf | ⟨-, rfl⟩
  · exact .inl ⟨f, hf, rfl, rfl⟩
  · refine .inr fun r hr => ?_
    rw [hheld] at hr
    cases hr

theorem Works.of_stored (h : Works taskId s t) (hat : ∀ r, s.tasks taskId = some r → s.Holds r taskId) :
    ∀ r, t.tasks taskId = some r → t.Holds r taskId := by
  intro r hr
  rcases h.stored r hr with hr | hr
  · exact h.holds (hat r hr)
  · exact hr

theorem works_store {c : TaskContext} (hid : c.task.taskId = taskId) : Works taskId s (s.store c) := by
  have hheap : ∀ (k : ℕ) (d : TaskContext), s.heap[k]? = some d → (s.heap ++ [c])[k]? = some d :=
    fun k d hd => (List.getElem?_append_left (List.getElem?_eq_some_iff.mp hd).1).trans hd
  refine ⟨fun id hne => if_neg (hid ▸ hne), fun k d hd => ⟨d, hheap k d hd, rfl, fun _ => rfl⟩,
    fun r hr => .inr ?_, fun i f hf => .inl ⟨f, hf, rfl, rfl⟩, fun _ hw => .inl hw⟩
  change (if taskId = c.task.taskId then some s.heap.length else s.tasks taskId) = some r at hr
  rw [if_pos hid.symm] at hr
  obtain rfl := Option.some.inj hr
  exact ⟨c, List.getElem?_concat_length, hid⟩

end Works

section Stages

variable {agent : Agent} {taskId : String} {s : World} {r future : ℕ}
  (hat : ∀ r, s.tasks taskId = some r → s.Holds r taskId)
  (hruns : ∀ f, s.futures[future]? = some f → f.taskId = taskId)

theorem futures_updateTaskStatus (taskId : String) (state : TaskState) (dataItems : List String)
    (now : Time) (s : World) : (updateTaskStatus taskId state dataItems now s).futures = s.futures := by
  unfold updateTaskStatus
  split <;> rfl

include hat

theorem works_finish (future : ℕ) (now : Time) (state : TaskState) (dataItems : List String) :
    Works taskId s (finish future taskId now state dataItems s) :=
  (works_updateTaskStatus hat state dataItems now).trans (works_done future _)

theorem works_produced (hr : s.Holds r taskId) (future : ℕ) (now : Time) (output : String) :
    Works taskId s (produced future taskId now r output s) := by
  have hmodify := works_modify (f := fun c => { c with
    task := { c.task with products := some [{ id := now, dataItems := [output] }] } }) hr fun _ => rfl
  exact hmodify.trans (works_finish (hmodify.of_stored hat) future now _ _)

include hruns

theorem works_runProductionStage (hr : s.Holds r taskId) (now : Time) (entry : Entry) :
    Works taskId s (runProductionStage agent future taskId now r entry s) := by
  have hmodify (requirements : Option JsonObject) :
      Works taskId s (s.modify r fun c => { c with requirements }) := works_modify hr fun _ => rfl
  have hstage (requirements : Option JsonObject) {stage : Stage} (hheld : stage.held = some r) :
      Works taskId s ((s.modify r fun c => { c with requirements }).setStage future stage) := by
    refine (hmodify requirements).trans (works_setStage fun k hk f hf => ?_)
    obtain rfl : r = k := Option.some.inj (hheld.symm.trans hk)
    rw [hruns f hf]
    exact (hmodify requirements).holds hr
  unfold runProductionStage
  split
  · split
    · exact works_refl s
    · dsimp only
      split
      · exact (hmodify _).trans (works_produced ((hmodify _).of_stored hat) ((hmodify _).holds hr) _ _ _)
      · split
        · exact hstage _ rfl
        · exact hstage _ rfl
  · split
    · refine works_setStage fun k hk f hf => ?_
      obtain rfl : r = k := Option.some.inj hk
      rw [hruns f hf]
      exact hr
    · exact works_finish hat _ _ _ _
    · exact works_finish hat _ _ _ _

theorem works_runAnalysisStage (now : Time) (nested : Bool) (entry : Entry) :
    Works taskId s (runAnalysisStage future taskId now nested entry s) := by
  unfold runAnalysisStage
  split
  · next r hr =>
    refine works_setStage fun k hk f hf => ?_
    obtain rfl : r = k := Option.some.inj hk
    rw [hruns f hf]
    exact hat r hr
  · exact works_finish hat _ _ _ _
  · split
    · exact works_finish hat _ _ _ _
    · exact works_done _ _
  · exact works_refl s

theorem works_decisionMade (now : Time) (d : Decision) (entry : Entry) :
    Works taskId s (decisionMade agent future taskId now d entry s) := by
  have hupdate := works_updateTaskStatus hat .working [] now
  unfold decisionMade
  split
  · split
    · exact works_finish hat _ _ _ _
    · exact works_finish hat _ _ _ _
  · refine hupdate.trans (works_runAnalysisStage (hupdate.of_stored hat) (fun f hf => ?_) _ _ _)
    rw [futures_updateTaskStatus] at hf
    exact hruns f hf

theorem works_analysisMade (hr : s.Holds r taskId) (now : Time) (content : String) (entry : Entry) :
    Works taskId s (analysisMade agent future taskId now r content entry s) := by
  have hmodify (requirements : Option JsonObject) :
      Works taskId s (s.modify r fun c => { c with requirements }) := works_modify hr fun _ => rfl
  unfold analysisMade
  split
  · exact works_refl s
  · dsimp only
    split
    · exact (hmodify _).trans (works_finish ((hmodify _).of_stored hat) _ _ _ _)
    · exact (hmodify _).trans (works_runProductionStage ((hmodify _).of_stored hat) hruns
        ((hmodify _).holds hr) _ _)
    · exact (hmodify _).trans (works_finish ((hmodify _).of_stored hat) _ _ _ _)

theorem works_skillMade (hr : s.Holds r taskId) (now : Time) (skillId : String)
    (rest outputs : List String) (awaited : Awaited) :
    Works taskId s (skillMade agent future taskId now r skillId rest outputs awaited s) := by
  unfold skillMade
  split
  · exact works_finish hat _ _ _ _
  · split
    · refine works_setStage fun k hk f hf => ?_
      obtain rfl : r = k := Option.some.inj hk
      rw [hruns f hf]
      exact hr
    · exact works_produced hat hr _ _ _

end Stages

section Commands

variable {agent : Agent} {s t : World} {command : TaskCommand} {now : Time} {r : ℕ}

theorem works_resume (h : Sited s) {i : ℕ} {c : Coroutine} (hc : s.futures[i]? = some c)
    (res : Resumption) : Works c.taskId s (resume agent i res c s) := by
  have hat := h.stored c.taskId
  have hruns : ∀ f, s.futures[i]? = some f → f.taskId = c.taskId := fun f hf => by
    rw [Option.some.inj (hf.symm.trans hc)]
  have hheld := h.held i c hc
  unfold resume
  cases hstage : c.stage with
  | decisionCreated command =>
    cases res.entry with
    | reached => exact works_setStage fun r hr => by cases hr
    | raised e => exact works_finish hat _ _ _ _
    | escaped e => exact works_done _ _
  | decisionLlm command =>
    cases res.awaited with
    | returned content =>
      dsimp only
      split
      · exact works_setStage fun r hr => by cases hr
      · exact works_finish hat _ _ _ _
    | failed e => exact works_finish hat _ _ _ _
    | raised e => exact works_finish hat _ _ _ _
  | decisionAudit command d => exact works_decisionMade hat hruns _ _ _
  | analysisCreated => exact works_runAnalysisStage hat hruns _ _ _
  | analysisLlm ctx =>
    have hr := hheld ctx (by rw [hstage]; rfl)
    cases res.awaited with
    | returned content => exact works_analysisMade hat hruns hr _ _ _
    | failed e => exact works_finish hat _ _ _ _
    | raised e => exact works_finish hat _ _ _ _
  | skill ctx skillId rest outputs =>
    exact works_skillMade hat hruns (hheld ctx (by rw [hstage]; rfl)) _ _ _ _ _
  | gather ctx skills =>
    have hr := hheld ctx (by rw [hstage]; rfl)
    cases res.results with
    | some results => exact works_produced hat hr _ _ _
    | none => exact works_produced hat hr _ _ _
  | productionLlm ctx =>
    have hr := hheld ctx (by rw [hstage]; rfl)
    cases res.awaited with
    | returned content => exact works_produced hat hr _ _ _
    | failed e => exact works_finish hat _ _ _ _
    | raised e => exact works_finish hat _ _ _ _
  | done => exact works_refl s

theorem works_onStart_none (command : TaskCommand) (now : Time) (s : World) :
    Works command.target s (onStart agent command now none s) := by
  unfold onStart
  simp only [Option.isSome_none, Bool.false_eq_true, if_false]
  split
  · exact (works_store (c := rejectedTask agent command now) rfl).trans
      (works_of_heap rfl rfl rfl fun _ hw => hw)
  · have hstore := works_store (s := s) (c := acceptedTask agent command now) rfl
    have hr : (s.store (acceptedTask agent command now)).Holds s.heap.length command.target :=
      ⟨_, List.getElem?_concat_length, rfl⟩
    exact (hstore.trans (works_spawn hr rfl command.target)).trans
      (works_of_heap rfl rfl rfl fun _ hw => hw)

theorem works_finishCancel {taskId : String} (h : Sited s) (hr : s.Holds r taskId) :
    Works taskId s (finishCancel now r s) := by
  obtain ⟨c, hc, rfl⟩ := hr
  unfold finishCancel
  rw [hc]
  dsimp only
  split
  · exact works_refl s
  · exact works_updateTaskStatus (h.stored _) _ _ _

theorem works_onCommand (h : Sited s) (hr : s.tasks command.target = some r) :
    Works command.target s (onCommand agent command now r s) := by
  have hadd := works_addCommand (h.stored command.target) command
  have hholds := hadd.holds (h.stored _ r hr)
  obtain ⟨d, hd, hid⟩ := hholds
  unfold onCommand
  cases command.command with
  | get | reStream => exact works_refl s
  | start => exact hadd
  | cancel =>
    change Works _ s (onCancel command now r s)
    unfold onCancel
    dsimp only
    split
    · refine hadd.trans ⟨fun _ _ => rfl, fun _ c hc => ⟨c, hc, rfl, fun _ => rfl⟩, fun _ hr => .inl hr,
        fun i f hf => .inl ?_, fun w hw => ?_⟩
      · rcases getElem?_modify_eq_some.mp hf with ⟨-, f', hf', rfl⟩ | ⟨-, hf⟩
        · exact ⟨f', hf', rfl, rfl⟩
        · exact ⟨f, hf, rfl, rfl⟩
      · rcases List.mem_append.mp hw with hw | hw
        · exact .inl hw
        · obtain rfl := List.mem_singleton.mp hw
          exact .inr ⟨_, d, hd, hid⟩
    · exact hadd.trans (works_finishCancel (hadd.sited h) ⟨d, hd, hid⟩)
  | complete =>
    change Works _ s (onComplete command now r s)
    unfold onComplete
    dsimp only
    rw [hd]
    dsimp only
    split
    · rw [hid]
      exact hadd.trans (works_updateTaskStatus (hadd.of_stored (h.stored _)) _ _ _)
    · exact hadd
  | «continue» =>
    change Works _ s (onContinue command now r s)
    unfold onContinue
    dsimp only
    rw [hd]
    dsimp only
    split
    · rw [hid]
      have hupdate := hadd.trans (works_updateTaskStatus (hadd.of_stored (h.stored _)) .working [] now)
      exact hupdate.trans (works_spawn (hupdate.holds (h.stored _ r hr)) rfl _)
    · exact hadd

theorem works_toTask (h : Sited s) (command : TaskCommand) (now : Time) :
    Works command.target s (toTask agent command now s) := by
  unfold toTask
  split
  · next r hr => exact works_onCommand h hr
  · split
    · exact works_onStart_none command now s
    · exact works_refl s

end Commands

def Act.task (s : World) : Act → Option String
  | .dispatch command _ | .onStreamStart command _ => some command.target
  | .onTaskCommand command isMentioned _ => if isMentioned then some command.target else none
  | .resume future _ => (s.futures[future]?).map Coroutine.taskId
  | .resumeCancel cancellation _ => (s.cancellations[cancellation]?).bind fun w =>
    (s.heap[w.ctx]?).map fun c => c.task.taskId

section Steps

variable {agent : Agent} {s t : World} {a : Act}

theorem works_step (h : Sited s) (ht : step agent s a = some t) :
    t = s ∨ ∃ taskId, a.task s = some taskId ∧ Works taskId s t := by
  cases a with
  | dispatch command now =>
    obtain rfl := Option.some.inj ht
    unfold dispatch
    split
    · exact .inr ⟨_, rfl, works_toTask h command now⟩
    · exact .inl rfl
  | onTaskCommand command isMentioned now =>
    obtain rfl := Option.some.inj ht
    unfold onTaskCommand
    split
    · next hmentioned => exact .inr ⟨_, if_pos hmentioned, works_toTask h command now⟩
    · exact .inl rfl
  | onStreamStart command now =>
    obtain rfl := Option.some.inj ht
    unfold onStreamStart
    split
    · exact .inr ⟨_, rfl, works_onStart_none command now s⟩
    · exact .inl rfl
  | resume future res =>
    change resumeStep agent future res s = some t at ht
    unfold resumeStep at ht
    split at ht
    · cases ht
    · next c hc =>
      refine .inr ⟨c.taskId, congrArg (Option.map Coroutine.taskId) hc, ?_⟩
      split at ht
      · cases ht
      · split at ht
        · obtain rfl := Option.some.inj ht
          exact works_done _ _
        · obtain rfl := Option.some.inj ht
          exact works_resume h hc res
  | resumeCancel cancellation now =>
    change resumeCancelStep cancellation now s = some t at ht
    unfold resumeCancelStep at ht
    split at ht
    · cases ht
    · next w hw =>
      split at ht
      · cases ht
      · obtain rfl := Option.some.inj ht
        obtain ⟨id, c, hc, rfl⟩ := h.waiting w (List.mem_of_getElem? hw)
        have hforget := works_modify (f := fun c => { c with runningFuture := none })
          (show s.Holds w.ctx c.task.taskId from ⟨c, hc, rfl⟩) fun _ => rfl
        have herase : Works c.task.taskId s
            { s.modify w.ctx fun c => { c with runningFuture := none } with
              cancellations := s.cancellations.eraseIdx cancellation } :=
          hforget.trans (works_of_heap rfl rfl rfl fun _ hw => List.mem_of_mem_eraseIdx hw)
        refine .inr ⟨c.task.taskId, ?_, herase.trans
          (works_finishCancel (herase.sited h) (herase.holds ⟨c, hc, rfl⟩))⟩
        change (s.cancellations[cancellation]?).bind _ = _
        rw [hw, Option.bind_some, hc]
        rfl

theorem sited_step (h : Sited s) (ht : step agent s a = some t) : Sited t := by
  rcases works_step h ht with rfl | ⟨taskId, -, hworks⟩
  · exact h
  · exact hworks.sited h

end Steps

end Acps.Partner
