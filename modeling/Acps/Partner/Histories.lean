import Acps.Partner.Conformance

/-!
The histories of a task only grow, and a task does not change without them.
-/

namespace Acps.Partner

open Slots Transition

/-- A change of a task, with the commands and the statuses that it adds. The last of them is the
status of the task. -/
def Grown (c c' : TaskContext) : Prop :=
  ∃ (commands : List TaskCommand) (statuses : List TaskStatus),
    c'.task.commandHistory = c.task.commandHistory ++ commands ∧
    c'.task.statusHistory = c.task.statusHistory ++ statuses ∧
    c'.task.status = statuses.getLast?.getD c.task.status ∧
    c'.task.taskId = c.task.taskId ∧
    (commands = [] → statuses = [] → c'.task = c.task)

theorem grown_of_eq {c c' : TaskContext} (h : c'.task = c.task) : Grown c c' :=
  ⟨[], [], by rw [h, List.append_nil], by rw [h, List.append_nil], by rw [h]; rfl, by rw [h],
    fun _ _ => h⟩

theorem Grown.trans {c c' c'' : TaskContext} (h : Grown c c') (h' : Grown c' c'') : Grown c c'' := by
  obtain ⟨commands, statuses, hcommands, hstatuses, hstatus, hid, hsame⟩ := h
  obtain ⟨commands', statuses', hcommands', hstatuses', hstatus', hid', hsame'⟩ := h'
  refine ⟨commands ++ commands', statuses ++ statuses', ?_, ?_, ?_, hid'.trans hid, ?_⟩
  · rw [hcommands', hcommands, List.append_assoc]
  · rw [hstatuses', hstatuses, List.append_assoc]
  · rw [hstatus', hstatus, List.getLast?_append]
    cases statuses'.getLast? <;> rfl
  · intro hc hs
    obtain ⟨hc, hc'⟩ := List.append_eq_nil_iff.mp hc
    obtain ⟨hs, hs'⟩ := List.append_eq_nil_iff.mp hs
    exact (hsame' hc' hs').trans (hsame hc hs)

theorem grown_setStatus (c : TaskContext) (status : TaskStatus) : Grown c (c.setStatus status) :=
  ⟨[], [status], (List.append_nil _).symm, rfl, rfl, rfl, fun _ h => by cases h⟩

structure Histories (s t : World) : Prop where
  tasks : t.tasks = s.tasks
  length : t.heap.length = s.heap.length
  kept : ∀ (r : ℕ) (c : TaskContext), s.heap[r]? = some c → ∃ c', t.heap[r]? = some c' ∧ Grown c c'

section Operations

variable {s t : World}

theorem histories_of_heap (h : t.heap = s.heap) (htasks : t.tasks = s.tasks) : Histories s t :=
  ⟨htasks, congrArg List.length h, fun _ c hc => ⟨c, h ▸ hc, grown_of_eq rfl⟩⟩

theorem Histories.trans {u : World} (h : Histories s t) (h' : Histories t u) : Histories s u := by
  refine ⟨h'.tasks.trans h.tasks, h'.length.trans h.length, fun r c hc => ?_⟩
  obtain ⟨c', hc', hgrown⟩ := h.kept r c hc
  obtain ⟨c'', hc'', hgrown'⟩ := h'.kept r c' hc'
  exact ⟨c'', hc'', hgrown.trans hgrown'⟩

theorem histories_modify (s : World) (k : ℕ) {f : TaskContext → TaskContext}
    (hf : ∀ c, s.heap[k]? = some c → Grown c (f c)) : Histories s (s.modify k f) := by
  refine ⟨rfl, List.length_modify .., fun r c hc => ?_⟩
  by_cases hk : k = r
  · subst hk
    exact ⟨f c, getElem?_modify_eq_some.mpr (.inl ⟨rfl, c, hc, rfl⟩), hf c hc⟩
  · exact ⟨c, getElem?_modify_eq_some.mpr (.inr ⟨hk, hc⟩), grown_of_eq rfl⟩

theorem histories_updateTaskStatus (taskId : String) (state : TaskState) (dataItems : List String)
    (now : Time) (s : World) : Histories s (updateTaskStatus taskId state dataItems now s) := by
  unfold updateTaskStatus
  split
  · exact histories_of_heap rfl rfl
  · rename_i ctx _
    have hmodify := histories_modify s ctx fun c _ => grown_setStatus c
      { state, stateChangedAt := now, dataItems }
    exact ⟨hmodify.tasks, hmodify.length, hmodify.kept⟩

theorem histories_addCommand (taskId : String) (command : TaskCommand) (s : World) :
    Histories s (addCommand taskId command s) := by
  unfold addCommand
  split
  · exact histories_of_heap rfl rfl
  · exact histories_modify s _ fun c _ => ⟨[command], [], rfl, (List.append_nil _).symm, rfl, rfl,
      fun h => by cases h⟩

theorem histories_finish (future : ℕ) (taskId : String) (now : Time) (state : TaskState)
    (dataItems : List String) (s : World) :
    Histories s (finish future taskId now state dataItems s) :=
  have h := histories_updateTaskStatus taskId state dataItems now s
  ⟨h.tasks, h.length, h.kept⟩

theorem histories_produced {r : ℕ} {taskId : String} (htasks : s.tasks taskId = some r) (future : ℕ)
    (now : Time) (output : String) : Histories s (produced future taskId now r output s) := by
  unfold produced finish updateTaskStatus
  have htasks' : (s.modify r fun c => { c with
      task := { c.task with products := some [{ id := now, dataItems := [output] }] } }).tasks
        taskId = some r := htasks
  rw [htasks']
  refine ⟨rfl, by simp [World.modify, World.setStage], fun k c hc => ?_⟩
  by_cases hk : r = k
  · subst hk
    refine ⟨_, getElem?_modify_eq_some.mpr (.inl ⟨rfl, _,
      getElem?_modify_eq_some.mpr (.inl ⟨rfl, c, hc, rfl⟩), rfl⟩), ?_⟩
    exact ⟨[], _, (List.append_nil _).symm, rfl, rfl, rfl, fun _ h => by cases h⟩
  · exact ⟨c, getElem?_modify_eq_some.mpr (.inr ⟨hk, getElem?_modify_eq_some.mpr (.inr ⟨hk, hc⟩)⟩),
      grown_of_eq rfl⟩

theorem histories_spawn (s : World) (r : ℕ) (taskId : String) (stage : Stage) :
    Histories s (s.spawn r taskId stage) :=
  have h := histories_modify s r (f := fun c => { c with runningFuture := some s.futures.length })
    fun _ _ => grown_of_eq rfl
  ⟨h.tasks, h.length, h.kept⟩

end Operations

section Stages

variable {agent : Agent} {s : World} {taskId : String} {r : ℕ}

theorem histories_setRequirements (s : World) (r : ℕ) (requirements : Option JsonObject) :
    Histories s (s.modify r fun c => { c with requirements }) :=
  histories_modify s r fun _ _ => grown_of_eq rfl

theorem histories_runProductionStage (htasks : s.tasks taskId = some r) (future : ℕ) (now : Time)
    (entry : Entry) : Histories s (runProductionStage agent future taskId now r entry s) := by
  unfold runProductionStage
  split
  · split
    · exact histories_of_heap rfl rfl
    · rename_i c _
      have hset := histories_setRequirements s r
        (some (normalizeRequirements agent (c.requirements.getD [])).requirements)
      cases hskills : (normalizeRequirements agent (c.requirements.getD [])).skills with
      | nil =>
        simp only [hskills]
        exact hset.trans (histories_produced (s := s.modify r _) htasks future now _)
      | cons skillId rest =>
        simp only [hskills]
        split
        · exact hset.trans (histories_of_heap rfl rfl)
        · exact hset.trans (histories_of_heap rfl rfl)
  · cases entry with
    | reached => exact histories_of_heap rfl rfl
    | raised e => exact histories_finish _ _ _ _ _ _
    | escaped e => exact histories_finish _ _ _ _ _ _

theorem histories_runAnalysisStage (future : ℕ) (now : Time) (nested : Bool) (entry : Entry)
    (s : World) : Histories s (runAnalysisStage future taskId now nested entry s) := by
  unfold runAnalysisStage
  split
  · exact histories_of_heap rfl rfl
  · exact histories_finish _ _ _ _ _ _
  · split
    · exact histories_finish _ _ _ _ _ _
    · exact histories_of_heap rfl rfl
  · exact histories_of_heap rfl rfl

theorem histories_decisionMade (future : ℕ) (now : Time) (d : Decision) (entry : Entry) (s : World) :
    Histories s (decisionMade agent future taskId now d entry s) := by
  unfold decisionMade
  split
  · split
    · exact histories_finish _ _ _ _ _ _
    · exact histories_finish _ _ _ _ _ _
  · exact (histories_updateTaskStatus taskId .working [] now s).trans
      (histories_runAnalysisStage future now true entry _)

theorem histories_analysisMade (htasks : s.tasks taskId = some r) (future : ℕ) (now : Time)
    (content : String) (entry : Entry) :
    Histories s (analysisMade agent future taskId now r content entry s) := by
  unfold analysisMade
  split
  · exact histories_of_heap rfl rfl
  · rename_i c _
    have hset := histories_setRequirements s r (analyse agent c.requirements content).1
    cases hverdict : (analyse agent c.requirements content).2 with
    | error e =>
      simp only [hverdict]
      exact hset.trans (histories_finish _ _ _ _ _ _)
    | ok v =>
      cases v with
      | awaitingInput text =>
        simp only [hverdict]
        exact hset.trans (histories_finish _ _ _ _ _ _)
      | complete =>
        simp only [hverdict]
        exact hset.trans (histories_runProductionStage (s := s.modify r _) htasks future now entry)

theorem histories_skillMade (htasks : s.tasks taskId = some r) (future : ℕ) (now : Time)
    (skillId : String) (rest outputs : List String) (awaited : Awaited) :
    Histories s (skillMade agent future taskId now r skillId rest outputs awaited s) := by
  unfold skillMade
  split
  · exact histories_finish _ _ _ _ _ _
  · split
    · exact histories_of_heap rfl rfl
    · exact histories_produced htasks future now _

theorem histories_resume (h : Inv s) {i : ℕ} {c : Coroutine} (hc : s.futures[i]? = some c)
    (hlive : c.stage ≠ .done) (hcancel : c.cancelRequested = false) (res : Resumption) :
    Histories s (resume agent i res c s) := by
  obtain ⟨r, state, hheld, hmatch⟩ := h.held hc hlive hcancel
  have htasks := hheld.tasks
  unfold resume
  cases hstage : c.stage with
  | decisionCreated command =>
    cases res.entry with
    | reached => exact histories_of_heap rfl rfl
    | raised e => exact histories_finish _ _ _ _ _ _
    | escaped e => exact histories_of_heap rfl rfl
  | decisionLlm command =>
    cases res.awaited with
    | returned content =>
      cases hdecision : decisionOf agent content with
      | ok d =>
        simp only [hdecision]
        exact histories_of_heap rfl rfl
      | error e =>
        simp only [hdecision]
        exact histories_finish _ _ _ _ _ _
    | failed e => exact histories_finish _ _ _ _ _ _
    | raised e => exact histories_finish _ _ _ _ _ _
  | decisionAudit command d => exact histories_decisionMade i res.now d res.entry s
  | analysisCreated => exact histories_runAnalysisStage i res.now false res.entry s
  | analysisLlm ctx =>
    rw [hstage] at hmatch
    obtain ⟨rfl, -⟩ := hmatch
    cases res.awaited with
    | returned content => exact histories_analysisMade htasks i res.now content res.production
    | failed e => exact histories_finish _ _ _ _ _ _
    | raised e => exact histories_finish _ _ _ _ _ _
  | skill ctx skillId rest outputs =>
    rw [hstage] at hmatch
    obtain ⟨rfl, -⟩ := hmatch
    exact histories_skillMade htasks i res.now skillId rest outputs res.awaited
  | gather ctx skills =>
    rw [hstage] at hmatch
    obtain ⟨rfl, -⟩ := hmatch
    cases res.results with
    | some results => exact histories_produced htasks i res.now _
    | none => exact histories_produced htasks i res.now _
  | productionLlm ctx =>
    rw [hstage] at hmatch
    obtain ⟨rfl, -⟩ := hmatch
    cases res.awaited with
    | returned content => exact histories_produced htasks i res.now content
    | failed e => exact histories_finish _ _ _ _ _ _
    | raised e => exact histories_finish _ _ _ _ _ _
  | done => exact absurd hstage hlive

end Stages

section Commands

variable {agent : Agent} {s : World} {command : TaskCommand} {now : Time}

theorem histories_finishCancel (r : ℕ) (s : World) : Histories s (finishCancel now r s) := by
  unfold finishCancel
  split
  · exact histories_of_heap rfl rfl
  · split
    · exact histories_of_heap rfl rfl
    · exact histories_updateTaskStatus _ _ _ _ _

theorem histories_addCommand_onCommand (hget : command.command ≠ .get)
    (hreStream : command.command ≠ .reStream) (r : ℕ) (s : World) :
    Histories (addCommand command.target command s) (onCommand agent command now r s) := by
  unfold onCommand
  cases hcommand : command.command with
  | get => exact absurd hcommand hget
  | reStream => exact absurd hcommand hreStream
  | start => exact histories_of_heap rfl rfl
  | cancel =>
    change Histories _ (onCancel command now r s)
    unfold onCancel
    simp only
    split
    · exact histories_of_heap rfl rfl
    · exact histories_finishCancel r _
  | complete =>
    change Histories _ (onComplete command now r s)
    unfold onComplete
    simp only
    split
    · exact histories_of_heap rfl rfl
    · split
      · exact histories_updateTaskStatus _ _ _ _ _
      · exact histories_of_heap rfl rfl
  | «continue» =>
    change Histories _ (onContinue command now r s)
    unfold onContinue
    simp only
    split
    · exact histories_of_heap rfl rfl
    · split
      · rename_i c _ _
        have hupdate := histories_updateTaskStatus c.task.taskId .working [] now
          (addCommand command.target command s)
        exact hupdate.trans (histories_spawn _ _ _ _)
      · exact histories_of_heap rfl rfl

theorem onCommand_eq_self (h : command.command = .get ∨ command.command = .reStream) (r : ℕ)
    (s : World) : onCommand agent command now r s = s := by
  unfold onCommand
  rcases h with h | h
  · rw [h]
  · rw [h]

theorem histories_onCommand (r : ℕ) (s : World) :
    Histories s (onCommand agent command now r s) := by
  by_cases h : command.command = .get ∨ command.command = .reStream
  · rw [onCommand_eq_self h]
    exact histories_of_heap rfl rfl
  · obtain ⟨hget, hreStream⟩ := not_or.mp h
    exact (histories_addCommand command.target command s).trans
      (histories_addCommand_onCommand hget hreStream r s)

theorem toTask_cases (s : World) : Histories s (toTask agent command now s) ∨
    command.command = .start ∧ s.tasks command.target = none ∧
      toTask agent command now s = onStart agent command now none s := by
  unfold toTask
  split
  · exact .inl (histories_onCommand _ s)
  · rename_i hnone
    split
    · rename_i hstart
      exact .inr ⟨hstart, hnone, rfl⟩
    · exact .inl (histories_of_heap rfl rfl)

end Commands

def Act.startCommand : Act → Option (TaskCommand × Time)
  | .dispatch command now | .onTaskCommand command _ now =>
    if command.command = .start then some (command, now) else none
  | .onStreamStart command now => some (command, now)
  | .resume _ _ | .resumeCancel _ _ => none

theorem step_cases {agent : Agent} {s t : World} (h : Inv s) {a : Act} (hnew : NewOnStream s a)
    (ht : step agent s a = some t) : Histories s t ∨ ∃ command now,
      a.startCommand = some (command, now) ∧ s.tasks command.target = none ∧
        t = onStart agent command now none s := by
  cases a with
  | dispatch command now =>
    obtain rfl := Option.some.inj ht
    unfold dispatch
    split
    · rcases (toTask_cases s : Histories s (toTask agent command now s) ∨ _) with
        hgrows | ⟨hstart, hnone, heq⟩
      · exact .inl hgrows
      · exact .inr ⟨command, now, if_pos hstart, hnone, heq⟩
    · exact .inl (histories_of_heap rfl rfl)
  | onTaskCommand command isMentioned now =>
    obtain rfl := Option.some.inj ht
    unfold onTaskCommand
    split
    · rcases (toTask_cases s : Histories s (toTask agent command now s) ∨ _) with
        hgrows | ⟨hstart, hnone, heq⟩
      · exact .inl hgrows
      · exact .inr ⟨command, now, if_pos hstart, hnone, heq⟩
    · exact .inl (histories_of_heap rfl rfl)
  | onStreamStart command now =>
    obtain rfl := Option.some.inj ht
    unfold onStreamStart
    split
    · rename_i hid
      exact .inr ⟨command, now, rfl, hnew hid, rfl⟩
    · exact .inl (histories_of_heap rfl rfl)
  | resume i res =>
    refine .inl ?_
    change resumeStep agent i res s = some t at ht
    unfold resumeStep at ht
    cases hc : s.futures[i]? with
    | none =>
      rw [hc] at ht
      cases ht
    | some c =>
      simp only [hc] at ht
      split at ht
      · cases ht
      · rename_i hlive
        split at ht
        · obtain rfl := Option.some.inj ht
          exact histories_of_heap rfl rfl
        · rename_i hcancel
          obtain rfl := Option.some.inj ht
          exact histories_resume h hc hlive (Bool.not_eq_true _ ▸ hcancel) res
  | resumeCancel k now =>
    refine .inl ?_
    change resumeCancelStep k now s = some t at ht
    unfold resumeCancelStep at ht
    split at ht
    · cases ht
    · rename_i w _
      split at ht
      · cases ht
      · obtain rfl := Option.some.inj ht
        have hforget := histories_modify s w.ctx (f := fun c => { c with runningFuture := none })
          fun _ _ => grown_of_eq rfl
        exact Histories.trans (t := { s.modify w.ctx fun c => { c with runningFuture := none } with
          cancellations := s.cancellations.eraseIdx k })
          ⟨hforget.tasks, hforget.length, hforget.kept⟩ (histories_finishCancel _ _)

section Starts

variable {agent : Agent} {command : TaskCommand} {now : Time} {s : World}

theorem onStart_none_tasks (taskId : String) : (onStart agent command now none s).tasks taskId =
    if taskId = command.target then some s.heap.length else s.tasks taskId := by
  unfold onStart
  simp only [Option.isSome_none, Bool.false_eq_true, if_false]
  split <;> rfl

theorem onStart_none_kept {r : ℕ} {c : TaskContext} (hc : s.heap[r]? = some c) :
    (onStart agent command now none s).heap[r]? = some c := by
  have hlt := (List.getElem?_eq_some_iff.mp hc).1
  unfold onStart
  simp only [Option.isSome_none, Bool.false_eq_true, if_false]
  split
  · exact (List.getElem?_append_left hlt).trans hc
  · exact getElem?_modify_eq_some.mpr (.inr ⟨Nat.ne_of_gt hlt,
      (List.getElem?_append_left hlt).trans hc⟩)

theorem onStart_none_added {c : TaskContext}
    (hc : (onStart agent command now none s).heap[s.heap.length]? = some c) :
    c.task.state = if agent.maxConcurrentTasks ≤ activeTasks s then .rejected else .accepted := by
  unfold onStart at hc
  simp only [Option.isSome_none, Bool.false_eq_true, if_false] at hc
  split at hc
  · rename_i hbusy
    rw [if_pos hbusy]
    obtain rfl : rejectedTask agent command now = c := by simpa [World.store] using hc
    rfl
  · rename_i hfree
    rw [if_neg hfree]
    obtain ⟨-, y, hy, rfl⟩ | ⟨hne, -⟩ := getElem?_modify_eq_some.mp hc
    · obtain rfl : acceptedTask agent command now = y := by simpa [World.store] using hy
      rfl
    · exact absurd rfl hne

theorem onStart_none_length :
    (onStart agent command now none s).heap.length = s.heap.length + 1 := by
  unfold onStart
  simp only [Option.isSome_none, Bool.false_eq_true, if_false]
  split <;> simp [World.store, World.spawn, World.modify]

end Starts

end Acps.Partner
