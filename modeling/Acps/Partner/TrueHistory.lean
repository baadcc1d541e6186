import Acps.Partner.StateStream
import Acps.Sse.Ends

/-!
The streams tell what happened to the tasks in every run in which events are put out in time.
-/

namespace Acps.Partner

open Slots Sse Transition

/-- What is known of a change: as long as nothing is added to the histories, the task is what the
change made of it. -/
def Caused (s : World) (change : Change) : Prop :=
  ∃ c : TaskContext, s.heap[change.ctx]? = some c ∧
    change.task.statusHistory.length ≤ c.task.statusHistory.length ∧
    change.task.commandHistory.length ≤ c.task.commandHistory.length ∧
    (change.Current c.task → c.task = change.task)

section Changes

variable {s t : World}

theorem Caused.grows {change : Change} (h : Caused s change)
    (hkept : ∀ (r : ℕ) (c : TaskContext), s.heap[r]? = some c →
      ∃ c', t.heap[r]? = some c' ∧ Grown c c') : Caused t change := by
  obtain ⟨c, hc, hstatuses, hcommands, hcurrent⟩ := h
  obtain ⟨c', hc', commands, statuses, heq, heq', -, -, hsame⟩ := hkept change.ctx c hc
  have hl := congrArg List.length heq
  have hl' := congrArg List.length heq'
  rw [List.length_append] at hl hl'
  refine ⟨c', hc', by omega, by omega, fun hnow => ?_⟩
  have hnow' : c'.task.statusHistory.length = change.task.statusHistory.length := hnow.1
  have hnow'' : c'.task.commandHistory.length = change.task.commandHistory.length := hnow.2
  have hc0 : commands = [] := List.eq_nil_of_length_eq_zero (by omega)
  have hs0 : statuses = [] := List.eq_nil_of_length_eq_zero (by omega)
  rw [hsame hc0 hs0]
  exact hcurrent ⟨by omega, by omega⟩

theorem mem_changes {change : Change} (h : change ∈ s.changes t) :
    ∃ c c' : TaskContext, s.heap[change.ctx]? = some c ∧ t.heap[change.ctx]? = some c' ∧
      change ∈ changesOf change.ctx c.task c'.task := by
  obtain ⟨⟨⟨c, c'⟩, ctx⟩, hmem, hchange⟩ := List.mem_flatMap.mp h
  have hget := List.mem_zipIdx_iff_getElem?.mp hmem
  obtain ⟨hc, hc'⟩ := List.getElem?_zip_eq_some.mp hget
  have hctx : change.ctx = ctx := by
    obtain ⟨_, -, rfl⟩ := List.mem_map.mp hchange
    rfl
  exact ⟨c, c', hctx ▸ hc, hctx ▸ hc', hctx ▸ hchange⟩

theorem changesOf_self (ctx : ℕ) (task : TaskResult) : changesOf ctx task task = [] := by
  unfold changesOf
  simp only
  rw [List.drop_eq_nil_of_le (Nat.le_refl _)]
  rfl

theorem caused_of_mem_changes (hkept : ∀ (r : ℕ) (c : TaskContext), s.heap[r]? = some c →
    ∃ c', t.heap[r]? = some c' ∧ Grown c c') {change : Change} (h : change ∈ s.changes t) :
    Caused t change := by
  obtain ⟨c, c', hc, hc', hchange⟩ := mem_changes h
  obtain ⟨d, hd, commands, statuses, -, hstatuses, hstatus, -⟩ := hkept change.ctx c hc
  obtain rfl : d = c' := Option.some.inj (hd.symm.trans hc')
  obtain ⟨⟨status, k⟩, hmem, hmk⟩ := List.mem_map.mp hchange
  have hget : (d.task.statusHistory.drop c.task.statusHistory.length)[k]? = some status :=
    List.mem_zipIdx_iff_getElem?.mp hmem
  rw [hstatuses, List.drop_left] at hget
  have hlt := (List.getElem?_eq_some_iff.mp hget).1
  have hlength := congrArg List.length hstatuses
  rw [List.length_append] at hlength
  rw [← hmk] at hc' ⊢
  refine ⟨d, hc', ?_, Nat.le_refl _, fun hcurrent => ?_⟩
  · change (d.task.statusHistory.take _).length ≤ _
    rw [List.length_take]
    exact Nat.min_le_right _ _
  · have hall : d.task.statusHistory.length =
        (d.task.statusHistory.take (c.task.statusHistory.length + k + 1)).length := hcurrent.1
    rw [List.length_take] at hall
    have hk : k = statuses.length - 1 := by omega
    have hlast : d.task.status = status := by
      rw [hstatus, List.getLast?_eq_getElem?, ← hk, hget]
      rfl
    have htake : d.task.statusHistory.take (c.task.statusHistory.length + k + 1) =
        d.task.statusHistory := List.take_of_length_le (by omega)
    simp only
    rw [htake, ← hlast]

theorem exists_mem_changes {r : ℕ} {c c' : TaskContext} (hc : s.heap[r]? = some c)
    (hc' : t.heap[r]? = some c') {statuses : List TaskStatus}
    (hstatuses : c'.task.statusHistory = c.task.statusHistory ++ statuses) (hne : statuses ≠ []) :
    ∃ change ∈ s.changes t, change.ctx = r := by
  obtain ⟨status, rest, rfl⟩ := List.exists_cons_of_ne_nil hne
  have hmem : ((c, c'), r) ∈ (s.heap.zip t.heap).zipIdx :=
    List.mem_zipIdx_iff_getElem?.mpr (List.getElem?_zip_eq_some.mpr ⟨hc, hc'⟩)
  refine ⟨_, List.mem_flatMap.mpr ⟨_, hmem, List.mem_map_of_mem (a := (status, 0)) ?_⟩, rfl⟩
  apply List.mem_zipIdx_iff_getElem?.mpr
  rw [hstatuses, List.drop_left]
  rfl

end Changes

structure StreamInv (s : StreamWorld) : Prop where
  runner : Inv s.runner
  owned : Owned s.hub s.owners
  named : ∀ command ∈ s.streamStarts ++ s.runnerStarts, (command.taskId.filter (· ≠ "")).isSome
  starting : ∀ taskId ∈ s.starting, s.runner.tasks taskId = none
  nodup : s.starting.Nodup
  known : ∀ taskId ∈ s.owners, (s.runner.tasks taskId).isSome ∨ taskId ∈ s.starting
  ended : ∀ (taskId : String) (r : ℕ) (c : TaskContext), s.runner.tasks taskId = some r →
    s.runner.heap[r]? = some c → c.task.state ∈ terminalStates →
    (∃ change ∈ s.listeners, change.ctx = r) ∨ s.hub.channels taskId = none
  waiting : ∀ change ∈ s.listeners, Caused s.runner change
  published : ∀ (i : ℕ) (c : TaskStreamChannel Change), s.hub.objects[i]? = some c →
    ∀ e ∈ c.published, Caused s.runner e.payload
  replayed : ∀ σ ∈ s.subscriptions, ∀ e ∈ σ.replayed,
    ∃ c : TaskStreamChannel Change, s.hub.objects[σ.channel]? = some c ∧ e ∈ c.published
  delivered : ∀ d ∈ s.delivered, d.task = d.event.payload.task ∧
    ∃ c : TaskStreamChannel Change, s.hub.objects[d.channel]? = some c ∧ d.event ∈ c.published

section Invariant

variable {agent : Agent} {s t : StreamWorld}

theorem StreamInv.trueHistory (h : StreamInv s) : TrueHistory s := by
  refine ⟨fun i c hc k e he hterminal => ((h.owned.ends i c hc).terminal k e he hterminal).1,
    fun d hd => by rw [(h.delivered d hd).1], fun d hd d' hd' hchannel hseq => ?_,
    fun taskId r c hr hc hterminal hnone i hi => ?_⟩
  · obtain ⟨htask, c, hc, hmem⟩ := h.delivered d hd
    obtain ⟨htask', c', hc', hmem'⟩ := h.delivered d' hd'
    rw [← hchannel] at hc'
    obtain rfl := Option.some.inj (hc.symm.trans hc')
    obtain ⟨k, hk⟩ := List.mem_iff_getElem?.mp hmem
    obtain ⟨k', hk'⟩ := List.mem_iff_getElem?.mp hmem'
    have hnumber := (h.owned.ends _ c hc).wf.numbered k _ hk
    have hnumber' := (h.owned.ends _ c hc).wf.numbered k' _ hk'
    obtain rfl : k = k' := by omega
    rw [htask, htask', Option.some.inj (hk.symm.trans hk')]
  · have hlt : i < s.hub.objects.length := h.owned.length ▸ (List.getElem?_eq_some_iff.mp hi).1
    have hchannel : s.hub.channels taskId = none := by
      rcases h.ended taskId r c hr hc hterminal with ⟨change, hmem, hctx⟩ | hchannel
      · exact absurd hctx (hnone change hmem)
      · exact hchannel
    have hget := List.getElem?_eq_getElem hlt
    have hclosed : (s.hub.objects[i]).closed = true := by
      rcases h.owned.opened i taskId _ hi hget with hclosed | hmapped
      · exact hclosed
      · rw [hchannel] at hmapped
        cases hmapped
    exact ⟨_, hget, hclosed, (h.owned.ends i _ hget).closed hclosed⟩

theorem StreamInv.hub (h : StreamInv s) {hub : StreamHub Change} {new : Change → Prop}
    (hcarries : Carries s.hub hub new)
    (hnew : ∀ change, new change → Caused s.runner change) :
    (∀ (i : ℕ) (c : TaskStreamChannel Change), hub.objects[i]? = some c →
      ∀ e ∈ c.published, Caused s.runner e.payload) ∧
    (∀ σ ∈ s.subscriptions, ∀ e ∈ σ.replayed,
      ∃ c : TaskStreamChannel Change, hub.objects[σ.channel]? = some c ∧ e ∈ c.published) ∧
    ∀ d ∈ s.delivered, d.task = d.event.payload.task ∧
      ∃ c : TaskStreamChannel Change, hub.objects[d.channel]? = some c ∧ d.event ∈ c.published := by
  refine ⟨fun i c' hc' e he => ?_, fun σ hσ e he => ?_, fun d hd => ?_⟩
  · rcases hcarries.origin i c' hc' e he with hchange | ⟨c, hc, he⟩
    · exact hnew e.payload hchange
    · exact h.published i c hc e he
  · obtain ⟨c, hc, hmem⟩ := h.replayed σ hσ e he
    obtain ⟨c', hc', hkept⟩ := hcarries.kept σ.channel c hc
    exact ⟨c', hc', hkept e hmem⟩
  · obtain ⟨htask, c, hc, hmem⟩ := h.delivered d hd
    obtain ⟨c', hc', hkept⟩ := hcarries.kept d.channel c hc
    exact ⟨htask, c', hc', hkept d.event hmem⟩

theorem StreamInv.goOn (h : StreamInv s) {runner : World} (hrunner : Inv runner)
    (hgrows : Histories s.runner runner) : StreamInv (s.goOn runner) := by
  refine ⟨hrunner, h.owned, h.named, fun taskId ht => ?_, h.nodup, fun taskId ht => ?_,
    fun taskId r c' hr hc' hterminal => ?_, fun change hchange => ?_,
    fun i c hc e he => (h.published i c hc e he).grows hgrows.kept, h.replayed, h.delivered⟩
  · change runner.tasks taskId = none
    rw [hgrows.tasks]
    exact h.starting taskId ht
  · change (runner.tasks taskId).isSome ∨ _
    rw [hgrows.tasks]
    exact h.known taskId ht
  · have hr' : s.runner.tasks taskId = some r := hgrows.tasks ▸ hr
    obtain ⟨c, hc, -⟩ := (h.runner.task taskId).stored r hr'
    obtain ⟨d, hd, _, statuses, -, hstatuses, hstatus, -⟩ := hgrows.kept r c hc
    obtain rfl : d = c' := Option.some.inj (hd.symm.trans hc')
    cases statuses with
    | nil =>
      have hsame : c.task.state ∈ terminalStates := by
        have hstate : d.task.state = c.task.state := congrArg TaskStatus.state hstatus
        rw [← hstate]
        exact hterminal
      exact (h.ended taskId r c hr' hc hsame).imp_left fun ⟨change, hmem, hctx⟩ =>
        ⟨change, List.mem_append_left _ hmem, hctx⟩
    | cons status statuses =>
      obtain ⟨change, hmem, hctx⟩ := exists_mem_changes hc hd hstatuses (List.cons_ne_nil _ _)
      exact .inl ⟨change, List.mem_append_right _ hmem, hctx⟩
  · rcases List.mem_append.mp hchange with hchange | hchange
    · exact (h.waiting change hchange).grows hgrows.kept
    · exact caused_of_mem_changes hgrows.kept hchange

theorem StreamInv.channels_none (h : StreamInv s) {taskId : String}
    (hnone : s.runner.tasks taskId = none) (hstarting : taskId ∉ s.starting) :
    s.hub.channels taskId = none := by
  cases hi : s.hub.channels taskId with
  | none => rfl
  | some i =>
    exfalso
    rcases h.known taskId (List.mem_of_getElem? (h.owned.mapped taskId i hi).1) with hsome | hmem
    · rw [hnone] at hsome
      cases hsome
    · exact hstarting hmem

section Start

variable {command : TaskCommand} {now : Time}

theorem kept_onStart : ∀ (r : ℕ) (c : TaskContext), s.runner.heap[r]? = some c →
    ∃ c', (onStart agent command now none s.runner).heap[r]? = some c' ∧ Grown c c' :=
  fun _ c hc => ⟨c, onStart_none_kept hc, grown_of_eq rfl⟩

theorem changes_onStart (runner : World) :
    runner.changes (onStart agent command now none runner) = [] := by
  apply List.eq_nil_iff_forall_not_mem.mpr
  intro change hchange
  obtain ⟨c, c', hc, hc', hmem⟩ := mem_changes hchange
  obtain rfl := Option.some.inj ((onStart_none_kept hc).symm.trans hc')
  rw [changesOf_self] at hmem
  cases hmem

theorem StreamInv.start (h : StreamInv s) (hnone : s.runner.tasks command.target = none)
    {streamStarts runnerStarts : List TaskCommand}
    (hsub : ∀ command' ∈ streamStarts ++ runnerStarts, command' ∈ s.streamStarts ++ s.runnerStarts)
    (hnodup : ((streamStarts ++ runnerStarts).map TaskCommand.target).Nodup)
    (hother : command.target ∉ (streamStarts ++ runnerStarts).map TaskCommand.target)
    (hstarting : ∀ taskId ∈ s.starting, taskId ≠ command.target →
      taskId ∈ (streamStarts ++ runnerStarts).map TaskCommand.target)
    (hchannel : agent.maxConcurrentTasks ≤ activeTasks s.runner →
      s.hub.channels command.target = none) :
    StreamInv { s.goOn (onStart agent command now none s.runner) with streamStarts, runnerStarts } := by
  have htasks : ∀ taskId, (onStart agent command now none s.runner).tasks taskId =
      if taskId = command.target then some s.runner.heap.length else s.runner.tasks taskId :=
    onStart_none_tasks
  refine ⟨h.runner.onStart_none hnone, h.owned, fun command' hmem => h.named command' (hsub command' hmem),
    fun taskId ht => ?_, hnodup, fun taskId ht => ?_, fun taskId r c hr hc hterminal => ?_,
    fun change hchange => ?_, fun i c hc e he => (h.published i c hc e he).grows kept_onStart,
    h.replayed, h.delivered⟩
  · have hne : taskId ≠ command.target := by
      rintro rfl
      exact hother ht
    obtain ⟨command', hmem, rfl⟩ := List.mem_map.mp ht
    change (onStart agent command now none s.runner).tasks command'.target = none
    rw [htasks, if_neg hne]
    exact h.starting _ (List.mem_map_of_mem (hsub command' hmem))
  · change ((onStart agent command now none s.runner).tasks taskId).isSome ∨ _
    rw [htasks]
    by_cases hne : taskId = command.target
    · rw [if_pos hne]
      exact .inl rfl
    · rw [if_neg hne]
      exact (h.known taskId ht).imp_right fun hmem => hstarting taskId hmem hne
  · change (onStart agent command now none s.runner).tasks taskId = some r at hr
    rw [htasks] at hr
    change _ ∨ s.hub.channels taskId = none
    split at hr
    · rename_i heq
      obtain rfl := Option.some.inj hr
      have hstate := onStart_none_added hc
      split at hstate
      · rename_i hbusy
        rw [heq]
        exact .inr (hchannel hbusy)
      · rw [hstate] at hterminal
        exact absurd hterminal (by decide)
    · obtain ⟨d, hd, -⟩ := (h.runner.task taskId).stored r hr
      obtain rfl := Option.some.inj ((onStart_none_kept hd).symm.trans hc)
      exact (h.ended taskId r d hr hd hterminal).imp_left fun ⟨change, hmem, hctx⟩ =>
        ⟨change, List.mem_append_left _ hmem, hctx⟩
  · rcases List.mem_append.mp hchange with hchange | hchange
    · exact (h.waiting change hchange).grows kept_onStart
    · rw [changes_onStart] at hchange
      cases hchange

end Start

theorem StreamInv.run (h : StreamInv s) {a : Act} (htimely : Timely agent s (.run a))
    (ht : runStep agent s a = some t) : StreamInv t := by
  have hstep : ∀ command now, a ≠ .onStreamStart command now := by
    rintro command now rfl
    cases ht
  have hmap : (step agent s.runner a).map s.goOn = some t := by
    cases a with
    | onStreamStart command now => exact absurd rfl (hstep command now)
    | dispatch | onTaskCommand | resume | resumeCancel => exact ht
  have hnew : NewOnStream s.runner a := by
    cases a with
    | onStreamStart command now => exact absurd rfl (hstep command now)
    | dispatch | onTaskCommand | resume | resumeCancel => trivial
  obtain ⟨runner, hrunner, rfl⟩ := Option.map_eq_some_iff.mp hmap
  have hinv := inv_step s.runner a runner h.runner hnew hrunner
  rcases step_cases h.runner hnew hrunner with hgrows | ⟨command, now, hstart, hnone, rfl⟩
  · exact h.goOn hinv hgrows
  · have hother : command.target ∉ s.starting := htimely (command, now) hstart
    exact h.start hnone (fun _ hmem => hmem) h.nodup hother (fun _ hmem _ => hmem)
      fun _ => h.channels_none hnone hother

theorem StreamInv.channelFor (h : StreamInv s) {taskId : String}
    (hnone : s.runner.tasks taskId = none) {streamStarts runnerStarts : List TaskCommand}
    (hmem : ∀ id, id ∈ (streamStarts ++ runnerStarts).map TaskCommand.target ↔
      id ∈ s.starting ∨ id = taskId)
    (hnodup : ((streamStarts ++ runnerStarts).map TaskCommand.target).Nodup)
    (hnamed : ∀ command ∈ streamStarts ++ runnerStarts, (command.taskId.filter (· ≠ "")).isSome) :
    StreamInv { s.getOrCreateChannel taskId with streamStarts, runnerStarts } := by
  have hcarries : Carries s.hub (s.hub.getOrCreateChannel taskId).1 fun _ : Change => False :=
    carries_getOrCreateChannel s.hub taskId
  obtain ⟨hpublished, hreplayed, hdelivered⟩ := h.hub hcarries fun _ hfalse => hfalse.elim
  refine ⟨h.runner, h.owned.getOrCreateChannel taskId, hnamed, fun id hid => ?_, hnodup,
    fun id hid => ?_, fun id r c hr hc hterminal => ?_, h.waiting, hpublished, hreplayed, hdelivered⟩
  · rcases (hmem id).mp hid with hid | rfl
    · exact h.starting id hid
    · exact hnone
  · have hid : id ∈ s.owners ∨ id = taskId := by
      change id ∈ (if (s.hub.channels taskId).isSome then s.owners else s.owners ++ [taskId]) at hid
      split at hid
      · exact .inl hid
      · exact (List.mem_append.mp hid).imp_right List.mem_singleton.mp
    rcases hid with hid | rfl
    · exact (h.known id hid).imp_right fun hid => (hmem id).mpr (.inl hid)
    · exact .inr ((hmem id).mpr (.inr rfl))
  · have hne : id ≠ taskId := by
      rintro rfl
      cases hnone.symm.trans hr
    change _ ∨ (s.hub.getOrCreateChannel taskId).1.channels id = none
    rw [channels_getOrCreateChannel, if_neg hne]
    exact h.ended id r c hr hc hterminal

theorem StreamInv.handleStreamRequest (h : StreamInv s) {command : TaskCommand}
    (htimely : Timely agent s (.handleStreamRequest command))
    (ht : StreamHandler.handleStreamRequest s command = some t) : StreamInv t := by
  obtain ⟨⟨-, hnamed⟩, ht⟩ := Option.ite_none_right_eq_some.mp ht
  obtain rfl := Option.some.inj ht
  obtain ⟨hnone, hnew⟩ := htimely
  have hperm : ((s.streamStarts ++ [command] ++ s.runnerStarts).map TaskCommand.target).Perm
      (command.target :: s.starting) := by
    rw [List.append_assoc]
    exact List.Perm.map TaskCommand.target List.perm_middle
  have hmembers : ∀ id, id ∈ (s.streamStarts ++ [command] ++ s.runnerStarts).map TaskCommand.target ↔
      id ∈ s.starting ∨ id = command.target := fun id => by
    rw [hperm.mem_iff, List.mem_cons, or_comm]
  refine h.channelFor hnone hmembers ?_ fun command' hmem => ?_
  · exact hperm.nodup_iff.mpr (List.nodup_cons.mpr ⟨hnew, h.nodup⟩)
  · rw [List.append_assoc] at hmem
    rcases List.mem_cons.mp (List.perm_middle.mem_iff.mp hmem) with rfl | hmem
    · exact hnamed
    · exact h.named command' hmem

theorem perm_eraseIdx_append {α : Type} {l m : List α} {k : ℕ} {a : α} (h : l[k]? = some a) :
    (l.eraseIdx k ++ (m ++ [a])).Perm (l ++ m) := by
  obtain ⟨hk, rfl⟩ := List.getElem?_eq_some_iff.mp h
  have hperm : (l[k] :: l.eraseIdx k).Perm l := List.getElem_cons_eraseIdx_perm hk
  have hlast : (l.eraseIdx k ++ (m ++ [l[k]])).Perm (l[k] :: (l.eraseIdx k ++ m)) := by
    rw [← List.append_assoc]
    exact List.perm_append_singleton _ _
  exact hlast.trans (hperm.append_right m)

theorem StreamInv.onStreamStart (h : StreamInv s) {k : ℕ}
    (ht : StreamHandler.onStreamStart s k = some t) : StreamInv t := by
  obtain ⟨command, hk, rfl⟩ := Option.map_eq_some_iff.mp ht
  have hperm := perm_eraseIdx_append (m := s.runnerStarts) hk
  have hmem : command.target ∈ s.starting :=
    List.mem_map_of_mem (List.mem_append_left _ (List.mem_of_getElem? hk))
  refine h.channelFor (h.starting _ hmem) (fun id => ?_) ?_ fun command' hmem => ?_
  · rw [(hperm.map TaskCommand.target).mem_iff]
    refine ⟨.inl, ?_⟩
    rintro (hid | rfl)
    · exact hid
    · exact hmem
  · exact (hperm.map TaskCommand.target).nodup_iff.mpr h.nodup
  · exact h.named command' (hperm.mem_iff.mp hmem)

theorem StreamInv.onStart (h : StreamInv s) {k : ℕ} {now : Time}
    (htimely : Timely agent s (.onStart k now))
    (ht : StreamHandler.onStart s agent k now = some t) : StreamInv t := by
  obtain ⟨command, hk, rfl⟩ := Option.map_eq_some_iff.mp ht
  have hmem : command ∈ s.streamStarts ++ s.runnerStarts :=
    List.mem_append_right _ (List.mem_of_getElem? hk)
  have hnone := h.starting _ (List.mem_map_of_mem hmem)
  have hstart : Partner.onStreamStart agent command now s.runner =
      Partner.onStart agent command now none s.runner := if_pos (h.named command hmem)
  have hperm : (command :: (s.streamStarts ++ s.runnerStarts.eraseIdx k)).Perm
      (s.streamStarts ++ s.runnerStarts) := by
    obtain ⟨hlt, rfl⟩ := List.getElem?_eq_some_iff.mp hk
    have hrest : (s.runnerStarts[k] :: s.runnerStarts.eraseIdx k).Perm s.runnerStarts :=
      List.getElem_cons_eraseIdx_perm hlt
    exact List.perm_middle.symm.trans (hrest.append_left s.streamStarts)
  have hnodup := (hperm.map TaskCommand.target).nodup_iff.mpr h.nodup
  rw [List.map_cons, List.nodup_cons] at hnodup
  rw [hstart]
  refine h.start hnone (fun command' hmem => hperm.subset (List.mem_cons_of_mem _ hmem)) hnodup.2
    hnodup.1 (fun id hid hne => ?_) fun hbusy => ?_
  · rcases List.mem_cons.mp ((hperm.map TaskCommand.target).mem_iff.mpr hid) with rfl | hid
    · exact absurd rfl hne
    · exact hid
  · exact absurd hbusy (Int.not_le.mpr htimely)

theorem mem_eraseIdx_of_ne {α : Type} {l : List α} {k : ℕ} {a b : α} (hk : l[k]? = some a)
    (hb : b ∈ l) (hne : b ≠ a) : b ∈ l.eraseIdx k := by
  obtain ⟨hlt, rfl⟩ := List.getElem?_eq_some_iff.mp hk
  rcases List.mem_cons.mp ((List.getElem_cons_eraseIdx_perm hlt).mem_iff.mpr hb) with heq | hmem
  · exact absurd heq hne
  · exact hmem

theorem StreamInv.heard (h : StreamInv s) {k : ℕ} {change : Change} {c : TaskContext}
    (hk : s.listeners[k]? = some change) (hc : s.runner.heap[change.ctx]? = some c)
    {hub : StreamHub Change} (howned : Owned hub (s.getOrCreateChannel c.task.taskId).owners)
    (hcarries : Carries s.hub hub (· = change))
    (hother : ∀ id, id ≠ c.task.taskId → hub.channels id = s.hub.channels id)
    (hended : c.task.state ∈ terminalStates → hub.channels c.task.taskId = none) :
    StreamInv { s.getOrCreateChannel c.task.taskId with
      hub, listeners := s.listeners.eraseIdx k } := by
  have hr := h.runner.current change.ctx c hc
  obtain ⟨hpublished, hreplayed, hdelivered⟩ := h.hub hcarries fun change' heq =>
    heq ▸ h.waiting change (List.mem_of_getElem? hk)
  refine ⟨h.runner, howned, h.named, h.starting, h.nodup, fun id hid => ?_,
    fun id r d hid hd hterminal => ?_,
    fun change' hmem => h.waiting change' (List.mem_of_mem_eraseIdx hmem),
    hpublished, hreplayed, hdelivered⟩
  · change id ∈ (if (s.hub.channels c.task.taskId).isSome then s.owners
      else s.owners ++ [c.task.taskId]) at hid
    split at hid
    · exact h.known id hid
    · rcases List.mem_append.mp hid with hid | hid
      · exact h.known id hid
      · obtain rfl := List.mem_singleton.mp hid
        exact .inl (Option.isSome_of_mem hr)
  · change (∃ change ∈ s.listeners.eraseIdx k, change.ctx = r) ∨ hub.channels id = none
    by_cases hne : id = c.task.taskId
    · subst hne
      obtain rfl := Option.some.inj (hr.symm.trans hid)
      obtain rfl := Option.some.inj (hc.symm.trans hd)
      exact .inr (hended hterminal)
    · rw [hother id hne]
      refine (h.ended id r d hid hd hterminal).imp_left fun ⟨change', hmem, hctx⟩ =>
        ⟨change', mem_eraseIdx_of_ne hk hmem ?_, hctx⟩
      rintro rfl
      obtain ⟨e, he, heid, -⟩ := (h.runner.task id).stored r hid
      rw [← hctx] at he
      obtain rfl := Option.some.inj (hc.symm.trans he)
      exact hne heid.symm

theorem StreamInv.onRunnerStateChange (h : StreamInv s) {k : ℕ}
    (ht : StreamHandler.onRunnerStateChange s k = some t) : StreamInv t := by
  obtain ⟨change, hk, ht⟩ := Option.bind_eq_some_iff.mp ht
  obtain ⟨c, hc, rfl⟩ := Option.map_eq_some_iff.mp ht
  have howned := h.owned.getOrCreateChannel c.task.taskId
  have hchannels := channels_getOrCreateChannel s.hub c.task.taskId
  have hi := (hchannels c.task.taskId).trans (if_pos rfl)
  have hopen : Carries s.hub (s.hub.getOrCreateChannel c.task.taskId).1 (· = change) :=
    carries_getOrCreateChannel s.hub c.task.taskId
  have hpublish (isTerminal : Bool) : Carries (s.hub.getOrCreateChannel c.task.taskId).1
      ((s.hub.getOrCreateChannel c.task.taskId).1.modify
        (s.hub.getOrCreateChannel c.task.taskId).2 fun c => c.publish change isTerminal)
      (· = change) := by
    apply carries_publish
    rfl
  by_cases hterminal : c.task.state ∈ terminalStates
  · simp only [decide_eq_true hterminal, if_true]
    have heq := closeStream_publish howned hi change
    apply h.heard hk hc (howned.closeStream hi change)
    · rw [heq]
      have hpublish := hpublish true
      exact hopen.trans ⟨hpublish.kept, hpublish.origin⟩
    · intro id hne
      rw [heq]
      exact (if_neg hne).trans ((hchannels id).trans (if_neg hne))
    · intro _
      rw [heq]
      exact if_pos rfl
  · simp only [decide_eq_false hterminal, Bool.false_eq_true, if_false]
    apply h.heard hk hc (howned.publish hi change)
    · rw [publish_eq_modify hi]
      exact hopen.trans (hpublish false)
    · intro id hne
      rw [publish_eq_modify hi]
      exact (hchannels id).trans (if_neg hne)
    · intro hended
      exact absurd hended hterminal

theorem mem_replay {c : TaskStreamChannel Change} (hwf : c.Wf) {last : Option ℕ}
    {e : BufferedStreamEvent Change} (he : e ∈ c.replay last) : e ∈ c.published := by
  have hbuffer : e ∈ c.buffer := by
    unfold TaskStreamChannel.replay at he
    split at he
    · exact he
    · exact (List.mem_filter.mp he).1
  rw [hwf.buffer] at hbuffer
  exact List.mem_of_mem_drop hbuffer

theorem carries_of_published {hub : StreamHub Change} {i : ℕ}
    {f : TaskStreamChannel Change → TaskStreamChannel Change}
    (hf : ∀ c, (f c).published = c.published) :
    Carries hub (hub.modify i f) fun _ : Change => False :=
  carries_modify fun c => ⟨fun _ he => (hf c).symm ▸ he, fun _ he => .inr ((hf c) ▸ he)⟩

theorem StreamInv.subscribe (h : StreamInv s) (taskId : String) (last : Option ℕ) :
    StreamInv (StreamHandler.subscribe s taskId last) := by
  unfold StreamHandler.subscribe
  split
  · exact h
  · rename_i i hi
    split
    · exact h
    · rename_i c hc
      have hwf := (h.owned.ends i c hc).wf
      simp only
      split
      · refine ⟨h.runner, h.owned, h.named, h.starting, h.nodup, h.known, h.ended, h.waiting,
          h.published, fun σ hσ e he => ?_, h.delivered⟩
        rcases List.mem_append.mp hσ with hσ | hσ
        · exact h.replayed σ hσ e he
        · obtain rfl := List.mem_singleton.mp hσ
          exact ⟨c, hc, mem_replay hwf he⟩
      · rename_i hopen
        have hclosed : c.closed = false := by simpa using hopen
        have hcarries : Carries s.hub (s.hub.modify i TaskStreamChannel.subscribe)
            fun _ : Change => False := carries_of_published fun _ => rfl
        obtain ⟨hpublished, hreplayed, hdelivered⟩ := h.hub hcarries fun _ hfalse => hfalse.elim
        have howned : Owned (s.hub.modify i TaskStreamChannel.subscribe) s.owners := by
          refine h.owned.modify fun y hy => ?_
          obtain rfl : y = c := Option.some.inj (hy.symm.trans hc)
          exact ⟨(h.owned.ends i y hy).subscribe hclosed, rfl⟩
        refine ⟨h.runner, howned, h.named, h.starting, h.nodup, h.known, h.ended, h.waiting,
          hpublished, fun σ hσ e he => ?_, hdelivered⟩
        rcases List.mem_append.mp hσ with hσ | hσ
        · exact hreplayed σ hσ e he
        · obtain rfl := List.mem_singleton.mp hσ
          obtain ⟨c', hc', hkept⟩ := hcarries.kept i c hc
          exact ⟨c', hc', hkept e (mem_replay hwf he)⟩

theorem next_spec (howned : Owned s.hub s.owners) {σ : Subscription} (hσ : ∀ e ∈ σ.replayed,
      ∃ c : TaskStreamChannel Change, s.hub.objects[σ.channel]? = some c ∧ e ∈ c.published) :
    (∀ e ∈ (s.next σ).1, ∃ c : TaskStreamChannel Change,
      s.hub.objects[σ.channel]? = some c ∧ e ∈ c.published) ∧
    (s.next σ).2.1.channel = σ.channel ∧ (∀ e ∈ (s.next σ).2.1.replayed, e ∈ σ.replayed) ∧
    Owned (s.next σ).2.2 s.owners ∧ (s.next σ).2.2.channels = s.hub.channels ∧
    Carries s.hub (s.next σ).2.2 fun _ : Change => False := by
  have hsame : Carries s.hub s.hub fun _ : Change => False :=
    ⟨fun j c hc => ⟨c, hc, fun _ he => he⟩, fun j c hc e he => .inr ⟨c, hc, he⟩⟩
  unfold StreamWorld.next
  split
  · rename_i e rest hreplayed
    refine ⟨fun e' he' => ?_, rfl, fun e' he' => ?_, howned, rfl, hsame⟩
    · obtain rfl := Option.some.inj he'
      exact hσ e (hreplayed ▸ List.mem_cons_self)
    · exact hreplayed ▸ List.mem_cons_of_mem e he'
  · have hqueue : ∀ q items,
        (σ.queue.bind fun q => ((s.hub.objects[σ.channel]?).bind (·.queues q)).map (q, ·)) =
          some (q, items) → ∃ c : TaskStreamChannel Change,
            s.hub.objects[σ.channel]? = some c ∧ c.queues q = some items := by
      intro q items heq
      obtain ⟨q', -, hmap⟩ := Option.bind_eq_some_iff.mp heq
      obtain ⟨items', hbind, hpair⟩ := Option.map_eq_some_iff.mp hmap
      obtain ⟨rfl, rfl⟩ := Prod.mk.inj hpair
      exact Option.bind_eq_some_iff.mp hbind
    split
    · rename_i q e items heq
      obtain ⟨c, hc, hq⟩ := hqueue q _ heq
      refine ⟨fun e' he' => ?_, rfl, fun e' he' => he', ?_, rfl, carries_of_published fun _ => rfl⟩
      · obtain rfl := Option.some.inj he'
        exact ⟨c, hc, (howned.ends _ c hc).queued q _ hq e List.mem_cons_self⟩
      · refine howned.modify fun y hy => ?_
        obtain rfl : y = c := Option.some.inj (hy.symm.trans hc)
        exact ⟨(howned.ends _ y hy).setQueue hq fun r hr =>
          ⟨(Option.some.inj hr).symm, by simp⟩, rfl⟩
    · rename_i q items heq
      obtain ⟨c, hc, hq⟩ := hqueue q _ heq
      refine ⟨fun e' he' => (by cases he'), rfl, fun e' he' => he', ?_, rfl,
        carries_of_published fun _ => rfl⟩
      refine howned.modify fun y hy => ?_
      obtain rfl : y = c := Option.some.inj (hy.symm.trans hc)
      exact ⟨(howned.ends _ y hy).setQueue hq fun r hr => (by cases hr), rfl⟩
    · exact ⟨fun e' he' => (by cases he'), rfl, fun e' he' => he', howned, rfl, hsame⟩

theorem StreamInv.put (h : StreamInv s) {k : ℕ} (htimely : Timely agent s (.put k))
    (ht : StreamHandler.put s k = some t) : StreamInv t := by
  obtain ⟨σ, hk, rfl⟩ := Option.map_eq_some_iff.mp ht
  have hσ := List.mem_of_getElem? hk
  obtain ⟨htaken, hchannel, hrest, howned, hchannels, hcarries⟩ := next_spec h.owned (h.replayed σ hσ)
  obtain ⟨hpublished, hreplayed, hdelivered⟩ := h.hub hcarries fun _ hfalse => hfalse.elim
  refine ⟨h.runner, howned, h.named, h.starting, h.nodup, h.known, fun id r c hr hc hterminal => ?_,
    h.waiting, hpublished, fun τ hτ e he => ?_, fun d hd => ?_⟩
  · change _ ∨ (s.next σ).2.2.channels id = none
    rw [hchannels]
    exact h.ended id r c hr hc hterminal
  · rcases List.mem_or_eq_of_mem_set hτ with hτ | rfl
    · exact hreplayed τ hτ e he
    · rw [hchannel]
      exact hreplayed σ hσ e (hrest e he)
  · rcases List.mem_append.mp hd with hd | hd
    · exact hdelivered d hd
    · obtain ⟨⟨e, task⟩, hmem, rfl⟩ := List.mem_map.mp hd
      obtain ⟨e', he', hmap⟩ := Option.bind_eq_some_iff.mp (Option.mem_toList.mp hmem)
      obtain ⟨c, hc, hpair⟩ := Option.map_eq_some_iff.mp hmap
      obtain ⟨rfl, rfl⟩ := Prod.mk.inj hpair
      obtain ⟨channel, hobject, hin⟩ := htaken e' he'
      obtain ⟨d, hd, -, -, hsame⟩ := h.published σ.channel channel hobject e' hin
      obtain rfl := Option.some.inj (hd.symm.trans hc)
      obtain ⟨channel', hobject', hkept⟩ := hcarries.kept σ.channel channel hobject
      exact ⟨hsame (htimely σ hk e' he' d hc), channel', hobject', hkept e' hin⟩

theorem streamInv_step (s : StreamWorld) (a : StreamAct) (t : StreamWorld) (h : StreamInv s)
    (htimely : Timely agent s a) (ht : (taskStreams agent).step s a = some t) : StreamInv t := by
  cases a with
  | run a => exact h.run htimely ht
  | handleStreamRequest command => exact h.handleStreamRequest htimely ht
  | onStreamStart k => exact h.onStreamStart ht
  | onStart k now => exact h.onStart htimely ht
  | onRunnerStateChange k => exact h.onRunnerStateChange ht
  | subscribe taskId last =>
    obtain rfl := Option.some.inj ht
    exact h.subscribe taskId last
  | put k => exact h.put htimely ht

theorem streamInv_initial (maxBuffer : ℕ) : StreamInv (.initial maxBuffer) where
  runner := inv_initial
  owned := ⟨(fun i c hc => by cases hc), rfl, (fun t i hi => by cases hi),
    (fun i t c hi => by cases hi)⟩
  named := fun command hmem => by cases hmem
  starting := fun taskId hmem => by cases hmem
  nodup := List.nodup_nil
  known := fun taskId hmem => by cases hmem
  ended := fun taskId r c hr => by cases hr
  waiting := fun change hmem => by cases hmem
  published := fun i c hc => by cases hc
  replayed := fun σ hσ => by cases hσ
  delivered := fun d hd => by cases hd

end Invariant

theorem true_history {agent : Agent} {maxBuffer : ℕ} {schedule : List StreamAct} {t : StreamWorld}
    (hrun : (taskStreams agent).exec (.initial maxBuffer) schedule = some t)
    (htimely : (taskStreams agent).Meets (Timely agent) (.initial maxBuffer) schedule) :
    TrueHistory t :=
  ((taskStreams agent).exec_invariant streamInv_step (streamInv_initial maxBuffer) htimely
    hrun).trueHistory

namespace Sample

def streamed : List StreamAct :=
  [.handleStreamRequest (command .start), .subscribe "t" none, .onStreamStart 0, .onStart 0 0]

def toReview : List StreamAct :=
  streamed ++ [.run (answer 0 (.returned "")), .run (answer 0 (.returned "accept")),
    .run (answer 0 (.returned "")), .onRunnerStateChange 0, .put 0,
    .run (answer 0 (.returned "accept")), .run (answer 0 (.returned "product")),
    .onRunnerStateChange 0, .put 0]

def completed : List StreamAct :=
  toReview ++ [.subscribe "t" (some 1), .put 1, .run (.dispatch (command .complete) 0),
    .onRunnerStateChange 0, .put 0, .put 1, .put 0, .put 1]

def late : List StreamAct := toReview ++ [.subscribe "t" none, .put 1]

end Sample

theorem completed_true_history :
    ∃ t, (taskStreams (Sample.agent 10)).exec (.initial 10) Sample.completed = some t ∧
      t.delivered.map (fun d => d.task.state) =
        [.working, .awaitingCompletion, .awaitingCompletion, .completed, .completed] ∧
      TrueHistory t := by
  have hends : ((taskStreams (Sample.agent 10)).exec (.initial 10) Sample.completed).any
      (fun t => t.delivered.map (fun d => d.task.state) =
        [.working, .awaitingCompletion, .awaitingCompletion, .completed, .completed]) = true := by
    decide +kernel
  obtain ⟨t, ht, hend⟩ := (Option.any_eq_true _ _).mp hends
  refine ⟨t, ht, of_decide_eq_true hend, true_history ht ?_⟩
  exact (taskStreams (Sample.agent 10)).meets_of_check (fun _ _ h => of_decide_eq_true h)
    (show (taskStreams (Sample.agent 10)).check (fun s a => decide (Timely (Sample.agent 10) s a))
      (.initial 10) Sample.completed = true by decide +kernel)

theorem history_untrue :
    (∃ t, (taskStreams (Sample.agent 10)).exec (.initial 10) Sample.late = some t ∧
      ¬ TrueHistory t) ∧
    ∃ t, (taskStreams (Sample.agent 0)).exec (.initial 10) Sample.streamed = some t ∧
      ¬ TrueHistory t := by
  constructor
  · have hends : ((taskStreams (Sample.agent 10)).exec (.initial 10) Sample.late).any
        (fun t => t.delivered.any fun d => d.task.status ≠ d.event.payload.task.status) = true := by
      decide +kernel
    obtain ⟨t, ht, hend⟩ := (Option.any_eq_true _ _).mp hends
    refine ⟨t, ht, fun h => ?_⟩
    obtain ⟨d, hd, hne⟩ := List.any_eq_true.mp hend
    exact of_decide_eq_true hne (h.asCaused d hd)
  · have hends : ((taskStreams (Sample.agent 0)).exec (.initial 10) Sample.streamed).any
        (fun t => t.runner.tasks "t" = some 0 ∧
          (t.runner.heap[0]?).any (fun c => c.task.state = .rejected) ∧ t.listeners = [] ∧
          t.owners[0]? = some "t" ∧ (t.hub.objects[0]?).all (fun c => c.closed = false)) = true := by
      decide +kernel
    obtain ⟨t, ht, hend⟩ := (Option.any_eq_true _ _).mp hends
    refine ⟨t, ht, fun h => ?_⟩
    obtain ⟨htask, hstate, hlisteners, howner, hopen⟩ := of_decide_eq_true hend
    obtain ⟨c, hc, hrejected⟩ := (Option.any_eq_true _ _).mp hstate
    have hterminal : c.task.state ∈ terminalStates := by
      rw [of_decide_eq_true hrejected]
      decide
    obtain ⟨channel, hchannel, hclosed, -⟩ := h.ended "t" 0 c htask hc hterminal
      (by rw [hlisteners]; intro change hmem; cases hmem) 0 howner
    rw [hchannel] at hopen
    have hstill : channel.closed = false := by simpa using hopen
    rw [hclosed] at hstill
    cases hstill

end Acps.Partner
