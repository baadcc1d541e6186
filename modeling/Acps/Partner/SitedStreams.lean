import Acps.Partner.Frames
import Acps.Partner.TrueHistory

/-!
The events of a stream belong to the task of its channel, and those that subscribe to it get no
others.
-/

namespace Acps.Partner

open Slots Sse Transition

structure StreamSited (s : StreamWorld) : Prop where
  runner : Sited s.runner
  owned : Owned s.hub s.owners
  published : ∀ (i : ℕ) (c : TaskStreamChannel Change), s.hub.objects[i]? = some c →
    ∀ e ∈ c.published, ∃ id, s.owners[i]? = some id ∧ s.runner.Holds e.payload.ctx id
  replayed : ∀ σ ∈ s.subscriptions, ∀ e ∈ σ.replayed,
    ∃ c : TaskStreamChannel Change, s.hub.objects[σ.channel]? = some c ∧ e ∈ c.published

structure Extends (s t : StreamWorld) : Prop where
  holds : ∀ r id, s.runner.Holds r id → t.runner.Holds r id
  owners : ∀ (i : ℕ) id, s.owners[i]? = some id → t.owners[i]? = some id

variable {agent : Agent} {s t : StreamWorld}

theorem Extends.trans {u : StreamWorld} (h : Extends s t) (h' : Extends t u) : Extends s u :=
  ⟨fun r id hr => h'.holds r id (h.holds r id hr), fun i id hi => h'.owners i id (h.owners i id hi)⟩

theorem extends_of_eq (hrunner : t.runner = s.runner) (howners : t.owners = s.owners) :
    Extends s t :=
  ⟨fun _ _ hr => hrunner ▸ hr, fun _ _ hi => howners ▸ hi⟩

theorem streamSited_initial (maxBuffer : ℕ) : StreamSited (.initial maxBuffer) where
  runner := sited_initial
  owned := (streamInv_initial maxBuffer).owned
  published := (fun i c hc => by cases hc)
  replayed := (fun σ hσ => by cases hσ)

theorem StreamSited.goOn (h : StreamSited s) {runner : World} (hsited : Sited runner)
    (hholds : ∀ r id, s.runner.Holds r id → runner.Holds r id) : StreamSited (s.goOn runner) := by
  refine ⟨hsited, h.owned, fun i c hc e he => ?_, h.replayed⟩
  obtain ⟨id, hid, hr⟩ := h.published i c hc e he
  exact ⟨id, hid, hholds _ _ hr⟩

theorem StreamSited.of_carries (h : StreamSited s) {hub : StreamHub Change} {owners : List String}
    (howned : Owned hub owners) (hcarries : Carries s.hub hub fun _ : Change => False)
    (howners : ∀ (i : ℕ) id, s.owners[i]? = some id → owners[i]? = some id)
    {streamStarts runnerStarts : List TaskCommand} {listeners : List Change} :
    StreamSited { s with hub, owners, streamStarts, runnerStarts, listeners } := by
  refine ⟨h.runner, howned, fun i c hc e he => ?_, fun σ hσ e he => ?_⟩
  · rcases hcarries.origin i c hc e he with hfalse | ⟨c', hc', he'⟩
    · exact hfalse.elim
    · obtain ⟨id, hid, hr⟩ := h.published i c' hc' e he'
      exact ⟨id, howners i id hid, hr⟩
  · obtain ⟨c, hc, hmem⟩ := h.replayed σ hσ e he
    obtain ⟨c', hc', hkept⟩ := hcarries.kept σ.channel c hc
    exact ⟨c', hc', hkept e hmem⟩

theorem owners_getOrCreateChannel (s : StreamWorld) (taskId : String) (i : ℕ) (id : String)
    (hi : s.owners[i]? = some id) : (s.getOrCreateChannel taskId).owners[i]? = some id := by
  change (if (s.hub.channels taskId).isSome then s.owners else s.owners ++ [taskId])[i]? = some id
  split
  · exact hi
  · exact getElem?_concat_eq_some.mpr (.inl hi)

theorem StreamSited.getOrCreateChannel (h : StreamSited s) (taskId : String)
    {streamStarts runnerStarts : List TaskCommand} {listeners : List Change} :
    StreamSited { s.getOrCreateChannel taskId with streamStarts, runnerStarts, listeners } :=
  h.of_carries (h.owned.getOrCreateChannel taskId) (carries_getOrCreateChannel s.hub taskId)
    (owners_getOrCreateChannel s taskId)

theorem extends_getOrCreateChannel (s : StreamWorld) (taskId : String) :
    Extends s (s.getOrCreateChannel taskId) :=
  ⟨fun _ _ hr => hr, owners_getOrCreateChannel s taskId⟩

theorem StreamSited.onRunnerStateChange (h : StreamSited s) {k : ℕ}
    (ht : StreamHandler.onRunnerStateChange s k = some t) : StreamSited t ∧ Extends s t := by
  obtain ⟨change, hk, ht⟩ := Option.bind_eq_some_iff.mp ht
  obtain ⟨c, hc, rfl⟩ := Option.map_eq_some_iff.mp ht
  have hopened : StreamSited (s.getOrCreateChannel c.task.taskId) :=
    h.getOrCreateChannel c.task.taskId
  have hi := (channels_getOrCreateChannel s.hub c.task.taskId c.task.taskId).trans (if_pos rfl)
  have howner := (hopened.owned.mapped c.task.taskId _ hi).1
  -- Only the channel of the task has one more event, whether it is removed then or not.
  have hpublished : ∀ (isTerminal : Bool) {hub : StreamHub Change},
      hub.objects = (s.hub.getOrCreateChannel c.task.taskId).1.objects.modify
        (s.hub.getOrCreateChannel c.task.taskId).2 (fun c => c.publish change isTerminal) →
      Owned hub (s.getOrCreateChannel c.task.taskId).owners →
      StreamSited { s.getOrCreateChannel c.task.taskId with
        hub, listeners := s.listeners.eraseIdx k } := by
    intro isTerminal hub hobjects howned
    refine ⟨h.runner, howned, fun i d hd e he => ?_, fun σ hσ e he => ?_⟩
    · change hub.objects[i]? = some d at hd
      rw [hobjects] at hd
      rcases getElem?_modify_eq_some.mp hd with ⟨rfl, d', hd', rfl⟩ | ⟨-, hd⟩
      · rw [TaskStreamChannel.published_publish] at he
        rcases List.mem_append.mp he with he | he
        · exact hopened.published _ d' hd' e he
        · obtain rfl := List.mem_singleton.mp he
          exact ⟨_, howner, c, hc, rfl⟩
      · exact hopened.published i d hd e he
    · obtain ⟨d, hd, hmem⟩ := hopened.replayed σ hσ e he
      change ∃ d, hub.objects[σ.channel]? = some d ∧ _
      rw [hobjects]
      by_cases hchannel : (s.hub.getOrCreateChannel c.task.taskId).2 = σ.channel
      · refine ⟨d.publish change isTerminal,
          getElem?_modify_eq_some.mpr (.inl ⟨hchannel, d, hd, rfl⟩), ?_⟩
        rw [TaskStreamChannel.published_publish]
        exact List.mem_append_left _ hmem
      · exact ⟨d, getElem?_modify_eq_some.mpr (.inr ⟨hchannel, hd⟩), hmem⟩
  have hextends := extends_getOrCreateChannel s c.task.taskId
  by_cases hterminal : c.task.state ∈ terminalStates
  · simp only [decide_eq_true hterminal, if_true]
    refine ⟨hpublished true ?_ (hopened.owned.closeStream hi change), hextends.holds, hextends.owners⟩
    have heq := closeStream_publish hopened.owned hi change
    exact congrArg StreamHub.objects heq
  · simp only [decide_eq_false hterminal, Bool.false_eq_true, if_false]
    refine ⟨hpublished false ?_ (hopened.owned.publish hi change), hextends.holds, hextends.owners⟩
    have heq := publish_eq_modify hi change false
    exact congrArg StreamHub.objects heq

theorem StreamSited.subscribe (h : StreamSited s) (taskId : String) (last : Option ℕ) :
    StreamSited (StreamHandler.subscribe s taskId last) ∧
    Extends s (StreamHandler.subscribe s taskId last) ∧ ∃ added, (StreamHandler.subscribe s taskId last).subscriptions = s.subscriptions ++ added ∧
      ∀ σ ∈ added, s.owners[σ.channel]? = some taskId := by
  unfold StreamHandler.subscribe
  split
  · exact ⟨h, extends_of_eq rfl rfl, [], (List.append_nil _).symm, fun σ hσ => by cases hσ⟩
  · next i hi =>
    have howner := (h.owned.mapped taskId i hi).1
    split
    · exact ⟨h, extends_of_eq rfl rfl, [], (List.append_nil _).symm, fun σ hσ => by cases hσ⟩
    · next c hc =>
      have hwf := (h.owned.ends i c hc).wf
      have hreplay : ∀ {hub : StreamHub Change} {queue : Option ℕ},
          Carries s.hub hub (fun _ : Change => False) →
          ∀ σ ∈ s.subscriptions ++ [{ channel := i, replayed := c.replay last, queue }],
            ∀ e ∈ σ.replayed, ∃ c : TaskStreamChannel Change,
              hub.objects[σ.channel]? = some c ∧ e ∈ c.published := by
        intro hub queue hcarries σ hσ e he
        rcases List.mem_append.mp hσ with hσ | hσ
        · obtain ⟨d, hd, hmem⟩ := h.replayed σ hσ e he
          obtain ⟨d', hd', hkept⟩ := hcarries.kept σ.channel d hd
          exact ⟨d', hd', hkept e hmem⟩
        · obtain rfl := List.mem_singleton.mp hσ
          obtain ⟨c', hc', hkept⟩ := hcarries.kept i c hc
          exact ⟨c', hc', hkept e (mem_replay hwf he)⟩
      have hadded : ∀ {queue : Option ℕ}, ∀ σ ∈
          [({ channel := i, replayed := c.replay last, queue } : Subscription)],
          s.owners[σ.channel]? = some taskId := by
        intro queue σ hσ
        obtain rfl := List.mem_singleton.mp hσ
        exact howner
      dsimp only
      split
      · have hsame : Carries s.hub s.hub fun _ : Change => False :=
          ⟨fun j c hc => ⟨c, hc, fun _ he => he⟩, fun j c hc e he => .inr ⟨c, hc, he⟩⟩
        exact ⟨⟨h.runner, h.owned, h.published, hreplay hsame⟩,
          extends_of_eq rfl rfl, _, rfl, hadded⟩
      · next hopen =>
        have hclosed : c.closed = false := by simpa using hopen
        have hcarries : Carries s.hub (s.hub.modify i TaskStreamChannel.subscribe)
            fun _ : Change => False := carries_of_published fun _ => rfl
        have howned : Owned (s.hub.modify i TaskStreamChannel.subscribe) s.owners := by
          refine h.owned.modify fun y hy => ?_
          obtain rfl : y = c := Option.some.inj (hy.symm.trans hc)
          exact ⟨(h.owned.ends i y hy).subscribe hclosed, rfl⟩
        have hpublished : StreamSited { s with hub := s.hub.modify i TaskStreamChannel.subscribe } :=
          h.of_carries howned hcarries fun _ _ hi => hi
        exact ⟨⟨h.runner, howned, hpublished.published, hreplay hcarries⟩,
          extends_of_eq rfl rfl, _, rfl, hadded⟩

theorem runner_subscribe (s : StreamWorld) (taskId : String) (last : Option ℕ) :
    (StreamHandler.subscribe s taskId last).runner = s.runner := by
  unfold StreamHandler.subscribe
  split
  · rfl
  · split
    · rfl
    · dsimp only
      split <;> rfl

theorem StreamSited.put (h : StreamSited s) {k : ℕ} (ht : StreamHandler.put s k = some t) :
    StreamSited t ∧ t.runner = s.runner ∧ t.owners = s.owners ∧ ∃ σ σ' added,
      s.subscriptions[k]? = some σ ∧ t.subscriptions = s.subscriptions.set k σ' ∧
      σ'.channel = σ.channel ∧ t.delivered = s.delivered ++ added ∧
      ∀ d ∈ added, s.owners[σ.channel]? = some d.task.taskId := by
  obtain ⟨σ, hk, rfl⟩ := Option.map_eq_some_iff.mp ht
  have hσ := List.mem_of_getElem? hk
  obtain ⟨htaken, hchannel, hrest, howned, -, hcarries⟩ := next_spec h.owned (h.replayed σ hσ)
  have hsited : StreamSited { s with hub := (s.next σ).2.2 } :=
    h.of_carries howned hcarries fun _ _ hi => hi
  refine ⟨⟨h.runner, howned, hsited.published, fun τ hτ e he => ?_⟩, rfl, rfl, σ, _, _, hk, rfl,
    hchannel, rfl, fun d hd => ?_⟩
  · rcases List.mem_or_eq_of_mem_set hτ with hτ | rfl
    · exact hsited.replayed τ hτ e he
    · rw [hchannel]
      exact hsited.replayed σ hσ e (hrest e he)
  · obtain ⟨⟨e, task⟩, hmem, rfl⟩ := List.mem_map.mp hd
    obtain ⟨e', he', hmap⟩ := Option.bind_eq_some_iff.mp (Option.mem_toList.mp hmem)
    obtain ⟨c, hc, hpair⟩ := Option.map_eq_some_iff.mp hmap
    obtain ⟨rfl, rfl⟩ := Prod.mk.inj hpair
    obtain ⟨channel, hobject, hin⟩ := htaken e' he'
    obtain ⟨id, hid, d, hd, rfl⟩ := h.published σ.channel channel hobject e' hin
    obtain rfl := Option.some.inj (hd.symm.trans hc)
    exact hid

end Acps.Partner
