import Acps.Partner.Server
import Acps.Partner.SitedStreams

/-!
Who gets to see and to change a task: whoever names it.
-/

namespace Acps.Partner

open Sse Transition

def AskedBy (asked : List Asked) (aic taskId : String) : Prop :=
  ∃ a ∈ asked, a.senderId = aic ∧ a.taskId = taskId

def AskedIn (asked : List Asked) (group taskId : String) : Prop :=
  ∃ a ∈ asked, a.group = some group ∧ a.taskId = taskId

/-- Content of a task goes to those who named it, and to the groups that it was asked for in. A task
without an identifier goes by another one in a group. -/
def Receipt.Allowed (asked : List Asked) (r : Receipt) : Prop :=
  match r.receiver with
  | .agent aic => AskedBy asked aic r.task.taskId
  | .group group => r.task.taskId ≠ "" → AskedIn asked group r.task.taskId

structure Server.Inv (asked : List Asked) (s : Server) : Prop where
  streams : StreamSited s.streams
  aligned : s.subscribers.length = s.streams.subscriptions.length
  subscribed : ∀ (k : ℕ) (σ : Subscription) (aic : String), s.streams.subscriptions[k]? = some σ →
    s.subscribers[k]? = some aic →
      ∃ id, s.streams.owners[σ.channel]? = some id ∧ AskedBy asked aic id
  replies : ∀ r ∈ s.replies, ∃ id, s.runner.Holds r.2 id ∧ AskedBy asked r.1 id
  generators : ∀ g ∈ s.generators, AskedBy asked g.1 g.2.1
  updates : ∀ u ∈ s.updates, ∀ group ∈ u.2, ∃ id, s.runner.Holds u.1 id ∧ AskedIn asked group id
  mapped : ∀ id group, s.handler.taskGroupMap id = some group → AskedIn asked group id
  subs : ∀ sub ∈ s.notifications.subs, AskedBy asked sub.ownerAic sub.taskId
  received : ∀ r ∈ s.received, r.Allowed asked

section Invariant

variable {agent : Agent} {asked asked' : List Asked} {s t : Server}

theorem AskedBy.mono {aic taskId : String} (h : AskedBy asked aic taskId) (hsub : asked ⊆ asked') :
    AskedBy asked' aic taskId := by
  obtain ⟨a, ha, heq⟩ := h
  exact ⟨a, hsub ha, heq⟩

theorem AskedIn.mono {group taskId : String} (h : AskedIn asked group taskId)
    (hsub : asked ⊆ asked') : AskedIn asked' group taskId := by
  obtain ⟨a, ha, heq⟩ := h
  exact ⟨a, hsub ha, heq⟩

theorem Receipt.Allowed.mono {r : Receipt} (h : r.Allowed asked) (hsub : asked ⊆ asked') :
    r.Allowed asked' := by
  obtain ⟨receiver, task⟩ := r
  cases receiver with
  | agent aic => exact AskedBy.mono h hsub
  | group group => exact fun hne => AskedIn.mono (h hne) hsub

theorem Server.Inv.mono (h : s.Inv asked) (hsub : asked ⊆ asked') : s.Inv asked' where
  streams := h.streams
  aligned := h.aligned
  subscribed := fun k σ aic hσ haic =>
    (h.subscribed k σ aic hσ haic).imp fun _ hid => ⟨hid.1, hid.2.mono hsub⟩
  replies := fun r hr => (h.replies r hr).imp fun _ hid => ⟨hid.1, hid.2.mono hsub⟩
  generators := fun g hg => (h.generators g hg).mono hsub
  updates := fun u hu group hgroup =>
    (h.updates u hu group hgroup).imp fun _ hid => ⟨hid.1, hid.2.mono hsub⟩
  mapped := fun id group hgroup => (h.mapped id group hgroup).mono hsub
  subs := fun sub hsub' => (h.subs sub hsub').mono hsub
  received := fun r hr => (h.received r hr).mono hsub

theorem Server.inv_initial (maxBuffer : ℕ) : (Server.initial maxBuffer).Inv [] where
  streams := streamSited_initial maxBuffer
  aligned := rfl
  subscribed := (fun k σ aic hσ => by cases hσ)
  replies := (fun r hr => by cases hr)
  generators := (fun g hg => by cases hg)
  updates := (fun u hu => by cases hu)
  mapped := (fun id group hgroup => by cases hgroup)
  subs := (fun sub hsub => by cases hsub)
  received := (fun r hr => by cases hr)

theorem Server.Inv.extend (h : s.Inv asked) {streams : StreamWorld} (hstreams : StreamSited streams)
    (hextends : Extends s.streams streams)
    (hsame : streams.subscriptions = s.streams.subscriptions) :
    Server.Inv asked { s with streams } where
  streams := hstreams
  aligned := h.aligned.trans (congrArg List.length hsame).symm
  subscribed := fun k σ aic hσ haic =>
    (h.subscribed k σ aic (hsame ▸ hσ) haic).imp fun _ hid => ⟨hextends.owners _ _ hid.1, hid.2⟩
  replies := fun r hr => (h.replies r hr).imp fun _ hid => ⟨hextends.holds _ _ hid.1, hid.2⟩
  generators := h.generators
  updates := fun u hu group hgroup =>
    (h.updates u hu group hgroup).imp fun _ hid => ⟨hextends.holds _ _ hid.1, hid.2⟩
  mapped := h.mapped
  subs := h.subs
  received := h.received

theorem Server.Inv.goOn (h : s.Inv asked) {a : Act} {runner : World}
    (hstep : step agent s.runner a = some runner) : (s.goOn runner).Inv asked := by
  have hholds : ∀ r id, s.runner.Holds r id → runner.Holds r id := by
    rcases works_step h.streams.runner hstep with rfl | ⟨taskId, -, hworks⟩
    · exact fun _ _ hr => hr
    · exact fun _ _ hr => hworks.holds hr
  exact h.extend (h.streams.goOn (sited_step h.streams.runner hstep) hholds) ⟨hholds, fun _ _ hi => hi⟩
    rfl

theorem Server.Inv.result_holds (h : s.Inv asked) {command : TaskCommand} {r : ℕ}
    (hr : r ∈ (s.result command).toList) : s.runner.Holds r command.target := by
  have hresult := Option.mem_toList.mp hr
  unfold Server.result at hresult
  split at hresult
  · cases hresult
  · exact h.streams.runner.stored _ r hresult

theorem Server.Inv.handleRpcRequest (h : s.Inv asked) {command : TaskCommand} (now : Time)
    (hasked : command.named = true → AskedBy asked command.senderId command.target) :
    (s.handleRpcRequest agent command now).Inv asked := by
  have hstep : step agent s.runner (.dispatch command now) =
      some (dispatch agent command now s.runner) := rfl
  have hgone := h.goOn hstep
  unfold Server.handleRpcRequest
  dsimp only
  split
  · next hnamed =>
    refine ⟨hgone.streams, hgone.aligned, hgone.subscribed, fun r hr => ?_, hgone.generators,
      hgone.updates, hgone.mapped, hgone.subs, hgone.received⟩
    rcases List.mem_append.mp hr with hr | hr
    · exact hgone.replies r hr
    · obtain ⟨ctx, hctx, rfl⟩ := List.mem_map.mp hr
      exact ⟨command.target, hgone.result_holds hctx, hasked hnamed⟩
  · exact hgone

theorem Server.Inv.reply (h : s.Inv asked) {k : ℕ} (ht : s.reply k = some t) : t.Inv asked := by
  obtain ⟨⟨senderId, ctx⟩, hk, ht⟩ := Option.bind_eq_some_iff.mp ht
  obtain ⟨c, hc, rfl⟩ := Option.map_eq_some_iff.mp ht
  refine ⟨h.streams, h.aligned, h.subscribed,
    fun r hr => h.replies r (List.mem_of_mem_eraseIdx hr), h.generators, h.updates, h.mapped, h.subs,
    fun r hr => ?_⟩
  rcases List.mem_append.mp hr with hr | hr
  · exact h.received r hr
  · obtain rfl := List.mem_singleton.mp hr
    obtain ⟨id, ⟨d, hd, rfl⟩, hasked⟩ := h.replies _ (List.mem_of_getElem? hk)
    obtain rfl := Option.some.inj (hd.symm.trans hc)
    exact hasked

theorem Server.Inv.handleStreamRequest (h : s.Inv asked) {command : TaskCommand}
    {last : Option ℕ} (hasked : AskedBy asked command.senderId command.target)
    (ht : s.handleStreamRequest command last = some t) : t.Inv asked := by
  have hgenerators {last : Option ℕ} : ∀ g ∈ s.generators ++ [(command.senderId, command.target, last)],
      AskedBy asked g.1 g.2.1 := by
    intro g hg
    rcases List.mem_append.mp hg with hg | hg
    · exact h.generators g hg
    · obtain rfl := List.mem_singleton.mp hg
      exact hasked
  unfold Server.handleStreamRequest at ht
  split at ht
  · obtain ⟨streams, hstreams, rfl⟩ := Option.map_eq_some_iff.mp ht
    obtain ⟨-, hstreams⟩ := Option.ite_none_right_eq_some.mp hstreams
    obtain rfl := Option.some.inj hstreams
    have hopened := extends_getOrCreateChannel s.streams command.target
    have hsited : StreamSited { s.streams.getOrCreateChannel command.target with
      streamStarts := s.streams.streamStarts ++ [command] } :=
        h.streams.getOrCreateChannel command.target
    have hextended := h.extend hsited ⟨hopened.holds, hopened.owners⟩ rfl
    exact ⟨hextended.streams, hextended.aligned, hextended.subscribed, hextended.replies, hgenerators,
      hextended.updates, hextended.mapped, hextended.subs, hextended.received⟩
  · split at ht
    · obtain rfl := Option.some.inj ht
      exact ⟨h.streams, h.aligned, h.subscribed, h.replies, hgenerators, h.updates, h.mapped, h.subs,
        h.received⟩
    · cases ht
  · cases ht
  · cases ht
  · cases ht
  · cases ht

theorem Server.Inv.generate (h : s.Inv asked) {k : ℕ} (ht : s.generate k = some t) :
    t.Inv asked := by
  obtain ⟨⟨senderId, taskId, last⟩, hk, rfl⟩ := Option.map_eq_some_iff.mp ht
  obtain ⟨hstreams, hextends, added, hadded, howners⟩ := h.streams.subscribe taskId last
  have hasked : AskedBy asked senderId taskId := h.generators _ (List.mem_of_getElem? hk)
  have hdrop : (StreamHandler.subscribe s.streams taskId last).subscriptions.drop
      s.streams.subscriptions.length = added := by
    rw [hadded, List.drop_left]
  refine ⟨hstreams, ?_, fun k σ aic hσ haic => ?_,
    fun r hr => (h.replies r hr).imp fun _ hid => ⟨hextends.holds _ _ hid.1, hid.2⟩,
    fun g hg => h.generators g (List.mem_of_mem_eraseIdx hg),
    fun u hu group hgroup =>
      (h.updates u hu group hgroup).imp fun _ hid => ⟨hextends.holds _ _ hid.1, hid.2⟩,
    h.mapped, h.subs, h.received⟩
  · dsimp only
    rw [hdrop, hadded, List.length_append, List.length_append, List.length_map, h.aligned]
  · dsimp only at hσ haic
    rw [hadded] at hσ
    rw [hdrop] at haic
    by_cases hlt : k < s.streams.subscriptions.length
    · rw [List.getElem?_append_left hlt] at hσ
      rw [List.getElem?_append_left (h.aligned ▸ hlt)] at haic
      exact (h.subscribed k σ aic hσ haic).imp fun _ hid => ⟨hextends.owners _ _ hid.1, hid.2⟩
    · rw [List.getElem?_append_right (Nat.not_lt.mp hlt)] at hσ
      rw [List.getElem?_append_right (h.aligned ▸ Nat.not_lt.mp hlt)] at haic
      obtain ⟨-, -, rfl⟩ := List.mem_map.mp (List.mem_of_getElem? haic)
      exact ⟨taskId, hextends.owners _ _ (howners σ (List.mem_of_getElem? hσ)), hasked⟩

theorem Server.Inv.put (h : s.Inv asked) {k : ℕ} (ht : s.put k = some t) : t.Inv asked := by
  obtain ⟨aic, haic, ht⟩ := Option.bind_eq_some_iff.mp ht
  obtain ⟨streams, hput, rfl⟩ := Option.map_eq_some_iff.mp ht
  obtain ⟨hstreams, hrunner, howners, σ, σ', added, hσ, hset, hchannel, hadded, hown⟩ :=
    h.streams.put hput
  have hextends : Extends s.streams streams := extends_of_eq hrunner howners
  refine ⟨hstreams, ?_, fun j τ aic' hτ haic' => ?_,
    fun r hr => (h.replies r hr).imp fun _ hid => ⟨hextends.holds _ _ hid.1, hid.2⟩,
    h.generators,
    fun u hu group hgroup =>
      (h.updates u hu group hgroup).imp fun _ hid => ⟨hextends.holds _ _ hid.1, hid.2⟩,
    h.mapped, h.subs, fun r hr => ?_⟩
  · dsimp only
    rw [hset, List.length_set]
    exact h.aligned
  · dsimp only at hτ
    rw [hset] at hτ
    by_cases hj : k = j
    · subst hj
      rw [List.getElem?_set_self (List.getElem?_eq_some_iff.mp hσ).1] at hτ
      obtain rfl := Option.some.inj hτ
      obtain ⟨id, hid, hasked⟩ := h.subscribed k σ aic' hσ haic'
      refine ⟨id, ?_, hasked⟩
      dsimp only
      rw [hchannel]
      exact hextends.owners _ _ hid
    · rw [List.getElem?_set_ne hj] at hτ
      exact (h.subscribed j τ aic' hτ haic').imp fun _ hid => ⟨hextends.owners _ _ hid.1, hid.2⟩
  · dsimp only at hr
    rw [hadded, List.drop_left] at hr
    rcases List.mem_append.mp hr with hr | hr
    · exact h.received r hr
    · obtain ⟨d, hd, rfl⟩ := List.mem_map.mp hr
      obtain ⟨id, hid, hasked⟩ := h.subscribed k σ aic hσ haic
      obtain rfl := Option.some.inj (hid.symm.trans (hown d hd))
      exact hasked

theorem Server.Inv.handleNotificationStart (h : s.Inv asked) {owner configId : String}
    {command : TaskCommand} {states : List TaskState}
    (hasked : AskedBy asked command.senderId command.target)
    (ht : s.handleNotificationStart owner command configId states = some t) : t.Inv asked := by
  obtain ⟨⟨rfl, -, -⟩, ht⟩ := Option.ite_none_right_eq_some.mp ht
  obtain rfl := Option.some.inj ht
  refine ⟨h.streams, h.aligned, h.subscribed, h.replies, h.generators, h.updates, h.mapped,
    fun sub hsub => ?_, h.received⟩
  rcases List.mem_append.mp hsub with hsub | hsub
  · exact h.subs sub hsub
  · obtain rfl := List.mem_singleton.mp hsub
    exact hasked

theorem mem_recipients {service : NotificationService} {taskId aic : String} {state : TaskState}
    (h : aic ∈ service.recipients taskId state) :
    ∃ sub ∈ service.subs, sub.ownerAic = aic ∧ sub.taskId = taskId := by
  unfold NotificationService.recipients at h
  dsimp only at h
  split at h
  · obtain ⟨sub, hsub, rfl⟩ := List.mem_map.mp h
    obtain ⟨hmem, hmatches⟩ := List.mem_filter.mp hsub
    exact ⟨sub, hmem, rfl, (of_decide_eq_true hmatches).1⟩
  · cases h

theorem Server.Inv.dispatchNotification (h : s.Inv asked) {k : ℕ}
    (ht : s.dispatchNotification k = some t) : t.Inv asked := by
  obtain ⟨ctx, -, ht⟩ := Option.bind_eq_some_iff.mp ht
  obtain ⟨c, -, rfl⟩ := Option.map_eq_some_iff.mp ht
  refine ⟨h.streams, h.aligned, h.subscribed, h.replies, h.generators, h.updates, h.mapped, h.subs,
    fun r hr => ?_⟩
  rcases List.mem_append.mp hr with hr | hr
  · exact h.received r hr
  · obtain ⟨aic, haic, rfl⟩ := List.mem_map.mp hr
    obtain ⟨sub, hsub, rfl, htask⟩ := mem_recipients haic
    have hasked := h.subs sub hsub
    rw [htask] at hasked
    exact hasked

theorem Server.Inv.broadcast (h : s.Inv asked) {c : TaskContext} {group : Option String}
    (hgroup : ∀ g ∈ group, AskedIn asked g c.task.taskId) :
    (s.broadcastTaskUpdate c group).Inv asked := by
  unfold Server.broadcastTaskUpdate
  split
  · exact h
  · next g hg =>
    split
    · refine ⟨h.streams, h.aligned, h.subscribed, h.replies, h.generators, h.updates, h.mapped,
        h.subs, fun r hr => ?_⟩
      rcases List.mem_append.mp hr with hr | hr
      · exact h.received r hr
      · obtain rfl := List.mem_singleton.mp hr
        intro hne
        rcases Option.or_eq_some_iff.mp hg with hg | ⟨-, hg⟩
        · exact hgroup g (Option.filter_eq_some_iff.mp hg).1
        · rw [if_neg hne] at hg
          exact h.mapped _ g hg
    · exact h

theorem updates_broadcastTaskUpdate (s : Server) (c : TaskContext) (group : Option String) :
    (s.broadcastTaskUpdate c group).updates = s.updates := by
  unfold Server.broadcastTaskUpdate
  split
  · rfl
  · split <;> rfl

theorem runner_broadcastTaskUpdate (s : Server) (c : TaskContext) (group : Option String) :
    (s.broadcastTaskUpdate c group).runner = s.runner := by
  unfold Server.broadcastTaskUpdate
  split
  · rfl
  · split <;> rfl

theorem Server.Inv.broadcastUpdate (h : s.Inv asked) {k : ℕ} (ht : s.broadcastUpdate k = some t) :
    t.Inv asked := by
  obtain ⟨⟨ctx, group⟩, hk, ht⟩ := Option.bind_eq_some_iff.mp ht
  obtain ⟨c, hc, rfl⟩ := Option.map_eq_some_iff.mp ht
  have htold : (s.broadcastTaskUpdate c group).Inv asked := by
    refine h.broadcast fun g hg => ?_
    obtain ⟨id, ⟨d, hd, rfl⟩, hasked⟩ := h.updates _ (List.mem_of_getElem? hk) g hg
    obtain rfl := Option.some.inj (hd.symm.trans hc)
    exact hasked
  exact ⟨htold.streams, htold.aligned, htold.subscribed, htold.replies, htold.generators,
    fun u hu => htold.updates u (updates_broadcastTaskUpdate s c group ▸ List.mem_of_mem_eraseIdx hu),
    htold.mapped, htold.subs, htold.received⟩

theorem Server.Inv.onGroupStateChange (h : s.Inv asked) {k : ℕ}
    (ht : s.onGroupStateChange k = some t) : t.Inv asked := by
  obtain ⟨ctx, -, ht⟩ := Option.bind_eq_some_iff.mp ht
  obtain ⟨c, -, rfl⟩ := Option.map_eq_some_iff.mp ht
  have herased : Server.Inv asked { s with groupChanges := s.groupChanges.eraseIdx k } :=
    ⟨h.streams, h.aligned, h.subscribed, h.replies, h.generators, h.updates, h.mapped, h.subs,
      h.received⟩
  dsimp only
  split
  · exact herased
  · split
    · exact herased
    · next g hg =>
      refine herased.broadcast fun g' hg' => ?_
      obtain rfl := Option.some.inj hg'
      exact h.mapped _ g hg

theorem Server.Inv.of_handler (h : s.Inv asked) {handler : GroupHandler}
    (hmapped : ∀ id group, handler.taskGroupMap id = some group → AskedIn asked group id) :
    Server.Inv asked { s with handler } :=
  ⟨h.streams, h.aligned, h.subscribed, h.replies, h.generators, h.updates, hmapped, h.subs,
    h.received⟩

theorem mapped_removeGroupState {handler : GroupHandler} {groupId id group : String}
    (h : (handler.removeGroupState groupId).taskGroupMap id = some group) :
    handler.taskGroupMap id = some group :=
  (Option.filter_eq_some_iff.mp h).1

theorem mapped_joinGroup {handler : GroupHandler} {groupId leader id group : String}
    (h : (handler.joinGroup groupId leader).taskGroupMap id = some group) :
    handler.taskGroupMap id = some group := by
  unfold GroupHandler.joinGroup at h
  split at h
  · exact h
  · dsimp only at h
    split at h
    · exact mapped_removeGroupState h
    · exact h

theorem Server.Inv.onTaskCommand (h : s.Inv asked) {command : TaskCommand}
    {groupId : Option String} (now : Time)
    (hasked : ∀ g ∈ s.handler.resolveGroupForTaskCommand groupId command.senderId,
      AskedIn asked g command.target) : (s.onTaskCommand agent command groupId now).Inv asked := by
  have hstep : step agent s.runner (.onTaskCommand command true now) =
      some (toTask agent command now s.runner) := rfl
  have hgone := h.goOn hstep
  have hmapped : Server.Inv asked { s.goOn (toTask agent command now s.runner) with
      handler := s.handler.mapTask command groupId } := by
    refine hgone.of_handler fun id group hgroup => ?_
    unfold GroupHandler.mapTask at hgroup
    split at hgroup
    · next g hg =>
      change Function.update s.handler.taskGroupMap command.target (some g) id = some group at hgroup
      by_cases hid : id = command.target
      · rw [hid, Function.update_self] at hgroup
        rw [hid]
        exact Option.some.inj hgroup ▸ hasked g hg
      · rw [Function.update_of_ne hid] at hgroup
        exact h.mapped id group hgroup
    · exact h.mapped id group hgroup
  refine ⟨hmapped.streams, hmapped.aligned, hmapped.subscribed, hmapped.replies, hmapped.generators,
    fun u hu group hgroup => ?_, hmapped.mapped, hmapped.subs, hmapped.received⟩
  rcases List.mem_append.mp hu with hu | hu
  · exact hmapped.updates u hu group hgroup
  · obtain ⟨ctx, hctx, rfl⟩ := List.mem_map.mp hu
    exact ⟨command.target, hmapped.result_holds hctx, hasked group hgroup⟩

theorem Server.Inv.receive (h : s.Inv asked) {groupId : String} {message : GroupMessage} {now : Time}
    (hasked : ∀ command ∈ s.commandOf agent groupId message,
      ∀ g ∈ s.handler.resolveGroupForTaskCommand message.groupId command.senderId,
        AskedIn asked g command.target)
    (ht : s.receive agent groupId message now = some t) : t.Inv asked := by
  obtain ⟨client, -, rfl⟩ := Option.map_eq_some_iff.mp ht
  split
  · next command hcommand => exact h.onTaskCommand now (hasked command hcommand)
  · split
    · exact h.of_handler h.mapped
    · exact h
  · exact h

theorem mem_asked {a : ServerAct} {x : Asked} (h : s.asks agent a = some x) :
    x ∈ s.asked ++ (s.asks agent a).toList :=
  List.mem_append_right _ (Option.mem_toList.mpr h)

theorem Server.Inv.perform (h : s.Inv s.asked) {a : ServerAct} (ht : s.perform agent a = some t) :
    t.Inv (s.asked ++ (s.asks agent a).toList) := by
  have h' : s.Inv (s.asked ++ (s.asks agent a).toList) := h.mono (List.subset_append_left _ _)
  cases a with
  | rpc command now =>
    obtain rfl := Option.some.inj ht
    exact h'.handleRpcRequest now fun hnamed => ⟨_, mem_asked (if_pos hnamed), rfl, rfl⟩
  | reply k => exact h'.reply ht
  | stream command last => exact h'.handleStreamRequest ⟨_, mem_asked rfl, rfl, rfl⟩ ht
  | onStreamStart k =>
    obtain ⟨streams, hstreams, rfl⟩ := Option.map_eq_some_iff.mp ht
    obtain ⟨command, -, rfl⟩ := Option.map_eq_some_iff.mp hstreams
    have hopened := extends_getOrCreateChannel s.streams command.target
    exact h'.extend (h.streams.getOrCreateChannel command.target) ⟨hopened.holds, hopened.owners⟩ rfl
  | onStart k now =>
    obtain ⟨streams, hstreams, rfl⟩ := Option.map_eq_some_iff.mp ht
    obtain ⟨command, -, rfl⟩ := Option.map_eq_some_iff.mp hstreams
    have hstep : step agent s.runner (.onStreamStart command now) =
        some (Partner.onStreamStart agent command now s.runner) := rfl
    have hgone := h'.goOn hstep
    exact ⟨⟨hgone.streams.runner, hgone.streams.owned, hgone.streams.published,
      hgone.streams.replayed⟩, hgone.aligned, hgone.subscribed, hgone.replies, hgone.generators,
      hgone.updates, hgone.mapped, hgone.subs, hgone.received⟩
  | onRunnerStateChange k =>
    obtain ⟨streams, hstreams, rfl⟩ := Option.map_eq_some_iff.mp ht
    obtain ⟨hsited, hextends⟩ := h.streams.onRunnerStateChange hstreams
    refine h'.extend hsited hextends ?_
    obtain ⟨change, -, hstreams⟩ := Option.bind_eq_some_iff.mp hstreams
    obtain ⟨c, -, rfl⟩ := Option.map_eq_some_iff.mp hstreams
    rfl
  | generate k => exact h'.generate ht
  | put k => exact h'.put ht
  | notificationSet owner taskId configId url =>
    obtain rfl := Option.some.inj ht
    exact ⟨h'.streams, h'.aligned, h'.subscribed, h'.replies, h'.generators, h'.updates, h'.mapped,
      h'.subs, h'.received⟩
  | notificationDelete owner taskId configId =>
    obtain rfl := Option.some.inj ht
    exact ⟨h'.streams, h'.aligned, h'.subscribed, h'.replies, h'.generators, h'.updates, h'.mapped,
      h'.subs, h'.received⟩
  | notificationStart owner command configId states =>
    exact h'.handleNotificationStart ⟨_, mem_asked rfl, rfl, rfl⟩ ht
  | dispatchNotification k => exact h'.dispatchNotification ht
  | joinGroup groupId leader =>
    obtain rfl := Option.some.inj ht
    exact h'.of_handler fun id group hgroup => h'.mapped id group (mapped_joinGroup hgroup)
  | receive groupId message now =>
    refine h'.receive (fun command hcommand g hg => ?_) ht
    exact ⟨_, mem_asked (congrArg (Option.map _) hcommand), hg, rfl⟩
  | handleLeaveRequest groupId =>
    obtain ⟨client, -, ht⟩ := Option.bind_eq_some_iff.mp ht
    obtain ⟨-, ht⟩ := Option.ite_none_right_eq_some.mp ht
    obtain rfl := Option.some.inj ht
    exact h'.of_handler h'.mapped
  | cleanupGroupResources groupId =>
    obtain ⟨client, -, ht⟩ := Option.bind_eq_some_iff.mp ht
    obtain ⟨-, ht⟩ := Option.ite_none_right_eq_some.mp ht
    obtain rfl := Option.some.inj ht
    exact h'.of_handler fun id group hgroup => h'.mapped id group (mapped_removeGroupState hgroup)
  | broadcastUpdate k => exact h'.broadcastUpdate ht
  | onGroupStateChange k => exact h'.onGroupStateChange ht
  | resume future r =>
    obtain ⟨runner, hrunner, rfl⟩ := Option.map_eq_some_iff.mp ht
    exact h'.goOn hrunner
  | resumeCancel cancellation now =>
    obtain ⟨runner, hrunner, rfl⟩ := Option.map_eq_some_iff.mp ht
    exact h'.goOn hrunner

theorem Server.inv_step (s : Server) (a : ServerAct) (t : Server) (h : s.Inv s.asked)
    (ht : s.serverStep agent a = some t) : t.Inv t.asked := by
  obtain ⟨u, hu, rfl⟩ := Option.map_eq_some_iff.mp ht
  have hperformed := h.perform hu
  exact ⟨hperformed.streams, hperformed.aligned, hperformed.subscribed, hperformed.replies,
    hperformed.generators, hperformed.updates, hperformed.mapped, hperformed.subs,
    hperformed.received⟩

theorem Server.works_perform (h : s.Inv asked) {a : ServerAct} (ht : s.perform agent a = some t) :
    t.runner = s.runner ∨
      ∃ taskId, s.task agent a = some taskId ∧ Works taskId s.runner t.runner := by
  have hsited := h.streams.runner
  cases a with
  | rpc command now =>
    obtain rfl := Option.some.inj ht
    have hrunner : (s.handleRpcRequest agent command now).runner =
        Partner.dispatch agent command now s.runner := by
      unfold Server.handleRpcRequest
      dsimp only
      split <;> rfl
    by_cases hnamed : command.named = true
    · refine .inr ⟨command.target, if_pos hnamed, ?_⟩
      rw [hrunner]
      unfold Partner.dispatch
      split
      · exact works_toTask hsited command now
      · exact works_refl s.runner
    · refine .inl (hrunner.trans ?_)
      unfold Partner.dispatch
      exact if_neg hnamed
  | onStart k now =>
    obtain ⟨streams, hstreams, rfl⟩ := Option.map_eq_some_iff.mp ht
    obtain ⟨command, hk, rfl⟩ := Option.map_eq_some_iff.mp hstreams
    refine (works_step hsited (a := .onStreamStart command now) rfl).imp_right ?_
    rintro ⟨taskId, htask, hworks⟩
    exact ⟨taskId, (congrArg (Option.map TaskCommand.target) hk).trans htask, hworks⟩
  | receive groupId message now =>
    obtain ⟨client, -, rfl⟩ := Option.map_eq_some_iff.mp ht
    split
    · next command hcommand =>
      exact .inr ⟨command.target, congrArg (Option.map TaskCommand.target) hcommand,
        works_toTask hsited command now⟩
    · split <;> exact .inl rfl
    · exact .inl rfl
  | resume future r =>
    obtain ⟨runner, hrunner, rfl⟩ := Option.map_eq_some_iff.mp ht
    exact works_step hsited hrunner
  | resumeCancel cancellation now =>
    obtain ⟨runner, hrunner, rfl⟩ := Option.map_eq_some_iff.mp ht
    exact works_step hsited hrunner
  | reply k =>
    obtain ⟨reply, -, ht⟩ := Option.bind_eq_some_iff.mp ht
    obtain ⟨c, -, rfl⟩ := Option.map_eq_some_iff.mp ht
    exact .inl rfl
  | stream command last =>
    change s.handleStreamRequest command last = some t at ht
    unfold Server.handleStreamRequest at ht
    split at ht
    · obtain ⟨streams, hstreams, rfl⟩ := Option.map_eq_some_iff.mp ht
      obtain ⟨-, hstreams⟩ := Option.ite_none_right_eq_some.mp hstreams
      obtain rfl := Option.some.inj hstreams
      exact .inl rfl
    · obtain ⟨-, ht⟩ := Option.ite_none_right_eq_some.mp ht
      obtain rfl := Option.some.inj ht
      exact .inl rfl
    all_goals cases ht
  | onStreamStart k =>
    obtain ⟨streams, hstreams, rfl⟩ := Option.map_eq_some_iff.mp ht
    obtain ⟨command, -, rfl⟩ := Option.map_eq_some_iff.mp hstreams
    exact .inl rfl
  | onRunnerStateChange k =>
    obtain ⟨streams, hstreams, rfl⟩ := Option.map_eq_some_iff.mp ht
    obtain ⟨change, -, hstreams⟩ := Option.bind_eq_some_iff.mp hstreams
    obtain ⟨c, -, rfl⟩ := Option.map_eq_some_iff.mp hstreams
    exact .inl rfl
  | generate k =>
    obtain ⟨⟨senderId, taskId, last⟩, -, rfl⟩ := Option.map_eq_some_iff.mp ht
    exact .inl (runner_subscribe s.streams taskId last)
  | put k =>
    obtain ⟨aic, -, ht⟩ := Option.bind_eq_some_iff.mp ht
    obtain ⟨streams, hput, rfl⟩ := Option.map_eq_some_iff.mp ht
    exact .inl (h.streams.put hput).2.1
  | notificationSet owner taskId configId url =>
    obtain rfl := Option.some.inj ht
    exact .inl rfl
  | notificationDelete owner taskId configId =>
    obtain rfl := Option.some.inj ht
    exact .inl rfl
  | notificationStart owner command configId states =>
    obtain ⟨-, ht⟩ := Option.ite_none_right_eq_some.mp ht
    obtain rfl := Option.some.inj ht
    exact .inl rfl
  | dispatchNotification k =>
    obtain ⟨ctx, -, ht⟩ := Option.bind_eq_some_iff.mp ht
    obtain ⟨c, -, rfl⟩ := Option.map_eq_some_iff.mp ht
    exact .inl rfl
  | joinGroup groupId leader =>
    obtain rfl := Option.some.inj ht
    exact .inl rfl
  | handleLeaveRequest groupId =>
    obtain ⟨client, -, ht⟩ := Option.bind_eq_some_iff.mp ht
    obtain ⟨-, ht⟩ := Option.ite_none_right_eq_some.mp ht
    obtain rfl := Option.some.inj ht
    exact .inl rfl
  | cleanupGroupResources groupId =>
    obtain ⟨client, -, ht⟩ := Option.bind_eq_some_iff.mp ht
    obtain ⟨-, ht⟩ := Option.ite_none_right_eq_some.mp ht
    obtain rfl := Option.some.inj ht
    exact .inl rfl
  | broadcastUpdate k =>
    obtain ⟨⟨ctx, group⟩, -, ht⟩ := Option.bind_eq_some_iff.mp ht
    obtain ⟨c, -, rfl⟩ := Option.map_eq_some_iff.mp ht
    exact .inl (runner_broadcastTaskUpdate s c group)
  | onGroupStateChange k =>
    obtain ⟨ctx, -, ht⟩ := Option.bind_eq_some_iff.mp ht
    obtain ⟨c, -, rfl⟩ := Option.map_eq_some_iff.mp ht
    dsimp only
    split
    · exact .inl rfl
    · split
      · exact .inl rfl
      · exact .inl (runner_broadcastTaskUpdate _ c _)

theorem Server.context_step (h : s.Inv asked) {a : ServerAct} (ht : s.serverStep agent a = some t)
    {taskId : String} (hother : s.task agent a ≠ some taskId) :
    t.context taskId = s.context taskId := by
  obtain ⟨u, hu, rfl⟩ := Option.map_eq_some_iff.mp ht
  rcases Server.works_perform h hu with hsame | ⟨worked, htask, hworks⟩
  · exact congrArg (World.context · taskId) hsame
  · have hne : taskId ≠ worked := fun heq => hother (heq ▸ htask)
    exact hworks.context h.streams.runner hne

end Invariant

def starter (asked : List Asked) (taskId : String) : Option Asked :=
  asked.find? fun x => x.start ∧ x.taskId = taskId

/-- The one who started a task is the only agent, and the group in which it was started the only one,
that a command is for. -/
def Asked.Of (x o : Asked) : Prop :=
  x.senderId = o.senderId ∧ ∀ group ∈ o.group, ∀ group' ∈ x.group, group' = group

def Receipt.Of (r : Receipt) (o : Asked) : Prop :=
  match r.receiver with
  | .agent aic => aic = o.senderId
  | .group group' => ∀ group ∈ o.group, group' = group

instance (r : Receipt) (o : Asked) : Decidable (r.Of o) := by
  obtain ⟨receiver, task⟩ := r
  cases receiver with
  | agent aic => exact inferInstanceAs (Decidable (aic = o.senderId))
  | group group' => exact inferInstanceAs (Decidable (∀ group ∈ o.group, group' = group))

def Server.LeavesOthers (agent : Agent) (s : Server) (a : ServerAct) : Prop :=
  ∀ x ∈ s.asks agent a, ∀ o ∈ starter s.asked x.taskId, x.senderId ≠ o.senderId →
    ∀ t, s.serverStep agent a = some t →
      (t.context x.taskId).map TaskContext.task = (s.context x.taskId).map TaskContext.task

section Runs

variable {agent : Agent} {maxBuffer : ℕ} {schedule : List ServerAct} {s t : Server}

theorem server_inv (hrun : (server agent).exec (.initial maxBuffer) schedule = some s) :
    s.Inv s.asked :=
  (server agent).exec_induction (I := fun s => s.Inv s.asked) Server.inv_step
    (Server.inv_initial maxBuffer) hrun

theorem context_exec (h : s.Inv s.asked) {taskId : String}
    (hothers : (server agent).Meets (fun s a => s.task agent a ≠ some taskId) s schedule)
    (hrun : (server agent).exec s schedule = some t) : t.context taskId = s.context taskId := by
  have hinv := (server agent).exec_invariant
    (I := fun t => t.Inv t.asked ∧ t.context taskId = s.context taskId)
    (fun u a v hu hother hv => ⟨Server.inv_step u a v hu.1 hv,
      (Server.context_step hu.1 hv hother).trans hu.2⟩)
    ⟨h, rfl⟩ hothers hrun
  exact hinv.2

/-- Content of a task goes to those who named it and to the groups that it was asked for in, and what
is done for other tasks leaves it as it is. If all commands that named it are of the one who started
it and in the group in which it was started, nobody else gets any of it. -/
theorem tasks_isolated (hrun : (server agent).exec (.initial maxBuffer) schedule = some s) :
    (∀ r ∈ s.received, r.Allowed s.asked) ∧
    (∀ (taskId : String) (later : List ServerAct) (t : Server),
      (server agent).Meets (fun s a => s.task agent a ≠ some taskId) s later →
      (server agent).exec s later = some t → t.context taskId = s.context taskId) ∧
    ∀ r ∈ s.received, r.task.taskId ≠ "" → ∀ o ∈ starter s.asked r.task.taskId,
      (∀ x ∈ s.asked, x.taskId = r.task.taskId → x.Of o) → r.Of o := by
  have h := server_inv hrun
  refine ⟨h.received, fun taskId later t hothers ht => context_exec h hothers ht,
    fun r hr hne o _ howned => ?_⟩
  have hallowed := h.received r hr
  obtain ⟨receiver, task⟩ := r
  cases receiver with
  | agent aic =>
    obtain ⟨x, hx, rfl, htask⟩ := hallowed
    exact (howned x hx htask).1
  | group group' =>
    obtain ⟨x, hx, hin, htask⟩ := hallowed hne
    exact fun group hgroup => (howned x hx htask).2 group hgroup group' hin

namespace Sample

def of (senderId : String) (type : TaskCommandType) : TaskCommand :=
  { command type with senderId }

def answered (future : ℕ) (content : String) : ServerAct :=
  .resume future
    { now := 0, awaited := .returned content, results := none, entry := .reached
      production := .reached }

def startedTask : List ServerAct := [.rpc (of "l" .start) 0, .reply 0]

def asksFor : List ServerAct := startedTask ++ [.rpc (of "m" .get) 0, .reply 0]

def inReview : List ServerAct :=
  startedTask ++ [answered 0 "", answered 0 "accept", answered 0 "", answered 0 "accept",
    answered 0 "product"]

def inGroup (groupId senderId : String) (type : TaskCommandType) : ServerAct :=
  .receive groupId
    { senderId, groupId := some groupId, body := .taskCommand (of senderId type) none } 0

def acrossGroups : List ServerAct :=
  [.joinGroup "g" "l", .joinGroup "h" "m", inGroup "g" "l" .start, inGroup "h" "m" .get,
    .broadcastUpdate 0, .broadcastUpdate 0]

end Sample

theorem tasks_isolated_started :
    ∃ s, (server (Sample.agent 1)).exec (.initial 10) Sample.inReview = some s ∧
      (∀ r ∈ s.received, r.Allowed s.asked) ∧ s.received.length = 1 := by
  have hends : ((server (Sample.agent 1)).exec (.initial 10) Sample.inReview).any
      (fun s => s.received.length = 1) = true := by
    decide +kernel
  obtain ⟨s, hs, hend⟩ := (Option.any_eq_true _ _).mp hends
  exact ⟨s, hs, (tasks_isolated hs).1, of_decide_eq_true hend⟩

theorem others_see_and_command :
    (∃ s, (server (Sample.agent 1)).exec (.initial 10) Sample.asksFor = some s ∧
      ∃ r ∈ s.received, ∃ o ∈ starter s.asked r.task.taskId, ¬ r.Of o) ∧
    (∃ s, (server (Sample.agent 1)).exec (.initial 10) Sample.acrossGroups = some s ∧
      ∃ r ∈ s.received, ∃ o ∈ starter s.asked r.task.taskId, ¬ r.Of o) ∧
    ∃ s, (server (Sample.agent 1)).exec (.initial 10) Sample.inReview = some s ∧
      ¬ s.LeavesOthers (Sample.agent 1) (.rpc (Sample.of "m" .complete) 0) := by
  have hreceived (schedule : List ServerAct)
      (h : ((server (Sample.agent 1)).exec (.initial 10) schedule).any (fun s =>
        s.received.any fun r => (starter s.asked r.task.taskId).any fun o => ¬ r.Of o) = true) :
      ∃ s, (server (Sample.agent 1)).exec (.initial 10) schedule = some s ∧
        ∃ r ∈ s.received, ∃ o ∈ starter s.asked r.task.taskId, ¬ r.Of o := by
    obtain ⟨s, hs, hends⟩ := (Option.any_eq_true _ _).mp h
    obtain ⟨r, hr, hends⟩ := List.any_eq_true.mp hends
    obtain ⟨o, ho, hends⟩ := (Option.any_eq_true _ _).mp hends
    exact ⟨s, hs, r, hr, o, ho, of_decide_eq_true hends⟩
  refine ⟨hreceived _ (by decide +kernel), hreceived _ (by decide +kernel), ?_⟩
  have hmoved : ((server (Sample.agent 1)).exec (.initial 10) Sample.inReview).any (fun s =>
      (starter s.asked "t").any fun o => o.senderId = "l" ∧
        (s.serverStep (Sample.agent 1) (.rpc (Sample.of "m" .complete) 0)).any fun t =>
          (t.context "t").map (·.task.state) ≠ (s.context "t").map (·.task.state)) = true := by
    decide +kernel
  obtain ⟨s, hs, hends⟩ := (Option.any_eq_true _ _).mp hmoved
  obtain ⟨o, ho, hends⟩ := (Option.any_eq_true _ _).mp hends
  obtain ⟨hsender, hends⟩ := of_decide_eq_true hends
  obtain ⟨t, ht, hends⟩ := (Option.any_eq_true _ _).mp hends
  refine ⟨s, hs, fun hleaves => of_decide_eq_true hends ?_⟩
  have hother : "m" ≠ o.senderId := hsender ▸ (by decide)
  have hsame := hleaves _ rfl o ho hother t ht
  have hstates := congrArg (Option.map TaskResult.state) hsame
  rwa [Option.map_map, Option.map_map] at hstates

end Runs

end Acps.Partner
