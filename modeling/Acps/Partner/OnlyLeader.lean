import Acps.Partner.GroupMember

/-!
Whose messages move a member: those of the leader of the group, and what is left to the others.
-/

namespace Acps.Partner

open Slots Transition

variable {agent : Agent} {s t : Member} {groupId : String} {message : GroupMessage} {now : Time}

def GroupPartnerMqClient.standing (client : GroupPartnerMqClient) : GroupPartnerMqClient :=
  { client with pendingLeaveSessionId := none }

def Member.standings (s : Member) : List GroupPartnerMqClient :=
  s.handler.groupClients.map GroupPartnerMqClient.standing

structure Unmoved (s t : Member) : Prop where
  standings : t.standings = s.standings
  tasks : ∀ taskId, t.runner.context taskId = s.runner.context taskId

def Member.foreign (s : Member) : MemberAct → Bool
  | .receive groupId message _ =>
    (s.handler.client groupId).any fun client => message.senderId ≠ client.leader
  | _ => false

def LeaderOnly (agent : Agent) (s : Member) (a : MemberAct) : Prop :=
  s.foreign a = true → ∀ t, memberStep agent s a = some t → Unmoved s t

def GroupBody.Powerless (agent : Agent) (s : Member) (client : GroupPartnerMqClient) :
    GroupBody → Prop
  | .groupMgmtCommand command mentions _ => mustRespond mentions agent.aic = true →
    match command with
    | .getStatus => True
    | .leaveGroup | .disband => client.pendingLeave = true
    | .mute => client.muted = true
    | .unmute => client.muted = false
  | .taskCommand command mentions => isMentioned mentions agent.aic = true →
    command.command = .get ∨ command.command = .reStream ∨
      command.command ≠ .start ∧ s.runner.tasks command.target = none
  | .taskResult | .groupMgmtResult | .unknown => True

def Powerless (agent : Agent) (s : Member) : MemberAct → Prop
  | .receive groupId message _ => ∀ client ∈ s.handler.client groupId,
    message.senderId ≠ client.leader → client.ofGroup message = true →
      message.senderId ≠ agent.aic → message.body.Powerless agent s client
  | _ => True

instance (s : Member) (client : GroupPartnerMqClient) (body : GroupBody) :
    Decidable (body.Powerless agent s client) := by
  cases body with
  | groupMgmtCommand command mentions sessionId =>
    cases command <;> exact inferInstanceAs (Decidable (_ → _))
  | taskCommand command mentions => exact inferInstanceAs (Decidable (_ → _))
  | taskResult | groupMgmtResult | unknown => exact instDecidableTrue

instance (s : Member) (a : MemberAct) : Decidable (Powerless agent s a) := by
  cases a with
  | receive groupId message now =>
    exact @Option.decidableForallMem _ _ (fun client => inferInstance) _
  | joinGroup | handleLeaveRequest | cleanupGroupResources | run => exact instDecidableTrue

section Standings

variable {h : GroupHandler} {client : GroupPartnerMqClient}

theorem standings_modifyClient (hd : h.Distinct) (hclient : h.client groupId = some client)
    {f : GroupPartnerMqClient → GroupPartnerMqClient} :
    (h.modifyClient groupId f).groupClients.map GroupPartnerMqClient.standing =
      h.groupClients.map GroupPartnerMqClient.standing ↔ (f client).standing = client.standing := by
  have hmem : client ∈ h.groupClients := Keyed.mem_of_find hclient
  have hkey : client.groupId = groupId := Keyed.key_of_find hclient
  unfold GroupHandler.modifyClient Keyed.modify
  rw [List.map_map]
  constructor
  · intro heq
    have hat := List.map_inj_left.mp heq client hmem
    rwa [Function.comp_apply, if_pos hkey] at hat
  · intro hf
    refine List.map_congr_left fun c hc => ?_
    rw [Function.comp_apply]
    split
    · next hc' =>
      obtain rfl := hd.eq_of_key hc hmem (hc'.trans hkey.symm)
      exact hf
    · rfl

theorem standing_handleMgmtCommand {command : GroupMgmtCommandType} {mentions : Option Mentions}
    {sessionId : Option String} :
    (client.handleMgmtCommand agent.aic command mentions sessionId).standing = client.standing ↔
      (GroupBody.groupMgmtCommand command mentions sessionId).Powerless agent s client := by
  obtain ⟨groupId, leader, state, muted, pendingLeave, pendingSession⟩ := client
  unfold GroupPartnerMqClient.handleMgmtCommand GroupPartnerMqClient.standing GroupBody.Powerless
  cases hresponds : mustRespond mentions agent.aic with
  | false => simp [hresponds]
  | true =>
    rw [if_pos rfl]
    cases command with
    | getStatus => simp
    | leaveGroup | disband => cases pendingLeave <;> simp [hresponds]
    | mute | unmute => cases muted <;> simp [hresponds]

end Standings

section Tasks

variable {w : World} {command : TaskCommand}

theorem context_onStart_none :
    ((onStart agent command now none w).context command.target).isSome = true := by
  have hlt : w.heap.length < (onStart agent command now none w).heap.length := by
    rw [onStart_none_length]
    exact Nat.lt_succ_self _
  unfold World.context
  rw [onStart_none_tasks, if_pos rfl, Option.bind_some, List.getElem?_eq_getElem hlt]
  rfl

theorem context_onCommand {r : ℕ} {c : TaskContext} (hget : command.command ≠ .get)
    (hreStream : command.command ≠ .reStream) (htask : w.tasks command.target = some r)
    (hc : w.heap[r]? = some c) : ∃ c', (onCommand agent command now r w).context command.target =
      some c' ∧ c.task.commandHistory.length < c'.task.commandHistory.length := by
  have hadded : (addCommand command.target command w).heap[r]? =
      some { c with task :=
        { c.task with commandHistory := c.task.commandHistory ++ [command] } } := by
    unfold addCommand
    rw [htask]
    exact getElem?_modify_eq_some.mpr (.inl ⟨rfl, c, hc, rfl⟩)
  have hgrows : Histories _ (onCommand agent command now r w) :=
    histories_addCommand_onCommand hget hreStream r w
  obtain ⟨c', hc', commands, -, hcommands, -⟩ := hgrows.kept r _ hadded
  refine ⟨c', ?_, ?_⟩
  · unfold World.context
    rw [(histories_onCommand r w).tasks, htask, Option.bind_some, hc']
  · rw [hcommands]
    simp

theorem toTask_eq_self (h : command.command = .get ∨ command.command = .reStream ∨
    command.command ≠ .start ∧ w.tasks command.target = none) :
    toTask agent command now w = w := by
  unfold toTask
  cases htask : w.tasks command.target with
  | none =>
    dsimp only
    rw [if_neg]
    intro hstart
    rcases h with hget | hreStream | ⟨hne, -⟩
    · cases hstart.symm.trans hget
    · cases hstart.symm.trans hreStream
    · exact hne hstart
  | some r =>
    have hask : command.command = .get ∨ command.command = .reStream := by
      rcases h with hget | hreStream | ⟨-, hnone⟩
      · exact .inl hget
      · exact .inr hreStream
      · cases htask.symm.trans hnone
    dsimp only
    rw [onCommand_eq_self hask]

theorem context_toTask (h : Sited w)
    (hsame : (toTask agent command now w).context command.target = w.context command.target) :
    command.command = .get ∨ command.command = .reStream ∨
      command.command ≠ .start ∧ w.tasks command.target = none := by
  refine or_iff_not_imp_left.mpr fun hget => or_iff_not_imp_left.mpr fun hreStream => ?_
  unfold toTask at hsame
  cases htask : w.tasks command.target with
  | none =>
    refine ⟨fun hstart => ?_, rfl⟩
    rw [htask] at hsame
    dsimp only at hsame
    rw [if_pos hstart] at hsame
    have hnone : w.context command.target = none := by
      unfold World.context
      rw [htask]
      rfl
    have hsome : ((onStart agent command now none w).context command.target).isSome = true :=
      context_onStart_none
    rw [hsame, hnone] at hsome
    cases hsome
  | some r =>
    obtain ⟨c, hc, -⟩ := h.stored command.target r htask
    obtain ⟨c', hc', hlt⟩ :
        ∃ c', (onCommand agent command now r w).context command.target = some c' ∧
        c.task.commandHistory.length < c'.task.commandHistory.length :=
      context_onCommand hget hreStream htask hc
    have hcontext : w.context command.target = some c := by
      unfold World.context
      rw [htask, Option.bind_some, hc]
    rw [htask, hcontext] at hsame
    obtain rfl : c' = c := Option.some.inj (hc'.symm.trans hsame)
    exact absurd hlt (Nat.lt_irrefl _)

end Tasks

section Messages

variable {client : GroupPartnerMqClient}

theorem handle_of_powerless (now : Time) (h : s.Inv)
    (hclient : s.handler.client groupId = some client)
    (hpowerless : message.body.Powerless agent s client) :
    (s.handleIncomingMessage agent client message now).standings = s.standings ∧
      (s.handleIncomingMessage agent client message now).runner = s.runner := by
  have hkey : client.groupId = groupId := Keyed.key_of_find hclient
  unfold Member.handleIncomingMessage
  split
  · exact ⟨rfl, rfl⟩
  · cases hbody : message.body with
    | groupMgmtCommand command mentions sessionId =>
      rw [hbody] at hpowerless
      rw [hkey]
      refine ⟨?_, rfl⟩
      have hstanding := standing_handleMgmtCommand.mpr hpowerless
      exact (standings_modifyClient h.distinct hclient).mpr hstanding
    | taskCommand command mentions =>
      rw [hbody] at hpowerless
      dsimp only
      unfold Member.onTaskCommand Partner.onTaskCommand
      cases hmentioned : isMentioned mentions agent.aic with
      | false => exact ⟨rfl, rfl⟩
      | true =>
        refine ⟨?_, toTask_eq_self (hpowerless hmentioned)⟩
        unfold Member.standings
        rw [if_pos rfl, groupClients_mapTask]
    | taskResult | groupMgmtResult | unknown => exact ⟨rfl, rfl⟩

theorem powerless_of_handle (h : s.Inv) (hclient : s.handler.client groupId = some client)
    (hsender : message.senderId ≠ agent.aic)
    (hsame : Unmoved s (s.handleIncomingMessage agent client message now)) :
    message.body.Powerless agent s client := by
  have hkey : client.groupId = groupId := Keyed.key_of_find hclient
  unfold Member.handleIncomingMessage at hsame
  rw [if_neg hsender] at hsame
  cases hbody : message.body with
  | groupMgmtCommand command mentions sessionId =>
    rw [hbody, hkey] at hsame
    have hstanding := (standings_modifyClient h.distinct hclient).mp hsame.standings
    exact standing_handleMgmtCommand.mp hstanding
  | taskCommand command mentions =>
    rw [hbody] at hsame
    intro hmentioned
    have htask := hsame.tasks command.target
    dsimp only at htask
    unfold Member.onTaskCommand Partner.onTaskCommand at htask
    rw [hmentioned] at htask
    let sent : TaskCommand := { command with senderId := message.senderId }
    have hpowerless : sent.command = .get ∨ sent.command = .reStream ∨
      sent.command ≠ .start ∧ s.runner.tasks sent.target = none := context_toTask h.sited htask
    exact hpowerless
  | taskResult | groupMgmtResult | unknown => trivial

theorem leaderOnly_iff (h : s.Inv) (a : MemberAct) :
    LeaderOnly agent s a ↔ Powerless agent s a := by
  cases a with
  | receive groupId message now =>
    cases hclient : s.handler.client groupId with
    | none =>
      refine iff_of_true (fun hforeign => ?_) (fun client hmem => ?_)
      · change (s.handler.client groupId).any _ = true at hforeign
        rw [hclient] at hforeign
        cases hforeign
      · cases hclient.symm.trans hmem
    | some client =>
      have hstep : memberStep agent s (.receive groupId message now) = some
          (if client.ofGroup message then s.handleIncomingMessage agent client message now
            else s) := by
        change receiveStep agent s groupId message now = _
        unfold receiveStep
        rw [hclient]
        rfl
      have hforeign : s.foreign (.receive groupId message now) = true ↔
          message.senderId ≠ client.leader := by
        change (s.handler.client groupId).any _ = true ↔ _
        rw [hclient]
        exact decide_eq_true_iff
      constructor
      · intro honly client' hclient' hleader hgroup hsender
        obtain rfl : client = client' := Option.some.inj (hclient.symm.trans hclient')
        have hsame := honly (hforeign.mpr hleader) _ hstep
        rw [if_pos hgroup] at hsame
        exact powerless_of_handle h hclient hsender hsame
      · intro hpowerless hmem t ht
        obtain rfl := Option.some.inj (hstep.symm.trans ht)
        split
        · next hgroup =>
          by_cases hsender : message.senderId = agent.aic
          · unfold Member.handleIncomingMessage
            rw [if_pos hsender]
            exact ⟨rfl, fun _ => rfl⟩
          · obtain ⟨hstandings, hrunner⟩ := handle_of_powerless now h hclient
              (hpowerless client hclient (hforeign.mp hmem) hgroup hsender)
            exact ⟨hstandings, fun taskId => by rw [hrunner]⟩
        · exact ⟨rfl, fun _ => rfl⟩
  | joinGroup | handleLeaveRequest | cleanupGroupResources | run =>
    exact iff_of_true (fun hforeign => by cases hforeign) trivial

end Messages

section Blur

def Member.blur (s : Member) : Member :=
  { handler := { groupClients := s.standings, taskGroupMap := fun _ => none }, runner := s.runner }

theorem client_blur (s : Member) (groupId : String) : s.blur.handler.client groupId =
    (s.handler.client groupId).map GroupPartnerMqClient.standing := by
  change (s.handler.groupClients.map _).find? _ = _
  rw [List.find?_map]
  rfl

theorem standings_idem (s : Member) :
    s.standings.map GroupPartnerMqClient.standing = s.standings := by
  unfold Member.standings
  rw [List.map_map]
  rfl

theorem blur_ext (hstandings : s.standings = t.standings) (hrunner : s.runner = t.runner) :
    s.blur = t.blur := by
  unfold Member.blur
  rw [hstandings, hrunner]

def OfStanding (f : GroupPartnerMqClient → GroupPartnerMqClient) : Prop :=
  ∀ c : GroupPartnerMqClient, (f c.standing).standing = (f c).standing

theorem blur_modifyClient (s : Member) (groupId : String)
    {f : GroupPartnerMqClient → GroupPartnerMqClient} (hf : OfStanding f) :
    (s.blur.modifyClient groupId f).blur = (s.modifyClient groupId f).blur := by
  have hlist : ((Keyed.modify GroupPartnerMqClient.groupId s.standings groupId f).map
      GroupPartnerMqClient.standing) = (Keyed.modify GroupPartnerMqClient.groupId
        s.handler.groupClients groupId f).map GroupPartnerMqClient.standing := by
    unfold Keyed.modify Member.standings
    rw [List.map_map, List.map_map, List.map_map]
    refine List.map_congr_left fun c _ => ?_
    change (if c.groupId = groupId then f c.standing else c.standing).standing =
      (if c.groupId = groupId then f c else c).standing
    split
    · exact hf c
    · rfl
  exact blur_ext hlist rfl

theorem blur_blur (s : Member) : s.blur.blur = s.blur := blur_ext (standings_idem s) rfl

theorem ofStanding_handleMgmtCommand (command : GroupMgmtCommandType) (mentions : Option Mentions)
    (sessionId : Option String) :
    OfStanding (GroupPartnerMqClient.handleMgmtCommand agent.aic command mentions sessionId) := by
  intro c
  unfold GroupPartnerMqClient.handleMgmtCommand
  split
  · cases command <;> rfl
  · rfl

theorem blur_handleIncomingMessage (s : Member) (client : GroupPartnerMqClient) :
    (s.blur.handleIncomingMessage agent client.standing message now).blur =
      (s.handleIncomingMessage agent client message now).blur := by
  unfold Member.handleIncomingMessage
  split
  · exact blur_blur s
  · split
    · exact blur_modifyClient s client.groupId (ofStanding_handleMgmtCommand _ _ _)
    · unfold Member.blur Member.standings Member.onTaskCommand
      dsimp only
      split
      · rw [groupClients_mapTask, groupClients_mapTask, List.map_map]
        rfl
      · rw [List.map_map]
        rfl
    · exact blur_blur s
    · exact blur_blur s
    · exact blur_blur s

theorem standings_removeGroupState (h : GroupHandler) (groupId : String) :
    (h.removeGroupState groupId).groupClients.map GroupPartnerMqClient.standing =
      (h.groupClients.map GroupPartnerMqClient.standing).filter fun c => c.groupId ≠ groupId := by
  rw [List.filter_map]
  rfl

theorem standings_blur_removeGroupState (s : Member) (groupId : String) :
    (s.blur.handler.removeGroupState groupId).groupClients.map GroupPartnerMqClient.standing =
      (s.handler.removeGroupState groupId).groupClients.map GroupPartnerMqClient.standing := by
  rw [standings_removeGroupState, standings_removeGroupState]
  change (s.standings.map _).filter _ = _
  rw [standings_idem]
  rfl

theorem blur_joinGroup (s : Member) (groupId leader : String) :
    Member.blur { s.blur with handler := s.blur.handler.joinGroup groupId leader } =
      Member.blur { s with handler := s.handler.joinGroup groupId leader } := by
  unfold GroupHandler.joinGroup
  rw [client_blur]
  cases s.handler.client groupId with
  | none =>
    refine blur_ext ?_ rfl
    change (s.standings ++ [_]).map _ = (s.handler.groupClients ++ [_]).map _
    rw [List.map_append, standings_idem, List.map_append]
    rfl
  | some client =>
    have hjoined : (Option.map GroupPartnerMqClient.standing (some client)).any
        GroupPartnerMqClient.isJoined = (some client).any GroupPartnerMqClient.isJoined := rfl
    rw [hjoined]
    split
    · exact blur_blur s
    · refine blur_ext ?_ rfl
      change ((s.blur.handler.removeGroupState groupId).groupClients ++ [_]).map _ =
        ((s.handler.removeGroupState groupId).groupClients ++ [_]).map _
      rw [List.map_append, List.map_append, standings_blur_removeGroupState]

theorem blur_step (s : Member) (a : MemberAct) :
    (memberStep agent s.blur a).map Member.blur = (memberStep agent s a).map Member.blur := by
  cases a with
  | joinGroup groupId leader => exact congrArg some (blur_joinGroup s groupId leader)
  | receive groupId message now =>
    change (receiveStep agent s.blur groupId message now).map _ =
      (receiveStep agent s groupId message now).map _
    unfold receiveStep
    rw [client_blur]
    cases s.handler.client groupId with
    | none => rfl
    | some client =>
      refine congrArg some ?_
      dsimp only
      have hgroup : client.standing.ofGroup message = client.ofGroup message := rfl
      rw [hgroup]
      split
      · exact blur_handleIncomingMessage s client
      · exact blur_blur s
  | handleLeaveRequest groupId =>
    change (handleLeaveStep s.blur groupId).map _ = (handleLeaveStep s groupId).map _
    unfold handleLeaveStep
    rw [client_blur]
    cases s.handler.client groupId with
    | none => rfl
    | some client =>
      dsimp only [Option.map_some, Option.bind_some]
      have hpending : client.standing.pendingLeave = client.pendingLeave := rfl
      rw [hpending]
      split
      · exact congrArg some (blur_modifyClient s groupId fun _ => rfl)
      · rfl
  | cleanupGroupResources groupId =>
    change (cleanupStep s.blur groupId).map _ = (cleanupStep s groupId).map _
    unfold cleanupStep
    rw [client_blur]
    cases s.handler.client groupId with
    | none => rfl
    | some client =>
      dsimp only [Option.map_some, Option.bind_some]
      have hstate : client.standing.state = client.state := rfl
      rw [hstate]
      split
      · exact congrArg some (blur_ext (standings_blur_removeGroupState s groupId) rfl)
      · rfl
  | run a =>
    change (memberRunStep agent s.blur a).map _ = (memberRunStep agent s a).map _
    unfold memberRunStep
    split
    · rfl
    · rw [Option.map_map, Option.map_map]
      refine congrArg (Option.map · (step agent s.runner a)) (funext fun runner => ?_)
      exact blur_blur { s with runner }

end Blur

section Runs

theorem step_of_blur {s' : Member} {a : MemberAct} (hsame : s'.blur = s.blur)
    (ht : memberStep agent s a = some t) :
    ∃ t', memberStep agent s' a = some t' ∧ t'.blur = t.blur := by
  have hstep : (memberStep agent s'.blur a).map Member.blur = _ := blur_step s' a
  rw [hsame, blur_step, ht] at hstep
  exact Option.map_eq_some_iff.mp hstep.symm

theorem blur_of_powerless (h : s.Inv) {a : MemberAct} (hpowerless : Powerless agent s a)
    (hforeign : s.foreign a = true) (ht : memberStep agent s a = some t) : t.blur = s.blur := by
  cases a with
  | receive groupId message now =>
    obtain ⟨client, hclient, rfl⟩ := Option.map_eq_some_iff.mp ht
    change (s.handler.client groupId).any _ = true at hforeign
    rw [hclient] at hforeign
    split
    · next hgroup =>
      by_cases hsender : message.senderId = agent.aic
      · unfold Member.handleIncomingMessage
        rw [if_pos hsender]
      · obtain ⟨hstandings, hrunner⟩ := handle_of_powerless now h hclient
          (hpowerless client hclient (of_decide_eq_true hforeign) hgroup hsender)
        exact blur_ext hstandings hrunner
    · rfl
  | joinGroup | handleLeaveRequest | cleanupGroupResources | run => cases hforeign

theorem only_leader_commands (agent : Agent) (schedule : List MemberAct) :
    ((member agent).Meets (LeaderOnly agent) Member.initial schedule ↔
      (member agent).Meets (Powerless agent) Member.initial schedule) ∧
    ∀ t, (member agent).Meets (Powerless agent) Member.initial schedule →
      (member agent).exec Member.initial schedule = some t →
        ∃ t', (member agent).exec Member.initial
          ((member agent).without Member.foreign Member.initial schedule) = some t' ∧
          t'.standings = t.standings ∧ t'.runner = t.runner := by
  have hstep : ∀ s a t, Member.Inv s → memberStep agent s a = some t → Member.Inv t :=
    fun _ _ _ h ht => h.step ht
  refine ⟨⟨fun h => ?_, fun h => ?_⟩, fun t hpowerless ht => ?_⟩
  · exact (member agent).meets_of_invariant (fun s a t hs _ ht => hstep s a t hs ht)
      (fun s a hs honly => (leaderOnly_iff hs a).mp honly) Member.inv_initial h
  · exact (member agent).meets_of_invariant (fun s a t hs _ ht => hstep s a t hs ht)
      (fun s a hs hpowerless => (leaderOnly_iff hs a).mpr hpowerless) Member.inv_initial h
  · have hhidden : ∀ (s s' : Member) a t, (s.Inv ∧ s'.blur = s.blur) → Powerless agent s a →
        s.foreign a = true → memberStep agent s a = some t → t.Inv ∧ s'.blur = t.blur :=
      fun s s' a t hR hC hforeign hst =>
        ⟨hR.1.step hst, hR.2.trans (blur_of_powerless hR.1 hC hforeign hst).symm⟩
    have hshown : ∀ (s s' : Member) a t, (s.Inv ∧ s'.blur = s.blur) → s.foreign a = false →
        memberStep agent s a = some t →
          ∃ t', memberStep agent s' a = some t' ∧ (t.Inv ∧ t'.blur = t.blur) := by
      intro s s' a t hR _ hst
      obtain ⟨t', ht', hblur⟩ := step_of_blur hR.2 hst
      exact ⟨t', ht', hR.1.step hst, hblur⟩
    obtain ⟨t', ht', -, hblur⟩ := (member agent).exec_without hhidden hshown
      ⟨Member.inv_initial, rfl⟩ hpowerless ht
    have hstandings := congrArg (fun m : Member => m.handler.groupClients) hblur
    have hrunner := congrArg Member.runner hblur
    exact ⟨t', ht', hstandings, hrunner⟩

namespace Sample

def messageFrom (senderId : String) (body : GroupBody) : MemberAct :=
  .receive "g" { senderId, groupId := some "g", body } 0

def commandFrom (senderId : String) (type : TaskCommandType) : MemberAct :=
  messageFrom senderId (.taskCommand (command type) none)

def mgmtCommandFrom (senderId : String) (type : GroupMgmtCommandType) : MemberAct :=
  messageFrom senderId (.groupMgmtCommand type (some .all) none)

def asked : List MemberAct :=
  [.joinGroup "g" "l", commandFrom "l" .start, commandFrom "m" .get, mgmtCommandFrom "m" .unmute,
    messageFrom "m" .taskResult]

end Sample

theorem only_leader_commands_get :
    (member (Sample.agent 1)).Meets (Powerless (Sample.agent 1)) Member.initial Sample.asked ∧
    ∃ t t', (member (Sample.agent 1)).exec Member.initial Sample.asked = some t ∧
      (member (Sample.agent 1)).exec Member.initial
        ((member (Sample.agent 1)).without Member.foreign Member.initial Sample.asked) = some t' ∧
      t'.standings = t.standings ∧ t'.runner = t.runner := by
  have hmeets : (member (Sample.agent 1)).Meets (Powerless (Sample.agent 1)) Member.initial
      Sample.asked :=
    (member _).meets_of_check (c := fun s a => decide (Powerless (Sample.agent 1) s a))
      (fun _ _ h => of_decide_eq_true h) (by decide +kernel)
  obtain ⟨t, ht⟩ := Option.isSome_iff_exists.mp
    (show ((member (Sample.agent 1)).exec Member.initial Sample.asked).isSome = true by
      decide +kernel)
  obtain ⟨t', ht', hsame⟩ := (only_leader_commands (Sample.agent 1) Sample.asked).2 t hmeets ht
  exact ⟨hmeets, t, t', ht, ht', hsame⟩

def Member.commands (s : Member) : Option (List TaskCommand) :=
  (s.runner.context "t").map fun c => c.task.commandHistory

theorem not_leaderOnly_of_moved {pre : List MemberAct} {a : MemberAct}
    (h : ((member agent).exec Member.initial pre).any (fun s => s.foreign a &&
      (memberStep agent s a).any fun t => t.standings ≠ s.standings ∨
        t.commands ≠ s.commands) = true) :
    ¬ (member agent).Meets (LeaderOnly agent) Member.initial (pre ++ [a]) := by
  intro hmeets
  obtain ⟨s, hs, hmoved⟩ := (Option.any_eq_true _ _).mp h
  obtain ⟨hforeign, hmoved⟩ := Bool.and_eq_true_iff.mp hmoved
  obtain ⟨t, ht, hmoved⟩ := (Option.any_eq_true _ _).mp hmoved
  have hsame := ((member agent).meets_append hmeets hs).2.1 hforeign t ht
  rcases of_decide_eq_true hmoved with hstandings | hcommands
  · exact hstandings hsame.standings
  · apply hcommands
    unfold Member.commands
    rw [hsame.tasks]

theorem others_command :
    (¬ (member (Sample.agent 1)).Meets (LeaderOnly (Sample.agent 1)) Member.initial
      ([.joinGroup "g" "l"] ++ [Sample.mgmtCommandFrom "m" .leaveGroup])) ∧
    (¬ (member (Sample.agent 1)).Meets (LeaderOnly (Sample.agent 1)) Member.initial
      ([.joinGroup "g" "l"] ++ [Sample.mgmtCommandFrom "m" .mute])) ∧
    ¬ (member (Sample.agent 1)).Meets (LeaderOnly (Sample.agent 1)) Member.initial
      ([.joinGroup "g" "l", Sample.commandFrom "l" .start] ++ [Sample.commandFrom "m" .cancel]) :=
  ⟨not_leaderOnly_of_moved (by decide +kernel), not_leaderOnly_of_moved (by decide +kernel),
    not_leaderOnly_of_moved (by decide +kernel)⟩

end Runs

end Acps.Partner
