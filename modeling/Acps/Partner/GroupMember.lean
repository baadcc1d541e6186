import Acps.Lib.Transition
import Acps.Partner.GroupClient
import Acps.Partner.Frames

/-!
A partner as the member of groups: messages of its group queues come between the steps of its
runner.
-/

namespace Acps.Partner

open Transition

structure Member where
  handler : GroupHandler
  runner : World

def Member.initial : Member := { handler := .initial, runner := .initial }

namespace Member

variable (agent : Agent) (s : Member)

def modifyClient (groupId : String) (f : GroupPartnerMqClient → GroupPartnerMqClient) : Member :=
  { s with handler := s.handler.modifyClient groupId f }

def onTaskCommand (command : TaskCommand) (groupId : Option String) (isMentioned : Bool)
    (now : Time) : Member :=
  { handler := if isMentioned then s.handler.mapTask command groupId else s.handler
    runner := Partner.onTaskCommand agent command now isMentioned s.runner }

def handleIncomingMessage (client : GroupPartnerMqClient) (message : GroupMessage) (now : Time) :
    Member :=
  if message.senderId = agent.aic then s
  else
    match message.body with
    | .groupMgmtCommand command mentions sessionId =>
      s.modifyClient client.groupId
        (GroupPartnerMqClient.handleMgmtCommand agent.aic command mentions sessionId)
    | .taskCommand command mentions =>
      s.onTaskCommand agent { command with senderId := message.senderId } message.groupId
        (isMentioned mentions agent.aic) now
    | .taskResult | .groupMgmtResult | .unknown => s

end Member

inductive MemberAct where
  | joinGroup (groupId leader : String)
  | receive (groupId : String) (message : GroupMessage) (now : Time)
  | handleLeaveRequest (groupId : String)
  | cleanupGroupResources (groupId : String)
  | run (a : Act)

section System

variable (agent : Agent) (s : Member)

def receiveStep (groupId : String) (message : GroupMessage) (now : Time) : Option Member :=
  (s.handler.client groupId).map fun client =>
    if client.ofGroup message then s.handleIncomingMessage agent client message now else s

def handleLeaveStep (groupId : String) : Option Member :=
  (s.handler.client groupId).bind fun client =>
    if client.pendingLeave then
      some (s.modifyClient groupId GroupPartnerMqClient.handleLeaveRequest)
    else none

def cleanupStep (groupId : String) : Option Member :=
  (s.handler.client groupId).bind fun client =>
    if client.state = .leaving then
      some { s with handler := s.handler.removeGroupState groupId }
    else none

def memberRunStep (a : Act) : Option Member :=
  match a with
  | .onTaskCommand _ _ _ => none
  | a => (step agent s.runner a).map fun runner => { s with runner }

def memberStep : MemberAct → Option Member
  | .joinGroup groupId leader => some { s with handler := s.handler.joinGroup groupId leader }
  | .receive groupId message now => receiveStep agent s groupId message now
  | .handleLeaveRequest groupId => handleLeaveStep s groupId
  | .cleanupGroupResources groupId => cleanupStep s groupId
  | .run a => memberRunStep agent s a

def member : System Member MemberAct := ⟨memberStep agent⟩

end System

section Clients

variable {h : GroupHandler} {groupId : String}

def GroupHandler.Distinct (h : GroupHandler) : Prop :=
  Keyed.Unique GroupPartnerMqClient.groupId h.groupClients

theorem GroupHandler.Distinct.modifyClient (hd : h.Distinct)
    {f : GroupPartnerMqClient → GroupPartnerMqClient} (hf : ∀ c, (f c).groupId = c.groupId) :
    (h.modifyClient groupId f).Distinct :=
  Keyed.unique_modify (fun c _ _ => hf c) hd

theorem GroupHandler.Distinct.removeGroupState (hd : h.Distinct) :
    (h.removeGroupState groupId).Distinct :=
  hd.sublist (List.filter_sublist.map _)

theorem client_removeGroupState : (h.removeGroupState groupId).client groupId = none := by
  apply Keyed.find_eq_none.mpr
  intro c hc
  exact of_decide_eq_true (List.mem_filter.mp hc).2

theorem GroupHandler.Distinct.joinGroup (hd : h.Distinct) (leader : String) :
    (h.joinGroup groupId leader).Distinct := by
  unfold GroupHandler.joinGroup
  split
  · exact hd
  · dsimp only
    split
    · exact Keyed.unique_append hd.removeGroupState (Keyed.find_eq_none.mp client_removeGroupState)
    · next hnone =>
      exact Keyed.unique_append hd (Keyed.find_eq_none.mp (Option.not_isSome_iff_eq_none.mp hnone))

@[simp] theorem groupClients_mapTask (h : GroupHandler) (command : TaskCommand)
    (group : Option String) : (h.mapTask command group).groupClients = h.groupClients := by
  unfold GroupHandler.mapTask
  split
  · rfl
  · rfl

theorem groupId_handleMgmtCommand (partnerAic : String) (command : GroupMgmtCommandType)
    (mentions : Option Mentions) (sessionId : Option String) (c : GroupPartnerMqClient) :
    (c.handleMgmtCommand partnerAic command mentions sessionId).groupId = c.groupId := by
  unfold GroupPartnerMqClient.handleMgmtCommand
  split
  · cases command <;> rfl
  · rfl

end Clients

section Invariant

variable {agent : Agent} {s t : Member}

structure Member.Inv (s : Member) : Prop where
  distinct : s.handler.Distinct
  sited : Sited s.runner

theorem Member.inv_initial : Member.initial.Inv where
  distinct := List.nodup_nil
  sited := sited_initial

theorem Member.Inv.handleIncomingMessage (h : s.Inv) (client : GroupPartnerMqClient)
    (message : GroupMessage) (now : Time) :
    (s.handleIncomingMessage agent client message now).Inv := by
  unfold Member.handleIncomingMessage
  split
  · exact h
  · split
    · exact ⟨h.distinct.modifyClient fun c => groupId_handleMgmtCommand _ _ _ _ c, h.sited⟩
    · have hsited : ∀ command isMentioned,
          Sited (Partner.onTaskCommand agent command now isMentioned s.runner) :=
        fun command isMentioned =>
          sited_step (a := .onTaskCommand command isMentioned now) h.sited rfl
      refine ⟨?_, hsited _ _⟩
      unfold Member.onTaskCommand
      dsimp only
      split
      · unfold GroupHandler.Distinct
        rw [groupClients_mapTask]
        exact h.distinct
      · exact h.distinct
    · exact h
    · exact h
    · exact h

theorem Member.Inv.step {a : MemberAct} (h : s.Inv) (ht : memberStep agent s a = some t) :
    t.Inv := by
  cases a with
  | joinGroup groupId leader =>
    obtain rfl := Option.some.inj ht
    exact ⟨h.distinct.joinGroup leader, h.sited⟩
  | receive groupId message now =>
    obtain ⟨client, -, rfl⟩ := Option.map_eq_some_iff.mp ht
    split
    · exact h.handleIncomingMessage client message now
    · exact h
  | handleLeaveRequest groupId =>
    obtain ⟨client, -, ht⟩ := Option.bind_eq_some_iff.mp ht
    obtain ⟨-, ht⟩ := Option.ite_none_right_eq_some.mp ht
    obtain rfl := Option.some.inj ht
    exact ⟨h.distinct.modifyClient fun _ => rfl, h.sited⟩
  | cleanupGroupResources groupId =>
    obtain ⟨client, -, ht⟩ := Option.bind_eq_some_iff.mp ht
    obtain ⟨-, ht⟩ := Option.ite_none_right_eq_some.mp ht
    obtain rfl := Option.some.inj ht
    exact ⟨h.distinct.removeGroupState, h.sited⟩
  | run a =>
    change memberRunStep agent s a = some t at ht
    unfold memberRunStep at ht
    split at ht
    · cases ht
    · obtain ⟨runner, hrunner, rfl⟩ := Option.map_eq_some_iff.mp ht
      exact ⟨h.distinct, sited_step h.sited hrunner⟩

end Invariant

end Acps.Partner
