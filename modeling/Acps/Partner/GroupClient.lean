import Mathlib.Logic.Function.Basic
import Acps.Lib.Keyed
import Acps.Partner.GenericRunner

/-!
The groups that a partner is in: a client for each of them, the messages that its queue delivers,
and the map from tasks to groups.
-/

namespace Acps.Partner

inductive PartnerGroupState where
  | disconnected
  | joined
  | leaving
  deriving DecidableEq

inductive Mentions where
  | all
  | aics (aics : List String)
  deriving DecidableEq

inductive GroupMgmtCommandType where
  | getStatus
  | leaveGroup
  | disband
  | mute
  | unmute
  deriving DecidableEq

inductive GroupBody where
  | groupMgmtCommand (command : GroupMgmtCommandType) (mentions : Option Mentions)
    (sessionId : Option String)
  | taskCommand (command : TaskCommand) (mentions : Option Mentions)
  | taskResult
  | groupMgmtResult
  | unknown
  deriving DecidableEq

structure GroupMessage where
  senderId : String
  groupId : Option String
  body : GroupBody
  deriving DecidableEq

def mustRespond (mentions : Option Mentions) (aic : String) : Bool :=
  match mentions with
  | none => false
  | some .all => true
  | some (.aics aics) => aic ∈ aics

def isMentioned (mentions : Option Mentions) (aic : String) : Bool :=
  match mentions with
  | none | some (.aics []) | some .all => true
  | some (.aics aics) => aic ∈ aics

structure GroupPartnerMqClient where
  groupId : String
  leader : String
  state : PartnerGroupState
  muted : Bool
  pendingLeave : Bool
  pendingLeaveSessionId : Option String
  deriving DecidableEq

namespace GroupPartnerMqClient

def isJoined (client : GroupPartnerMqClient) : Bool := client.state = .joined

def join (groupId leader : String) : GroupPartnerMqClient :=
  { groupId, leader, state := .joined, muted := false, pendingLeave := false
    pendingLeaveSessionId := none }

def ofGroup (client : GroupPartnerMqClient) (message : GroupMessage) : Bool :=
  (message.groupId.map strip) = some client.groupId ∧ client.groupId ≠ ""

def handleMgmtCommand (partnerAic : String) (command : GroupMgmtCommandType)
    (mentions : Option Mentions) (sessionId : Option String) (client : GroupPartnerMqClient) :
    GroupPartnerMqClient :=
  if mustRespond mentions partnerAic then
    match command with
    | .getStatus => client
    | .leaveGroup | .disband =>
      { client with pendingLeave := true, pendingLeaveSessionId := sessionId }
    | .mute => { client with muted := true }
    | .unmute => { client with muted := false }
  else client

def handleLeaveRequest (client : GroupPartnerMqClient) : GroupPartnerMqClient :=
  { client with state := .leaving, pendingLeave := false, pendingLeaveSessionId := none }

end GroupPartnerMqClient

structure GroupHandler where
  groupClients : List GroupPartnerMqClient
  taskGroupMap : String → Option String

namespace GroupHandler

def initial : GroupHandler := { groupClients := [], taskGroupMap := fun _ => none }

variable (h : GroupHandler)

def client (groupId : String) : Option GroupPartnerMqClient :=
  Keyed.find GroupPartnerMqClient.groupId h.groupClients groupId

def modifyClient (groupId : String) (f : GroupPartnerMqClient → GroupPartnerMqClient) :
    GroupHandler :=
  { h with groupClients := Keyed.modify GroupPartnerMqClient.groupId h.groupClients groupId f }

def removeGroupState (groupId : String) : GroupHandler :=
  { h with
    groupClients := h.groupClients.filter fun client => client.groupId ≠ groupId
    taskGroupMap := fun taskId => (h.taskGroupMap taskId).filter (· ≠ groupId) }

def joinGroup (groupId leader : String) : GroupHandler :=
  if (h.client groupId).any GroupPartnerMqClient.isJoined then h
  else
    let h := if (h.client groupId).isSome then h.removeGroupState groupId else h
    { h with groupClients := h.groupClients ++ [.join groupId leader] }

def findGroupForSender (senderId : String) : Option String :=
  (h.groupClients.find? fun client => client.isJoined ∧ client.leader = senderId).map
    GroupPartnerMqClient.groupId

def resolveGroupForTaskCommand (groupId : Option String) (senderId : String) : Option String :=
  match groupId.filter fun groupId => groupId ≠ "" ∧ (h.client groupId).any (·.isJoined) with
  | some groupId => some groupId
  | none => if senderId = "" then none else h.findGroupForSender senderId

def mapTask (command : TaskCommand) (groupId : Option String) : GroupHandler :=
  match h.resolveGroupForTaskCommand groupId command.senderId with
  | some group =>
    { h with taskGroupMap := Function.update h.taskGroupMap command.target (some group) }
  | none => h

end GroupHandler

end Acps.Partner
