import Acps.Mq.Names
import Acps.Partner.Task

/-!
The id of a group, made of the id of its session, and what a leader keeps about the session: the
states, products and prompts of its tasks, the partners with their status, and the messages that
came.
-/

namespace Acps.Group

open Aic (Text PyError)
open Mq (isGroupIdChar)
open Partner (TaskState)

def stripChars (p : Char → Bool) (s : Text) : Text :=
  ((s.dropWhile p).reverse.dropWhile p).reverse

def rstripChars (p : Char → Bool) (s : Text) : Text := (s.reverse.dropWhile p).reverse

def subInvalid : Bool → Text → Text
  | _, [] => []
  | inRun, c :: rest =>
    if isGroupIdChar c then c :: subInvalid false rest
    else if inRun then subInvalid true rest
    else '-' :: subInvalid true rest

def ensureValidGroupId (groupId : Text) : Except PyError Text :=
  if groupId ≠ [] ∧ groupId.all isGroupIdChar ∧ groupId.length ≤ 128 then .ok groupId
  else .error (.valueError "group_id must match [a-zA-Z0-9-] and be at most 128 characters")

def normalizeGroupId (groupId : Text) : Except PyError Text :=
  let normalized := stripChars (· = '-') (subInvalid false (stripChars Aic.isSpace groupId))
  if normalized = [] then
    .error (.valueError "group_id cannot be empty after normalization")
  else if normalized.length > 128 then
    ensureValidGroupId (rstripChars (· = '-') (normalized.take 128))
  else ensureValidGroupId normalized

def groupIdSeed (sessionId : Text) : Except PyError Text :=
  normalizeGroupId ("group-".toList ++ sessionId)

def buildGroupExchangeName (leaderAic groupId : Text) : Text :=
  "group_".toList ++ leaderAic ++ '_' :: groupId

def buildGroupQueueName (leaderAic groupId memberAic : Text) : Text :=
  buildGroupExchangeName leaderAic groupId ++ '_' :: memberAic

example : groupIdSeed "a b/".toList = .ok "group-a-b".toList := by decide +kernel

inductive Body where
  | taskCommand
  | taskResult (taskId : Text) (state : TaskState) (products : Option (List (List (Option Text))))
      (statusItems : Option (List (Option Text)))
  | groupMgmtCommand
  | groupMgmtResult (connected muted : Bool)
  deriving DecidableEq

structure Message where
  id : Text
  senderId : Text
  sessionId : Option Text
  groupId : Text
  body : Body
  deriving DecidableEq

def joinLines (texts : List Text) : Text := ['\n'].intercalate texts

def extractTextFromProducts (products : Option (List (List (Option Text)))) : Option Text :=
  match products with
  | none => none
  | some products =>
    let parts := (products.flatMap fun items => items.filterMap id).filter (· ≠ [])
    if parts = [] then none else some (joinLines parts)

def extractTextFromStatus (items : Option (List (Option Text))) : Option Text :=
  let texts := (items.getD []).filterMap id
  if texts = [] then none else some (joinLines texts)

structure PartnerConnectionInfo where
  aic : Text
  connected : Bool
  muted : Bool
  deriving DecidableEq

inductive GroupLeaderState where
  | disconnected
  | ready
  | dissolving
  deriving DecidableEq

structure GroupLeaderMqClient where
  state : GroupLeaderState
  partners : Text → Option PartnerConnectionInfo
  partnerAcs : List Text

structure GroupLeaderSession where
  sessionId : Text
  groupId : Text
  leaderMqClient : GroupLeaderMqClient
  taskStates : Text → Text → Option TaskState
  taskProducts : Text → Text → Option Text
  taskPrompts : Text → Text → Option Text
  messageHistory : List Message

def maxHistory : ℕ := 1000

def GroupLeaderMqClient.handlePartnerStatusUpdate (client : GroupLeaderMqClient) (senderId : Text)
    (connected muted : Bool) : GroupLeaderMqClient :=
  if senderId = [] then client
  else
    let partner := { aic := senderId, connected := connected, muted := muted }
    { client with
      partners := Function.update client.partners senderId (some partner)
      partnerAcs :=
        if connected ∧ senderId ∉ client.partnerAcs then client.partnerAcs ++ [senderId]
        else client.partnerAcs }

namespace GroupLeaderSession

variable (session : GroupLeaderSession)

def recordMessage (message : Message) : GroupLeaderSession :=
  let history := session.messageHistory ++ [message]
  { session with
    messageHistory :=
      if history.length > maxHistory then history.drop (history.length - maxHistory) else history }

def setAt {β : Type} (table : Text → Text → Option β) (taskId partnerAic : Text) (value : Option β) :
    Text → Text → Option β :=
  Function.update table taskId (Function.update (table taskId) partnerAic value)

def recordTaskState (taskId partnerAic : Text) (state : TaskState)
    (productText awaitingPrompt : Option Text) : GroupLeaderSession :=
  { session with
    taskStates := setAt session.taskStates taskId partnerAic (some state)
    taskProducts :=
      match productText with
      | none => session.taskProducts
      | some text =>
        if text = [] then session.taskProducts
        else setAt session.taskProducts taskId partnerAic (some text)
    taskPrompts := setAt session.taskPrompts taskId partnerAic awaitingPrompt }

def handleTaskUpdate (senderId taskId : Text) (state : TaskState)
    (products : Option (List (List (Option Text)))) (statusItems : Option (List (Option Text))) :
    GroupLeaderSession :=
  if senderId = [] then session
  else session.recordTaskState taskId senderId state (extractTextFromProducts products)
    (extractTextFromStatus statusItems)

def handlePartnerStatusUpdate (senderId : Text) (connected muted : Bool) : GroupLeaderSession :=
  { session with
    leaderMqClient := session.leaderMqClient.handlePartnerStatusUpdate senderId connected muted }

def handle (message : Message) : GroupLeaderSession :=
  match message.body with
  | .taskCommand => session.recordMessage message
  | .taskResult taskId state products statusItems =>
    (session.recordMessage message).handleTaskUpdate message.senderId taskId state products
      statusItems
  | .groupMgmtCommand => session.recordMessage message
  | .groupMgmtResult connected muted =>
    (session.recordMessage message).handlePartnerStatusUpdate message.senderId connected muted

end GroupLeaderSession

end Acps.Group
