import Mathlib.Logic.Function.Basic
import Acps.Lib.Transition
import Acps.Group.Session

/-!
A group leader with a client of the ACL service. The coroutines that invite partners, watch
invitations time out, handle invitation errors and dissolve sessions are suspended at their awaits;
between two awaits a coroutine runs alone.
-/

namespace Acps.Group

open Aic (Text)
open Transition (System)

inductive AclOp where
  | addMember (groupId memberAic : Text)
  | removeMember (groupId memberAic : Text)
  | deleteGroup (groupId : Text)
  deriving DecidableEq

inductive Reply where
  | done
  | groupAclError
  | transportError (applied : Bool)
  deriving DecidableEq

def Reply.applied : Reply → Bool
  | .done => true
  | .groupAclError => false
  | .transportError applied => applied

structure AclCall where
  op : AclOp
  reply : Option Reply
  deriving DecidableEq

def AclOp.apply (acl : Text → Text → Bool) : AclOp → Text → Text → Bool
  | .addMember groupId memberAic => fun g m => g = groupId ∧ m = memberAic ∨ acl g m
  | .removeMember groupId memberAic => fun g m => ¬ (g = groupId ∧ m = memberAic) ∧ acl g m
  | .deleteGroup groupId => fun g m => g ≠ groupId ∧ acl g m

def AclOp.removes : AclOp → Bool
  | .addMember _ _ => false
  | .removeMember _ _ | .deleteGroup _ => true

inductive Future where
  | pending
  | result
  | exception
  | cancelled
  deriving DecidableEq

inductive Watch where
  | sleeping
  | removing (call : ℕ)
  | ended
  deriving DecidableEq

inductive Route where
  | inbox (partnerInbox : Text)
  | rpc
  | noEndpoint
  deriving DecidableEq

inductive Phase where
  | addingMember (call : ℕ)
  | publishing
  | awaitingFuture
  | requesting
  | rollingBack (call : ℕ)
  | returned
  | raised
  | cancelled
  deriving DecidableEq

/-- A call of `invite_partner`. Its place in the list of calls is the token of the invitation. The
last two fields are for the record only: a removal was sent on its behalf, and after its success the
partner left or was removed, or the session was dissolved. -/
structure Invitation where
  session : ℕ
  sessionId : Text
  groupId : Text
  partnerAic : Text
  route : Route
  phase : Phase
  future : Future := .pending
  watch : Watch := .ended
  withdrawn : Bool := false
  left : Bool := false
  deriving DecidableEq

namespace Invitation

variable (inv : Invitation)

def settle (outcome : Future) : Invitation :=
  { inv with future := if inv.future = .pending then outcome else inv.future }

def unwatch : Invitation := { inv with watch := .ended }

def setPhase (phase : Phase) : Invitation := { inv with phase := phase }

def publish : Invitation :=
  { inv with phase := .publishing, future := .pending, watch := .sleeping }

def rollBack (call : ℕ) : Invitation := { inv with phase := .rollingBack call, withdrawn := true }

end Invitation

structure Rejection where
  invitation : ℕ
  partnerAic : Text
  call : ℕ
  ended : Bool := false
  deriving DecidableEq

inductive DissolutionPhase where
  | broadcasting
  | deletingGroup (call : ℕ)
  | ended
  deriving DecidableEq

structure Dissolution where
  session : ℕ
  groupId : Text
  phase : DissolutionPhase
  deriving DecidableEq

structure GroupLeader where
  leaderAic : Text
  sessions : List GroupLeaderSession := []
  groupSessions : List (Text × ℕ) := []
  pendingInvitations : Text → Option ℕ := fun _ => none
  invitations : List Invitation := []
  rejections : List Rejection := []
  dissolutions : List Dissolution := []
  calls : List AclCall := []
  acl : Text → Text → Bool := fun _ _ => false
  exchanges : Text → Bool := fun _ => false
  queues : Text → Bool := fun _ => false
  seated : Text → Text → Bool := fun _ _ => false

namespace GroupLeader

variable (s : GroupLeader)

def reply (call : ℕ) : Option Reply := (s.calls[call]?).bind AclCall.reply

def groupSession (sessionId : Text) : Option ℕ :=
  (s.groupSessions.find? fun e => e.1 = sessionId).map Prod.snd

def groupIdOf (session : ℕ) : Option Text := (s.sessions[session]?).map (·.groupId)

def routeMessage (message : Message) : Option ℕ :=
  ((message.sessionId.filter (· ≠ [])).bind s.groupSession).or
    (if message.groupId = [] then none
     else (s.groupSessions.find? fun e => s.groupIdOf e.2 = some message.groupId).map Prod.snd)

def sendCall (op : AclOp) : GroupLeader :=
  { s with calls := s.calls ++ [{ op := op, reply := none }] }

def modifyInvitation (k : ℕ) (f : Invitation → Invitation) : GroupLeader :=
  { s with invitations := s.invitations.modify k f }

def setPhase (k : ℕ) (phase : Phase) : GroupLeader :=
  s.modifyInvitation k (Invitation.setPhase · phase)

def settle (k : ℕ) (outcome : Future) : GroupLeader :=
  s.modifyInvitation k (Invitation.settle · outcome)

def clearPendingInvitation (partnerAic : Text) : GroupLeader :=
  match s.pendingInvitations partnerAic with
  | none => s
  | some k =>
    { s.modifyInvitation k Invitation.unwatch with
      pendingInvitations := Function.update s.pendingInvitations partnerAic none }

def markLeft (left : Invitation → Bool) : GroupLeader :=
  { s with
    invitations := s.invitations.map fun inv =>
      if inv.phase = .returned ∧ left inv then { inv with left := true } else inv }

def create (sessionId : Text) (initialPartners : List Text) : GroupLeader :=
  match groupIdSeed sessionId with
  | .error _ => s
  | .ok groupId =>
    let member (g m : Text) : Bool := g = groupId ∧ (m = s.leaderAic ∨ m ∈ initialPartners)
    let session : GroupLeaderSession :=
      { sessionId := sessionId
        groupId := groupId
        leaderMqClient :=
          { state := .ready, partners := fun _ => none, partnerAcs := initialPartners }
        taskStates := fun _ _ => none
        taskProducts := fun _ _ => none
        taskPrompts := fun _ _ => none
        messageHistory := [] }
    let entry := (sessionId, s.sessions.length)
    { s with
      sessions := s.sessions ++ [session]
      groupSessions :=
        if (s.groupSession sessionId).isSome then
          s.groupSessions.map fun e => if e.1 = sessionId then entry else e
        else s.groupSessions ++ [entry]
      acl := fun g m => member g m ∨ s.acl g m
      seated := fun g m => member g m ∨ s.seated g m
      exchanges := Function.update s.exchanges (buildGroupExchangeName s.leaderAic groupId) true
      queues :=
        Function.update s.queues (buildGroupQueueName s.leaderAic groupId s.leaderAic) true }

def buildInboxQueueName (aic : Text) : Text := Mq.inboxMarker ++ aic

def inviteRaises (partnerAic : Text) : Route → Bool
  | .inbox partnerInbox =>
    partnerInbox ≠ buildInboxQueueName partnerAic ∨ (s.pendingInvitations partnerAic).isSome
  | .rpc => false
  | .noEndpoint => true

def invite (sessionId partnerAic : Text) (route : Route) : GroupLeader :=
  match s.groupSession sessionId with
  | none => s
  | some session =>
    match s.groupIdOf session with
    | none => s
    | some groupId =>
      let inv (phase : Phase) : Invitation :=
        { session := session, sessionId := sessionId, groupId := groupId,
          partnerAic := partnerAic, route := route, phase := phase }
      if s.inviteRaises partnerAic route then
        { s with invitations := s.invitations ++ [inv .raised] }
      else
        { s.sendCall (.addMember groupId partnerAic) with
          invitations := s.invitations ++ [inv (.addingMember s.calls.length)] }

def serve (call : ℕ) (reply : Reply) : Option GroupLeader := do
  let c ← s.calls[call]?
  if c.reply = none then
    some
      { s with
        calls := s.calls.modify call fun c => { c with reply := some reply }
        acl := if reply.applied then c.op.apply s.acl else s.acl
        seated := if reply.applied ∧ c.op.removes then c.op.apply s.seated else s.seated }
  else none

def ready (session : ℕ) : Bool :=
  (s.sessions[session]?).any fun session => session.leaderMqClient.state = .ready

def rollBack (k : ℕ) (inv : Invitation) : GroupLeader :=
  (s.sendCall (.removeMember inv.groupId inv.partnerAic)).modifyInvitation k
    (Invitation.rollBack · s.calls.length)

def failInbox (k : ℕ) (inv : Invitation) : GroupLeader :=
  (s.clearPendingInvitation inv.partnerAic).rollBack k inv

def enter (k : ℕ) (inv : Invitation) : GroupLeader :=
  { s.modifyInvitation k Invitation.publish with
    pendingInvitations := Function.update s.pendingInvitations inv.partnerAic (some k) }

def register (k : ℕ) (inv : Invitation) : GroupLeader :=
  if s.ready inv.session then s.enter k inv else (s.enter k inv).failInbox k inv

def resumeAdded (k : ℕ) (inv : Invitation) (reply : Reply) : GroupLeader :=
  if reply ≠ .done then s.setPhase k .raised
  else
    match inv.route with
    | .rpc => if s.ready inv.session then s.setPhase k .requesting else s.rollBack k inv
    | _ => s.register k inv

def resumeSettled (k : ℕ) (inv : Invitation) : Option GroupLeader :=
  match inv.future with
  | .result => some ((s.clearPendingInvitation inv.partnerAic).setPhase k .returned)
  | .exception => some (s.failInbox k inv)
  | _ => none

def resume (k : ℕ) : Option GroupLeader := do
  let inv ← s.invitations[k]?
  match inv.phase with
  | .addingMember call => (s.reply call).map (s.resumeAdded k inv)
  | .awaitingFuture => s.resumeSettled k inv
  | .rollingBack call => (s.reply call).map fun _ => s.setPhase k .raised
  | _ => none

def partnerJoined (session : ℕ) (partnerAic : Text) : GroupLeader :=
  { s with
    sessions := s.sessions.modify session fun session =>
      { session with
        leaderMqClient :=
          { session.leaderMqClient with
            partners := Function.update session.leaderMqClient.partners partnerAic
              (some { aic := partnerAic, connected := true, muted := false })
            partnerAcs := session.leaderMqClient.partnerAcs ++ [partnerAic] } } }

def answer (k : ℕ) (returned : Bool) : Option GroupLeader := do
  let inv ← s.invitations[k]?
  match inv.phase with
  | .publishing =>
    if returned then
      if inv.future = .pending then some (s.setPhase k .awaitingFuture) else s.resumeSettled k inv
    else some (s.failInbox k inv)
  | .requesting =>
    if returned then some ((s.partnerJoined inv.session inv.partnerAic).setPhase k .returned)
    else some (s.rollBack k inv)
  | _ => none

def cancel (k : ℕ) : Option GroupLeader := do
  let inv ← s.invitations[k]?
  match inv.phase with
  | .returned | .raised | .cancelled => none
  | .awaitingFuture => some ((s.settle k .cancelled).setPhase k .cancelled)
  | _ => some (s.setPhase k .cancelled)

def watchTimeout (k : ℕ) : Option GroupLeader := do
  let inv ← s.invitations[k]?
  if inv.watch ≠ .sleeping then none
  else if s.pendingInvitations inv.partnerAic ≠ some k ∨ inv.future ≠ .pending then
    some (s.modifyInvitation k Invitation.unwatch)
  else
    some ((s.sendCall (.removeMember inv.groupId inv.partnerAic)).modifyInvitation k fun inv =>
      { inv with watch := .removing s.calls.length, withdrawn := true })

def resumeWatch (k : ℕ) : Option GroupLeader := do
  let inv ← s.invitations[k]?
  match inv.watch with
  | .removing call =>
    match s.reply call with
    | none => none
    | some (.transportError _) => some (s.modifyInvitation k Invitation.unwatch)
    | some _ =>
      if inv.future ≠ .pending then some (s.modifyInvitation k Invitation.unwatch)
      else
        some (((s.settle k .exception).clearPendingInvitation inv.partnerAic).modifyInvitation k
          Invitation.unwatch)
  | _ => none

def invitationError (senderId : Text) (token : ℕ) (groupId : Text) : GroupLeader :=
  match s.pendingInvitations senderId with
  | none => s
  | some k =>
    if k ≠ token then s
    else
      let rejection : Rejection := { invitation := k, partnerAic := senderId, call := s.calls.length }
      let t :=
        (s.sendCall (.removeMember groupId senderId)).modifyInvitation k fun inv =>
          { inv with withdrawn := true }
      { t with rejections := s.rejections ++ [rejection] }

def resumeRejection (r : ℕ) : Option GroupLeader := do
  let rejection ← s.rejections[r]?
  if rejection.ended then none
  else
    let t := { s with rejections := s.rejections.modify r fun r => { r with ended := true } }
    match s.reply rejection.call with
    | none => none
    | some (.transportError _) => some t
    | some _ =>
      some ((t.settle rejection.invitation .exception).clearPendingInvitation rejection.partnerAic)

def confirmJoin (sessionId senderId : Text) : GroupLeader :=
  match s.pendingInvitations senderId with
  | none => s
  | some k =>
    if (s.invitations[k]?).any fun inv => inv.sessionId = sessionId then
      (s.settle k .result).clearPendingInvitation senderId
    else s

def partnerLeft (sessionId groupId senderId : Text) : GroupLeader :=
  (s.markLeft fun inv => inv.sessionId = sessionId ∧ inv.partnerAic = senderId).sendCall
    (.removeMember groupId senderId)

def handleGroupMessage (message : Message) : GroupLeader :=
  match s.routeMessage message with
  | none => s
  | some session =>
    match s.sessions[session]? with
    | none => s
    | some found =>
      let t := { s with sessions := s.sessions.modify session fun found => found.handle message }
      match message.body with
      | .groupMgmtResult true _ => t.confirmJoin found.sessionId message.senderId
      | .groupMgmtResult false _ =>
        t.partnerLeft found.sessionId found.groupId message.senderId
      | _ => t

def forceRemove (sessionId partnerAic : Text) : GroupLeader :=
  match (s.groupSession sessionId).bind s.groupIdOf with
  | none => s
  | some groupId => s.partnerLeft sessionId groupId partnerAic

def failPending (chosen : Invitation → Bool) (k : ℕ) : GroupLeader :=
  match s.invitations[k]? with
  | none => s
  | some inv =>
    if s.pendingInvitations inv.partnerAic = some k ∧ chosen inv then
      (s.settle k .exception).clearPendingInvitation inv.partnerAic
    else s

def failAll (chosen : Invitation → Bool) : GroupLeader :=
  (List.range s.invitations.length).foldl (fun t k => t.failPending chosen k) s

def dissolve (sessionId : Text) : GroupLeader :=
  match s.groupSession sessionId with
  | none => s
  | some session =>
    match s.groupIdOf session with
    | none => s
    | some groupId =>
      let t :=
        ({ s with groupSessions := s.groupSessions.filter fun e => e.1 ≠ sessionId }).failAll
          fun inv => inv.sessionId = sessionId
      let t := t.markLeft fun inv => inv.sessionId = sessionId
      { t with
        sessions := t.sessions.modify session fun found =>
          { found with leaderMqClient := { found.leaderMqClient with state := .dissolving } }
        dissolutions := t.dissolutions ++
          [{ session := session, groupId := groupId, phase := .broadcasting }] }

def deleteGroup (d : ℕ) : Option GroupLeader := do
  let dissolution ← s.dissolutions[d]?
  if dissolution.phase = .broadcasting then
    let t := s.sendCall (.deleteGroup dissolution.groupId)
    some
      { t with
        dissolutions := s.dissolutions.modify d fun d =>
          { d with phase := .deletingGroup s.calls.length } }
  else none

def cleanup (d : ℕ) : Option GroupLeader := do
  let dissolution ← s.dissolutions[d]?
  match dissolution.phase with
  | .deletingGroup call =>
    let t := { s with dissolutions := s.dissolutions.modify d fun d => { d with phase := .ended } }
    match s.reply call with
    | none => none
    | some (.transportError _) => some t
    | some _ =>
      let exchange := buildGroupExchangeName s.leaderAic dissolution.groupId
      let queue := buildGroupQueueName s.leaderAic dissolution.groupId s.leaderAic
      some
        { t with
          exchanges := Function.update s.exchanges exchange false
          queues := Function.update s.queues queue false
          sessions := s.sessions.modify dissolution.session fun found =>
            { found with
              leaderMqClient :=
                { found.leaderMqClient with
                  state := .disconnected, partners := fun _ => none } } }
  | _ => none

def closePending : GroupLeader := s.failAll fun _ => true

end GroupLeader

inductive Act where
  | create (sessionId : Text) (initialPartners : List Text)
  | invite (sessionId partnerAic : Text) (route : Route)
  | serve (call : ℕ) (reply : Reply)
  | resume (k : ℕ)
  | answer (k : ℕ) (returned : Bool)
  | cancel (k : ℕ)
  | watchTimeout (k : ℕ)
  | resumeWatch (k : ℕ)
  | invitationError (senderId : Text) (token : ℕ) (groupId : Text)
  | resumeRejection (r : ℕ)
  | groupMessage (message : Message)
  | forceRemove (sessionId partnerAic : Text)
  | dissolve (sessionId : Text)
  | deleteGroup (d : ℕ)
  | cleanup (d : ℕ)
  | closePending

def GroupLeader.step (s : GroupLeader) : Act → Option GroupLeader
  | .create sessionId initialPartners => some (s.create sessionId initialPartners)
  | .invite sessionId partnerAic route => some (s.invite sessionId partnerAic route)
  | .serve call reply => s.serve call reply
  | .resume k => s.resume k
  | .answer k returned => s.answer k returned
  | .cancel k => s.cancel k
  | .watchTimeout k => s.watchTimeout k
  | .resumeWatch k => s.resumeWatch k
  | .invitationError senderId token groupId => some (s.invitationError senderId token groupId)
  | .resumeRejection r => s.resumeRejection r
  | .groupMessage message => some (s.handleGroupMessage message)
  | .forceRemove sessionId partnerAic => some (s.forceRemove sessionId partnerAic)
  | .dissolve sessionId => some (s.dissolve sessionId)
  | .deleteGroup d => s.deleteGroup d
  | .cleanup d => s.cleanup d
  | .closePending => some s.closePending

def groupLeader : System GroupLeader Act := ⟨GroupLeader.step⟩

end Acps.Group
