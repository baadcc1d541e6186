import Acps.Lib.Slots
import Acps.Group.Leader

/-!
What the sessions of one leader have to do with each other.
-/

namespace Acps.Group

open Aic (Text)
open Slots

def AclOp.groupId : AclOp → Text
  | .addMember groupId _ | .removeMember groupId _ | .deleteGroup groupId => groupId

namespace GroupLeader

variable (s : GroupLeader)

structure OnlyOwner (groupId : Text) (session : ℕ) : Prop where
  opened : ∃ e ∈ s.groupSessions, e.2 = session
  group : s.groupIdOf session = some groupId
  only : ∀ e ∈ s.groupSessions, s.groupIdOf e.2 = some groupId → e.2 = session

structure Isolated (message : Message) : Prop where
  sessions : ∀ j : ℕ, (s.handleGroupMessage message).sessions[j]? ≠ s.sessions[j]? →
    s.OnlyOwner message.groupId j
  invitations : ∀ (k : ℕ) (inv : Invitation), s.invitations[k]? = some inv →
    (s.handleGroupMessage message).invitations[k]? ≠ some inv →
    ∃ (j : ℕ) (found : GroupLeaderSession), s.OnlyOwner message.groupId j ∧ s.sessions[j]? = some found ∧
      inv.sessionId = found.sessionId
  entries : ∀ aic k, s.pendingInvitations aic = some k →
    (s.handleGroupMessage message).pendingInvitations aic ≠ some k →
    ∃ (j : ℕ) (found : GroupLeaderSession), s.OnlyOwner message.groupId j ∧ s.sessions[j]? = some found ∧
      (s.invitations[k]?).any (fun inv => inv.sessionId = found.sessionId) = true
  requests : ∃ calls : List AclCall, (s.handleGroupMessage message).calls = s.calls ++ calls ∧
    ∀ c ∈ calls, c.op.groupId = message.groupId
  acl : (s.handleGroupMessage message).acl = s.acl

def Routed (message : Message) : Prop :=
  ∀ (j : ℕ) (found : GroupLeaderSession), s.routeMessage message = some j → s.sessions[j]? = some found →
    s.OnlyOwner message.groupId j

def Fresh (message : Message) : Prop :=
  ∀ (j : ℕ) (found : GroupLeaderSession), s.sessions[j]? = some found → message ∉ found.messageHistory

end GroupLeader

section Message

variable {s : GroupLeader} {message : Message}

theorem mem_recordMessage (session : GroupLeaderSession) (message : Message) :
    message ∈ (session.recordMessage message).messageHistory := by
  unfold GroupLeaderSession.recordMessage
  dsimp only
  split
  · next hlong =>
    rw [List.drop_append_of_le_length (by simp [maxHistory])]
    exact List.mem_append_right _ List.mem_cons_self
  · exact List.mem_append_right _ List.mem_cons_self

theorem mem_handle (session : GroupLeaderSession) (message : Message) :
    message ∈ (session.handle message).messageHistory := by
  have hrecorded := mem_recordMessage session message
  unfold GroupLeaderSession.handle
  split
  · exact hrecorded
  · unfold GroupLeaderSession.handleTaskUpdate
    split
    · exact hrecorded
    · exact hrecorded
  · exact hrecorded
  · exact hrecorded

structure Handled (s t : GroupLeader) (message : Message) (j : ℕ) (found : GroupLeaderSession) :
    Prop where
  sessions : t.sessions = s.sessions.modify j fun found => found.handle message
  invitations : ∀ (k : ℕ) (inv : Invitation), s.invitations[k]? = some inv → t.invitations[k]? ≠ some inv →
    inv.sessionId = found.sessionId
  entries : ∀ aic k, s.pendingInvitations aic = some k → t.pendingInvitations aic ≠ some k →
    (s.invitations[k]?).any (fun inv => inv.sessionId = found.sessionId) = true
  requests : ∃ calls : List AclCall, t.calls = s.calls ++ calls ∧ ∀ c ∈ calls, c.op.groupId = found.groupId
  acl : t.acl = s.acl

theorem handled_refl (s : GroupLeader) (message : Message) (j : ℕ) (found : GroupLeaderSession) :
    Handled s { s with sessions := s.sessions.modify j fun found => found.handle message } message j
      found where
  sessions := rfl
  invitations := fun _ _ hk hne => absurd hk hne
  entries := fun _ _ hk hne => absurd hk hne
  requests := ⟨[], (List.append_nil _).symm, fun _ hc => absurd hc List.not_mem_nil⟩
  acl := rfl

theorem Handled.confirmJoin {t : GroupLeader} {j : ℕ} {found : GroupLeaderSession}
    (h : Handled s t message j found) (hinvitations : t.invitations = s.invitations)
    (hpending : t.pendingInvitations = s.pendingInvitations) :
    Handled s (t.confirmJoin found.sessionId message.senderId) message j found := by
  unfold GroupLeader.confirmJoin
  split
  · exact h
  · next k hentry =>
    split
    · next hsession =>
      have hcleared : (t.settle k .result).clearPendingInvitation message.senderId =
          { (t.settle k .result).modifyInvitation k Invitation.unwatch with
            pendingInvitations := Function.update t.pendingInvitations message.senderId none } := by
        have hentry' : (t.settle k .result).pendingInvitations message.senderId = some k := hentry
        unfold GroupLeader.clearPendingInvitation
        rw [hentry']
        rfl
      rw [hcleared]
      refine ⟨h.sessions, fun m inv hm hne => ?_, fun aic m hm hne => ?_, h.requests, h.acl⟩
      · by_cases hmk : k = m
        · subst hmk
          rw [hinvitations, hm] at hsession
          exact of_decide_eq_true hsession
        · refine absurd ?_ hne
          change ((t.invitations.modify k _).modify k _)[m]? = some inv
          rw [List.getElem?_modify_ne _ _ hmk, List.getElem?_modify_ne _ _ hmk, hinvitations, hm]
      · by_cases haic : aic = message.senderId
        · rw [hpending] at hentry
          rw [haic, hentry] at hm
          obtain rfl := Option.some.inj hm
          rwa [hinvitations] at hsession
        · refine absurd ?_ hne
          change Function.update t.pendingInvitations message.senderId none aic = some m
          rw [Function.update_of_ne haic, hpending, hm]
    · exact h

theorem Handled.partnerLeft {t : GroupLeader} {j : ℕ} {found : GroupLeaderSession}
    (h : Handled s t message j found) (hinvitations : t.invitations = s.invitations)
    (hcalls : t.calls = s.calls) :
    Handled s (t.partnerLeft found.sessionId found.groupId message.senderId) message j found where
  sessions := h.sessions
  invitations := fun k inv hk hne => by
    by_contra hother
    refine hne ?_
    change (t.invitations.map _)[k]? = some inv
    rw [List.getElem?_map, hinvitations, hk, Option.map_some, if_neg]
    rintro ⟨-, hleft⟩
    exact hother (of_decide_eq_true hleft).1
  entries := h.entries
  requests := by
    refine ⟨[{ op := .removeMember found.groupId message.senderId, reply := none }], ?_, ?_⟩
    · change t.calls ++ _ = _
      rw [hcalls]
    · intro c hc
      rw [List.mem_singleton.mp hc]
      rfl
  acl := h.acl

theorem handled_of_routed {j : ℕ} {found : GroupLeaderSession} (hroute : s.routeMessage message = some j)
    (hfound : s.sessions[j]? = some found) : Handled s (s.handleGroupMessage message) message j found := by
  have h := handled_refl s message j found
  unfold GroupLeader.handleGroupMessage
  rw [hroute]
  dsimp only
  rw [hfound]
  dsimp only
  split
  · exact h.confirmJoin rfl rfl
  · exact h.partnerLeft rfl rfl
  · exact h

theorem handleGroupMessage_of_unrouted
    (h : ∀ (j : ℕ) (found : GroupLeaderSession), s.routeMessage message = some j →
      s.sessions[j]? ≠ some found) : s.handleGroupMessage message = s := by
  unfold GroupLeader.handleGroupMessage
  split
  · rfl
  · next j hj =>
    split
    · rfl
    · next found hfound => exact absurd hfound (h j found hj)

theorem isolated_of_routed (h : s.Routed message) : s.Isolated message := by
  by_cases hrouted : ∃ (j : ℕ) (found : GroupLeaderSession), s.routeMessage message = some j ∧
      s.sessions[j]? = some found
  · obtain ⟨j, found, hj, hfound⟩ := hrouted
    have howner := h j found hj hfound
    have hhandled := handled_of_routed hj hfound
    have hgroup : found.groupId = message.groupId := by
      have hgroup := howner.group
      unfold GroupLeader.groupIdOf at hgroup
      rw [hfound] at hgroup
      exact Option.some.inj hgroup
    constructor
    · intro i hi
      by_cases hji : j = i
      · rwa [← hji]
      · rw [hhandled.sessions, List.getElem?_modify_ne _ _ hji] at hi
        exact absurd rfl hi
    · intro k inv hk hne
      exact ⟨j, found, howner, hfound, hhandled.invitations k inv hk hne⟩
    · intro aic k hk hne
      exact ⟨j, found, howner, hfound, hhandled.entries aic k hk hne⟩
    · rw [← hgroup]
      exact hhandled.requests
    · exact hhandled.acl
  · have hsame : s.handleGroupMessage message = s :=
      handleGroupMessage_of_unrouted fun j found hj hfound => hrouted ⟨j, found, hj, hfound⟩
    constructor
    · intro j hj
      rw [hsame] at hj
      exact absurd rfl hj
    · intro k inv hk hne
      rw [hsame] at hne
      exact absurd hk hne
    · intro aic k hk hne
      rw [hsame] at hne
      exact absurd hk hne
    · rw [hsame]
      exact ⟨[], (List.append_nil _).symm, fun _ hc => absurd hc List.not_mem_nil⟩
    · rw [hsame]

theorem routed_of_isolated (hfresh : s.Fresh message) (h : s.Isolated message) :
    s.Routed message := by
  intro j found hj hfound
  refine h.sessions j ?_
  rw [(handled_of_routed hj hfound).sessions, List.getElem?_modify_eq, hfound]
  intro heq
  have hsame : found.handle message = found := Option.some.inj heq
  have hmem := mem_handle found message
  rw [hsame] at hmem
  exact hfresh j found hfound hmem

end Message

section Dissolution

def GroupLeader.deletes (s : GroupLeader) (call : ℕ) (reply : Reply) : Option Text :=
  match (s.calls[call]?).map AclCall.op with
  | some (.deleteGroup groupId) => if reply.applied then some groupId else none
  | _ => none

def GroupLeader.cleans (s : GroupLeader) (d : ℕ) : Option Text :=
  (s.dissolutions[d]?).bind fun dissolution =>
    match dissolution.phase with
    | .deletingGroup call =>
      match s.reply call with
      | none | some (.transportError _) => none
      | some _ => some dissolution.groupId
    | _ => none

def Dissolving (s : GroupLeader) : Act → Prop
  | .dissolve _ | .deleteGroup _ | .cleanup _ => True
  | .serve call _ => ∃ groupId, (s.calls[call]?).map AclCall.op = some (.deleteGroup groupId)
  | _ => False

structure Keeps (s t : GroupLeader) : Prop where
  acl : ∀ e ∈ s.groupSessions, ∀ groupId ∈ s.groupIdOf e.2, ∀ m,
    s.acl groupId m = true → t.acl groupId m = true
  exchanges : ∀ e ∈ s.groupSessions, ∀ groupId ∈ s.groupIdOf e.2,
    s.exchanges (buildGroupExchangeName s.leaderAic groupId) = true →
    t.exchanges (buildGroupExchangeName s.leaderAic groupId) = true
  queues : ∀ e ∈ s.groupSessions, ∀ groupId ∈ s.groupIdOf e.2,
    s.queues (buildGroupQueueName s.leaderAic groupId s.leaderAic) = true →
    t.queues (buildGroupQueueName s.leaderAic groupId s.leaderAic) = true

def Unowned (s : GroupLeader) (groupId : Text) : Prop :=
  ∀ e ∈ s.groupSessions, s.groupIdOf e.2 ≠ some groupId

def Spares (s : GroupLeader) : Act → Prop
  | .serve call reply => ∀ groupId ∈ s.deletes call reply, Unowned s groupId
  | .cleanup d => ∀ groupId ∈ s.cleans d, Unowned s groupId
  | _ => True

structure Equipped (s : GroupLeader) : Prop where
  acl : ∀ e ∈ s.groupSessions, ∀ groupId ∈ s.groupIdOf e.2, s.acl groupId s.leaderAic = true
  queues : ∀ e ∈ s.groupSessions, ∀ groupId ∈ s.groupIdOf e.2,
    s.queues (buildGroupQueueName s.leaderAic groupId s.leaderAic) = true

variable {s t : GroupLeader}

def GroupLeader.resources (s : GroupLeader) : (Text → Text → Bool) × (Text → Bool) × (Text → Bool) :=
  (s.acl, s.exchanges, s.queues)

theorem resources_clear (s : GroupLeader) (aic : Text) :
    (s.clearPendingInvitation aic).resources = s.resources := by
  unfold GroupLeader.clearPendingInvitation
  split
  · rfl
  · rfl

theorem resources_failPending (s : GroupLeader) (chosen : Invitation → Bool) (k : ℕ) :
    (s.failPending chosen k).resources = s.resources := by
  unfold GroupLeader.failPending
  split
  · rfl
  · split
    · rw [resources_clear]
      rfl
    · rfl

theorem resources_failAll (s : GroupLeader) (chosen : Invitation → Bool) :
    (s.failAll chosen).resources = s.resources := by
  unfold GroupLeader.failAll
  induction List.range s.invitations.length generalizing s with
  | nil => rfl
  | cons k ks ih => exact (ih (s.failPending chosen k)).trans (resources_failPending s chosen k)

theorem resources_dissolve (s : GroupLeader) (sessionId : Text) :
    (s.dissolve sessionId).resources = s.resources := by
  unfold GroupLeader.dissolve
  split
  · rfl
  · split
    · rfl
    · exact resources_failAll { s with
        groupSessions := s.groupSessions.filter fun e => e.1 ≠ sessionId }
        fun inv => inv.sessionId = sessionId

theorem Keeps.of_resources (h : t.resources = s.resources) : Keeps s t := by
  obtain ⟨hacl, hexchanges, hqueues⟩ : t.acl = s.acl ∧ t.exchanges = s.exchanges ∧
    t.queues = s.queues := by simpa [GroupLeader.resources] using h
  constructor
  · intro e _ g _ m hm
    rwa [hacl]
  · intro e _ g _ hg
    rwa [hexchanges]
  · intro e _ g _ hg
    rwa [hqueues]

theorem exchangeName_injective {leaderAic g g' : Text}
    (h : buildGroupExchangeName leaderAic g = buildGroupExchangeName leaderAic g') : g = g' := by
  unfold buildGroupExchangeName at h
  exact (List.cons.inj (List.append_cancel_left h)).2

theorem queueName_injective {leaderAic memberAic g g' : Text}
    (h : buildGroupQueueName leaderAic g memberAic = buildGroupQueueName leaderAic g' memberAic) :
    g = g' := exchangeName_injective (List.append_cancel_right h)

theorem serve_resources {call : ℕ} {reply : Reply} {groupId : Text}
    (hop : (s.calls[call]?).map AclCall.op = some (.deleteGroup groupId))
    (ht : s.serve call reply = some t) :
    t.exchanges = s.exchanges ∧ t.queues = s.queues ∧
      t.acl = if reply.applied then (AclOp.deleteGroup groupId).apply s.acl else s.acl := by
  obtain ⟨c, hc, ht⟩ := Option.bind_eq_some_iff.mp ht
  have hdelete : c.op = .deleteGroup groupId := by
    rw [hc] at hop
    exact Option.some.inj hop
  split at ht
  · obtain rfl := Option.some.inj ht
    exact ⟨rfl, rfl, by rw [← hdelete]⟩
  · cases ht

theorem keeps_serve {call : ℕ} {reply : Reply}
    (hdissolving : Dissolving s (.serve call reply)) (ht : s.serve call reply = some t) :
    (Spares s (.serve call reply) → Keeps s t) ∧
      (Equipped s → Keeps s t → Spares s (.serve call reply)) := by
  obtain ⟨groupId, hop⟩ := hdissolving
  obtain ⟨hexchanges, hqueues, hacl⟩ := serve_resources hop ht
  have hdeletes : s.deletes call reply = if reply.applied then some groupId else none := by
    unfold GroupLeader.deletes
    rw [hop]
  cases happlied : reply.applied with
  | false =>
    rw [happlied, if_neg Bool.false_ne_true] at hacl hdeletes
    refine ⟨fun _ => .of_resources ?_, fun _ _ g hg => ?_⟩
    · unfold GroupLeader.resources
      rw [hacl, hexchanges, hqueues]
    · rw [hdeletes] at hg
      cases hg
  | true =>
    rw [happlied, if_pos rfl] at hacl hdeletes
    constructor
    · intro hspares
      have hunowned := hspares groupId hdeletes
      constructor
      · intro e he g hg m hm
        rw [hacl]
        exact decide_eq_true ⟨fun heq => hunowned e he (heq ▸ hg), hm⟩
      · intro e _ g _ hg
        rwa [hexchanges]
      · intro e _ g _ hg
        rwa [hqueues]
    · intro hequipped hkeeps g hg e he hgroup
      rw [hdeletes] at hg
      obtain rfl := Option.some.inj hg
      have hleader := hkeeps.acl e he groupId hgroup _ (hequipped.acl e he groupId hgroup)
      rw [hacl] at hleader
      exact (of_decide_eq_true hleader).1 rfl

theorem cleanup_resources {d : ℕ} (ht : s.cleanup d = some t) : t.acl = s.acl ∧
    match s.cleans d with
    | none => t.exchanges = s.exchanges ∧ t.queues = s.queues
    | some groupId =>
      t.exchanges = Function.update s.exchanges (buildGroupExchangeName s.leaderAic groupId) false ∧
      t.queues =
        Function.update s.queues (buildGroupQueueName s.leaderAic groupId s.leaderAic) false := by
  obtain ⟨dissolution, hd, ht⟩ := Option.bind_eq_some_iff.mp ht
  unfold GroupLeader.cleans
  rw [hd, Option.bind_some]
  cases hphase : dissolution.phase with
  | deletingGroup call =>
    rw [hphase] at ht
    dsimp only at ht ⊢
    cases hreply : s.reply call with
    | none =>
      rw [hreply] at ht
      cases ht
    | some reply =>
      rw [hreply] at ht
      cases reply with
      | transportError applied =>
        obtain rfl := Option.some.inj ht
        exact ⟨rfl, rfl, rfl⟩
      | done | groupAclError =>
        obtain rfl := Option.some.inj ht
        exact ⟨rfl, rfl, rfl⟩
  | broadcasting | ended =>
    rw [hphase] at ht
    cases ht

theorem keeps_cleanup {d : ℕ} (ht : s.cleanup d = some t) :
    (Spares s (.cleanup d) → Keeps s t) ∧ (Equipped s → Keeps s t → Spares s (.cleanup d)) := by
  obtain ⟨hacl, hresources⟩ := cleanup_resources ht
  cases hcleans : s.cleans d with
  | none =>
    rw [hcleans] at hresources
    refine ⟨fun _ => .of_resources ?_, fun _ _ g hg => ?_⟩
    · unfold GroupLeader.resources
      rw [hacl, hresources.1, hresources.2]
    · rw [hcleans] at hg
      cases hg
  | some groupId =>
    rw [hcleans] at hresources
    obtain ⟨hexchanges, hqueues⟩ := hresources
    constructor
    · intro hspares
      have hunowned := hspares groupId hcleans
      have hne : ∀ e ∈ s.groupSessions, ∀ g ∈ s.groupIdOf e.2, g ≠ groupId :=
        fun e he g hg heq => hunowned e he (heq ▸ hg)
      constructor
      · intro e _ g _ m hm
        rwa [hacl]
      · intro e he g hg hdeclared
        rwa [hexchanges, Function.update_of_ne fun heq => hne e he g hg (exchangeName_injective heq)]
      · intro e he g hg hdeclared
        rwa [hqueues, Function.update_of_ne fun heq => hne e he g hg (queueName_injective heq)]
    · intro hequipped hkeeps g hg e he hgroup
      rw [hcleans] at hg
      obtain rfl := Option.some.inj hg
      have hqueue := hkeeps.queues e he groupId hgroup (hequipped.queues e he groupId hgroup)
      rw [hqueues, Function.update_self] at hqueue
      cases hqueue

theorem keeps_iff_spares {a : Act} (hdissolving : Dissolving s a)
    (ht : groupLeader.step s a = some t) :
    (Spares s a → Keeps s t) ∧ (Equipped s → Keeps s t → Spares s a) := by
  cases a with
  | serve call reply => exact keeps_serve hdissolving ht
  | cleanup d => exact keeps_cleanup ht
  | dissolve sessionId =>
    obtain rfl := Option.some.inj ht
    exact ⟨fun _ => .of_resources (resources_dissolve s sessionId), fun _ _ => trivial⟩
  | deleteGroup d =>
    obtain ⟨dissolution, -, ht⟩ := Option.bind_eq_some_iff.mp ht
    split at ht
    · obtain rfl := Option.some.inj ht
      exact ⟨fun _ => .of_resources rfl, fun _ _ => trivial⟩
    · cases ht
  | create | invite | resume | answer | cancel | watchTimeout | resumeWatch | invitationError
  | resumeRejection | groupMessage | forceRemove | closePending => exact absurd hdissolving id

end Dissolution

theorem sessions_isolated (s : GroupLeader) :
    (∀ message, (s.Routed message → s.Isolated message) ∧
      (s.Fresh message → s.Isolated message → s.Routed message)) ∧
    ∀ a t, Dissolving s a → groupLeader.step s a = some t →
      (Spares s a → Keeps s t) ∧ (Equipped s → Keeps s t → Spares s a) :=
  ⟨fun _ => ⟨isolated_of_routed, routed_of_isolated⟩, fun _ _ hd ht => keeps_iff_spares hd ht⟩

def twoSessions : GroupLeader :=
  (({ leaderAic := "l".toList } : GroupLeader).create "s".toList []).create "t".toList []

def oneDissolving : GroupLeader :=
  (twoSessions.dissolve "t".toList).sendCall (.deleteGroup "group-t".toList)

def leaveMessage (sessionId : Text) : Message :=
  { id := "m".toList, senderId := "p".toList, sessionId := some sessionId,
    groupId := "group-s".toList, body := .groupMgmtResult false false }

theorem sessions_isolated_leave :
    twoSessions.Isolated (leaveMessage "s".toList) ∧
      ∃ t, groupLeader.step oneDissolving (.serve 0 .done) = some t ∧ Keeps oneDissolving t := by
  constructor
  · refine ((sessions_isolated twoSessions).1 _).1 fun j found hj _ => ?_
    have hroute : twoSessions.routeMessage (leaveMessage "s".toList) = some 0 := by decide +kernel
    obtain rfl : 0 = j := Option.some.inj (hroute.symm.trans hj)
    exact ⟨by decide +kernel, by decide +kernel, by decide +kernel⟩
  · have hstep : (groupLeader.step oneDissolving (.serve 0 .done)).isSome = true := by
      decide +kernel
    obtain ⟨t, ht⟩ := Option.isSome_iff_exists.mp hstep
    have hdissolving : Dissolving oneDissolving (.serve 0 .done) :=
      ⟨"group-t".toList, by decide +kernel⟩
    refine ⟨t, ht, ((sessions_isolated oneDissolving).2 _ t hdissolving ht).1 ?_⟩
    intro groupId hgroup
    have hdeletes : oneDissolving.deletes 0 .done = some "group-t".toList := by decide +kernel
    obtain rfl := Option.some.inj (hdeletes.symm.trans hgroup)
    unfold Unowned
    decide +kernel

def collidingRun : List Act :=
  [.create "a b".toList [], .create "a-b".toList [], .dissolve "a b".toList, .deleteGroup 0,
    .serve 0 .done, .cleanup 0]

theorem sessions_not_isolated :
    (∃ found, twoSessions.sessions[1]? = some found ∧ found.groupId = "group-t".toList ∧
      found.messageHistory = [] ∧
      ∃ found', (twoSessions.handleGroupMessage (leaveMessage "t".toList)).sessions[1]? = some found' ∧
        found'.messageHistory = [leaveMessage "t".toList]) ∧
    ∃ t, groupLeader.exec { leaderAic := "l".toList } collidingRun = some t ∧
      t.groupSessions = [("a-b".toList, 1)] ∧ t.groupIdOf 1 = some "group-a-b".toList ∧
      t.acl "group-a-b".toList "l".toList = false ∧
      t.queues (buildGroupQueueName "l".toList "group-a-b".toList "l".toList) = false := by
  have hfirst : (twoSessions.sessions[1]?).any (fun found =>
      found.groupId = "group-t".toList ∧ found.messageHistory = []) = true := by decide +kernel
  have hthen : ((twoSessions.handleGroupMessage (leaveMessage "t".toList)).sessions[1]?).any
      (fun found => found.messageHistory = [leaveMessage "t".toList]) = true := by decide +kernel
  have hrun : (groupLeader.exec { leaderAic := "l".toList } collidingRun).any (fun t =>
      t.groupSessions = [("a-b".toList, 1)] ∧ t.groupIdOf 1 = some "group-a-b".toList ∧
      t.acl "group-a-b".toList "l".toList = false ∧
      t.queues (buildGroupQueueName "l".toList "group-a-b".toList "l".toList) = false) = true := by
    decide +kernel
  obtain ⟨found, hfound, hbefore⟩ := (Option.any_eq_true _ _).mp hfirst
  obtain ⟨found', hfound', hafter⟩ := (Option.any_eq_true _ _).mp hthen
  obtain ⟨t, ht, hlost⟩ := (Option.any_eq_true _ _).mp hrun
  obtain ⟨hgroup, hempty⟩ := of_decide_eq_true hbefore
  exact ⟨⟨found, hfound, hgroup, hempty, found', hfound', of_decide_eq_true hafter⟩, t, ht,
    of_decide_eq_true hlost⟩

end Acps.Group
