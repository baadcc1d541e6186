import Acps.Lib.Slots
import Acps.Group.Leader

/-!
Invitations and the members that the ACL service knows.
-/

namespace Acps.Group

open Aic (Text)
open Slots

def Invitation.inGroup (reply : ℕ → Option Reply) (inv : Invitation) : Bool :=
  match inv.phase with
  | .addingMember call => reply call = some .done
  | .publishing | .awaitingFuture | .requesting | .returned => true
  | .rollingBack _ | .raised | .cancelled => false

def Invitation.stands (reply : ℕ → Option Reply) (inv : Invitation) : Bool :=
  inv.inGroup reply ∧ inv.withdrawn = false ∧ inv.left = false

def Invitation.counted (reply : ℕ → Option Reply) (inv : Invitation) : Bool :=
  match inv.phase with
  | .rollingBack call => reply call = none
  | _ => inv.inGroup reply

def Invitation.sent (inv : Invitation) : Prop :=
  inv.phase = .publishing ∨ inv.phase = .awaitingFuture

namespace GroupLeader

variable (s : GroupLeader)

def opOf (call : ℕ) : Option AclOp := (s.calls[call]?).map AclCall.op

def AllDone : Prop := ∀ call r, s.reply call = some r → r = .done

end GroupLeader

structure Fits (s : GroupLeader) (inv : Invitation) : Prop where
  standing : inv.stands s.reply = true → s.acl inv.groupId inv.partnerAic = true
  kept : inv.withdrawn = true →
    (∀ call, inv.phase ≠ .addingMember call) ∧ inv.phase ≠ .requesting ∧ inv.phase ≠ .returned
  confirmed : inv.future = .result → inv.sent → inv.withdrawn = false
  adding : ∀ call, inv.phase = .addingMember call →
    s.opOf call = some (.addMember inv.groupId inv.partnerAic)
  rolling : ∀ call, inv.phase = .rollingBack call →
    s.opOf call = some (.removeMember inv.groupId inv.partnerAic)
  unseated : s.AllDone → inv.phase = .raised → s.seated inv.groupId inv.partnerAic = false

structure Agreement (s : GroupLeader) : Prop where
  fits : ∀ (k : ℕ) (inv : Invitation), s.invitations[k]? = some inv → Fits s inv
  entry : ∀ aic k, s.pendingInvitations aic = some k → ∃ inv : Invitation,
    s.invitations[k]? = some inv ∧ inv.partnerAic = aic ∧ inv.sent ∧ inv.future ≠ .result
  member : s.AllDone → ∀ g m, s.acl g m = true → s.seated g m = true ∨
    ∃ (k : ℕ) (inv : Invitation), s.invitations[k]? = some inv ∧ inv.groupId = g ∧ inv.partnerAic = m ∧
      inv.counted s.reply = true
  unanswered : ∀ call g m, s.opOf call = some (.addMember g m) → s.reply call = none →
    ∃ (k : ℕ) (inv : Invitation), s.invitations[k]? = some inv ∧ inv.groupId = g ∧ inv.partnerAic = m ∧
      inv.phase = .addingMember call

theorem agreement_new (leaderAic : Text) : Agreement { leaderAic := leaderAic } where
  fits := fun _ _ h => by cases h
  entry := fun _ _ h => by cases h
  member := fun _ _ _ h => by cases h
  unanswered := fun _ _ _ h => by cases h

section Calls

variable {s t : GroupLeader} {inv : Invitation}

theorem reply_sendCall (s : GroupLeader) (op : AclOp) : (s.sendCall op).reply = s.reply := by
  funext call
  change ((s.calls ++ [_])[call]?).bind _ = (s.calls[call]?).bind _
  rcases Nat.lt_trichotomy call s.calls.length with h | rfl | h
  · rw [List.getElem?_append_left h]
  · rw [List.getElem?_concat_length, List.getElem?_eq_none (Nat.le_refl _)]
    rfl
  · rw [List.getElem?_eq_none (by simp; omega), List.getElem?_eq_none (Nat.le_of_lt h)]

theorem opOf_sendCall_self (s : GroupLeader) (op : AclOp) :
    (s.sendCall op).opOf s.calls.length = some op := by
  change ((s.calls ++ [_])[s.calls.length]?).map _ = _
  rw [List.getElem?_concat_length]
  rfl

theorem opOf_sendCall {op op' : AclOp} {call : ℕ} :
    (s.sendCall op).opOf call = some op' ↔
      s.opOf call = some op' ∨ call = s.calls.length ∧ op = op' := by
  constructor
  · intro h
    obtain ⟨c, hc, rfl⟩ := Option.map_eq_some_iff.mp h
    rcases getElem?_concat_eq_some.mp hc with hc | ⟨rfl, rfl⟩
    · exact .inl (Option.map_eq_some_iff.mpr ⟨c, hc, rfl⟩)
    · exact .inr ⟨rfl, rfl⟩
  · rintro (h | ⟨rfl, rfl⟩)
    · obtain ⟨c, hc, rfl⟩ := Option.map_eq_some_iff.mp h
      exact Option.map_eq_some_iff.mpr ⟨c, getElem?_concat_eq_some.mpr (.inl hc), rfl⟩
    · exact opOf_sendCall_self s op

theorem Fits.mono (h : Fits s inv) (hreply : t.reply = s.reply)
    (hop : ∀ call op, s.opOf call = some op → t.opOf call = some op) (hacl : t.acl = s.acl)
    (hseated : t.seated = s.seated) : Fits t inv where
  standing := fun hs => by
    rw [hacl]
    exact h.standing (hreply ▸ hs)
  kept := h.kept
  confirmed := h.confirmed
  adding := fun call hc => hop _ _ (h.adding call hc)
  rolling := fun call hc => hop _ _ (h.rolling call hc)
  unseated := fun hdone hr => by
    rw [hseated]
    exact h.unseated (fun call r hcall => hdone call r (hreply ▸ hcall)) hr

end Calls

section Primitives

variable {s t : GroupLeader} {k : ℕ} {inv : Invitation} {f : Invitation → Invitation}

theorem Agreement.of_eq (h : Agreement s) (hpending : t.pendingInvitations = s.pendingInvitations)
    (hinvitations : t.invitations = s.invitations) (hcalls : t.calls = s.calls)
    (hacl : t.acl = s.acl) (hseated : t.seated = s.seated) : Agreement t := by
  have hreply : t.reply = s.reply := by
    unfold GroupLeader.reply
    rw [hcalls]
  have hop : t.opOf = s.opOf := by
    unfold GroupLeader.opOf
    rw [hcalls]
  constructor
  · intro k inv hk
    rw [hinvitations] at hk
    exact (h.fits k inv hk).mono hreply (fun call op hc => by rw [hop]; exact hc) hacl hseated
  · rw [hpending, hinvitations]
    exact h.entry
  · unfold GroupLeader.AllDone
    rw [hreply, hacl, hseated, hinvitations]
    exact h.member
  · rw [hop, hreply, hinvitations]
    exact h.unanswered

theorem Agreement.modify (h : Agreement s) (hk : s.invitations[k]? = some inv)
    (hgroup : (f inv).groupId = inv.groupId) (hpartner : (f inv).partnerAic = inv.partnerAic)
    (hfits : Fits s (f inv))
    (hcounted : inv.counted s.reply = true → (f inv).counted s.reply = true)
    (hadding : ∀ call, inv.phase = .addingMember call → s.reply call = none →
      (f inv).phase = .addingMember call)
    (hentry : ∀ aic m, t.pendingInvitations aic = some m →
      s.pendingInvitations aic = some m ∧ m ≠ k ∨
      m = k ∧ inv.partnerAic = aic ∧ (f inv).sent ∧ (f inv).future ≠ .result)
    (hinvitations : t.invitations = s.invitations.modify k f) (hcalls : t.calls = s.calls)
    (hacl : t.acl = s.acl) (hseated : t.seated = s.seated) : Agreement t := by
  have hreply : t.reply = s.reply := by
    unfold GroupLeader.reply
    rw [hcalls]
  have hop : t.opOf = s.opOf := by
    unfold GroupLeader.opOf
    rw [hcalls]
  have hk' : t.invitations[k]? = some (f inv) := by
    rw [hinvitations, List.getElem?_modify_eq, hk]
    rfl
  have hother : ∀ j, k ≠ j → t.invitations[j]? = s.invitations[j]? := by
    intro j hj
    rw [hinvitations, List.getElem?_modify_ne f _ hj]
  constructor
  · intro j i hi
    have hmono := fun hfit : Fits s i =>
      hfit.mono hreply (fun call op hc => by rw [hop]; exact hc) hacl hseated
    by_cases hj : k = j
    · subst hj
      obtain rfl := Option.some.inj (hk'.symm.trans hi)
      exact hmono hfits
    · rw [hother j hj] at hi
      exact hmono (h.fits j i hi)
  · intro aic m hm
    rcases hentry aic m hm with ⟨hold, hne⟩ | ⟨rfl, haic, hsent, hresult⟩
    · rw [hother m (Ne.symm hne)]
      exact h.entry aic m hold
    · exact ⟨f inv, hk', hpartner.trans haic, hsent, hresult⟩
  · intro hdone g m hgm
    rw [hacl] at hgm
    have hdone' : s.AllDone := fun call r hc => hdone call r (by rw [hreply]; exact hc)
    rw [hseated, hreply]
    rcases h.member hdone' g m hgm with hseat | ⟨j, i, hi, hig, him, hc⟩
    · exact .inl hseat
    · right
      by_cases hj : k = j
      · subst hj
        obtain rfl : inv = i := Option.some.inj (hk.symm.trans hi)
        exact ⟨k, f inv, hk', hgroup.trans hig, hpartner.trans him, hcounted hc⟩
      · exact ⟨j, i, (hother j hj).trans hi, hig, him, hc⟩
  · intro call g m hcall hnone
    rw [hop] at hcall
    rw [hreply] at hnone
    obtain ⟨j, i, hi, hig, him, hphase⟩ := h.unanswered call g m hcall hnone
    by_cases hj : k = j
    · subst hj
      obtain rfl : inv = i := Option.some.inj (hk.symm.trans hi)
      exact ⟨k, f inv, hk', hgroup.trans hig, hpartner.trans him, hadding call hphase hnone⟩
    · exact ⟨j, i, (hother j hj).trans hi, hig, him, hphase⟩

theorem Agreement.sendCall (h : Agreement s) {op : AclOp} (hop : ∀ g m, op ≠ .addMember g m) :
    Agreement (s.sendCall op) := by
  have hreply := reply_sendCall s op
  constructor
  · intro k inv hk
    exact (h.fits k inv hk).mono hreply (fun _ _ hc => opOf_sendCall.mpr (.inl hc)) rfl rfl
  · exact h.entry
  · unfold GroupLeader.AllDone
    rw [hreply]
    exact h.member
  · intro call g m hcall hnone
    rw [hreply] at hnone
    rcases opOf_sendCall.mp hcall with hcall | ⟨-, rfl⟩
    · exact h.unanswered call g m hcall hnone
    · exact absurd rfl (hop g m)

structure Minor (old new : Invitation) : Prop where
  groupId : new.groupId = old.groupId
  partnerAic : new.partnerAic = old.partnerAic
  phase : new.phase = old.phase
  withdrawn : new.withdrawn = old.withdrawn
  left : new.left = false → old.left = false
  future : new.future = .result → old.future = .result

theorem Minor.refl (inv : Invitation) : Minor inv inv := ⟨rfl, rfl, rfl, rfl, id, id⟩

theorem minor_unwatch (inv : Invitation) : Minor inv inv.unwatch := ⟨rfl, rfl, rfl, rfl, id, id⟩

theorem minor_settle (inv : Invitation) {outcome : Future} (h : outcome ≠ .result) :
    Minor inv (inv.settle outcome) where
  groupId := rfl
  partnerAic := rfl
  phase := rfl
  withdrawn := rfl
  left := id
  future := fun hresult => by
    unfold Invitation.settle at hresult
    dsimp only at hresult
    split at hresult
    · exact absurd hresult h
    · exact hresult

variable {old new : Invitation}

theorem Minor.inGroup (h : Minor old new) (reply : ℕ → Option Reply) :
    new.inGroup reply = old.inGroup reply := by
  unfold Invitation.inGroup
  rw [h.phase]

theorem Minor.counted (h : Minor old new) (reply : ℕ → Option Reply) :
    new.counted reply = old.counted reply := by
  unfold Invitation.counted
  rw [h.phase, h.inGroup]

theorem Minor.sent (h : Minor old new) : new.sent ↔ old.sent := by
  unfold Invitation.sent
  rw [h.phase]

theorem Invitation.stands_iff {reply : ℕ → Option Reply} :
    inv.stands reply = true ↔
      inv.inGroup reply = true ∧ inv.withdrawn = false ∧ inv.left = false := by
  unfold stands
  rw [decide_eq_true_iff]

theorem Fits.of_minor (h : Fits s old) (hminor : Minor old new) : Fits s new where
  standing := fun hs => by
    obtain ⟨hin, hw, hleft⟩ := Invitation.stands_iff.mp hs
    rw [hminor.groupId, hminor.partnerAic]
    refine h.standing (Invitation.stands_iff.mpr ⟨?_, ?_, hminor.left hleft⟩)
    · rw [← hminor.inGroup, hin]
    · rw [← hminor.withdrawn, hw]
  kept := by
    rw [hminor.withdrawn, hminor.phase]
    exact h.kept
  confirmed := fun hresult hsent => by
    rw [hminor.withdrawn]
    exact h.confirmed (hminor.future hresult) (hminor.sent.mp hsent)
  adding := by
    rw [hminor.phase, hminor.groupId, hminor.partnerAic]
    exact h.adding
  rolling := by
    rw [hminor.phase, hminor.groupId, hminor.partnerAic]
    exact h.rolling
  unseated := by
    rw [hminor.phase, hminor.groupId, hminor.partnerAic]
    exact h.unseated

theorem Agreement.of_minor (h : Agreement s)
    (hback : ∀ (j : ℕ) (new : Invitation), t.invitations[j]? = some new → ∃ old : Invitation,
      s.invitations[j]? = some old ∧ Minor old new)
    (hforth : ∀ (j : ℕ) (old : Invitation), s.invitations[j]? = some old → ∃ new : Invitation,
      t.invitations[j]? = some new ∧ Minor old new)
    (hpending : ∀ aic m, t.pendingInvitations aic = some m → s.pendingInvitations aic = some m)
    (hcalls : t.calls = s.calls) (hacl : t.acl = s.acl) (hseated : t.seated = s.seated) :
    Agreement t := by
  have hreply : t.reply = s.reply := by
    unfold GroupLeader.reply
    rw [hcalls]
  have hop : t.opOf = s.opOf := by
    unfold GroupLeader.opOf
    rw [hcalls]
  constructor
  · intro j new hj
    obtain ⟨old, hold, hminor⟩ := hback j new hj
    exact ((h.fits j old hold).of_minor hminor).mono hreply
      (fun call op hc => by rw [hop]; exact hc) hacl hseated
  · intro aic m hm
    obtain ⟨old, hold, haic, hsent, hresult⟩ := h.entry aic m (hpending aic m hm)
    obtain ⟨new, hnew, hminor⟩ := hforth m old hold
    exact ⟨new, hnew, hminor.partnerAic.trans haic, hminor.sent.mpr hsent,
      fun hr => hresult (hminor.future hr)⟩
  · unfold GroupLeader.AllDone
    rw [hreply, hacl, hseated]
    intro hdone g m hgm
    refine (h.member hdone g m hgm).imp_right ?_
    rintro ⟨j, old, hold, hg, hm, hc⟩
    obtain ⟨new, hnew, hminor⟩ := hforth j old hold
    exact ⟨j, new, hnew, hminor.groupId.trans hg, hminor.partnerAic.trans hm,
      (hminor.counted _).trans hc⟩
  · rw [hop, hreply]
    intro call g m hcall hnone
    obtain ⟨j, old, hold, hg, hm, hphase⟩ := h.unanswered call g m hcall hnone
    obtain ⟨new, hnew, hminor⟩ := hforth j old hold
    exact ⟨j, new, hnew, hminor.groupId.trans hg, hminor.partnerAic.trans hm,
      hminor.phase.trans hphase⟩

theorem Agreement.modify_minor (h : Agreement s) (hf : ∀ inv, Minor inv (f inv))
    (hpending : ∀ aic m, t.pendingInvitations aic = some m → s.pendingInvitations aic = some m)
    (hinvitations : t.invitations = s.invitations.modify k f) (hcalls : t.calls = s.calls)
    (hacl : t.acl = s.acl) (hseated : t.seated = s.seated) : Agreement t := by
  refine h.of_minor (fun j new hnew => ?_) (fun j old hold => ?_) hpending hcalls hacl hseated
  · rw [hinvitations] at hnew
    rcases getElem?_modify_eq_some.mp hnew with ⟨-, old, hold, rfl⟩ | ⟨-, hnew⟩
    · exact ⟨old, hold, hf old⟩
    · exact ⟨new, hnew, .refl new⟩
  · rw [hinvitations]
    by_cases hj : k = j
    · subst hj
      exact ⟨f old, by rw [List.getElem?_modify_eq, hold]; rfl, hf old⟩
    · exact ⟨old, by rw [List.getElem?_modify_ne f _ hj, hold], .refl old⟩

theorem pending_of_update_none {pending : Text → Option ℕ} {aic aic' : Text} {m : ℕ}
    (h : Function.update pending aic none aic' = some m) : aic' ≠ aic ∧ pending aic' = some m := by
  by_cases haic : aic' = aic
  · rw [haic, Function.update_self] at h
    cases h
  · rw [Function.update_of_ne haic] at h
    exact ⟨haic, h⟩

theorem Agreement.clear (h : Agreement s) (aic : Text) :
    Agreement (s.clearPendingInvitation aic) := by
  unfold GroupLeader.clearPendingInvitation
  split
  · exact h
  · exact h.modify_minor minor_unwatch (fun _ _ hm => (pending_of_update_none hm).2) rfl rfl rfl rfl

theorem Agreement.settle (h : Agreement s) (k : ℕ) {outcome : Future} (hresult : outcome ≠ .result) :
    Agreement (s.settle k outcome) :=
  h.modify_minor (fun inv => minor_settle inv hresult) (fun _ _ hm => hm) rfl rfl rfl rfl

theorem Agreement.markLeft (h : Agreement s) (left : Invitation → Bool) :
    Agreement (s.markLeft left) := by
  have hminor : ∀ inv : Invitation,
      Minor inv (if inv.phase = .returned ∧ left inv then { inv with left := true } else inv) := by
    intro inv
    split
    · exact ⟨rfl, rfl, rfl, rfl, (fun h => by cases h), id⟩
    · exact .refl inv
  refine h.of_minor (fun j new hnew => ?_) (fun j old hold => ?_) (fun _ _ hm => hm) rfl rfl rfl
  · obtain ⟨old, hold, rfl⟩ := Option.map_eq_some_iff.mp (List.getElem?_map.symm.trans hnew)
    exact ⟨old, hold, hminor old⟩
  · exact ⟨_, List.getElem?_map.trans (congrArg (Option.map _) hold), hminor old⟩

theorem Agreement.failPending (h : Agreement s) (chosen : Invitation → Bool) (k : ℕ) :
    Agreement (s.failPending chosen k) := by
  unfold GroupLeader.failPending
  split
  · exact h
  · split
    · exact (h.settle k (by decide)).clear _
    · exact h

theorem Agreement.failAll (h : Agreement s) (chosen : Invitation → Bool) :
    Agreement (s.failAll chosen) := by
  unfold GroupLeader.failAll
  induction List.range s.invitations.length generalizing s with
  | nil => exact h
  | cons k ks ih => exact ih (h.failPending chosen k)

end Primitives

section Steps

variable {s t : GroupLeader} {k : ℕ} {inv : Invitation}

def ConfirmsKept (s : GroupLeader) (message : Message) : Prop :=
  match message.body with
  | .groupMgmtResult true _ => ∀ k ∈ s.pendingInvitations message.senderId,
      ∀ inv ∈ s.invitations[k]?, inv.withdrawn = false
  | _ => True

def NoneRaised (s : GroupLeader) (sessionId : Text) (initialPartners : List Text) : Prop :=
  match groupIdSeed sessionId with
  | .ok groupId => ∀ inv ∈ s.invitations, inv.groupId = groupId → inv.phase = .raised →
      inv.partnerAic ≠ s.leaderAic ∧ inv.partnerAic ∉ initialPartners
  | .error _ => True

def RemovesNone (s : GroupLeader) : AclOp → Prop
  | .addMember _ _ => True
  | .removeMember g m => ∀ inv ∈ s.invitations, inv.groupId = g → inv.partnerAic = m →
      inv.stands s.reply = false
  | .deleteGroup g => ∀ inv ∈ s.invitations, inv.groupId = g → inv.stands s.reply = false

/-- What is asked of a step. A removal that is carried out reaches no member that an invitation
stands for; a partner that confirms its join does so for an invitation that was not withdrawn; no
caller cancels; and nobody whom a session was created with fails to be invited to it. -/
def Agreeing (s : GroupLeader) : Act → Prop
  | .serve call reply => reply.applied = true → ∀ op ∈ s.opOf call, RemovesNone s op
  | .groupMessage message => ConfirmsKept s message
  | .cancel _ => False
  | .create sessionId initialPartners => NoneRaised s sessionId initialPartners
  | .invite sessionId partnerAic route => s.inviteRaises partnerAic route = true →
      ∀ groupId ∈ (s.groupSession sessionId).bind s.groupIdOf, s.seated groupId partnerAic = false
  | .resume k => ∀ inv ∈ s.invitations[k]?,
      match inv.phase with
      | .rollingBack call => s.reply call ≠ none → s.seated inv.groupId inv.partnerAic = false
      | _ => True
  | _ => True

instance (s : GroupLeader) : (op : AclOp) → Decidable (RemovesNone s op)
  | .addMember _ _ => instDecidableTrue
  | .removeMember g m => inferInstanceAs (Decidable (∀ inv ∈ s.invitations, inv.groupId = g →
      inv.partnerAic = m → inv.stands s.reply = false))
  | .deleteGroup g => inferInstanceAs (Decidable (∀ inv ∈ s.invitations, inv.groupId = g →
      inv.stands s.reply = false))

instance (s : GroupLeader) (message : Message) : Decidable (ConfirmsKept s message) := by
  unfold ConfirmsKept
  cases message.body with
  | groupMgmtResult connected muted => cases connected <;> exact inferInstance
  | _ => exact instDecidableTrue

instance (s : GroupLeader) (sessionId : Text) (initialPartners : List Text) :
    Decidable (NoneRaised s sessionId initialPartners) := by
  unfold NoneRaised
  cases groupIdSeed sessionId <;> exact inferInstance

instance (s : GroupLeader) (a : Act) : Decidable (Agreeing s a) := by
  cases a with
  | serve | invite =>
    unfold Agreeing
    exact inferInstance
  | groupMessage message => exact inferInstanceAs (Decidable (ConfirmsKept s message))
  | create sessionId initialPartners =>
    exact inferInstanceAs (Decidable (NoneRaised s sessionId initialPartners))
  | resume k =>
    refine @Option.decidableForallMem _ _ (fun inv => ?_) _
    cases inv.phase <;> exact inferInstance
  | cancel k => exact instDecidableFalse
  | _ => exact instDecidableTrue

theorem Agreement.setPhase (h : Agreement s) (hk : s.invitations[k]? = some inv)
    (hfree : ∀ aic, s.pendingInvitations aic ≠ some k) {phase : Phase}
    (hfits : Fits s (inv.setPhase phase))
    (hcounted : inv.counted s.reply = true → (inv.setPhase phase).counted s.reply = true)
    (hadding : ∀ call, inv.phase = .addingMember call → s.reply call = none →
      phase = .addingMember call) : Agreement (s.setPhase k phase) :=
  h.modify hk (f := (Invitation.setPhase · phase)) rfl rfl hfits hcounted hadding
    (fun aic _ hm => .inl ⟨hm, fun heq => hfree aic (heq ▸ hm)⟩) rfl rfl rfl rfl

theorem Agreement.free_of_phase (h : Agreement s) (hk : s.invitations[k]? = some inv)
    (hsent : ¬ inv.sent) (aic : Text) : s.pendingInvitations aic ≠ some k := by
  intro hentry
  obtain ⟨i, hi, -, hsent', -⟩ := h.entry aic k hentry
  obtain rfl : inv = i := Option.some.inj (hk.symm.trans hi)
  exact hsent hsent'

theorem Agreement.free_of_clear (h : Agreement s) (hk : s.invitations[k]? = some inv) (aic : Text) :
    (s.clearPendingInvitation inv.partnerAic).pendingInvitations aic ≠ some k := by
  have hpartner : ∀ aic, s.pendingInvitations aic = some k → inv.partnerAic = aic := by
    intro aic hentry
    obtain ⟨i, hi, hp, -⟩ := h.entry aic k hentry
    obtain rfl : inv = i := Option.some.inj (hk.symm.trans hi)
    exact hp
  unfold GroupLeader.clearPendingInvitation
  split
  · next hnone =>
    intro hentry
    rw [hpartner aic hentry, hentry] at hnone
    cases hnone
  · intro hentry
    obtain ⟨hne, hold⟩ := pending_of_update_none hentry
    exact hne (hpartner aic hold).symm

theorem getElem?_clearPendingInvitation (hk : s.invitations[k]? = some inv) (aic : Text) :
    ∃ i : Invitation, (s.clearPendingInvitation aic).invitations[k]? = some i ∧ Minor inv i := by
  unfold GroupLeader.clearPendingInvitation
  split
  · exact ⟨inv, hk, .refl inv⟩
  · next m _ =>
    change ∃ i : Invitation, (s.invitations.modify m Invitation.unwatch)[k]? = some i ∧ _
    by_cases hm : m = k
    · subst hm
      exact ⟨inv.unwatch, by rw [List.getElem?_modify_eq, hk]; rfl, minor_unwatch inv⟩
    · exact ⟨inv, by rw [List.getElem?_modify_ne _ _ hm, hk], .refl inv⟩

theorem Agreement.rollBack (h : Agreement s) {i : Invitation} (hk : s.invitations[k]? = some i)
    (hfree : ∀ aic, s.pendingInvitations aic ≠ some k) (hgroup : i.groupId = inv.groupId)
    (hpartner : i.partnerAic = inv.partnerAic)
    (hadding : ∀ call, i.phase = .addingMember call → s.reply call ≠ none) :
    Agreement (s.rollBack k inv) := by
  have hsent : Agreement (s.sendCall (.removeMember inv.groupId inv.partnerAic)) :=
    h.sendCall fun _ _ hop => by cases hop
  have hreply := reply_sendCall s (.removeMember inv.groupId inv.partnerAic)
  have hself := opOf_sendCall_self s (.removeMember inv.groupId inv.partnerAic)
  have hnone : s.reply s.calls.length = none := by
    unfold GroupLeader.reply
    rw [List.getElem?_eq_none (Nat.le_refl _)]
    rfl
  refine hsent.modify (f := (Invitation.rollBack · s.calls.length)) hk rfl rfl ?_ ?_ ?_
    (fun aic _ hm => .inl ⟨hm, fun heq => hfree aic (heq ▸ hm)⟩) rfl rfl rfl rfl
  · constructor
    · intro hstands
      cases (Invitation.stands_iff.mp hstands).1
    · exact fun _ => ⟨(fun _ hp => by cases hp), (fun hp => by cases hp), (fun hp => by cases hp)⟩
    · rintro - (hp | hp)
      · cases hp
      · cases hp
    · intro _ hp
      cases hp
    · intro call hp
      obtain rfl : s.calls.length = call := Phase.rollingBack.inj hp
      change _ = some (AclOp.removeMember i.groupId i.partnerAic)
      rw [hself, hgroup, hpartner]
    · intro _ hp
      cases hp
  · intro _
    change decide (GroupLeader.reply _ s.calls.length = none) = true
    rw [hreply]
    exact decide_eq_true hnone
  · intro call hp hcall
    rw [hreply] at hcall
    exact absurd hcall (hadding call hp)

theorem Agreement.failInbox (h : Agreement s) (hk : s.invitations[k]? = some inv)
    (hsent : inv.sent) : Agreement (s.failInbox k inv) := by
  obtain ⟨i, hi, hminor⟩ := getElem?_clearPendingInvitation hk inv.partnerAic
  refine (h.clear inv.partnerAic).rollBack hi (h.free_of_clear hk) hminor.groupId hminor.partnerAic ?_
  intro call hcall
  rw [hminor.phase] at hcall
  rcases hsent with hsent | hsent
  · rw [hsent] at hcall
    cases hcall
  · rw [hsent] at hcall
    cases hcall

theorem fits_raised (hphase : inv.phase = .raised)
    (hunseated : s.AllDone → s.seated inv.groupId inv.partnerAic = false) : Fits s inv := by
  have hin : inv.inGroup s.reply = false := by
    unfold Invitation.inGroup
    rw [hphase]
  constructor
  · intro hstands
    rw [(Invitation.stands_iff.mp hstands).1] at hin
    cases hin
  · rw [hphase]
    exact fun _ => ⟨(fun _ hp => by cases hp), (fun hp => by cases hp), (fun hp => by cases hp)⟩
  · rintro - (hp | hp)
    · rw [hphase] at hp
      cases hp
    · rw [hphase] at hp
      cases hp
  · rw [hphase]
    exact fun _ hp => by cases hp
  · rw [hphase]
    exact fun _ hp => by cases hp
  · exact fun hdone _ => hunseated hdone

theorem not_sent_of_phase {phase : Phase} (hp : inv.phase = phase) (hpublishing : phase ≠ .publishing)
    (hawaiting : phase ≠ .awaitingFuture) : ¬ inv.sent := by
  rintro (hs | hs)
  · exact hpublishing (hp.symm.trans hs)
  · exact hawaiting (hp.symm.trans hs)

theorem inGroup_of_sent (h : inv.sent) (reply : ℕ → Option Reply) : inv.inGroup reply = true := by
  unfold Invitation.inGroup
  rcases h with h | h
  · rw [h]
  · rw [h]

theorem Agreement.enter (h : Agreement s) (hk : s.invitations[k]? = some inv) {call : ℕ}
    (hphase : inv.phase = .addingMember call) (hreply : s.reply call = some .done) :
    Agreement (s.enter k inv) := by
  have hfits := h.fits k inv hk
  have hkept : inv.withdrawn = false := by
    by_contra hw
    exact (hfits.kept (by simpa using hw)).1 call hphase
  have hin : inv.inGroup s.reply = true := by
    unfold Invitation.inGroup
    rw [hphase]
    exact decide_eq_true hreply
  have hfree := h.free_of_phase hk (not_sent_of_phase hphase (fun h => by cases h) (fun h => by cases h))
  refine h.modify (f := Invitation.publish) hk rfl rfl ?_ (fun _ => rfl) ?_ (fun aic m hm => ?_) rfl
    rfl rfl rfl
  · constructor
    · intro hstands
      obtain ⟨-, -, hleft⟩ := Invitation.stands_iff.mp hstands
      exact hfits.standing (Invitation.stands_iff.mpr ⟨hin, hkept, hleft⟩)
    · intro hw
      exact absurd (hkept.symm.trans hw) (by decide)
    · intro hresult
      cases hresult
    · intro _ hp
      cases hp
    · intro _ hp
      cases hp
    · intro _ hp
      cases hp
  · intro call' hp hnone
    obtain rfl : call = call' := Phase.addingMember.inj (hphase.symm.trans hp)
    rw [hreply] at hnone
    cases hnone
  · change Function.update s.pendingInvitations inv.partnerAic (some k) aic = some m at hm
    by_cases haic : aic = inv.partnerAic
    · rw [haic, Function.update_self] at hm
      exact .inr ⟨(Option.some.inj hm).symm, haic.symm, .inl rfl, fun hresult => by cases hresult⟩
    · rw [Function.update_of_ne haic] at hm
      exact .inl ⟨hm, fun heq => hfree aic (heq ▸ hm)⟩

theorem Agreement.register (h : Agreement s) (hk : s.invitations[k]? = some inv) {call : ℕ}
    (hphase : inv.phase = .addingMember call) (hreply : s.reply call = some .done) :
    Agreement (s.register k inv) := by
  have henter := h.enter hk hphase hreply
  unfold GroupLeader.register
  split
  · exact henter
  · have hk' : (s.enter k inv).invitations[k]? = some inv.publish := by
      change (s.invitations.modify k Invitation.publish)[k]? = _
      rw [List.getElem?_modify_eq, hk]
      rfl
    have hsent : inv.publish.sent := .inl rfl
    have hfailed : Agreement ((s.enter k inv).failInbox k inv.publish) := henter.failInbox hk' hsent
    exact hfailed

theorem Agreement.resumeAdded (h : Agreement s) (hk : s.invitations[k]? = some inv) {call : ℕ}
    (hphase : inv.phase = .addingMember call) {reply : Reply} (hreply : s.reply call = some reply) :
    Agreement (s.resumeAdded k inv reply) := by
  have hfree := h.free_of_phase hk (not_sent_of_phase hphase (fun h => by cases h) (fun h => by cases h))
  have hfits := h.fits k inv hk
  have hanswered : ∀ call', inv.phase = .addingMember call' → s.reply call' ≠ none := by
    intro call' hp hnone
    obtain rfl : call = call' := Phase.addingMember.inj (hphase.symm.trans hp)
    rw [hreply] at hnone
    cases hnone
  unfold GroupLeader.resumeAdded
  split
  · next hfailed =>
    refine h.setPhase hk hfree ?_ ?_ fun call' hp hnone => absurd hnone (hanswered call' hp)
    · exact fits_raised rfl fun hdone => absurd (hdone call reply hreply) hfailed
    · intro hcounted
      unfold Invitation.counted Invitation.inGroup at hcounted
      rw [hphase] at hcounted
      have hdone : s.reply call = some .done := of_decide_eq_true hcounted
      exact absurd (Option.some.inj (hreply.symm.trans hdone)) hfailed
  · next hdone =>
    rw [not_not.mp hdone] at hreply
    split
    · split
      · refine h.setPhase hk hfree ?_ (fun _ => rfl) fun call' hp hnone =>
          absurd hnone (hanswered call' hp)
        have hkept : inv.withdrawn = false := by
          by_contra hw
          exact (hfits.kept (by simpa using hw)).1 call hphase
        constructor
        · intro hstands
          obtain ⟨-, -, hleft⟩ := Invitation.stands_iff.mp hstands
          refine hfits.standing (Invitation.stands_iff.mpr ⟨?_, hkept, hleft⟩)
          unfold Invitation.inGroup
          rw [hphase]
          exact decide_eq_true hreply
        · intro hw
          exact absurd (hkept.symm.trans hw) (by decide)
        · exact fun _ _ => hkept
        · intro _ hp
          cases hp
        · intro _ hp
          cases hp
        · intro _ hp
          cases hp
      · exact h.rollBack hk hfree rfl rfl hanswered
    · exact h.register hk hphase hreply

theorem Agreement.returned (h : Agreement s) (hk : s.invitations[k]? = some inv)
    (hfree : ∀ aic, s.pendingInvitations aic ≠ some k) (hin : inv.inGroup s.reply = true)
    (hkept : inv.withdrawn = false) (hadding : ∀ call, inv.phase ≠ .addingMember call) :
    Agreement (s.setPhase k .returned) := by
  refine h.setPhase hk hfree ?_ (fun _ => rfl) fun call hp => absurd hp (hadding call)
  constructor
  · intro hstands
    obtain ⟨-, -, hleft⟩ := Invitation.stands_iff.mp hstands
    exact (h.fits k inv hk).standing (Invitation.stands_iff.mpr ⟨hin, hkept, hleft⟩)
  · intro hw
    exact absurd (hkept.symm.trans hw) (by decide)
  · exact fun _ _ => hkept
  · intro _ hp
    cases hp
  · intro _ hp
    cases hp
  · intro _ hp
    cases hp

theorem Agreement.resumeSettled (h : Agreement s) (hk : s.invitations[k]? = some inv)
    (hsent : inv.sent) (ht : s.resumeSettled k inv = some t) : Agreement t := by
  unfold GroupLeader.resumeSettled at ht
  split at ht
  · next hresult =>
    obtain rfl := Option.some.inj ht
    obtain ⟨i, hi, hminor⟩ := getElem?_clearPendingInvitation hk inv.partnerAic
    have hsent' : i.sent := hminor.sent.mpr hsent
    refine (h.clear inv.partnerAic).returned hi (h.free_of_clear hk) (inGroup_of_sent hsent' _)
      (hminor.withdrawn.trans ((h.fits k inv hk).confirmed hresult hsent)) fun call hp => ?_
    rcases hsent' with hs | hs
    · rw [hp] at hs
      cases hs
    · rw [hp] at hs
      cases hs
  · obtain rfl := Option.some.inj ht
    exact h.failInbox hk hsent
  · cases ht

theorem Agreement.resume (h : Agreement s) (hagree : Agreeing s (.resume k))
    (ht : s.resume k = some t) : Agreement t := by
  obtain ⟨inv, hk, ht⟩ := Option.bind_eq_some_iff.mp ht
  have hseated := hagree inv hk
  cases hphase : inv.phase with
  | addingMember call =>
    rw [hphase] at ht
    obtain ⟨reply, hreply, rfl⟩ := Option.map_eq_some_iff.mp ht
    exact h.resumeAdded hk hphase hreply
  | awaitingFuture =>
    rw [hphase] at ht
    exact h.resumeSettled hk (.inr hphase) ht
  | rollingBack call =>
    rw [hphase] at ht hseated
    obtain ⟨reply, hreply, rfl⟩ := Option.map_eq_some_iff.mp ht
    have hanswered : s.reply call ≠ none := by
      rw [hreply]
      intro hnone
      cases hnone
    have hfree := h.free_of_phase hk
      (not_sent_of_phase hphase (fun h => by cases h) (fun h => by cases h))
    refine h.setPhase hk hfree ?_ ?_ fun call' hp => ?_
    · exact fits_raised rfl fun _ => hseated hanswered
    · intro hcounted
      unfold Invitation.counted at hcounted
      rw [hphase] at hcounted
      exact absurd (of_decide_eq_true hcounted) hanswered
    · rw [hphase] at hp
      cases hp
  | publishing | requesting | returned | raised | cancelled =>
    rw [hphase] at ht
    cases ht

theorem Agreement.answer (h : Agreement s) {returned : Bool} (ht : s.answer k returned = some t) :
    Agreement t := by
  obtain ⟨inv, hk, ht⟩ := Option.bind_eq_some_iff.mp ht
  cases hphase : inv.phase with
  | publishing =>
    rw [hphase] at ht
    have hsent : inv.sent := .inl hphase
    dsimp only at ht
    split at ht
    · split at ht
      · obtain rfl := Option.some.inj ht
        have hfits := h.fits k inv hk
        refine h.modify hk (f := (Invitation.setPhase · .awaitingFuture)) rfl rfl ?_ (fun _ => rfl)
          (fun call hp => ?_) (fun aic m hm => ?_) rfl rfl rfl rfl
        · constructor
          · intro hstands
            obtain ⟨-, hw, hleft⟩ := Invitation.stands_iff.mp hstands
            exact hfits.standing (Invitation.stands_iff.mpr ⟨inGroup_of_sent hsent _, hw, hleft⟩)
          · exact fun _ => ⟨(fun _ hp => by cases hp), (fun hp => by cases hp), (fun hp => by cases hp)⟩
          · exact fun hresult _ => hfits.confirmed hresult hsent
          · intro _ hp
            cases hp
          · intro _ hp
            cases hp
          · intro _ hp
            cases hp
        · rw [hphase] at hp
          cases hp
        · by_cases hmk : m = k
          · subst hmk
            obtain ⟨i, hi, hp, -, hresult⟩ := h.entry aic m hm
            obtain rfl : inv = i := Option.some.inj (hk.symm.trans hi)
            exact .inr ⟨rfl, hp, .inr rfl, hresult⟩
          · exact .inl ⟨hm, hmk⟩
      · exact h.resumeSettled hk hsent ht
    · obtain rfl := Option.some.inj ht
      exact h.failInbox hk hsent
  | requesting =>
    rw [hphase] at ht
    have hfree := h.free_of_phase hk
      (not_sent_of_phase hphase (fun h => by cases h) (fun h => by cases h))
    have hadding : ∀ call, inv.phase ≠ .addingMember call := by
      intro call hp
      rw [hphase] at hp
      cases hp
    dsimp only at ht
    split at ht
    · obtain rfl := Option.some.inj ht
      have hjoined : Agreement (s.partnerJoined inv.session inv.partnerAic) :=
        h.of_eq rfl rfl rfl rfl rfl
      have hin : inv.inGroup s.reply = true := by
        unfold Invitation.inGroup
        rw [hphase]
      have hkept : inv.withdrawn = false := by
        by_contra hw
        exact ((h.fits k inv hk).kept (by simpa using hw)).2.1 hphase
      exact hjoined.returned hk hfree hin hkept hadding
    · obtain rfl := Option.some.inj ht
      exact h.rollBack hk hfree rfl rfl fun call hp => absurd hp (hadding call)
  | addingMember _ | awaitingFuture | rollingBack _ | returned | raised | cancelled =>
    rw [hphase] at ht
    cases ht

theorem Agreement.withdraw (h : Agreement s) (hk : s.invitations[k]? = some inv)
    (hentry : s.pendingInvitations inv.partnerAic = some k) {f : Invitation → Invitation}
    (hf : ∀ i, Minor i { f i with withdrawn := i.withdrawn }) (hw : (f inv).withdrawn = true)
    (groupId partnerAic : Text) :
    Agreement ((s.sendCall (.removeMember groupId partnerAic)).modifyInvitation k f) := by
  obtain ⟨i, hi, -, hsent, hresult⟩ := h.entry inv.partnerAic k hentry
  obtain rfl : inv = i := Option.some.inj (hk.symm.trans hi)
  have hcall : Agreement (s.sendCall (.removeMember groupId partnerAic)) :=
    h.sendCall fun _ _ hop => by cases hop
  have hminor := hf inv
  have hphase : (f inv).phase = inv.phase := hminor.phase
  have hfits := hcall.fits k inv hk
  have hsent' : (f inv).sent := by
    unfold Invitation.sent
    rw [hphase]
    exact hsent
  refine hcall.modify hk hminor.groupId hminor.partnerAic ?_ ?_ (fun call hp _ => hphase.trans hp)
    (fun aic m hm => ?_) rfl rfl rfl rfl
  · constructor
    · intro hstands
      have hkept := (Invitation.stands_iff.mp hstands).2.1
      rw [hw] at hkept
      cases hkept
    · intro _
      rw [hphase]
      rcases hsent with hs | hs
      · rw [hs]
        exact ⟨(fun _ hp => by cases hp), (fun hp => by cases hp), (fun hp => by cases hp)⟩
      · rw [hs]
        exact ⟨(fun _ hp => by cases hp), (fun hp => by cases hp), (fun hp => by cases hp)⟩
    · exact fun hr => absurd (hminor.future hr) hresult
    · rw [hphase, show (f inv).groupId = inv.groupId from hminor.groupId,
        show (f inv).partnerAic = inv.partnerAic from hminor.partnerAic]
      exact hfits.adding
    · rw [hphase, show (f inv).groupId = inv.groupId from hminor.groupId,
        show (f inv).partnerAic = inv.partnerAic from hminor.partnerAic]
      exact hfits.rolling
    · rw [hphase]
      rcases hsent with hs | hs
      · rw [hs]
        exact fun _ hp => by cases hp
      · rw [hs]
        exact fun _ hp => by cases hp
  · intro hcounted
    exact (hminor.counted _).trans hcounted
  · by_cases hmk : m = k
    · subst hmk
      obtain ⟨i, hi, hp, -⟩ := h.entry aic m hm
      obtain rfl : inv = i := Option.some.inj (hk.symm.trans hi)
      exact .inr ⟨rfl, hp, hsent', fun hr => hresult (hminor.future hr)⟩
    · exact .inl ⟨hm, hmk⟩

theorem Agreement.watchTimeout (h : Agreement s) (ht : s.watchTimeout k = some t) :
    Agreement t := by
  obtain ⟨inv, hk, ht⟩ := Option.bind_eq_some_iff.mp ht
  split at ht
  · cases ht
  · split at ht
    · obtain rfl := Option.some.inj ht
      exact h.modify_minor minor_unwatch (fun _ _ hm => hm) rfl rfl rfl rfl
    · next hown =>
      obtain rfl := Option.some.inj ht
      exact h.withdraw hk (not_not.mp fun hne => hown (.inl hne))
        (f := fun inv => { inv with watch := .removing s.calls.length, withdrawn := true })
        (fun i => ⟨rfl, rfl, rfl, rfl, id, id⟩) rfl inv.groupId inv.partnerAic

theorem Agreement.resumeWatch (h : Agreement s) (ht : s.resumeWatch k = some t) :
    Agreement t := by
  obtain ⟨inv, hk, ht⟩ := Option.bind_eq_some_iff.mp ht
  have hunwatch : ∀ {u : GroupLeader}, Agreement u →
      Agreement (u.modifyInvitation k Invitation.unwatch) := fun hu =>
    hu.modify_minor minor_unwatch (fun _ _ hm => hm) rfl rfl rfl rfl
  split at ht
  · split at ht
    · cases ht
    · obtain rfl := Option.some.inj ht
      exact hunwatch h
    · split at ht
      · obtain rfl := Option.some.inj ht
        exact hunwatch h
      · obtain rfl := Option.some.inj ht
        exact hunwatch ((h.settle k (by decide)).clear _)
  · cases ht

theorem Agreement.invitationError (h : Agreement s) (senderId : Text) (token : ℕ) (groupId : Text) :
    Agreement (s.invitationError senderId token groupId) := by
  unfold GroupLeader.invitationError
  split
  · exact h
  · next k hentry =>
    split
    · exact h
    · obtain ⟨inv, hk, hpartner, -⟩ := h.entry senderId k hentry
      rw [← hpartner] at hentry ⊢
      have hwithdrawn := h.withdraw hk hentry (f := fun inv => { inv with withdrawn := true })
        (fun i => ⟨rfl, rfl, rfl, rfl, id, id⟩) rfl groupId inv.partnerAic
      exact hwithdrawn.of_eq rfl rfl rfl rfl rfl

theorem Agreement.resumeRejection (h : Agreement s) {r : ℕ} (ht : s.resumeRejection r = some t) :
    Agreement t := by
  obtain ⟨rejection, -, ht⟩ := Option.bind_eq_some_iff.mp ht
  have hover : Agreement { s with
      rejections := s.rejections.modify r fun r => { r with ended := true } } :=
    h.of_eq rfl rfl rfl rfl rfl
  split at ht
  · cases ht
  · dsimp only at ht
    split at ht
    · cases ht
    · obtain rfl := Option.some.inj ht
      exact hover
    · obtain rfl := Option.some.inj ht
      exact (hover.settle rejection.invitation (by decide)).clear _

theorem clearPendingInvitation_of_entry {aic : Text} (hentry : s.pendingInvitations aic = some k) :
    s.clearPendingInvitation aic =
      { s.modifyInvitation k Invitation.unwatch with
        pendingInvitations := Function.update s.pendingInvitations aic none } := by
  unfold GroupLeader.clearPendingInvitation
  rw [hentry]

theorem Agreement.confirmJoin (h : Agreement s) (sessionId : Text) {senderId : Text}
    (hkept : ∀ k ∈ s.pendingInvitations senderId, ∀ inv ∈ s.invitations[k]?, inv.withdrawn = false) :
    Agreement (s.confirmJoin sessionId senderId) := by
  unfold GroupLeader.confirmJoin
  split
  · exact h
  · next k hentry =>
    split
    · obtain ⟨inv, hk, hpartner, hsent, -⟩ := h.entry senderId k hentry
      have hw := hkept k hentry inv hk
      have hfits := h.fits k inv hk
      have hentry' : (s.settle k .result).pendingInvitations senderId = some k := hentry
      rw [clearPendingInvitation_of_entry hentry']
      refine h.modify hk (f := Invitation.unwatch ∘ (Invitation.settle · .result)) rfl rfl ?_
        (fun hcounted => hcounted) (fun call hp _ => hp) (fun aic m hm => .inl ?_)
        (List.modify_modify_eq _ _ _ _) rfl rfl rfl
      · exact ⟨hfits.standing, hfits.kept, (fun _ _ => hw), hfits.adding, hfits.rolling,
          hfits.unseated⟩
      · obtain ⟨hne, hold⟩ := pending_of_update_none hm
        refine ⟨hold, ?_⟩
        rintro rfl
        obtain ⟨i, hi, hp, -⟩ := h.entry aic m hold
        obtain rfl : inv = i := Option.some.inj (hk.symm.trans hi)
        exact hne (hp.symm.trans hpartner)
    · exact h

theorem Agreement.partnerLeft (h : Agreement s) (sessionId groupId senderId : Text) :
    Agreement (s.partnerLeft sessionId groupId senderId) :=
  (h.markLeft _).sendCall fun _ _ hop => by cases hop

theorem Agreement.handleGroupMessage (h : Agreement s) {message : Message}
    (hagree : ConfirmsKept s message) : Agreement (s.handleGroupMessage message) := by
  unfold GroupLeader.handleGroupMessage
  split
  · exact h
  · next session _ =>
    split
    · exact h
    · next found _ =>
      have hhandled : Agreement { s with
          sessions := s.sessions.modify session fun found => found.handle message } :=
        h.of_eq rfl rfl rfl rfl rfl
      dsimp only
      split
      · next muted hbody =>
        have hkept : ∀ k ∈ s.pendingInvitations message.senderId, ∀ inv ∈ s.invitations[k]?,
            inv.withdrawn = false := by
          unfold ConfirmsKept at hagree
          rw [hbody] at hagree
          exact hagree
        exact hhandled.confirmJoin _ hkept
      · exact hhandled.partnerLeft _ _ _
      · exact hhandled

theorem Agreement.create (h : Agreement s) {sessionId : Text} {initialPartners : List Text}
    (hagree : NoneRaised s sessionId initialPartners) :
    Agreement (s.create sessionId initialPartners) := by
  unfold GroupLeader.create
  split
  · exact h
  · next groupId hseed =>
    constructor
    · intro k inv hk
      have hfits := h.fits k inv hk
      refine ⟨fun hstands => ?_, hfits.kept, hfits.confirmed, hfits.adding, hfits.rolling,
        fun hdone hraised => ?_⟩
      · exact decide_eq_true (.inr (hfits.standing hstands))
      · refine decide_eq_false ?_
        rintro (hmember | hseated)
        · obtain ⟨hgroup, hmember⟩ := of_decide_eq_true hmember
          unfold NoneRaised at hagree
          rw [hseed] at hagree
          obtain ⟨hleader, hinitial⟩ := hagree inv (List.mem_of_getElem? hk) hgroup hraised
          rcases hmember with hmember | hmember
          · exact hleader hmember
          · exact hinitial hmember
        · rw [hfits.unseated hdone hraised] at hseated
          cases hseated
    · exact h.entry
    · intro hdone g m hgm
      rcases of_decide_eq_true hgm with hmember | hold
      · exact .inl (decide_eq_true (.inl hmember))
      · exact (h.member hdone g m hold).imp_left fun hseated => decide_eq_true (.inr hseated)
    · exact h.unanswered

theorem Agreement.invite (h : Agreement s) {sessionId partnerAic : Text} {route : Route}
    (hagree : Agreeing s (.invite sessionId partnerAic route)) :
    Agreement (s.invite sessionId partnerAic route) := by
  unfold GroupLeader.invite
  split
  · exact h
  · next session hsession =>
    split
    · exact h
    · next groupId hgroupId =>
      dsimp only
      have hmem : ∀ (new inv : Invitation) (j : ℕ), s.invitations[j]? = some inv →
          (s.invitations ++ [new])[j]? = some inv :=
        fun new inv j hj => getElem?_concat_eq_some.mpr (.inl hj)
      split
      · next hraises =>
        have hseated : s.seated groupId partnerAic = false := by
          refine hagree hraises groupId ?_
          rw [hsession]
          exact hgroupId
        constructor
        · intro j i hi
          rcases getElem?_concat_eq_some.mp hi with hi | ⟨-, rfl⟩
          · exact (h.fits j i hi).mono rfl (fun _ _ hc => hc) rfl rfl
          · exact fits_raised rfl fun _ => hseated
        · intro aic m hm
          obtain ⟨i, hi, hrest⟩ := h.entry aic m hm
          exact ⟨i, hmem _ i m hi, hrest⟩
        · intro hdone g m hgm
          refine (h.member hdone g m hgm).imp_right ?_
          rintro ⟨j, i, hi, hrest⟩
          exact ⟨j, i, hmem _ i j hi, hrest⟩
        · intro call g m hcall hnone
          obtain ⟨j, i, hi, hrest⟩ := h.unanswered call g m hcall hnone
          exact ⟨j, i, hmem _ i j hi, hrest⟩
      · have hreply := reply_sendCall s (.addMember groupId partnerAic)
        have hself := opOf_sendCall_self s (.addMember groupId partnerAic)
        have hunanswered : s.reply s.calls.length = none := by
          unfold GroupLeader.reply
          rw [List.getElem?_eq_none (Nat.le_refl _)]
          rfl
        constructor
        · intro j i hi
          rcases getElem?_concat_eq_some.mp hi with hi | ⟨-, rfl⟩
          · exact (h.fits j i hi).mono hreply (fun _ _ hc => opOf_sendCall.mpr (.inl hc)) rfl rfl
          · constructor
            · intro hstands
              have hin := (Invitation.stands_iff.mp hstands).1
              have hdone : (s.sendCall (.addMember groupId partnerAic)).reply s.calls.length =
                some .done := of_decide_eq_true hin
              rw [hreply, hunanswered] at hdone
              cases hdone
            · intro hw
              cases hw
            · intro hr
              cases hr
            · intro call hp
              obtain rfl : s.calls.length = call := Phase.addingMember.inj hp
              exact hself
            · intro _ hp
              cases hp
            · intro _ hp
              cases hp
        · intro aic m hm
          obtain ⟨i, hi, hrest⟩ := h.entry aic m hm
          exact ⟨i, hmem _ i m hi, hrest⟩
        · intro hdone g m hgm
          have hdone' : s.AllDone := fun call r hc => hdone call r ((congrFun hreply call).trans hc)
          refine (h.member hdone' g m hgm).imp_right ?_
          rintro ⟨j, i, hi, hg, hm, hc⟩
          refine ⟨j, i, hmem _ i j hi, hg, hm, ?_⟩
          change i.counted (s.sendCall (.addMember groupId partnerAic)).reply = true
          rw [hreply]
          exact hc
        · intro call g m hcall hnone
          have hnone' : s.reply call = none := (congrFun hreply call).symm.trans hnone
          rcases opOf_sendCall.mp hcall with hcall | ⟨rfl, hop⟩
          · obtain ⟨j, i, hi, hrest⟩ := h.unanswered call g m hcall hnone'
            exact ⟨j, i, hmem _ i j hi, hrest⟩
          · obtain ⟨rfl, rfl⟩ := AclOp.addMember.inj hop
            exact ⟨s.invitations.length, _, getElem?_concat_eq_some.mpr (.inr ⟨rfl, rfl⟩), rfl, rfl, rfl⟩

structure Served (s : GroupLeader) (call : ℕ) (reply : Reply) (op : AclOp) (t : GroupLeader) : Prop where
  request : s.opOf call = some op
  unanswered : s.reply call = none
  replies : t.reply = Function.update s.reply call (some reply)
  ops : t.opOf = s.opOf
  acl : t.acl = if reply.applied then op.apply s.acl else s.acl
  seated : t.seated = if reply.applied ∧ op.removes then op.apply s.seated else s.seated
  invitations : t.invitations = s.invitations
  pending : t.pendingInvitations = s.pendingInvitations

theorem served_of_serve {call : ℕ} {reply : Reply} (ht : s.serve call reply = some t) :
    ∃ op, Served s call reply op t := by
  obtain ⟨c, hc, ht⟩ := Option.bind_eq_some_iff.mp ht
  split at ht
  · next hnone =>
    obtain rfl := Option.some.inj ht
    have hunanswered : s.reply call = none := by
      unfold GroupLeader.reply
      rw [hc]
      exact hnone
    refine ⟨c.op, Option.map_eq_some_iff.mpr ⟨c, hc, rfl⟩, hunanswered, ?_, ?_, rfl, rfl, rfl, rfl⟩
    · funext j
      change ((s.calls.modify call _)[j]?).bind AclCall.reply = _
      by_cases hj : call = j
      · subst hj
        rw [List.getElem?_modify_eq, hc, Function.update_self]
        rfl
      · rw [List.getElem?_modify_ne _ _ hj, Function.update_of_ne (Ne.symm hj)]
        rfl
    · funext j
      change ((s.calls.modify call _)[j]?).map AclCall.op = _
      by_cases hj : call = j
      · subst hj
        rw [List.getElem?_modify_eq, hc, GroupLeader.opOf, hc]
        rfl
      · rw [List.getElem?_modify_ne _ _ hj]
        rfl
  · cases ht

section Serve

variable {call : ℕ} {reply : Reply} {op : AclOp}

theorem Served.allDone (hserve : Served s call reply op t) (hdone : t.AllDone) :
    s.AllDone ∧ reply = .done := by
  constructor
  · intro c r hc
    refine hdone c r ?_
    rw [hserve.replies, Function.update_of_ne, hc]
    rintro rfl
    rw [hserve.unanswered] at hc
    cases hc
  · refine hdone call reply ?_
    rw [hserve.replies, Function.update_self]

theorem Served.inGroup (hserve : Served s call reply op t) (h : inv.inGroup t.reply = true) :
    inv.inGroup s.reply = true ∨ inv.phase = .addingMember call ∧ reply = .done := by
  unfold Invitation.inGroup at h ⊢
  cases hphase : inv.phase with
  | addingMember c =>
    rw [hphase] at h
    have hreply : t.reply c = some .done := of_decide_eq_true h
    rw [hserve.replies] at hreply
    by_cases hc : c = call
    · rw [hc, Function.update_self] at hreply
      exact .inr ⟨congrArg _ hc, Option.some.inj hreply⟩
    · rw [Function.update_of_ne hc] at hreply
      exact .inl (decide_eq_true hreply)
  | publishing | awaitingFuture | requesting | returned => exact .inl rfl
  | rollingBack _ | raised | cancelled =>
    rw [hphase] at h
    cases h

theorem Served.counted (hserve : Served s call reply op t) (h : inv.counted s.reply = true)
    (hrolling : inv.phase ≠ .rollingBack call) : inv.counted t.reply = true := by
  unfold Invitation.counted Invitation.inGroup at h ⊢
  rw [hserve.replies]
  cases hphase : inv.phase with
  | addingMember c =>
    rw [hphase] at h
    have hdone : s.reply c = some .done := of_decide_eq_true h
    refine decide_eq_true ?_
    rw [Function.update_of_ne, hdone]
    rintro rfl
    rw [hserve.unanswered] at hdone
    cases hdone
  | rollingBack c =>
    rw [hphase] at h hrolling
    have hnone : s.reply c = none := of_decide_eq_true h
    refine decide_eq_true ?_
    rw [Function.update_of_ne, hnone]
    rintro rfl
    exact hrolling rfl
  | publishing | awaitingFuture | requesting | returned => rfl
  | raised | cancelled =>
    rw [hphase] at h
    cases h

theorem Served.fits (h : Agreement s) (hserve : Served s call reply op t)
    (hagree : Agreeing s (.serve call reply)) {k : ℕ} (hk : s.invitations[k]? = some inv) :
    Fits t inv := by
  have hfits := h.fits k inv hk
  have hop : ∀ c, t.opOf c = s.opOf c := congrFun hserve.ops
  refine ⟨fun hstands => ?_, hfits.kept, hfits.confirmed, fun c hc => (hop c).trans (hfits.adding c hc),
    fun c hc => (hop c).trans (hfits.rolling c hc), fun hdone hraised => ?_⟩
  · obtain ⟨hin, hw, hleft⟩ := Invitation.stands_iff.mp hstands
    rw [hserve.acl]
    rcases hserve.inGroup hin with hin | ⟨hphase, rfl⟩
    · have hstands := Invitation.stands_iff.mpr ⟨hin, hw, hleft⟩
      have hmember := hfits.standing hstands
      split
      · next happlied =>
        have hsafe := hagree happlied op hserve.request
        cases op with
        | addMember g m => exact decide_eq_true (.inr hmember)
        | removeMember g m =>
          refine decide_eq_true ⟨fun hsame => ?_, hmember⟩
          rw [hsafe inv (List.mem_of_getElem? hk) hsame.1 hsame.2] at hstands
          cases hstands
        | deleteGroup g =>
          refine decide_eq_true ⟨fun hsame => ?_, hmember⟩
          rw [hsafe inv (List.mem_of_getElem? hk) hsame] at hstands
          cases hstands
      · exact hmember
    · obtain rfl := Option.some.inj (hserve.request.symm.trans (hfits.adding call hphase))
      exact decide_eq_true (.inl ⟨rfl, rfl⟩)
  · have hunseated := hfits.unseated (hserve.allDone hdone).1 hraised
    rw [hserve.seated]
    split
    · next hremoves =>
      cases op with
      | addMember g m => cases hremoves.2
      | removeMember g m =>
        exact decide_eq_false fun hseated => absurd (hunseated.symm.trans hseated.2) (by decide)
      | deleteGroup g =>
        exact decide_eq_false fun hseated => absurd (hunseated.symm.trans hseated.2) (by decide)
    · exact hunseated

theorem Served.member (h : Agreement s) (hserve : Served s call reply op t) (hdone : t.AllDone)
    {g m : Text} (hgm : t.acl g m = true) : t.seated g m = true ∨
      ∃ (k : ℕ) (inv : Invitation), s.invitations[k]? = some inv ∧ inv.groupId = g ∧
        inv.partnerAic = m ∧ inv.counted t.reply = true := by
  obtain ⟨hdone', rfl⟩ := hserve.allDone hdone
  have hkeep : ∀ {k : ℕ} {inv : Invitation}, s.invitations[k]? = some inv → inv.groupId = g →
      inv.partnerAic = m → inv.counted s.reply = true → op ≠ .removeMember g m →
      inv.counted t.reply = true := by
    rintro k inv hk rfl rfl hc hop
    refine hserve.counted hc fun hphase => hop ?_
    exact Option.some.inj (hserve.request.symm.trans ((h.fits k inv hk).rolling call hphase))
  have hrest : s.acl g m = true → op ≠ .removeMember g m →
      (s.seated g m = true → t.seated g m = true) → t.seated g m = true ∨
      ∃ (k : ℕ) (inv : Invitation), s.invitations[k]? = some inv ∧ inv.groupId = g ∧
        inv.partnerAic = m ∧ inv.counted t.reply = true := by
    intro hold hop hseated
    rcases h.member hdone' g m hold with hs | ⟨k, inv, hk, hg, hm, hc⟩
    · exact .inl (hseated hs)
    · exact .inr ⟨k, inv, hk, hg, hm, hkeep hk hg hm hc hop⟩
  have hseated := hserve.seated
  rw [hserve.acl] at hgm
  cases op with
  | addMember g' m' =>
    by_cases hsame : g = g' ∧ m = m'
    · obtain ⟨rfl, rfl⟩ := hsame
      obtain ⟨k, inv, hk, hg, hm, hphase⟩ := h.unanswered call g m hserve.request hserve.unanswered
      refine .inr ⟨k, inv, hk, hg, hm, ?_⟩
      unfold Invitation.counted Invitation.inGroup
      rw [hphase, hserve.replies]
      exact decide_eq_true (Function.update_self _ _ _)
    · rcases of_decide_eq_true hgm with hnew | hold
      · exact absurd hnew hsame
      · exact hrest hold (fun hop => by cases hop) fun hs => by rw [hseated]; exact hs
  | removeMember g' m' =>
    obtain ⟨hne, hold⟩ := of_decide_eq_true hgm
    refine hrest hold ?_ fun hs => ?_
    · intro hop
      obtain ⟨rfl, rfl⟩ := AclOp.removeMember.inj hop
      exact hne ⟨rfl, rfl⟩
    · rw [hseated]
      exact decide_eq_true ⟨hne, hs⟩
  | deleteGroup g' =>
    obtain ⟨hne, hold⟩ := of_decide_eq_true hgm
    refine hrest hold (fun hop => by cases hop) fun hs => ?_
    rw [hseated]
    exact decide_eq_true ⟨hne, hs⟩

theorem Agreement.serve (h : Agreement s) (hagree : Agreeing s (.serve call reply))
    (ht : s.serve call reply = some t) : Agreement t := by
  obtain ⟨op, hserve⟩ := served_of_serve ht
  constructor
  · intro k inv hk
    rw [hserve.invitations] at hk
    exact hserve.fits h hagree hk
  · rw [hserve.pending, hserve.invitations]
    exact h.entry
  · intro hdone g m hgm
    rw [hserve.invitations]
    exact hserve.member h hdone hgm
  · intro c g m hc hnone
    rw [hserve.ops] at hc
    rw [hserve.replies] at hnone
    rw [hserve.invitations]
    refine h.unanswered c g m hc ?_
    by_cases hcall : c = call
    · rw [hcall, Function.update_self] at hnone
      cases hnone
    · rwa [Function.update_of_ne hcall] at hnone

end Serve

theorem Agreement.dissolve (h : Agreement s) (sessionId : Text) :
    Agreement (s.dissolve sessionId) := by
  unfold GroupLeader.dissolve
  split
  · exact h
  · split
    · exact h
    · have hpopped : Agreement
          { s with groupSessions := s.groupSessions.filter fun e => e.1 ≠ sessionId } :=
        h.of_eq rfl rfl rfl rfl rfl
      have hfailed := (hpopped.failAll fun inv => inv.sessionId = sessionId).markLeft
        fun inv => inv.sessionId = sessionId
      exact hfailed.of_eq rfl rfl rfl rfl rfl

theorem Agreement.deleteGroup (h : Agreement s) {d : ℕ} (ht : s.deleteGroup d = some t) :
    Agreement t := by
  obtain ⟨dissolution, -, ht⟩ := Option.bind_eq_some_iff.mp ht
  split at ht
  · obtain rfl := Option.some.inj ht
    have hsent : Agreement (s.sendCall (.deleteGroup dissolution.groupId)) :=
      h.sendCall fun _ _ hop => by cases hop
    exact hsent.of_eq rfl rfl rfl rfl rfl
  · cases ht

theorem Agreement.cleanup (h : Agreement s) {d : ℕ} (ht : s.cleanup d = some t) :
    Agreement t := by
  obtain ⟨dissolution, -, ht⟩ := Option.bind_eq_some_iff.mp ht
  split at ht
  · dsimp only at ht
    split at ht
    · cases ht
    · obtain rfl := Option.some.inj ht
      exact h.of_eq rfl rfl rfl rfl rfl
    · obtain rfl := Option.some.inj ht
      exact h.of_eq rfl rfl rfl rfl rfl
  · cases ht

theorem Agreement.step (h : Agreement s) {a : Act} (hagree : Agreeing s a)
    (ht : groupLeader.step s a = some t) : Agreement t := by
  cases a with
  | create sessionId initialPartners =>
    obtain rfl := Option.some.inj ht
    exact h.create hagree
  | invite sessionId partnerAic route =>
    obtain rfl := Option.some.inj ht
    exact h.invite hagree
  | serve call reply => exact h.serve hagree ht
  | resume k => exact h.resume hagree ht
  | answer k returned => exact h.answer ht
  | cancel k => exact absurd hagree id
  | watchTimeout k => exact h.watchTimeout ht
  | resumeWatch k => exact h.resumeWatch ht
  | invitationError senderId token groupId =>
    obtain rfl := Option.some.inj ht
    exact h.invitationError senderId token groupId
  | resumeRejection r => exact h.resumeRejection ht
  | groupMessage message =>
    obtain rfl := Option.some.inj ht
    exact h.handleGroupMessage hagree
  | forceRemove sessionId partnerAic =>
    obtain rfl := Option.some.inj ht
    unfold GroupLeader.forceRemove
    split
    · exact h
    · exact h.partnerLeft _ _ _
  | dissolve sessionId =>
    obtain rfl := Option.some.inj ht
    exact h.dissolve sessionId
  | deleteGroup d => exact h.deleteGroup ht
  | cleanup d => exact h.cleanup ht
  | closePending =>
    obtain rfl := Option.some.inj ht
    exact h.failAll _

end Steps

def Invitation.decided (inv : Invitation) : Prop :=
  inv.phase = .returned ∨ inv.phase = .raised ∨ inv.phase = .cancelled

/-- In every run whose steps agree with the invitations, the partner of an invitation that returned is
a member, unless it left, was removed or the session was dissolved since. Where the ACL service
carried out every request, the partner of one that raised is none, if no other invitation of it to
the group returned and all of them are decided. -/
theorem acl_agrees {leaderAic : Text} {schedule : List Act} {t : GroupLeader}
    (hagree : groupLeader.Meets Agreeing { leaderAic := leaderAic } schedule)
    (ht : groupLeader.exec { leaderAic := leaderAic } schedule = some t) :
    (∀ (k : ℕ) (inv : Invitation), t.invitations[k]? = some inv → inv.phase = .returned →
        inv.left = false → t.acl inv.groupId inv.partnerAic = true) ∧
      ∀ (k : ℕ) (inv : Invitation), t.invitations[k]? = some inv → inv.phase = .raised →
        t.AllDone →
        (∀ (j : ℕ) (other : Invitation), t.invitations[j]? = some other → other.groupId = inv.groupId →
          other.partnerAic = inv.partnerAic → j ≠ k → other.phase ≠ .returned ∧ other.decided) →
        t.acl inv.groupId inv.partnerAic = false := by
  have h : Agreement t := groupLeader.exec_invariant
    (fun s a t hs ha hstep => Agreement.step hs ha hstep) (agreement_new leaderAic) hagree ht
  constructor
  · intro k inv hk hreturned hleft
    have hfits := h.fits k inv hk
    have hw : inv.withdrawn = false := by
      by_contra hw
      exact (hfits.kept (by simpa using hw)).2.2 hreturned
    refine hfits.standing (Invitation.stands_iff.mpr ⟨?_, hw, hleft⟩)
    unfold Invitation.inGroup
    rw [hreturned]
  · intro k inv hk hraised hdone hothers
    by_contra hmember
    rcases h.member hdone inv.groupId inv.partnerAic (by simpa using hmember) with
      hseated | ⟨j, other, hj, hg, hp, hcounted⟩
    · rw [(h.fits k inv hk).unseated hdone hraised] at hseated
      cases hseated
    · unfold Invitation.counted Invitation.inGroup at hcounted
      by_cases hjk : j = k
      · subst hjk
        obtain rfl : inv = other := Option.some.inj (hk.symm.trans hj)
        rw [hraised] at hcounted
        cases hcounted
      · obtain ⟨hnot, hreturned | hr | hr⟩ := hothers j other hj hg hp hjk
        · exact hnot hreturned
        · rw [hr] at hcounted
          cases hcounted
        · rw [hr] at hcounted
          cases hcounted

def joinMessage (senderId : Text) : Message :=
  { id := [], senderId := senderId, sessionId := none, groupId := "group-s".toList,
    body := .groupMgmtResult true false }

def agreeingRun : List Act :=
  [.create "s".toList [], .invite "s".toList "p".toList (.inbox "inbox_p".toList),
    .invite "s".toList "q".toList (.inbox "inbox_q".toList), .serve 0 .done, .serve 1 .done,
    .resume 0, .resume 1, .answer 0 true, .answer 1 true, .groupMessage (joinMessage "p".toList),
    .watchTimeout 1, .resume 0, .serve 2 .done, .resumeWatch 1, .resume 1, .serve 3 .done, .resume 1]

theorem acl_agrees_joined : ∃ t, groupLeader.exec { leaderAic := "l".toList } agreeingRun = some t ∧
    (∀ (k : ℕ) (inv : Invitation), t.invitations[k]? = some inv → inv.phase = .returned →
        inv.left = false → t.acl inv.groupId inv.partnerAic = true) ∧
      ∀ (k : ℕ) (inv : Invitation), t.invitations[k]? = some inv → inv.phase = .raised →
        t.AllDone →
        (∀ (j : ℕ) (other : Invitation), t.invitations[j]? = some other → other.groupId = inv.groupId →
          other.partnerAic = inv.partnerAic → j ≠ k → other.phase ≠ .returned ∧ other.decided) →
        t.acl inv.groupId inv.partnerAic = false := by
  have hrun : (groupLeader.exec { leaderAic := "l".toList } agreeingRun).isSome = true := by
    decide +kernel
  obtain ⟨t, ht⟩ := Option.isSome_iff_exists.mp hrun
  refine ⟨t, ht, acl_agrees (groupLeader.meets_of_check (c := fun s a => decide (Agreeing s a))
    (fun _ _ h => of_decide_eq_true h) ?_) ht⟩
  decide +kernel

def lateJoinRun : List Act :=
  [.create "s".toList [], .invite "s".toList "p".toList (.inbox "inbox_p".toList), .serve 0 .done,
    .resume 0, .answer 0 true, .watchTimeout 0, .serve 1 .done,
    .groupMessage (joinMessage "p".toList), .resume 0]

theorem joined_not_member : ∃ t, groupLeader.exec { leaderAic := "l".toList } lateJoinRun = some t ∧
    ∃ inv : Invitation, t.invitations[0]? = some inv ∧ inv.phase = .returned ∧ inv.left = false ∧
      t.acl inv.groupId inv.partnerAic = false := by
  have hrun : (groupLeader.exec { leaderAic := "l".toList } lateJoinRun).any (fun t =>
      (t.invitations[0]?).any fun inv => inv.phase = .returned ∧ inv.left = false ∧
        t.acl inv.groupId inv.partnerAic = false) = true := by decide +kernel
  obtain ⟨t, ht, hfirst⟩ := (Option.any_eq_true _ _).mp hrun
  obtain ⟨inv, hinv, hlost⟩ := (Option.any_eq_true _ _).mp hfirst
  exact ⟨t, ht, inv, hinv, of_decide_eq_true hlost⟩

end Acps.Group
