import Acps.Lib.Slots
import Acps.Group.Leader

/-!
The registry of pending invitations.
-/

namespace Acps.Group

open Aic (Text)
open Slots

def Invitation.awaitsFuture (inv : Invitation) : Bool :=
  (inv.phase = .publishing ∨ inv.phase = .awaitingFuture) ∧ inv.future = .pending

def Invitation.watched (inv : Invitation) : Bool := inv.watch ≠ .ended

def Invitation.view (inv : Invitation) : Text × Bool × Bool :=
  (inv.partnerAic, inv.awaitsFuture, inv.watched)

theorem Invitation.awaitsFuture_settle (inv : Invitation) {outcome : Future}
    (hdone : outcome ≠ .pending) : (inv.settle outcome).awaitsFuture = false := by
  unfold awaitsFuture settle
  by_cases h : inv.future = .pending
  · simp [h, hdone]
  · simp [h]

theorem Invitation.awaitsFuture_of_phase {inv : Invitation} (hpublishing : inv.phase ≠ .publishing)
    (hawaiting : inv.phase ≠ .awaitingFuture) : inv.awaitsFuture = false := by
  unfold awaitsFuture
  simp [hpublishing, hawaiting]

theorem Invitation.awaitsFuture_rollBack (inv : Invitation) (call : ℕ) :
    (inv.rollBack call).awaitsFuture = false :=
  awaitsFuture_of_phase (fun h => by cases h) (fun h => by cases h)

structure Registered (s : GroupLeader) : Prop where
  entry : ∀ aic k, s.pendingInvitations aic = some k → ∃ inv : Invitation,
    s.invitations[k]? = some inv ∧ inv.partnerAic = aic ∧ inv.awaitsFuture = true
  awaiting : ∀ (k : ℕ) (inv : Invitation), s.invitations[k]? = some inv → inv.awaitsFuture = true →
    s.pendingInvitations inv.partnerAic = some k ∧ inv.watched = true
  watched : ∀ (k : ℕ) (inv : Invitation), s.invitations[k]? = some inv → inv.watched = true →
    s.pendingInvitations inv.partnerAic = some k
  rejections : ∀ rejection ∈ s.rejections, ∃ inv : Invitation,
    s.invitations[rejection.invitation]? = some inv ∧ inv.partnerAic = rejection.partnerAic

theorem registered_new (leaderAic : Text) : Registered { leaderAic := leaderAic } where
  entry := fun _ _ h => by cases h
  awaiting := fun _ _ h => by cases h
  watched := fun _ _ h => by cases h
  rejections := fun _ h => by cases h

section Primitives

variable {s t : GroupLeader} {k : ℕ} {inv : Invitation} {f : Invitation → Invitation}

theorem Registered.of_view (h : Registered s)
    (hpending : t.pendingInvitations = s.pendingInvitations)
    (hview : ∀ j : ℕ, (t.invitations[j]?).map Invitation.view = (s.invitations[j]?).map Invitation.view)
    (hrejections : ∀ r ∈ t.rejections, ∃ q ∈ s.rejections,
      r.invitation = q.invitation ∧ r.partnerAic = q.partnerAic) :
    Registered t := by
  have hback : ∀ (j : ℕ) (i : Invitation), t.invitations[j]? = some i → ∃ i' : Invitation,
      s.invitations[j]? = some i' ∧ i'.view = i.view := by
    intro j i hi
    have hj := hview j
    rw [hi, Option.map_some] at hj
    exact Option.map_eq_some_iff.mp hj.symm
  have hforth : ∀ (j : ℕ) (i : Invitation), s.invitations[j]? = some i → ∃ i' : Invitation,
      t.invitations[j]? = some i' ∧ i'.view = i.view := by
    intro j i hi
    have hj := hview j
    rw [hi, Option.map_some] at hj
    exact Option.map_eq_some_iff.mp hj
  constructor
  · intro aic j hj
    rw [hpending] at hj
    obtain ⟨i, hi, hpartner, hawaits⟩ := h.entry aic j hj
    obtain ⟨i', hi', hv⟩ := hforth j i hi
    obtain ⟨hp, ha, -⟩ : i'.partnerAic = i.partnerAic ∧ i'.awaitsFuture = i.awaitsFuture ∧
      i'.watched = i.watched := by simpa [Invitation.view] using hv
    exact ⟨i', hi', hp.trans hpartner, ha.trans hawaits⟩
  · intro j i hi hawaits
    obtain ⟨i', hi', hv⟩ := hback j i hi
    obtain ⟨hp, ha, hw⟩ : i'.partnerAic = i.partnerAic ∧ i'.awaitsFuture = i.awaitsFuture ∧
      i'.watched = i.watched := by simpa [Invitation.view] using hv
    obtain ⟨hentry, hwatched⟩ := h.awaiting j i' hi' (ha.trans hawaits)
    rw [hpending, ← hp]
    exact ⟨hentry, hw.symm.trans hwatched⟩
  · intro j i hi hwatched
    obtain ⟨i', hi', hv⟩ := hback j i hi
    obtain ⟨hp, -, hw⟩ : i'.partnerAic = i.partnerAic ∧ i'.awaitsFuture = i.awaitsFuture ∧
      i'.watched = i.watched := by simpa [Invitation.view] using hv
    rw [hpending, ← hp]
    exact h.watched j i' hi' (hw.trans hwatched)
  · intro r hr
    obtain ⟨q, hq, hinvitation, haic⟩ := hrejections r hr
    obtain ⟨i, hi, hpartner⟩ := h.rejections q hq
    obtain ⟨i', hi', hv⟩ := hforth q.invitation i hi
    rw [hinvitation, haic]
    exact ⟨i', hi', (congrArg Prod.fst hv).trans hpartner⟩

theorem Registered.of_eq (h : Registered s)
    (hpending : t.pendingInvitations = s.pendingInvitations)
    (hinvitations : t.invitations = s.invitations) (hrejections : t.rejections = s.rejections) :
    Registered t := by
  refine h.of_view hpending (fun j => by rw [hinvitations]) fun r hr => ?_
  rw [hrejections] at hr
  exact ⟨r, hr, rfl, rfl⟩

theorem Registered.modify (h : Registered s) (hk : s.invitations[k]? = some inv)
    (hview : (f inv).view = inv.view) (hpending : t.pendingInvitations = s.pendingInvitations)
    (hinvitations : t.invitations = s.invitations.modify k f)
    (hrejections : t.rejections = s.rejections) : Registered t := by
  refine h.of_view hpending (fun j => ?_) fun r hr => ⟨r, hrejections ▸ hr, rfl, rfl⟩
  rw [hinvitations]
  by_cases hj : k = j
  · subst hj
    rw [List.getElem?_modify_eq, hk]
    exact congrArg some hview
  · rw [List.getElem?_modify_ne f _ hj]

theorem Registered.release (h : Registered s) (hk : s.invitations[k]? = some inv)
    (hpartner : (f inv).partnerAic = inv.partnerAic) (hawaits : (f inv).awaitsFuture = false)
    (hwatched : (f inv).watched = false)
    (hown : ∀ m, s.pendingInvitations inv.partnerAic = some m → m = k)
    (hpending : t.pendingInvitations = Function.update s.pendingInvitations inv.partnerAic none)
    (hinvitations : t.invitations = s.invitations.modify k f)
    (hrejections : t.rejections = s.rejections) : Registered t := by
  have hother : ∀ (j : ℕ) (i : Invitation), s.invitations[j]? = some i →
      s.pendingInvitations i.partnerAic = some j → k ≠ j →
      t.pendingInvitations i.partnerAic = some j := by
    intro j i hi hentry hne
    rw [hpending, Function.update_of_ne, hentry]
    intro heq
    rw [heq] at hentry
    exact hne (hown j hentry).symm
  constructor
  · intro aic j hj
    rw [hpending] at hj
    by_cases haic : aic = inv.partnerAic
    · subst haic
      rw [Function.update_self] at hj
      cases hj
    · rw [Function.update_of_ne haic] at hj
      obtain ⟨i, hi, hp, ha⟩ := h.entry aic j hj
      have hne : k ≠ j := by
        rintro rfl
        obtain rfl : inv = i := Option.some.inj (hk.symm.trans hi)
        exact haic hp.symm
      refine ⟨i, ?_, hp, ha⟩
      rw [hinvitations, List.getElem?_modify_ne f _ hne, hi]
  · intro j i hi ha
    rw [hinvitations] at hi
    rcases getElem?_modify_eq_some.mp hi with ⟨rfl, i', hi', rfl⟩ | ⟨hne, hi'⟩
    · obtain rfl : inv = i' := Option.some.inj (hk.symm.trans hi')
      rw [hawaits] at ha
      cases ha
    · obtain ⟨hentry, hw⟩ := h.awaiting j i hi' ha
      exact ⟨hother j i hi' hentry hne, hw⟩
  · intro j i hi hw
    rw [hinvitations] at hi
    rcases getElem?_modify_eq_some.mp hi with ⟨rfl, i', hi', rfl⟩ | ⟨hne, hi'⟩
    · obtain rfl : inv = i' := Option.some.inj (hk.symm.trans hi')
      rw [hwatched] at hw
      cases hw
    · exact hother j i hi' (h.watched j i hi' hw) hne
  · intro r hr
    rw [hrejections] at hr
    obtain ⟨i, hi, hp⟩ := h.rejections r hr
    rw [hinvitations]
    by_cases hj : k = r.invitation
    · rw [← hj] at hi ⊢
      obtain rfl : inv = i := Option.some.inj (hk.symm.trans hi)
      exact ⟨f inv, by rw [List.getElem?_modify_eq, hk]; rfl, hpartner.trans hp⟩
    · exact ⟨i, by rw [List.getElem?_modify_ne f _ hj, hi], hp⟩

theorem Registered.enter (h : Registered s) (hk : s.invitations[k]? = some inv)
    (hpartner : (f inv).partnerAic = inv.partnerAic) (hawaits : (f inv).awaitsFuture = true)
    (hwatched : (f inv).watched = true) (hfree : s.pendingInvitations inv.partnerAic = none)
    (hpending : t.pendingInvitations = Function.update s.pendingInvitations inv.partnerAic (some k))
    (hinvitations : t.invitations = s.invitations.modify k f)
    (hrejections : t.rejections = s.rejections) : Registered t := by
  have hentry : t.pendingInvitations inv.partnerAic = some k := by
    rw [hpending, Function.update_self]
  have hother : ∀ (j : ℕ) (i : Invitation), s.pendingInvitations i.partnerAic = some j →
      t.pendingInvitations i.partnerAic = some j := by
    intro j i hi
    rw [hpending, Function.update_of_ne, hi]
    intro heq
    rw [heq, hfree] at hi
    cases hi
  have hk' : t.invitations[k]? = some (f inv) := by
    rw [hinvitations, List.getElem?_modify_eq, hk]
    rfl
  constructor
  · intro aic j hj
    rw [hpending] at hj
    by_cases haic : aic = inv.partnerAic
    · subst haic
      rw [Function.update_self] at hj
      obtain rfl : k = j := Option.some.inj hj
      exact ⟨f inv, hk', hpartner, hawaits⟩
    · rw [Function.update_of_ne haic] at hj
      obtain ⟨i, hi, hp, ha⟩ := h.entry aic j hj
      have hne : k ≠ j := by
        rintro rfl
        obtain rfl : inv = i := Option.some.inj (hk.symm.trans hi)
        exact haic hp.symm
      refine ⟨i, ?_, hp, ha⟩
      rw [hinvitations, List.getElem?_modify_ne f _ hne, hi]
  · intro j i hi ha
    rw [hinvitations] at hi
    rcases getElem?_modify_eq_some.mp hi with ⟨rfl, i', hi', rfl⟩ | ⟨-, hi'⟩
    · obtain rfl : inv = i' := Option.some.inj (hk.symm.trans hi')
      rw [hpartner]
      exact ⟨hentry, hwatched⟩
    · obtain ⟨he, hw⟩ := h.awaiting j i hi' ha
      exact ⟨hother j i he, hw⟩
  · intro j i hi hw
    rw [hinvitations] at hi
    rcases getElem?_modify_eq_some.mp hi with ⟨rfl, i', hi', rfl⟩ | ⟨-, hi'⟩
    · obtain rfl : inv = i' := Option.some.inj (hk.symm.trans hi')
      rw [hpartner]
      exact hentry
    · exact hother j i (h.watched j i hi' hw)
  · intro r hr
    rw [hrejections] at hr
    obtain ⟨i, hi, hp⟩ := h.rejections r hr
    rw [hinvitations]
    by_cases hj : k = r.invitation
    · rw [← hj] at hi ⊢
      obtain rfl : inv = i := Option.some.inj (hk.symm.trans hi)
      exact ⟨f inv, by rw [List.getElem?_modify_eq, hk]; rfl, hpartner.trans hp⟩
    · exact ⟨i, by rw [List.getElem?_modify_ne f _ hj, hi], hp⟩

def OwnEntry (s : GroupLeader) (k : ℕ) (partnerAic : Text) : Prop :=
  ∀ m ∈ s.pendingInvitations partnerAic, m = k

theorem clearPendingInvitation_none (s : GroupLeader) {aic : Text}
    (h : s.pendingInvitations aic = none) : s.clearPendingInvitation aic = s := by
  unfold GroupLeader.clearPendingInvitation
  rw [h]

theorem clearPendingInvitation_some (s : GroupLeader) {aic : Text}
    (h : s.pendingInvitations aic = some k) :
    s.clearPendingInvitation aic =
      { s.modifyInvitation k Invitation.unwatch with
        pendingInvitations := Function.update s.pendingInvitations aic none } := by
  unfold GroupLeader.clearPendingInvitation
  rw [h]

theorem OwnEntry.cases {s : GroupLeader} {aic : Text} (h : OwnEntry s k aic) :
    s.pendingInvitations aic = none ∨ s.pendingInvitations aic = some k := by
  cases hentry : s.pendingInvitations aic with
  | none => exact .inl rfl
  | some m => exact .inr (congrArg some (h m hentry))

theorem update_none_of_none {pending : Text → Option ℕ} {aic : Text} (h : pending aic = none) :
    pending = Function.update pending aic none := by
  rw [← h, Function.update_eq_self]

theorem Registered.unwatched (h : Registered s) (hk : s.invitations[k]? = some inv)
    (hentry : s.pendingInvitations inv.partnerAic = none) : inv.watched = false := by
  cases hw : inv.watched with
  | false => rfl
  | true =>
    have hk' := h.watched k inv hk hw
    rw [hentry] at hk'
    cases hk'

theorem Registered.unawaited (h : Registered s) (hk : s.invitations[k]? = some inv)
    (hentry : s.pendingInvitations inv.partnerAic = none) : inv.awaitsFuture = false := by
  cases ha : inv.awaitsFuture with
  | false => rfl
  | true =>
    have hk' := (h.awaiting k inv hk ha).1
    rw [hentry] at hk'
    cases hk'

theorem Registered.clear_phase (h : Registered s) (hk : s.invitations[k]? = some inv)
    (hown : OwnEntry s k inv.partnerAic) {g : Invitation → Invitation}
    (hg : ∀ i, (g i).partnerAic = i.partnerAic ∧ (g i).awaitsFuture = false ∧ (g i).watch = i.watch) :
    Registered ((s.clearPendingInvitation inv.partnerAic).modifyInvitation k g) := by
  rcases hown.cases with hentry | hentry
  · rw [clearPendingInvitation_none s hentry]
    refine h.release hk (f := g) (hg inv).1 (hg inv).2.1 ?_ hown (update_none_of_none hentry) rfl rfl
    unfold Invitation.watched
    rw [(hg inv).2.2]
    exact h.unwatched hk hentry
  · rw [clearPendingInvitation_some s hentry]
    refine h.release hk (f := g ∘ Invitation.unwatch) (hg _).1 (hg _).2.1 ?_ hown rfl
      (List.modify_modify_eq _ _ _ _) rfl
    unfold Invitation.watched
    rw [Function.comp_apply, (hg _).2.2]
    rfl

theorem Registered.settle_clear (h : Registered s) (hk : s.invitations[k]? = some inv)
    (hown : OwnEntry s k inv.partnerAic) {outcome : Future} (hdone : outcome ≠ .pending) :
    Registered ((s.settle k outcome).clearPendingInvitation inv.partnerAic) := by
  have hsettled := inv.awaitsFuture_settle hdone
  rcases hown.cases with hentry | hentry
  · rw [clearPendingInvitation_none _ (show (s.settle k outcome).pendingInvitations _ = _ from hentry)]
    refine h.modify hk (f := (Invitation.settle · outcome)) ?_ rfl rfl rfl
    rw [Invitation.view, Invitation.view, hsettled, h.unawaited hk hentry]
    rfl
  · rw [clearPendingInvitation_some _ (show (s.settle k outcome).pendingInvitations _ = _ from hentry)]
    exact h.release hk (f := Invitation.unwatch ∘ (Invitation.settle · outcome)) rfl hsettled rfl
      hown rfl (List.modify_modify_eq _ _ _ _) rfl

theorem Registered.append (h : Registered s) (hnew : inv.awaitsFuture = false)
    (hwatched : inv.watched = false) (hpending : t.pendingInvitations = s.pendingInvitations)
    (hinvitations : t.invitations = s.invitations ++ [inv])
    (hrejections : t.rejections = s.rejections) : Registered t := by
  have hmem : ∀ (j : ℕ) (i : Invitation), s.invitations[j]? = some i → t.invitations[j]? = some i := by
    intro j i hi
    rw [hinvitations]
    exact getElem?_concat_eq_some.mpr (.inl hi)
  constructor
  · intro aic j hj
    rw [hpending] at hj
    obtain ⟨i, hi, hp, ha⟩ := h.entry aic j hj
    exact ⟨i, hmem j i hi, hp, ha⟩
  · intro j i hi ha
    rw [hinvitations] at hi
    rw [hpending]
    rcases getElem?_concat_eq_some.mp hi with hi | ⟨-, rfl⟩
    · exact h.awaiting j i hi ha
    · rw [hnew] at ha
      cases ha
  · intro j i hi hw
    rw [hinvitations] at hi
    rw [hpending]
    rcases getElem?_concat_eq_some.mp hi with hi | ⟨-, rfl⟩
    · exact h.watched j i hi hw
    · rw [hwatched] at hw
      cases hw
  · intro r hr
    rw [hrejections] at hr
    obtain ⟨i, hi, hp⟩ := h.rejections r hr
    exact ⟨i, hmem _ i hi, hp⟩

end Primitives

section Steps

variable {s t : GroupLeader} {k : ℕ} {inv : Invitation}

theorem failInbox_eq (s : GroupLeader) (k : ℕ) (inv : Invitation) :
    s.failInbox k inv = ((s.clearPendingInvitation inv.partnerAic).modifyInvitation k
      (Invitation.rollBack · (s.clearPendingInvitation inv.partnerAic).calls.length)).sendCall
        (.removeMember inv.groupId inv.partnerAic) := rfl

theorem Registered.sendCall (h : Registered s) (op : AclOp) : Registered (s.sendCall op) :=
  h.of_eq rfl rfl rfl

theorem Registered.failInbox (h : Registered s) (hk : s.invitations[k]? = some inv)
    (hown : OwnEntry s k inv.partnerAic) : Registered (s.failInbox k inv) := by
  rw [failInbox_eq]
  exact (h.clear_phase hk hown (g := (Invitation.rollBack · _))
    fun i => ⟨rfl, i.awaitsFuture_rollBack _, rfl⟩).sendCall _

theorem Registered.rollBack (h : Registered s) (hk : s.invitations[k]? = some inv)
    (hawaits : inv.awaitsFuture = false) : Registered (s.rollBack k inv) :=
  h.modify hk (f := (Invitation.rollBack · s.calls.length))
    (by rw [Invitation.view, Invitation.view, hawaits]; rfl) rfl rfl rfl

theorem Registered.setPhase (h : Registered s) (hk : s.invitations[k]? = some inv) {phase : Phase}
    (hphase : (inv.setPhase phase).awaitsFuture = inv.awaitsFuture) :
    Registered (s.setPhase k phase) :=
  h.modify hk (f := (Invitation.setPhase · phase))
    (by rw [Invitation.view, Invitation.view, hphase]; rfl) rfl rfl rfl

theorem getElem?_modifyInvitation (hk : s.invitations[k]? = some inv) (f : Invitation → Invitation) :
    (s.modifyInvitation k f).invitations[k]? = some (f inv) := by
  change (s.invitations.modify k f)[k]? = some (f inv)
  rw [List.getElem?_modify_eq, hk]
  rfl

theorem Registered.register (h : Registered s) (hk : s.invitations[k]? = some inv)
    (hfree : s.pendingInvitations inv.partnerAic = none) : Registered (s.register k inv) := by
  have henter : Registered (s.enter k inv) :=
    h.enter hk (f := Invitation.publish) rfl rfl rfl hfree rfl rfl rfl
  unfold GroupLeader.register
  split
  · exact henter
  · have hentry : (s.enter k inv).pendingInvitations inv.partnerAic = some k :=
      Function.update_self _ _ _
    have hk' : (s.enter k inv).invitations[k]? = some inv.publish := getElem?_modifyInvitation hk _
    have hown : OwnEntry (s.enter k inv) k inv.publish.partnerAic := fun m hm =>
      Option.some.inj (hm.symm.trans hentry)
    have hfailed : Registered ((s.enter k inv).failInbox k inv.publish) := henter.failInbox hk' hown
    exact hfailed

theorem Registered.failPending (h : Registered s) (chosen : Invitation → Bool) (k : ℕ) :
    Registered (s.failPending chosen k) := by
  unfold GroupLeader.failPending
  cases hk : s.invitations[k]? with
  | none => exact h
  | some inv =>
    dsimp only
    split
    · next hentry =>
      refine h.settle_clear hk (fun m hm => ?_) (by decide)
      rw [hentry.1] at hm
      exact (Option.some.inj hm).symm
    · exact h

theorem Registered.failAll (h : Registered s) (chosen : Invitation → Bool) :
    Registered (s.failAll chosen) := by
  unfold GroupLeader.failAll
  induction List.range s.invitations.length generalizing s with
  | nil => exact h
  | cons k ks ih => exact ih (h.failPending chosen k)

theorem Registered.markLeft (h : Registered s) (left : Invitation → Bool) :
    Registered (s.markLeft left) := by
  refine h.of_view rfl (fun j => ?_) fun r hr => ⟨r, hr, rfl, rfl⟩
  change (((s.invitations.map _)[j]?).map _) = _
  rw [List.getElem?_map, Option.map_map]
  congr 1
  funext i
  rw [Function.comp_apply]
  split
  · rfl
  · rfl

/-- The steps that respect the registry. An invitation is registered for a partner that has no
entry, and one that goes on after its future is done finds none; a caller does not cancel the
invitation that is the entry; the watcher's request does not fail in the transport; and the handler of
an invitation error comes back to the entry that it started with, or to none. -/
def Orderly (s : GroupLeader) : Act → Prop
  | .resume k => ∀ inv ∈ s.invitations[k]?,
      (match inv.phase with
        | .addingMember call => inv.route ≠ .rpc ∧ s.reply call = some .done
        | .awaitingFuture => True
        | _ => False) → s.pendingInvitations inv.partnerAic = none
  | .answer k _ => ∀ inv ∈ s.invitations[k]?,
      inv.phase = .publishing ∧ inv.future ≠ .pending → s.pendingInvitations inv.partnerAic = none
  | .cancel k => ∀ inv ∈ s.invitations[k]?, s.pendingInvitations inv.partnerAic ≠ some k
  | .resumeWatch k => ∀ inv ∈ s.invitations[k]?,
      match inv.watch with
      | .removing call => ∀ applied, s.reply call ≠ some (.transportError applied)
      | _ => True
  | .resumeRejection r => ∀ rejection ∈ s.rejections[r]?,
      OwnEntry s rejection.invitation rejection.partnerAic
  | _ => True

instance decidableSettled (s : GroupLeader) (inv : Invitation) : (phase : Phase) → Decidable
    ((match phase with
      | .addingMember call => inv.route ≠ .rpc ∧ s.reply call = some .done
      | .awaitingFuture => True
      | _ => False) → s.pendingInvitations inv.partnerAic = none)
  | .addingMember _ => inferInstanceAs (Decidable (_ ∧ _ → _))
  | .awaitingFuture => inferInstanceAs (Decidable (True → _))
  | .publishing | .requesting | .rollingBack _ | .returned | .raised | .cancelled =>
    inferInstanceAs (Decidable (False → _))

theorem forall_transportError (s : GroupLeader) (call : ℕ) :
    (∀ applied, s.reply call ≠ some (.transportError applied)) ↔
      s.reply call ≠ some (.transportError false) ∧ s.reply call ≠ some (.transportError true) :=
  Bool.forall_bool

instance decidableWatched (s : GroupLeader) : (watch : Watch) → Decidable
    (match watch with
      | .removing call => ∀ applied, s.reply call ≠ some (.transportError applied)
      | _ => True)
  | .removing call => decidable_of_iff _ (forall_transportError s call).symm
  | .sleeping | .ended => instDecidableTrue

instance (s : GroupLeader) : (a : Act) → Decidable (Orderly s a)
  | .resume _ => @Option.decidableForallMem _ _ (fun inv : Invitation => decidableSettled s inv inv.phase) _
  | .answer _ _ => inferInstanceAs (Decidable (∀ inv ∈ _, _))
  | .cancel _ => inferInstanceAs (Decidable (∀ inv ∈ _, _))
  | .resumeWatch _ =>
    @Option.decidableForallMem _ _ (fun inv : Invitation => decidableWatched s inv.watch) _
  | .resumeRejection r => inferInstanceAs (Decidable (∀ rejection ∈ s.rejections[r]?,
      ∀ m ∈ s.pendingInvitations rejection.partnerAic, m = rejection.invitation))
  | .create _ _ | .invite _ _ _ | .serve _ _ | .watchTimeout _ | .invitationError _ _ _
  | .groupMessage _ | .forceRemove _ _ | .dissolve _ | .deleteGroup _ | .cleanup _
  | .closePending => instDecidableTrue

theorem Registered.resumeSettled (h : Registered s) (hk : s.invitations[k]? = some inv)
    (hfree : s.pendingInvitations inv.partnerAic = none) (ht : s.resumeSettled k inv = some t) :
    Registered t := by
  have hown : OwnEntry s k inv.partnerAic := fun m hm => by rw [hfree] at hm; cases hm
  unfold GroupLeader.resumeSettled at ht
  split at ht
  · obtain rfl := Option.some.inj ht
    exact h.clear_phase hk hown fun i =>
      ⟨rfl, Invitation.awaitsFuture_of_phase (fun h => by cases h) (fun h => by cases h), rfl⟩
  · obtain rfl := Option.some.inj ht
    exact h.failInbox hk hown
  · cases ht

theorem Registered.resumeAdded (h : Registered s) (hk : s.invitations[k]? = some inv) {call : ℕ}
    (hphase : inv.phase = .addingMember call) {reply : Reply}
    (hfree : inv.route ≠ .rpc ∧ reply = .done → s.pendingInvitations inv.partnerAic = none) :
    Registered (s.resumeAdded k inv reply) := by
  have hawaits : inv.awaitsFuture = false :=
    Invitation.awaitsFuture_of_phase (by rw [hphase]; simp) (by rw [hphase]; simp)
  unfold GroupLeader.resumeAdded
  split
  · refine h.setPhase hk (.trans ?_ hawaits.symm)
    exact Invitation.awaitsFuture_of_phase (fun h => by cases h) (fun h => by cases h)
  · next hdone =>
    split
    · split
      · refine h.setPhase hk (.trans ?_ hawaits.symm)
        exact Invitation.awaitsFuture_of_phase (fun h => by cases h) (fun h => by cases h)
      · exact h.rollBack hk hawaits
    · next hroute => exact h.register hk (hfree ⟨hroute, not_not.mp hdone⟩)

theorem Registered.resume (h : Registered s) (horder : Orderly s (.resume k))
    (ht : s.resume k = some t) : Registered t := by
  obtain ⟨inv, hk, ht⟩ := Option.bind_eq_some_iff.mp ht
  have hfree := horder inv hk
  cases hphase : inv.phase with
  | addingMember call =>
    rw [hphase] at ht hfree
    obtain ⟨reply, hreply, rfl⟩ := Option.map_eq_some_iff.mp ht
    refine h.resumeAdded hk hphase fun hroute => hfree ⟨hroute.1, ?_⟩
    rw [hreply, hroute.2]
  | awaitingFuture =>
    rw [hphase] at ht hfree
    exact h.resumeSettled hk (hfree trivial) ht
  | rollingBack call =>
    rw [hphase] at ht
    obtain ⟨reply, -, rfl⟩ := Option.map_eq_some_iff.mp ht
    refine h.setPhase hk (.trans ?_ (Invitation.awaitsFuture_of_phase ?_ ?_).symm)
    · exact Invitation.awaitsFuture_of_phase (fun h => by cases h) (fun h => by cases h)
    · rw [hphase]; simp
    · rw [hphase]; simp
  | publishing | requesting | returned | raised | cancelled =>
    rw [hphase] at ht
    cases ht

theorem Registered.answer (h : Registered s) {returned : Bool}
    (horder : Orderly s (.answer k returned)) (ht : s.answer k returned = some t) :
    Registered t := by
  obtain ⟨inv, hk, ht⟩ := Option.bind_eq_some_iff.mp ht
  have hfree := horder inv hk
  cases hphase : inv.phase with
  | publishing =>
    rw [hphase] at ht hfree
    dsimp only at ht
    split at ht
    · split at ht
      · next hfuture =>
        obtain rfl := Option.some.inj ht
        refine h.setPhase hk ?_
        unfold Invitation.awaitsFuture Invitation.setPhase
        simp [hphase]
      · next hfuture => exact h.resumeSettled hk (hfree ⟨rfl, hfuture⟩) ht
    · obtain rfl := Option.some.inj ht
      refine h.failInbox hk fun m hm => ?_
      by_cases hfuture : inv.future = .pending
      · have hawaits : inv.awaitsFuture = true := by
          unfold Invitation.awaitsFuture
          simp [hphase, hfuture]
        exact Option.some.inj (hm.symm.trans (h.awaiting k inv hk hawaits).1)
      · rw [hfree ⟨rfl, hfuture⟩] at hm
        cases hm
  | requesting =>
    rw [hphase] at ht
    have hawaits : inv.awaitsFuture = false :=
      Invitation.awaitsFuture_of_phase (by rw [hphase]; simp) (by rw [hphase]; simp)
    dsimp only at ht
    split at ht
    · obtain rfl := Option.some.inj ht
      have hjoined : Registered (s.partnerJoined inv.session inv.partnerAic) := h.of_eq rfl rfl rfl
      refine hjoined.setPhase hk (.trans ?_ hawaits.symm)
      exact Invitation.awaitsFuture_of_phase (fun h => by cases h) (fun h => by cases h)
    · obtain rfl := Option.some.inj ht
      exact h.rollBack hk hawaits
  | addingMember _ | awaitingFuture | rollingBack _ | returned | raised | cancelled =>
    rw [hphase] at ht
    cases ht

theorem Invitation.awaitsFuture_setPhase_cancelled (inv : Invitation) :
    (inv.setPhase .cancelled).awaitsFuture = false :=
  awaitsFuture_of_phase (fun h => by cases h) (fun h => by cases h)

theorem Registered.cancel (h : Registered s) (horder : Orderly s (.cancel k))
    (ht : s.cancel k = some t) : Registered t := by
  obtain ⟨inv, hk, ht⟩ := Option.bind_eq_some_iff.mp ht
  have hawaits : inv.awaitsFuture = false := by
    by_contra ha
    exact horder inv hk (h.awaiting k inv hk (by simpa using ha)).1
  have hphase : Registered (s.setPhase k .cancelled) :=
    h.setPhase hk (inv.awaitsFuture_setPhase_cancelled.trans hawaits.symm)
  cases hp : inv.phase with
  | awaitingFuture =>
    rw [hp] at ht
    obtain rfl := Option.some.inj ht
    refine h.modify hk (f := (Invitation.setPhase · .cancelled) ∘ (Invitation.settle · .cancelled)) ?_
      rfl (List.modify_modify_eq _ _ _ _) rfl
    rw [Function.comp_apply, Invitation.view, Invitation.view, hawaits,
      (inv.settle .cancelled).awaitsFuture_setPhase_cancelled]
    rfl
  | returned | raised | cancelled =>
    rw [hp] at ht
    cases ht
  | addingMember _ | publishing | requesting | rollingBack _ =>
    rw [hp] at ht
    obtain rfl := Option.some.inj ht
    exact hphase

theorem Registered.watchTimeout (h : Registered s) (ht : s.watchTimeout k = some t) :
    Registered t := by
  obtain ⟨inv, hk, ht⟩ := Option.bind_eq_some_iff.mp ht
  split at ht
  · cases ht
  · next hsleeping =>
    have hwatched : inv.watched = true := by
      unfold Invitation.watched
      rw [not_not.mp hsleeping]
      rfl
    have hentry := h.watched k inv hk hwatched
    split at ht
    · next hother =>
      obtain rfl := Option.some.inj ht
      -- the entry is there, and what it stands for awaits its future
      obtain ⟨i, hi, -, hawaits⟩ := h.entry inv.partnerAic k hentry
      obtain rfl : inv = i := Option.some.inj (hk.symm.trans hi)
      unfold Invitation.awaitsFuture at hawaits
      rcases hother with hother | hother
      · exact absurd hentry hother
      · exact absurd (of_decide_eq_true hawaits).2 hother
    · obtain rfl := Option.some.inj ht
      refine h.modify hk (f := fun inv =>
        { inv with watch := .removing s.calls.length, withdrawn := true }) ?_ rfl rfl rfl
      rw [Invitation.view, Invitation.view, hwatched]
      rfl

theorem Registered.resumeWatch (h : Registered s) (horder : Orderly s (.resumeWatch k))
    (ht : s.resumeWatch k = some t) : Registered t := by
  obtain ⟨inv, hk, ht⟩ := Option.bind_eq_some_iff.mp ht
  have hreply := horder inv hk
  cases hwatch : inv.watch with
  | sleeping =>
    rw [hwatch] at ht
    cases ht
  | ended =>
    rw [hwatch] at ht
    cases ht
  | removing call =>
    rw [hwatch] at ht hreply
    have hwatched : inv.watched = true := by
      unfold Invitation.watched
      rw [hwatch]
      rfl
    have hentry := h.watched k inv hk hwatched
    have hpending : inv.future = .pending := by
      obtain ⟨i, hi, -, hawaits⟩ := h.entry inv.partnerAic k hentry
      obtain rfl : inv = i := Option.some.inj (hk.symm.trans hi)
      exact (of_decide_eq_true hawaits).2
    dsimp only at ht
    split at ht
    · cases ht
    · next applied hfailed => exact absurd hfailed (hreply applied)
    · rw [if_neg (not_not.mpr hpending)] at ht
      obtain rfl := Option.some.inj ht
      have hown : OwnEntry s k inv.partnerAic := fun m hm => Option.some.inj (hm.symm.trans hentry)
      have hcleared := h.settle_clear hk hown (show Future.exception ≠ .pending by decide)
      have hentry' : (s.settle k .exception).pendingInvitations inv.partnerAic = some k := hentry
      rw [clearPendingInvitation_some _ hentry'] at hcleared ⊢
      exact hcleared.of_eq rfl (List.modify_modify_eq _ _ _ _) rfl

theorem Registered.invitationError (h : Registered s) (senderId : Text) (token : ℕ) (groupId : Text) :
    Registered (s.invitationError senderId token groupId) := by
  unfold GroupLeader.invitationError
  split
  · exact h
  · next k hentry =>
    split
    · exact h
    · obtain ⟨inv, hk, hpartner, -⟩ := h.entry senderId k hentry
      have hwithdrawn : Registered ((s.sendCall (.removeMember groupId senderId)).modifyInvitation k
          fun inv => { inv with withdrawn := true }) :=
        h.modify hk (f := fun inv => { inv with withdrawn := true }) rfl rfl rfl rfl
      refine ⟨hwithdrawn.entry, hwithdrawn.awaiting, hwithdrawn.watched, fun r hr => ?_⟩
      rcases List.mem_append.mp hr with hr | hr
      · exact hwithdrawn.rejections r hr
      · rw [List.mem_singleton.mp hr]
        exact ⟨_, getElem?_modifyInvitation hk _, hpartner⟩

theorem Registered.resumeRejection (h : Registered s) {r : ℕ}
    (horder : Orderly s (.resumeRejection r)) (ht : s.resumeRejection r = some t) :
    Registered t := by
  obtain ⟨rejection, hr, ht⟩ := Option.bind_eq_some_iff.mp ht
  have hown := horder rejection hr
  split at ht
  · cases ht
  · have hover : Registered { s with
        rejections := s.rejections.modify r fun r => { r with ended := true } } := by
      refine h.of_view rfl (fun j => rfl) fun q hq => ?_
      obtain ⟨i, hi⟩ := List.getElem?_of_mem hq
      rcases getElem?_modify_eq_some.mp hi with ⟨-, q', hq', rfl⟩ | ⟨-, hq'⟩
      · exact ⟨q', List.mem_of_getElem? hq', rfl, rfl⟩
      · exact ⟨q, List.mem_of_getElem? hq', rfl, rfl⟩
    obtain ⟨inv, hk, hpartner⟩ := h.rejections rejection (List.mem_of_getElem? hr)
    rw [← hpartner] at hown ht
    dsimp only at ht
    split at ht
    · cases ht
    · obtain rfl := Option.some.inj ht
      exact hover
    · obtain rfl := Option.some.inj ht
      exact hover.settle_clear (k := rejection.invitation) hk hown (by decide)

theorem Registered.confirmJoin (h : Registered s) (sessionId senderId : Text) :
    Registered (s.confirmJoin sessionId senderId) := by
  unfold GroupLeader.confirmJoin
  split
  · exact h
  · next k hentry =>
    split
    · obtain ⟨inv, hk, hpartner, -⟩ := h.entry senderId k hentry
      rw [← hpartner] at hentry ⊢
      exact h.settle_clear hk (fun m hm => Option.some.inj (hm.symm.trans hentry)) (by decide)
    · exact h

theorem Registered.partnerLeft (h : Registered s) (sessionId groupId senderId : Text) :
    Registered (s.partnerLeft sessionId groupId senderId) := (h.markLeft _).sendCall _

theorem Registered.handleGroupMessage (h : Registered s) (message : Message) :
    Registered (s.handleGroupMessage message) := by
  unfold GroupLeader.handleGroupMessage
  split
  · exact h
  · next session _ =>
    split
    · exact h
    · next found _ =>
      have hhandled : Registered { s with
          sessions := s.sessions.modify session fun found => found.handle message } :=
        h.of_eq rfl rfl rfl
      dsimp only
      split
      · exact hhandled.confirmJoin _ _
      · exact hhandled.partnerLeft _ _ _
      · exact hhandled

theorem Registered.create (h : Registered s) (sessionId : Text) (initialPartners : List Text) :
    Registered (s.create sessionId initialPartners) := by
  unfold GroupLeader.create
  split
  · exact h
  · exact h.of_eq rfl rfl rfl

theorem Registered.invite (h : Registered s) (sessionId partnerAic : Text) (route : Route) :
    Registered (s.invite sessionId partnerAic route) := by
  unfold GroupLeader.invite
  split
  · exact h
  · split
    · exact h
    · dsimp only
      split
      · exact h.append (Invitation.awaitsFuture_of_phase (fun h => by cases h) (fun h => by cases h))
          rfl rfl rfl rfl
      · exact h.append (Invitation.awaitsFuture_of_phase (fun h => by cases h) (fun h => by cases h))
          rfl rfl rfl rfl

theorem Registered.serve (h : Registered s) {call : ℕ} {reply : Reply}
    (ht : s.serve call reply = some t) : Registered t := by
  obtain ⟨c, -, ht⟩ := Option.bind_eq_some_iff.mp ht
  split at ht
  · obtain rfl := Option.some.inj ht
    exact h.of_eq rfl rfl rfl
  · cases ht

theorem Registered.dissolve (h : Registered s) (sessionId : Text) :
    Registered (s.dissolve sessionId) := by
  unfold GroupLeader.dissolve
  split
  · exact h
  · split
    · exact h
    · have hpopped : Registered
          { s with groupSessions := s.groupSessions.filter fun e => e.1 ≠ sessionId } :=
        h.of_eq rfl rfl rfl
      have hfailed := (hpopped.failAll fun inv => inv.sessionId = sessionId).markLeft
        fun inv => inv.sessionId = sessionId
      exact hfailed.of_eq rfl rfl rfl

theorem Registered.deleteGroup (h : Registered s) {d : ℕ} (ht : s.deleteGroup d = some t) :
    Registered t := by
  obtain ⟨dissolution, -, ht⟩ := Option.bind_eq_some_iff.mp ht
  split at ht
  · obtain rfl := Option.some.inj ht
    exact h.of_eq rfl rfl rfl
  · cases ht

theorem Registered.cleanup (h : Registered s) {d : ℕ} (ht : s.cleanup d = some t) :
    Registered t := by
  obtain ⟨dissolution, -, ht⟩ := Option.bind_eq_some_iff.mp ht
  split at ht
  · dsimp only at ht
    split at ht
    · cases ht
    · obtain rfl := Option.some.inj ht
      exact h.of_eq rfl rfl rfl
    · obtain rfl := Option.some.inj ht
      exact h.of_eq rfl rfl rfl
  · cases ht

theorem Registered.step (h : Registered s) {a : Act} (horder : Orderly s a)
    (ht : groupLeader.step s a = some t) : Registered t := by
  cases a with
  | create sessionId initialPartners =>
    obtain rfl := Option.some.inj ht
    exact h.create sessionId initialPartners
  | invite sessionId partnerAic route =>
    obtain rfl := Option.some.inj ht
    exact h.invite sessionId partnerAic route
  | serve call reply => exact h.serve ht
  | resume k => exact h.resume horder ht
  | answer k returned => exact h.answer horder ht
  | cancel k => exact h.cancel horder ht
  | watchTimeout k => exact h.watchTimeout ht
  | resumeWatch k => exact h.resumeWatch horder ht
  | invitationError senderId token groupId =>
    obtain rfl := Option.some.inj ht
    exact h.invitationError senderId token groupId
  | resumeRejection r => exact h.resumeRejection horder ht
  | groupMessage message =>
    obtain rfl := Option.some.inj ht
    exact h.handleGroupMessage message
  | forceRemove sessionId partnerAic =>
    obtain rfl := Option.some.inj ht
    unfold GroupLeader.forceRemove
    split
    · exact h
    · exact h.partnerLeft _ _ _
  | dissolve sessionId =>
    obtain rfl := Option.some.inj ht
    exact h.dissolve sessionId
  | deleteGroup d => exact h.deleteGroup ht
  | cleanup d => exact h.cleanup ht
  | closePending =>
    obtain rfl := Option.some.inj ht
    exact h.failAll _

end Steps

theorem no_stuck_invitation {leaderAic : Text} {schedule : List Act} {t : GroupLeader}
    (horder : groupLeader.Meets Orderly { leaderAic := leaderAic } schedule)
    (ht : groupLeader.exec { leaderAic := leaderAic } schedule = some t) :
    (∀ (k : ℕ) (inv : Invitation), t.invitations[k]? = some inv → inv.awaitsFuture = true →
        t.pendingInvitations inv.partnerAic = some k ∧ inv.watch ≠ .ended) ∧
      ∀ aic k, t.pendingInvitations aic = some k → ∃ inv : Invitation,
        t.invitations[k]? = some inv ∧ inv.partnerAic = aic ∧ inv.awaitsFuture = true := by
  have h : Registered t := groupLeader.exec_invariant
    (fun s a t hs ha hstep => Registered.step hs ha hstep) (registered_new leaderAic) horder ht
  refine ⟨fun k inv hk hawaits => ?_, h.entry⟩
  obtain ⟨hentry, hwatched⟩ := h.awaiting k inv hk hawaits
  exact ⟨hentry, of_decide_eq_true hwatched⟩

def orderlyRun : List Act :=
  [.create "s".toList [], .invite "s".toList "p".toList (.inbox "inbox_p".toList),
    .invite "s".toList "q".toList (.inbox "inbox_q".toList), .serve 0 .done, .serve 1 .done,
    .resume 0, .resume 1, .answer 0 true, .answer 1 true,
    .groupMessage
      { id := [], senderId := "p".toList, sessionId := none, groupId := "group-s".toList,
        body := .groupMgmtResult true false },
    .watchTimeout 1, .resume 0, .serve 2 .done]

theorem no_stuck_invitation_late : ∃ t, groupLeader.exec { leaderAic := "l".toList } orderlyRun = some t ∧
    (∀ (k : ℕ) (inv : Invitation), t.invitations[k]? = some inv → inv.awaitsFuture = true →
        t.pendingInvitations inv.partnerAic = some k ∧ inv.watch ≠ .ended) ∧
      ∀ aic k, t.pendingInvitations aic = some k → ∃ inv : Invitation,
        t.invitations[k]? = some inv ∧ inv.partnerAic = aic ∧ inv.awaitsFuture = true := by
  have hrun : (groupLeader.exec { leaderAic := "l".toList } orderlyRun).isSome = true := by
    decide +kernel
  obtain ⟨t, ht⟩ := Option.isSome_iff_exists.mp hrun
  refine ⟨t, ht, no_stuck_invitation (groupLeader.meets_of_check
    (c := fun s a => decide (Orderly s a)) (fun _ _ h => of_decide_eq_true h) ?_) ht⟩
  decide +kernel

def overlappingRun : List Act :=
  [.create "s".toList [], .invite "s".toList "p".toList (.inbox "inbox_p".toList),
    .invite "s".toList "p".toList (.inbox "inbox_p".toList), .serve 0 .done, .serve 1 .done,
    .resume 0, .resume 1]

def cancelledRun : List Act :=
  [.create "s".toList [], .invite "s".toList "p".toList (.inbox "inbox_p".toList), .serve 0 .done,
    .resume 0, .answer 0 true, .cancel 0, .watchTimeout 0]

theorem stuck_invitation :
    (∃ t, groupLeader.exec { leaderAic := "l".toList } overlappingRun = some t ∧
      ∃ inv : Invitation, t.invitations[0]? = some inv ∧ inv.awaitsFuture = true ∧
        t.pendingInvitations inv.partnerAic ≠ some 0) ∧
    ∃ t, groupLeader.exec { leaderAic := "l".toList } cancelledRun = some t ∧
      ∃ inv : Invitation, t.invitations[0]? = some inv ∧ t.pendingInvitations inv.partnerAic = some 0 ∧
        inv.awaitsFuture = false ∧ inv.watch = .ended := by
  have hoverlap : (groupLeader.exec { leaderAic := "l".toList } overlappingRun).any (fun t =>
      (t.invitations[0]?).any fun inv => inv.awaitsFuture = true ∧
        t.pendingInvitations inv.partnerAic ≠ some 0) = true := by decide +kernel
  have hcancel : (groupLeader.exec { leaderAic := "l".toList } cancelledRun).any (fun t =>
      (t.invitations[0]?).any fun inv => t.pendingInvitations inv.partnerAic = some 0 ∧
        inv.awaitsFuture = false ∧ inv.watch = .ended) = true := by decide +kernel
  obtain ⟨t, ht, hfirst⟩ := (Option.any_eq_true _ _).mp hoverlap
  obtain ⟨inv, hinv, hlost⟩ := (Option.any_eq_true _ _).mp hfirst
  obtain ⟨u, hu, hsecond⟩ := (Option.any_eq_true _ _).mp hcancel
  obtain ⟨inv', hinv', hdead⟩ := (Option.any_eq_true _ _).mp hsecond
  exact ⟨⟨t, ht, inv, hinv, of_decide_eq_true hlost⟩, u, hu, inv', hinv', of_decide_eq_true hdead⟩

end Acps.Group
