import Acps.Discovery.SyncOnce
import Acps.Lib.Transition

/-!
One synchronization after another, against any responses and with any failures: what becomes of the
entries of a page when an exception ends the call.
-/

namespace Acps.Discovery

open Dsp

/-- The call the client is in. The ghost fields keep the pages it was sent, each with the cursor it
was asked for, and the entries it has written or found not newer. -/
structure SyncRun where
  client : Client
  point : SyncPoint
  returned : List (ℤ × List Envelope)
  settled : List Envelope

def SyncRun.start (c : Client) : SyncRun := ⟨c, .done, [], []⟩

inductive SyncAct where
  | call
  | resume (reply : Reply)
  | raise

namespace SyncRun

def nowReturned (s : SyncRun) (reply : Reply) : List (ℤ × List Envelope) :=
  match s.point, reply with
  | .changesRequest seq, .changes _ lines => [(seq, lines.reduceOption)]
  | _, _ => []

def nowSettled (s : SyncRun) (reply : Reply) : List Envelope :=
  match s.point, reply with
  | .changesRequest _, .changes nextSeq lines =>
    ((lines.mapM id).map (s.client.processChangesResponse nextSeq).skipped).getD []
  | .changesRow _ _ e (.write existing), .ok =>
    if (writeRow s.client.replica.agents existing e).isSome then [e] else []
  | .changesRow _ rest e .track, .ok =>
    ((resumeApply s.client.replica e .track).map fun next =>
      Client.skipped ⟨next.1, s.client.forceFullSnapshot⟩ rest).getD []
  | _, _ => []

def step (s : SyncRun) : SyncAct → Option SyncRun
  | .call =>
    match s.point with
    | .done => some ⟨s.client, s.client.syncOnce, [], []⟩
    | _ => none
  | .resume reply => (s.client.resume s.point reply).map fun next =>
    ⟨next.1, next.2, s.nowReturned reply ++ s.returned, s.nowSettled reply ++ s.settled⟩
  | .raise => some { s with point := .done }

def unapplied (s : SyncRun) : List Envelope :=
  match s.point with
  | .changesRow _ rest _ .track => rest
  | .changesRow _ rest e _ => e :: rest
  | _ => []

def cursor (s : SyncRun) : ℤ :=
  match s.point with
  | .changesRow seq .. | .changesRequest seq => seq
  | _ => 0

end SyncRun

def syncs : Transition.System SyncRun SyncAct := ⟨SyncRun.step⟩

def Behind (c : Client) (seq : ℤ) (e : Envelope) : Prop :=
  e.type = "acs" ∧ seq < e.seq ∧ ∃ q, c.replica.state.lastSeq = some q ∧ e.seq ≤ q

def SyncRun.Complete (s : SyncRun) : Prop :=
  ∀ page ∈ s.returned, ∀ e ∈ page.2, Behind s.client page.1 e → e ∈ s.settled

def NothingLost (s : SyncRun) (a : SyncAct) : Prop :=
  ∀ t, s.step a = some t → t.point = .done → t.Complete

def RaisesAhead (s : SyncRun) : SyncAct → Prop
  | .call => True
  | .raise => ∀ e ∈ s.unapplied, ¬ Behind s.client s.cursor e
  | .resume reply =>
    match s.point, reply with
    | .changesRow _ _ e (.write existing), .ok =>
      writeRow s.client.replica.agents existing e = none →
        ∀ e ∈ s.unapplied, ¬ Behind s.client s.cursor e
    | .changesRequest seq, .changes nextSeq lines =>
      lines.mapM id = none →
        ∀ e ∈ lines.reduceOption, ¬ Behind (s.client.processChangesResponse nextSeq) seq e
    | _, _ => True

structure SyncRun.Inv (s : SyncRun) : Prop where
  running : s.point ≠ .done → ∀ page ∈ s.returned, ∀ e ∈ page.2, e.type = "acs" →
    e ∈ s.settled ∨ e ∈ s.unapplied ∧ page.1 = s.cursor
  ended : s.point = .done → s.Complete

section Step

variable {s t : SyncRun}

theorem mem_skipped_or_pending (c : Client) {rows : List Envelope} {e : Envelope} (he : e ∈ rows) :
    e ∈ c.skipped rows ∨ e ∈ c.pending rows := by
  rw [← List.takeWhile_append_dropWhile (p := fun e => !accepts c.replica e) (l := rows)] at he
  exact List.mem_append.mp he

theorem pending_applyChangesRows (c : Client) (seq : ℤ) (rows : List Envelope)
    (returned : List (ℤ × List Envelope)) (settled : List Envelope) {e : Envelope}
    (he : e ∈ c.pending rows) :
    e ∈ SyncRun.unapplied ⟨c, c.applyChangesRows seq rows, returned, settled⟩ ∧
      SyncRun.cursor ⟨c, c.applyChangesRows seq rows, returned, settled⟩ = seq := by
  unfold Client.applyChangesRows
  cases hp : c.pending rows with
  | nil => simp [hp] at he
  | cons d rest =>
    rw [hp] at he
    exact ⟨he, rfl⟩

theorem applyChangesRows_ne_done (c : Client) (seq : ℤ) (rows : List Envelope) :
    c.applyChangesRows seq rows ≠ .done := by
  unfold Client.applyChangesRows
  split <;> simp

theorem SyncRun.Inv.complete (h : s.Inv) (hrun : s.point ≠ .done)
    (hC : ∀ e ∈ s.unapplied, ¬ Behind s.client s.cursor e) : s.Complete := by
  intro page hpage e he hbehind
  rcases h.running hrun page hpage e he hbehind.1 with hsettled | ⟨hun, hcur⟩
  · exact hsettled
  · exact absurd (hcur ▸ hbehind) (hC e hun)

theorem SyncRun.Inv.ends (h : s.Inv) (hrun : s.point ≠ .done)
    (hC : ∀ e ∈ s.unapplied, ¬ Behind s.client s.cursor e) : Inv { s with point := .done } :=
  ⟨fun hne => absurd rfl hne, fun _ => h.complete hrun hC⟩

theorem SyncRun.Inv.between (h : s.Inv) (hrun : s.point ≠ .done) (hun : s.unapplied = [])
    (c : Client) (p : SyncPoint) : Inv ⟨c, p, s.returned, s.settled⟩ := by
  have hall : ∀ page ∈ s.returned, ∀ e ∈ page.2, e.type = "acs" → e ∈ s.settled := by
    intro page hpage e he hacs
    rcases h.running hrun page hpage e he hacs with hsettled | ⟨hmem, _⟩
    · exact hsettled
    · simp [hun] at hmem
  exact ⟨fun _ page hpage e he hacs => .inl (hall page hpage e he hacs),
    fun _ page hpage e he hbehind => hall page hpage e he hbehind.1⟩

theorem SyncRun.Inv.received (h : s.Inv) {seq : ℤ} (hpoint : s.point = .changesRequest seq)
    {nextSeq : Option ℤ} {lines : List (Option Envelope)}
    (hC : lines.mapM id = none →
      ∀ e ∈ lines.reduceOption, ¬ Behind (s.client.processChangesResponse nextSeq) seq e) :
    Inv ⟨(s.client.receiveChanges seq nextSeq lines).1,
      (s.client.receiveChanges seq nextSeq lines).2, (seq, lines.reduceOption) :: s.returned,
      ((lines.mapM id).map (s.client.processChangesResponse nextSeq).skipped).getD [] ++
        s.settled⟩ := by
  have hrun : s.point ≠ .done := by simp [hpoint]
  have hold : ∀ page ∈ s.returned, ∀ e ∈ page.2, e.type = "acs" → e ∈ s.settled := by
    intro page hpage e he hacs
    rcases h.running hrun page hpage e he hacs with hsettled | ⟨hmem, _⟩
    · exact hsettled
    · simp [unapplied, hpoint] at hmem
  unfold Client.receiveChanges
  cases hlines : lines.mapM id with
  | none =>
    refine ⟨fun hne => absurd rfl hne, fun _ page hpage e he hbehind => ?_⟩
    rcases List.mem_cons.mp hpage with rfl | hpage
    · exact absurd hbehind (hC hlines e he)
    · exact List.mem_append_right _ (hold page hpage e he hbehind.1)
  | some rows =>
    rw [reduceOption_of_mapM hlines]
    cases rows with
    | nil =>
      refine ⟨fun _ page hpage e he hacs => ?_, fun hdone => by simp at hdone⟩
      rcases List.mem_cons.mp hpage with rfl | hpage
      · simp at he
      · exact .inl (List.mem_append_right _ (hold page hpage e he hacs))
    | cons d rest =>
      refine ⟨fun _ page hpage e he hacs => ?_,
        fun hdone => absurd hdone (applyChangesRows_ne_done _ seq (d :: rest))⟩
      rcases List.mem_cons.mp hpage with rfl | hpage
      · rcases mem_skipped_or_pending (s.client.processChangesResponse nextSeq) he with hs | hp
        · exact .inl (List.mem_append_left _ hs)
        · have hleft := pending_applyChangesRows _ seq (d :: rest)
            ((seq, d :: rest) :: s.returned)
            (((some (d :: rest)).map (s.client.processChangesResponse nextSeq).skipped).getD [] ++
              s.settled) hp
          exact .inr ⟨hleft.1, hleft.2.symm⟩
      · exact .inl (List.mem_append_right _ (hold page hpage e he hacs))

theorem SyncRun.Inv.applied (h : s.Inv) {seq : ℤ} {rest : List Envelope} {e : Envelope}
    (hpoint : s.point = .changesRow seq rest e .track) (c : Client) :
    Inv ⟨c, c.applyChangesRows seq rest, s.returned, c.skipped rest ++ s.settled⟩ := by
  refine ⟨fun _ page hpage d hd hacs => ?_,
    fun hdone => absurd hdone (applyChangesRows_ne_done c seq rest)⟩
  rcases h.running (by simp [hpoint]) page hpage d hd hacs with hsettled | ⟨hun, hcur⟩
  · exact .inl (List.mem_append_right _ hsettled)
  · simp only [unapplied, cursor, hpoint] at hun hcur
    rcases mem_skipped_or_pending c hun with hs | hp
    · exact .inl (List.mem_append_left _ hs)
    · have hleft := pending_applyChangesRows c seq rest s.returned (c.skipped rest ++ s.settled) hp
      exact .inr ⟨hleft.1, hcur.trans hleft.2.symm⟩

theorem SyncRun.Inv.wrote (h : s.Inv) {seq : ℤ} {rest : List Envelope} {e : Envelope}
    {existing : Option AgentRow} (hpoint : s.point = .changesRow seq rest e (.write existing))
    (c : Client) : Inv ⟨c, .changesRow seq rest e .track, s.returned, e :: s.settled⟩ := by
  refine ⟨fun _ page hpage d hd hacs => ?_, by simp⟩
  rcases h.running (by simp [hpoint]) page hpage d hd hacs with hsettled | ⟨hun, hcur⟩
  · exact .inl (List.mem_cons_of_mem _ hsettled)
  · simp only [unapplied, cursor, hpoint, List.mem_cons] at hun hcur
    rcases hun with rfl | hun
    · exact .inl (List.mem_cons_self ..)
    · exact .inr ⟨hun, hcur⟩

theorem SyncRun.Inv.resume (h : s.Inv) {reply : Reply} (hC : RaisesAhead s (.resume reply))
    (ht : s.step (.resume reply) = some t) : t.Inv := by
  obtain ⟨⟨c, p⟩, hnext, rfl⟩ := Option.map_eq_some_iff.mp ht
  obtain ⟨client, point, returned, settled⟩ := s
  cases point with
  | changesRequest seq =>
    cases reply with
    | changes nextSeq lines =>
      obtain ⟨rfl, rfl⟩ := Prod.mk.inj (Option.some.inj hnext)
      exact h.received rfl hC
    | gone => exact h.between (by simp) rfl c p
    | _ => simp [Client.resume] at hnext
  | changesRow seq rest e q =>
    cases reply with
    | ok =>
      cases q with
      | select =>
        obtain ⟨rfl, rfl⟩ := Prod.mk.inj (Option.some.inj hnext)
        exact ⟨fun _ => h.running (by simp), by simp⟩
      | write existing =>
        simp only [Client.resume, resumeApply] at hnext
        cases hw : writeRow client.replica.agents existing e with
        | none =>
          obtain ⟨rfl, rfl⟩ : client = c ∧ SyncPoint.done = p := by simpa [hw] using hnext
          simp only [nowReturned, nowSettled, hw]
          exact h.ends (by simp) (hC hw)
        | some agents =>
          obtain ⟨rfl, rfl⟩ : ⟨⟨client.replica.state, agents⟩, client.forceFullSnapshot⟩ = c ∧
              SyncPoint.changesRow seq rest e .track = p := by simpa [hw] using hnext
          simp only [nowReturned, nowSettled, hw]
          exact h.wrote rfl _
      | track =>
        obtain ⟨rfl, rfl⟩ := Prod.mk.inj (Option.some.inj hnext)
        exact h.applied rfl _
    | _ => simp [Client.resume] at hnext
  | done => cases reply <;> simp [Client.resume] at hnext
  | _ => exact h.between (by simp) rfl c p

theorem SyncRun.Inv.step (h : s.Inv) {a : SyncAct} (hC : RaisesAhead s a) (ht : s.step a = some t) :
    t.Inv := by
  cases a with
  | call =>
    simp only [SyncRun.step] at ht
    split at ht
    · obtain rfl := Option.some.inj ht
      exact ⟨by simp, fun _ page hpage => by simp at hpage⟩
    · simp at ht
  | resume reply => exact h.resume hC ht
  | raise =>
    obtain rfl := Option.some.inj ht
    by_cases hrun : s.point = .done
    · exact ⟨fun hne => absurd rfl hne, fun _ => h.ended hrun⟩
    · exact h.ends hrun hC

theorem SyncRun.inv_start (c : Client) : (SyncRun.start c).Inv :=
  ⟨fun hne => absurd rfl hne, fun _ page hpage => by simp [SyncRun.start] at hpage⟩

end Step

theorem failed_sync_loses_nothing {c : Client} {acts : List SyncAct}
    (h : syncs.Meets RaisesAhead (.start c) acts) : syncs.Meets NothingLost (.start c) acts :=
  syncs.meets_of_invariant (I := SyncRun.Inv) (fun _ _ _ hI hC ht => hI.step hC ht)
    (fun _ _ hI hC _ ht hdone => (hI.step hC ht).ended hdone) (SyncRun.inv_start c) h

def followingClient : Client := ⟨⟨⟨some 0, fun _ _ => none, false⟩, ∅⟩, false⟩

def firstVersion : Envelope := ⟨1, none, none, "acs", "A", 1, none⟩

theorem failed_sync_loses_nothing_at_next_page :
    syncs.Meets NothingLost (.start followingClient)
      [.call, .resume (.changes (some 1) [some firstVersion]), .resume .ok, .resume .ok, .resume .ok,
        .raise] := by
  apply failed_sync_loses_nothing
  refine Transition.System.meets_cons _ trivial rfl ?_
  refine Transition.System.meets_cons _ (fun h => absurd h (by decide)) rfl ?_
  refine Transition.System.meets_cons _ trivial rfl ?_
  refine Transition.System.meets_cons _ (fun h => nomatch h) rfl ?_
  refine Transition.System.meets_cons _ trivial rfl ?_
  exact Transition.System.meets_cons _ (fun _ he => nomatch he) rfl trivial

theorem failed_apply_is_skipped :
    ¬ syncs.Meets NothingLost (.start followingClient)
      [.call, .resume (.changes (some 1) [some firstVersion]), .raise] := by
  intro h
  have hlast := ((h.2 _ rfl).2 _ rfl).1 _ rfl rfl
  have hsettled : firstVersion ∈ ([] : List Envelope) :=
    hlast (0, [firstVersion]) (List.mem_singleton.mpr rfl) firstVersion (List.mem_singleton.mpr rfl)
      ⟨rfl, by decide, 1, rfl, by decide⟩
  simp at hsettled

end Acps.Discovery
