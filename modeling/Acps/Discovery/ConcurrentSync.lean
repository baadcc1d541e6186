import Acps.Discovery.SyncOnce
import Acps.Lib.Transition
import Mathlib.Logic.Function.Basic

/-!
Any number of synchronizations on one client, in every interleaving of their waits and with any
failures: whether the snapshot that was loaded stays in the table.
-/

namespace Acps.Discovery

open Dsp

structure SyncTask where
  point : SyncPoint
  received : List Envelope

structure SyncPool where
  client : Client
  tasks : ℕ → SyncTask
  loaded : List Envelope
  deleted : List Envelope

inductive SyncPoolAct where
  | call (i : ℕ)
  | resume (i : ℕ) (reply : Reply)
  | raise (i : ℕ)

namespace SyncPool

def start (c : Client) : SyncPool := ⟨c, fun _ => ⟨.done, []⟩, [], []⟩

def nowReceived (received : List Envelope) : Reply → List Envelope
  | .snapshot _ rows => rows
  | .chunk rows => received ++ rows
  | _ => received

def nowLoaded (loaded received : List Envelope) : SyncPoint → List Envelope
  | .snapshotDelete => received
  | _ => loaded

def nowDeleted (c : Client) : SyncPoint → Reply → List Envelope
  | .changesRow _ _ e (.write existing), .ok =>
    if e.isDelete ∧ (writeRow c.replica.agents existing e).isSome then [e] else []
  | _, _ => []

def step (s : SyncPool) : SyncPoolAct → Option SyncPool
  | .call i =>
    match (s.tasks i).point with
    | .done => some { s with tasks := Function.update s.tasks i ⟨s.client.syncOnce, []⟩ }
    | _ => none
  | .resume i reply => (s.client.resume (s.tasks i).point reply).map fun (c, p) =>
    let received := nowReceived (s.tasks i).received reply
    { client := c
      tasks := Function.update s.tasks i ⟨p, received⟩
      loaded := nowLoaded s.loaded received p
      deleted := s.deleted ++ nowDeleted s.client (s.tasks i).point reply }
  | .raise i => some { s with tasks := Function.update s.tasks i ⟨.done, (s.tasks i).received⟩ }

end SyncPool

def concurrentSyncs : Transition.System SyncPool SyncPoolAct := ⟨SyncPool.step⟩

namespace Client

def needsSnapshot (c : Client) : Bool := c.replica.state.needsSnapshot

def Stored (c : Client) (e : Envelope) : Prop :=
  ∃ row, c.replica.agents.lookup e.id = some row ∧ e.version ≤ row.version

def Tracks (c : Client) (e : Envelope) : Prop :=
  ∃ v, c.replica.state.objectVersions "acs" e.id = some v ∧ e.version ≤ v

def Covers (c : Client) (seq : ℤ) : Prop := ∃ q, c.replica.state.lastSeq = some q ∧ seq ≤ q

def Deleted (c : Client) (deleted : List Envelope) (e : Envelope) : Prop :=
  ∃ d ∈ deleted, d.id = e.id ∧ e.version < d.version ∧ c.Covers d.seq

end Client

def SyncPool.SnapshotKept (s : SyncPool) : Prop :=
  s.client.needsSnapshot = false → ∀ e ∈ s.loaded,
    s.client.Stored e ∨ s.client.Deleted s.deleted e

def SnapshotSafe (s : SyncPool) (a : SyncPoolAct) : Prop :=
  (∀ t, s.step a = some t → t.SnapshotKept) ∧
    ∀ i reply, a = .resume i reply → (s.tasks i).point = .clear → s.client.needsSnapshot = true

structure SnapshotRow (e : Envelope) : Prop where
  type : e.type = "acs"
  upsert : e.isDelete = false
  pos : 0 < e.version

def SyncPoint.Idle (p : SyncPoint) : Prop := p = .done ∨ p = .log

/-- A synchronization that takes or needs a snapshot is the only one, and the last seq of a page is
not behind the client or the deletes of the page. -/
def SnapshotsAlone (s : SyncPool) : SyncPoolAct → Prop
  | .call _ => s.client.needsSnapshot = true → ∀ j, (s.tasks j).point.Idle
  | .resume i .gone => ∀ j, j ≠ i → (s.tasks j).point.Idle
  | .resume _ (.changes nextSeq lines) =>
    (∀ q next, s.client.replica.state.lastSeq = some q → nextSeq = some next → q ≤ next) ∧
      ∀ e ∈ lines.reduceOption, e.isDelete = true →
        (s.client.processChangesResponse nextSeq).Covers e.seq
  | .resume _ (.snapshot _ rows) | .resume _ (.chunk rows) => ∀ e ∈ rows, SnapshotRow e
  | _ => True

namespace Client

def Backed (c : Client) : Prop :=
  ∀ id v, c.replica.state.objectVersions "acs" id = some v →
    ∃ row, c.replica.agents.lookup id = some row ∧ v ≤ row.version

structure Applying (c : Client) (received rows : List Envelope) : Prop where
  backed : c.Backed
  rows_acs : ∀ d ∈ rows, SnapshotRow d
  received_cases : ∀ d ∈ received, c.Tracks d ∨ d ∈ rows

def Loading (c : Client) (received : List Envelope) : SyncPoint → Prop
  | .done => c.fullSnapshotRequired = true ∨ c.Backed
  | .clear | .forget => c.fullSnapshotRequired = true
  | .snapshotRequest _ => c.Backed
  | .chunkRequest .. => c.Applying received []
  | .snapshotRow _ _ rest e point =>
    c.Applying received (e :: rest) ∧
      currentVersion c.replica.state.objectVersions "acs" e.id < e.version ∧
      match point with
      | .select => True
      | .write existing => existing = c.replica.agents.lookup e.id
      | .track => c.Stored e
  | _ => False

def Following (c : Client) (loaded deleted : List Envelope) : SyncPoint → Prop
  | .changesRow _ rest e point =>
    (∀ d ∈ e :: rest, d.isDelete = true → c.Covers d.seq) ∧ e.type = "acs" ∧
      (∀ l ∈ loaded, l.id = e.id → c.Deleted deleted l ∨ l.version < e.version) ∧
      (point = .track → e.isDelete = true → e ∈ deleted)
  | .snapshotDelete | .indexing | .log | .changesRequest _ | .done => True
  | _ => False

def Kept (c : Client) (loaded deleted : List Envelope) : Prop :=
  ∀ e ∈ loaded, c.Deleted deleted e ∨ c.Stored e ∧ c.Tracks e

end Client

inductive SyncPool.Inv (s : SyncPool) : Prop
  | taking (i : ℕ) (needs : s.client.needsSnapshot = true)
      (alone : ∀ j, j ≠ i → (s.tasks j).point.Idle)
      (loading : s.client.Loading (s.tasks i).received (s.tasks i).point)
  | following (needs : s.client.needsSnapshot = false)
      (tasks : ∀ i, s.client.Following s.loaded s.deleted (s.tasks i).point)
      (kept : s.client.Kept s.loaded s.deleted)

section Loading

variable {c : Client} {received rows : List Envelope} {e : Envelope}

theorem Client.Backed.stored (h : c.Backed) (he : c.Tracks e) : c.Stored e := by
  obtain ⟨v, hv, hle⟩ := he
  obtain ⟨row, hrow, hver⟩ := h e.id v hv
  exact ⟨row, hrow, hle.trans hver⟩

theorem SnapshotRow.tracks (he : SnapshotRow e) (h : accepts c.replica e = false) :
    c.Tracks e := by
  have hle : e.version ≤ currentVersion c.replica.state.objectVersions "acs" e.id := by
    simpa [accepts, shouldApplyEnvelope, he.type] using h
  cases hv : c.replica.state.objectVersions "acs" e.id with
  | none =>
    rw [currentVersion, hv] at hle
    exact absurd he.pos (not_lt.mpr hle)
  | some v => exact ⟨v, hv, by simpa [currentVersion, hv] using hle⟩

theorem Client.Applying.pending (h : c.Applying received rows) :
    c.Applying received (c.pending rows) := by
  induction rows with
  | nil => exact h
  | cons d rows ih =>
    cases hacc : accepts c.replica d with
    | true => rwa [show c.pending (d :: rows) = d :: rows by simp [Client.pending, hacc]]
    | false =>
      rw [show c.pending (d :: rows) = c.pending rows by simp [Client.pending, hacc]]
      refine ih ⟨h.backed, fun e he => h.rows_acs e (.tail d he), fun e he => ?_⟩
      rcases h.received_cases e he with ht | hd
      · exact .inl ht
      · rcases List.mem_cons.mp hd with rfl | hd
        · exact .inl ((h.rows_acs e (.head rows)).tracks hacc)
        · exact .inr hd

theorem pending_head {d : Envelope} {rest : List Envelope} (h : c.pending rows = d :: rest) :
    d.type = "acs" ∧ currentVersion c.replica.state.objectVersions "acs" d.id < d.version := by
  have hacc : accepts c.replica d = true := by
    have := List.head?_dropWhile_not (fun e => !accepts c.replica e) rows
    rw [show rows.dropWhile _ = d :: rest from h] at this
    simpa using this
  rw [accepts, Bool.and_eq_true, decide_eq_true_eq, shouldApplyEnvelope, decide_eq_true_eq] at hacc
  exact ⟨hacc.2, hacc.2 ▸ hacc.1⟩

theorem Client.Applying.applySnapshotRows (h : c.Applying received rows) (info : SnapshotInfo)
    (chunk : ℤ) :
    (∃ p, c.applySnapshotRows info chunk rows = (c, p) ∧ c.Loading received p) ∨
      c.applySnapshotRows info chunk rows = (c.completeSnapshot info.seq, .snapshotDelete) ∧
        ∀ d ∈ received, c.Stored d ∧ c.Tracks d := by
  unfold Client.applySnapshotRows
  have hp := h.pending
  cases hpending : c.pending rows with
  | cons d rest =>
    rw [hpending] at hp
    exact .inl ⟨_, rfl, hp, (pending_head hpending).2, trivial⟩
  | nil =>
    rw [hpending] at hp
    dsimp only
    split
    · exact .inl ⟨_, rfl, hp⟩
    · refine .inr ⟨rfl, fun d hd => ?_⟩
      have ht := (hp.received_cases d hd).resolve_right (List.not_mem_nil)
      exact ⟨hp.backed.stored ht, ht⟩

theorem currentVersion_of_some {versions : String → String → Option ℤ} {type id : String} {v : ℤ}
    (h : versions type id = some v) : currentVersion versions type id = v := by
  rw [currentVersion, h]
  rfl

theorem Client.Applying.write (h : c.Applying received (e :: rows))
    (hlt : currentVersion c.replica.state.objectVersions "acs" e.id < e.version)
    {written : Database}
    (hw : writeRow c.replica.agents (c.replica.agents.lookup e.id) e = some written) :
    Client.Applying ⟨⟨c.replica.state, written⟩, c.forceFullSnapshot⟩ received (e :: rows) ∧
      Client.Stored ⟨⟨c.replica.state, written⟩, c.forceFullSnapshot⟩ e := by
  obtain ⟨written', hw', hlookup⟩ := writeRow_alone c.replica.agents e
  obtain rfl : written = written' := Option.some.inj (hw.symm.trans hw')
  have hrow : ∀ id, written.lookup id =
      if id = e.id then some (envelopeRow e) else c.replica.agents.lookup id := by
    intro id
    rw [hlookup, lookup_applyToDatabase, (h.rows_acs e (.head rows)).upsert]
    rfl
  refine ⟨⟨fun id v hv => ?_, h.rows_acs, h.received_cases⟩, envelopeRow e, ?_, le_refl _⟩
  · rw [hrow]
    by_cases hid : id = e.id
    · subst hid
      rw [currentVersion_of_some hv] at hlt
      exact ⟨envelopeRow e, if_pos rfl, hlt.le⟩
    · rw [if_neg hid]
      exact h.backed id v hv
  · exact (hrow e.id).trans (if_pos rfl)

theorem Client.Applying.track (h : c.Applying received (e :: rows))
    (hlt : currentVersion c.replica.state.objectVersions "acs" e.id < e.version)
    (hstored : c.Stored e) :
    Client.Applying ⟨⟨{ c.replica.state with
      objectVersions := trackVersion c.replica.state.objectVersions e }, c.replica.agents⟩,
      c.forceFullSnapshot⟩ received rows := by
  have he := h.rows_acs e (.head rows)
  have htrack : ∀ id, trackVersion c.replica.state.objectVersions e "acs" id =
      if id = e.id then some e.version else c.replica.state.objectVersions "acs" id := by
    intro id
    rw [trackVersion_apply, he.type, he.upsert]
    simp
  have htracked : ∀ d : Envelope, d.id = e.id → d.version ≤ e.version →
      ∃ v, trackVersion c.replica.state.objectVersions e "acs" d.id = some v ∧ d.version ≤ v :=
    fun d hid hle => ⟨e.version, (htrack d.id).trans (if_pos hid), hle⟩
  refine ⟨fun id v hv => ?_, fun d hd => h.rows_acs d (.tail e hd), fun d hd => ?_⟩
  · by_cases hid : id = e.id
    · subst hid
      obtain rfl : e.version = v := by simpa using (htrack e.id).symm.trans hv
      exact hstored
    · exact h.backed id v (((htrack id).trans (if_neg hid)).symm.trans hv)
  · rcases h.received_cases d hd with ⟨v, hv, hle⟩ | hd
    · by_cases hid : d.id = e.id
      · rw [← hid, currentVersion_of_some hv] at hlt
        exact .inl (htracked d hid (hle.trans hlt.le))
      · exact .inl ⟨v, ((htrack d.id).trans (if_neg hid)).trans hv, hle⟩
    · rcases List.mem_cons.mp hd with rfl | hd
      · exact .inl (htracked d rfl (le_refl _))
      · exact .inr hd

theorem Client.Loading.resume {s : SyncPool} {i : ℕ} {reply : Reply} {p p' : SyncPoint}
    {c' : Client} (h : c.Loading received p) (hC : SnapshotsAlone s (.resume i reply))
    (hr : c.resume p reply = some (c', p')) :
    c'.needsSnapshot = c.needsSnapshot ∧ c'.Loading (SyncPool.nowReceived received reply) p' ∧
        p' ≠ .snapshotDelete ∨
      c'.needsSnapshot = false ∧ p' = .snapshotDelete ∧
        ∀ d ∈ SyncPool.nowReceived received reply, c'.Stored d ∧ c'.Tracks d := by
  have hrows : ∀ {c : Client} {received rows : List Envelope} {info : SnapshotInfo} {chunk : ℤ},
      c.Applying received rows → c.applySnapshotRows info chunk rows = (c', p') →
      c'.needsSnapshot = c.needsSnapshot ∧ c'.Loading received p' ∧ p' ≠ .snapshotDelete ∨
        c'.needsSnapshot = false ∧ p' = .snapshotDelete ∧
          ∀ d ∈ received, c'.Stored d ∧ c'.Tracks d := by
    intro c received rows info chunk ha heq
    rcases ha.applySnapshotRows info chunk with ⟨q, hq, hl⟩ | ⟨hq, hheld⟩
    · obtain ⟨rfl, rfl⟩ := Prod.mk.inj (hq.symm.trans heq)
      exact .inl ⟨rfl, hl, fun hp => by rw [hp] at hl; exact hl⟩
    · obtain ⟨rfl, rfl⟩ := Prod.mk.inj (hq.symm.trans heq)
      exact .inr ⟨rfl, rfl, hheld⟩
  cases p with
  | clear =>
    cases reply with
    | ok =>
      obtain ⟨rfl, rfl⟩ := Prod.mk.inj (Option.some.inj hr)
      exact .inl ⟨rfl, h, fun hp => by cases hp⟩
    | _ => cases hr
  | forget =>
    cases reply with
    | ok =>
      obtain ⟨rfl, rfl⟩ := Prod.mk.inj (Option.some.inj hr)
      refine .inl ⟨rfl, ?_, fun hp => by cases hp⟩
      intro id v hv
      cases hv
    | _ => cases hr
  | snapshotRequest _ =>
    cases reply with
    | snapshot info rows => exact hrows ⟨h, hC, fun _ hd => .inr hd⟩ (Option.some.inj hr)
    | _ => cases hr
  | chunkRequest info chunk =>
    cases reply with
    | chunk rows =>
      have hgot : ∀ d ∈ received ++ rows, c.Tracks d ∨ d ∈ rows := fun d hd =>
        (List.mem_append.mp hd).imp (fun hd => (h.received_cases d hd).resolve_right (by simp)) id
      exact hrows ⟨h.backed, hC, hgot⟩ (Option.some.inj hr)
    | _ => cases hr
  | snapshotRow info chunk rest e point =>
    obtain ⟨happly, hlt, hpoint⟩ := h
    cases reply with
    | ok =>
      cases point with
      | select =>
        obtain ⟨rfl, rfl⟩ := Prod.mk.inj (Option.some.inj hr)
        exact .inl ⟨rfl, ⟨happly, hlt, rfl⟩, fun hp => by cases hp⟩
      | write existing =>
        obtain rfl : existing = _ := hpoint
        cases hw : writeRow c.replica.agents (c.replica.agents.lookup e.id) e with
        | none =>
          rw [Client.resume, resumeApply, hw] at hr
          obtain ⟨rfl, rfl⟩ := Prod.mk.inj (Option.some.inj hr)
          exact .inl ⟨rfl, .inr happly.backed, fun hp => by cases hp⟩
        | some written =>
          rw [Client.resume, resumeApply, hw] at hr
          obtain ⟨rfl, rfl⟩ := Prod.mk.inj (Option.some.inj hr)
          obtain ⟨ha, hs⟩ := happly.write hlt hw
          exact .inl ⟨rfl, ⟨ha, hlt, hs⟩, fun hp => by cases hp⟩
      | track =>
        have hnext := hrows (happly.track hlt hpoint) (Option.some.inj hr)
        exact hnext
    | _ => cases hr
  | done => cases hr
  | _ => exact h.elim

theorem Client.Loading.based {p : SyncPoint} (h : c.Loading received p) :
    c.fullSnapshotRequired = true ∨ c.Backed := by
  cases p with
  | done => exact h
  | clear => exact .inl h
  | forget => exact .inl h
  | snapshotRequest _ => exact .inr h
  | chunkRequest _ _ => exact .inr h.backed
  | snapshotRow _ _ _ _ _ => exact .inr h.1.backed
  | _ => exact h.elim

end Loading

section Following

variable {c c' : Client} {loaded deleted deleted' : List Envelope} {e : Envelope}

theorem Client.Deleted.mono (hcovers : ∀ seq, c.Covers seq → c'.Covers seq)
    (hdeleted : deleted ⊆ deleted') (h : c.Deleted deleted e) : c'.Deleted deleted' e := by
  obtain ⟨d, hd, hid, hlt, hc⟩ := h
  exact ⟨d, hdeleted hd, hid, hlt, hcovers d.seq hc⟩

theorem Client.Following.mono {p : SyncPoint} (hcovers : ∀ seq, c.Covers seq → c'.Covers seq)
    (hdeleted : deleted ⊆ deleted') (h : c.Following loaded deleted p) :
    c'.Following loaded deleted' p := by
  cases p with
  | changesRow _ rest e point =>
    obtain ⟨hseqs, hacs, hnewer, htrack⟩ := h
    exact ⟨fun d hd hop => hcovers d.seq (hseqs d hd hop), hacs,
      fun l hl hid => (hnewer l hl hid).imp_left (.mono hcovers hdeleted),
      fun hp hop => hdeleted (htrack hp hop)⟩
  | snapshotDelete | indexing | log | changesRequest _ | done => trivial
  | _ => exact h.elim

theorem Client.Kept.applyChangesRows (h : c.Kept loaded deleted) (seq : ℤ) {rows : List Envelope}
    (hseqs : ∀ d ∈ rows, d.isDelete = true → c.Covers d.seq) :
    c.Following loaded deleted (c.applyChangesRows seq rows) ∧
      c.applyChangesRows seq rows ≠ .snapshotDelete := by
  unfold Client.applyChangesRows
  cases hpending : c.pending rows with
  | nil => exact ⟨trivial, nofun⟩
  | cons d rest =>
    obtain ⟨hacs, hlt⟩ := pending_head hpending
    have hsub : d :: rest ⊆ rows := hpending ▸ (List.dropWhile_suffix _).subset
    refine ⟨⟨fun e he => hseqs e (hsub he), hacs, fun l hl hid => ?_, nofun⟩, nofun⟩
    refine (h l hl).imp_right fun ⟨_, v, hv, hle⟩ => ?_
    rw [← hid, currentVersion_of_some hv] at hlt
    exact hle.trans_lt hlt

theorem Client.Kept.mono (hagents : c'.replica.agents = c.replica.agents)
    (hversions : c'.replica.state.objectVersions = c.replica.state.objectVersions)
    (hcovers : ∀ seq, c.Covers seq → c'.Covers seq) (h : c.Kept loaded deleted) :
    c'.Kept loaded deleted := by
  intro l hl
  rcases h l hl with hd | hheld
  · exact .inl (hd.mono hcovers (List.Subset.refl _))
  · rw [Client.Stored, Client.Tracks, hagents, hversions]
    exact .inr hheld

theorem Client.Kept.write (h : c.Kept loaded deleted) {existing : Option AgentRow}
    (hnewer : ∀ l ∈ loaded, l.id = e.id → c.Deleted deleted l ∨ l.version < e.version)
    (hcovers : e.isDelete = true → c.Covers e.seq) {written : Database}
    (hw : writeRow c.replica.agents existing e = some written)
    (hdeleted : deleted ⊆ deleted') (hop : e.isDelete = true → e ∈ deleted') :
    Client.Kept ⟨⟨c.replica.state, written⟩, c.forceFullSnapshot⟩ loaded deleted' := by
  have hwritten := writeRow_written hw
  intro l hl
  rcases h l hl with hd | ⟨⟨row, hrow, hle⟩, htracks⟩
  · exact .inl (hd.mono (fun _ hc => hc) hdeleted)
  · by_cases hid : l.id = e.id
    · rcases hnewer l hl hid with hd | hlt
      · exact .inl (hd.mono (fun _ hc => hc) hdeleted)
      · cases hdel : e.isDelete with
        | true => exact .inl ⟨e, hop hdel, hid.symm, hlt, hcovers hdel⟩
        | false =>
          obtain ⟨row', hrow'⟩ := hwritten.lookup_upsert hdel (hid ▸ hrow)
          refine .inr ⟨⟨row', hid ▸ hrow', ?_⟩, htracks⟩
          rcases hwritten.version hrow' with ⟨before, hbefore, hv⟩ | ⟨_, hv⟩
          · obtain rfl : row = before := Option.some.inj ((hid ▸ hrow).symm.trans hbefore)
            rwa [hv]
          · exact hv ▸ hlt.le
    · exact .inr ⟨⟨row, (hwritten.lookup_ne hid).trans hrow, hle⟩, htracks⟩

theorem Client.Kept.track (h : c.Kept loaded deleted) (hacs : e.type = "acs")
    (hnewer : ∀ l ∈ loaded, l.id = e.id → c.Deleted deleted l ∨ l.version < e.version)
    (hcovers : e.isDelete = true → c.Covers e.seq) (hop : e.isDelete = true → e ∈ deleted) :
    Client.Kept ⟨⟨{ c.replica.state with
      objectVersions := trackVersion c.replica.state.objectVersions e }, c.replica.agents⟩,
      c.forceFullSnapshot⟩ loaded deleted := by
  intro l hl
  refine (h l hl).elim .inl fun ⟨hstored, v, hv, hle⟩ => ?_
  have htrack := trackVersion_apply c.replica.state.objectVersions e "acs" l.id
  rw [hacs] at htrack
  by_cases hid : l.id = e.id
  · rcases hnewer l hl hid with hd | hlt
    · exact .inl hd
    · cases hdel : e.isDelete with
      | true => exact .inl ⟨e, hop hdel, hid.symm, hlt, hcovers hdel⟩
      | false =>
        refine .inr ⟨hstored, e.version, ?_, hlt.le⟩
        simpa [hid, hdel] using htrack
  · refine .inr ⟨hstored, v, ?_, hle⟩
    rwa [if_neg (fun hand => hid hand.2), hv] at htrack

theorem covers_processChangesResponse {nextSeq : Option ℤ} (h : ∀ q next,
    c.replica.state.lastSeq = some q → nextSeq = some next → q ≤ next) (seq : ℤ) :
    c.Covers seq → (c.processChangesResponse nextSeq).Covers seq := by
  rintro ⟨q, hq, hle⟩
  cases nextSeq with
  | none => exact ⟨q, hq, hle⟩
  | some next => exact ⟨next, rfl, hle.trans (h q next hq rfl)⟩

structure Client.Follows (c c' : Client) (loaded deleted : List Envelope) (p' : SyncPoint) :
    Prop where
  needs : c'.needsSnapshot = false
  covers : ∀ seq, c.Covers seq → c'.Covers seq
  next : c'.Following loaded deleted p'
  kept : c'.Kept loaded deleted
  loads_none : p' ≠ .snapshotDelete

theorem Client.Kept.receiveChanges (h : c.Kept loaded deleted) (hneeds : c.needsSnapshot = false)
    (seq : ℤ) {nextSeq : Option ℤ} {lines : List (Option Envelope)}
    (hforward : ∀ q next, c.replica.state.lastSeq = some q → nextSeq = some next → q ≤ next)
    (hseqs : ∀ d ∈ lines.reduceOption, d.isDelete = true →
      (c.processChangesResponse nextSeq).Covers d.seq) :
    c.Follows (c.receiveChanges seq nextSeq lines).1 loaded deleted
      (c.receiveChanges seq nextSeq lines).2 := by
  have hcovers := covers_processChangesResponse hforward
  have hkept : (c.processChangesResponse nextSeq).Kept loaded deleted := by
    refine h.mono ?_ ?_ hcovers <;> cases nextSeq <;> rfl
  have hneeds : (c.processChangesResponse nextSeq).needsSnapshot = false := by
    cases nextSeq <;> exact hneeds
  unfold Client.receiveChanges
  cases hlines : lines.mapM id with
  | none => exact ⟨hneeds, hcovers, trivial, hkept, nofun⟩
  | some rows =>
    rw [reduceOption_of_mapM hlines] at hseqs
    cases rows with
    | nil => exact ⟨hneeds, hcovers, trivial, hkept, nofun⟩
    | cons d rows =>
      obtain ⟨hnext, hne⟩ := hkept.applyChangesRows seq hseqs
      exact ⟨hneeds, hcovers, hnext, hkept, hne⟩

theorem Client.Kept.resumeRow (hkept : c.Kept loaded deleted) (hneeds : c.needsSnapshot = false)
    {seq : ℤ} {rest : List Envelope} {point : ApplyPoint} {p' : SyncPoint}
    (h : c.Following loaded deleted (.changesRow seq rest e point))
    (hr : c.resume (.changesRow seq rest e point) .ok = some (c', p')) :
    c.Follows c' loaded
      (deleted ++ SyncPool.nowDeleted c (.changesRow seq rest e point) .ok) p' := by
  obtain ⟨hseqs, hacs, hnewer, htrack⟩ := h
  cases point with
  | select =>
    obtain ⟨rfl, rfl⟩ := Prod.mk.inj (Option.some.inj hr)
    dsimp only [SyncPool.nowDeleted]
    rw [List.append_nil]
    exact ⟨hneeds, fun _ hc => hc, ⟨hseqs, hacs, hnewer, fun hp => by cases hp⟩, hkept, fun hp => by cases hp⟩
  | write existing =>
    dsimp only [SyncPool.nowDeleted]
    cases hw : writeRow c.replica.agents existing e with
    | none =>
      rw [Client.resume, resumeApply, hw] at hr
      obtain ⟨rfl, rfl⟩ := Prod.mk.inj (Option.some.inj hr)
      rw [if_neg (by simp), List.append_nil]
      exact ⟨hneeds, fun _ hc => hc, trivial, hkept, fun hp => by cases hp⟩
    | some written =>
      rw [Client.resume, resumeApply, hw] at hr
      obtain ⟨rfl, rfl⟩ := Prod.mk.inj (Option.some.inj hr)
      have hsub := List.subset_append_left deleted
        (if e.isDelete = true ∧ (some written).isSome = true then [e] else [])
      have hop : e.isDelete = true → e ∈ deleted ++
          if e.isDelete = true ∧ (some written).isSome = true then [e] else [] := by
        intro hdel
        rw [if_pos ⟨hdel, rfl⟩]
        exact List.mem_append_right _ (.head _)
      have hnewer' := fun l hl hid => (hnewer l hl hid).imp_left
        (Client.Deleted.mono (fun _ hc => hc) hsub)
      exact ⟨hneeds, fun _ hc => hc, ⟨hseqs, hacs, hnewer', fun _ => hop⟩,
        hkept.write hnewer (hseqs e (.head rest)) hw hsub hop, fun hp => by cases hp⟩
  | track =>
    obtain ⟨rfl, rfl⟩ := Prod.mk.inj (Option.some.inj hr)
    dsimp only [SyncPool.nowDeleted]
    rw [List.append_nil]
    have hkept' := hkept.track hacs hnewer (hseqs e (.head rest)) (htrack rfl)
    obtain ⟨hnext, hne⟩ := hkept'.applyChangesRows seq fun d hd => hseqs d (.tail e hd)
    exact ⟨hneeds, fun _ hc => hc, hnext, hkept', hne⟩

theorem Client.Following.resume {s : SyncPool} {i : ℕ} {reply : Reply} {p p' : SyncPoint}
    (h : s.client.Following loaded deleted p) (hkept : s.client.Kept loaded deleted)
    (hneeds : s.client.needsSnapshot = false) (hC : SnapshotsAlone s (.resume i reply))
    (hr : s.client.resume p reply = some (c', p')) :
    reply = .gone ∧ c'.needsSnapshot = true ∧ p' = .clear ∧ c'.fullSnapshotRequired = true ∨
      s.client.Follows c' loaded (deleted ++ SyncPool.nowDeleted s.client p reply) p' := by
  cases p with
  | snapshotDelete | indexing | log =>
    cases reply with
    | ok =>
      obtain ⟨rfl, rfl⟩ := Prod.mk.inj (Option.some.inj hr)
      dsimp only [SyncPool.nowDeleted]
      rw [List.append_nil]
      exact .inr ⟨hneeds, fun _ hc => hc, trivial, hkept, nofun⟩
    | _ => nomatch hr
  | changesRequest seq =>
    cases reply with
    | changes nextSeq lines =>
      obtain ⟨rfl, rfl⟩ := Prod.mk.inj (Option.some.inj hr)
      dsimp only [SyncPool.nowDeleted]
      rw [List.append_nil]
      exact .inr (hkept.receiveChanges hneeds seq hC.1 hC.2)
    | gone =>
      obtain ⟨rfl, rfl⟩ := Prod.mk.inj (Option.some.inj hr)
      exact .inl ⟨rfl, rfl, rfl, rfl⟩
    | _ => nomatch hr
  | changesRow seq rest e point =>
    cases reply with
    | ok => exact .inr (hkept.resumeRow hneeds h hr)
    | _ => nomatch hr
  | done => nomatch hr
  | _ => exact h.elim

end Following

section Runs

variable {c : Client} {s t : SyncPool} {a : SyncPoolAct}

theorem SyncPool.Inv.start (h : c.replica.Tracked) : (SyncPool.start c).Inv := by
  cases hneeds : c.needsSnapshot with
  | true =>
    refine .taking 0 hneeds (fun _ _ => .inl rfl) (.inr fun id v hv => ?_)
    obtain ⟨row, hrow, hv⟩ := Option.map_eq_some_iff.mp ((h id).symm.trans hv)
    exact ⟨row, hrow, hv.ge⟩
  | false => exact .following hneeds (fun _ => trivial) nofun

variable {tasks : ℕ → SyncTask} {task : SyncTask} {loaded deleted : List Envelope} {i : ℕ}

theorem nowLoaded_of_ne {received : List Envelope} {p : SyncPoint} (h : p ≠ .snapshotDelete) :
    SyncPool.nowLoaded loaded received p = loaded := by
  unfold SyncPool.nowLoaded
  split
  · exact absurd rfl h
  · rfl

theorem syncOnce_needed (h : c.needsSnapshot = true) : c.syncOnce =
    if c.fullSnapshotRequired then .clear else .snapshotRequest c.replica.state.lastSeq :=
  if_pos h

theorem syncOnce_current (h : c.needsSnapshot = false) :
    c.syncOnce = .changesRequest (c.replica.state.lastSeq.getD 0) :=
  if_neg (ne_true_of_eq_false h)

theorem SyncPool.Inv.taking_update (needs : c.needsSnapshot = true)
    (alone : ∀ k, k ≠ i → (tasks k).point.Idle) (loading : c.Loading task.received task.point) :
    Inv ⟨c, Function.update tasks i task, loaded, deleted⟩ := by
  refine .taking i needs (fun k hk => ?_) ?_ <;> dsimp only
  · rw [Function.update_of_ne hk]
    exact alone k hk
  · rw [Function.update_self]
    exact loading

theorem SyncPool.Inv.taking_ended {j : ℕ} (hij : i ≠ j) (needs : c.needsSnapshot = true)
    (alone : ∀ k, k ≠ j → (tasks k).point.Idle)
    (loading : c.Loading (tasks j).received (tasks j).point) (hdone : task.point = .done) :
    Inv ⟨c, Function.update tasks i task, loaded, deleted⟩ := by
  refine .taking j needs (fun k hk => ?_) ?_ <;> dsimp only
  · by_cases hki : k = i
    · rw [hki, Function.update_self]
      exact .inl hdone
    · rw [Function.update_of_ne hki]
      exact alone k hk
  · rw [Function.update_of_ne hij.symm]
    exact loading

theorem SyncPool.Inv.following_update (needs : c.needsSnapshot = false)
    (others : ∀ k, k ≠ i → c.Following loaded deleted (tasks k).point)
    (next : c.Following loaded deleted task.point) (kept : c.Kept loaded deleted) :
    Inv ⟨c, Function.update tasks i task, loaded, deleted⟩ := by
  refine .following needs (fun k => ?_) kept
  dsimp only
  by_cases hk : k = i
  · rw [hk, Function.update_self]
    exact next
  · rw [Function.update_of_ne hk]
    exact others k hk

theorem SyncPool.Inv.call (h : s.Inv) (hC : SnapshotsAlone s (.call i))
    (ht : s.step (.call i) = some t) : t.Inv := by
  rw [SyncPool.step] at ht
  split at ht
  · obtain rfl := Option.some.inj ht
    cases h with
    | taking j needs alone loading =>
      refine .taking_update needs (fun k _ => hC needs k) ?_
      dsimp only
      rw [syncOnce_needed needs]
      split
      · next hfull => exact hfull
      · next hfull => exact loading.based.resolve_left hfull
    | following needs tasks kept =>
      refine .following_update needs (fun k _ => tasks k) ?_ kept
      rw [syncOnce_current needs]
      trivial
  · cases ht

theorem SyncPool.Inv.raise (h : s.Inv) (ht : s.step (.raise i) = some t) : t.Inv := by
  obtain rfl := Option.some.inj ht
  cases h with
  | taking j needs alone loading =>
    by_cases hij : i = j
    · subst hij
      exact .taking_update needs alone loading.based
    · exact .taking_ended hij needs alone loading rfl
  | following needs tasks kept =>
    exact .following_update needs (fun k _ => tasks k) trivial kept

theorem SyncPool.Inv.resume (h : s.Inv) {reply : Reply} (hC : SnapshotsAlone s (.resume i reply))
    (ht : s.step (.resume i reply) = some t) : t.Inv := by
  obtain ⟨⟨c', p'⟩, hr, rfl⟩ := Option.map_eq_some_iff.mp ht
  cases h with
  | taking j needs alone loading =>
    by_cases hij : i = j
    · subst hij
      rcases loading.resume hC hr with ⟨hneeds, hnext, _⟩ | ⟨hneeds, rfl, hheld⟩
      · exact .taking_update (hneeds.trans needs) alone hnext
      · refine .following_update hneeds (fun k hk => ?_) trivial fun e he => .inr (hheld e he)
        rcases alone k hk with hp | hp <;> rw [hp] <;> trivial
    · rcases alone i hij with hp | hp <;> rw [hp] at hr
      · cases hr
      · cases reply with
        | ok =>
          obtain ⟨rfl, rfl⟩ := Prod.mk.inj (Option.some.inj hr)
          exact .taking_ended hij needs alone loading rfl
        | _ => nomatch hr
  | following needs tasks kept =>
    rcases (tasks i).resume kept needs hC hr with ⟨rfl, hneeds, rfl, hfull⟩ | hfollows
    · exact .taking_update hneeds hC hfull
    · dsimp only
      rw [nowLoaded_of_ne hfollows.loads_none]
      exact .following_update hfollows.needs
        (fun k _ => (tasks k).mono hfollows.covers (List.subset_append_left _ _))
        hfollows.next hfollows.kept

theorem SyncPool.Inv.step (h : s.Inv) (hC : SnapshotsAlone s a) (ht : s.step a = some t) :
    t.Inv := by
  cases a with
  | call i => exact h.call hC ht
  | resume i reply => exact h.resume hC ht
  | raise i => exact h.raise ht

theorem SyncPool.Inv.snapshotKept (h : s.Inv) : s.SnapshotKept := by
  intro hneeds e he
  cases h with
  | taking i needs => rw [hneeds] at needs; cases needs
  | following _ _ kept => exact (kept e he).elim .inr fun hheld => .inl hheld.1

theorem SyncPool.Inv.clears_needed (h : s.Inv) {i : ℕ} (hp : (s.tasks i).point = .clear) :
    s.client.needsSnapshot = true := by
  cases h with
  | taking j needs => exact needs
  | following _ tasks =>
    have htask := tasks i
    rw [hp] at htask
    exact htask.elim

theorem concurrent_syncs_keep_snapshot (hc : c.replica.Tracked) {acts : List SyncPoolAct}
    (h : concurrentSyncs.Meets SnapshotsAlone (.start c) acts) :
    concurrentSyncs.Meets SnapshotSafe (.start c) acts := by
  refine concurrentSyncs.meets_of_invariant (fun s a t hI hC ht => hI.step hC ht) ?_
    (SyncPool.Inv.start hc) h
  intro s a hI hC
  exact ⟨fun t ht => (hI.step hC ht).snapshotKept, fun i reply _ hp => hI.clears_needed hp⟩

end Runs

theorem concurrent_syncs_keep_snapshot_two :
    concurrentSyncs.Meets SnapshotSafe (.start ⟨.empty, false⟩)
      [.call 0, .resume 0 .ok, .resume 0 .ok,
        .resume 0 (.snapshot ⟨1, 1⟩ [⟨1, none, none, "acs", "A", 1, none⟩]),
        .resume 0 .ok, .resume 0 .ok, .resume 0 .ok, .call 1, .raise 0] := by
  apply concurrent_syncs_keep_snapshot tracked_empty
  refine Transition.System.meets_cons _ (fun _ _ => .inl rfl) rfl ?_
  refine Transition.System.meets_cons _ trivial rfl ?_
  refine Transition.System.meets_cons _ trivial rfl ?_
  refine Transition.System.meets_cons _ ?_ rfl ?_
  · intro e he
    obtain rfl := List.mem_singleton.mp he
    exact ⟨rfl, rfl, by decide⟩
  refine Transition.System.meets_cons _ trivial rfl ?_
  refine Transition.System.meets_cons _ trivial rfl ?_
  refine Transition.System.meets_cons _ trivial rfl ?_
  refine Transition.System.meets_cons _ (fun hneeds => nomatch hneeds) rfl ?_
  exact Transition.System.meets_cons _ trivial rfl trivial

theorem second_sync_clears_snapshot :
    ¬ concurrentSyncs.Meets SnapshotSafe (.start ⟨.empty, false⟩)
      [.call 0, .call 1, .resume 0 .ok, .resume 0 .ok,
        .resume 0 (.snapshot ⟨1, 1⟩ [⟨1, none, none, "acs", "A", 1, none⟩]),
        .resume 0 .ok, .resume 0 .ok, .resume 0 .ok, .resume 1 .ok] := by
  intro h
  have hlast := ((((((((h.2 _ rfl).2 _ rfl).2 _ rfl).2 _ rfl).2 _ rfl).2 _ rfl).2 _ rfl).2 _ rfl).1
  rcases hlast.1 _ rfl rfl _ (List.mem_singleton.mpr rfl) with ⟨row, hrow, _⟩ | ⟨d, hd, _⟩
  · nomatch hrow
  · nomatch hd

end Acps.Discovery
