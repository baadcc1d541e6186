import Acps.Discovery.ApplyOrder
import Acps.Registry.Feed
import Acps.Registry.Published
import Acps.Registry.SnapshotChunks

/-!
One synchronization of a client with a registry that stands still, when no request fails: the
snapshot, which comes in chunks, and the changes, which come in pages.
-/

namespace Acps.Dsp

open Registry Paging Discovery

variable {H : Type}

section Model

variable (loads : String → Option Json) (t : Tables H)

def sendSnapshot (limit : ℤ) (fromSeq : Option ℤ) : Except Failure (Snapshot × List Envelope) := do
  let (snapshot, table, first) ← createSnapshot loads t ["acs"] limit fromSeq
  let rest ← (List.range (snapshot.chunkTotal.toNat - 1)).mapM fun i =>
    buildEnvelopes loads (selectChunk table limit.toNat ((i + 1) * limit.toNat))
  return (snapshot, first ++ rest.flatten)

def syncSnapshot (limit : ℤ) (forceFull : Bool) (r : Replica) : Except Failure Replica :=
  let full := forceFull || r.state.lastSeq.getD 0 = 0
  let base := if full then clearLocalSnapshotData r else r
  (sendSnapshot loads t limit (if full then none else r.state.lastSeq)).map fun (snapshot, es) =>
    let r := updateLastSeq snapshot.seq (base.applyAll es)
    ⟨{ r.state with needsSnapshot := false }, r.agents⟩

def syncChangesContinuously (limit : ℤ) : ℕ → ℤ → Replica → Option (Except Failure Replica)
  | 0, _, _ => none
  | fuel + 1, seq, r =>
    match getChanges loads t.log.changeLog (some seq) limit (some ["acs"]) with
    | .error f => some (.error f)
    | .ok ([], nextSeq) => some (.ok (updateLastSeq nextSeq r))
    | .ok (e :: es, nextSeq) =>
      syncChangesContinuously limit fuel nextSeq ((updateLastSeq nextSeq r).applyAll (e :: es))

structure SyncSettings where
  limits : ChangesLimits
  changesChunkSize : ℤ
  snapshotChunkSize : ℤ
  snapshotChunkSize_pos : 0 < snapshotChunkSize

def syncOnce (settings : SyncSettings) (fuel : ℕ) (forceFull : Bool) (r : Replica) :
    Option (Except Failure Replica) :=
  if r.state.needsSnapshot then
    some (syncSnapshot loads t settings.snapshotChunkSize forceFull r)
  else
    (syncChangesContinuously loads t
      (normalizeChangesLimit settings.limits settings.changesChunkSize) fuel
      (r.state.lastSeq.getD 0) r).map fun result =>
        if isGone result then syncSnapshot loads t settings.snapshotChunkSize true r else result

end Model

def ActiveInRegistry (π : Platform H) (t : Tables H) (x : String) (v : ℤ) (o : JsonObject) : Prop :=
  ∃ a ∈ t.agents, a.isActive = true ∧ a.isDeleted = false ∧ a.aic = some x ∧
    loadAgentAcsData π a.acs = some o ∧ a.acsVersion = v

def ActiveLocally (agents : Database) (x : String) (v : ℤ) (o : JsonObject) : Prop :=
  ∃ row, agents.lookup x = some row ∧ row.version = v ∧ row.acs = some o ∧
    o.get "active" = some (.bool true)

def SameActive (π : Platform H) (t : Tables H) (agents : Database) : Prop :=
  ∀ x v o, ActiveLocally agents x v o ↔ ActiveInRegistry π t x v o

structure NewestEntry (log : LogState) (x : String) (c : ChangeLog) : Prop where
  mem : c ∈ log.everAppended
  id : c.id = x
  newest : ∀ d ∈ log.everAppended, d.id = x → d.seq ≤ c.seq

section Log

variable {π : Platform H} {t : Tables H} {x : String}

theorem NewestEntry.unique (h : t.Published π) {c d : ChangeLog} (hc : NewestEntry t.log x c)
    (hd : NewestEntry t.log x d) : c = d :=
  h.consistent.log.ascending.eq_of_key hc.mem hd.mem
    ((hd.newest c hc.mem hc.id).antisymm (hc.newest d hd.mem hd.id))

theorem exists_newestEntry (h : t.Published π) {c : ChangeLog} (hc : c ∈ t.log.everAppended)
    (hid : c.id = x) : ∃ d, NewestEntry t.log x d := by
  obtain ⟨a, ha, howned⟩ := h.owned c hc
  obtain ⟨o, ho⟩ := Option.isSome_iff_exists.mp howned.acs
  obtain ⟨d, hd, hdx, _, _, _, hmax⟩ := (h.current a ha c.id o howned.aic ho).newest
  exact ⟨d, hd, hdx.trans hid, fun e he hex => hmax e he (hex.trans hid.symm)⟩

theorem newestEntry_of_agent (h : t.Published π) {a : Agent H} (ha : a ∈ t.agents)
    (hx : a.aic = some x) {o : JsonObject} (ho : loadAgentAcsData π a.acs = some o) :
    ∃ c, NewestEntry t.log x c ∧ a.acsLastSeq = some c.seq ∧ c.version = a.acsVersion ∧
      c.payload = some (.obj o) := by
  obtain ⟨c, hc, hcx, hseq, hver, hpay, hmax⟩ := (h.current a ha x o hx ho).newest
  exact ⟨c, ⟨hc, hcx, hmax⟩, hseq, hver, hpay⟩

theorem agent_of_newestEntry (h : t.Published π) {c : ChangeLog} (hc : NewestEntry t.log x c) :
    ∃ a ∈ t.agents, ∃ o, a.aic = some x ∧ loadAgentAcsData π a.acs = some o ∧
      a.acsLastSeq = some c.seq ∧ c.version = a.acsVersion ∧ c.payload = some (.obj o) ∧
        getOrNone o "active" = some (.bool a.isActive) := by
  obtain ⟨a, ha, howned⟩ := h.owned c hc.mem
  obtain ⟨o, ho⟩ := Option.isSome_iff_exists.mp howned.acs
  have hx : a.aic = some x := hc.id ▸ howned.aic
  obtain ⟨d, hd, hseq, hver, hpay⟩ := newestEntry_of_agent h ha hx ho
  obtain rfl := hd.unique h hc
  exact ⟨a, ha, o, hx, ho, hseq, hver, hpay, (h.current a ha x o hx ho).reflects.active⟩

theorem getOrNone_active {o : JsonObject} {b : Bool} :
    getOrNone o "active" = some (.bool b) ↔ o.get "active" = some (.bool b) := by
  simp only [getOrNone, Option.filter_eq_some_iff]
  simp

theorem activeInRegistry_iff (h : t.Published π) {v : ℤ} {o : JsonObject} :
    ActiveInRegistry π t x v o ↔ ∃ c, NewestEntry t.log x c ∧ c.version = v ∧
      c.payload = some (.obj o) ∧ o.get "active" = some (.bool true) := by
  constructor
  · rintro ⟨a, ha, hact, _, hx, ho, rfl⟩
    obtain ⟨c, hc, _, hver, hpay⟩ := newestEntry_of_agent h ha hx ho
    have hreflects := (h.current a ha x o hx ho).reflects.active
    rw [hact] at hreflects
    exact ⟨c, hc, hver, hpay, getOrNone_active.mp hreflects⟩
  · rintro ⟨c, hc, rfl, hpay, hact⟩
    obtain ⟨a, ha, p, hx, ho, _, hver, hp, hreflects⟩ := agent_of_newestEntry h hc
    obtain rfl : p = o := by simpa [hp] using hpay
    have hactive : a.isActive = true := by
      have := hreflects.symm.trans (getOrNone_active.mpr hact)
      simpa using this
    have hdel : a.isDeleted = false := by
      rw [← Bool.not_eq_true]
      intro hdel
      rw [h.inactive a ha hdel] at hactive
      exact absurd hactive (by simp)
    exact ⟨a, ha, hactive, hdel, hx, ho, hver.symm⟩

end Log

section Transfer

variable {loads : String → Option Json}

theorem mem_buildEnvelopes {cs : List ChangeLog} {es : List Envelope}
    (h : buildEnvelopes loads cs = .ok es) {e : Envelope} :
    e ∈ es ↔ ∃ c ∈ cs, Decodes loads c e := by
  induction cs generalizing es with
  | nil =>
    obtain rfl := Except.ok.inj h
    simp
  | cons c cs ih =>
    rcases buildEnvelopes_cons_ok h with ⟨hc, hcs⟩ | ⟨d, rest, hd, rfl, hcs⟩
    · rw [ih hcs, List.exists_mem_cons_iff, or_iff_right]
      simp [Decodes, hc]
    · rw [List.mem_cons, ih hcs, List.exists_mem_cons_iff]
      exact or_congr_left ⟨fun he => he ▸ hd, fun he => decodes_unique he hd⟩

theorem ascending_buildEnvelopes {cs : List ChangeLog} {es : List Envelope}
    (h : buildEnvelopes loads cs = .ok es) (hasc : Ascending ChangeLog.seq cs) :
    Ascending Envelope.seq es := by
  induction cs generalizing es with
  | nil =>
    obtain rfl := Except.ok.inj h
    exact .nil
  | cons c cs ih =>
    obtain ⟨hfirst, hrest⟩ := List.pairwise_cons.mp hasc
    rcases buildEnvelopes_cons_ok h with ⟨_, hcs⟩ | ⟨d, rest, hd, rfl, hcs⟩
    · exact ih hcs hrest
    · refine List.pairwise_cons.mpr ⟨fun e he => ?_, ih hcs hrest⟩
      obtain ⟨b, hb, hbe⟩ := (mem_buildEnvelopes hcs).mp he
      rw [buildEnvelope_seq hd, buildEnvelope_seq hbe]
      exact hfirst b hb

theorem mapM_buildEnvelopes (hloads : loads "" = none) (chunk : ℕ → List ChangeLog)
    (h : ∀ i, ∀ c ∈ chunk i, Clean c.payload) (is : List ℕ) :
    ∃ ess, is.mapM (fun i => buildEnvelopes loads (chunk i)) = .ok ess ∧
      buildEnvelopes loads (is.flatMap chunk) = .ok ess.flatten := by
  induction is with
  | nil => exact ⟨[], rfl, rfl⟩
  | cons i is ih =>
    obtain ⟨ess, hess, hflat⟩ := ih
    obtain ⟨es, hes⟩ := buildEnvelopes_clean hloads (h i)
    refine ⟨es :: ess, ?_, buildEnvelopes_append hes hflat⟩
    rw [List.mapM_cons, hes, hess]
    rfl

theorem sendSnapshot_ok {t : Tables H} (h : t.Consistent) (hloads : loads "" = none) {limit : ℤ}
    (hlimit : 0 < limit) (fromSeq : Option ℤ) :
    ∃ snapshot es, sendSnapshot loads t limit fromSeq = .ok (snapshot, es) ∧
      buildEnvelopes loads (snapshotTable t ["acs"] fromSeq) = .ok es := by
  obtain ⟨table, htable⟩ : ∃ table, table = snapshotTable t ["acs"] fromSeq := ⟨_, rfl⟩
  have hclean {c : ChangeLog} (hc : c ∈ table) : Clean c.payload :=
    snapshotTable_clean h (htable ▸ hc)
  have hselect (i : ℕ) : selectChunk table limit.toNat (i * limit.toNat) =
      (table.drop (i * limit.toNat)).take limit.toNat := by
    rw [selectChunk, orderBy_of_ascending (htable ▸ snapshotTable_ascending h ..)]
  have hchunk (i : ℕ) : ∀ c ∈ selectChunk table limit.toNat (i * limit.toNat), Clean c.payload := by
    intro c hc
    rw [hselect] at hc
    exact hclean (List.mem_of_mem_drop (List.mem_of_mem_take hc))
  obtain ⟨first, hfirst⟩ := buildEnvelopes_clean hloads (hchunk 0)
  obtain ⟨chunks, hchunks⟩ : ∃ chunks, chunks = max 1 (-(-(table.length : ℤ) / limit)) := ⟨_, rfl⟩
  obtain ⟨rest, hrest, hflat⟩ := mapM_buildEnvelopes hloads
    (fun i => selectChunk table limit.toNat ((i + 1) * limit.toNat)) (fun i => hchunk (i + 1))
    (List.range (chunks.toNat - 1))
  refine ⟨⟨["acs"], getCurrentMaxSeq t.log.changeLog, chunks, table.length, fromSeq⟩,
    first ++ rest.flatten, ?_, ?_⟩
  · rw [Nat.zero_mul] at hfirst
    simp only [sendSnapshot, createSnapshot, ← htable, hlimit.ne', hlimit.not_gt, if_false, hfirst,
      ← hchunks, hrest, bind, Except.bind, pure, Except.pure]
  · have hall : selectChunk table limit.toNat (0 * limit.toNat) ++
        (List.range (chunks.toNat - 1)).flatMap
          (fun i => selectChunk table limit.toNat ((i + 1) * limit.toNat)) = table := by
      have hpos : 0 < chunks.toNat := by
        have := le_max_left 1 (-(-(table.length : ℤ) / limit))
        omega
      simp only [hselect]
      calc _ = (List.range (chunks.toNat - 1 + 1)).flatMap
              (fun i => (table.drop (i * limit.toNat)).take limit.toNat) := by
            rw [List.range_succ_eq_map, List.flatMap_cons, List.flatMap_map]
        _ = table := by
            rw [flatMap_chunks, Nat.sub_add_cancel hpos, List.take_of_length_le]
            rw [hchunks]
            exact length_le_chunks _ hlimit
    rw [← htable]
    exact hall ▸ buildEnvelopes_append hfirst hflat

end Transfer

structure Sent (t : Tables H) (fromSeq : Option ℤ) (a : Agent H) (e : Envelope) : Prop where
  agent : a ∈ t.agents
  active : a.isActive = true
  deleted : a.isDeleted = false
  aic : a.aic = some e.id
  lastSeq : a.acsLastSeq = some e.seq
  after : ∀ s, fromSeq = some s → s < e.seq
  le : e.seq ≤ getCurrentMaxSeq t.log.changeLog
  type : e.type = "acs"
  upsert : e.isDelete = false
  version : e.version = a.acsVersion
  payload : ∀ o, e.payload = some o ↔ a.acs = some (.obj o)

section Sent

variable {loads : String → Option Json} {t : Tables H} {fromSeq : Option ℤ} {es : List Envelope}

theorem snapshotFilter_iff {a : Agent H} :
    snapshotFilter ["acs"] fromSeq (getCurrentMaxSeq t.log.changeLog) a ↔
      ∃ x q, a.aic = some x ∧ a.acsLastSeq = some q ∧ a.isActive = true ∧ a.isDeleted = false ∧
        (∀ s, fromSeq = some s → s < q) ∧ q ≤ getCurrentMaxSeq t.log.changeLog := by
  cases hx : a.aic <;> cases hq : a.acsLastSeq <;> cases fromSeq <;>
    simp [snapshotFilter, acsColumn, hx, hq, and_assoc, and_left_comm]

theorem decodes_snapshotRow (hloads : loads "" = none) {a : Agent H} (hclean : Clean a.acs)
    {e : Envelope} (he : Decodes loads (snapshotRow a) e) {x : String} {q : ℤ} (hx : a.aic = some x)
    (hq : a.acsLastSeq = some q) : e.id = x ∧ e.seq = q ∧ e.type = "acs" ∧ e.isDelete = false ∧
      e.version = a.acsVersion ∧ ∀ o, e.payload = some o ↔ a.acs = some (.obj o) := by
  rcases hacs : a.acs with _ | o | s
  · obtain rfl := decodes_unique (e := ⟨q, some a.updatedAt, some .upsert, "acs", x, a.acsVersion,
      none⟩) he (by simp [Decodes, buildEnvelope, snapshotRow, acsColumn, hacs, hx, hq])
    simp [Envelope.isDelete]
  · obtain rfl := decodes_unique (e := ⟨q, some a.updatedAt, some .upsert, "acs", x, a.acsVersion,
      some o⟩) he (by simp [Decodes, buildEnvelope, snapshotRow, acsColumn, hacs, hx, hq])
    simp [Envelope.isDelete]
  · obtain rfl := hclean s hacs
    simp [Decodes, buildEnvelope, snapshotRow, acsColumn, hacs, hloads] at he

theorem exists_sent (h : t.Consistent) (hloads : loads "" = none)
    (hes : buildEnvelopes loads (snapshotTable t ["acs"] fromSeq) = .ok es) {e : Envelope}
    (he : e ∈ es) : ∃ a, Sent t fromSeq a e := by
  obtain ⟨c, hc, hdec⟩ := (mem_buildEnvelopes hes).mp he
  obtain ⟨a, ha, hfilter, rfl⟩ := mem_snapshotTable.mp hc
  obtain ⟨x, q, hx, hq, hact, hdel, hafter, hle⟩ := snapshotFilter_iff.mp hfilter
  obtain ⟨rfl, rfl, htype, hop, hver, hpay⟩ :=
    decodes_snapshotRow hloads (h.clean a ha) hdec hx hq
  exact ⟨a, ha, hact, hdel, hx, hq, hafter, hle, htype, hop, hver, hpay⟩

theorem sent_of_agent (hes : buildEnvelopes loads (snapshotTable t ["acs"] fromSeq) = .ok es)
    {a : Agent H} (ha : a ∈ t.agents) (hact : a.isActive = true) (hdel : a.isDeleted = false)
    {x : String} (hx : a.aic = some x) {q : ℤ} (hq : a.acsLastSeq = some q)
    (hafter : ∀ s, fromSeq = some s → s < q) (hle : q ≤ getCurrentMaxSeq t.log.changeLog)
    {o : JsonObject} (ho : a.acs = some (.obj o)) :
    ⟨q, some a.updatedAt, some .upsert, "acs", x, a.acsVersion, some o⟩ ∈ es := by
  refine (mem_buildEnvelopes hes).mpr ⟨snapshotRow a, mem_snapshotTable.mpr ⟨a, ha, ?_, rfl⟩, ?_⟩
  · exact snapshotFilter_iff.mpr ⟨x, q, hx, hq, hact, hdel, hafter, hle⟩
  · simp [Decodes, buildEnvelope, snapshotRow, acsColumn, ho, hx, hq]

theorem Sent.unique (h : t.Consistent)
    (hes : buildEnvelopes loads (snapshotTable t ["acs"] fromSeq) = .ok es) {a b : Agent H}
    {d e : Envelope} (hd : d ∈ es) (he : e ∈ es) (hsd : Sent t fromSeq a d)
    (hse : Sent t fromSeq b e) (hid : d.id = e.id) : d = e := by
  obtain rfl : a = b := h.aics a hsd.agent b hse.agent d.id hsd.aic (hid ▸ hse.aic)
  have hasc := ascending_buildEnvelopes hes (snapshotTable_ascending h ["acs"] fromSeq)
  exact hasc.eq_of_key hd he (Option.some.inj (hsd.lastSeq.symm.trans hse.lastSeq))

end Sent

section Load

variable {π : Platform H} {t : Tables H} {es ds : List Envelope} {r : Replica}

theorem load_eq_some {acs : Option Payload} (h : Clean acs) {o : JsonObject} :
    loadAgentAcsData π acs = some o ↔ acs = some (.obj o) ∧ o ≠ [] := by
  constructor
  · intro ho
    have hacs := h.eq_obj ho
    refine ⟨hacs, ?_⟩
    rintro rfl
    simp [hacs, loadAgentAcsData_obj] at ho
  · rintro ⟨rfl, hne⟩
    rw [loadAgentAcsData_obj, if_neg hne]

theorem ne_nil_of_active {o : JsonObject} (h : o.get "active" = some (.bool true)) : o ≠ [] := by
  rintro rfl
  simp [JsonObject.get] at h

theorem lookup_loaded {fromSeq : Option ℤ} (h : t.Published π)
    (hes : buildEnvelopes π.loads (snapshotTable t ["acs"] fromSeq) = .ok es)
    (hds : ∀ e ∈ ds, e ∈ es) (hr : r.Tracked) (hempty : r.agents = ∅) {x : String}
    {row : AgentRow} : (r.applyAll ds).agents.lookup x = some row ↔
      ∃ e ∈ ds, e.id = x ∧ envelopeRow e = row := by
  by_cases hx : ∃ e ∈ ds, e.id = x
  · obtain ⟨e, he, rfl⟩ := hx
    obtain ⟨a, ha⟩ := exists_sent h.consistent π.loads_empty hes (hds e he)
    have hunique {d : Envelope} (hd : d ∈ ds) (hid : d.id = e.id) : d = e := by
      obtain ⟨b, hb⟩ := exists_sent h.consistent π.loads_empty hes (hds d hd)
      exact hb.unique h.consistent hes (hds d hd) (hds e he) ha hid
    rw [hr.lookup_applyAll_newest he ha.type ha.upsert (ha.version ▸ h.version a ha.agent)
      (by simp [hempty]) fun d hd _ hid => .inl (hunique hd hid), Option.some.injEq]
    exact ⟨fun hrow => ⟨e, he, rfl, hrow⟩, fun ⟨d, hd, hid, hrow⟩ => hunique hd hid ▸ hrow⟩
  · rw [hr.lookup_applyAll_absent fun e he _ hid => hx ⟨e, he, hid⟩, hempty, AList.lookup_empty]
    exact ⟨by simp, fun ⟨e, he, hid, _⟩ => absurd ⟨e, he, hid⟩ hx⟩

theorem Sent.activeInRegistry {fromSeq : Option ℤ} {a : Agent H} {e : Envelope}
    (h : Sent t fromSeq a e) {o : JsonObject} (ho : e.payload = some o)
    (hact : o.get "active" = some (.bool true)) : ActiveInRegistry π t e.id e.version o := by
  refine ⟨a, h.agent, h.active, h.deleted, h.aic, ?_, h.version.symm⟩
  rw [(h.payload o).mp ho, loadAgentAcsData_obj, if_neg (ne_nil_of_active hact)]

theorem le_getCurrentMaxSeq_of_mem (h : t.Consistent) {c : ChangeLog}
    (hc : c ∈ t.log.changeLog) : c.seq ≤ getCurrentMaxSeq t.log.changeLog :=
  (le_getCurrentMaxSeq (h.log.pos hc)).mpr ⟨c, hc, le_rfl⟩

theorem sameActive_of_full (h : t.Published π)
    (hretained : t.log.changeLog = t.log.everAppended)
    (hes : buildEnvelopes π.loads (snapshotTable t ["acs"] none) = .ok es) (hr : r.Tracked)
    (hempty : r.agents = ∅) : SameActive π t (r.applyAll es).agents := by
  intro x v o
  constructor
  · rintro ⟨row, hrow, rfl, hacs, hact⟩
    obtain ⟨e, he, rfl, rfl⟩ := (lookup_loaded h hes (fun _ => id) hr hempty).mp hrow
    obtain ⟨a, ha⟩ := exists_sent h.consistent π.loads_empty hes he
    exact ha.activeInRegistry hacs hact
  · rintro ⟨a, ha, hact, hdel, hx, ho, rfl⟩
    obtain ⟨c, hc, hseq, hver, hpay⟩ := newestEntry_of_agent h ha hx ho
    have hmem := sent_of_agent hes ha hact hdel hx hseq (by simp)
      (le_getCurrentMaxSeq_of_mem h.consistent (hretained ▸ hc.mem))
      ((load_eq_some (h.consistent.clean a ha)).mp ho).1
    have hreflects := (h.current a ha x o hx ho).reflects.active
    rw [hact] at hreflects
    exact ⟨_, (lookup_loaded h hes (fun _ => id) hr hempty).mpr ⟨_, hmem, rfl, rfl⟩, rfl, rfl,
      getOrNone_active.mp hreflects⟩

end Load

end Acps.Dsp
