import Acps.Registry.History

/-!
Snapshots: the table that is made of the agents at one moment, cut at the newest entry that the
change log still holds.
-/

namespace Acps.Registry

open Dsp Paging

variable {H : Type}

structure Snapshot where
  types : List String
  seq : ℤ
  chunkTotal : ℤ
  objectCount : ℤ
  fromSeq : Option ℤ
  deriving DecidableEq

def acsColumn (a : Agent H) : Option (Option Payload) := some a.acs

def snapshotFilter (types : List String) (fromSeq : Option ℤ) (currentSeq : ℤ) (a : Agent H) :
    Bool :=
  ("acs" ∈ types → (acsColumn a).isSome ∧ a.aic.isSome) ∧
    fromSeq.all (fun s => a.acsLastSeq.any (s < ·)) ∧
    (a.isActive ∧ a.isDeleted = false) ∧
    -- a NULL seq compares as not true
    a.acsLastSeq.any (· ≤ currentSeq)

def snapshotRow (a : Agent H) : ChangeLog :=
  ⟨a.acsLastSeq.getD 0, a.updatedAt, "acs", .upsert, a.aic.getD "", a.acsVersion,
    (acsColumn a).getD none⟩

def getCurrentMaxSeq (table : List ChangeLog) : ℤ := ((table.map ChangeLog.seq).max?).getD 0

def snapshotTable (t : Tables H) (types : List String) (fromSeq : Option ℤ) : List ChangeLog :=
  orderBy ChangeLog.seq
    ((t.agents.filter (snapshotFilter types fromSeq (getCurrentMaxSeq t.log.changeLog))).map
      snapshotRow)

def selectChunk (table : List ChangeLog) (limit offset : ℕ) : List ChangeLog :=
  ((orderBy ChangeLog.seq table).drop offset).take limit

def createSnapshot (loads : String → Option Json) (t : Tables H) (types : List String) (limit : ℤ)
    (fromSeq : Option ℤ) : Except Failure (Snapshot × List ChangeLog × List Envelope) := do
  let table := snapshotTable t types fromSeq
  let objectCount : ℤ := table.length
  if limit = 0 then .error .zeroDivision
  else if limit < 0 then .error (.sync ⟨500, .snapshotCreateFailed, [("limit", limit)]⟩)
  else
    let envelopes ← buildEnvelopes loads (selectChunk table limit.toNat 0)
    return (⟨types, getCurrentMaxSeq t.log.changeLog, max 1 (-(-objectCount / limit)), objectCount,
      fromSeq⟩, table, envelopes)

theorem mem_snapshotTable {t : Tables H} {types : List String} {fromSeq : Option ℤ} {c : ChangeLog} :
    c ∈ snapshotTable t types fromSeq ↔
      ∃ a ∈ t.agents, snapshotFilter types fromSeq (getCurrentMaxSeq t.log.changeLog) a ∧
        snapshotRow a = c := by
  simp only [snapshotTable, mem_orderBy, List.mem_map, List.mem_filter, and_assoc]

theorem le_getCurrentMaxSeq {table : List ChangeLog} {q : ℤ} (hq : 0 < q) :
    q ≤ getCurrentMaxSeq table ↔ ∃ c ∈ table, q ≤ c.seq := by
  unfold getCurrentMaxSeq
  cases hmax : (table.map ChangeLog.seq).max? with
  | none =>
    obtain rfl : table = [] := by simpa using hmax
    simp [hq.not_ge]
  | some m =>
    obtain ⟨hmem, hle⟩ := List.max?_eq_some_iff.mp hmax
    obtain ⟨c, hc, rfl⟩ := List.mem_map.mp hmem
    refine ⟨fun h => ⟨c, hc, h⟩, ?_⟩
    rintro ⟨d, hd, hqd⟩
    exact hqd.trans (hle _ (List.mem_map.mpr ⟨d, hd, rfl⟩))

def Listed (a : Agent H) : Prop :=
  a.isActive = true ∧ a.isDeleted = false ∧ a.aic.isSome ∧ (truthy a.acs).isSome

def Carries (c : ChangeLog) (a : Agent H) : Prop :=
  c.op = .upsert ∧ c.type = "acs" ∧ a.aic = some c.id ∧ c.payload = a.acs ∧
    c.version = a.acsVersion ∧ a.acsLastSeq = some c.seq

def SnapshotComplete (t : Tables H) (table : List ChangeLog) : Prop :=
  (table.map ChangeLog.id).Nodup ∧ (∀ c ∈ table, ∃ a ∈ t.agents, Listed a ∧ Carries c a) ∧
    ∀ a ∈ t.agents, Listed a → ∃ c ∈ table, Carries c a

/-- Of the live agents with an AIC, exactly those with an ACS have their seq at or below a seq that
the change log still holds. -/
def SnapshotCovered (t : Tables H) : Prop :=
  ∀ a ∈ t.agents, a.isActive = true → a.isDeleted = false → a.aic.isSome →
    ((truthy a.acs).isSome ↔ ∃ q, a.acsLastSeq = some q ∧ ∃ c ∈ t.log.changeLog, q ≤ c.seq)

section Full

variable {t : Tables H}

theorem snapshotFilter_full {a : Agent H} (h : t.Consistent) (ha : a ∈ t.agents) :
    snapshotFilter ["acs"] none (getCurrentMaxSeq t.log.changeLog) a ↔
      (a.isActive = true ∧ a.isDeleted = false ∧ a.aic.isSome) ∧
        ∃ q, a.acsLastSeq = some q ∧ ∃ c ∈ t.log.changeLog, q ≤ c.seq := by
  have hseq : a.acsLastSeq.any (· ≤ getCurrentMaxSeq t.log.changeLog) ↔
      ∃ q, a.acsLastSeq = some q ∧ ∃ c ∈ t.log.changeLog, q ≤ c.seq := by
    cases hq : a.acsLastSeq with
    | none => simp
    | some q => simp [le_getCurrentMaxSeq (h.lastSeq a ha q hq).1]
  rw [← hseq]
  simp [snapshotFilter, acsColumn]
  tauto

theorem carries_snapshotRow {a : Agent H} {q : ℤ} (haic : a.aic.isSome)
    (hq : a.acsLastSeq = some q) : Carries (snapshotRow a) a := by
  obtain ⟨x, hx⟩ := Option.isSome_iff_exists.mp haic
  simp [Carries, snapshotRow, acsColumn, hx, hq]

theorem snapshotTable_nodup (h : t.Consistent) (fromSeq : Option ℤ) :
    ((snapshotTable t ["acs"] fromSeq).map ChangeLog.id).Nodup := by
  unfold snapshotTable
  rw [((orderBy_perm _).map ChangeLog.id).nodup_iff, List.map_map]
  have hnodup : t.agents.Nodup := List.Nodup.of_map _ h.ids
  refine List.Nodup.map_on ?_ (hnodup.filter _)
  intro a ha b hb hab
  simp only [List.mem_filter, snapshotFilter, acsColumn, List.mem_singleton, forall_const,
    Option.isSome_some, true_and, decide_eq_true_eq] at ha hb
  obtain ⟨x, hx⟩ := Option.isSome_iff_exists.mp ha.2.1
  obtain ⟨y, hy⟩ := Option.isSome_iff_exists.mp hb.2.1
  simp only [Function.comp_apply, snapshotRow, hx, hy, Option.getD_some] at hab
  exact h.aics a ha.1 b hb.1 x hx (hab ▸ hy)

theorem snapshotTable_complete_iff (h : t.Consistent) :
    SnapshotComplete t (snapshotTable t ["acs"] none) ↔ SnapshotCovered t := by
  constructor
  · rintro ⟨_, hsound, hcomplete⟩ a ha hact hdel haic
    constructor
    · intro hacs
      obtain ⟨c, hc, hca⟩ := hcomplete a ha ⟨hact, hdel, haic, hacs⟩
      obtain ⟨b, hb, hfilter, rfl⟩ := mem_snapshotTable.mp hc
      obtain ⟨⟨_, _, hbaic⟩, q, hq, hcov⟩ := (snapshotFilter_full h hb).mp hfilter
      obtain ⟨x, hx⟩ := Option.isSome_iff_exists.mp hbaic
      have hab : a = b := by
        refine h.aics a ha b hb x ?_ hx
        rw [hca.2.2.1, snapshotRow, hx, Option.getD_some]
      exact hab ▸ ⟨q, hq, hcov⟩
    · rintro hcov
      have hfilter := (snapshotFilter_full h ha).mpr ⟨⟨hact, hdel, haic⟩, hcov⟩
      obtain ⟨b, hb, hlisted, hcar⟩ := hsound _ (mem_snapshotTable.mpr ⟨a, ha, hfilter, rfl⟩)
      obtain ⟨x, hx⟩ := Option.isSome_iff_exists.mp haic
      have hab : a = b := by
        refine h.aics a ha b hb x hx ?_
        rw [hcar.2.2.1, snapshotRow, hx, Option.getD_some]
      exact hab ▸ hlisted.2.2.2
  · intro hcov
    refine ⟨snapshotTable_nodup h none, ?_, ?_⟩
    · intro c hc
      obtain ⟨a, ha, hfilter, rfl⟩ := mem_snapshotTable.mp hc
      obtain ⟨⟨hact, hdel, haic⟩, q, hq, hmax⟩ := (snapshotFilter_full h ha).mp hfilter
      exact ⟨a, ha, ⟨hact, hdel, haic, (hcov a ha hact hdel haic).mpr ⟨q, hq, hmax⟩⟩,
        carries_snapshotRow haic hq⟩
    · rintro a ha ⟨hact, hdel, haic, hacs⟩
      obtain ⟨q, hq, hmax⟩ := (hcov a ha hact hdel haic).mp hacs
      have hfilter := (snapshotFilter_full h ha).mpr ⟨⟨hact, hdel, haic⟩, q, hq, hmax⟩
      exact ⟨_, mem_snapshotTable.mpr ⟨a, ha, hfilter, rfl⟩, carries_snapshotRow haic hq⟩

end Full

section Create

variable {loads : String → Option Json}

theorem buildEnvelopes_clean (hloads : loads "" = none) {table : List ChangeLog}
    (h : ∀ c ∈ table, Clean c.payload) : ∃ es, buildEnvelopes loads table = .ok es := by
  induction table with
  | nil => exact ⟨[], rfl⟩
  | cons c cs ih =>
    obtain ⟨es, hes⟩ := ih fun d hd => h d (List.mem_cons_of_mem _ hd)
    have hc := h c (by simp)
    rw [buildEnvelopes, hes]
    unfold buildEnvelope
    rcases hp : c.payload with _ | o | s
    · exact ⟨_, rfl⟩
    · exact ⟨_, rfl⟩
    · obtain rfl := hc s hp
      simp only [hloads]
      exact ⟨es, rfl⟩

theorem createSnapshot_ok {t : Tables H} (h : t.Consistent) (hloads : loads "" = none)
    (types : List String) {limit : ℤ} (hlimit : 0 < limit) (fromSeq : Option ℤ) :
    ∃ snapshot envelopes, createSnapshot loads t types limit fromSeq =
      .ok (snapshot, snapshotTable t types fromSeq, envelopes) := by
  have hclean : ∀ c ∈ selectChunk (snapshotTable t types fromSeq) limit.toNat 0,
      Clean c.payload := by
    intro c hc
    have hmem := List.mem_of_mem_drop (List.mem_of_mem_take hc)
    rw [mem_orderBy] at hmem
    obtain ⟨a, ha, _, rfl⟩ := mem_snapshotTable.mp hmem
    exact h.clean a ha
  obtain ⟨es, hes⟩ := buildEnvelopes_clean hloads hclean
  simp only [createSnapshot, hlimit.ne', hlimit.not_gt, if_false, hes]
  exact ⟨_, es, rfl⟩

end Create

theorem full_snapshot_complete_iff [DecidableEq H] {π : Platform H} {es : List Event}
    {t : Tables H} (ht : (registry π).exec .empty es = some t) {limit : ℤ} (hlimit : 0 < limit) :
    ∃ snapshot table envelopes,
      createSnapshot π.loads t ["acs"] limit none = .ok (snapshot, table, envelopes) ∧
        (SnapshotComplete t table ↔ SnapshotCovered t) := by
  have h := Tables.Consistent.reachable π ht
  obtain ⟨snapshot, envelopes, hok⟩ := createSnapshot_ok h π.loads_empty ["acs"] hlimit none
  exact ⟨snapshot, _, envelopes, hok, snapshotTable_complete_iff h⟩

theorem full_snapshot_complete_iff_at :
    ∃ t, (registry plainPlatform).exec .empty [.write 0 (.registerEntity 1 "A" [])] = some t ∧
      ∃ snapshot table envelopes,
        createSnapshot plainPlatform.loads t ["acs"] 10 none = .ok (snapshot, table, envelopes) ∧
          (SnapshotComplete t table ↔ SnapshotCovered t) := by
  obtain ⟨t, ht⟩ : ∃ t, (registry plainPlatform).exec .empty
      [.write 0 (.registerEntity 1 "A" [])] = some t := ⟨_, rfl⟩
  exact ⟨t, ht, full_snapshot_complete_iff ht (by decide)⟩

theorem purged_log_empties_snapshot :
    ∃ t snapshot, (registry plainPlatform).exec .empty
        [.write 0 (.registerEntity 1 "A" []), .cleanup 10000000000 1 10] = some t ∧
      createSnapshot plainPlatform.loads t ["acs"] 10 none = .ok (snapshot, [], []) ∧
      ¬ SnapshotComplete t [] := by
  refine ⟨_, _, rfl, rfl, ?_⟩
  rintro ⟨_, _, hcomplete⟩
  obtain ⟨c, hc, _⟩ := hcomplete _ (List.mem_singleton.mpr rfl) ⟨rfl, rfl, rfl, rfl⟩
  exact absurd hc (by simp)

end Acps.Registry
