import Acps.Lib.Binary64
import Acps.Lib.Sorter
import Acps.Registry.Feed
import Acps.Registry.Snapshot

/-!
The chunks of a snapshot: how many are announced when it is made, and what a request for one of
them returns.
-/

namespace Acps.Registry

open Dsp Paging

variable {H : Type}

def bySeq (a b : ChangeLog) : Prop := a.seq ≤ b.seq

structure StoredSnapshot where
  id : String
  snapshot : Snapshot
  rows : List ChangeLog
  isDeleted : Bool
  lastAccessAt : Timestamp
  expireAt : Timestamp

inductive ChunkFailure where
  | snapshotNotFound (snapshotId : String)
  | snapshotExpired (snapshotId : String)
  | invalidChunkIndex (snapshotId : String) (chunkIndex chunkTotal : ℤ)
  | snapshotDataQueryFailed (snapshotId : String) (chunkIndex limit : ℤ)
  | envelope (failure : Failure)

def chunkTotal (objectCount limit : ℕ) : ℤ :=
  max 1 ⌈Binary64.round ((objectCount : ℚ) / limit)⌉

def calculateExpireTime (now accessTimeoutHours maxLifetimeHours : ℤ) : Timestamp :=
  min (now + accessTimeoutHours * 3600 * 1000000) (now + maxLifetimeHours * 3600 * 1000000)

def Snapshot.store (snapshot : Snapshot) (id : String) (rows : List ChangeLog)
    (now expireAt : Timestamp) : StoredSnapshot := ⟨id, snapshot, rows, false, now, expireAt⟩

def findSnapshot (snapshots : List StoredSnapshot) (snapshotId : String) : Option StoredSnapshot :=
  snapshots.find? fun s => s.id = snapshotId ∧ s.isDeleted = false

def validateSnapshotChunkRequest (now : Timestamp) (snapshot : Option StoredSnapshot)
    (snapshotId : String) (chunkIndex : ℤ) : Except ChunkFailure StoredSnapshot :=
  match snapshot with
  | none => .error (.snapshotNotFound snapshotId)
  | some s =>
    if now > s.expireAt then .error (.snapshotExpired snapshotId)
    else if chunkIndex < 0 ∨ chunkIndex ≥ s.snapshot.chunkTotal then
      .error (.invalidChunkIndex snapshotId chunkIndex s.snapshot.chunkTotal)
    else .ok s

def touch (snapshots : List StoredSnapshot) (snapshotId : String) (now : Timestamp) :
    List StoredSnapshot :=
  snapshots.map fun s => if s.id = snapshotId then { s with lastAccessAt := now } else s

section Requests

variable (loads : String → Option Json)

def getSnapshotChunk (order : Sorter bySeq) (now : Timestamp) (snapshots : List StoredSnapshot)
    (snapshotId : String) (chunkIndex limit : ℤ) :
    Except ChunkFailure (List StoredSnapshot × List Envelope) := do
  let s ← validateSnapshotChunkRequest now (findSnapshot snapshots snapshotId) snapshotId chunkIndex
  -- the database refuses a negative limit
  if limit < 0 then .error (.snapshotDataQueryFailed snapshotId chunkIndex limit)
  else
    let offset := chunkIndex * limit
    match buildEnvelopes loads (((order.order s.rows).drop offset.toNat).take limit.toNat) with
    | .error f => .error (.envelope f)
    | .ok envelopes => .ok (touch snapshots snapshotId now, envelopes)

def readChunks (orders : ℕ → Sorter bySeq) (times : ℕ → Timestamp) (snapshotId : String) (limit : ℤ) :
    List ℕ → List StoredSnapshot → Except ChunkFailure (List (List Envelope))
  | [], _ => .ok []
  | i :: is, snapshots => do
    let (snapshots, envelopes) ←
      getSnapshotChunk loads (orders i) (times i) snapshots snapshotId i limit
    return envelopes :: (← readChunks orders times snapshotId limit is snapshots)

structure Partition (rows : List ChangeLog) (chunks : List (List Envelope)) : Prop where
  ascending : Ascending ChangeLog.seq rows
  delivered : List.Forall₂ (Decodes loads) rows chunks.flatten
  nonempty : ∀ chunk ∈ chunks, chunk = [] → chunks = [[]] ∧ rows = []

end Requests

theorem chunkTotal_eq {objectCount limit : ℕ} (hcount : objectCount < 2 ^ 53) (hlimit : 0 < limit) :
    chunkTotal objectCount limit = max 1 (-(-(objectCount : ℤ) / (limit : ℤ))) := by
  rw [chunkTotal, Binary64.ceil_round_div hcount hlimit, Rat.ceil_natCast_div_natCast]

theorem chunkTotal_ten_three : chunkTotal 10 3 = 4 := chunkTotal_eq (by decide) (by decide)

section Rows

variable {t : Tables H}

theorem snapshotTable_clean {t : Tables H} (h : t.Consistent) {types : List String}
    {fromSeq : Option ℤ} {c : ChangeLog} (hc : c ∈ snapshotTable t types fromSeq) :
    Clean c.payload := by
  obtain ⟨a, ha, _, rfl⟩ := mem_snapshotTable.mp hc
  exact h.clean a ha

theorem snapshotTable_ascending {t : Tables H} (h : t.Consistent) (types : List String)
    (fromSeq : Option ℤ) : Ascending ChangeLog.seq (snapshotTable t types fromSeq) := by
  apply ascending_orderBy
  rw [List.map_map]
  have hnodup : t.agents.Nodup := List.Nodup.of_map _ h.ids
  refine List.Nodup.map_on ?_ (hnodup.filter _)
  intro a ha b hb hab
  obtain ⟨ha, hfa⟩ := List.mem_filter.mp ha
  obtain ⟨hb, hfb⟩ := List.mem_filter.mp hb
  simp only [snapshotFilter, Option.any_eq_true, decide_eq_true_eq] at hfa hfb
  obtain ⟨q, hq, _⟩ := hfa.2.2.2
  obtain ⟨p, hp, _⟩ := hfb.2.2.2
  obtain rfl : q = p := by simpa [snapshotRow, hq, hp] using hab
  exact h.lastSeqs a ha b hb q hq hp

end Rows

theorem length_le_chunks (n : ℕ) {limit : ℤ} (hlimit : 0 < limit) :
    n ≤ (max 1 (-(-(n : ℤ) / limit))).toNat * limit.toNat := by
  have hceil : (n : ℤ) ≤ -(-(n : ℤ) / limit) * limit := by
    rw [Int.neg_mul]
    exact Int.le_neg_of_le_neg (Int.ediv_mul_le (-(n : ℤ)) hlimit.ne')
  have hle := hceil.trans (Int.mul_le_mul_of_nonneg_right (le_max_right 1 _) hlimit.le)
  apply Int.ofNat_le.mp
  rw [Int.natCast_mul, Int.toNat_of_nonneg (Int.one_nonneg.trans (le_max_left ..)),
    Int.toNat_of_nonneg hlimit.le]
  exact hle

theorem chunks_mul_lt {n i : ℕ} {limit : ℤ} (hlimit : 0 < limit) (hn : 0 < n)
    (hi : (i : ℤ) < max 1 (-(-(n : ℤ) / limit))) : i * limit.toNat < n := by
  obtain ⟨l, rfl⟩ := Int.eq_ofNat_of_zero_le hlimit.le
  rw [Int.toNat_natCast]
  have hl : 0 < l := by exact_mod_cast hlimit
  rcases Nat.eq_zero_or_pos i with rfl | hpos
  · rwa [Nat.zero_mul]
  · have hceil : (i : ℤ) < -(-(n : ℤ) / l) := by
      rcases lt_max_iff.mp hi with hone | hceil
      · omega
      · exact hceil
    by_contra hge
    have hmul : -((i : ℤ) * l) ≤ -(n : ℤ) := by
      have : ((n : ℕ) : ℤ) ≤ ((i * l : ℕ) : ℤ) := by exact_mod_cast not_lt.mp hge
      push_cast at this
      omega
    have hdiv : -(i : ℤ) ≤ -(n : ℤ) / l := by
      apply (Int.le_ediv_iff_mul_le (by exact_mod_cast hl)).mpr
      rw [neg_mul]
      exact hmul
    omega

section Envelopes

variable {loads : String → Option Json}

theorem buildEnvelopes_cons_ok {c : ChangeLog} {cs : List ChangeLog} {es : List Envelope}
    (h : buildEnvelopes loads (c :: cs) = .ok es) :
    (buildEnvelope loads c = .ok none ∧ buildEnvelopes loads cs = .ok es) ∨
      ∃ e rest, Decodes loads c e ∧ es = e :: rest ∧ buildEnvelopes loads cs = .ok rest := by
  rw [buildEnvelopes] at h
  rcases hc : buildEnvelope loads c with f | _ | e
  · simp [hc, bind, Except.bind] at h
  · exact .inl ⟨rfl, by simpa [hc, bind, Except.bind] using h⟩
  · cases hcs : buildEnvelopes loads cs with
    | error f => simp [hc, hcs, bind, Except.bind] at h
    | ok rest =>
      refine .inr ⟨e, rest, hc, ?_, rfl⟩
      simpa [hc, hcs, bind, Except.bind, pure, Except.pure, eq_comm] using h

theorem buildEnvelopes_append {cs ds : List ChangeLog} {es fs : List Envelope}
    (hcs : buildEnvelopes loads cs = .ok es) (hds : buildEnvelopes loads ds = .ok fs) :
    buildEnvelopes loads (cs ++ ds) = .ok (es ++ fs) := by
  induction cs generalizing es with
  | nil =>
    obtain rfl := Except.ok.inj hcs
    exact hds
  | cons c cs ih =>
    rw [List.cons_append, buildEnvelopes]
    rcases buildEnvelopes_cons_ok hcs with ⟨hc, hrest⟩ | ⟨e, rest, hc, rfl, hrest⟩
    · rw [hc, ← ih hrest]
      rfl
    · have hc : buildEnvelope loads c = .ok (some e) := hc
      rw [hc, ih hrest]
      rfl

end Envelopes

section Requests

variable {loads : String → Option Json}

theorem order_eq (order : Sorter bySeq) {rows : List ChangeLog}
    (h : Ascending ChangeLog.seq rows) : order.order rows = rows := by
  have hsorted : rows.Pairwise bySeq := h.imp le_of_lt
  refine (order.perm rows).eq_of_pairwise ?_ (order.sorted rows) hsorted
  intro a b ha hb hab hba
  exact h.eq_of_key ((order.perm rows).mem_iff.mp ha) hb (le_antisymm hab hba)

theorem findSnapshot_touch {snapshots : List StoredSnapshot} {snapshotId : String}
    {s : StoredSnapshot} (h : findSnapshot snapshots snapshotId = some s) (now : Timestamp) :
    findSnapshot (touch snapshots snapshotId now) snapshotId = some { s with lastAccessAt := now } := by
  rw [findSnapshot] at h
  have hid : s.id = snapshotId ∧ s.isDeleted = false := by simpa using List.find?_some h
  have hsame : (fun r : StoredSnapshot => decide (r.id = snapshotId ∧ r.isDeleted = false)) ∘
      (fun r => if r.id = snapshotId then { r with lastAccessAt := now } else r) =
        fun r => decide (r.id = snapshotId ∧ r.isDeleted = false) := by
    funext r
    by_cases hr : r.id = snapshotId <;> simp [hr]
  rw [findSnapshot, touch, List.find?_map, hsame, h, Option.map_some, if_pos hid.1]

def chunkRows (rows : List ChangeLog) (limit i : ℕ) : List ChangeLog :=
  (rows.drop (i * limit)).take limit

theorem getSnapshotChunk_ok {order : Sorter bySeq} {now : Timestamp} {snapshots : List StoredSnapshot}
    {snapshotId : String} {s : StoredSnapshot} {i limit : ℕ} {envelopes : List Envelope}
    (hs : findSnapshot snapshots snapshotId = some s) (hrows : Ascending ChangeLog.seq s.rows)
    (htime : now ≤ s.expireAt) (hi : (i : ℤ) < s.snapshot.chunkTotal)
    (h : buildEnvelopes loads (chunkRows s.rows limit i) = .ok envelopes) :
    getSnapshotChunk loads order now snapshots snapshotId i limit =
      .ok (touch snapshots snapshotId now, envelopes) := by
  have hindex : ¬ ((i : ℤ) < 0 ∨ (i : ℤ) ≥ s.snapshot.chunkTotal) := by omega
  have hoffset : ((i : ℤ) * (limit : ℤ)).toNat = i * limit := by
    rw [← Int.natCast_mul, Int.toNat_natCast]
  rw [chunkRows] at h
  simp only [getSnapshotChunk, validateSnapshotChunkRequest, hs, htime.not_gt, hindex, if_false,
    (Int.natCast_nonneg limit).not_gt, order_eq order hrows, hoffset, Int.toNat_natCast, h, bind,
    Except.bind]

end Requests

section Reading

variable {loads : String → Option Json} {rows : List ChangeLog} {limit : ℕ}

theorem chunkRows_clean (h : ∀ c ∈ rows, Clean c.payload) (i : ℕ) :
    ∀ c ∈ chunkRows rows limit i, Clean c.payload := by
  intro c hc
  apply h
  exact List.mem_of_mem_drop (List.mem_of_mem_take hc)

theorem readChunks_ok (hloads : loads "" = none) (hrows : Ascending ChangeLog.seq rows)
    (hclean : ∀ c ∈ rows, Clean c.payload) (orders : ℕ → Sorter bySeq) (times : ℕ → Timestamp)
    {snapshotId : String} {snapshots : List StoredSnapshot} {s : StoredSnapshot}
    (hs : findSnapshot snapshots snapshotId = some s) (hstored : s.rows = rows)
    (htimes : ∀ i, times i ≤ s.expireAt) {is : List ℕ}
    (his : ∀ i ∈ is, (i : ℤ) < s.snapshot.chunkTotal) :
    ∃ chunks, readChunks loads orders times snapshotId limit is snapshots = .ok chunks ∧
      List.Forall₂ (fun i es => buildEnvelopes loads (chunkRows rows limit i) = .ok es) is chunks := by
  induction is generalizing snapshots s with
  | nil => exact ⟨[], rfl, .nil⟩
  | cons i is ih =>
    obtain ⟨es, hes⟩ : ∃ es, buildEnvelopes loads (chunkRows rows limit i) = .ok es :=
      buildEnvelopes_clean hloads (chunkRows_clean hclean i)
    have hchunk : getSnapshotChunk loads (orders i) (times i) snapshots snapshotId i limit =
        .ok (touch snapshots snapshotId (times i), es) := by
      apply getSnapshotChunk_ok hs _ (htimes i) (his i List.mem_cons_self)
      · rw [hstored, hes]
      · rwa [hstored]
    obtain ⟨chunks, hread, hchunks⟩ := ih (findSnapshot_touch hs (times i)) hstored htimes
      fun j hj => his j (List.mem_cons_of_mem _ hj)
    refine ⟨es :: chunks, ?_, .cons hes hchunks⟩
    rw [readChunks, hchunk]
    simp only [bind, Except.bind, hread]
    rfl

theorem buildEnvelopes_flatMap {chunk : ℕ → List ChangeLog} {is : List ℕ}
    {chunks : List (List Envelope)}
    (h : List.Forall₂ (fun i es => buildEnvelopes loads (chunk i) = .ok es) is chunks) :
    buildEnvelopes loads (is.flatMap chunk) = .ok chunks.flatten := by
  induction h with
  | nil => rfl
  | cons hes _ ih =>
    rw [List.flatMap_cons, List.flatten_cons]
    exact buildEnvelopes_append hes ih

theorem decodes_of_clean {c : ChangeLog} (h : Clean c.payload) (hne : c.payload ≠ some (.text "")) :
    ∃ e, Decodes loads c e := by
  unfold Decodes buildEnvelope
  rcases hp : c.payload with _ | o | s
  · exact ⟨_, rfl⟩
  · exact ⟨_, rfl⟩
  · exact absurd (h s hp ▸ hp) hne

theorem not_decodes_empty (hloads : loads "" = none) {c : ChangeLog} {e : Envelope}
    (h : Decodes loads c e) : c.payload ≠ some (.text "") := by
  intro hp
  simp [Decodes, buildEnvelope, hp, hloads] at h

theorem partition_iff (hloads : loads "" = none) (hlimit : 0 < limit)
    (hrows : Ascending ChangeLog.seq rows) (hclean : ∀ c ∈ rows, Clean c.payload)
    {total : ℤ} (htotal : total = max 1 (-(-(rows.length : ℤ) / (limit : ℤ))))
    {chunks : List (List Envelope)}
    (h : List.Forall₂ (fun i es => buildEnvelopes loads (chunkRows rows limit i) = .ok es)
      (List.range total.toNat) chunks) :
    Partition loads rows chunks ↔ ∀ c ∈ rows, c.payload ≠ some (.text "") := by
  have hlimit' : (0 : ℤ) < limit := by exact_mod_cast hlimit
  have hflat : buildEnvelopes loads rows = .ok chunks.flatten := by
    have hall := buildEnvelopes_flatMap h
    have hlen := length_le_chunks rows.length hlimit'
    rw [← htotal, Int.toNat_natCast] at hlen
    rwa [show (List.range total.toNat).flatMap (chunkRows rows limit) = rows from
      (flatMap_chunks rows limit total.toNat).trans (List.take_of_length_le hlen)] at hall
  constructor
  · intro hpart c hc
    obtain ⟨i, hi, rfl⟩ := List.mem_iff_getElem.mp hc
    exact not_decodes_empty hloads
      (hpart.delivered.get hi (hpart.delivered.length_eq ▸ hi))
  · intro hne
    have hdecodes : ∀ c ∈ rows, ∃ e, Decodes loads c e := fun c hc =>
      decodes_of_clean (hclean c hc) (hne c hc)
    refine ⟨hrows, ?_, ?_⟩
    · obtain ⟨es, hes, hbuild⟩ := buildEnvelopes_complete hdecodes
      obtain rfl := Except.ok.inj (hbuild.symm.trans hflat)
      exact hes
    · rintro chunk hchunk rfl
      obtain ⟨i, hi, hget⟩ := List.mem_iff_getElem.mp hchunk
      have hrange : i < (List.range total.toNat).length := h.length_eq ▸ hi
      have hempty : buildEnvelopes loads (chunkRows rows limit i) = .ok [] := by
        have := h.get hrange hi
        simpa only [List.get_eq_getElem, List.getElem_range, hget] using this
      have hnil : chunkRows rows limit i = [] := by
        obtain ⟨es, hes, hbuild⟩ := buildEnvelopes_complete fun c hc =>
          hdecodes c (List.mem_of_mem_drop (List.mem_of_mem_take hc))
        obtain rfl := Except.ok.inj (hbuild.symm.trans hempty)
        exact List.forall₂_nil_right_iff.mp hes
      rw [List.length_range] at hrange
      have hrows' : rows = [] := by
        by_contra hne
        have hpos := List.length_pos_iff.mpr hne
        have hlt := chunks_mul_lt hlimit' hpos (i := i) (by omega)
        rw [Int.toNat_natCast] at hlt
        have hlen := congrArg List.length hnil
        simp only [chunkRows, List.length_take, List.length_drop, List.length_nil] at hlen
        omega
      obtain rfl := hrows'
      have hone : chunks.length = 1 := by
        rw [← h.length_eq, List.length_range, htotal]
        simp
      obtain ⟨chunk, rfl⟩ := List.length_eq_one_iff.mp hone
      exact ⟨by rw [List.mem_singleton.mp hchunk], rfl⟩

end Reading

theorem snapshot_chunks_partition_iff [DecidableEq H] {π : Platform H} {es : List Event}
    {t : Tables H} (ht : (registry π).exec .empty es = some t) (types : List String)
    (fromSeq : Option ℤ) {limit : ℤ} (hlimit : 1 ≤ limit) {id : String}
    (others : List StoredSnapshot) (created accessTimeoutHours maxLifetimeHours : ℤ)
    (orders : ℕ → Sorter bySeq) {times : ℕ → Timestamp}
    (htimes : ∀ i, times i ≤ calculateExpireTime created accessTimeoutHours maxLifetimeHours) :
    ∃ snapshot rows first chunks,
      createSnapshot π.loads t types limit fromSeq = .ok (snapshot, rows, first) ∧
        readChunks π.loads orders times id limit (List.range snapshot.chunkTotal.toNat)
          (snapshot.store id rows created
            (calculateExpireTime created accessTimeoutHours maxLifetimeHours) :: others) =
              .ok chunks ∧
        chunks.head? = some first ∧
        (Partition π.loads rows chunks ↔ ∀ c ∈ rows, c.payload ≠ some (.text "")) := by
  have hconsistent := Tables.Consistent.reachable π ht
  obtain ⟨l, rfl⟩ := Int.eq_ofNat_of_zero_le (Int.one_nonneg.trans hlimit)
  have hl : (0 : ℤ) < l := by omega
  obtain ⟨rows, hrows⟩ : ∃ rows, rows = snapshotTable t types fromSeq := ⟨_, rfl⟩
  have hasc : Ascending ChangeLog.seq rows := hrows ▸ snapshotTable_ascending hconsistent types fromSeq
  have hclean : ∀ c ∈ rows, Clean c.payload := fun c hc => snapshotTable_clean hconsistent (hrows ▸ hc)
  have hfirstRows : selectChunk rows l 0 = chunkRows rows l 0 := by
    rw [selectChunk, orderBy_of_ascending hasc, chunkRows, Nat.zero_mul]
  obtain ⟨first, hfirst⟩ : ∃ first, buildEnvelopes π.loads (chunkRows rows l 0) = .ok first :=
    buildEnvelopes_clean π.loads_empty (chunkRows_clean hclean 0)
  obtain ⟨total, htotal⟩ : ∃ total, total = max 1 (-(-(rows.length : ℤ) / (l : ℤ))) := ⟨_, rfl⟩
  obtain ⟨snapshot, hsnapshot⟩ : ∃ snapshot, snapshot = Snapshot.mk types
      (getCurrentMaxSeq t.log.changeLog) total rows.length fromSeq := ⟨_, rfl⟩
  have hindices : ∀ i ∈ List.range snapshot.chunkTotal.toNat, (i : ℤ) < snapshot.chunkTotal := by
    intro i hi
    rw [List.mem_range] at hi
    exact Int.lt_toNat.mp hi
  have hfound : findSnapshot (snapshot.store id rows created
      (calculateExpireTime created accessTimeoutHours maxLifetimeHours) :: others) id =
        some (snapshot.store id rows created
          (calculateExpireTime created accessTimeoutHours maxLifetimeHours)) :=
    List.find?_cons_of_pos (by simp [Snapshot.store])
  obtain ⟨chunks, hread, hchunks⟩ := readChunks_ok π.loads_empty hasc hclean orders times hfound rfl
    htimes hindices
  refine ⟨snapshot, rows, first, chunks, ?_, hread, ?_, ?_⟩
  · simp only [createSnapshot, ← hrows, hl.ne', hl.not_gt, if_false, Int.toNat_natCast, hfirstRows,
      hfirst, bind, Except.bind, pure, Except.pure, hsnapshot, htotal]
  · have hpos : 1 ≤ total := htotal ▸ le_max_left 1 _
    obtain ⟨n, hn⟩ : ∃ n, total.toNat = n + 1 := Nat.exists_eq_add_one_of_ne_zero (by omega)
    rw [hsnapshot, hn, List.range_succ_eq_map] at hchunks
    cases hchunks with
    | cons hzero _ =>
      rw [Except.ok.inj (hzero.symm.trans hfirst), List.head?_cons]
  · rw [hsnapshot] at hchunks
    exact partition_iff π.loads_empty (by exact_mod_cast hl) hasc hclean htotal hchunks

namespace Sample

def byId : Sorter bySeq where
  order := orderBy ChangeLog.seq
  perm rows := orderBy_perm rows
  sorted rows := List.pairwise_insertionSort (fun a b : ChangeLog => a.seq ≤ b.seq) rows

def clearedDraft : List Event :=
  [.write 0 (.create 1 (some (.obj [("a", .null)]))), .write 0 (.update 1 none),
    .write 0 (.update 1 (some (some (.text "")))), .write 0 (.submit 1),
    .write 0 (.approve 1 .null "A"), .write 0 (.registerEntity 2 "B" [])]

end Sample

theorem registered_chunks_partition_iff :
    ∃ t, (registry plainPlatform).exec .empty [.write 0 (.registerEntity 1 "A" [])] = some t ∧
      ∃ snapshot rows first chunks,
        createSnapshot plainPlatform.loads t ["acs"] 1 none = .ok (snapshot, rows, first) ∧
          readChunks plainPlatform.loads (fun _ => Sample.byId) (fun _ => 0) "s" 1
            (List.range snapshot.chunkTotal.toNat)
            (snapshot.store "s" rows 0 (calculateExpireTime 0 24 168) :: []) = .ok chunks ∧
          chunks.head? = some first ∧
          (Partition plainPlatform.loads rows chunks ↔ ∀ c ∈ rows, c.payload ≠ some (.text "")) := by
  obtain ⟨t, ht⟩ : ∃ t, (registry plainPlatform).exec .empty
      [.write 0 (.registerEntity 1 "A" [])] = some t := ⟨_, rfl⟩
  exact ⟨t, ht, snapshot_chunks_partition_iff ht ["acs"] none (by decide) [] 0 24 168
    (fun _ => Sample.byId) (fun _ => by decide)⟩

theorem cleared_acs_leaves_chunk_empty :
    ∃ t snapshot rows first chunks, (registry plainPlatform).exec .empty Sample.clearedDraft = some t ∧
      createSnapshot plainPlatform.loads t ["acs"] 1 none = .ok (snapshot, rows, first) ∧
      readChunks plainPlatform.loads (fun _ => Sample.byId) (fun _ => 0) "s" 1
        (List.range snapshot.chunkTotal.toNat)
        [snapshot.store "s" rows 0 (calculateExpireTime 0 24 168)] = .ok chunks ∧
      ¬ Partition plainPlatform.loads rows chunks := by
  refine ⟨_, _, _, _, _, rfl, rfl, rfl, ?_⟩
  intro h
  have hlen := h.delivered.length_eq
  revert hlen
  decide

end Acps.Registry
