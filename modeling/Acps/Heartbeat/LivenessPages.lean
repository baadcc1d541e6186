import Acps.Heartbeat.LivenessQuery
import Acps.Lib.Marks

/-!
Following the cursors of the list query. A cursor has a position for the shards that the last page has
entries of: a shard that it leaves out is read from the start again.
-/

namespace Acps.Heartbeat

open Marks

abbrev IndexedRow := ℕ × String × ℤ

def IndexedRow.shard (r : IndexedRow) : ℕ := r.1

def IndexedRow.score (r : IndexedRow) : ℤ := r.2.2

section Rows

variable (sharding : Sharding) (f : Fleet) (lower : Option ℤ) (upper : ℤ)

def shardRows (shard : ℕ) : List IndexedRow :=
  ((f shard).livenessZset.rangeByScore (inRange lower upper)).reverse.map fun e => (shard, e)

def indexedRows : List IndexedRow := (List.range sharding.shardCount).flatMap (shardRows f lower upper)

def pagePositions (shards : List ℕ) (page : List IndexedRow) : List (Text × ShardPosition) :=
  shards.filterMap fun shard => ((page.filter fun r => r.shard = shard).getLast?).map fun r =>
    (shardId shard sharding.shardCount, ⟨r.score, r.2.1⟩)

def stored (r : IndexedRow) : Option StoredEntry :=
  ((f r.1).latest r.2.1).map fun row => (r.1, r.2.1, row)

def marks (cursor : List (Text × ShardPosition)) (shard : ℕ) : Option ℤ :=
  (cursor.lookup (shardId shard sharding.shardCount)).map ShardPosition.lastSeenAtMs

end Rows

section Scan

variable {sharding : Sharding} {f : Fleet} {lower : Option ℤ} {upper : ℤ} {limit : ℕ}

theorem shardId_injective (shardCount : ℕ) :
    Function.Injective fun shard => shardId shard shardCount := by
  intro i j hij
  have hi := shardIndexFromId_shardId Sample.asciiDigits i shardCount
  have hj := shardIndexFromId_shardId Sample.asciiDigits j shardCount
  rw [show shardId i shardCount = shardId j shardCount from hij] at hi
  exact Except.ok.inj (hi.symm.trans hj)

theorem mem_shardRows {shard : ℕ} {r : IndexedRow} : r ∈ shardRows f lower upper shard ↔
    r.1 = shard ∧ (f shard).livenessZset.score r.2.1 = some r.2.2 ∧
      inRange lower upper r.2.2 = true := by
  obtain ⟨i, aic, x⟩ := r
  simp only [shardRows, List.mem_map, List.mem_reverse, Prod.mk.injEq]
  constructor
  · rintro ⟨e, he, rfl, rfl⟩
    exact ⟨rfl, SortedSet.mem_rangeByScore.mp he⟩
  · rintro ⟨rfl, h⟩
    exact ⟨(aic, x), SortedSet.mem_rangeByScore.mpr h, rfl, rfl⟩

theorem mem_indexedRows {r : IndexedRow} : r ∈ indexedRows sharding f lower upper ↔
    r.1 < sharding.shardCount ∧ (f r.1).livenessZset.score r.2.1 = some r.2.2 ∧
      inRange lower upper r.2.2 = true := by
  simp only [indexedRows, List.mem_flatMap, List.mem_range, mem_shardRows]
  constructor
  · rintro ⟨i, hi, rfl, h⟩
    exact ⟨hi, h⟩
  · rintro ⟨hi, h⟩
    exact ⟨r.1, hi, rfl, h⟩

theorem rangeByScore_position {z : SortedSet String ℤ} {c : ℤ} (hc : c ≤ upper) :
    z.rangeByScore (inRange lower (c - 1)) =
      (z.rangeByScore (inRange lower upper)).filter fun e => e.2 < c := by
  apply (z.ascending_rangeByScore _).unique ((z.ascending_rangeByScore _).filter _)
  rintro ⟨aic, x⟩
  rw [List.mem_filter, SortedSet.mem_rangeByScore, SortedSet.mem_rangeByScore, and_assoc,
    decide_eq_true_eq]
  refine and_congr_right fun _ => ?_
  unfold inRange
  rw [Bool.and_eq_true, Bool.and_eq_true, decide_eq_true_eq, decide_eq_true_eq]
  constructor
  · rintro ⟨hlower, hx⟩
    exact ⟨⟨hlower, by omega⟩, by change x < c; omega⟩
  · rintro ⟨⟨hlower, -⟩, hx⟩
    have hlt : x < c := hx
    exact ⟨hlower, by omega⟩

variable {cursor : List (Text × ShardPosition)}

theorem found_eq {shard : ℕ} (hmarks : ∀ c, marks sharding cursor shard = some c → c ≤ upper)
    (remainingRoom : ℕ) :
    (zrevrangeByScore (f shard) lower
        ((cursor.lookup (shardId shard sharding.shardCount)).elim upper fun pos =>
          pos.lastSeenAtMs - 1) remainingRoom).map (fun e => (shard, e)) =
      (remaining IndexedRow.shard IndexedRow.score (shardRows f lower upper shard)
        (marks sharding cursor)).take remainingRoom := by
  have hshard : ∀ r ∈ shardRows f lower upper shard, r.shard = shard := fun r hr =>
    (mem_shardRows.mp hr).1
  rw [zrevrangeByScore, List.map_take]
  congr 1
  cases hpos : cursor.lookup (shardId shard sharding.shardCount) with
  | none =>
    have hnone : marks sharding cursor shard = none := by rw [marks, hpos, Option.map_none]
    rw [remaining_of_none fun r hr => by rw [hshard r hr]; exact hnone]
    rfl
  | some pos =>
    have hsome : marks sharding cursor shard = some pos.lastSeenAtMs := by rw [marks, hpos]; rfl
    rw [Option.elim_some, rangeByScore_position (hmarks _ hsome), ← List.filter_reverse, remaining,
      shardRows, List.filter_map]
    congr 1
    apply List.filter_congr
    intro e he
    rw [Function.comp_apply, isOpen]
    change _ = (marks sharding cursor shard).all _
    rw [hsome]
    rfl

theorem mgetEntries_eq (shard : ℕ) (found : List (String × ℤ)) :
    mgetEntries (f shard) shard (found.map Prod.fst) =
      (found.map fun e => (shard, e)).filterMap (stored f) := by
  rw [mgetEntries, List.filterMap_map, List.filterMap_map]
  rfl

def lastPosition (sharding : Sharding) (shard : ℕ) (rows : List IndexedRow) :
    Option (Text × ShardPosition) :=
  rows.getLast?.map fun r => (shardId shard sharding.shardCount, ⟨r.score, r.2.1⟩)

theorem scanShard_eq {shard : ℕ} (hmarks : ∀ c, marks sharding cursor shard = some c → c ≤ upper)
    (scan : Scan) :
    let taken := (remaining IndexedRow.shard IndexedRow.score (shardRows f lower upper shard)
      (marks sharding cursor)).take (limit - scan.items.length)
    scanShard sharding f lower upper limit cursor scan shard =
      ⟨scan.items ++ taken.filterMap (stored f),
        scan.positions ++ (lastPosition sharding shard taken).toList⟩ := by
  intro taken
  obtain ⟨found, hfound⟩ : ∃ found, found = zrevrangeByScore (f shard) lower
      ((cursor.lookup (shardId shard sharding.shardCount)).elim upper fun pos =>
        pos.lastSeenAtMs - 1) (limit - scan.items.length) := ⟨_, rfl⟩
  have htaken : taken = found.map fun e => (shard, e) := by
    rw [hfound, found_eq hmarks]
  unfold scanShard
  split
  · next hfull =>
    have hnil : taken = [] := by
      change List.take _ _ = []
      rw [Nat.sub_eq_zero_of_le hfull, List.take_zero]
    rw [hnil, lastPosition]
    simp
  · dsimp only
    rw [← hfound, mgetEntries_eq, ← htaken]
    cases hlast : found.getLast? with
    | none =>
      have hnil : taken = [] := by rw [htaken, List.getLast?_eq_none_iff.mp hlast, List.map_nil]
      rw [hnil, lastPosition]
      simp
    | some last =>
      rw [lastPosition, htaken, List.getLast?_map, hlast]
      rfl

theorem pagePositions_cons {shard : ℕ} {shards : List ℕ} {taken others : List IndexedRow}
    (htaken : ∀ r ∈ taken, r.shard = shard) (hothers : ∀ r ∈ others, r.shard ≠ shard)
    (hnot : shard ∉ shards) :
    pagePositions sharding (shard :: shards) (taken ++ others) =
      (lastPosition sharding shard taken).toList ++ pagePositions sharding shards others := by
  have hfirst : (taken ++ others).filter (fun r => r.shard = shard) = taken := by
    rw [List.filter_append, List.filter_eq_self.mpr fun r hr => decide_eq_true (htaken r hr),
      List.filter_eq_nil_iff.mpr fun r hr => by simpa using hothers r hr, List.append_nil]
  have hrest : pagePositions sharding shards (taken ++ others) =
      pagePositions sharding shards others := by
    apply List.filterMap_congr
    intro i hi
    have hnil : taken.filter (fun r => r.shard = i) = [] := by
      apply List.filter_eq_nil_iff.mpr
      intro r hr
      rw [htaken r hr]
      simpa using fun heq : shard = i => hnot (heq ▸ hi)
    rw [List.filter_append, hnil, List.nil_append]
  rw [pagePositions, List.filterMap_cons, ← pagePositions, hrest, hfirst, lastPosition]
  cases taken.getLast? <;> rfl

theorem scan_eq (hstored : ∀ r ∈ indexedRows sharding f lower upper, ((f r.1).latest r.2.1).isSome)
    (hmarks : ∀ shard c, marks sharding cursor shard = some c → c ≤ upper) {shards : List ℕ}
    (hshards : shards.Nodup) (hsub : ∀ i ∈ shards, i < sharding.shardCount) (scan : Scan) :
    let taken := (shards.flatMap fun shard => remaining IndexedRow.shard IndexedRow.score
      (shardRows f lower upper shard) (marks sharding cursor)).take (limit - scan.items.length)
    shards.foldl (scanShard sharding f lower upper limit cursor) scan =
      ⟨scan.items ++ taken.filterMap (stored f),
        scan.positions ++ pagePositions sharding shards taken⟩ := by
  induction shards generalizing scan with
  | nil => simp [pagePositions]
  | cons shard shards ih =>
    obtain ⟨hnot, hshards⟩ := List.nodup_cons.mp hshards
    intro taken
    obtain ⟨first, hfirst⟩ : ∃ first, first = (remaining IndexedRow.shard IndexedRow.score
      (shardRows f lower upper shard) (marks sharding cursor)).take (limit - scan.items.length) :=
      ⟨_, rfl⟩
    obtain ⟨others, hothers⟩ : ∃ others, others = (shards.flatMap fun shard =>
      remaining IndexedRow.shard IndexedRow.score (shardRows f lower upper shard)
        (marks sharding cursor)).take (limit - scan.items.length - first.length) := ⟨_, rfl⟩
    have hrow {i : ℕ} {r : IndexedRow} (hr : r ∈ remaining IndexedRow.shard IndexedRow.score
        (shardRows f lower upper i) (marks sharding cursor)) :
        r.shard = i ∧ r ∈ shardRows f lower upper i :=
      ⟨(mem_shardRows.mp (mem_remaining.mp hr).1).1, (mem_remaining.mp hr).1⟩
    have hfirstrow : ∀ r ∈ first, r.shard = shard := fun r hr =>
      (hrow (List.mem_of_mem_take (hfirst ▸ hr))).1
    have hotherrow : ∀ r ∈ others, r.shard ≠ shard := by
      intro r hr heq
      obtain ⟨i, hi, hri⟩ := List.mem_flatMap.mp (List.mem_of_mem_take (hothers ▸ hr))
      exact hnot (heq ▸ (hrow hri).1 ▸ hi)
    have hlength : (first.filterMap (stored f)).length = first.length := by
      rw [List.length_filterMap_eq_countP, List.countP_eq_length]
      intro r hr
      have hmem := (hrow (List.mem_of_mem_take (hfirst ▸ hr))).2
      have hin : r ∈ indexedRows sharding f lower upper :=
        List.mem_flatMap.mpr ⟨shard, List.mem_range.mpr (hsub shard List.mem_cons_self), hmem⟩
      rw [stored, Option.isSome_map]
      exact hstored r hin
    have hsplit : taken = first ++ others := by
      change ((shard :: shards).flatMap _).take _ = _
      rw [List.flatMap_cons, List.take_append, ← hfirst, hothers]
      congr 2
      rw [hfirst, List.length_take]
      omega
    have hroom : limit - (scan.items ++ first.filterMap (stored f)).length =
        limit - scan.items.length - first.length := by
      rw [List.length_append, hlength]
      omega
    rw [List.foldl_cons, scanShard_eq (hmarks shard), ← hfirst,
      ih hshards fun i hi => hsub i (List.mem_cons_of_mem _ hi)]
    dsimp only
    rw [hroom, ← hothers, hsplit, List.filterMap_append, pagePositions_cons hfirstrow hotherrow hnot,
      List.append_assoc, List.append_assoc]

end Scan

section Positions

variable {sharding : Sharding} {f : Fleet} {lower : Option ℤ} {upper : ℤ} {limit : ℕ}

theorem lookup_filterMap {α β γ : Type} [DecidableEq α] [BEq β] [LawfulBEq β] {key : α → β}
    (hkey : Function.Injective key) (g : α → Option γ) (l : List α) (a : α) :
    (l.filterMap fun b => (g b).map fun v => (key b, v)).lookup (key a) =
      if a ∈ l then g a else none := by
  induction l with
  | nil => rfl
  | cons b l ih =>
    rw [List.filterMap_cons]
    by_cases hab : a = b
    · subst hab
      rw [if_pos List.mem_cons_self]
      cases hg : g a with
      | none =>
        rw [Option.map_none, ih, hg]
        split <;> rfl
      | some v => simp
    · have hmem : (a ∈ b :: l) = (a ∈ l) := by simp [hab]
      have hne : (key a == key b) = false := beq_eq_false_iff_ne.mpr fun h => hab (hkey h)
      cases g b with
      | none =>
        rw [Option.map_none, ih]
        simp only [hmem]
      | some v =>
        rw [Option.map_some]
        dsimp only
        rw [List.lookup_cons, hne]
        simpa only [hmem] using ih

theorem nodup_keys_pagePositions (page : List IndexedRow) :
    ((pagePositions sharding (List.range sharding.shardCount) page).map Prod.fst).Nodup := by
  have hsub : ((pagePositions sharding (List.range sharding.shardCount) page).map Prod.fst).Sublist
      ((List.range sharding.shardCount).map fun shard => shardId shard sharding.shardCount) := by
    generalize List.range sharding.shardCount = shards
    induction shards with
    | nil => exact List.Sublist.slnil
    | cons shard shards ih =>
      rw [pagePositions, List.filterMap_cons, ← pagePositions, List.map_cons]
      cases (page.filter fun r => r.shard = shard).getLast? with
      | none => exact ih.cons _
      | some r => exact ih.cons_cons _
  exact (List.nodup_range.map (shardId_injective sharding.shardCount)).sublist hsub

theorem marks_pagePositions {page : List IndexedRow}
    (hpage : ∀ r ∈ page, r.shard < sharding.shardCount) :
    marks sharding (pagePositions sharding (List.range sharding.shardCount) page) =
      marksOf IndexedRow.shard IndexedRow.score page := by
  funext i
  have hlookup := lookup_filterMap (shardId_injective sharding.shardCount)
    (fun shard => ((page.filter fun r => r.shard = shard).getLast?).map fun r =>
      (⟨r.score, r.2.1⟩ : ShardPosition)) (List.range sharding.shardCount) i
  have hpos : pagePositions sharding (List.range sharding.shardCount) page =
      (List.range sharding.shardCount).filterMap fun shard =>
        (((page.filter fun r => r.shard = shard).getLast?).map fun r =>
          (⟨r.score, r.2.1⟩ : ShardPosition)).map fun v =>
            (shardId shard sharding.shardCount, v) := by
    apply List.filterMap_congr
    intro shard _
    rw [Option.map_map]
    rfl
  rw [marks, hpos]
  refine (congrArg (Option.map ShardPosition.lastSeenAtMs) hlookup).trans ?_
  split
  · rw [Option.map_map]
    rfl
  · next hout =>
    rw [List.mem_range, not_lt] at hout
    refine (marksOf_eq_none_iff.mpr ?_).symm
    intro r hr heq
    have := hpage r hr
    omega

theorem pagePositions_eq_nil_iff {page : List IndexedRow}
    (hpage : ∀ r ∈ page, r.shard < sharding.shardCount) :
    pagePositions sharding (List.range sharding.shardCount) page = [] ↔ page = [] := by
  constructor
  · intro hnil
    rw [List.eq_nil_iff_forall_not_mem]
    intro r hr
    have hnone : marksOf IndexedRow.shard IndexedRow.score page r.shard = none := by
      rw [← marks_pagePositions hpage, hnil]
      rfl
    exact marksOf_eq_none_iff.mp hnone r hr rfl
  · rintro rfl
    simp [pagePositions]

variable {cursor : List (Text × ShardPosition)}

theorem scanShards_eq
    (hstored : ∀ r ∈ indexedRows sharding f lower upper, ((f r.1).latest r.2.1).isSome)
    (hmarks : ∀ shard c, marks sharding cursor shard = some c → c ≤ upper) :
    let taken := page IndexedRow.shard IndexedRow.score limit (indexedRows sharding f lower upper)
      (marks sharding cursor)
    scanShards sharding f lower upper limit cursor =
      ⟨taken.filterMap (stored f),
        pagePositions sharding (List.range sharding.shardCount) taken⟩ := by
  have hpage : page IndexedRow.shard IndexedRow.score limit (indexedRows sharding f lower upper)
      (marks sharding cursor) = ((List.range sharding.shardCount).flatMap fun shard =>
        remaining IndexedRow.shard IndexedRow.score (shardRows f lower upper shard)
          (marks sharding cursor)).take limit := by
    rw [page, remaining, indexedRows, List.filter_flatMap]
    rfl
  intro taken
  have hscan := @scan_eq sharding f lower upper limit cursor hstored hmarks _ List.nodup_range
    (fun i hi => List.mem_range.mp hi) ⟨[], []⟩
  dsimp only at hscan
  rw [List.length_nil, Nat.sub_zero, ← hpage, List.nil_append, List.nil_append] at hscan
  exact hscan

end Positions

section Follow

variable (L : QueryLibrary) (msToIso : ℤ → String) (silenceThresholdSeconds : ℤ)
  (sharding : Sharding) (f : Fleet) (now : ℤ)

def LivenessQueryRequest.behind (request : LivenessQueryRequest) (cursor : String) :
    LivenessQueryRequest :=
  { request with cursor := some cursor }

def followLiveness :
    ℕ → LivenessQueryRequest → Option (Except QueryError (List (List LivenessView)))
  | 0, _ => none
  | fuel + 1, request =>
    match queryLiveness L msToIso silenceThresholdSeconds sharding f now request with
    | .error e => some (.error e)
    | .ok (items, none) => some (.ok [items])
    | .ok (items, some cursor) =>
      (followLiveness fuel (request.behind cursor)).map fun rest => rest.map (items :: ·)

def pageViews (page : List IndexedRow) : List LivenessView :=
  (page.filterMap (stored f)).map (entryView msToIso silenceThresholdSeconds now)

structure Continues (asked : LivenessFilter) (request : LivenessQueryRequest)
    (positions : List (Text × ShardPosition)) : Prop where
  filter : request.filter = some asked
  keys : (positions.map Prod.fst).Nodup
  cursor : request.cursor = none ∧ positions = [] ∨
    request.cursor = some (encodeCursor L.json ⟨positions, L.filterFingerprint asked⟩)

variable {L msToIso silenceThresholdSeconds sharding f now} {lower : Option ℤ} {upper : ℤ}
  {filter : LivenessFilter} {request : LivenessQueryRequest}
  {positions : List (Text × ShardPosition)}

theorem queryLiveness_eq (hJ : L.json.Lawful)
    (hplan : planLivenessQuery L request now = .ok (.silenceRange lower upper))
    (hrequest : Continues L filter request positions)
    (hstored : ∀ r ∈ indexedRows sharding f lower upper, ((f r.1).latest r.2.1).isSome)
    (hmarks : ∀ shard c, marks sharding positions shard = some c → c ≤ upper) :
    let taken := page IndexedRow.shard IndexedRow.score (request.limit.getD 50)
      (indexedRows sharding f lower upper) (marks sharding positions)
    queryLiveness L msToIso silenceThresholdSeconds sharding f now request =
      .ok (pageViews msToIso silenceThresholdSeconds f now taken,
        if pagePositions sharding (List.range sharding.shardCount) taken = [] then none
        else some (encodeCursor L.json
          ⟨pagePositions sharding (List.range sharding.shardCount) taken,
            L.filterFingerprint filter⟩)) := by
  intro taken
  have hscan := @scanShards_eq sharding f lower upper (request.limit.getD 50) positions hstored hmarks
  dsimp only at hscan
  rcases hrequest.cursor with ⟨hcursor, rfl⟩ | hcursor
  · simp only [queryLiveness, queryEntries, hplan, hrequest.filter, hcursor]
    change Except.ok (List.map _ (scanShards sharding f lower upper _ []).items,
      if (scanShards sharding f lower upper _ []).positions = [] then none else _) = _
    rw [hscan]
    rfl
  · have hread := decodeCursor_encodeCursor hJ
      (c := ⟨positions, L.filterFingerprint filter⟩) hrequest.keys
    have hraw : request.cursor.filter (· ≠ "") =
        some (encodeCursor L.json ⟨positions, L.filterFingerprint filter⟩) := by
      rw [hcursor, Option.filter_some, if_pos (by simpa using encodeCursor_ne hJ _)]
    simp only [queryLiveness, queryEntries, hplan, hrequest.filter, hraw]
    dsimp only at hread
    change Except.map _ (((decodeCursor L.json _ (L.filterFingerprint filter)).elim
      (Except.error QueryError.cursorInvalid) fun c => Except.ok c.positions) >>= _) = _
    rw [hread]
    change Except.ok (List.map _ (scanShards sharding f lower upper _ positions).items,
      if (scanShards sharding f lower upper _ positions).positions = [] then none else _) = _
    rw [hscan]
    rfl

theorem followLiveness_eq (hJ : L.json.Lawful)
    (hstored : ∀ r ∈ indexedRows sharding f lower upper, ((f r.1).latest r.2.1).isSome) {fuel : ℕ}
    (hplan : planLivenessQuery L request now = .ok (.silenceRange lower upper))
    (hrequest : Continues L filter request positions)
    (hmarks : ∀ shard c, marks sharding positions shard = some c → c ≤ upper) :
    followLiveness L msToIso silenceThresholdSeconds sharding f now fuel request =
      (follow IndexedRow.shard IndexedRow.score (request.limit.getD 50)
        (indexedRows sharding f lower upper) fuel (marks sharding positions)).map fun pages =>
          .ok (pages.map (pageViews msToIso silenceThresholdSeconds f now)) := by
  induction fuel generalizing request positions with
  | zero => rfl
  | succ fuel ih =>
    have hquery := @queryLiveness_eq L msToIso silenceThresholdSeconds sharding f now lower upper
      filter request positions hJ hplan hrequest hstored hmarks
    obtain ⟨taken, htaken⟩ : ∃ taken, taken = page IndexedRow.shard IndexedRow.score
      (request.limit.getD 50) (indexedRows sharding f lower upper) (marks sharding positions) :=
      ⟨_, rfl⟩
    have hrows : ∀ r ∈ taken, r ∈ indexedRows sharding f lower upper := fun r hr =>
      (mem_remaining.mp (List.mem_of_mem_take (htaken ▸ hr))).1
    have hshards : ∀ r ∈ taken, r.shard < sharding.shardCount := fun r hr =>
      (mem_indexedRows.mp (hrows r hr)).1
    dsimp only at hquery
    rw [← htaken] at hquery
    rw [followLiveness, hquery, follow, ← htaken]
    by_cases hempty : taken = []
    · rw [if_pos ((pagePositions_eq_nil_iff hshards).mpr hempty), if_pos hempty, hempty]
      rfl
    · rw [if_neg fun hnil => hempty ((pagePositions_eq_nil_iff hshards).mp hnil), if_neg hempty]
      obtain ⟨cursor, hcursor⟩ : ∃ cursor, cursor = encodeCursor L.json
        ⟨pagePositions sharding (List.range sharding.shardCount) taken,
          L.filterFingerprint filter⟩ := ⟨_, rfl⟩
      have hnext : Continues L filter (request.behind cursor)
          (pagePositions sharding (List.range sharding.shardCount) taken) :=
        ⟨hrequest.filter, nodup_keys_pagePositions taken, .inr (congrArg some hcursor)⟩
      have hnextplan : planLivenessQuery L (request.behind cursor) now =
          .ok (.silenceRange lower upper) := hplan
      have hbelow : ∀ shard c, marks sharding
          (pagePositions sharding (List.range sharding.shardCount) taken) shard = some c →
            c ≤ upper := by
        intro shard c hc
        rw [marks_pagePositions hshards] at hc
        obtain ⟨r, hr, -, rfl⟩ := exists_of_marksOf hc
        have hrange := (mem_indexedRows.mp (hrows r hr)).2.2
        rw [inRange, Bool.and_eq_true, decide_eq_true_eq] at hrange
        exact hrange.2
      dsimp only
      rw [← hcursor, ih hnextplan hnext hbelow, marks_pagePositions hshards, Option.map_map, Option.map_map]
      rfl

end Follow

section Complete

variable {sharding : Sharding} {f : Fleet} {lower : Option ℤ} {upper : ℤ} {limit : ℕ}

def Matching (sharding : Sharding) (f : Fleet) (lower : Option ℤ) (upper : ℤ) (aic : String) : Prop :=
  ∃ x, (f (sharding.shardIndexForAic aic)).livenessZset.score aic = some x ∧
    inRange lower upper x = true

/-- Of the first shard with rows: no tie is cut by a page, and the pages that it needs have room for
the rows of all shards. -/
def Exhaustive (sharding : Sharding) (f : Fleet) (lower : Option ℤ) (upper : ℤ) (limit : ℕ) : Prop :=
  ∀ shard < sharding.shardCount, shardRows f lower upper shard ≠ [] →
    (∀ i < shard, shardRows f lower upper i = []) →
      Untied limit ((shardRows f lower upper shard).map IndexedRow.score) ∧
        (indexedRows sharding f lower upper).length ≤
          capacity limit (shardRows f lower upper shard).length

theorem nodup_shardRows (shard : ℕ) : (shardRows f lower upper shard).Nodup := by
  have hascending := (f shard).livenessZset.ascending_rangeByScore (inRange lower upper)
  refine List.Nodup.map (Prod.mk_right_injective shard) (List.nodup_reverse.mpr ?_)
  exact hascending.imp fun hlt heq => (heq ▸ hlt).false

theorem falling_indexedRows :
    Falling IndexedRow.shard IndexedRow.score (indexedRows sharding f lower upper) := by
  refine List.pairwise_flatMap.mpr ⟨?_, ?_⟩
  · intro shard _
    have hascending := (f shard).livenessZset.ascending_rangeByScore (inRange lower upper)
    refine List.pairwise_map.mpr (List.pairwise_reverse.mpr (hascending.imp ?_))
    intro a b hlt _
    rcases Prod.Lex.toLex_lt_toLex.mp hlt with hlt | ⟨heq, -⟩
    · exact hlt.le
    · exact heq.le
  · refine List.nodup_range.imp ?_
    intro i j hij a ha b hb heq
    exact absurd ((mem_shardRows.mp ha).1.symm.trans (heq.trans (mem_shardRows.mp hb).1)) hij

theorem nodup_indexedRows : (indexedRows sharding f lower upper).Nodup := by
  refine List.nodup_flatMap.mpr ⟨fun shard _ => nodup_shardRows shard, ?_⟩
  refine List.nodup_range.imp ?_
  intro i j hij a ha hb
  exact hij ((mem_shardRows.mp ha).1.symm.trans (mem_shardRows.mp hb).1)

theorem exists_split (hne : indexedRows sharding f lower upper ≠ []) :
    ∃ shard < sharding.shardCount, ∃ others,
      shardRows f lower upper shard ≠ [] ∧ (∀ i < shard, shardRows f lower upper i = []) ∧
      indexedRows sharding f lower upper = shardRows f lower upper shard ++ others ∧
      Split IndexedRow.shard IndexedRow.score shard (shardRows f lower upper shard) others := by
  have hsome : ∃ shard, shard < sharding.shardCount ∧ shardRows f lower upper shard ≠ [] := by
    obtain ⟨r, hr⟩ := List.exists_mem_of_ne_nil _ hne
    obtain ⟨shard, hshard, hr⟩ := List.mem_flatMap.mp hr
    exact ⟨shard, List.mem_range.mp hshard, List.ne_nil_of_mem hr⟩
  classical
  obtain ⟨hlt, hrows⟩ := Nat.find_spec hsome
  have hfirst : ∀ i < Nat.find hsome, shardRows f lower upper i = [] := by
    intro i hi
    by_contra hi'
    exact Nat.find_min hsome hi ⟨hi.trans hlt, hi'⟩
  generalize Nat.find hsome = shard at hlt hrows hfirst
  obtain ⟨m, hm⟩ := Nat.exists_eq_add_of_lt hlt
  have hsplit : indexedRows sharding f lower upper = shardRows f lower upper shard ++
      (List.range' (shard + 1) m).flatMap (shardRows f lower upper) := by
    have hrange : List.range sharding.shardCount =
        List.range shard ++ shard :: List.range' (shard + 1) m := by
      have happend := @List.range'_append_1 0 shard (m + 1)
      rw [Nat.zero_add, List.range'_succ] at happend
      rw [hm, List.range_eq_range', List.range_eq_range', happend, Nat.add_assoc]
    have hbefore : (List.range shard).flatMap (shardRows f lower upper) = [] :=
      List.flatMap_eq_nil_iff.mpr fun i hi => hfirst i (List.mem_range.mp hi)
    rw [indexedRows, hrange, List.flatMap_append, hbefore, List.nil_append, List.flatMap_cons]
  refine ⟨shard, hlt, _, hrows, hfirst, hsplit, fun r hr => (mem_shardRows.mp hr).1, ?_, ?_⟩
  · intro r hr heq
    obtain ⟨i, hi, hri⟩ := List.mem_flatMap.mp hr
    have hle := (List.mem_range'_1.mp hi).1
    have hi' : i = shard := (mem_shardRows.mp hri).1.symm.trans heq
    omega
  · rw [← hsplit]
    exact falling_indexedRows

theorem marks_complete_iff (hlimit : 0 < limit) :
    Marks.Complete IndexedRow.shard IndexedRow.score limit (indexedRows sharding f lower upper) ↔
      Exhaustive sharding f lower upper limit := by
  by_cases hne : indexedRows sharding f lower upper = []
  · rw [hne]
    refine iff_of_true complete_nil ?_
    intro shard hlt hrows
    exact absurd (List.flatMap_eq_nil_iff.mp hne shard (List.mem_range.mpr hlt)) hrows
  · obtain ⟨shard, hlt, others, hrows, hfirst, hsplit, hcut⟩ := exists_split hne
    have hcomplete := hcut.complete_iff hlimit (hsplit ▸ nodup_indexedRows) hrows
    rw [← hsplit] at hcomplete
    rw [hcomplete]
    constructor
    · intro h i hi hirows hifirst
      obtain rfl : i = shard := by
        rcases Nat.lt_trichotomy i shard with hlt' | rfl | hgt
        · exact absurd (hfirst i hlt') hirows
        · rfl
        · exact absurd (hifirst shard hgt) hrows
      exact h
    · intro h
      exact h shard hlt hrows hfirst

end Complete

section Claim

variable {sharding : Sharding} {f : Fleet} {lower : Option ℤ} {upper : ℤ}

theorem Fleet.Consistent.row_of_indexed (h : f.Consistent sharding) {r : IndexedRow}
    (hr : r ∈ indexedRows sharding f lower upper) :
    sharding.shardIndexForAic r.2.1 = r.1 ∧ ((f r.1).latest r.2.1).isSome := by
  obtain ⟨hhome, hscore⟩ := h.score.mp (mem_indexedRows.mp hr).2.1
  obtain ⟨row, hrow, -⟩ := Option.bind_eq_some_iff.mp hscore
  rw [Fleet.getLatest, hhome] at hrow
  exact ⟨hhome, Option.isSome_iff_exists.mpr ⟨row, hrow⟩⟩

theorem Fleet.Consistent.nodup_aics (h : f.Consistent sharding) :
    ((indexedRows sharding f lower upper).map fun r => r.2.1).Nodup := by
  refine List.Nodup.map_on ?_ nodup_indexedRows
  rintro ⟨i, aic, x⟩ hr ⟨j, aic', y⟩ hr' heq
  have haic : aic = aic' := heq
  subst haic
  have hij : i = j := (h.row_of_indexed hr).1.symm.trans (h.row_of_indexed hr').1
  subst hij
  have hx := (mem_indexedRows.mp hr).2.1
  have hy := (mem_indexedRows.mp hr').2.1
  rw [show x = y from Option.some.inj (hx.symm.trans hy)]

theorem Fleet.Consistent.mem_aics_iff (h : f.Consistent sharding) {aic : String} :
    aic ∈ (indexedRows sharding f lower upper).map (fun r => r.2.1) ↔
      Matching sharding f lower upper aic := by
  rw [List.mem_map]
  constructor
  · rintro ⟨r, hr, rfl⟩
    refine ⟨r.2.2, ?_⟩
    rw [(h.row_of_indexed hr).1]
    exact (mem_indexedRows.mp hr).2
  · rintro ⟨x, hx⟩
    refine ⟨(sharding.shardIndexForAic aic, aic, x), mem_indexedRows.mpr ⟨?_, hx⟩, rfl⟩
    exact Nat.mod_lt _ sharding.shardCount_pos

theorem aic_pageViews {msToIso : ℤ → String} {silenceThresholdSeconds now : ℤ}
    {page : List IndexedRow} (hstored : ∀ r ∈ page, ((f r.1).latest r.2.1).isSome) :
    (pageViews msToIso silenceThresholdSeconds f now page).map LivenessView.aic =
      page.map fun r => r.2.1 := by
  induction page with
  | nil => rfl
  | cons r page ih =>
    obtain ⟨row, hrow⟩ := Option.isSome_iff_exists.mp (hstored r List.mem_cons_self)
    have hfirst : stored f r = some (r.1, r.2.1, row) := by rw [stored, hrow]; rfl
    rw [pageViews, List.filterMap_cons, hfirst, List.map_cons, List.map_cons, List.map_cons]
    exact congrArg _ (ih fun q hq => hstored q (List.mem_cons_of_mem r hq))

theorem follow_complete_iff (L : QueryLibrary) (hJ : L.json.Lawful) (msToIso : ℤ → String)
    (silenceThresholdSeconds : ℤ) {cs : List Call}
    (hf : (fleet sharding).exec .empty cs = some f) (now : ℤ) {request : LivenessQueryRequest}
    (hplan : planLivenessQuery L request now = .ok (.silenceRange lower upper))
    (hcursor : request.cursor = none) :
    (∃ fuel pages,
        followLiveness L msToIso silenceThresholdSeconds sharding f now fuel request =
          some (.ok pages) ∧
        (pages.flatten.map LivenessView.aic).Nodup ∧
        ∀ aic, aic ∈ pages.flatten.map LivenessView.aic ↔ Matching sharding f lower upper aic) ↔
      Marks.Complete IndexedRow.shard IndexedRow.score (request.limit.getD 50)
        (indexedRows sharding f lower upper) := by
  have h := Fleet.Consistent.reachable hf
  have hstored : ∀ r ∈ indexedRows sharding f lower upper, ((f r.1).latest r.2.1).isSome :=
    fun r hr => (h.row_of_indexed hr).2
  obtain ⟨filter, hfilter⟩ : ∃ filter, request.filter = some filter := by
    cases hfilter : request.filter with
    | none =>
      unfold planLivenessQuery at hplan
      rw [hfilter] at hplan
      split at hplan <;> cases hplan
    | some filter => exact ⟨filter, rfl⟩
  have hrequest : Continues L filter request [] := ⟨hfilter, List.nodup_nil, .inl ⟨hcursor, rfl⟩⟩
  have hfollow (fuel : ℕ) := @followLiveness_eq L msToIso silenceThresholdSeconds sharding f now
    lower upper filter request [] hJ hstored fuel hplan hrequest (fun _ _ hc => by cases hc)
  have hviews (pages : List (List IndexedRow))
      (hsub : ∀ r ∈ pages.flatten, r ∈ indexedRows sharding f lower upper) :
      ((pages.map (pageViews msToIso silenceThresholdSeconds f now)).flatten.map LivenessView.aic) =
        pages.flatten.map fun r => r.2.1 := by
    have hflat : (pages.map (pageViews msToIso silenceThresholdSeconds f now)).flatten =
        pageViews msToIso silenceThresholdSeconds f now pages.flatten := by
      rw [pageViews, List.filterMap_flatten, List.map_flatten, List.map_map]
      rfl
    rw [hflat, aic_pageViews fun r hr => hstored r (hsub r hr)]
  constructor
  · rintro ⟨fuel, pages, hpages, hnodup, hmem⟩
    rw [hfollow] at hpages
    obtain ⟨pages, hmarks, heq⟩ := Option.map_eq_some_iff.mp hpages
    obtain rfl := Except.ok.inj heq
    have hsub := mem_of_follow hmarks
    rw [hviews pages hsub] at hnodup hmem
    refine ⟨fuel, pages, hmarks, ?_⟩
    apply (List.perm_ext_iff_of_nodup (List.Nodup.of_map _ hnodup) nodup_indexedRows).mpr
    intro r
    refine ⟨hsub r, fun hr => ?_⟩
    obtain ⟨q, hq, haic⟩ := List.mem_map.mp
      ((hmem r.2.1).mpr (h.mem_aics_iff.mp (List.mem_map.mpr ⟨r, hr, rfl⟩)))
    rwa [← List.inj_on_of_nodup_map h.nodup_aics (hsub q hq) hr haic]
  · rintro ⟨fuel, pages, hmarks, hperm⟩
    refine ⟨fuel, pages.map (pageViews msToIso silenceThresholdSeconds f now), ?_, ?_, ?_⟩
    · rw [hfollow]
      exact Option.map_eq_some_iff.mpr ⟨pages, hmarks, rfl⟩
    · rw [hviews pages (mem_of_follow hmarks), (hperm.map _).nodup_iff]
      exact h.nodup_aics
    · intro aic
      rw [hviews pages (mem_of_follow hmarks), (hperm.map _).mem_iff]
      exact h.mem_aics_iff

theorem liveness_pages_iff (L : QueryLibrary) (hJ : L.json.Lawful) (msToIso : ℤ → String)
    (silenceThresholdSeconds : ℤ) {cs : List Call}
    (hf : (fleet sharding).exec .empty cs = some f) (now : ℤ) {request : LivenessQueryRequest}
    (hplan : planLivenessQuery L request now = .ok (.silenceRange lower upper))
    (hcursor : request.cursor = none) (hlimit : 0 < request.limit.getD 50) :
    (∃ fuel pages,
        followLiveness L msToIso silenceThresholdSeconds sharding f now fuel request =
          some (.ok pages) ∧
        (pages.flatten.map LivenessView.aic).Nodup ∧
        ∀ aic, aic ∈ pages.flatten.map LivenessView.aic ↔ Matching sharding f lower upper aic) ↔
      Exhaustive sharding f lower upper (request.limit.getD 50) := by
  rw [follow_complete_iff L hJ msToIso silenceThresholdSeconds hf now hplan hcursor]
  exact marks_complete_iff hlimit

namespace Sample

def heardTogether : List Call :=
  [.applyHeartbeat "a" 0 "1970" none 30000 ⟨1000, 0⟩,
    .applyHeartbeat "b" 0 "1970" none 30000 ⟨1000, 0⟩]

def silentFor (limit : ℕ) : LivenessQueryRequest :=
  ⟨some (.mk [⟨"silenceDurationSeconds", "gte", .number 0⟩] [] .and), none, some limit, none⟩

theorem plan_silentFor (limit : ℕ) :
    planLivenessQuery queryLibrary (silentFor limit) 1000 = .ok (.silenceRange none 1000) := by
  rfl

end Sample

theorem liveness_pages_iff_at : ∃ f, (fleet Sample.oneShard).exec .empty Sample.heardTogether = some f ∧
    ((∃ fuel pages,
        followLiveness Sample.queryLibrary (fun _ => "") 90 Sample.oneShard f 1000 fuel
          (Sample.silentFor 2) = some (.ok pages) ∧
        (pages.flatten.map LivenessView.aic).Nodup ∧
        ∀ aic, aic ∈ pages.flatten.map LivenessView.aic ↔
          Matching Sample.oneShard f none 1000 aic) ↔
      Exhaustive Sample.oneShard f none 1000 2) := by
  obtain ⟨f, hf⟩ : ∃ f, (fleet Sample.oneShard).exec .empty Sample.heardTogether = some f := ⟨_, rfl⟩
  exact ⟨f, hf, liveness_pages_iff Sample.queryLibrary Sample.plainJson_lawful (fun _ => "") 90 hf 1000
    (Sample.plan_silentFor 2) rfl (Nat.succ_pos 1)⟩

theorem tie_between_pages_is_lost :
    ∃ f, (fleet Sample.oneShard).exec .empty Sample.heardTogether = some f ∧
      planLivenessQuery Sample.queryLibrary (Sample.silentFor 1) 1000 =
        .ok (.silenceRange none 1000) ∧
      ¬ ∃ fuel pages,
        followLiveness Sample.queryLibrary (fun _ => "") 90 Sample.oneShard f 1000 fuel
          (Sample.silentFor 1) = some (.ok pages) ∧
        (pages.flatten.map LivenessView.aic).Nodup ∧
        ∀ aic, aic ∈ pages.flatten.map LivenessView.aic ↔
          Matching Sample.oneShard f none 1000 aic := by
  have hrun : ((fleet Sample.oneShard).exec .empty Sample.heardTogether).any (fun f =>
      decide ((shardRows f none 1000 0).map IndexedRow.score = [0, 0])) = true := by decide +kernel
  obtain ⟨f, hf, hrows⟩ := (Option.any_eq_true _ _).mp hrun
  refine ⟨f, hf, Sample.plan_silentFor 1, ?_⟩
  rw [follow_complete_iff Sample.queryLibrary Sample.plainJson_lawful (fun _ => "") 90 hf 1000
    (Sample.plan_silentFor 1) rfl]
  intro hcomplete
  have hscores := of_decide_eq_true hrows
  have huntied := ((marks_complete_iff (Nat.succ_pos 0)).mp hcomplete 0 (Nat.succ_pos 0)
    (fun hnil => by rw [hnil] at hscores; cases hscores) (fun i hi => absurd hi i.not_lt_zero)).1
  rw [hscores] at huntied
  exact huntied 1 one_pos (by decide) rfl

end Claim

end Acps.Heartbeat
