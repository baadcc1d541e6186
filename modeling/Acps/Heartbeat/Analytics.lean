import Mathlib.Algebra.Order.Ring.Nat
import Acps.Heartbeat.Liveness
import Acps.Lib.Sorter

/-!
The two answers about all AICs at once: those that have been silent for longest, and how many are
alive. Both are put together from the shards.
-/

namespace Acps.Heartbeat

open Paging

structure TopSettings where
  silenceThresholdSeconds : ℤ
  evictAfterSeconds : ℤ
  silenceTopDefaultN : ℤ
  silenceTopMaxN : ℤ
  silenceTopShardFetchSize : ℤ
  threshold_pos : 0 < silenceThresholdSeconds
  threshold_lt_evict : silenceThresholdSeconds < evictAfterSeconds
  defaultN_pos : 0 < silenceTopDefaultN
  maxN_pos : 0 < silenceTopMaxN
  maxN_le_fetch : silenceTopMaxN ≤ silenceTopShardFetchSize

structure SilenceTopRequest where
  topN : Option ℤ
  minSilenceSeconds : Option ℤ
  maxSilenceSeconds : Option ℤ
  onlySilent : Bool

structure SilenceRankItem where
  aic : String
  lastSeenAt : String
  silenceDurationSeconds : ℤ
  deriving DecidableEq

def entries (shards : List Shard) : List (String × ℤ) :=
  shards.flatMap fun s => s.livenessZset.entries

section SilenceTop

variable (set : TopSettings)

def valueOr (value : Option ℤ) (fallback : ℤ) : ℤ := (value.filter (· ≠ 0)).getD fallback

def upTo {α : Type} (values : List α) (n : ℤ) : List α :=
  values.take (if n < 0 then values.length + n else n).toNat

def topN (request : SilenceTopRequest) : ℤ :=
  min (valueOr request.topN set.silenceTopDefaultN) set.silenceTopMaxN

def silent (now x : ℤ) : Bool := ¬ now - x ≤ set.silenceThresholdSeconds * 1000

def silenceTopRows (shards : List Shard) (now : ℤ) (request : SilenceTopRequest) :
    List (String × ℤ) × List (String × ℤ) :=
  let minSilenceMs := valueOr request.minSilenceSeconds 0 * 1000
  let maxSilenceMs := valueOr request.maxSilenceSeconds set.evictAfterSeconds * 1000
  let candidates := shards.flatMap fun s =>
    (s.livenessZset.rangeByScore (fun x => now - maxSilenceMs ≤ x ∧ x ≤ now - minSilenceMs)).take
      set.silenceTopShardFetchSize.toNat
  let top := upTo (orderBy Prod.snd candidates) (topN set request)
  (candidates, top.filter fun row => !request.onlySilent || silent set now row.2)

def rankItem (msToIso : ℤ → String) (now : ℤ) (row : String × ℤ) : SilenceRankItem :=
  ⟨row.1, msToIso row.2, max 0 ((now - row.2) / 1000)⟩

def silenceTop (msToIso : ℤ → String) (shards : List Shard) (now : ℤ)
    (request : SilenceTopRequest) : List SilenceRankItem × ℕ :=
  let (candidates, rows) := silenceTopRows set shards now request
  (rows.map (rankItem msToIso now), candidates.length)

def Asked (request : SilenceTopRequest) (now x : ℤ) : Prop :=
  request.minSilenceSeconds.getD 0 * 1000 ≤ now - x ∧
    now - x ≤ request.maxSilenceSeconds.getD set.evictAfterSeconds * 1000 ∧
    (request.onlySilent → set.silenceThresholdSeconds * 1000 < now - x)

instance (request : SilenceTopRequest) (now x : ℤ) : Decidable (Asked set request now x) :=
  inferInstanceAs (Decidable (_ ∧ _ ∧ _))

def asked (shards : List Shard) (now : ℤ) (request : SilenceTopRequest) : List (String × ℤ) :=
  (entries shards).filter fun row => Asked set request now row.2

def askedN (request : SilenceTopRequest) : ℕ :=
  (min (request.topN.getD set.silenceTopDefaultN) set.silenceTopMaxN).toNat

def ReadAs (request : SilenceTopRequest) (now x : ℤ) : Prop :=
  Asked set { request with maxSilenceSeconds := request.maxSilenceSeconds.filter (· ≠ 0) } now x

instance (request : SilenceTopRequest) (now x : ℤ) : Decidable (ReadAs set request now x) :=
  inferInstanceAs (Decidable (Asked ..))

def ZeroIdle (shards : List Shard) (now : ℤ) (request : SilenceTopRequest) : Prop :=
  ∀ s ∈ shards, ∀ aic x, s.livenessZset.score aic = some x → ReadAs set request now x →
    request.topN ≠ some 0 ∧ (request.maxSilenceSeconds = some 0 → now - x ≤ 0)

end SilenceTop

section Rows

variable {set : TopSettings} {shards : List Shard} {now : ℤ} {request : SilenceTopRequest}

theorem rangeByScore_ordered (z : SortedSet String ℤ) (p : ℤ → Bool) :
    (z.rangeByScore p).Pairwise (fun a b => a.2 ≤ b.2) := by
  apply (z.ascending_rangeByScore p).imp
  intro a b hab
  rcases Prod.Lex.toLex_lt_toLex.mp hab with hlt | ⟨heq, -⟩
  · exact hlt.le
  · exact heq.le

theorem orderBy_ordered (rows : List (String × ℤ)) :
    (orderBy Prod.snd rows).Pairwise (fun a b => a.2 ≤ b.2) :=
  List.pairwise_insertionSort (fun a b : String × ℤ => a.2 ≤ b.2) rows

theorem valueOr_ne_zero {value : Option ℤ} {fallback : ℤ} (h : value ≠ some 0) :
    valueOr value fallback = value.getD fallback := by
  cases value with
  | none => rfl
  | some v =>
    have hv : v ≠ 0 := fun h0 => h (congrArg some h0)
    simp [valueOr, Option.filter, hv]

@[simp] theorem valueOr_zero (value : Option ℤ) : valueOr value 0 = value.getD 0 := by
  by_cases h : value = some 0
  · subst h
    rfl
  · exact valueOr_ne_zero h

theorem silent_earlier (set : TopSettings) (only : Bool) {now x y : ℤ} (hxy : x ≤ y)
    (hy : (!only || silent set now y) = true) : (!only || silent set now x) = true := by
  rw [Bool.or_eq_true] at hy ⊢
  apply hy.imp_right
  simp only [silent, decide_eq_true_eq]
  omega

theorem readAs_iff {x : ℤ} : ReadAs set request now x ↔
    (now - valueOr request.maxSilenceSeconds set.evictAfterSeconds * 1000 ≤ x ∧
      x ≤ now - valueOr request.minSilenceSeconds 0 * 1000) ∧
      (!request.onlySilent || silent set now x) = true := by
  rw [valueOr_zero, ReadAs, Asked, ← valueOr]
  cases request.onlySilent
  · simp only [Bool.not_false, Bool.true_or, Bool.false_eq_true, false_implies, and_true]
    omega
  · simp only [Bool.not_true, Bool.false_or, silent, decide_eq_true_eq, true_implies]
    omega

theorem silenceTopRows_leading (set : TopSettings) (shards : List Shard) (now : ℤ)
    (request : SilenceTopRequest) (hN : 0 ≤ topN set request) :
    Leading Prod.snd (topN set request).toNat
      ((entries shards).filter fun row => ReadAs set request now row.2)
      (silenceTopRows set shards now request).2 := by
  obtain ⟨window, hwindow⟩ : ∃ window : ℤ → Bool, window = fun x =>
      decide (now - valueOr request.maxSilenceSeconds set.evictAfterSeconds * 1000 ≤ x ∧
        x ≤ now - valueOr request.minSilenceSeconds 0 * 1000) := ⟨_, rfl⟩
  have hfetch : (topN set request).toNat ≤ set.silenceTopShardFetchSize.toNat := by
    have hmin := min_le_right (valueOr request.topN set.silenceTopDefaultN) set.silenceTopMaxN
    have hmax := set.maxN_le_fetch
    exact Int.toNat_le_toNat (hmin.trans hmax)
  have hgroups : ∀ g ∈ shards.map (fun s => s.livenessZset.rangeByScore window),
      g.Pairwise (fun a b => a.2 ≤ b.2) := by
    intro g hg
    obtain ⟨s, -, rfl⟩ := List.mem_map.mp hg
    exact rangeByScore_ordered s.livenessZset window
  obtain ⟨candidates, hcandidates⟩ : ∃ candidates, candidates = shards.flatMap fun s =>
      (s.livenessZset.rangeByScore window).take set.silenceTopShardFetchSize.toNat := ⟨_, rfl⟩
  have htop := leading_of_groups hgroups hfetch (orderBy_ordered candidates) (by
    rw [List.flatMap_map, ← hcandidates]
    exact orderBy_perm candidates)
  have hrows : (silenceTopRows set shards now request).2 =
      ((orderBy Prod.snd candidates).take (topN set request).toNat).filter
        fun row => !request.onlySilent || silent set now row.2 := by
    rw [silenceTopRows, hcandidates, hwindow]
    simp only [upTo, if_neg hN.not_gt]
  rw [hrows]
  apply (htop.filter fun a b hab hb => silent_earlier set request.onlySilent hab hb).perm
  have hentries : (shards.map fun s => s.livenessZset.rangeByScore window).flatten.Perm
      ((entries shards).filter fun row => window row.2) := by
    rw [entries, List.filter_flatMap, ← List.flatMap_def]
    exact List.Perm.flatMap_left _ fun s _ => orderBy_perm _
  refine (hentries.filter _).trans (List.Perm.of_eq ?_)
  rw [List.filter_filter]
  congr 1
  funext row
  rw [Bool.eq_iff_iff, Bool.and_eq_true, hwindow, decide_eq_true_eq, decide_eq_true_eq, readAs_iff,
    and_comm]

theorem topN_eq (hzero : request.topN ≠ some 0) :
    topN set request = min (request.topN.getD set.silenceTopDefaultN) set.silenceTopMaxN := by
  rw [topN, valueOr_ne_zero hzero]

theorem topN_pos (set : TopSettings) (hN : ∀ n, request.topN = some n → 0 ≤ n) :
    0 < topN set request := by
  have hdefault := set.defaultN_pos
  have hmax := set.maxN_pos
  rw [topN]
  by_cases hzero : request.topN = some 0
  · rw [hzero]
    exact lt_min hdefault hmax
  · rw [valueOr_ne_zero hzero]
    cases htop : request.topN with
    | none => exact lt_min hdefault hmax
    | some n =>
      have hne : n ≠ 0 := fun h => hzero (htop.trans (congrArg some h))
      have hnonneg := hN n htop
      exact lt_min (by simp only [Option.getD_some]; omega) hmax

theorem asked_eq_readAs (hmax : request.maxSilenceSeconds ≠ some 0) :
    Asked set request now = ReadAs set request now := by
  have hsame : request.maxSilenceSeconds.filter (· ≠ 0) = request.maxSilenceSeconds := by
    cases h : request.maxSilenceSeconds with
    | none => rfl
    | some v =>
      have hv : v ≠ 0 := fun h0 => hmax (h.trans (congrArg some h0))
      simp [Option.filter, hv]
  funext x
  rw [ReadAs, hsame]

theorem asked_zero (set : TopSettings) (hmax : request.maxSilenceSeconds = some 0) (now x : ℤ) :
    Asked set request now x ↔ now - x ≤ 0 ∧ ReadAs set request now x := by
  have hevict := set.threshold_pos.trans set.threshold_lt_evict
  simp only [Asked, ReadAs, hmax, Option.getD_some, Int.zero_mul]
  rw [show (some (0 : ℤ)).filter (· ≠ 0) = none from rfl, Option.getD_none]
  constructor
  · rintro ⟨hmin, hzero, honly⟩
    exact ⟨hzero, hmin, by omega, honly⟩
  · rintro ⟨hzero, hmin, -, honly⟩
    exact ⟨hmin, hzero, honly⟩

end Rows

section Claim

variable {set : TopSettings} {shards : List Shard} {now : ℤ} {request : SilenceTopRequest}

theorem mem_entries {row : String × ℤ} :
    row ∈ entries shards ↔ ∃ s ∈ shards, s.livenessZset.score row.1 = some row.2 := by
  simp only [entries, List.mem_flatMap]
  exact exists_congr fun s => and_congr_right fun _ => SortedSet.mem_entries

theorem zeroIdle_iff : ZeroIdle set shards now request ↔
    ∀ row ∈ entries shards, ReadAs set request now row.2 →
      request.topN ≠ some 0 ∧ (request.maxSilenceSeconds = some 0 → now - row.2 ≤ 0) := by
  constructor
  · intro h row hrow hread
    obtain ⟨s, hs, hscore⟩ := mem_entries.mp hrow
    exact h s hs row.1 row.2 hscore hread
  · intro h s hs aic x hscore hread
    exact h (aic, x) (mem_entries.mpr ⟨s, hs, hscore⟩) hread

theorem silenceTop_leading_iff (set : TopSettings) (shards : List Shard) (now : ℤ)
    (request : SilenceTopRequest)
    (hN : ∀ n, request.topN = some n → 0 ≤ n ∧ n ≤ set.silenceTopMaxN) :
    Leading Prod.snd (askedN set request) (asked set shards now request)
        (silenceTopRows set shards now request).2 ↔ ZeroIdle set shards now request := by
  have hpos : 0 < topN set request := topN_pos set fun n hn => (hN n hn).1
  have hcode := silenceTopRows_leading set shards now request hpos.le
  obtain ⟨rows, hrows⟩ : ∃ rows, rows = (silenceTopRows set shards now request).2 := ⟨_, rfl⟩
  rw [zeroIdle_iff]
  rw [← hrows] at hcode ⊢
  by_cases hzero : request.topN = some 0
  · -- nothing is asked for, and the default number of rows is answered
    have hnone : Leading Prod.snd (askedN set request) (asked set shards now request) rows ↔
        rows = [] := by
      have hN : askedN set request = 0 := by
        have hmax := set.maxN_pos.le
        simp [askedN, hzero, hmax]
      rw [hN]
      constructor
      · intro h
        exact List.eq_nil_of_length_eq_zero (by rw [h.length, Nat.zero_min])
      · rintro rfl
        exact ⟨.nil, by simp, _, .rfl, by simp⟩
    rw [hnone]
    constructor
    · rintro rfl row hrow hread
      have hmem : row ∈ (entries shards).filter fun row => ReadAs set request now row.2 :=
        List.mem_filter.mpr ⟨hrow, decide_eq_true hread⟩
      have hlen := hcode.length
      have hlength := List.length_pos_of_mem hmem
      rw [List.length_nil] at hlen
      omega
    · intro hidle
      apply List.eq_nil_iff_forall_not_mem.mpr
      intro row hrow
      obtain ⟨hmem, hread⟩ := List.mem_filter.mp (hcode.mem hrow)
      exact (hidle row hmem (of_decide_eq_true hread)).1 hzero
  · have hN : askedN set request = (topN set request).toNat := by rw [askedN, topN_eq hzero]
    rw [hN]
    by_cases hmax : request.maxSilenceSeconds = some 0
    · have hasked : asked set shards now request =
          ((entries shards).filter fun row => ReadAs set request now row.2).filter
            fun row => now - row.2 ≤ 0 := by
        rw [asked, List.filter_filter]
        congr 1
        funext row
        rw [Bool.eq_iff_iff, Bool.and_eq_true, decide_eq_true_eq, decide_eq_true_eq,
          decide_eq_true_eq, asked_zero set hmax]
      rw [hasked]
      constructor
      · intro h row hrow hread
        refine ⟨hzero, fun _ => ?_⟩
        have hq := hcode.of_filter (q := fun row => now - row.2 ≤ 0)
          (fun a b hab ha => by simp only [decide_eq_true_eq] at ha ⊢; omega) (by omega) h
          (List.mem_filter.mpr ⟨hrow, decide_eq_true hread⟩)
        exact of_decide_eq_true hq
      · intro hidle
        rw [List.filter_eq_self.mpr]
        · exact hcode
        · intro row hrow
          obtain ⟨hmem, hread⟩ := List.mem_filter.mp hrow
          exact decide_eq_true ((hidle row hmem (of_decide_eq_true hread)).2 hmax)
    · have hasked : asked set shards now request =
          (entries shards).filter fun row => ReadAs set request now row.2 := by
        simp only [asked, asked_eq_readAs hmax]
      rw [hasked]
      exact iff_of_true hcode fun row _ _ => ⟨hzero, fun h => absurd h hmax⟩

namespace Sample

theorem threshold_pos : (0 : ℤ) < 90 := by decide

theorem threshold_lt_evict : (90 : ℤ) < 3600 := by decide

theorem defaultN_pos : (0 : ℤ) < 50 := by decide

theorem maxN_pos : (0 : ℤ) < 500 := by decide

theorem maxN_le_fetch : (500 : ℤ) ≤ 500 := by decide

def topSettings : TopSettings where
  silenceThresholdSeconds := 90
  evictAfterSeconds := 3600
  silenceTopDefaultN := 50
  silenceTopMaxN := 500
  silenceTopShardFetchSize := 500
  threshold_pos := threshold_pos
  threshold_lt_evict := threshold_lt_evict
  defaultN_pos := defaultN_pos
  maxN_pos := maxN_pos
  maxN_le_fetch := maxN_le_fetch

def oneHeard : Shard := Shard.empty.zadd 0 "a"

end Sample

theorem silenceTop_leading_iff_at :
    Leading Prod.snd (askedN Sample.topSettings ⟨some 2, some 1, none, true⟩)
        (asked Sample.topSettings [Sample.oneHeard] 100000 ⟨some 2, some 1, none, true⟩)
        (silenceTopRows Sample.topSettings [Sample.oneHeard] 100000
          ⟨some 2, some 1, none, true⟩).2 ↔
      ZeroIdle Sample.topSettings [Sample.oneHeard] 100000 ⟨some 2, some 1, none, true⟩ := by
  refine silenceTop_leading_iff Sample.topSettings [Sample.oneHeard] 100000
    ⟨some 2, some 1, none, true⟩ ?_
  rintro n ⟨⟩
  decide

theorem zero_bound_is_ignored :
    silenceTopRows Sample.topSettings [Sample.oneHeard] 10000 ⟨some 1, none, some 0, false⟩ =
        ([("a", 0)], [("a", 0)]) ∧
      asked Sample.topSettings [Sample.oneHeard] 10000 ⟨some 1, none, some 0, false⟩ = [] ∧
      ¬ Leading Prod.snd (askedN Sample.topSettings ⟨some 1, none, some 0, false⟩)
        (asked Sample.topSettings [Sample.oneHeard] 10000 ⟨some 1, none, some 0, false⟩)
        (silenceTopRows Sample.topSettings [Sample.oneHeard] 10000
          ⟨some 1, none, some 0, false⟩).2 := by
  have hrows : silenceTopRows Sample.topSettings [Sample.oneHeard] 10000
      ⟨some 1, none, some 0, false⟩ = ([("a", 0)], [("a", 0)]) := by decide
  have hasked : asked Sample.topSettings [Sample.oneHeard] 10000 ⟨some 1, none, some 0, false⟩ = [] := by
    decide
  refine ⟨hrows, hasked, fun h => ?_⟩
  have hlen := h.length
  rw [hrows, hasked] at hlen
  simp at hlen

end Claim

section Shards

structure Sharding where
  shardCount : ℕ
  stableShardHash : String → ℕ
  shardCount_pos : 0 < shardCount

variable (sharding : Sharding)

def Sharding.shardIndexForAic (aic : String) : ℕ :=
  sharding.stableShardHash aic % sharding.shardCount

abbrev Fleet := ℕ → Shard

def Fleet.empty : Fleet := fun _ => .empty

def Fleet.allShards (f : Fleet) : List Shard := (List.range sharding.shardCount).map f

def Fleet.getLatest (f : Fleet) (aic : String) : Option Latest :=
  (f (sharding.shardIndexForAic aic)).latest aic

def fleet : Transition.System Fleet Call :=
  ⟨fun f c =>
    let i := sharding.shardIndexForAic c.aic
    some (Function.update f i ((f i).fcall c))⟩

def addToShard (shard : ℕ) (aic : String) : List (ℕ × List String) → List (ℕ × List String)
  | [] => [(shard, [aic])]
  | (s, aics) :: shardAics =>
    if s = shard then (s, aics ++ [aic]) :: shardAics
    else (s, aics) :: addToShard shard aic shardAics

def shardAics (aics : List String) : List (ℕ × List String) :=
  aics.foldl (fun groups aic => addToShard (sharding.shardIndexForAic aic) aic groups) []

def Fleet.mgetLatest (f : Fleet) (aics : List String) : List (String × Latest) :=
  (shardAics sharding aics).flatMap fun (shard, aics) =>
    aics.filterMap fun aic => ((f shard).latest aic).map (aic, ·)

theorem addToShard_perm {β : Type} (g : ℕ → String → Option β) (shard : ℕ) (aic : String)
    (groups : List (ℕ × List String)) :
    ((addToShard shard aic groups).flatMap fun e => e.2.filterMap (g e.1)).Perm
      ((groups.flatMap fun e => e.2.filterMap (g e.1)) ++ (g shard aic).toList) := by
  induction groups with
  | nil => cases h : g shard aic <;> simp [addToShard, h]
  | cons e groups ih =>
    obtain ⟨s, aics⟩ := e
    unfold addToShard
    split
    · next heq =>
      subst heq
      simp only [List.flatMap_cons, List.filterMap_append]
      rw [List.append_assoc, List.append_assoc]
      apply List.Perm.append_left
      have hone : [aic].filterMap (g s) = (g s aic).toList := by cases h : g s aic <;> simp [h]
      rw [hone]
      exact List.perm_append_comm
    · simp only [List.flatMap_cons]
      rw [List.append_assoc]
      exact ih.append_left _

theorem mgetLatest_perm (f : Fleet) (aics : List String) :
    (f.mgetLatest sharding aics).Perm
      (aics.filterMap fun aic => (f.getLatest sharding aic).map (aic, ·)) := by
  have hfold (groups : List (ℕ × List String)) :
      ((aics.foldl (fun groups aic => addToShard (sharding.shardIndexForAic aic) aic groups)
        groups).flatMap fun e => e.2.filterMap fun aic => ((f e.1).latest aic).map (aic, ·)).Perm
      ((groups.flatMap fun e => e.2.filterMap fun aic => ((f e.1).latest aic).map (aic, ·)) ++
        aics.filterMap fun aic => (f.getLatest sharding aic).map (aic, ·)) := by
    induction aics generalizing groups with
    | nil => simp
    | cons aic aics ih =>
      rw [List.foldl_cons]
      refine (ih _).trans ?_
      refine ((addToShard_perm (fun i aic => ((f i).latest aic).map (aic, ·)) _ aic
        groups).append_right _).trans ?_
      rw [List.append_assoc]
      apply List.Perm.append_left
      cases h : (f.getLatest sharding aic) with
      | none =>
        have h' : (f (sharding.shardIndexForAic aic)).latest aic = none := h
        simp [h, h']
      | some row =>
        have h' : (f (sharding.shardIndexForAic aic)).latest aic = some row := h
        simp [h, h']
  exact hfold []

structure Fleet.Consistent (f : Fleet) : Prop where
  shards : ∀ i, (f i).Consistent
  home : ∀ i aic, ((f i).latest aic).isSome → sharding.shardIndexForAic aic = i

theorem Fleet.consistent_empty : Fleet.empty.Consistent sharding where
  shards _ := Shard.consistent_empty
  home i aic h := by simp [Fleet.empty, Shard.empty] at h

variable {sharding}

theorem Fleet.Consistent.step {f f' : Fleet} {c : Call} (h : f.Consistent sharding)
    (hstep : (fleet sharding).step f c = some f') : f'.Consistent sharding := by
  obtain rfl := Option.some.inj hstep
  have hmoves := moves_fcall (f (sharding.shardIndexForAic c.aic)) c
  constructor
  · intro i
    by_cases hi : i = sharding.shardIndexForAic c.aic
    · subst hi
      rw [Function.update_self]
      exact hmoves.consistent (h.shards _)
    · rw [Function.update_of_ne hi]
      exact h.shards i
  · intro i aic hsome
    by_cases hi : i = sharding.shardIndexForAic c.aic
    · subst hi
      rw [Function.update_self] at hsome
      by_cases haic : aic = c.aic
      · rw [haic]
      · have hframe := congrArg Cell.latest (hmoves.frame haic)
        apply h.home
        rw [show (f (sharding.shardIndexForAic c.aic)).latest aic = _ from hframe.symm]
        exact hsome
    · rw [Function.update_of_ne hi] at hsome
      exact h.home i aic hsome

theorem Fleet.Consistent.reachable {cs : List Call} {f : Fleet}
    (h : (fleet sharding).exec .empty cs = some f) : f.Consistent sharding :=
  (fleet sharding).exec_induction (fun _ _ _ hf hstep => hf.step hstep)
    (Fleet.consistent_empty sharding) h

theorem Fleet.Consistent.score {f : Fleet} (h : f.Consistent sharding) {i : ℕ} {aic : String} {x : ℤ} :
    (f i).livenessZset.score aic = some x ↔
      sharding.shardIndexForAic aic = i ∧
        (f.getLatest sharding aic).bind Latest.aliveScore = some x := by
  have hscore : (f i).livenessZset.score aic = ((f i).latest aic).bind Latest.aliveScore :=
    ((h.shards i).sound aic).score
  rw [hscore]
  constructor
  · intro hx
    obtain ⟨row, hrow, -⟩ := Option.bind_eq_some_iff.mp hx
    obtain rfl := h.home i aic (hrow ▸ rfl)
    exact ⟨rfl, hx⟩
  · rintro ⟨rfl, hx⟩
    exact hx

end Shards

section Summary

variable (sharding : Sharding)

structure HeartbeatSummary where
  totalKnown : ℕ
  aliveCount : ℕ
  silentCount : ℕ
  deriving DecidableEq

def summaryOf (total alive : ℕ) : HeartbeatSummary := ⟨total, alive, total - alive⟩

def getSummary (f : Fleet) (now silenceThresholdMs : ℤ) : Option (List String) → HeartbeatSummary
  | none =>
    let shards := f.allShards sharding
    summaryOf (shards.map fun s => s.livenessZset.entries.length).sum
      (shards.map fun s =>
        s.livenessZset.entries.countP fun e => now - silenceThresholdMs ≤ e.2).sum
  | some allowedAics =>
    let rows := f.mgetLatest sharding allowedAics
    summaryOf rows.length (rows.countP fun row => now - row.2.lastSeenAtMs ≤ silenceThresholdMs)

theorem getSummary_none (f : Fleet) (now silenceThresholdMs : ℤ) :
    getSummary sharding f now silenceThresholdMs none =
      summaryOf (entries (f.allShards sharding)).length
        ((entries (f.allShards sharding)).countP fun e => now - silenceThresholdMs ≤ e.2) := by
  simp only [getSummary, entries, List.length_flatMap, List.countP_flatMap]
  rfl

variable {sharding} {f : Fleet} {allowed : List String}

theorem mem_entries_allShards (h : f.Consistent sharding) {aic : String} {x : ℤ} :
    (aic, x) ∈ entries (f.allShards sharding) ↔
      (f.getLatest sharding aic).bind Latest.aliveScore = some x := by
  rw [mem_entries]
  simp only [Fleet.allShards, List.mem_map, List.mem_range]
  constructor
  · rintro ⟨s, ⟨i, -, rfl⟩, hx⟩
    exact (h.score.mp hx).2
  · intro hx
    exact ⟨_, ⟨_, Nat.mod_lt _ sharding.shardCount_pos, rfl⟩, h.score.mpr ⟨rfl, hx⟩⟩

theorem nodup_entries_allShards (h : f.Consistent sharding) :
    ((entries (f.allShards sharding)).map Prod.fst).Nodup := by
  rw [entries, Fleet.allShards, List.flatMap_map, List.map_flatMap, List.nodup_flatMap]
  refine ⟨fun i _ => (f i).livenessZset.nodup, ?_⟩
  apply List.nodup_range.imp
  intro i j hij aic hi hj
  obtain ⟨⟨_, x⟩, hx, rfl⟩ := List.mem_map.mp hi
  obtain ⟨⟨_, y⟩, hy, heq⟩ := List.mem_map.mp hj
  have hi' := (h.score.mp (SortedSet.mem_entries.mp hx)).1
  have hj' := (h.score.mp (SortedSet.mem_entries.mp hy)).1
  simp only at heq
  rw [heq, hi'] at hj'
  exact hij hj'

theorem entries_perm (h : f.Consistent sharding) (hnodup : allowed.Nodup)
    (hall : ∀ aic, aic ∈ allowed ↔ (f.getLatest sharding aic).isSome) :
    ((entries (f.allShards sharding)).map Prod.fst).Perm
      (allowed.filter fun aic => ((f.getLatest sharding aic).bind Latest.aliveScore).isSome) := by
  rw [List.perm_ext_iff_of_nodup (nodup_entries_allShards h) (hnodup.filter _)]
  intro aic
  rw [List.mem_filter, hall, Option.isSome_iff_exists (x := (f.getLatest sharding aic).bind _)]
  constructor
  · intro hmem
    obtain ⟨⟨_, x⟩, hx, rfl⟩ := List.mem_map.mp hmem
    have hscore := (mem_entries_allShards h).mp hx
    obtain ⟨row, hrow, -⟩ := Option.bind_eq_some_iff.mp hscore
    exact ⟨Option.isSome_iff_exists.mpr ⟨row, hrow⟩, x, hscore⟩
  · rintro ⟨-, x, hx⟩
    exact List.mem_map.mpr ⟨(aic, x), (mem_entries_allShards h).mpr hx, rfl⟩

theorem countP_entries (h : f.Consistent sharding) (hnodup : allowed.Nodup)
    (hall : ∀ aic, aic ∈ allowed ↔ (f.getLatest sharding aic).isSome) (p : ℤ → Bool) :
    (entries (f.allShards sharding)).countP (fun e => p e.2) =
      allowed.countP fun aic => ((f.getLatest sharding aic).bind Latest.aliveScore).any p := by
  calc _ = (entries (f.allShards sharding)).countP
        ((fun aic => ((f.getLatest sharding aic).bind Latest.aliveScore).any p) ∘ Prod.fst) := by
        apply List.countP_congr
        rintro ⟨aic, x⟩ hx
        rw [Function.comp_apply, (mem_entries_allShards h).mp hx, Option.any_some]
    _ = ((entries (f.allShards sharding)).map Prod.fst).countP
          fun aic => ((f.getLatest sharding aic).bind Latest.aliveScore).any p := by
        rw [List.countP_map]
    _ = _ := by
        rw [(entries_perm h hnodup hall).countP_eq, List.countP_filter]
        apply List.countP_congr
        intro aic _
        cases (f.getLatest sharding aic).bind Latest.aliveScore <;> simp

theorem length_mgetLatest (f : Fleet)
    (hall : ∀ aic, aic ∈ allowed ↔ (f.getLatest sharding aic).isSome) :
    (f.mgetLatest sharding allowed).length = allowed.length := by
  rw [(mgetLatest_perm sharding f allowed).length_eq, List.length_filterMap_eq_countP,
    List.countP_eq_length]
  intro aic haic
  rw [Option.isSome_map]
  exact (hall aic).mp haic

theorem countP_mgetLatest (f : Fleet) (allowed : List String) (p : Latest → Bool) :
    (f.mgetLatest sharding allowed).countP (fun row => p row.2) =
      allowed.countP fun aic => (f.getLatest sharding aic).any p := by
  rw [(mgetLatest_perm sharding f allowed).countP_eq, List.countP_filterMap]
  apply List.countP_congr
  intro aic _
  cases f.getLatest sharding aic <;> simp

theorem summaries_agree_iff {cs : List Call} (hf : (fleet sharding).exec .empty cs = some f)
    (hnodup : allowed.Nodup) (hall : ∀ aic, aic ∈ allowed ↔ (f.getLatest sharding aic).isSome)
    (now silenceThresholdMs : ℤ) :
    getSummary sharding f now silenceThresholdMs none =
        getSummary sharding f now silenceThresholdMs (some allowed) ↔
      ∀ aic row, f.getLatest sharding aic = some row → row.aliveMembershipState = .alive := by
  have h := Fleet.Consistent.reachable hf
  have htotal : (entries (f.allShards sharding)).length =
      allowed.countP fun aic => ((f.getLatest sharding aic).bind Latest.aliveScore).isSome := by
    rw [← List.length_map Prod.fst, (entries_perm h hnodup hall).length_eq, List.countP_eq_length_filter]
  rw [getSummary_none, getSummary]
  simp only [length_mgetLatest f hall, countP_mgetLatest f allowed
    fun row => now - row.lastSeenAtMs ≤ silenceThresholdMs]
  rw [htotal, countP_entries h hnodup hall fun x => now - silenceThresholdMs ≤ x]
  constructor
  · intro heq aic row hrow
    have hcount := congrArg HeartbeatSummary.totalKnown heq
    simp only [summaryOf, List.countP_eq_length] at hcount
    have hscore := hcount aic ((hall aic).mpr (hrow ▸ rfl))
    rw [hrow, Option.bind_some, Latest.aliveScore] at hscore
    by_contra hleft
    rw [if_neg hleft] at hscore
    exact Bool.false_ne_true hscore
  · intro halive
    congr 1
    · rw [List.countP_eq_length]
      intro aic haic
      obtain ⟨row, hrow⟩ := Option.isSome_iff_exists.mp ((hall aic).mp haic)
      rw [hrow, Option.bind_some, Latest.aliveScore, if_pos (halive aic row hrow), Option.isSome_some]
    · apply List.countP_congr
      intro aic haic
      obtain ⟨row, hrow⟩ := Option.isSome_iff_exists.mp ((hall aic).mp haic)
      rw [hrow, Option.bind_some, Latest.aliveScore, if_pos (halive aic row hrow), Option.any_some,
        Option.any_some, decide_eq_true_eq, decide_eq_true_eq]
      omega

theorem getLatest_of_not_called {cs : List Call} (hf : (fleet sharding).exec .empty cs = some f)
    {aic : String} (hcs : ∀ c ∈ cs, c.aic ≠ aic) : f.getLatest sharding aic = none := by
  refine (fleet sharding).exec_invariant (C := fun _ c => c.aic ≠ aic)
    (I := fun f => f.getLatest sharding aic = none) ?_ rfl
    ((fleet sharding).meets_of_forall (fun c hc _ => hcs c hc) _) hf
  rintro f c _ hnone hne ⟨⟩
  rw [Fleet.getLatest]
  by_cases hi : sharding.shardIndexForAic aic = sharding.shardIndexForAic c.aic
  · rw [hi, Function.update_self]
    rw [Fleet.getLatest, hi] at hnone
    exact (congrArg Cell.latest ((moves_fcall (f _) c).frame hne.symm)).trans hnone
  · rw [Function.update_of_ne hi]
    exact hnone

namespace Sample

theorem one_pos : 0 < 1 := by decide

def oneShard : Sharding := ⟨1, fun _ => 0, one_pos⟩

def heardOnce : List Call :=
  [.applyHeartbeat "a" 0 "1970-01-01T00:00:00+00:00" none 30000 ⟨1000000, 0⟩]

def fellSilent : List Call := heardOnce ++ [.markSilentOne "a" 90001 90000 ⟨1000000, 0⟩]

end Sample

theorem summaries_agree_iff_at :
    ∃ f, (fleet Sample.oneShard).exec .empty Sample.heardOnce = some f ∧
      (getSummary Sample.oneShard f 1000 90000 none =
          getSummary Sample.oneShard f 1000 90000 (some ["a"]) ↔
        ∀ aic row, f.getLatest Sample.oneShard aic = some row → row.aliveMembershipState = .alive) := by
  obtain ⟨f, hf⟩ : ∃ f, (fleet Sample.oneShard).exec .empty Sample.heardOnce = some f := ⟨_, rfl⟩
  refine ⟨f, hf, summaries_agree_iff hf (List.nodup_singleton "a") ?_ 1000 90000⟩
  intro aic
  by_cases haic : aic = "a"
  · subst haic
    obtain rfl := Option.some.inj hf
    decide
  · have hnone := getLatest_of_not_called hf (by
      simpa [Sample.heardOnce, Call.aic] using Ne.symm haic)
    simp [haic, hnone]

theorem silent_aic_is_counted_once :
    ∃ f, (fleet Sample.oneShard).exec .empty Sample.fellSilent = some f ∧
      (∀ aic, aic ∈ ["a"] ↔ (f.getLatest Sample.oneShard aic).isSome) ∧
      getSummary Sample.oneShard f 90001 90000 none = ⟨0, 0, 0⟩ ∧
      getSummary Sample.oneShard f 90001 90000 (some ["a"]) = ⟨1, 0, 1⟩ := by
  have hrun : ((fleet Sample.oneShard).exec .empty Sample.fellSilent).any (fun f =>
      decide ((f.getLatest Sample.oneShard "a").isSome ∧
        getSummary Sample.oneShard f 90001 90000 none = ⟨0, 0, 0⟩ ∧
        getSummary Sample.oneShard f 90001 90000 (some ["a"]) = ⟨1, 0, 1⟩)) = true := by decide +kernel
  obtain ⟨f, hf, hcounts⟩ := (Option.any_eq_true _ _).mp hrun
  obtain ⟨hsome, hnone, hallowed⟩ := of_decide_eq_true hcounts
  refine ⟨f, hf, fun aic => ?_, hnone, hallowed⟩
  by_cases haic : aic = "a"
  · subst haic
    exact iff_of_true (List.mem_singleton_self _) hsome
  · have hmiss := getLatest_of_not_called hf (by
      simpa [Sample.fellSilent, Sample.heardOnce, Call.aic] using Ne.symm haic)
    simp [haic, hmiss]

end Summary

end Acps.Heartbeat
