import Acps.Heartbeat.Exporter

/-!
A snapshot and the deltas after its cutover. The consumer ends within the replay of the
outbox, and what it lacks of it had fallen silent.
-/

namespace Acps.Heartbeat

open Replay Transition
open AliveSync (AliveDeltaEnvelope aliveMap)

def Shard.replayedTo (s : Shard) (n : ℕ) : String → Option Delta :=
  replay Delta.aic Delta.entry (fun _ => none) (s.deltaOutbox.added.filter fun d => d.seq ≤ n)

def Shard.deltasAfter (s : Shard) (cutoverSeq n : ℕ) : List Delta :=
  s.deltaOutbox.added.filter fun d => cutoverSeq < d.seq ∧ d.seq ≤ n

def Provider.consumed (w : Provider) (shardId generatedAt : String) (msToIso : ℤ → String)
    (cutoverSeq n : ℕ) (rows : List AliveDeltaEnvelope) : String → Option AliveSync.AliveRow :=
  aliveMap (AliveSync.applyDeltas (AliveSync.loadSnapshot shardId cutoverSeq generatedAt rows)
    ((w.shard.deltasAfter cutoverSeq n).map (Delta.envelope shardId msToIso))).2.rows

section Log

variable {s : Shard} {d e : Delta} {aic : String} {n m : ℕ} {past : List Delta}

theorem Shard.Consistent.increasing (hs : s.Consistent) :
    s.deltaOutbox.added.Pairwise fun d e => d.seq < e.seq := by
  have h := List.pairwise_lt_range' (s := 1) (n := s.deltaSeq)
  rw [← hs.seqs] at h
  exact List.pairwise_map.mp h

theorem Shard.Consistent.eq_of_seq (hs : s.Consistent) (hd : d ∈ s.deltaOutbox.added)
    (he : e ∈ s.deltaOutbox.added) (h : d.seq = e.seq) : d = e :=
  List.inj_on_of_nodup_map (hs.seqs ▸ List.nodup_range') hd he h

theorem Shard.Consistent.mem_past_iff (hs : s.Consistent) (hpast : past <+: s.deltaOutbox.added)
    (hd : d ∈ s.deltaOutbox.added) : d ∈ past ↔ d.seq ≤ past.length := by
  obtain ⟨l, hl⟩ := hpast
  have hseqs := hs.seqs
  have hlen := hs.length_added
  rw [← hl, List.length_append] at hlen
  rw [← hl, List.map_append, ← hlen, ← List.range'_append_1] at hseqs
  obtain ⟨hpast, hrest⟩ := List.append_inj hseqs (by simp)
  rw [← hl] at hd
  constructor
  · intro hmem
    have hin : d.seq ∈ List.range' 1 past.length := hpast ▸ List.mem_map_of_mem hmem
    rw [List.mem_range'_1] at hin
    omega
  · intro hle
    apply (List.mem_append.mp hd).resolve_right
    intro hmem
    have hin : d.seq ∈ List.range' (1 + past.length) l.length := hrest ▸ List.mem_map_of_mem hmem
    rw [List.mem_range'_1] at hin
    omega

theorem Shard.mem_deltasAfter :
    d ∈ s.deltasAfter n m ↔ d ∈ s.deltaOutbox.added ∧ n < d.seq ∧ d.seq ≤ m := by
  simp [deltasAfter]

theorem filter_range' (n m k : ℕ) :
    (List.range' 1 k).filter (fun x => n < x ∧ x ≤ m) = List.range' (n + 1) (min k m - n) := by
  induction k with
  | zero => simp
  | succ k ih =>
    rw [List.range'_1_concat, List.filter_append, ih, List.filter_singleton]
    by_cases h : n < 1 + k ∧ 1 + k ≤ m
    · have hlen : min (k + 1) m - n = min k m - n + 1 := by omega
      have hlast : n + 1 + (min k m - n) = 1 + k := by omega
      rw [decide_eq_true h, hlen, List.range'_1_concat, hlast]
      rfl
    · have hlen : min (k + 1) m - n = min k m - n := by omega
      rw [decide_eq_false h, hlen]
      exact List.append_nil _

theorem Shard.Consistent.seqs_deltasAfter (hs : s.Consistent) (n m : ℕ) :
    (s.deltasAfter n m).map Delta.seq = List.range' (n + 1) (s.deltasAfter n m).length := by
  have hmap : (s.deltasAfter n m).map Delta.seq =
      List.range' (n + 1) (min s.deltaSeq m - n) := by
    rw [← filter_range', ← hs.seqs, List.filter_map]
    rfl
  have hlen := congrArg List.length hmap
  rw [List.length_map, List.length_range'] at hlen
  rw [hmap, hlen]

def Shard.lastTo (s : Shard) (n : ℕ) (aic : String) : Option Delta :=
  lastOn Delta.aic aic (s.deltaOutbox.added.filter fun d => d.seq ≤ n)

theorem Shard.Consistent.lastTo_eq_some_iff (hs : s.Consistent) :
    s.lastTo n aic = some d ↔ d ∈ s.deltaOutbox.added ∧ d.aic = aic ∧ d.seq ≤ n ∧
      ∀ e ∈ s.deltaOutbox.added, e.aic = aic → e.seq ≤ n → e.seq ≤ d.seq := by
  rw [lastTo, lastOn_eq_some_iff (hs.increasing.filter _)]
  simp only [List.mem_filter, decide_eq_true_eq]
  constructor
  · rintro ⟨⟨hd, hle⟩, haic, hmax⟩
    exact ⟨hd, haic, hle, fun e he hk hen => hmax e ⟨he, hen⟩ hk⟩
  · rintro ⟨hd, haic, hle, hmax⟩
    exact ⟨⟨hd, hle⟩, haic, fun e he hk => hmax e he.1 hk he.2⟩

theorem Shard.replayedTo_apply (s : Shard) (n : ℕ) (aic : String) :
    s.replayedTo n aic = (s.lastTo n aic).bind Delta.entry := by
  rw [replayedTo, replay_apply, lastTo]
  cases lastOn Delta.aic aic (s.deltaOutbox.added.filter fun d => d.seq ≤ n) <;> rfl

theorem Shard.Consistent.lastTo_of_deltasAfter (hs : s.Consistent)
    (h : lastOn Delta.aic aic (s.deltasAfter m n) = some d) : s.lastTo n aic = some d := by
  obtain ⟨hmem, haic, hmax⟩ := (lastOn_eq_some_iff (hs.increasing.filter _)).mp h
  obtain ⟨hd, hm, hn⟩ := mem_deltasAfter.mp hmem
  refine hs.lastTo_eq_some_iff.mpr ⟨hd, haic, hn, fun e he hk hen => ?_⟩
  by_cases hme : m < e.seq
  · exact hmax e (mem_deltasAfter.mpr ⟨he, hme, hen⟩) hk
  · omega

end Log

section Consumer

variable {shardId generatedAt : String} {msToIso : ℤ → String} {w : Provider} {d : Delta}
  {aic : String} {n s : ℕ} {rows : List AliveDeltaEnvelope} {env : AliveDeltaEnvelope}

@[simp] theorem aic_envelope (d : Delta) : (d.envelope shardId msToIso).aic = d.aic := by
  unfold Delta.envelope
  split <;> rfl

@[simp] theorem seq_envelope (d : Delta) : (d.envelope shardId msToIso).seq = d.seq := by
  unfold Delta.envelope
  split <;> rfl

@[simp] theorem version_envelope (d : Delta) : (d.envelope shardId msToIso).version = d.seq := by
  unfold Delta.envelope
  split <;> rfl

@[simp] theorem shard_envelope (d : Delta) : (d.envelope shardId msToIso).shard = shardId := by
  unfold Delta.envelope
  split <;> rfl

theorem isSome_entry_envelope (d : Delta) :
    (d.envelope shardId msToIso).entry.isSome ↔ d.entry ≠ none := by
  unfold Delta.envelope Delta.entry
  cases d.op <;> simp [AliveDeltaEnvelope.entry]

theorem snapshotRows_eq (hop : ∀ env ∈ rows, env.op = .upsert) (aic : String) :
    AliveSync.snapshotRows rows aic =
      (lastOn AliveDeltaEnvelope.aic aic rows).map AliveSync.aliveRecord := by
  rw [AliveSync.snapshotRows, replay_apply]
  cases hlast : lastOn AliveDeltaEnvelope.aic aic rows with
  | none => rfl
  | some env =>
    have h := hop env (mem_of_lastOn hlast).1
    simp [AliveDeltaEnvelope.entry, h]

theorem increasing_deltasAfter (hs : w.shard.Consistent) (shardId : String)
    (msToIso : ℤ → String) (n s : ℕ) :
    AliveSync.Increasing ((w.shard.deltasAfter n s).map (Delta.envelope shardId msToIso)) := by
  apply List.pairwise_map.mpr
  apply (hs.increasing.filter _).imp
  intro d e hlt _
  simpa using hlt

theorem consumed_apply (hs : w.shard.Consistent) (hop : ∀ env ∈ rows, env.op = .upsert)
    (n s : ℕ) (aic : String) :
    w.consumed shardId generatedAt msToIso n s rows aic =
      (AliveSync.lastNewer (AliveSync.snapshotRows rows) aic
        ((w.shard.deltasAfter n s).map (Delta.envelope shardId msToIso))).elim
          (aliveMap (AliveSync.snapshotRows rows) aic) AliveDeltaEnvelope.entry := by
  have hinc := increasing_deltasAfter hs shardId msToIso n s
  rw [← (AliveSync.gated_inOrder (AliveSync.snapshotRows rows) hinc aic).alive]
  have hserves : AliveSync.Serves (AliveSync.loadSnapshot shardId n generatedAt rows).1
      (AliveSync.snapshotRows rows)
        ((w.shard.deltasAfter n s).map (Delta.envelope shardId msToIso)) := by
    intro a
    left
    rw [snapshotRows_eq hop, Option.map_map]
    rfl
  have hseq : ((w.shard.deltasAfter n s).map (Delta.envelope shardId msToIso)).map
      AliveDeltaEnvelope.seq = List.range'
        ((AliveSync.loadSnapshot shardId n generatedAt rows).1.lastSeen shardId + 1)
        ((w.shard.deltasAfter n s).map (Delta.envelope shardId msToIso)).length := by
    have hseen : (AliveSync.loadSnapshot shardId n generatedAt rows).1.lastSeen shardId = n := by
      simp [AliveSync.loadSnapshot, AliveSync.AliveSyncEngine.lastSeen]
    rw [hseen, List.map_map, List.length_map, ← hs.seqs_deltasAfter]
    apply List.map_congr_left
    intro d _
    exact seq_envelope d
  have hshard : ∀ env ∈ (w.shard.deltasAfter n s).map (Delta.envelope shardId msToIso),
      env.shard = shardId := by simp
  have hrows : (AliveSync.applyDeltas (AliveSync.loadSnapshot shardId n generatedAt rows)
      ((w.shard.deltasAfter n s).map (Delta.envelope shardId msToIso))).2.rows =
        AliveSync.inOrder (AliveSync.snapshotRows rows)
          ((w.shard.deltasAfter n s).map (Delta.envelope shardId msToIso)) :=
    AliveSync.rows_applyDeltas hseq hshard hinc hserves
  rw [Provider.consumed, AliveSync.aliveMap, AliveSync.aliveMap]
  exact congrArg (fun r => (r aic).filter AliveSync.AliveRow.alive) hrows

def rowVersion (rows : List AliveDeltaEnvelope) (aic : String) : ℕ :=
  ((lastOn AliveDeltaEnvelope.aic aic rows).map AliveDeltaEnvelope.version).getD 0

theorem lastNewer_deltas (hop : ∀ env ∈ rows, env.op = .upsert) (hpos : ∀ d ∈
    w.shard.deltaOutbox.added, 0 < d.seq) (n s : ℕ) (aic : String) :
    AliveSync.lastNewer (AliveSync.snapshotRows rows) aic
        ((w.shard.deltasAfter n s).map (Delta.envelope shardId msToIso)) =
      (lastOn Delta.aic aic (w.shard.deltasAfter (max n (rowVersion rows aic)) s)).map
        (Delta.envelope shardId msToIso) := by
  rw [AliveSync.lastNewer, List.filter_map, lastOn_map aic_envelope]
  congr 1
  unfold Shard.deltasAfter
  rw [List.filter_filter]
  apply lastOn_filter_congr
  intro d hd haic
  have hnew : AliveSync.newerThanRow (AliveSync.snapshotRows rows)
      (d.envelope shardId msToIso) = decide (rowVersion rows aic < d.seq) := by
    unfold AliveSync.newerThanRow rowVersion
    rw [snapshotRows_eq hop, aic_envelope, version_envelope, haic]
    cases lastOn AliveDeltaEnvelope.aic aic rows with
    | none => simpa [AliveSync.passesVersion] using hpos d hd
    | some env => rfl
  rw [Function.comp, hnew]
  simp only [← Bool.decide_and, decide_eq_decide]
  omega

theorem Shard.Consistent.seq_pos {s : Shard} (hs : s.Consistent) (d : Delta)
    (hd : d ∈ s.deltaOutbox.added) : 0 < d.seq := by
  have hmem : d.seq ∈ List.range' 1 s.deltaSeq := hs.seqs ▸ List.mem_map_of_mem hd
  rw [List.mem_range'_1] at hmem
  omega

theorem consumed_isSome (hs : w.shard.Consistent) (hop : ∀ env ∈ rows, env.op = .upsert)
    (n s : ℕ) (aic : String) :
    (w.consumed shardId generatedAt msToIso n s rows aic).isSome ↔
      match lastOn Delta.aic aic (w.shard.deltasAfter (max n (rowVersion rows aic)) s) with
      | none => lastOn AliveDeltaEnvelope.aic aic rows ≠ none
      | some d => d.entry ≠ none := by
  rw [consumed_apply hs hop, lastNewer_deltas hop hs.seq_pos]
  cases lastOn Delta.aic aic (w.shard.deltasAfter (max n (rowVersion rows aic)) s) with
  | some d => exact isSome_entry_envelope d
  | none =>
    rw [Option.map_none, Option.elim_none, aliveMap, snapshotRows_eq hop]
    cases lastOn AliveDeltaEnvelope.aic aic rows <;> simp [AliveSync.aliveRecord, Option.filter]

theorem consumed_isSome_of_row (hs : w.shard.Consistent) (hop : ∀ env ∈ rows, env.op = .upsert)
    (hlast : lastOn AliveDeltaEnvelope.aic aic rows = some env) (hrow : RowSound w.added n env)
    (hle : env.version ≤ s) :
    (w.consumed shardId generatedAt msToIso n s rows aic).isSome ↔
      (w.shard.replayedTo s aic).isSome := by
  have hver : rowVersion rows aic = env.version := by rw [rowVersion, hlast]; rfl
  obtain ⟨_, rfl⟩ := mem_of_lastOn hlast
  rw [consumed_isSome hs hop, w.shard.replayedTo_apply, hver]
  cases hnew : lastOn Delta.aic env.aic (w.shard.deltasAfter (max n env.version) s) with
  | some d =>
    rw [hs.lastTo_of_deltasAfter hnew]
    exact Option.ne_none_iff_isSome
  | none =>
    obtain ⟨past, d, hpast, hn, hd, hentry, hseq⟩ := hrow.read
    obtain ⟨hmem, haic, hmax⟩ := (lastOn_eq_some_iff (hs.increasing.sublist hpast.sublist)).mp hd
    have hlastTo : w.shard.lastTo s env.aic = some d := by
      refine hs.lastTo_eq_some_iff.mpr ⟨hpast.subset hmem, haic, by omega, fun e he hk hes => ?_⟩
      have hnot : ¬ (max n env.version < e.seq ∧ e.seq ≤ s) :=
        fun h => lastOn_eq_none.mp hnew e (Shard.mem_deltasAfter.mpr ⟨he, h⟩) hk
      by_cases hen : e.seq ≤ n
      · exact hmax e ((hs.mem_past_iff hpast he).mpr (hen.trans hn)) hk
      · omega
    rw [hlastTo, hlast]
    simpa using Option.ne_none_iff_isSome.mp hentry

theorem consumed_isSome_of_no_row (hs : w.shard.Consistent) (hop : ∀ env ∈ rows, env.op = .upsert)
    (hlast : lastOn AliveDeltaEnvelope.aic aic rows = none) :
    (w.consumed shardId generatedAt msToIso n s rows aic).isSome ↔
      ∃ d, lastOn Delta.aic aic (w.shard.deltasAfter n s) = some d ∧ d.entry ≠ none := by
  have hver : rowVersion rows aic = 0 := by rw [rowVersion, hlast]; rfl
  rw [consumed_isSome hs hop, hver, Nat.max_zero, hlast]
  cases lastOn Delta.aic aic (w.shard.deltasAfter n s) <;> simp

end Consumer

section Missing

variable {set : HeartbeatSettings} {added ended : List Delta} {job : Job} {s : Shard} {d u : Delta}
  {aic : String} {n : ℕ}

theorem Since.mem (h : Since added ended d) : d ∈ ended := by
  obtain ⟨l, rfl, hd⟩ := h
  exact List.mem_append_right _ hd

theorem Shard.Consistent.entry_of_score_none (hs : s.Consistent)
    (hx : s.livenessZset.score aic = none)
    (hd : lastOn Delta.aic aic s.deltaOutbox.added = some d) : d.entry = none := by
  have hscore : s.livenessZset.score aic = (s.latest aic).bind Latest.aliveScore :=
    (hs.sound aic).score
  by_contra hne
  have hcell : (s.cell aic).last = some d := hd
  have hentry : ((s.cell aic).last.bind Delta.entry).isSome := by
    rw [hcell]
    exact Option.ne_none_iff_isSome.mp hne
  obtain ⟨h, hh, hal⟩ := (hs.sound aic).entry.mp hentry
  have hlatest : s.latest aic = some h := hh
  rw [hscore, hlatest, Option.bind_some, Latest.aliveScore, if_pos hal] at hx
  cases hx

theorem JobSound.lt_seq_of_since (hjob : JobSound set s.deltaOutbox.added job) (hs : s.Consistent)
    (hended : ended <+: s.deltaOutbox.added)
    (hnone : ∀ d ∈ s.deltaOutbox.added, d.aic = aic → ¬ (job.cutoverSeq < d.seq ∧ d.seq ≤ n))
    (hsince : Since job.begun.deltaOutbox.added ended d) (haic : d.aic = aic) : n < d.seq := by
  have hd : d ∈ s.deltaOutbox.added := hended.subset hsince.mem
  have hnot : d ∉ job.begun.deltaOutbox.added := by
    obtain ⟨l, rfl, hdl⟩ := hsince
    intro hmem
    have hnodup := (hs.increasing.sublist hended.sublist).imp (fun h => Nat.ne_of_lt h)
    exact (List.pairwise_append.mp hnodup).2.2 d hmem d hdl rfl
  have hlt := mt (hs.mem_past_iff hjob.grows hd).mpr hnot
  rw [hjob.begun.length_added] at hlt
  have hcut := hjob.cutover_le
  have := hnone d hd haic
  omega

theorem JobSound.silent_of_missing (hjob : JobSound set s.deltaOutbox.added job)
    (hs : s.Consistent) (hbegun : job.begun.deltaOutbox.added <+: ended)
    (hended : ended <+: s.deltaOutbox.added) {rows : List AliveDeltaEnvelope}
    (htracked : Tracked set ended job fun aic => aic ∈ rows.map AliveDeltaEnvelope.aic)
    (htrunc : job.truncated = false) (hrow : aic ∉ rows.map AliveDeltaEnvelope.aic)
    (hnone : ∀ d ∈ s.deltaOutbox.added, d.aic = aic → ¬ (job.cutoverSeq < d.seq ∧ d.seq ≤ n))
    (hu : s.lastTo n aic = some u) (hentry : u.entry ≠ none) :
    (∃ x, job.heard aic = some x ∧ x < job.shownMs - set.silenceThresholdMs) ∨
      ∃ d, Since job.taken ended d ∧ d.aic = aic ∧ d.entry = none ∧ n < d.seq := by
  obtain ⟨humem, huaic, hun, humax⟩ := hs.lastTo_eq_some_iff.mp hu
  have hucut : u.seq ≤ job.cutoverSeq := by
    have := hnone u humem huaic
    omega
  have hubegun : u ∈ job.begun.deltaOutbox.added := by
    apply (hs.mem_past_iff hjob.grows humem).mpr
    rw [hjob.begun.length_added]
    exact hucut.trans hjob.cutover_le
  cases hx : job.begun.livenessZset.score aic with
  | some x =>
    by_cases hle : job.nowMs - set.silenceThresholdMs ≤ x
    · obtain ⟨d, hsince, haic, hd⟩ := (htracked htrunc aic x hx hle).resolve_right hrow
      refine .inr ⟨d, hsince.of_prefix hjob.taken, haic, hd, ?_⟩
      exact hjob.lt_seq_of_since hs hended hnone hsince haic
    · obtain ⟨h, hh, _, hat⟩ := hjob.begun.latest_of_score hx
      have hnow := hjob.now_le
      exact .inl ⟨x, hat ▸ hjob.heard aic h hh, by omega⟩
  | none =>
    obtain ⟨d, hd⟩ := exists_lastOn_of_mem hubegun huaic
    have hleave := hjob.begun.entry_of_score_none hx hd
    rcases hjob.silenced aic d hd hleave with hsince | hheard
    · obtain ⟨hdmem, hdaic, hdmax⟩ := (lastOn_eq_some_iff hjob.begun.increasing).mp hd
      obtain ⟨l, hl⟩ := hbegun
      refine .inr ⟨d, hl ▸ hsince.append l, hdaic, hleave, ?_⟩
      by_contra hdn
      have hdle := humax d (hjob.grows.subset hdmem) hdaic (by omega)
      have heq := hs.eq_of_seq humem (hjob.grows.subset hdmem)
        (Nat.le_antisymm (hdmax u hubegun huaic) hdle)
      exact hentry (heq ▸ hleave)
    · exact .inl hheard

end Missing

theorem snapshot_converges (set : HeartbeatSettings) (shardId generatedAt : String)
    (msToIso : ℤ → String) {as : List ExportAction} {w : Provider} {job : Job}
    {ended : List Delta} {rows : List AliveDeltaEnvelope}
    (hw : (exporter set shardId).exec .empty as = some w)
    (hfin : w.phase = .finished job ended rows) {s : ℕ} (hs : ∀ env ∈ rows, env.version ≤ s) :
    (∀ aic, (w.consumed shardId generatedAt msToIso job.cutoverSeq s rows aic).isSome →
      (w.shard.replayedTo s aic).isSome) ∧
    ∀ aic, (w.shard.replayedTo s aic).isSome →
      w.consumed shardId generatedAt msToIso job.cutoverSeq s rows aic = none →
      (∀ d ∈ w.added, d.aic = aic → ¬ (job.cutoverSeq < d.seq ∧ d.seq ≤ s)) ∧
      (job.truncated = false →
        (∃ x, job.heard aic = some x ∧ x < job.shownMs - set.silenceThresholdMs) ∨
          ∃ d, Since job.taken ended d ∧ d.aic = aic ∧ d.entry = none ∧ s < d.seq) := by
  obtain ⟨hsound, hphase⟩ := exporter_exec hw
  unfold PhaseSound at hphase
  rw [hfin] at hphase
  obtain ⟨hjob, hrows, hbegun, hended, htracked⟩ := hphase
  have hcons := hsound.consistent
  have hop : ∀ env ∈ rows, env.op = .upsert := fun env henv => (hrows env henv).op
  constructor
  · intro aic hheld
    cases hlast : lastOn AliveDeltaEnvelope.aic aic rows with
    | some env =>
      have henv := (mem_of_lastOn hlast).1
      exact (consumed_isSome_of_row hcons hop hlast (hrows env henv) (hs env henv)).mp hheld
    | none =>
      obtain ⟨d, hd, hentry⟩ := (consumed_isSome_of_no_row hcons hop hlast).mp hheld
      rw [w.shard.replayedTo_apply, hcons.lastTo_of_deltasAfter hd]
      exact Option.ne_none_iff_isSome.mp hentry
  · intro aic hreplay hmissing
    have hlost : ¬ (w.consumed shardId generatedAt msToIso job.cutoverSeq s rows aic).isSome := by
      simp [hmissing]
    have hlast : lastOn AliveDeltaEnvelope.aic aic rows = none := by
      by_contra hne
      obtain ⟨env, hlast⟩ := Option.ne_none_iff_exists'.mp hne
      have henv := (mem_of_lastOn hlast).1
      exact hlost ((consumed_isSome_of_row hcons hop hlast (hrows env henv) (hs env henv)).mpr
        hreplay)
    rw [w.shard.replayedTo_apply] at hreplay
    obtain ⟨v, hv⟩ := Option.isSome_iff_exists.mp hreplay
    obtain ⟨u, hu, hentry⟩ := Option.bind_eq_some_iff.mp hv
    have hne : u.entry ≠ none := by simp [hentry]
    have hnone : ∀ d ∈ w.added, d.aic = aic → ¬ (job.cutoverSeq < d.seq ∧ d.seq ≤ s) := by
      intro d hd haic hbetween
      obtain ⟨d', hd'⟩ := exists_lastOn_of_mem (Shard.mem_deltasAfter.mpr ⟨hd, hbetween⟩) haic
      obtain rfl := Option.some.inj (hu.symm.trans (hcons.lastTo_of_deltasAfter hd'))
      exact hlost ((consumed_isSome_of_no_row hcons hop hlast).mpr ⟨u, hd', hne⟩)
    refine ⟨hnone, fun htrunc => ?_⟩
    apply hjob.silent_of_missing hcons hbegun hended htracked htrunc _ hnone hu hne
    intro hmem
    obtain ⟨env, henv, haic⟩ := List.mem_map.mp hmem
    exact lastOn_eq_none.mp hlast env henv haic

section Instances

def defaultSettings : HeartbeatSettings := ⟨90000, 3600000, 1000, by decide, by decide⟩

def ExportPhase.finishedWith (p : Job → List AliveDeltaEnvelope → Bool) : ExportPhase → Bool
  | .finished job _ rows => p job rows
  | _ => false

theorem ExportPhase.exists_of_finishedWith {p : Job → List AliveDeltaEnvelope → Bool}
    {phase : ExportPhase} (h : phase.finishedWith p = true) :
    ∃ job ended rows, phase = .finished job ended rows ∧ p job rows = true := by
  cases phase with
  | finished job ended rows => exact ⟨job, ended, rows, rfl, h⟩
  | _ => cases h

def refreshedExport : List ExportAction :=
  [.call (.applyHeartbeat "a" 0 "1970-01-01T00:00:00+00:00" none 30000 ⟨1000000, 0⟩),
    .call (.applyHeartbeat "b" 60000 "1970-01-01T00:01:00+00:00" none 30000 ⟨1000000, 0⟩),
    .tick 90001, .readNow, .readCutover 1, .readPage, .readTie,
    .call (.applyHeartbeat "b" 90001 "1970-01-01T00:01:30.001000+00:00" none 30000 ⟨1000000, 0⟩),
    .readHash, .readHash]

theorem snapshot_converges_refreshed :
    ∃ w job ended rows, (exporter defaultSettings "hb-000").exec .empty refreshedExport = some w ∧
      w.phase = .finished job ended rows ∧ rows.map AliveDeltaEnvelope.version = [3] ∧
      ∀ aic, (w.consumed "hb-000" "1970-01-01T00:01:30.001000+00:00" (fun _ => "") job.cutoverSeq
        3 rows aic).isSome → (w.shard.replayedTo 3 aic).isSome := by
  have hrun : ((exporter defaultSettings "hb-000").exec .empty refreshedExport).any (fun w =>
      w.phase.finishedWith fun _ rows => rows.map AliveDeltaEnvelope.version = [3] ∧
        ∀ env ∈ rows, env.version ≤ 3) = true := by decide +kernel
  obtain ⟨w, hw, hfin⟩ := (Option.any_eq_true _ _).mp hrun
  obtain ⟨job, ended, rows, hphase, hfacts⟩ := ExportPhase.exists_of_finishedWith hfin
  obtain ⟨hver, hle⟩ := of_decide_eq_true hfacts
  exact ⟨w, job, ended, rows, hw, hphase, hver,
    (snapshot_converges defaultSettings "hb-000" _ _ hw hphase hle).1⟩

/-- The run ends with a snapshot whose consumer lacks an AIC of the replay up to seq 1 that was
seen within the threshold when the snapshot was taken. -/
def MissesFresh (as : List ExportAction) (aic : String) : Prop :=
  ∃ w job ended rows, (exporter defaultSettings "hb-000").exec .empty as = some w ∧
    w.phase = .finished job ended rows ∧ (∀ env ∈ rows, env.version ≤ 1) ∧
    (w.shard.replayedTo 1 aic).isSome ∧
    w.consumed "hb-000" "1970-01-01T00:01:30+00:00" (fun _ => "") job.cutoverSeq 1 rows aic = none ∧
    ∃ x, job.heard aic = some x ∧ job.nowMs - defaultSettings.silenceThresholdMs ≤ x

theorem missesFresh_of_run {as : List ExportAction} {aic : String}
    (hrun : ((exporter defaultSettings "hb-000").exec .empty as).any (fun w =>
      w.phase.finishedWith fun job rows => (∀ env ∈ rows, env.version ≤ 1) ∧
        (w.shard.replayedTo 1 aic).isSome ∧
        w.consumed "hb-000" "1970-01-01T00:01:30+00:00" (fun _ => "") job.cutoverSeq 1 rows aic =
          none ∧
        job.heard aic = some (job.nowMs - defaultSettings.silenceThresholdMs)) = true) :
    MissesFresh as aic := by
  obtain ⟨w, hw, hfin⟩ := (Option.any_eq_true _ _).mp hrun
  obtain ⟨job, ended, rows, hphase, hfacts⟩ := ExportPhase.exists_of_finishedWith hfin
  obtain ⟨hle, hreplay, hnone, hheard⟩ := of_decide_eq_true hfacts
  exact ⟨w, job, ended, rows, hw, hphase, hle, hreplay, hnone, _, hheard, le_rfl⟩

def begunExport : List ExportAction :=
  [.call (.applyHeartbeat "a" 0 "1970-01-01T00:00:00+00:00" none 30000 ⟨1000000, 0⟩),
    .tick 90000, .readNow, .readCutover 1]

theorem export_misses_fresh :
    MissesFresh (begunExport ++ [.readPage, .readTie, .tick 1,
      .call (.markSilentOne "a" 90001 90000 ⟨1000000, 0⟩), .readHash, .readHash]) "a" ∧
    MissesFresh (begunExport ++ [.timeout, .readHash]) "a" ∧
    MissesFresh [.call (.applyHeartbeat "a" 0 "1970-01-01T00:00:00+00:00" none 30000 ⟨1000000, 0⟩),
      .tick 90001, .call (.markSilentOne "a" 90001 90000 ⟨1000000, 0⟩), .tick (-1),
      .readNow, .readCutover 1, .readPage, .readHash] "a" := by
  refine ⟨?_, ?_, ?_⟩
  · apply missesFresh_of_run
    decide +kernel
  · apply missesFresh_of_run
    decide +kernel
  · apply missesFresh_of_run
    decide +kernel

end Instances

end Acps.Heartbeat
