import Acps.AliveSync.FromSnapshot
import Acps.Heartbeat.Liveness

/-!
The snapshot exporter on one shard. It reads the time, the cutover, page after page of the
sorted set and then one hash after another, and calls come in between as they like.
-/

namespace Acps.Heartbeat

open Replay Transition Shard
open AliveSync (AliveDeltaEnvelope)

structure HeartbeatSettings where
  silenceThresholdMs : ℤ
  evictAfterMs : ℤ
  snapshotChunkSize : ℕ
  silence_lt_evict : silenceThresholdMs < evictAfterMs
  chunkSize_pos : 0 < snapshotChunkSize

def Delta.envelope (shard : String) (msToIso : ℤ → String) (d : Delta) : AliveDeltaEnvelope :=
  match d.op with
  | .upsert _ lastSeenAtMs _ => ⟨shard, d.seq, d.aic, d.seq, .upsert, some (msToIso lastSeenAtMs)⟩
  | .delete _ => ⟨shard, d.seq, d.aic, d.seq, .delete, none⟩

/-- A snapshot in the making. The last four fields are not kept by the code: the greatest time of
Redis and the deltas when the time was read, and the shard and the times last heard when the
cutover was read. -/
structure Job where
  nowMs : ℤ
  cutoverSeq : ℕ
  truncated : Bool
  shownMs : ℤ
  taken : List Delta
  begun : Shard
  heard : String → Option ℤ

inductive ExportPhase where
  | idle
  | timed (nowMs shownMs : ℤ) (taken : List Delta)
  | paging (job : Job) (cursorMs : ℤ) (allTuples : List (String × ℤ))
  | tie (job : Job) (chunk : List (String × ℤ)) (lastScore : ℤ) (allTuples : List (String × ℤ))
  | reading (job : Job) (aics : List String) (envelopes : List AliveDeltaEnvelope)
  | finished (job : Job) (ended : List Delta) (envelopes : List AliveDeltaEnvelope)

/-- The clock may go back, and the greatest time it has shown is kept beside it. The times last
heard outlive the hashes here, which they do not in Redis. -/
structure Provider where
  shard : Shard
  clock : ℤ
  shownMs : ℤ
  heard : String → Option ℤ
  phase : ExportPhase

def Provider.empty : Provider := ⟨.empty, 0, 0, fun _ => none, .idle⟩

inductive ExportAction where
  | tick (ms : ℤ)
  | call (c : Call)
  | readNow
  | readCutover (publishedSeq : ℕ)
  | readPage
  | timeout
  | readTie
  | readHash

def Call.timely (set : HeartbeatSettings) (clock : ℤ) : Call → Bool
  | .applyHeartbeat .. => true
  | .markSilentOne _ nowMs silence _ => nowMs = clock && silence = set.silenceThresholdMs
  | .evictOne _ nowMs evict _ => nowMs = clock && evict = set.evictAfterMs

def Provider.ticked (w : Provider) (ms : ℤ) : Provider :=
  { w with clock := w.clock + ms, shownMs := max w.shownMs (w.clock + ms) }

def Provider.called (w : Provider) (c : Call) : Provider :=
  let s := w.shard.fcall c
  { w with
    shard := s
    heard := fun aic => ((s.latest aic).map Latest.lastSeenAtMs).or (w.heard aic) }

def snapshotEntry (shard : String) (cutoverSeq : ℕ) (aic : String) (row : Option Latest) :
    Option AliveDeltaEnvelope :=
  match row with
  | none => none
  | some h =>
    if h.aliveMembershipState = .leftAlive then none
    else
      let seq := h.lastDeltaSeq.getD cutoverSeq
      some ⟨shard, seq, aic, seq, .upsert, some h.lastSeenAt⟩

def mergeTies (chunk tieGroup : List (String × ℤ)) : List (String × ℤ) :=
  chunk ++ tieGroup.filter (fun e => e.1 ∉ chunk.map Prod.fst)

def ExportPhase.readPage (set : HeartbeatSettings) (s : Shard) (job : Job) (cursorMs : ℤ)
    (allTuples : List (String × ℤ)) : ExportPhase :=
  let chunk := (s.livenessZset.rangeByScore (fun x => cursorMs ≤ x)).take set.snapshotChunkSize
  match chunk.getLast? with
  | none => .reading job (allTuples.map Prod.fst) []
  | some e => .tie job chunk e.2 allTuples

def ExportPhase.readTie (set : HeartbeatSettings) (s : Shard) (job : Job)
    (chunk : List (String × ℤ)) (lastScore : ℤ) (allTuples : List (String × ℤ)) : ExportPhase :=
  let merged := allTuples ++ mergeTies chunk (s.livenessZset.rangeByScore (fun x => x = lastScore))
  if chunk.length < set.snapshotChunkSize then .reading job (merged.map Prod.fst) []
  else .paging job (lastScore + 1) merged

def exporter (set : HeartbeatSettings) (shardId : String) : System Provider ExportAction where
  step w
    | .tick ms => some (w.ticked ms)
    | .call c => if c.timely set w.clock then some (w.called c) else none
    | .readNow => some { w with phase := .timed w.clock w.shownMs w.shard.deltaOutbox.added }
    | .readCutover publishedSeq => match w.phase with
      | .timed nowMs shownMs taken =>
        if publishedSeq ≤ w.shard.deltaSeq then
          some { w with
            phase := .paging ⟨nowMs, publishedSeq, false, shownMs, taken, w.shard, w.heard⟩
              (nowMs - set.silenceThresholdMs) [] }
        else none
      | _ => none
    | .readPage => match w.phase with
      | .paging job cursorMs allTuples =>
        some { w with phase := .readPage set w.shard job cursorMs allTuples }
      | _ => none
    | .timeout => match w.phase with
      | .paging job _ allTuples =>
        some { w with
          phase := .reading { job with truncated := true } (allTuples.map Prod.fst) [] }
      | _ => none
    | .readTie => match w.phase with
      | .tie job chunk lastScore allTuples =>
        some { w with phase := .readTie set w.shard job chunk lastScore allTuples }
      | _ => none
    | .readHash => match w.phase with
      | .reading job [] envelopes =>
        some { w with phase := .finished job w.shard.deltaOutbox.added envelopes }
      | .reading job (aic :: aics) envelopes =>
        let entry := snapshotEntry shardId job.cutoverSeq aic (w.shard.latest aic)
        some { w with phase := .reading job aics (envelopes ++ entry.toList) }
      | _ => none

abbrev Provider.added (w : Provider) : List Delta := w.shard.deltaOutbox.added

def Since (old new : List Delta) (d : Delta) : Prop := ∃ l, new = old ++ l ∧ d ∈ l

section Since

variable {old mid new : List Delta} {d : Delta}

theorem Since.of_prefix (h : Since mid new d) (hpre : old <+: mid) : Since old new d := by
  obtain ⟨l, rfl, hd⟩ := h
  obtain ⟨k, rfl⟩ := hpre
  exact ⟨k ++ l, by simp, by simp [hd]⟩

theorem Since.append (h : Since old new d) (l : List Delta) : Since old (new ++ l) d := by
  obtain ⟨k, rfl, hd⟩ := h
  exact ⟨k ++ l, by simp, by simp [hd]⟩

theorem Since.of_mem {l : List Delta} (h : d ∈ l) (hpre : old <+: new) : Since old (new ++ l) d := by
  obtain ⟨k, rfl⟩ := hpre
  exact ⟨k ++ l, by simp, by simp [h]⟩

end Since

/-- An AIC whose last delta is a leave was last heard before the limit, unless the leave is recent. -/
def Silenced (added : List Delta) (recent : Delta → Prop) (heard : String → Option ℤ) (limit : ℤ) :
    Prop :=
  ∀ aic d, lastOn Delta.aic aic added = some d → d.entry = none →
    recent d ∨ ∃ x, heard aic = some x ∧ x < limit

structure Provider.Sound (set : HeartbeatSettings) (w : Provider) : Prop where
  consistent : w.shard.Consistent
  clock_le : w.clock ≤ w.shownMs
  heard : ∀ aic h, w.shard.latest aic = some h → w.heard aic = some h.lastSeenAtMs
  silenced : Silenced w.added (fun _ => False) w.heard (w.shownMs - set.silenceThresholdMs)

section Calls

variable {set : HeartbeatSettings} {s s' : Shard} {w : Provider} {c : Call} {aic : String} {x : ℤ}

theorem Shard.Consistent.latest_of_score (hs : s.Consistent) (hx : s.livenessZset.score aic = some x) :
    ∃ h, s.latest aic = some h ∧ h.aliveMembershipState = .alive ∧ h.lastSeenAtMs = x := by
  have hscore : s.livenessZset.score aic = (s.latest aic).bind Latest.aliveScore :=
    (hs.sound aic).score
  rw [hscore] at hx
  obtain ⟨h, hh, hx⟩ := Option.bind_eq_some_iff.mp hx
  refine ⟨h, hh, ?_⟩
  simpa [Latest.aliveScore] using hx

theorem Moves.score (h : Moves s c s') (hs : s.Consistent)
    (hx : s.livenessZset.score aic = some x) :
    (∃ x', s'.livenessZset.score aic = some x' ∧ x ≤ x') ∨
      ∃ d, s'.deltaOutbox.added = s.deltaOutbox.added ++ [d] ∧ d.aic = aic ∧ d.entry = none := by
  obtain ⟨h₀, hh₀, ha₀, hx₀⟩ := hs.latest_of_score hx
  by_cases ha : aic = c.aic
  · subst ha
    cases h with
    | skipped => exact .inl ⟨x, hx, le_rfl⟩
    | unlisted hnone =>
      rw [Call.aic, hnone] at hh₀
      cases hh₀
    | seen hsome _ hlt _ _ _ =>
      obtain rfl : h₀ = _ := Option.some.inj (hh₀.symm.trans hsome)
      exact .inl ⟨_, SortedSet.score_zadd_self .., by omega⟩
    | upserted hlt _ _ _ =>
      have := hlt h₀ hh₀
      exact .inl ⟨_, SortedSet.score_zadd_self .., by omega⟩
    | left => exact .inr ⟨_, added_xaddOutbox .., rfl, rfl⟩
    | evicted => exact .inr ⟨_, added_xaddOutbox .., rfl, rfl⟩
    | dropped hsome hleft _ =>
      obtain rfl : h₀ = _ := Option.some.inj (hh₀.symm.trans hsome)
      rw [ha₀] at hleft
      cases hleft
  · have hscore : s'.livenessZset.score aic = s.livenessZset.score aic :=
      congrArg Cell.score (h.frame ha)
    exact .inl ⟨x, hscore.trans hx, le_rfl⟩

theorem exists_added (s : Shard) (c : Call) :
    ∃ l, (s.fcall c).deltaOutbox.added = s.deltaOutbox.added ++ l := by
  rcases (moves_fcall s c).added with h | ⟨d, h⟩
  · exact ⟨[], by rw [h, List.append_nil]⟩
  · exact ⟨[d], h⟩

theorem heard_called_of_latest (hw : w.Sound set) (h : (w.shard.fcall c).latest aic = none ∨
    (w.shard.fcall c).latest aic = w.shard.latest aic) : (w.called c).heard aic = w.heard aic := by
  unfold Provider.called
  dsimp only
  rcases h with h | h
  · rw [h]
    rfl
  · rw [h]
    cases hh : w.shard.latest aic with
    | none => rfl
    | some h₀ => exact (hw.heard aic h₀ hh).symm

theorem heard_called_of_some {h : Latest} (hh : (w.shard.fcall c).latest aic = some h) :
    (w.called c).heard aic = some h.lastSeenAtMs := by
  unfold Provider.called
  dsimp only
  rw [hh]
  rfl

theorem Provider.Sound.left_called (hw : w.Sound set) (hc : c.timely set w.clock = true)
    {d : Delta} (hlast : lastOn Delta.aic aic (w.called c).added = some d) (hd : d.entry = none) :
    (lastOn Delta.aic aic w.added = some d ∧ (w.called c).heard aic = w.heard aic) ∨
      ((w.called c).added = w.added ++ [d] ∧
        ∃ x, (w.called c).heard aic = some x ∧ x < w.clock - set.silenceThresholdMs) := by
  have hmoves := moves_fcall w.shard c
  obtain ⟨s', hs'⟩ : ∃ s', w.shard.fcall c = s' := ⟨_, rfl⟩
  have hadded : (w.called c).added = s'.deltaOutbox.added :=
    congrArg (fun s => s.deltaOutbox.added) hs'
  rw [hadded] at hlast ⊢
  rw [hs'] at hmoves
  by_cases ha : aic = c.aic
  · subst ha
    have hsound := hw.consistent.sound c.aic
    -- An AIC that is alive has an upsert for its last delta.
    have halive : ∀ h, w.shard.latest c.aic = some h → h.aliveMembershipState = .alive →
        lastOn Delta.aic c.aic w.added ≠ some d := by
      intro h hh hal heq
      have hentry := hsound.entry.mpr ⟨h, hh, hal⟩
      have hcell : (w.shard.cell c.aic).last = some d := heq
      rw [hcell, Option.bind_some, hd] at hentry
      cases hentry
    cases hmoves with
    | skipped => exact .inl ⟨hlast, heard_called_of_latest hw (.inr (by rw [hs']))⟩
    | unlisted hnone =>
      exact .inl ⟨hlast, heard_called_of_latest hw (.inr (by rw [hs', latest_zrem]))⟩
    | seen hsome hal _ _ _ _ => exact absurd hlast (halive _ hsome hal)
    | upserted _ _ _ _ =>
      obtain rfl := Option.some.inj (hlast.symm.trans (lastOn_emit_self ..))
      cases hd
    | @left aic _ _ trim h h' hsome hal hlt hat _ _ =>
      obtain rfl := Option.some.inj (hlast.symm.trans (lastOn_emit_self ..))
      obtain ⟨rfl, rfl⟩ : _ ∧ _ := by simpa [Call.timely] using hc
      have hlatest : (w.shard.fcall (.markSilentOne aic w.clock set.silenceThresholdMs
          trim)).latest aic = some h' := by
        rw [hs', latest_emit, latest_zrem]
        exact latest_hset_self ..
      exact .inr ⟨added_emit .., _, heard_called_of_some hlatest, by
        rw [hat]
        omega⟩
    | dropped hsome hleft hlt =>
      refine .inl ⟨hlast, heard_called_of_latest hw (.inl ?_)⟩
      rw [hs', latest_zrem]
      exact latest_del_self ..
    | @evicted aic _ _ trim h hsome hal hlt =>
      obtain rfl := Option.some.inj (hlast.symm.trans (lastOn_emit_self ..))
      obtain ⟨rfl, rfl⟩ : _ ∧ _ := by simpa [Call.timely] using hc
      have hlatest : (w.shard.fcall (.evictOne aic w.clock set.evictAfterMs trim)).latest aic =
          none := by
        rw [hs', latest_zrem]
        exact latest_del_self ..
      have hheard := (heard_called_of_latest hw (.inl hlatest)).trans (hw.heard aic h hsome)
      have hevict := set.silence_lt_evict
      exact .inr ⟨added_emit .., _, hheard, by omega⟩
  · have hcell := hmoves.frame ha
    refine .inl ⟨(congrArg Cell.last hcell).symm.trans hlast, heard_called_of_latest hw (.inr ?_)⟩
    rw [hs']
    exact congrArg Cell.latest hcell

theorem Provider.Sound.silenced_called (hw : w.Sound set) (hc : c.timely set w.clock = true)
    {recent recent' : Delta → Prop} {limit : ℤ} (h : Silenced w.added recent w.heard limit)
    (hrecent : ∀ d, recent d → recent' d)
    (hnew : ∀ d, (w.called c).added = w.added ++ [d] →
      recent' d ∨ w.clock - set.silenceThresholdMs ≤ limit) :
    Silenced (w.called c).added recent' (w.called c).heard limit := by
  intro aic d hlast hd
  rcases hw.left_called hc hlast hd with ⟨hlast', hheard⟩ | ⟨hadded, x, hheard, hx⟩
  · rw [hheard]
    exact (h aic d hlast' hd).imp_left (hrecent d)
  · apply (hnew d hadded).imp_right
    intro hle
    exact ⟨x, hheard, by omega⟩

theorem Provider.Sound.called (hw : w.Sound set) (hc : c.timely set w.clock = true) :
    (w.called c).Sound set where
  consistent := (moves_fcall w.shard c).consistent hw.consistent
  clock_le := hw.clock_le
  heard _ _ hh := heard_called_of_some hh
  silenced := hw.silenced_called hc hw.silenced (fun _ h => h) fun _ _ =>
    .inr (Int.sub_le_sub_right hw.clock_le _)

theorem Provider.Sound.ticked (hw : w.Sound set) (ms : ℤ) : (w.ticked ms).Sound set where
  consistent := hw.consistent
  clock_le := le_max_right ..
  heard := hw.heard
  silenced aic d hlast hd := by
    apply (hw.silenced aic d hlast hd).imp_right
    rintro ⟨x, hx, hlt⟩
    have hle : w.shownMs ≤ (w.ticked ms).shownMs := le_max_left ..
    exact ⟨x, hx, by omega⟩

theorem Provider.sound_empty (set : HeartbeatSettings) : Provider.Sound set .empty where
  consistent := consistent_empty
  clock_le := le_rfl
  heard := nofun
  silenced := nofun

end Calls

structure JobSound (set : HeartbeatSettings) (added : List Delta) (job : Job) : Prop where
  begun : job.begun.Consistent
  grows : job.begun.deltaOutbox.added <+: added
  cutover_le : job.cutoverSeq ≤ job.begun.deltaSeq
  heard : ∀ aic h, job.begun.latest aic = some h → job.heard aic = some h.lastSeenAtMs
  now_le : job.nowMs ≤ job.shownMs
  taken : job.taken <+: job.begun.deltaOutbox.added
  silenced : Silenced job.begun.deltaOutbox.added (Since job.taken job.begun.deltaOutbox.added)
    job.heard (job.shownMs - set.silenceThresholdMs)

def Tracked (set : HeartbeatSettings) (added : List Delta) (job : Job)
    (P : String → Prop) : Prop :=
  job.truncated = false → ∀ aic x, job.begun.livenessZset.score aic = some x →
    job.nowMs - set.silenceThresholdMs ≤ x →
    (∃ d, Since job.begun.deltaOutbox.added added d ∧ d.aic = aic ∧ d.entry = none) ∨ P aic

structure RowSound (added : List Delta) (cutoverSeq : ℕ) (env : AliveDeltaEnvelope) : Prop where
  op : env.op = .upsert
  read : ∃ past d, past <+: added ∧ cutoverSeq ≤ past.length ∧
    lastOn Delta.aic env.aic past = some d ∧ d.entry ≠ none ∧ d.seq = env.version

def Provider.Scored (w : Provider) (P : String → ℤ → Prop) (aic : String) : Prop :=
  ∃ x, w.shard.livenessZset.score aic = some x ∧ P aic x

def PhaseSound (set : HeartbeatSettings) (w : Provider) : Prop :=
  match w.phase with
  | .idle => True
  | .timed nowMs shownMs taken => nowMs ≤ shownMs ∧ taken <+: w.added ∧
    Silenced w.added (Since taken w.added) w.heard (shownMs - set.silenceThresholdMs)
  | .paging job cursorMs allTuples => JobSound set w.added job ∧
    Tracked set w.added job
      (w.Scored fun aic x => aic ∈ allTuples.map Prod.fst ∨ cursorMs ≤ x)
  | .tie job chunk lastScore allTuples => JobSound set w.added job ∧
    Tracked set w.added job (w.Scored fun aic x => aic ∈ allTuples.map Prod.fst ∨
      aic ∈ chunk.map Prod.fst ∨ (set.snapshotChunkSize ≤ chunk.length ∧ lastScore ≤ x))
  | .reading job aics envelopes => JobSound set w.added job ∧
    (∀ env ∈ envelopes, RowSound w.added job.cutoverSeq env) ∧
    Tracked set w.added job
      (w.Scored fun aic _ => aic ∈ aics ∨ aic ∈ envelopes.map AliveDeltaEnvelope.aic)
  | .finished job ended envelopes => JobSound set w.added job ∧
    (∀ env ∈ envelopes, RowSound w.added job.cutoverSeq env) ∧
    job.begun.deltaOutbox.added <+: ended ∧ ended <+: w.added ∧
    Tracked set ended job (fun aic => aic ∈ envelopes.map AliveDeltaEnvelope.aic)

section Phases

variable {set : HeartbeatSettings} {w : Provider} {c : Call} {job : Job}
  {added added' : List Delta} {P : String → ℤ → Prop} {env : AliveDeltaEnvelope} {n : ℕ}

theorem JobSound.grow (h : JobSound set added job) (hadded : added <+: added') :
    JobSound set added' job := { h with grows := h.grows.trans hadded }

theorem RowSound.grow (h : RowSound added n env) (hadded : added <+: added') :
    RowSound added' n env := by
  obtain ⟨past, d, hpast, hrest⟩ := h.read
  exact ⟨h.op, past, d, hpast.trans hadded, hrest⟩

theorem added_prefix_called (w : Provider) (c : Call) : w.added <+: (w.called c).added := by
  obtain ⟨l, hl⟩ := exists_added w.shard c
  exact ⟨l, hl.symm⟩

theorem Tracked.called (h : Tracked set w.added job (w.Scored P)) (hw : w.Sound set)
    (hgrows : job.begun.deltaOutbox.added <+: w.added)
    (hP : ∀ aic x x', P aic x → x ≤ x' → P aic x') (c : Call) :
    Tracked set (w.called c).added job ((w.called c).Scored P) := by
  intro htrunc aic x₀ hx₀ hle
  rcases h htrunc aic x₀ hx₀ hle with ⟨d, hsince, hd⟩ | ⟨x, hx, hp⟩
  · obtain ⟨l, hl⟩ := exists_added w.shard c
    have hadded : (w.called c).added = w.added ++ l := hl
    rw [hadded]
    exact .inl ⟨d, hsince.append l, hd⟩
  · rcases (moves_fcall w.shard c).score hw.consistent hx with ⟨x', hx', hxx'⟩ | ⟨d, hl, hd⟩
    · exact .inr ⟨x', hx', hP aic x x' hp hxx'⟩
    · have hadded : (w.called c).added = w.added ++ [d] := hl
      rw [hadded]
      exact .inl ⟨d, .of_mem (List.mem_singleton_self d) hgrows, hd⟩

theorem Tracked.mono {Q Q' : String → Prop} (h : Tracked set added job Q)
    (hQ : ∀ aic, Q aic → Q' aic) : Tracked set added job Q' := by
  intro htrunc aic x hx hle
  exact (h htrunc aic x hx hle).imp_right (hQ aic)

theorem PhaseSound.called (h : PhaseSound set w) (hw : w.Sound set)
    (hc : c.timely set w.clock = true) : PhaseSound set (w.called c) := by
  have hgrow := added_prefix_called w c
  have hphase : (w.called c).phase = w.phase := rfl
  unfold PhaseSound at h ⊢
  rw [hphase]
  cases hp : w.phase with
  | idle => trivial
  | timed nowMs shownMs taken =>
    rw [hp] at h
    obtain ⟨hnow, htaken, hsilenced⟩ := h
    refine ⟨hnow, htaken.trans hgrow, hw.silenced_called hc hsilenced ?_ ?_⟩
    · intro d hd
      obtain ⟨l, hl⟩ := hgrow
      rw [← hl]
      exact hd.append l
    · intro d hadded
      rw [hadded]
      exact .inl (.of_mem (List.mem_singleton_self d) htaken)
  | paging job cursorMs allTuples =>
    rw [hp] at h
    refine ⟨h.1.grow hgrow, h.2.called hw h.1.grows ?_ c⟩
    rintro aic x x' (hx | hx) hle
    · exact .inl hx
    · exact .inr (hx.trans hle)
  | tie job chunk lastScore allTuples =>
    rw [hp] at h
    refine ⟨h.1.grow hgrow, h.2.called hw h.1.grows ?_ c⟩
    rintro aic x x' (hx | hx | ⟨hfull, hx⟩) hle
    · exact .inl hx
    · exact .inr (.inl hx)
    · exact .inr (.inr ⟨hfull, hx.trans hle⟩)
  | reading job aics envelopes =>
    rw [hp] at h
    refine ⟨h.1.grow hgrow, fun env henv => (h.2.1 env henv).grow hgrow, ?_⟩
    exact h.2.2.called hw h.1.grows (fun _ _ _ hx _ => hx) c
  | finished job ended envelopes =>
    rw [hp] at h
    obtain ⟨hjob, hrows, hbegun, hended, htracked⟩ := h
    exact ⟨hjob.grow hgrow, fun env henv => (hrows env henv).grow hgrow, hbegun,
      hended.trans hgrow, htracked⟩

theorem phaseSound_readNow (hw : w.Sound set) :
    PhaseSound set { w with phase := .timed w.clock w.shownMs w.added } := by
  refine ⟨hw.clock_le, List.prefix_refl _, fun aic d hlast hd => ?_⟩
  exact .inr ((hw.silenced aic d hlast hd).resolve_left id)

theorem phaseSound_readCutover (hw : w.Sound set) {nowMs shownMs : ℤ} {taken : List Delta}
    (h : nowMs ≤ shownMs ∧ taken <+: w.added ∧
      Silenced w.added (Since taken w.added) w.heard (shownMs - set.silenceThresholdMs))
    (hn : n ≤ w.shard.deltaSeq) :
    PhaseSound set { w with
      phase := .paging ⟨nowMs, n, false, shownMs, taken, w.shard, w.heard⟩
        (nowMs - set.silenceThresholdMs) [] } := by
  constructor
  · exact ⟨hw.consistent, List.prefix_refl _, hn, hw.heard, h.1, h.2.1, h.2.2⟩
  · intro _ aic x hx hle
    exact .inr ⟨x, hx, .inr hle⟩

theorem mem_take_or_le {z : SortedSet String ℤ} {cursorMs x : ℤ} {aic : String}
    (hx : z.score aic = some x) (hle : cursorMs ≤ x) (k : ℕ) {e : String × ℤ}
    (he : ((z.rangeByScore (fun x => cursorMs ≤ x)).take k).getLast? = some e) :
    (aic, x) ∈ (z.rangeByScore (fun x => cursorMs ≤ x)).take k ∨
      (k ≤ ((z.rangeByScore (fun x => cursorMs ≤ x)).take k).length ∧ e.2 ≤ x) := by
  have hmem : (aic, x) ∈ z.rangeByScore (fun x => cursorMs ≤ x) :=
    SortedSet.mem_rangeByScore.mpr ⟨hx, decide_eq_true hle⟩
  have hasc := z.ascending_rangeByScore (fun x => cursorMs ≤ x)
  generalize z.rangeByScore (fun x => cursorMs ≤ x) = l at he hmem hasc ⊢
  rw [← List.take_append_drop k l] at hmem hasc
  rcases List.mem_append.mp hmem with h | h
  · exact .inl h
  · right
    constructor
    · have hlen := List.length_pos_of_mem h
      rw [List.length_drop] at hlen
      rw [List.length_take]
      omega
    · have hlt := (List.pairwise_append.mp hasc).2.2 e (List.mem_of_getLast? he) (aic, x) h
      exact Prod.Lex.monotone_fst _ _ hlt.le

theorem phaseSound_readPage {cursorMs : ℤ} {allTuples : List (String × ℤ)}
    (h : JobSound set w.added job ∧ Tracked set w.added job
      (w.Scored fun aic x => aic ∈ allTuples.map Prod.fst ∨ cursorMs ≤ x)) :
    PhaseSound set { w with phase := .readPage set w.shard job cursorMs allTuples } := by
  obtain ⟨hjob, htracked⟩ := h
  unfold PhaseSound ExportPhase.readPage
  dsimp only
  cases he : ((w.shard.livenessZset.rangeByScore (fun x => cursorMs ≤ x)).take
      set.snapshotChunkSize).getLast? with
  | none =>
    refine ⟨hjob, by simp, htracked.mono ?_⟩
    rintro aic ⟨x, hx, hp | hle⟩
    · exact ⟨x, hx, .inl hp⟩
    · have hmem : (aic, x) ∈ w.shard.livenessZset.rangeByScore (fun x => cursorMs ≤ x) :=
        SortedSet.mem_rangeByScore.mpr ⟨hx, decide_eq_true hle⟩
      have hnil := (List.take_eq_nil_iff.mp (List.getLast?_eq_none_iff.mp he)).resolve_left
        set.chunkSize_pos.ne'
      rw [hnil] at hmem
      cases hmem
  | some e =>
    refine ⟨hjob, htracked.mono ?_⟩
    rintro aic ⟨x, hx, hp | hle⟩
    · exact ⟨x, hx, .inl hp⟩
    · refine ⟨x, hx, .inr ?_⟩
      apply (mem_take_or_le hx hle set.snapshotChunkSize he).imp_left
      exact fun hmem => List.mem_map_of_mem hmem

theorem mem_mergeTies {chunk tieGroup : List (String × ℤ)} {aic : String}
    (h : aic ∈ chunk.map Prod.fst ∨ aic ∈ tieGroup.map Prod.fst) :
    aic ∈ (mergeTies chunk tieGroup).map Prod.fst := by
  unfold mergeTies
  rw [List.map_append, List.mem_append]
  by_cases hc : aic ∈ chunk.map Prod.fst
  · exact .inl hc
  · right
    obtain ⟨e, he, rfl⟩ := List.mem_map.mp (h.resolve_left hc)
    exact List.mem_map_of_mem (List.mem_filter.mpr ⟨he, by simpa using hc⟩)

theorem phaseSound_readTie {chunk allTuples : List (String × ℤ)} {lastScore : ℤ}
    (h : JobSound set w.added job ∧ Tracked set w.added job
      (w.Scored fun aic x => aic ∈ allTuples.map Prod.fst ∨
        aic ∈ chunk.map Prod.fst ∨ (set.snapshotChunkSize ≤ chunk.length ∧ lastScore ≤ x))) :
    PhaseSound set { w with phase := .readTie set w.shard job chunk lastScore allTuples } := by
  obtain ⟨hjob, htracked⟩ := h
  unfold ExportPhase.readTie
  by_cases hlast : chunk.length < set.snapshotChunkSize
  · rw [if_pos hlast]
    refine ⟨hjob, by simp, htracked.mono ?_⟩
    rintro aic ⟨x, hx, hp | hp | ⟨hfull, _⟩⟩
    · exact ⟨x, hx, .inl (by simp [hp])⟩
    · refine ⟨x, hx, .inl ?_⟩
      rw [List.map_append]
      exact List.mem_append_right _ (mem_mergeTies (.inl hp))
    · omega
  · rw [if_neg hlast]
    refine ⟨hjob, htracked.mono ?_⟩
    rintro aic ⟨x, hx, hp | hp | ⟨_, hle⟩⟩
    · exact ⟨x, hx, .inl (by simp [hp])⟩
    · refine ⟨x, hx, .inl ?_⟩
      rw [List.map_append]
      exact List.mem_append_right _ (mem_mergeTies (.inl hp))
    · rcases hle.lt_or_eq with hlt | rfl
      · exact ⟨x, hx, .inr hlt⟩
      · refine ⟨lastScore, hx, .inl ?_⟩
        rw [List.map_append]
        apply List.mem_append_right
        apply mem_mergeTies
        right
        exact List.mem_map_of_mem (SortedSet.mem_rangeByScore.mpr ⟨hx, decide_eq_true rfl⟩)

theorem snapshotEntry_eq_some {shardId : String} {aic : String} {row : Option Latest}
    (h : snapshotEntry shardId n aic row = some env) :
    ∃ l, row = some l ∧ l.aliveMembershipState = .alive ∧
      env = ⟨shardId, l.lastDeltaSeq.getD n, aic, l.lastDeltaSeq.getD n, .upsert,
        some l.lastSeenAt⟩ := by
  cases row with
  | none => cases h
  | some l =>
    unfold snapshotEntry at h
    dsimp only at h
    split at h
    · cases h
    · next hl => exact ⟨l, rfl, Membership.ne_leftAlive.mp hl, (Option.some.inj h).symm⟩

theorem rowSound_snapshotEntry (hw : w.Sound set) (hjob : JobSound set w.added job)
    (shardId aic : String) (env : AliveDeltaEnvelope)
    (h : snapshotEntry shardId job.cutoverSeq aic (w.shard.latest aic) = some env) :
    RowSound w.added job.cutoverSeq env := by
  obtain ⟨l, hl, hal, rfl⟩ := snapshotEntry_eq_some h
  obtain ⟨d, hd, hseq⟩ := (hw.consistent.sound aic).seq l hl
  have hentry := (hw.consistent.sound aic).entry.mpr ⟨l, hl, hal⟩
  rw [hd, Option.bind_some] at hentry
  refine ⟨rfl, w.added, d, List.prefix_refl _, ?_, hd, ?_, ?_⟩
  · have hlen := hjob.grows.length_le
    rw [hjob.begun.length_added] at hlen
    exact hjob.cutover_le.trans hlen
  · exact Option.ne_none_iff_isSome.mpr hentry
  · dsimp only
    rw [hseq]
    rfl

theorem phaseSound_readHash (hw : w.Sound set) {aic shardId : String} {aics : List String}
    {envelopes : List AliveDeltaEnvelope} (h : JobSound set w.added job ∧
      (∀ env ∈ envelopes, RowSound w.added job.cutoverSeq env) ∧ Tracked set w.added job
        (w.Scored fun k _ => k ∈ aic :: aics ∨ k ∈ envelopes.map AliveDeltaEnvelope.aic)) :
    PhaseSound set { w with
      phase := .reading job aics (envelopes ++
        (snapshotEntry shardId job.cutoverSeq aic (w.shard.latest aic)).toList) } := by
  obtain ⟨hjob, hrows, htracked⟩ := h
  have hentry := rowSound_snapshotEntry hw hjob shardId aic
  refine ⟨hjob, ?_, htracked.mono ?_⟩
  · intro env henv
    rcases List.mem_append.mp henv with h | h
    · exact hrows env h
    · exact hentry env (Option.mem_toList.mp h)
  · rintro k ⟨x, hx, hk | hk⟩
    · rcases List.mem_cons.mp hk with rfl | hk
      · obtain ⟨l, hl, hal, _⟩ := hw.consistent.latest_of_score hx
        have hne : ¬ l.aliveMembershipState = .leftAlive := Membership.ne_leftAlive.mpr hal
        exact ⟨x, hx, .inr (by simp [snapshotEntry, hl, hne])⟩
      · exact ⟨x, hx, .inl hk⟩
    · exact ⟨x, hx, .inr (by simp [hk])⟩

end Phases

section Runs

variable {set : HeartbeatSettings} {shardId : String} {w w' : Provider}

theorem exporter_step {a : ExportAction} (hw : w.Sound set) (hp : PhaseSound set w)
    (hs : (exporter set shardId).step w a = some w') : w'.Sound set ∧ PhaseSound set w' := by
  cases a with
  | tick ms =>
    obtain rfl := Option.some.inj hs
    exact ⟨hw.ticked ms, hp⟩
  | call c =>
    simp only [exporter] at hs
    split at hs
    · next hc =>
      obtain rfl := Option.some.inj hs
      exact ⟨hw.called hc, hp.called hw hc⟩
    · cases hs
  | readNow =>
    obtain rfl := Option.some.inj hs
    exact ⟨⟨hw.consistent, hw.clock_le, hw.heard, hw.silenced⟩, phaseSound_readNow hw⟩
  | readCutover n =>
    simp only [exporter] at hs
    unfold PhaseSound at hp
    split at hs
    · next nowMs shownMs taken hphase =>
      rw [hphase] at hp
      split at hs
      · next hn =>
        obtain rfl := Option.some.inj hs
        exact ⟨⟨hw.consistent, hw.clock_le, hw.heard, hw.silenced⟩, phaseSound_readCutover hw hp hn⟩
      · cases hs
    · cases hs
  | readPage =>
    simp only [exporter] at hs
    unfold PhaseSound at hp
    split at hs
    · next job cursorMs allTuples hphase =>
      rw [hphase] at hp
      obtain rfl := Option.some.inj hs
      exact ⟨⟨hw.consistent, hw.clock_le, hw.heard, hw.silenced⟩, phaseSound_readPage hp⟩
    · cases hs
  | timeout =>
    simp only [exporter] at hs
    unfold PhaseSound at hp
    split at hs
    · next job cursorMs allTuples hphase =>
      rw [hphase] at hp
      obtain rfl := Option.some.inj hs
      have hjob := hp.1
      refine ⟨⟨hw.consistent, hw.clock_le, hw.heard, hw.silenced⟩, ?_, by simp, nofun⟩
      exact ⟨hjob.begun, hjob.grows, hjob.cutover_le, hjob.heard, hjob.now_le, hjob.taken,
        hjob.silenced⟩
    · cases hs
  | readTie =>
    simp only [exporter] at hs
    unfold PhaseSound at hp
    split at hs
    · next job chunk lastScore allTuples hphase =>
      rw [hphase] at hp
      obtain rfl := Option.some.inj hs
      exact ⟨⟨hw.consistent, hw.clock_le, hw.heard, hw.silenced⟩, phaseSound_readTie hp⟩
    · cases hs
  | readHash =>
    simp only [exporter] at hs
    unfold PhaseSound at hp
    split at hs
    · next job envelopes hphase =>
      rw [hphase] at hp
      obtain rfl := Option.some.inj hs
      obtain ⟨hjob, hrows, htracked⟩ := hp
      refine ⟨⟨hw.consistent, hw.clock_le, hw.heard, hw.silenced⟩, hjob, hrows, hjob.grows,
        List.prefix_refl _, ?_⟩
      apply htracked.mono
      rintro aic ⟨x, _, haic | haic⟩
      · cases haic
      · exact haic
    · next job aic aics envelopes hphase =>
      rw [hphase] at hp
      obtain rfl := Option.some.inj hs
      exact ⟨⟨hw.consistent, hw.clock_le, hw.heard, hw.silenced⟩, phaseSound_readHash hw hp⟩
    · cases hs

theorem exporter_exec {as : List ExportAction}
    (h : (exporter set shardId).exec .empty as = some w) : w.Sound set ∧ PhaseSound set w :=
  (exporter set shardId).exec_induction (I := fun w => w.Sound set ∧ PhaseSound set w)
    (fun _ _ _ hw hs => exporter_step hw.1 hw.2 hs) ⟨Provider.sound_empty set, trivial⟩ h

def ExportPhase.AtShown : ExportPhase → Prop
  | .idle => True
  | .timed nowMs shownMs _ => nowMs = shownMs
  | .paging job _ _ | .tie job _ _ _ | .reading job _ _ | .finished job _ _ =>
    job.nowMs = job.shownMs

theorem atShown_readPage {s : Shard} {job : Job} (h : job.nowMs = job.shownMs) (cursorMs : ℤ)
    (allTuples : List (String × ℤ)) : (ExportPhase.readPage set s job cursorMs allTuples).AtShown := by
  unfold ExportPhase.readPage
  dsimp only
  split <;> exact h

theorem atShown_readTie {s : Shard} {job : Job} (h : job.nowMs = job.shownMs)
    (chunk : List (String × ℤ)) (lastScore : ℤ) (allTuples : List (String × ℤ)) :
    (ExportPhase.readTie set s job chunk lastScore allTuples).AtShown := by
  unfold ExportPhase.readTie
  dsimp only
  split <;> exact h

theorem atShown_step {a : ExportAction} (hclock : w.clock = w.shownMs) (hp : w.phase.AtShown)
    (ha : ∀ ms, a = .tick ms → 0 ≤ ms) (hs : (exporter set shardId).step w a = some w') :
    w'.clock = w'.shownMs ∧ w'.phase.AtShown := by
  cases a with
  | tick ms =>
    obtain rfl := Option.some.inj hs
    have hms := ha ms rfl
    have hle : w.shownMs ≤ w.clock + ms := by omega
    exact ⟨(max_eq_right hle).symm, hp⟩
  | call c =>
    obtain ⟨_, hw⟩ := Option.ite_none_right_eq_some.mp hs
    obtain rfl := Option.some.inj hw
    exact ⟨hclock, hp⟩
  | readNow =>
    obtain rfl := Option.some.inj hs
    exact ⟨hclock, hclock⟩
  | readCutover n =>
    simp only [exporter] at hs
    split at hs
    · next hphase =>
      rw [hphase] at hp
      obtain ⟨_, hw⟩ := Option.ite_none_right_eq_some.mp hs
      obtain rfl := Option.some.inj hw
      exact ⟨hclock, hp⟩
    · cases hs
  | readPage =>
    simp only [exporter] at hs
    split at hs
    · next hphase =>
      rw [hphase] at hp
      obtain rfl := Option.some.inj hs
      exact ⟨hclock, atShown_readPage hp _ _⟩
    · cases hs
  | timeout =>
    simp only [exporter] at hs
    split at hs
    · next hphase =>
      rw [hphase] at hp
      obtain rfl := Option.some.inj hs
      exact ⟨hclock, hp⟩
    · cases hs
  | readTie =>
    simp only [exporter] at hs
    split at hs
    · next hphase =>
      rw [hphase] at hp
      obtain rfl := Option.some.inj hs
      exact ⟨hclock, atShown_readTie hp _ _ _⟩
    · cases hs
  | readHash =>
    simp only [exporter] at hs
    split at hs
    · next hphase =>
      rw [hphase] at hp
      obtain rfl := Option.some.inj hs
      exact ⟨hclock, hp⟩
    · next hphase =>
      rw [hphase] at hp
      obtain rfl := Option.some.inj hs
      exact ⟨hclock, hp⟩
    · cases hs

theorem exporter_atShown {as : List ExportAction} (hticks : ∀ ms, .tick ms ∈ as → 0 ≤ ms)
    (h : (exporter set shardId).exec .empty as = some w) : w.phase.AtShown := by
  have hC : (exporter set shardId).Meets (fun _ a => ∀ ms, a = .tick ms → 0 ≤ ms) .empty as := by
    apply System.meets_of_forall
    rintro _ ha _ ms rfl
    exact hticks ms ha
  have hempty : Provider.empty.clock = Provider.empty.shownMs ∧ Provider.empty.phase.AtShown :=
    ⟨rfl, trivial⟩
  exact ((exporter set shardId).exec_invariant
    (I := fun w => w.clock = w.shownMs ∧ w.phase.AtShown)
    (fun _ _ _ hw hC hs => atShown_step hw.1 hw.2 hC hs) hempty hC h).2

end Runs

end Acps.Heartbeat
