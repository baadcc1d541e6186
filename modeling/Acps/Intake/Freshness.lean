import Acps.Intake.NothingLost

/-!
The watermark that queries report: it is behind all data that is not yet inserted, so long as no
partition's watermark is written past records of it that are buffered or still to be taken.
-/

namespace Acps.Intake

open Transition

variable {P Row : Type} (F : Format Row) (s t : World P Row) {start : P → ℕ}

structure Outstanding (start : P → ℕ) (p : P) (i : ℕ) (row : Row) : Prop where
  valid : ∃ logId, Valid F s p i logId row ∧ logId ∉ s.insertedIds ∧
    (i < start p ∨ s.position p ≤ i ∨ logId ∈ s.batchLogIds)

/-- A watermark is written only where all that is outstanding of each partition is later than the
partition's watermark, or than the one written where the partition has none. -/
def Behind [DecidableEq P] (start : P → ℕ) (s : World P Row) (a : Act P) : Prop :=
  ∀ p value, watermarkWrite s a = some (p, value) → ∀ q i row, Outstanding F s start q i row →
    (Function.update s.watermark p (some value) q).getD value < F.timestampMs row

/-- All data that was there when the watermark was written and is not later than it is inserted. -/
def Fresh (s : World P Row) : Prop :=
  ∀ w, s.readEventsWatermark = some w → ∀ p i logId row, i < s.written p →
    Valid F s p i logId row → F.timestampMs row ≤ w → logId ∈ s.insertedIds

structure Known (s : World P Row) : Prop where
  watermark : ∀ p, (s.watermark p).isSome → p ∈ s.partitions
  written : ∀ p, s.written p ≤ (s.log p).length

variable {F s t}

theorem exists_of_mapM {f : P → Option Time} {ps : List P} {ws : List Time}
    (h : ps.mapM f = some ws) {p : P} (hp : p ∈ ps) : ∃ v ∈ ws, f p = some v := by
  induction ps generalizing ws with
  | nil => cases hp
  | cons q ps ih =>
    rw [List.mapM_cons] at h
    obtain ⟨v, hv, h⟩ := Option.bind_eq_some_iff.mp h
    obtain ⟨rest, hrest, h⟩ := Option.bind_eq_some_iff.mp h
    obtain rfl := Option.some.inj h
    rcases List.mem_cons.mp hp with rfl | hp
    · exact ⟨v, List.mem_cons_self, hv⟩
    · obtain ⟨u, hu, hfu⟩ := ih hrest hp
      exact ⟨u, List.mem_cons_of_mem v hu, hfu⟩

theorem readEventsWatermark_le {w : Time} (h : s.readEventsWatermark = some w) {p : P}
    (hp : p ∈ s.partitions) : ∃ v, s.watermark p = some v ∧ w ≤ v := by
  obtain ⟨ws, hws, hmin⟩ := Option.bind_eq_some_iff.mp h
  obtain ⟨v, hv, hwatermark⟩ := exists_of_mapM hws hp
  exact ⟨v, hwatermark, (List.min?_eq_some_iff.mp hmin).2 v hv⟩

theorem Valid.unique {p : P} {i : ℕ} {logId logId' : String} {row row' : Row}
    (h : Valid F s p i logId row) (h' : Valid F s p i logId' row') : logId = logId' := by
  obtain ⟨value, hvalue, hparse⟩ := h
  obtain ⟨value', hvalue', hparse'⟩ := h'
  obtain rfl := Option.some.inj (hvalue.symm.trans hvalue')
  exact (Parsed.record.inj (hparse.symm.trans hparse')).1

theorem outstanding_of_not_inserted (h : Tracked F start s) {p : P} {i : ℕ} {logId : String}
    {row : Row} (hvalid : Valid F s p i logId row) (hmissing : logId ∉ s.insertedIds) :
    Outstanding F s start p i row := by
  refine ⟨logId, hvalid, hmissing, ?_⟩
  by_contra htaken
  simp only [not_or, Nat.not_lt, Nat.not_le] at htaken
  rcases h.taken p i htaken.1 htaken.2.1 with hsettled | ⟨logId', row', hvalid', hmem⟩
  · obtain ⟨value, hvalue, hdealt⟩ := hsettled
    obtain ⟨value', hvalue', hparse⟩ := hvalid
    obtain rfl := Option.some.inj (hvalue.symm.trans hvalue')
    rw [hparse] at hdealt
    exact hmissing hdealt
  · rw [hvalid'.unique hvalid] at hmem
    exact htaken.2.2 hmem

theorem known_setWatermark [DecidableEq P] (h : Known s) (p : P) (value : Time) : Known (setWatermark s p value) := by
  refine ⟨fun q hq => ?_, fun q => Nat.le_refl _⟩
  have hmem : q = p ∨ q ∈ s.partitions := by
    by_cases hqp : q = p
    · exact .inl hqp
    · refine .inr (h.watermark q ?_)
      change (Function.update s.watermark p (some value) q).isSome at hq
      rwa [Function.update_of_ne hqp] at hq
  change q ∈ if p ∈ s.partitions then s.partitions else s.partitions ++ [p]
  split <;> rcases hmem with rfl | hmem <;> simp_all

theorem fresh_setWatermark [DecidableEq P] (htracked : Tracked F start s) (hknown : Known s) {p : P} {value : Time}
    (hbehind : ∀ q i row, Outstanding F s start q i row →
      (Function.update s.watermark p (some value) q).getD value < F.timestampMs row) :
    Fresh F (setWatermark s p value) := by
  intro w hw q i logId row _ hvalid hle
  by_contra hmissing
  have hlate := hbehind q i row (outstanding_of_not_inserted htracked hvalid hmissing)
  have hknown := known_setWatermark hknown p value
  have hself : (setWatermark s p value).watermark p = some value := Function.update_self ..
  cases hq : (setWatermark s p value).watermark q with
  | some v =>
    obtain ⟨v', hv', hwv⟩ := readEventsWatermark_le hw (hknown.watermark q (by rw [hq]; rfl))
    obtain rfl := Option.some.inj (hq.symm.trans hv')
    change Function.update s.watermark p (some value) q = some v at hq
    rw [hq, Option.getD_some] at hlate
    exact absurd (Int.lt_of_lt_of_le hlate (Int.le_trans hle hwv)) (Int.lt_irrefl v)
  | none =>
    obtain ⟨v', hv', hwv⟩ := readEventsWatermark_le hw (hknown.watermark p (by rw [hself]; rfl))
    obtain rfl := Option.some.inj (hself.symm.trans hv')
    change Function.update s.watermark p (some value) q = none at hq
    rw [hq, Option.getD_none] at hlate
    exact absurd (Int.lt_of_lt_of_le hlate (Int.le_trans hle hwv)) (Int.lt_irrefl value)

theorem Fresh.of_same (h : Fresh F s) (hknown : Known s) (hgrows : Grows s t)
    (hread : t.readEventsWatermark = s.readEventsWatermark) (hwritten : t.written = s.written) :
    Fresh F t := by
  intro w hw p i logId row hi hvalid hle
  rw [hread] at hw
  rw [hwritten] at hi
  apply hgrows.inserted
  refine h w hw p i logId row hi ?_ hle
  obtain ⟨value, hvalue, hparse⟩ := hvalid
  have hlength : i < (s.log p).length := Nat.lt_of_lt_of_le hi (hknown.written p)
  have hsame := hgrows.log p i _ (List.getElem?_eq_getElem hlength)
  refine ⟨value, ?_, hparse⟩
  rw [List.getElem?_eq_getElem hlength]
  exact hsame.symm.trans hvalue

structure Frames (s t : World P Row) : Prop where
  log : t.log = s.log
  watermark : t.watermark = s.watermark
  partitions : t.partitions = s.partitions
  written : t.written = s.written
  dlq : ∀ x ∈ s.dlq, x ∈ t.dlq
  inserted : ∀ logId ∈ s.insertedIds, logId ∈ t.insertedIds

theorem frames_consume [DecidableEq P] {p : P} {dlqUp : Bool} (h : consume F s p dlqUp = some t) : Frames s t := by
  unfold consume at h
  split at h
  · split at h
    · obtain rfl := Option.some.inj h
      exact ⟨rfl, rfl, rfl, rfl, fun _ h => h, fun _ h => h⟩
    · cases dlqUp with
      | true =>
        obtain rfl := Option.some.inj h
        exact ⟨rfl, rfl, rfl, rfl, fun _ h => List.mem_append_left _ h, fun _ h => h⟩
      | false =>
        obtain rfl := Option.some.inj h
        exact ⟨rfl, rfl, rfl, rfl, fun _ h => h, fun _ h => h⟩
  · cases h

theorem mem_insertedIds_append {kept : List (PreparedRecord P Row)} :
    ∀ logId ∈ s.insertedIds, logId ∈ (s.events ++ kept).map PreparedRecord.logId := by
  intro logId hmem
  rw [List.map_append]
  exact List.mem_append_left _ hmem

theorem frames_flushBatch [DecidableEq P] {redisUp : Bool} {outcome : InsertOutcome} {now : Time}
    (h : flushBatch s redisUp outcome now = some t) : Frames s t := by
  unfold flushBatch at h
  split at h
  · simp only at h
    split at h
    · obtain rfl := Option.some.inj h
      exact ⟨rfl, rfl, rfl, rfl, fun _ h => h, fun _ h => h⟩
    · match outcome with
      | .inserted | .failed true =>
        obtain rfl := Option.some.inj h
        exact ⟨rfl, rfl, rfl, rfl, fun _ h => h, mem_insertedIds_append⟩
      | .failed false =>
        obtain rfl := Option.some.inj h
        exact ⟨rfl, rfl, rfl, rfl, fun _ h => h, fun _ h => h⟩
  · cases h

theorem frames_markSeenAndCommit {marked : List String} (h : markSeenAndCommit s marked = some t) :
    Frames s t := by
  unfold markSeenAndCommit at h
  split at h
  · split at h
    · obtain rfl := Option.some.inj h
      exact ⟨rfl, rfl, rfl, rfl, fun _ h => h, fun _ h => h⟩
    · cases h
  · cases h

structure Sound (F : Format Row) (start : P → ℕ) (s : World P Row) : Prop where
  tracked : Tracked F start s
  known : Known s
  fresh : Fresh F s

theorem Sound.of_same (h : Sound F start s) (htracked : Tracked F start t) (hgrows : Grows s t)
    (hwatermark : t.watermark = s.watermark) (hpartitions : t.partitions = s.partitions)
    (hwritten : t.written = s.written) (hlog : ∀ p, (s.log p).length ≤ (t.log p).length) :
    Sound F start t := by
  have hread : t.readEventsWatermark = s.readEventsWatermark := by
    unfold World.readEventsWatermark
    rw [hwatermark, hpartitions]
  refine ⟨htracked, ⟨fun p hp => ?_, fun p => ?_⟩, h.fresh.of_same h.known hgrows hread hwritten⟩
  · rw [hwatermark] at hp
    rw [hpartitions]
    exact h.known.watermark p hp
  · rw [hwritten]
    exact Nat.le_trans (h.known.written p) (hlog p)

theorem Sound.of_frames (h : Sound F start s) (htracked : Tracked F start t) (hframes : Frames s t) :
    Sound F start t := by
  apply h.of_same htracked ⟨?_, hframes.dlq, hframes.inserted⟩ hframes.watermark
    hframes.partitions hframes.written
  · intro p
    exact Nat.le_of_eq (by rw [hframes.log])
  · intro p i value hvalue
    rwa [hframes.log]

theorem sound_setWatermark [DecidableEq P] {p : P} {value : Time} (h : Sound F start s)
    (hbehind : ∀ q i row, Outstanding F s start q i row →
      (Function.update s.watermark p (some value) q).getD value < F.timestampMs row) :
    Sound F start (setWatermark s p value) :=
  ⟨tracked_setWatermark h.tracked, known_setWatermark h.known p value,
    fresh_setWatermark h.tracked h.known hbehind⟩

theorem sound_step [DecidableEq P] {a : Act P} (h : Sound F start s) (hcareful : Careful F start s a)
    (hbehind : Behind F start s a) (hstep : step F s a = some t) : Sound F start t := by
  have htracked := tracked_step h.tracked hcareful hstep
  cases a with
  | advancePartitionWatermark =>
    simp only [step, advancePartitionWatermark] at hstep
    split at hstep
    next now p batchMaxTs todo kept hflushed =>
      obtain rfl := Option.some.inj hstep
      have hsound := sound_setWatermark h (hbehind p (min now (max ((s.watermark p).getD 0) batchMaxTs))
        (by simp only [watermarkWrite, hflushed]))
      exact ⟨htracked, ⟨hsound.known.watermark, hsound.known.written⟩, hsound.fresh⟩
    next => cases hstep
  | advanceIdlePartition p now =>
    simp only [step, advanceIdlePartition] at hstep
    split at hstep
    · split at hstep
      · obtain rfl := Option.some.inj hstep
        exact sound_setWatermark h (hbehind p _ rfl)
      · cases hstep
    · cases hstep
  | append p value =>
    obtain rfl := Option.some.inj hstep
    refine h.of_same htracked grows_append rfl rfl rfl fun q => ?_
    change _ ≤ (Function.update s.log p (s.log p ++ [value]) q).length
    by_cases hq : q = p
    · subst hq
      simp
    · exact Nat.le_of_eq (by rw [Function.update_of_ne hq])
  | fetched p | expire logId =>
    obtain rfl := Option.some.inj hstep
    exact h.of_same htracked ⟨fun _ _ _ h => h, fun _ h => h, fun _ h => h⟩ rfl rfl rfl fun _ => Nat.le_refl _
  | consume p dlqUp => exact h.of_frames htracked (frames_consume hstep)
  | flush redisUp outcome now => exact h.of_frames htracked (frames_flushBatch hstep)
  | markSeenAndCommit marked => exact h.of_frames htracked (frames_markSeenAndCommit hstep)

theorem behind_of_drained [DecidableEq P] {a : Act P} (hs : Tracked F start s)
    (hend : ∀ p, (s.log p).length ≤ s.position p)
    (hbuffer : ∀ logId ∈ s.batchLogIds, logId ∈ s.insertedIds)
    (hearlier : ∀ p i logId row, i < start p → Valid F s p i logId row → logId ∈ s.insertedIds) :
    Behind F start s a := by
  rintro p value _ q i row ⟨logId, hvalid, hmissing, _⟩
  obtain ⟨v, hv, hparse⟩ := hvalid
  have hlength := (List.getElem?_eq_some_iff.mp hv).1
  by_cases hstart : i < start q
  · exact absurd (hearlier q i logId row hstart ⟨v, hv, hparse⟩) hmissing
  · have htaken := hs.taken q i (Nat.le_of_not_lt hstart) (Nat.lt_of_lt_of_le hlength (hend q))
    have hsettled := htaken.elim id fun hbuffered => hbuffered.settled hbuffer
    obtain ⟨v', hv', hdealt⟩ := hsettled
    obtain rfl := Option.some.inj (hv.symm.trans hv')
    rw [hparse] at hdealt
    exact absurd hdealt hmissing

namespace Sample

def ordered : List (Act Unit) := take [0] ++ inserts ["m"] ++ take [0, 0]

def behind (s : World Unit ℤ) (a : Act Unit) : Bool :=
  (watermarkWrite s a).all fun write => (s.log ()).all fun value =>
    match format.parse value with
    | .record logId (some row) => logId ∈ s.insertedIds ∨ write.2 < row
    | _ => true

end Sample

end Acps.Intake
