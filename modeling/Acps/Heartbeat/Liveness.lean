import Acps.Heartbeat.Shard

/-!
The hashes, the sorted set and the outbox of a shard tell the same story: the outbox replays
to the alive AICs, and the sorted set lists them. AICs that fell silent are in neither.
-/

namespace Acps.Heartbeat

open Replay

def Delta.entry (d : Delta) : Option Delta :=
  match d.op with
  | .upsert .. => some d
  | .delete _ => none

def Latest.aliveScore (h : Latest) : Option ℤ :=
  if h.aliveMembershipState = .alive then some h.lastSeenAtMs else none

def Call.aic : Call → String
  | .applyHeartbeat aic .. => aic
  | .markSilentOne aic .. => aic
  | .evictOne aic .. => aic

structure Cell where
  latest : Option Latest
  score : Option ℤ
  last : Option Delta

structure Cell.Sound (c : Cell) : Prop where
  score : c.score = c.latest.bind Latest.aliveScore
  seq : ∀ h, c.latest = some h → ∃ d, c.last = some d ∧ h.lastDeltaSeq = some d.seq
  entry : (c.last.bind Delta.entry).isSome ↔ ∃ h, c.latest = some h ∧ h.aliveMembershipState = .alive

namespace Shard

variable {s s' : Shard} {aic k : String} {c : Call}

def cell (s : Shard) (k : String) : Cell where
  latest := s.latest k
  score := s.livenessZset.score k
  last := lastOn Delta.aic k s.deltaOutbox.added

def replayed (s : Shard) : String → Option Delta :=
  replay Delta.aic Delta.entry (fun _ => none) s.deltaOutbox.added

structure Consistent (s : Shard) : Prop where
  seqs : s.deltaOutbox.added.map Delta.seq = List.range' 1 s.deltaSeq
  sound : ∀ k, (s.cell k).Sound

theorem replayed_apply (s : Shard) (k : String) :
    s.replayed k = (s.cell k).last.bind Delta.entry := by
  rw [replayed, replay_apply]
  cases h : lastOn Delta.aic k s.deltaOutbox.added <;> simp [cell, h]

theorem trimmed_le_xaddOutbox (o : Stream Delta) (trim : Trim) (d : Delta) :
    o.trimmed ≤ (xaddOutbox o trim d).trimmed := by
  unfold xaddOutbox
  split
  · exact o.trimmed_le_xaddMaxLen ..
  · exact le_rfl

@[simp] theorem added_xaddOutbox (o : Stream Delta) (trim : Trim) (d : Delta) :
    (xaddOutbox o trim d).added = o.added ++ [d] := by
  unfold xaddOutbox
  split
  · exact Stream.added_xaddMaxLen ..
  · rfl

theorem added_emit (s : Shard) (trim : Trim) (k : String) (op : Op) :
    (s.emit trim k op).deltaOutbox.added = s.deltaOutbox.added ++ [⟨s.deltaSeq + 1, k, op⟩] :=
  added_xaddOutbox ..

theorem lastOn_emit_self (s : Shard) (trim : Trim) (k : String) (op : Op) :
    lastOn Delta.aic k (s.emit trim k op).deltaOutbox.added = some ⟨s.deltaSeq + 1, k, op⟩ := by
  rw [added_emit]
  exact lastOn_concat_self Delta.aic s.deltaOutbox.added ⟨s.deltaSeq + 1, k, op⟩

@[simp] theorem deltaSeq_hset (s : Shard) (k : String) (h : Latest) :
    (s.hset k h).deltaSeq = s.deltaSeq := rfl

@[simp] theorem deltaSeq_zadd (s : Shard) (x : ℤ) (k : String) :
    (s.zadd x k).deltaSeq = s.deltaSeq := rfl

@[simp] theorem deltaSeq_zrem (s : Shard) (k : String) : (s.zrem k).deltaSeq = s.deltaSeq := rfl

@[simp] theorem cell_hset_self (s : Shard) (k : String) (h : Latest) :
    (s.hset k h).cell k = { s.cell k with latest := some h } := by simp [cell, hset]

@[simp] theorem cell_del_self (s : Shard) (k : String) :
    (s.del k).cell k = { s.cell k with latest := none } := by simp [cell, del]

@[simp] theorem cell_zadd_self (s : Shard) (x : ℤ) (k : String) :
    (s.zadd x k).cell k = { s.cell k with score := some x } := by simp [cell, zadd]

@[simp] theorem cell_zrem_self (s : Shard) (k : String) :
    (s.zrem k).cell k = { s.cell k with score := none } := by simp [cell, zrem]

@[simp] theorem cell_emit_self (s : Shard) (trim : Trim) (k : String) (op : Op) :
    (s.emit trim k op).cell k = { s.cell k with last := some ⟨s.deltaSeq + 1, k, op⟩ } := by
  rw [cell, lastOn_emit_self]
  rfl

theorem cell_hset_of_ne (hk : k ≠ aic) (s : Shard) (h : Latest) :
    (s.hset aic h).cell k = s.cell k := by simp [cell, hset, hk]

theorem cell_del_of_ne (hk : k ≠ aic) (s : Shard) : (s.del aic).cell k = s.cell k := by
  simp [cell, del, hk]

theorem cell_zadd_of_ne (hk : k ≠ aic) (s : Shard) (x : ℤ) :
    (s.zadd x aic).cell k = s.cell k := by
  simp [cell, zadd, SortedSet.score_zadd_of_ne hk]

theorem cell_zrem_of_ne (hk : k ≠ aic) (s : Shard) : (s.zrem aic).cell k = s.cell k := by
  simp [cell, zrem, SortedSet.score_zrem_of_ne hk]

theorem cell_emit_of_ne (hk : k ≠ aic) (s : Shard) (trim : Trim) (op : Op) :
    (s.emit trim aic op).cell k = s.cell k := by
  simp only [cell, emit, added_xaddOutbox, Cell.mk.injEq, true_and]
  have hne : (⟨s.deltaSeq + 1, aic, op⟩ : Delta).aic ≠ k := hk.symm
  exact lastOn_concat_of_ne hne _

end Shard

open Shard

section Steps

variable {s s' : Shard} {c : Call}

theorem Moves.frame (h : Moves s c s') {k : String} (hk : k ≠ c.aic) : s'.cell k = s.cell k := by
  cases h with
  | skipped => rfl
  | unlisted _ => exact cell_zrem_of_ne hk s
  | seen => exact (cell_zadd_of_ne hk _ _).trans (cell_hset_of_ne hk s _)
  | upserted =>
    calc _ = _ := cell_emit_of_ne hk _ _ _
      _ = _ := cell_zadd_of_ne hk _ _
      _ = s.cell k := cell_hset_of_ne hk s _
  | left =>
    calc _ = _ := cell_emit_of_ne hk _ _ _
      _ = _ := cell_zrem_of_ne hk _
      _ = s.cell k := cell_hset_of_ne hk s _
  | dropped => exact (cell_zrem_of_ne hk _).trans (cell_del_of_ne hk s)
  | evicted =>
    calc _ = _ := cell_zrem_of_ne hk _
      _ = _ := cell_del_of_ne hk _
      _ = s.cell k := cell_emit_of_ne hk s _ _

theorem Moves.sound (h : Moves s c s') (hs : (s.cell c.aic).Sound) : (s'.cell c.aic).Sound := by
  cases h with
  | skipped => exact hs
  | @unlisted aic _ _ _ hnone =>
    have hcell : (s.cell aic).latest = none := hnone
    refine ⟨?_, ?_, ?_⟩
    · simp [Call.aic, hcell]
    · simp [Call.aic, hcell]
    · have := hs.entry
      simpa [Call.aic] using this
  | @seen aic _ _ _ _ _ h h' hsome ha _ hat ha' hseq =>
    have hcell : (s.cell aic).latest = some h := hsome
    refine ⟨?_, ?_, ?_⟩
    · simp [Call.aic, Latest.aliveScore, ha', hat]
    · have := hs.seq h hcell
      simpa [Call.aic, hseq] using this
    · have := hs.entry
      simp only [Call.aic, hcell, Option.some.injEq, exists_eq_left', ha, iff_true] at this
      simpa [Call.aic, ha'] using this
  | @upserted aic _ _ _ _ _ h' kind _ hat ha' hseq =>
    refine ⟨?_, ?_, ?_⟩
    · simp [Call.aic, Latest.aliveScore, ha', hat]
    · simp [Call.aic, hseq]
    · simp [Call.aic, ha', Delta.entry]
  | @left aic _ _ _ h h' _ _ _ _ ha' hseq =>
    refine ⟨?_, ?_, ?_⟩
    · simp [Call.aic, Latest.aliveScore, ha']
    · simp [Call.aic, hseq]
    · simp [Call.aic, ha', Delta.entry]
  | @dropped aic _ _ _ h hsome ha _ =>
    have hcell : (s.cell aic).latest = some h := hsome
    refine ⟨?_, ?_, ?_⟩
    · simp [Call.aic]
    · simp [Call.aic]
    · have := hs.entry
      simpa [Call.aic, hcell, ha] using this
  | evicted =>
    refine ⟨?_, ?_, ?_⟩
    · simp [Call.aic]
    · simp [Call.aic]
    · simp [Call.aic, Delta.entry]

theorem seqs_emit (hs : s.deltaOutbox.added.map Delta.seq = List.range' 1 s.deltaSeq) (trim : Trim)
    (aic : String) (op : Op) :
    (s.emit trim aic op).deltaOutbox.added.map Delta.seq =
      List.range' 1 (s.emit trim aic op).deltaSeq := by
  simp only [Shard.emit, added_xaddOutbox, List.map_append, hs, List.map_cons, List.map_nil]
  rw [List.range'_1_concat, Nat.add_comm 1]

theorem Moves.added (h : Moves s c s') : s'.deltaOutbox.added = s.deltaOutbox.added ∨
    ∃ d, s'.deltaOutbox.added = s.deltaOutbox.added ++ [d] := by
  cases h with
  | skipped => exact .inl rfl
  | unlisted _ => exact .inl rfl
  | seen => exact .inl rfl
  | dropped => exact .inl rfl
  | upserted => exact .inr ⟨_, added_xaddOutbox ..⟩
  | left => exact .inr ⟨_, added_xaddOutbox ..⟩
  | evicted => exact .inr ⟨_, added_xaddOutbox ..⟩

theorem Moves.trimmed_le (h : Moves s c s') : s.deltaOutbox.trimmed ≤ s'.deltaOutbox.trimmed := by
  cases h with
  | skipped => exact le_rfl
  | unlisted _ => exact le_rfl
  | seen => exact le_rfl
  | dropped => exact le_rfl
  | upserted => exact trimmed_le_xaddOutbox ..
  | left => exact trimmed_le_xaddOutbox ..
  | evicted => exact trimmed_le_xaddOutbox ..

theorem Moves.seqs (h : Moves s c s')
    (hs : s.deltaOutbox.added.map Delta.seq = List.range' 1 s.deltaSeq) :
    s'.deltaOutbox.added.map Delta.seq = List.range' 1 s'.deltaSeq := by
  cases h with
  | skipped => exact hs
  | unlisted _ => exact hs
  | seen => exact hs
  | dropped => exact hs
  | @upserted aic observed _ ts _ trim h' kind =>
    exact seqs_emit (s := (s.hset aic h').zadd observed aic) hs trim aic _
  | @left aic _ _ trim _ h' => exact seqs_emit (s := (s.hset aic h').zrem aic) hs trim aic _
  | @evicted aic _ _ trim => exact seqs_emit hs trim aic _

theorem Moves.consistent (h : Moves s c s') (hs : s.Consistent) : s'.Consistent where
  seqs := h.seqs hs.seqs
  sound k := by
    by_cases hk : k = c.aic
    · subst hk
      exact h.sound (hs.sound _)
    · rw [h.frame hk]
      exact hs.sound k

end Steps

theorem Shard.consistent_empty : Shard.empty.Consistent where
  seqs := rfl
  sound k := by
    have hcell : Shard.empty.cell k = ⟨none, none, none⟩ := rfl
    rw [hcell]
    exact ⟨rfl, fun _ h => (Option.some_ne_none _ h.symm).elim, by simp⟩

theorem consistent_exec {s : Shard} {cs : List Call} (h : calls.exec .empty cs = some s) :
    s.Consistent := by
  refine calls.exec_induction (I := Shard.Consistent) ?_ consistent_empty h
  rintro s c _ hs ⟨⟩
  exact (moves_fcall s c).consistent hs

theorem min_le_length_xaddOutbox {n : ℕ} {trim : Trim}
    (hn : trim.outboxMaxLen = 0 ∨ n ≤ trim.outboxMaxLen) {o : Stream Delta} (d : Delta)
    (h : min n o.added.length ≤ o.entries.length) :
    min n (xaddOutbox o trim d).added.length ≤ (xaddOutbox o trim d).entries.length := by
  rw [added_xaddOutbox, List.length_append, List.length_singleton]
  unfold xaddOutbox
  split
  · next hpos =>
    exact Stream.length_entries_xaddMaxLen (hn.resolve_left hpos.ne') _ _ _ h
  · have hle := o.trimmed_le
    rw [Stream.length_entries] at h ⊢
    simp only [Stream.added_xadd, Stream.trimmed_xadd, List.length_append, List.length_singleton]
    omega

theorem Moves.retained {s s' : Shard} {c : Call} (h : Moves s c s') {n : ℕ}
    (hn : c.trim.outboxMaxLen = 0 ∨ n ≤ c.trim.outboxMaxLen)
    (hs : min n s.deltaOutbox.added.length ≤ s.deltaOutbox.entries.length) :
    min n s'.deltaOutbox.added.length ≤ s'.deltaOutbox.entries.length := by
  cases h with
  | skipped => exact hs
  | unlisted _ => exact hs
  | seen => exact hs
  | dropped => exact hs
  | upserted => exact min_le_length_xaddOutbox hn _ hs
  | left => exact min_le_length_xaddOutbox hn _ hs
  | evicted => exact min_le_length_xaddOutbox hn _ hs

theorem retained_exec {s : Shard} {cs : List Call} (h : calls.exec .empty cs = some s) {n : ℕ}
    (hn : ∀ c ∈ cs, c.trim.outboxMaxLen = 0 ∨ n ≤ c.trim.outboxMaxLen) :
    min n s.deltaOutbox.added.length ≤ s.deltaOutbox.entries.length := by
  refine calls.exec_invariant (C := fun _ c => c.trim.outboxMaxLen = 0 ∨ n ≤ c.trim.outboxMaxLen)
    (I := fun s => min n s.deltaOutbox.added.length ≤ s.deltaOutbox.entries.length) ?_
    (by simp [Shard.empty]) (calls.meets_of_forall (fun c hc _ => hn c hc) _) h
  rintro s c _ hs hc ⟨⟩
  exact (moves_fcall s c).retained hc hs

theorem Shard.Consistent.length_added {s : Shard} (hs : s.Consistent) :
    s.deltaOutbox.added.length = s.deltaSeq := by
  simpa using congrArg List.length hs.seqs

theorem outbox_replays_liveness {s : Shard} {cs : List Call} (h : calls.exec .empty cs = some s) :
    s.deltaOutbox.added.map Delta.seq = List.range' 1 s.deltaSeq ∧
      s.deltaOutbox.entries.map Delta.seq =
        List.range' (s.deltaOutbox.trimmed + 1) (s.deltaSeq - s.deltaOutbox.trimmed) ∧
      (∀ n, (∀ c ∈ cs, c.trim.outboxMaxLen = 0 ∨ n ≤ c.trim.outboxMaxLen) →
        min n s.deltaSeq ≤ s.deltaOutbox.entries.length) ∧
      (∀ aic, (s.replayed aic).isSome ↔
        ∃ h, s.latest aic = some h ∧ h.aliveMembershipState = .alive) ∧
      (∀ aic x, s.livenessZset.score aic = some x ↔
        ∃ h, s.latest aic = some h ∧ h.aliveMembershipState = .alive ∧ h.lastSeenAtMs = x) ∧
      (∀ aic h, s.latest aic = some h →
        ∃ d, lastOn Delta.aic aic s.deltaOutbox.added = some d ∧ h.lastDeltaSeq = some d.seq) := by
  have hs := consistent_exec h
  refine ⟨hs.seqs, ?_, ?_, ?_, ?_, ?_⟩
  · rw [Stream.entries, List.map_drop, hs.seqs, List.drop_range']
    simp [Nat.add_comm]
  · intro n hn
    rw [← hs.length_added]
    exact retained_exec h hn
  · intro aic
    rw [replayed_apply]
    exact (hs.sound aic).entry
  · intro aic x
    have hscore : s.livenessZset.score aic = (s.latest aic).bind Latest.aliveScore :=
      (hs.sound aic).score
    rw [hscore, Option.bind_eq_some_iff]
    apply exists_congr
    intro h
    simp [Latest.aliveScore]
  · intro aic h hh
    exact (hs.sound aic).seq h hh

def silencedRun : List Call :=
  [.applyHeartbeat "a" 0 "1970-01-01T00:00:00+00:00" none 30000 ⟨1000000, 0⟩,
    .applyHeartbeat "b" 60000 "1970-01-01T00:01:00+00:00" none 30000 ⟨1000000, 0⟩,
    .markSilentOne "a" 90001 90000 ⟨1000000, 0⟩]

theorem outbox_replays_liveness_silenced :
    ∃ s, calls.exec .empty silencedRun = some s ∧ s.deltaSeq = 3 ∧
      (∀ aic, (s.replayed aic).isSome ↔
        ∃ h, s.latest aic = some h ∧ h.aliveMembershipState = .alive) := by
  have hrun : calls.exec .empty silencedRun = some (silencedRun.foldl Shard.fcall .empty) := rfl
  exact ⟨_, hrun, by decide +kernel, (outbox_replays_liveness hrun).2.2.2.1⟩

def blockTrimmed : List Call :=
  .applyHeartbeat "a" 0 "1970-01-01T00:00:00+00:00" none 1 ⟨1, 100⟩ ::
    (List.range 100).map fun i =>
      .applyHeartbeat "b" i "1970-01-01T00:00:00+00:00" none 1 ⟨1, 100⟩

theorem trimmed_outbox_forgets_alive :
    ∃ s, calls.exec .empty blockTrimmed = some s ∧
      s.deltaOutbox.entries.map Delta.seq ≠ List.range' 1 s.deltaSeq ∧
      replay Delta.aic Delta.entry (fun _ => none) s.deltaOutbox.entries "a" = none ∧
      (s.latest "a").map Latest.aliveMembershipState = some .alive := by
  have hrun : (calls.exec .empty blockTrimmed).any (fun s =>
      decide (s.deltaOutbox.entries.map Delta.seq ≠ List.range' 1 s.deltaSeq ∧
        replay Delta.aic Delta.entry (fun _ => none) s.deltaOutbox.entries "a" = none ∧
        (s.latest "a").map Latest.aliveMembershipState = some .alive)) = true := by decide +kernel
  obtain ⟨s, hs, h⟩ := (Option.any_eq_true _ _).mp hrun
  exact ⟨s, hs, of_decide_eq_true h⟩

end Acps.Heartbeat
