import Acps.Lib.Replay
import Acps.Lib.SortedSet
import Acps.Lib.Stream
import Acps.Lib.Transition
import Mathlib.Data.String.Basic

/-!
One shard of the liveness state in Redis: the latest hash of each AIC, the sorted set of the
alive AICs, the counter of deltas and the outbox stream, with the three functions that write them.
-/

namespace Acps.Heartbeat

inductive Membership where
  | alive
  | leftAlive
  deriving DecidableEq

structure Latest where
  lastSeenAtMs : ℤ
  lastSeenAt : String
  sourceTimestampMs : Option ℤ
  lastDeltaSeenAtMs : Option ℤ
  lastDeltaSeq : Option ℕ
  aliveMembershipState : Membership
  deriving DecidableEq

inductive Kind where
  | enterAlive
  | refreshAlive
  deriving DecidableEq

inductive Reason where
  | silent
  | evictRepair
  deriving DecidableEq

inductive Op where
  | upsert (kind : Kind) (lastSeenAtMs : ℤ) (sourceTimestampMs : Option ℤ)
  | delete (reason : Reason)
  deriving DecidableEq

structure Delta where
  seq : ℕ
  aic : String
  op : Op
  deriving DecidableEq

structure Trim where
  outboxMaxLen : ℕ
  cut : ℕ

structure Shard where
  latest : String → Option Latest
  livenessZset : SortedSet String ℤ
  deltaSeq : ℕ
  deltaOutbox : Stream Delta

namespace Shard

def empty : Shard := ⟨fun _ => none, .empty, 0, .empty⟩

def xaddOutbox (outbox : Stream Delta) (trim : Trim) (d : Delta) : Stream Delta :=
  if 0 < trim.outboxMaxLen then outbox.xaddMaxLen trim.outboxMaxLen trim.cut d else outbox.xadd d

def hset (s : Shard) (aic : String) (h : Latest) : Shard :=
  { s with latest := Function.update s.latest aic (some h) }

def del (s : Shard) (aic : String) : Shard :=
  { s with latest := Function.update s.latest aic none }

def zadd (s : Shard) (score : ℤ) (aic : String) : Shard :=
  { s with livenessZset := s.livenessZset.zadd score aic }

def zrem (s : Shard) (aic : String) : Shard :=
  { s with livenessZset := s.livenessZset.zrem aic }

@[simp] theorem latest_hset_self (s : Shard) (aic : String) (h : Latest) :
    (s.hset aic h).latest aic = some h := Function.update_self ..

@[simp] theorem latest_del_self (s : Shard) (aic : String) : (s.del aic).latest aic = none :=
  Function.update_self ..

@[simp] theorem latest_zadd (s : Shard) (score : ℤ) (aic : String) :
    (s.zadd score aic).latest = s.latest := rfl

@[simp] theorem latest_zrem (s : Shard) (aic : String) : (s.zrem aic).latest = s.latest := rfl

def emit (s : Shard) (trim : Trim) (aic : String) (op : Op) : Shard :=
  { s with
    deltaSeq := s.deltaSeq + 1
    deltaOutbox := xaddOutbox s.deltaOutbox trim ⟨s.deltaSeq + 1, aic, op⟩ }

@[simp] theorem latest_emit (s : Shard) (trim : Trim) (aic : String) (op : Op) :
    (s.emit trim aic op).latest = s.latest := rfl

end Shard

inductive ApplyStatus where
  | ignoredOlder
  | applied
  | appliedWithDelta (kind : Kind) (seq : ℕ)
  deriving DecidableEq

inductive SilentStatus where
  | skippedMissing
  | skippedMembership
  | skippedRefreshed
  | leftAlive (seq : ℕ)
  deriving DecidableEq

inductive EvictStatus where
  | skippedMissing
  | skippedRefreshed
  | evicted
  | evictedWithRepair (seq : ℕ)
  deriving DecidableEq

def deltaKind (prev : Option Latest) (observedAtMs refreshEmitIntervalMs : ℤ) : Option Kind :=
  match prev with
  | none => some .enterAlive
  | some h =>
    match h.aliveMembershipState with
    | .leftAlive => some .enterAlive
    | .alive =>
      match h.lastDeltaSeenAtMs with
      | none => some .refreshAlive
      | some t => if refreshEmitIntervalMs ≤ observedAtMs - t then some .refreshAlive else none

def hbApplyHeartbeat (s : Shard) (aic : String) (observedAtMs : ℤ) (observedAtIso : String)
    (sourceTsMs : Option ℤ) (refreshEmitIntervalMs : ℤ) (trim : Trim) : ApplyStatus × Shard :=
  let prev := s.latest aic
  if prev.any (fun h => observedAtMs ≤ h.lastSeenAtMs) then (.ignoredOlder, s)
  else
    let hash : Latest :=
      { lastSeenAtMs := observedAtMs
        lastSeenAt := observedAtIso
        sourceTimestampMs := sourceTsMs.or (prev.bind Latest.sourceTimestampMs)
        lastDeltaSeenAtMs := prev.bind Latest.lastDeltaSeenAtMs
        lastDeltaSeq := prev.bind Latest.lastDeltaSeq
        aliveMembershipState := .alive }
    let s' := (s.hset aic hash).zadd observedAtMs aic
    match deltaKind prev observedAtMs refreshEmitIntervalMs with
    | none => (.applied, s')
    | some kind =>
      let seq := s.deltaSeq + 1
      let hash' := { hash with lastDeltaSeenAtMs := some observedAtMs, lastDeltaSeq := some seq }
      (.appliedWithDelta kind seq,
        (s'.hset aic hash').emit trim aic (.upsert kind observedAtMs sourceTsMs))

def hbMarkSilentOne (s : Shard) (aic : String) (nowMs silenceThresholdMs : ℤ) (trim : Trim) :
    SilentStatus × Shard :=
  match s.latest aic with
  | none => (.skippedMissing, s.zrem aic)
  | some h =>
    if h.aliveMembershipState = .leftAlive then (.skippedMembership, s)
    else if nowMs - h.lastSeenAtMs ≤ silenceThresholdMs then (.skippedRefreshed, s)
    else
      let seq := s.deltaSeq + 1
      let hash := { h with aliveMembershipState := .leftAlive, lastDeltaSeq := some seq }
      (.leftAlive seq, ((s.hset aic hash).zrem aic).emit trim aic (.delete .silent))

def hbEvictOne (s : Shard) (aic : String) (nowMs evictAfterMs : ℤ) (trim : Trim) :
    EvictStatus × Shard :=
  match s.latest aic with
  | none => (.skippedMissing, s)
  | some h =>
    if nowMs - h.lastSeenAtMs ≤ evictAfterMs then (.skippedRefreshed, s)
    else if h.aliveMembershipState = .leftAlive then (.evicted, (s.del aic).zrem aic)
    else
      (.evictedWithRepair (s.deltaSeq + 1),
        ((s.emit trim aic (.delete .evictRepair)).del aic).zrem aic)

inductive Call where
  | applyHeartbeat (aic : String) (observedAtMs : ℤ) (observedAtIso : String)
      (sourceTsMs : Option ℤ) (refreshEmitIntervalMs : ℤ) (trim : Trim)
  | markSilentOne (aic : String) (nowMs silenceThresholdMs : ℤ) (trim : Trim)
  | evictOne (aic : String) (nowMs evictAfterMs : ℤ) (trim : Trim)

def Call.trim : Call → Trim
  | .applyHeartbeat _ _ _ _ _ trim => trim
  | .markSilentOne _ _ _ trim => trim
  | .evictOne _ _ _ trim => trim

def Shard.fcall (s : Shard) : Call → Shard
  | .applyHeartbeat aic observedAtMs observedAtIso sourceTsMs refreshEmitIntervalMs trim =>
    (hbApplyHeartbeat s aic observedAtMs observedAtIso sourceTsMs refreshEmitIntervalMs trim).2
  | .markSilentOne aic nowMs silenceThresholdMs trim =>
    (hbMarkSilentOne s aic nowMs silenceThresholdMs trim).2
  | .evictOne aic nowMs evictAfterMs trim => (hbEvictOne s aic nowMs evictAfterMs trim).2

def calls : Transition.System Shard Call := ⟨fun s c => some (s.fcall c)⟩

inductive Moves (s : Shard) : Call → Shard → Prop where
  | skipped {c} : Moves s c s
  | unlisted {aic now silence trim} (hs : s.latest aic = none) :
    Moves s (.markSilentOne aic now silence trim) (s.zrem aic)
  | seen {aic observed iso ts refresh trim h h'} (hs : s.latest aic = some h)
      (ha : h.aliveMembershipState = .alive) (hlt : h.lastSeenAtMs < observed)
      (hat : h'.lastSeenAtMs = observed) (ha' : h'.aliveMembershipState = .alive)
      (hseq : h'.lastDeltaSeq = h.lastDeltaSeq) :
    Moves s (.applyHeartbeat aic observed iso ts refresh trim) ((s.hset aic h').zadd observed aic)
  | upserted {aic observed iso ts refresh trim h' kind}
      (hlt : ∀ h, s.latest aic = some h → h.lastSeenAtMs < observed)
      (hat : h'.lastSeenAtMs = observed) (ha' : h'.aliveMembershipState = .alive)
      (hseq : h'.lastDeltaSeq = some (s.deltaSeq + 1)) :
    Moves s (.applyHeartbeat aic observed iso ts refresh trim)
      (((s.hset aic h').zadd observed aic).emit trim aic (.upsert kind observed ts))
  | left {aic now silence trim h h'} (hs : s.latest aic = some h)
      (ha : h.aliveMembershipState = .alive) (hlt : silence < now - h.lastSeenAtMs)
      (hat : h'.lastSeenAtMs = h.lastSeenAtMs) (ha' : h'.aliveMembershipState = .leftAlive)
      (hseq : h'.lastDeltaSeq = some (s.deltaSeq + 1)) :
    Moves s (.markSilentOne aic now silence trim)
      (((s.hset aic h').zrem aic).emit trim aic (.delete .silent))
  | dropped {aic now evict trim h} (hs : s.latest aic = some h)
      (ha : h.aliveMembershipState = .leftAlive) (hlt : evict < now - h.lastSeenAtMs) :
    Moves s (.evictOne aic now evict trim) ((s.del aic).zrem aic)
  | evicted {aic now evict trim h} (hs : s.latest aic = some h)
      (ha : h.aliveMembershipState = .alive) (hlt : evict < now - h.lastSeenAtMs) :
    Moves s (.evictOne aic now evict trim)
      (((s.emit trim aic (.delete .evictRepair)).del aic).zrem aic)

@[simp] theorem Membership.ne_leftAlive {m : Membership} : m ≠ .leftAlive ↔ m = .alive := by
  cases m <;> decide

theorem Shard.hset_zadd_hset (s : Shard) (aic : String) (h h' : Latest) (x : ℤ) :
    ((s.hset aic h).zadd x aic).hset aic h' = (s.hset aic h').zadd x aic := by
  simp only [hset, zadd, Function.update_idem]

theorem deltaKind_eq_none {prev : Option Latest} {observed refresh : ℤ}
    (h : deltaKind prev observed refresh = none) :
    ∃ p, prev = some p ∧ p.aliveMembershipState = .alive := by
  cases prev with
  | none => cases h
  | some p =>
    cases hp : p.aliveMembershipState with
    | alive => exact ⟨p, rfl, hp⟩
    | leftAlive => simp [deltaKind, hp] at h

theorem moves_applyHeartbeat (s : Shard) (aic : String) (observed : ℤ) (iso : String)
    (ts : Option ℤ) (refresh : ℤ) (trim : Trim) :
    Moves s (.applyHeartbeat aic observed iso ts refresh trim)
      (hbApplyHeartbeat s aic observed iso ts refresh trim).2 := by
  unfold hbApplyHeartbeat
  dsimp only
  split
  · exact .skipped
  · next hold =>
    have hlt : ∀ h, s.latest aic = some h → h.lastSeenAtMs < observed := by
      intro h hs
      simpa [hs] using hold
    cases hk : deltaKind (s.latest aic) observed refresh with
    | none =>
      obtain ⟨h, hs, ha⟩ := deltaKind_eq_none hk
      exact .seen hs ha (hlt h hs) rfl rfl (by simp [hs])
    | some kind =>
      dsimp only
      rw [Shard.hset_zadd_hset]
      exact .upserted hlt rfl rfl rfl

theorem moves_markSilentOne (s : Shard) (aic : String) (now silence : ℤ) (trim : Trim) :
    Moves s (.markSilentOne aic now silence trim) (hbMarkSilentOne s aic now silence trim).2 := by
  unfold hbMarkSilentOne
  cases hs : s.latest aic with
  | none => exact .unlisted hs
  | some h =>
    dsimp only
    split
    · exact .skipped
    · next ha =>
      split
      · exact .skipped
      · next hle => exact .left hs (Membership.ne_leftAlive.mp ha) (not_le.mp hle) rfl rfl rfl

theorem moves_evictOne (s : Shard) (aic : String) (now evict : ℤ) (trim : Trim) :
    Moves s (.evictOne aic now evict trim) (hbEvictOne s aic now evict trim).2 := by
  unfold hbEvictOne
  cases hs : s.latest aic with
  | none => exact .skipped
  | some h =>
    dsimp only
    split
    · exact .skipped
    · next hle =>
      split
      · next ha => exact .dropped hs ha (not_le.mp hle)
      · next ha => exact .evicted hs (Membership.ne_leftAlive.mp ha) (not_le.mp hle)

theorem moves_fcall (s : Shard) (c : Call) : Moves s c (s.fcall c) := by
  cases c with
  | applyHeartbeat aic observed iso ts refresh trim =>
    exact moves_applyHeartbeat s aic observed iso ts refresh trim
  | markSilentOne aic now silence trim => exact moves_markSilentOne s aic now silence trim
  | evictOne aic now evict trim => exact moves_evictOne s aic now evict trim

end Acps.Heartbeat
