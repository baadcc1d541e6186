import Acps.Heartbeat.Liveness

/-!
The evict phase of the reconciler takes its candidates from the sorted set, which an AIC
leaves the moment it is marked silent. Its hash is then out of reach of every evict phase.
-/

namespace Acps.Heartbeat

def evictCandidates (s : Shard) (nowMs evictAfterMs : ℤ) (batch : ℕ) : List String :=
  ((s.livenessZset.rangeByScore (fun x => x ≤ nowMs - evictAfterMs)).take batch).map Prod.fst

def EvictReaches (s : Shard) : Prop :=
  ∀ aic h, s.latest aic = some h → ∀ now evict trim, evict < now - h.lastSeenAtMs →
    (∃ batch, aic ∈ evictCandidates s now evict batch) ∧
      (s.fcall (.evictOne aic now evict trim)).latest aic = none

def NotSilencing (s : Shard) (c : Call) : Prop :=
  ∀ aic now silence trim h, c = .markSilentOne aic now silence trim → s.latest aic = some h →
    h.aliveMembershipState = .alive → now - h.lastSeenAtMs ≤ silence

variable {s s' : Shard} {c : Call}

theorem exists_mem_evictCandidates {aic : String} {now evict : ℤ} :
    (∃ batch, aic ∈ evictCandidates s now evict batch) ↔
      ∃ x, s.livenessZset.score aic = some x ∧ x ≤ now - evict := by
  constructor
  · rintro ⟨batch, h⟩
    obtain ⟨⟨_, x⟩, hmem, rfl⟩ := List.mem_map.mp h
    obtain ⟨hx, hle⟩ := SortedSet.mem_rangeByScore.mp (List.mem_of_mem_take hmem)
    exact ⟨x, hx, of_decide_eq_true hle⟩
  · rintro ⟨x, hx, hle⟩
    refine ⟨(s.livenessZset.rangeByScore (fun x => x ≤ now - evict)).length, ?_⟩
    rw [evictCandidates, List.take_length]
    exact List.mem_map.mpr ⟨(aic, x), SortedSet.mem_rangeByScore.mpr ⟨hx, decide_eq_true hle⟩, rfl⟩

theorem latest_evictOne {aic : String} {h : Latest} (hs : s.latest aic = some h) {now evict : ℤ}
    (hlt : evict < now - h.lastSeenAtMs) (trim : Trim) :
    (s.fcall (.evictOne aic now evict trim)).latest aic = none := by
  have hle : ¬ now - h.lastSeenAtMs ≤ evict := not_le.mpr hlt
  cases ha : h.aliveMembershipState <;>
    simp [Shard.fcall, hbEvictOne, hs, hle, ha]

theorem Shard.Consistent.score_eq (hs : s.Consistent) {aic : String} {h : Latest}
    (hh : s.latest aic = some h) : s.livenessZset.score aic = h.aliveScore := by
  have hscore : s.livenessZset.score aic = (s.latest aic).bind Latest.aliveScore :=
    (hs.sound aic).score
  rw [hscore, hh, Option.bind_some]

theorem evictReaches_iff (hs : s.Consistent) :
    EvictReaches s ↔ ∀ aic h, s.latest aic = some h → h.aliveMembershipState = .alive := by
  constructor
  · intro hreach aic h hh
    by_contra hleft
    have hscan := (hreach aic h hh (h.lastSeenAtMs + 1) 0 ⟨0, 0⟩ (by omega)).1
    obtain ⟨x, hx, _⟩ := exists_mem_evictCandidates.mp hscan
    rw [hs.score_eq hh, Latest.aliveScore, if_neg hleft] at hx
    cases hx
  · intro halive aic h hh now evict trim hlt
    refine ⟨?_, latest_evictOne hh hlt trim⟩
    apply exists_mem_evictCandidates.mpr
    refine ⟨h.lastSeenAtMs, ?_, by omega⟩
    rw [hs.score_eq hh, Latest.aliveScore, if_pos (halive aic h hh)]

def Unsilenced (s : Shard) : Prop :=
  ∀ aic h, s.latest aic = some h → h.aliveMembershipState = .alive

theorem Moves.unsilenced (h : Moves s c s') (hs : Unsilenced s) (hc : NotSilencing s c) :
    Unsilenced s' := by
  intro k h' hk'
  by_cases hk : k = c.aic
  · subst hk
    cases h with
    | skipped => exact hs _ _ hk'
    | unlisted _ => exact hs _ _ hk'
    | seen _ _ _ _ ha' _ =>
      obtain rfl : _ = h' := by simpa [Call.aic] using hk'
      exact ha'
    | upserted _ _ ha' _ =>
      obtain rfl : _ = h' := by simpa [Call.aic] using hk'
      exact ha'
    | left hsome ha hlt _ _ _ => exact absurd (hc _ _ _ _ _ rfl hsome ha) (not_le.mpr hlt)
    | dropped => simp [Call.aic] at hk'
    | evicted => simp [Call.aic] at hk'
  · have hlatest : s'.latest k = s.latest k := congrArg Cell.latest (h.frame hk)
    exact hs k h' (hlatest ▸ hk')

theorem latest_markSilentOne {aic : String} {now silence : ℤ} {h : Latest}
    (hs : s.latest aic = some h) (ha : h.aliveMembershipState = .alive)
    (hlt : silence < now - h.lastSeenAtMs) (trim : Trim) :
    ∃ h', (s.fcall (.markSilentOne aic now silence trim)).latest aic = some h' ∧
      h'.aliveMembershipState = .leftAlive := by
  have hle : ¬ now - h.lastSeenAtMs ≤ silence := not_le.mpr hlt
  simp [Shard.fcall, hbMarkSilentOne, hs, hle, ha]

theorem notSilencing_of_evictReaches (hs : s.Consistent) (hreach : EvictReaches (s.fcall c)) :
    NotSilencing s c := by
  rintro aic now silence trim h rfl hh ha
  by_contra hlt
  obtain ⟨h', hh', hleft⟩ := latest_markSilentOne hh ha (not_le.mp hlt) trim
  have halive := (evictReaches_iff ((moves_fcall s _).consistent hs)).mp hreach aic h' hh'
  rw [hleft] at halive
  cases halive

theorem meets_of_evictReaches {cs : List Call} (hs : s.Consistent)
    (h : ∀ pre, pre <+: cs → ∀ t, calls.exec s pre = some t → EvictReaches t) :
    calls.Meets NotSilencing s cs := by
  induction cs generalizing s with
  | nil => trivial
  | cons c cs ih =>
    have hfirst : EvictReaches (s.fcall c) := h [c] (List.prefix_append [c] cs) _ rfl
    refine ⟨notSilencing_of_evictReaches hs hfirst, ?_⟩
    rintro _ ⟨⟩
    apply ih ((moves_fcall s c).consistent hs)
    intro pre hpre t ht
    exact h (c :: pre) (List.cons_prefix_cons.mpr ⟨rfl, hpre⟩) t ht

theorem unsilenced_exec {cs : List Call} (hC : calls.Meets NotSilencing .empty cs)
    (h : calls.exec .empty cs = some s) : Unsilenced s := by
  refine calls.exec_invariant (I := Unsilenced) ?_ (fun _ _ h => by cases h) hC h
  rintro s c _ hs hc ⟨⟩
  exact (moves_fcall s c).unsilenced hs hc

theorem evictReaches_run_iff (cs : List Call) :
    (∀ pre, pre <+: cs → ∀ s, calls.exec .empty pre = some s → EvictReaches s) ↔
      calls.Meets NotSilencing .empty cs := by
  constructor
  · exact meets_of_evictReaches Shard.consistent_empty
  · rintro hC _ ⟨post, rfl⟩ s hs
    have hpre := (calls.meets_append hC hs).1
    exact (evictReaches_iff (consistent_exec hs)).mpr (unsilenced_exec hpre hs)

theorem silenced_never_scanned :
    ∃ s, calls.exec .empty silencedRun = some s ∧
      (s.latest "a").map Latest.aliveMembershipState = some .leftAlive ∧
      ∀ now evict batch, "a" ∉ evictCandidates s now evict batch := by
  have hrun : calls.exec .empty silencedRun = some (silencedRun.foldl Shard.fcall .empty) := rfl
  refine ⟨_, hrun, by decide +kernel, fun now evict batch hmem => ?_⟩
  obtain ⟨x, hx, _⟩ := exists_mem_evictCandidates.mp ⟨batch, hmem⟩
  have hnone : (silencedRun.foldl Shard.fcall .empty).livenessZset.score "a" = none := by
    decide +kernel
  rw [hnone] at hx
  cases hx

end Acps.Heartbeat
