import Acps.Heartbeat.SnapshotConverges

/-!
The rows of a snapshot that is taken while heartbeats come in. An AIC that is heard again after it has
been collected moves on to a later page and is collected a second time.
-/

namespace Acps.Heartbeat

open Replay Transition
open AliveSync (AliveDeltaEnvelope)

section Once

variable {set : HeartbeatSettings} {shardId : String} {w w' : Provider}

def freshRead (set : HeartbeatSettings) (w : Provider) (a : ExportAction) : Bool :=
  match a, w.phase with
  | .readPage, .paging _ cursorMs allTuples =>
    ((w.shard.livenessZset.rangeByScore (fun x => cursorMs ≤ x)).take set.snapshotChunkSize).all
      fun e => e.1 ∉ allTuples.map Prod.fst
  | .readTie, .tie _ _ lastScore allTuples =>
    (w.shard.livenessZset.rangeByScore (fun x => x = lastScore)).all
      fun e => e.1 ∉ allTuples.map Prod.fst
  | .timeout, .paging .. => false
  | _, _ => true

def ExportPhase.Once : ExportPhase → Prop
  | .idle | .timed .. => True
  | .paging job _ allTuples => job.truncated = false ∧ (allTuples.map Prod.fst).Nodup
  | .tie job chunk _ allTuples =>
    job.truncated = false ∧ ((allTuples ++ chunk).map Prod.fst).Nodup
  | .reading job aics envelopes =>
    job.truncated = false ∧ (envelopes.map AliveDeltaEnvelope.aic ++ aics).Nodup
  | .finished job _ envelopes =>
    job.truncated = false ∧ (envelopes.map AliveDeltaEnvelope.aic).Nodup

theorem nodup_rangeByScore (z : SortedSet String ℤ) (p : ℤ → Bool) :
    ((z.rangeByScore p).map Prod.fst).Nodup := by
  rw [SortedSet.rangeByScore, ((Paging.orderBy_perm _).map _).nodup_iff]
  exact z.nodup.sublist (List.filter_sublist.map Prod.fst)

theorem nodup_append_fst {xs ys : List (String × ℤ)} (hxs : (xs.map Prod.fst).Nodup)
    (hys : (ys.map Prod.fst).Nodup) (h : ∀ e ∈ ys, e.1 ∉ xs.map Prod.fst) :
    ((xs ++ ys).map Prod.fst).Nodup := by
  rw [List.map_append, List.nodup_append]
  refine ⟨hxs, hys, ?_⟩
  rintro aic hx _ hy rfl
  obtain ⟨e, he, rfl⟩ := List.mem_map.mp hy
  exact h e he hx

theorem forall_of_all {read collected : List (String × ℤ)}
    (h : read.all (fun e => e.1 ∉ collected.map Prod.fst) = true) :
    ∀ e ∈ read, e.1 ∉ collected.map Prod.fst := fun e he =>
  of_decide_eq_true (List.all_eq_true.mp h e he)

theorem once_readPage {s : Shard} {job : Job} {cursorMs : ℤ} {allTuples : List (String × ℤ)}
    (h : (ExportPhase.paging job cursorMs allTuples).Once)
    (hfresh : ((s.livenessZset.rangeByScore (fun x => cursorMs ≤ x)).take
      set.snapshotChunkSize).all (fun e => e.1 ∉ allTuples.map Prod.fst) = true) :
    (ExportPhase.readPage set s job cursorMs allTuples).Once := by
  unfold ExportPhase.readPage
  dsimp only
  split
  · exact ⟨h.1, h.2⟩
  · refine ⟨h.1, nodup_append_fst h.2 ?_ (forall_of_all hfresh)⟩
    exact (nodup_rangeByScore _ _).sublist ((List.take_sublist _ _).map Prod.fst)

theorem once_readTie {s : Shard} {job : Job} {chunk : List (String × ℤ)} {lastScore : ℤ}
    {allTuples : List (String × ℤ)} (h : (ExportPhase.tie job chunk lastScore allTuples).Once)
    (hfresh : (s.livenessZset.rangeByScore (fun x => x = lastScore)).all
      (fun e => e.1 ∉ allTuples.map Prod.fst) = true) :
    (ExportPhase.readTie set s job chunk lastScore allTuples).Once := by
  obtain ⟨htrunc, hnodup⟩ := h
  have hmerged : ((allTuples ++ mergeTies chunk
      (s.livenessZset.rangeByScore (fun x => x = lastScore))).map Prod.fst).Nodup := by
    rw [mergeTies, ← List.append_assoc]
    apply nodup_append_fst hnodup
    · exact (nodup_rangeByScore _ _).sublist (List.filter_sublist.map Prod.fst)
    · intro e he
      obtain ⟨he, hnot⟩ := List.mem_filter.mp he
      rw [List.map_append, List.mem_append, not_or]
      exact ⟨forall_of_all hfresh e he, of_decide_eq_true hnot⟩
  unfold ExportPhase.readTie
  dsimp only
  split
  · exact ⟨htrunc, hmerged⟩
  · exact ⟨htrunc, hmerged⟩

theorem once_readHash {job : Job} {aic : String} {aics : List String}
    {envelopes : List AliveDeltaEnvelope} (h : (ExportPhase.reading job (aic :: aics) envelopes).Once)
    (shardId : String) (row : Option Latest) :
    (ExportPhase.reading job aics
      (envelopes ++ (snapshotEntry shardId job.cutoverSeq aic row).toList)).Once := by
  refine ⟨h.1, ?_⟩
  cases hentry : snapshotEntry shardId job.cutoverSeq aic row with
  | none =>
    rw [Option.toList_none, List.append_nil]
    exact h.2.sublist ((List.sublist_cons_self aic aics).append_left _)
  | some env =>
    obtain ⟨l, -, -, rfl⟩ := snapshotEntry_eq_some hentry
    simpa using h.2

theorem once_step {a : ExportAction} (h : w.phase.Once) (ha : freshRead set w a = true)
    (hs : (exporter set shardId).step w a = some w') : w'.phase.Once := by
  unfold freshRead at ha
  cases a with
  | tick ms =>
    obtain rfl := Option.some.inj hs
    exact h
  | call c =>
    obtain ⟨-, hw⟩ := Option.ite_none_right_eq_some.mp hs
    obtain rfl := Option.some.inj hw
    exact h
  | readNow =>
    obtain rfl := Option.some.inj hs
    trivial
  | readCutover n =>
    simp only [exporter] at hs
    split at hs
    · obtain ⟨-, hw⟩ := Option.ite_none_right_eq_some.mp hs
      obtain rfl := Option.some.inj hw
      exact ⟨rfl, List.nodup_nil⟩
    · cases hs
  | readPage =>
    simp only [exporter] at hs
    split at hs
    · next hphase =>
      rw [hphase] at h ha
      obtain rfl := Option.some.inj hs
      exact once_readPage h ha
    · cases hs
  | timeout =>
    simp only [exporter] at hs
    split at hs
    · next hphase =>
      rw [hphase] at ha
      cases ha
    · cases hs
  | readTie =>
    simp only [exporter] at hs
    split at hs
    · next hphase =>
      rw [hphase] at h ha
      obtain rfl := Option.some.inj hs
      exact once_readTie h ha
    · cases hs
  | readHash =>
    simp only [exporter] at hs
    split at hs
    · next hphase =>
      rw [hphase] at h
      obtain rfl := Option.some.inj hs
      exact ⟨h.1, by simpa using h.2⟩
    · next hphase =>
      rw [hphase] at h
      obtain rfl := Option.some.inj hs
      exact once_readHash h shardId _
    · cases hs

def tiedExport : List ExportAction :=
  [.call (.applyHeartbeat "a" 0 "1970" none 30000 ⟨1000, 0⟩),
    .call (.applyHeartbeat "b" 0 "1970" none 30000 ⟨1000, 0⟩),
    .readNow, .readCutover 2, .readPage, .readTie, .readPage, .readHash, .readHash, .readHash]

def oneByOne : HeartbeatSettings :=
  { defaultSettings with
    snapshotChunkSize := 1
    chunkSize_pos := Nat.one_pos }

end Once

section Unmoved

variable {set : HeartbeatSettings} {shardId : String} {w w' : Provider}

/-- No AIC that has been collected is given another score while pages are still to be read, and the
enumeration is not cut short. -/
def Unmoved (w : Provider) (a : ExportAction) : Prop :=
  match a, w.phase with
  | .call c, .paging _ _ collected => c.aic ∈ collected.map Prod.fst →
    ∀ x, (w.shard.fcall c).livenessZset.score c.aic = some x →
      w.shard.livenessZset.score c.aic = some x
  | .call c, .tie _ chunk _ allTuples => c.aic ∈ (allTuples ++ chunk).map Prod.fst →
    ∀ x, (w.shard.fcall c).livenessZset.score c.aic = some x →
      w.shard.livenessZset.score c.aic = some x
  | .timeout, .paging .. => False
  | _, _ => True

def ScoresOf (s : Shard) (collected : List (String × ℤ)) (P : ℤ → Prop) : Prop :=
  ∀ aic ∈ collected.map Prod.fst, ∀ x, s.livenessZset.score aic = some x → P x

def Provider.Behind (w : Provider) : Prop :=
  match w.phase with
  | .paging _ cursorMs allTuples => ScoresOf w.shard allTuples (· < cursorMs)
  | .tie _ chunk lastScore allTuples =>
    ScoresOf w.shard allTuples (· < lastScore) ∧ ScoresOf w.shard chunk (· ≤ lastScore)
  | _ => True

theorem ScoresOf.called {s : Shard} {collected : List (String × ℤ)} {P : ℤ → Prop} {c : Call}
    (h : ScoresOf s collected P)
    (hmoved : c.aic ∈ collected.map Prod.fst →
      ∀ x, (s.fcall c).livenessZset.score c.aic = some x → s.livenessZset.score c.aic = some x) :
    ScoresOf (s.fcall c) collected P := by
  intro aic haic x hx
  by_cases heq : aic = c.aic
  · subst heq
    exact h _ haic x (hmoved haic x hx)
  · have hscore : (s.fcall c).livenessZset.score aic = s.livenessZset.score aic :=
      congrArg Cell.score ((moves_fcall s c).frame heq)
    exact h aic haic x (hscore ▸ hx)

theorem ScoresOf.of_read {s : Shard} {read : List (String × ℤ)} {P : ℤ → Prop}
    (h : ∀ e ∈ read, s.livenessZset.score e.1 = some e.2 ∧ P e.2) : ScoresOf s read P := by
  intro aic haic x hx
  obtain ⟨e, he, rfl⟩ := List.mem_map.mp haic
  obtain ⟨hscore, hP⟩ := h e he
  obtain rfl := Option.some.inj (hscore.symm.trans hx)
  exact hP

theorem behind_readPage {job : Job} {cursorMs : ℤ} {allTuples : List (String × ℤ)}
    (h : ScoresOf w.shard allTuples (· < cursorMs)) :
    Provider.Behind { w with phase := .readPage set w.shard job cursorMs allTuples } := by
  have hread : ∀ e ∈ (w.shard.livenessZset.rangeByScore (fun x => cursorMs ≤ x)).take
      set.snapshotChunkSize, w.shard.livenessZset.score e.1 = some e.2 ∧ cursorMs ≤ e.2 := by
    intro e he
    have hmem := SortedSet.mem_rangeByScore.mp (List.mem_of_mem_take he)
    exact ⟨hmem.1, of_decide_eq_true hmem.2⟩
  unfold Provider.Behind ExportPhase.readPage
  dsimp only
  cases hlast : ((w.shard.livenessZset.rangeByScore (fun x => cursorMs ≤ x)).take
      set.snapshotChunkSize).getLast? with
  | none => trivial
  | some e =>
    have hcursor := (hread e (List.mem_of_getLast? hlast)).2
    refine ⟨fun aic haic x hx => (h aic haic x hx).trans_le hcursor, ScoresOf.of_read ?_⟩
    intro d hd
    refine ⟨(hread d hd).1, ?_⟩
    have hasc := (w.shard.livenessZset.ascending_rangeByScore (fun x => cursorMs ≤ x)).take
      set.snapshotChunkSize
    obtain ⟨front, hfront⟩ := List.getLast?_eq_some_iff.mp hlast
    rw [hfront] at hd hasc
    rcases List.mem_append.mp hd with hd | hd
    · have hlt := (List.pairwise_append.mp hasc).2.2 d hd e (List.mem_singleton_self e)
      exact Prod.Lex.monotone_fst _ _ hlt.le
    · rw [List.mem_singleton.mp hd]

theorem behind_readTie {job : Job} {chunk : List (String × ℤ)} {lastScore : ℤ}
    {allTuples : List (String × ℤ)} (hall : ScoresOf w.shard allTuples (· < lastScore))
    (hchunk : ScoresOf w.shard chunk (· ≤ lastScore)) :
    Provider.Behind { w with phase := .readTie set w.shard job chunk lastScore allTuples } := by
  unfold Provider.Behind ExportPhase.readTie
  dsimp only
  split
  · next hphase =>
    split at hphase
    · cases hphase
    · injection hphase with _ hcursor hmerged
      subst hcursor hmerged
      intro aic haic x hx
      rw [mergeTies, List.map_append, List.map_append, List.mem_append, List.mem_append] at haic
      rcases haic with haic | haic | haic
      · have := hall aic haic x hx
        omega
      · have := hchunk aic haic x hx
        omega
      · obtain ⟨e, he, rfl⟩ := List.mem_map.mp haic
        have hmem := SortedSet.mem_rangeByScore.mp (List.mem_of_mem_filter he)
        have htie : e.2 = lastScore := of_decide_eq_true hmem.2
        have hsame : e.2 = x := Option.some.inj (hmem.1.symm.trans hx)
        omega
  · next hphase =>
    split at hphase <;> cases hphase
  · trivial

theorem behind_step {a : ExportAction} (h : w.Behind) (ha : Unmoved w a)
    (hs : (exporter set shardId).step w a = some w') : w'.Behind := by
  cases a with
  | tick ms =>
    obtain rfl := Option.some.inj hs
    exact h
  | call c =>
    obtain ⟨-, hw⟩ := Option.ite_none_right_eq_some.mp hs
    obtain rfl := Option.some.inj hw
    unfold Unmoved at ha
    unfold Provider.Behind at h ⊢
    dsimp only [Provider.called] at h ha ⊢
    split
    · next hphase =>
      rw [hphase] at h ha
      exact ScoresOf.called h ha
    · next hphase =>
      rw [hphase] at h ha
      simp only [List.map_append, List.mem_append] at ha
      exact ⟨h.1.called fun hin => ha (.inl hin), h.2.called fun hin => ha (.inr hin)⟩
    · trivial
  | readNow =>
    obtain rfl := Option.some.inj hs
    trivial
  | readCutover n =>
    simp only [exporter] at hs
    split at hs
    · obtain ⟨-, hw⟩ := Option.ite_none_right_eq_some.mp hs
      obtain rfl := Option.some.inj hw
      intro aic haic
      cases haic
    · cases hs
  | readPage =>
    simp only [exporter] at hs
    unfold Provider.Behind at h
    split at hs
    · next hphase =>
      rw [hphase] at h
      obtain rfl := Option.some.inj hs
      exact behind_readPage h
    · cases hs
  | timeout =>
    simp only [exporter] at hs
    split at hs
    · obtain rfl := Option.some.inj hs
      trivial
    · cases hs
  | readTie =>
    simp only [exporter] at hs
    unfold Provider.Behind at h
    split at hs
    · next hphase =>
      rw [hphase] at h
      obtain rfl := Option.some.inj hs
      exact behind_readTie h.1 h.2
    · cases hs
  | readHash =>
    simp only [exporter] at hs
    split at hs
    · obtain rfl := Option.some.inj hs
      trivial
    · obtain rfl := Option.some.inj hs
      trivial
    · cases hs

theorem freshRead_of_behind {a : ExportAction} (h : w.Behind) (ha : Unmoved w a) :
    freshRead set w a = true := by
  unfold freshRead
  unfold Provider.Behind at h
  split
  · next hphase =>
    rw [hphase] at h
    refine List.all_eq_true.mpr fun e he => decide_eq_true fun hin => ?_
    have hmem := SortedSet.mem_rangeByScore.mp (List.mem_of_mem_take he)
    have hle := of_decide_eq_true hmem.2
    have hlt := h _ hin _ hmem.1
    omega
  · next hphase =>
    rw [hphase] at h
    refine List.all_eq_true.mpr fun e he => decide_eq_true fun hin => ?_
    have hmem := SortedSet.mem_rangeByScore.mp he
    have heq : e.2 = _ := of_decide_eq_true hmem.2
    have hlt := h.1 _ hin _ hmem.1
    omega
  · next hphase =>
    unfold Unmoved at ha
    rw [hphase] at ha
    exact ha.elim
  · rfl

theorem freshRead_of_unmoved {as : List ExportAction}
    (h : (exporter set shardId).Meets Unmoved .empty as) :
    (exporter set shardId).Meets (fun w a => freshRead set w a) .empty as :=
  (exporter set shardId).meets_of_invariant (I := Provider.Behind)
    (fun _ _ _ hw ha hs => behind_step hw ha hs) (fun _ _ hw ha => freshRead_of_behind hw ha)
    (by exact trivial) h

theorem tied_reads_fresh :
    (exporter oneByOne "hb-000").Meets (fun w a => freshRead oneByOne w a) .empty tiedExport := by
  have hbefore : (exporter oneByOne "hb-000").check (fun w a => match a, w.phase with
      | .call _, .idle => true
      | .call _, _ | .timeout, _ => false
      | _, _ => true) .empty tiedExport = true := by decide +kernel
  refine freshRead_of_unmoved (System.meets_of_check _ (fun w a h => ?_) hbefore)
  cases a <;> cases hphase : w.phase <;> simp_all [Unmoved]

end Unmoved

end Acps.Heartbeat
