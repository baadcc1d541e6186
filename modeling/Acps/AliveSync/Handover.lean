import Acps.AliveSync.ExactlyOnce

/-!
Several consumers of one group that share a store. Each keeps its own memory and the seek
plan it was started with, while partitions move between them.
-/

namespace Acps.AliveSync

open Transition

inductive Phase where
  | stopped
  | planned (offsets : String → Option ℕ)
  | loaded (offsets : String → Option ℕ)
  | polling

structure InFlight where
  shard : String
  offset : ℕ
  seq : ℕ

structure Instance where
  engine : AliveSyncEngine
  phase : Phase
  checkpointsByShard : Option (String → Option ℕ)
  assigned : String → Bool
  position : String → ℕ
  inFlight : Option InFlight

namespace Instance

def fresh : Instance := ⟨.fresh, .stopped, none, fun _ => false, fun _ => 0, none⟩

def onPartitionAssigned (i : Instance) (s : String) (byTime : ℕ) : Instance :=
  { i with
    assigned := Function.update i.assigned s true
    position := match i.checkpointsByShard with
      | none => i.position
      | some offsets => Function.update i.position s ((offsets s).getD byTime) }

def onPartitionRevoked (i : Instance) (s : String) : Instance :=
  { i with assigned := Function.update i.assigned s false }

def receive (i : Instance) (s : String) (n : ℕ) : Instance :=
  { i with
    position := Function.update i.position s (i.position s + 1)
    inFlight := some ⟨s, i.position s, n⟩ }

def settle (i : Instance) (out : DeltaOutcome) : Instance :=
  match out.result with
  | .decided _ => { i with engine := out.engine, inFlight := none }
  | _ => { i with engine := out.engine, phase := .stopped, inFlight := none }

end Instance

structure Fleet (ι : Type) where
  store : AliveStore
  instances : ι → Instance

namespace Fleet

variable {ι : Type}

def start (st : AliveStore) : Fleet ι := ⟨st, fun _ => .fresh⟩

def set [DecidableEq ι] (w : Fleet ι) (i : ι) (inst : Instance) : Fleet ι :=
  { w with instances := Function.update w.instances i inst }

end Fleet

inductive FleetAction (ι : Type) where
  | loadPlan (i : ι)
  | loadCheckpoints (i : ι)
  | loadLocalVersions (i : ι)
  | stop (i : ι)
  | assign (i : ι) (s : String) (byTime : ℕ)
  | revoke (i : ι) (s : String)
  | receive (i : ι) (s : String)
  | apply (i : ι) (commit : Commit)

variable {ι : Type}

/-- A message received before a revocation is still applied after it, and an instance may
learn of a revocation only after another has the partition. -/
def fleet [DecidableEq ι] (D : DeltaStream) (log : String → List ℕ) :
    System (Fleet ι) (FleetAction ι) where
  step w
    | .loadPlan i => match (w.instances i).phase with
      | .stopped =>
        if w.store.checkpoints = [] then none
        else
          let offsets := fun s => (w.store.checkpoint s).bind ShardCheckpoint.kafkaNextOffset
          some (w.set i { w.instances i with phase := .planned offsets })
      | _ => none
    | .loadCheckpoints i => match (w.instances i).phase with
      | .planned offsets =>
        if w.store.checkpoints = [] then none
        else
          let e := (w.instances i).engine.loadCheckpoints w.store
          some (w.set i { w.instances i with engine := e, phase := .loaded offsets })
      | _ => none
    | .loadLocalVersions i => match (w.instances i).phase with
      | .loaded offsets =>
        let e := (w.instances i).engine.loadLocalVersions w.store
        some <| w.set i
          { w.instances i with engine := e, phase := .polling, checkpointsByShard := some offsets }
      | _ => none
    | .stop i => some (w.set i { w.instances i with phase := .stopped, inFlight := none })
    | .assign i s byTime => some (w.set i ((w.instances i).onPartitionAssigned s byTime))
    | .revoke i s => some (w.set i ((w.instances i).onPartitionRevoked s))
    | .receive i s => match (w.instances i).phase, (w.instances i).inFlight with
      | .polling, none =>
        if (w.instances i).assigned s then
          ((log s)[(w.instances i).position s]?).map fun n =>
            w.set i ((w.instances i).receive s n)
        else none
      | _, _ => none
    | .apply i commit => (w.instances i).inFlight.map fun m =>
      let out := applyDelta (w.instances i).engine w.store (D.delta m.shard m.seq)
        (some (m.offset + 1)) commit
      { w.set i ((w.instances i).settle out) with store := out.store }

def UpToDate (D : DeltaStream) (w : Fleet ι) : FleetAction ι → Prop
  | .apply i commit => ∀ m, (w.instances i).inFlight = some m → commit ≠ .failed →
    Expects (w.instances i).engine (D.delta m.shard m.seq) →
    w.store.lastSeen m.shard ≤ (w.instances i).engine.lastSeen m.shard + 1
  | _ => True

structure Advances (st st' : AliveStore) : Prop where
  lastSeen : ∀ s, st.lastSeen s ≤ st'.lastSeen s
  rows : ∀ a row, st.rows a = some row →
    ∃ row', st'.rows a = some row' ∧ row.version ≤ row'.version

structure Instance.Knows (st : AliveStore) (i : Instance) : Prop where
  memory : i.phase = .polling → ∀ a old, st.rows a = some old →
    ∃ v, i.engine.localVersion a = some v ∧ old.version ≤ v
  polling : i.inFlight ≠ none → i.phase = .polling

structure Sane (D : DeltaStream) (st : AliveStore) (w : Fleet ι) : Prop where
  advances : Advances st w.store
  source : ∀ a row, w.store.rows a = some row →
    (∃ old, st.rows a = some old ∧ row.version = old.version) ∨
      ∃ m ≤ w.store.lastSeen (D.shardOf a), (D.delta (D.shardOf a) m).aic = a ∧
        row.version = (D.delta (D.shardOf a) m).version
  knows : ∀ i, (w.instances i).Knows st

section Advances

variable {st st' st'' : AliveStore}

theorem Advances.refl (st : AliveStore) : Advances st st :=
  ⟨fun _ => Nat.le_refl _, fun _ row h => ⟨row, h, Nat.le_refl _⟩⟩

theorem Advances.trans (h : Advances st st') (h' : Advances st' st'') : Advances st st'' := by
  constructor
  · intro s
    exact Nat.le_trans (h.lastSeen s) (h'.lastSeen s)
  · intro a row hrow
    obtain ⟨row', hrow', hle⟩ := h.rows a row hrow
    obtain ⟨row'', hrow'', hle'⟩ := h'.rows a row' hrow'
    exact ⟨row'', hrow'', Nat.le_trans hle hle'⟩

end Advances

section Written

variable {D : DeltaStream} {st st' st₀ : AliveStore} {s : String} {n : ℕ}
  {w : Fleet ι} {i : ι} {e : AliveSyncEngine}

theorem version_written (hw : Written st (D.delta s n) st') {row : AliveRow}
    (hrow : st'.rows (D.delta s n).aic = some row) : row.version = (D.delta s n).version := by
  rw [hw.rows] at hrow
  exact version_overwrite hrow

theorem row_written (hw : Written st (D.delta s n) st') {row : AliveRow}
    (hrow : st.rows (D.delta s n).aic = some row) :
    ∃ row', st'.rows (D.delta s n).aic = some row' := by
  rw [hw.rows, overwrite_self, hrow]
  cases (D.delta s n).op <;> exact ⟨_, rfl⟩

theorem Sane.written (h : Sane D st₀ w) (hp : (w.instances i).phase = .polling)
    (hexp : Expects (w.instances i).engine (D.delta s n)) (hle : w.store.lastSeen s ≤ n)
    (hw : Written w.store (D.delta s n) st') : Advances w.store st' := by
  constructor
  · intro t
    rw [lastSeen_written hw]
    by_cases ht : t = s
    · rwa [ht, Function.update_self]
    · exact Nat.le_of_eq (Function.update_of_ne ht _ _).symm
  · intro a row hrow
    by_cases ha : a = (D.delta s n).aic
    · subst ha
      obtain ⟨row', hrow'⟩ := row_written hw hrow
      refine ⟨row', hrow', ?_⟩
      rw [version_written hw hrow']
      rcases h.source _ row hrow with ⟨old, hold, hver⟩ | ⟨m, hm, haic, hver⟩
      · obtain ⟨v, hv, hov⟩ := (h.knows i).memory hp _ old hold
        have hpass := hexp.version
        rw [hv] at hpass
        have hlt : v < (D.delta s n).version := by simpa [passesVersion] using hpass
        omega
      · rw [D.shardOf_aic] at hm haic hver
        rw [hver]
        rcases Nat.lt_or_eq_of_le (Nat.le_trans hm hle) with hlt | rfl
        · exact Nat.le_of_lt (D.version_lt s m n hlt haic)
        · exact Nat.le_refl _
    · rw [hw.rows, overwrite_of_ne ha]
      exact ⟨row, hrow, Nat.le_refl _⟩

theorem Sane.source_written (h : Sane D st₀ w) (hle : w.store.lastSeen s ≤ n)
    (hw : Written w.store (D.delta s n) st') (a : String) (row : AliveRow)
    (hrow : st'.rows a = some row) :
    (∃ old, st₀.rows a = some old ∧ row.version = old.version) ∨
      ∃ m ≤ st'.lastSeen (D.shardOf a), (D.delta (D.shardOf a) m).aic = a ∧
        row.version = (D.delta (D.shardOf a) m).version := by
  rw [lastSeen_written hw]
  by_cases ha : a = (D.delta s n).aic
  · subst ha
    rw [D.shardOf_aic, Function.update_self]
    exact .inr ⟨n, Nat.le_refl n, rfl, version_written hw hrow⟩
  · rw [hw.rows, overwrite_of_ne ha] at hrow
    rcases h.source a row hrow with hold | ⟨m, hm, haic, hver⟩
    · exact .inl hold
    · refine .inr ⟨m, ?_, haic, hver⟩
      by_cases hs : D.shardOf a = s
      · rw [hs] at hm ⊢
        rw [Function.update_self]
        exact Nat.le_trans hm hle
      · rwa [Function.update_of_ne hs]

end Written

section Knows

variable {st : AliveStore} {inst : Instance}

theorem Instance.Knows.not_polling (hp : inst.phase ≠ .polling) (hf : inst.inFlight = none) :
    inst.Knows st := ⟨fun h => absurd h hp, fun h => absurd hf h⟩

theorem Instance.Knows.idle (h : inst.Knows st) (hp : inst.phase ≠ .polling) :
    inst.inFlight = none := by
  by_contra hf
  exact hp (h.polling hf)

theorem Instance.Knows.skipped (h : inst.Knows st) (hp : inst.phase = .polling) (s : String)
    (n : ℕ) (d : DeltaDecision) (st' : AliveStore) :
    (inst.settle ⟨.decided d, inst.engine.see s n, st'⟩).Knows st :=
  ⟨fun _ => h.memory hp, fun hf => absurd rfl hf⟩

theorem Instance.Knows.written (h : inst.Knows st) (hp : inst.phase = .polling)
    {env : AliveDeltaEnvelope} (hexp : Expects inst.engine env) (s : String) (n : ℕ)
    (d : DeltaDecision) (st' : AliveStore) :
    (inst.settle ⟨.decided d, (inst.engine.see s n).setVersion env.aic env.version, st'⟩).Knows
      st := by
  refine ⟨fun _ a old hold => ?_, fun hf => absurd rfl hf⟩
  obtain ⟨v, hv, hle⟩ := h.memory hp a old hold
  by_cases ha : a = env.aic
  · subst ha
    refine ⟨_, localVersion_setVersion_self .., ?_⟩
    have hpass := hexp.version
    rw [hv] at hpass
    have hlt : v < env.version := by simpa [passesVersion] using hpass
    omega
  · exact ⟨v, (localVersion_setVersion_of_ne ha ..).trans hv, hle⟩

end Knows

section Steps

variable [DecidableEq ι] {D : DeltaStream} {log : String → List ℕ} {st st' : AliveStore}
  {w w' : Fleet ι} {i : ι} {inst : Instance} {m : InFlight} {commit : Commit}

theorem Sane.set (h : Sane D st w) (hk : inst.Knows st) : Sane D st (w.set i inst) := by
  refine ⟨h.advances, h.source, ?_⟩
  intro j
  by_cases hj : j = i
  · subst hj
    simpa [Fleet.set] using hk
  · simpa [Fleet.set, hj] using h.knows j

omit [DecidableEq ι] in
theorem sane_start (D : DeltaStream) (st : AliveStore) : Sane D st (Fleet.start st : Fleet ι) where
  advances := .refl st
  source _ row h := .inl ⟨row, h, rfl⟩
  knows _ := .not_polling nofun rfl

theorem Sane.setStore (h : Sane D st w) (hadv : Advances w.store st')
    (hsrc : ∀ a row, st'.rows a = some row →
      (∃ old, st.rows a = some old ∧ row.version = old.version) ∨
        ∃ m ≤ st'.lastSeen (D.shardOf a), (D.delta (D.shardOf a) m).aic = a ∧
          row.version = (D.delta (D.shardOf a) m).version)
    (hk : inst.Knows st) : Sane D st { w.set i inst with store := st' } :=
  ⟨h.advances.trans hadv, hsrc, (h.set hk).knows⟩

theorem Sane.apply {out : DeltaOutcome} (h : Sane D st w) (hm : (w.instances i).inFlight = some m)
    (hup : UpToDate D w (.apply i commit))
    (heff : Effect (w.instances i).engine w.store (D.delta m.shard m.seq) commit out) :
    Sane D st { w.set i ((w.instances i).settle out) with store := out.store } ∧
      Advances w.store out.store := by
  have hk := h.knows i
  have hp : (w.instances i).phase = .polling := hk.polling (by simp [hm])
  have hle : commit ≠ .failed → Expects (w.instances i).engine (D.delta m.shard m.seq) →
      w.store.lastSeen m.shard ≤ m.seq := by
    intro hc hexp
    rw [seq_of_expects hexp]
    exact hup m hm hc hexp
  cases heff with
  | gated hgate => exact ⟨h.set (hk.skipped hp ..), .refl _⟩
  | skipped hseq hver => exact ⟨h.set (hk.skipped hp ..), .refl _⟩
  | gap hlt => exact ⟨h.set (.not_polling nofun rfl), .refl _⟩
  | failed hexp => exact ⟨h.set (.not_polling nofun rfl), .refl _⟩
  | lost st' hexp hw =>
    have hadv := h.written hp hexp (hle nofun hexp) hw
    have hsrc := h.source_written (hle nofun hexp) hw
    exact ⟨h.setStore hadv hsrc (.not_polling nofun rfl), hadv⟩
  | written d st' hexp hw =>
    have hadv := h.written hp hexp (hle nofun hexp) hw
    have hsrc := h.source_written (hle nofun hexp) hw
    exact ⟨h.setStore hadv hsrc (hk.written hp hexp ..), hadv⟩

theorem Sane.step {a : FleetAction ι} (h : Sane D st w) (hup : UpToDate D w a)
    (hs : (fleet D log).step w a = some w') : Sane D st w' ∧ Advances w.store w'.store := by
  cases a with
  | loadPlan i =>
    simp only [fleet] at hs
    split at hs
    · next hp =>
      split at hs
      · cases hs
      · obtain rfl := Option.some.inj hs
        have hidle := (h.knows i).idle (by simp [hp])
        exact ⟨h.set (.not_polling nofun hidle), .refl _⟩
    · cases hs
  | loadCheckpoints i =>
    simp only [fleet] at hs
    split at hs
    · next offsets hp =>
      split at hs
      · cases hs
      · obtain rfl := Option.some.inj hs
        have hidle := (h.knows i).idle (by simp [hp])
        exact ⟨h.set (.not_polling nofun hidle), .refl _⟩
    · cases hs
  | loadLocalVersions i =>
    simp only [fleet] at hs
    split at hs
    · next offsets hp =>
      obtain rfl := Option.some.inj hs
      refine ⟨h.set ⟨fun _ a old hold => ?_, fun _ => rfl⟩, .refl _⟩
      obtain ⟨row, hrow, hle⟩ := h.advances.rows a old hold
      exact ⟨row.version, congrArg (Option.map AliveRow.version) hrow, hle⟩
    · cases hs
  | stop i =>
    obtain rfl := Option.some.inj hs
    exact ⟨h.set (.not_polling nofun rfl), .refl _⟩
  | assign i s byTime =>
    obtain rfl := Option.some.inj hs
    exact ⟨h.set ⟨(h.knows i).memory, (h.knows i).polling⟩, .refl _⟩
  | revoke i s =>
    obtain rfl := Option.some.inj hs
    exact ⟨h.set ⟨(h.knows i).memory, (h.knows i).polling⟩, .refl _⟩
  | receive i s =>
    simp only [fleet] at hs
    split at hs
    · next hp _ =>
      split at hs
      · obtain ⟨n, _, rfl⟩ := Option.map_eq_some_iff.mp hs
        exact ⟨h.set ⟨(h.knows i).memory, fun _ => hp⟩, .refl _⟩
      · cases hs
    · cases hs
  | apply i commit =>
    obtain ⟨m, hm, rfl⟩ := Option.map_eq_some_iff.mp hs
    exact h.apply hm hup (applyDelta_effect ..)

theorem upToDate_of_advances {a : FleetAction ι} (hs : (fleet D log).step w a = some w')
    (hadv : Advances w.store w'.store) : UpToDate D w a := by
  cases a with
  | apply i commit =>
    intro m hm hc hexp
    obtain ⟨m', hm', rfl⟩ := Option.map_eq_some_iff.mp hs
    obtain rfl : m = m' := Option.some.inj (hm.symm.trans hm')
    have heff := applyDelta_effect (w.instances i).engine w.store (D.delta m.shard m.seq)
      (some (m.offset + 1)) commit
    dsimp only at hadv
    generalize applyDelta (w.instances i).engine w.store (D.delta m.shard m.seq)
      (some (m.offset + 1)) commit = out at heff hadv
    have hseen := hadv.lastSeen m.shard
    have hseq := seq_of_expects hexp
    cases heff with
    | gated h =>
      have := hexp.seq
      omega
    | gap h =>
      have := hexp.seq
      omega
    | skipped _ hver =>
      rw [hexp.version] at hver
      cases hver
    | failed => exact absurd rfl hc
    | lost st' _ hw =>
      rw [lastSeen_written hw, Function.update_self] at hseen
      omega
    | written d st' _ hw =>
      rw [lastSeen_written hw, Function.update_self] at hseen
      omega
  | _ => trivial

theorem Sane.exec {as : List (FleetAction ι)} (h : Sane D st w)
    (hup : (fleet D log).Meets (UpToDate D) w as) (hs : (fleet D log).exec w as = some w') :
    Sane D st w' ∧ Advances w.store w'.store := by
  refine (fleet D log).exec_invariant (I := fun v => Sane D st v ∧ Advances w.store v.store) ?_
    ⟨h, .refl _⟩ hup hs
  rintro v a v' ⟨hv, hadv⟩ hC hstep
  obtain ⟨hv', hadv'⟩ := hv.step hC hstep
  exact ⟨hv', hadv.trans hadv'⟩

end Steps

def NeverDecreases [DecidableEq ι] (D : DeltaStream) (log : String → List ℕ) (st : AliveStore)
    (as : List (FleetAction ι)) : Prop :=
  ∀ pre mid post w w', as = pre ++ mid ++ post →
    (fleet D log).exec (Fleet.start st) pre = some w → (fleet D log).exec w mid = some w' →
    Advances w.store w'.store

theorem neverDecreases_iff [DecidableEq ι] (D : DeltaStream) (log : String → List ℕ)
    (st : AliveStore) (as : List (FleetAction ι)) :
    NeverDecreases D log st as ↔ (fleet D log).Meets (UpToDate D) (Fleet.start st) as := by
  constructor
  · intro h
    apply (fleet D log).meets_iff.mpr
    rintro pre a post w rfl hw
    cases hs : (fleet D log).step w a with
    | some w' =>
      apply upToDate_of_advances hs
      apply h pre [a] post w w' (by simp) hw
      rw [System.exec_cons, hs]
      rfl
    | none =>
      cases a with
      | apply i commit =>
        intro m hm
        simp [fleet, hm] at hs
      | _ => trivial
  · rintro h pre mid post w w' rfl hw hw'
    rw [List.append_assoc] at h
    obtain ⟨hpre, hrest⟩ := (fleet D log).meets_append h hw
    have hsane := ((sane_start D st).exec hpre hw).1
    exact (hsane.exec ((fleet D log).meets_append hrest hw').1 hw').2

section Regained

def snapshotted : AliveStore := (replaceAliveSet firstSnapshot).getD .empty

def startUp (i : Bool) : List (FleetAction Bool) :=
  [.loadPlan i, .loadCheckpoints i, .loadLocalVersions i, .assign i "hb-000" 0]

def consume (i : Bool) (k : ℕ) : List (FleetAction Bool) :=
  (List.replicate k [.receive i "hb-000", .apply i .done]).flatten

def awayRun : List (FleetAction Bool) :=
  startUp true ++ consume true 1 ++ [.revoke true "hb-000"] ++ startUp false ++
    consume false 2 ++ [.revoke false "hb-000"]

def regainRun : List (FleetAction Bool) := .assign true "hb-000" 0 :: consume true 2

theorem regained_partition_goes_back :
    (∃ w w', (fleet alternating (fun _ => [1, 2, 3])).exec (Fleet.start snapshotted) awayRun =
        some w ∧
      (fleet alternating (fun _ => [1, 2, 3])).exec w regainRun = some w' ∧
      w.store.lastSeen "hb-000" = 3 ∧ w'.store.lastSeen "hb-000" = 2 ∧
      (w.store.rows "hb-000").map AliveRow.version = some 3 ∧
      (w'.store.rows "hb-000").map AliveRow.version = some 2) ∧
    ¬ NeverDecreases alternating (fun _ => [1, 2, 3]) snapshotted (awayRun ++ regainRun) := by
  have hrun : ((fleet alternating (fun _ => [1, 2, 3])).exec (Fleet.start snapshotted)
      awayRun).any (fun w => w.store.lastSeen "hb-000" = 3 ∧
        (w.store.rows "hb-000").map AliveRow.version = some 3 ∧
        ((fleet alternating (fun _ => [1, 2, 3])).exec w regainRun).any (fun w' =>
          w'.store.lastSeen "hb-000" = 2 ∧
          (w'.store.rows "hb-000").map AliveRow.version = some 2) = true) = true := by
    decide +kernel
  obtain ⟨w, hw, hfacts⟩ := (Option.any_eq_true _ _).mp hrun
  obtain ⟨hseen, hver, hrest⟩ := of_decide_eq_true hfacts
  obtain ⟨w', hw', hfacts'⟩ := (Option.any_eq_true _ _).mp hrest
  obtain ⟨hseen', hver'⟩ := of_decide_eq_true hfacts'
  refine ⟨⟨w, w', hw, hw', hseen, hseen', hver, hver'⟩, fun hnever => ?_⟩
  have hle := (hnever awayRun regainRun [] w w' (by simp) hw hw').lastSeen "hb-000"
  omega

end Regained

end Acps.AliveSync
