import Acps.AliveSync.ExactlyOnce

/-!
A consumer that takes the rows of a snapshot as its alive map and then applies the deltas
that follow the cutover. Of an AIC, the last delta newer than its row counts.
-/

namespace Acps.AliveSync

open Replay

def snapshotRows (rows : List AliveDeltaEnvelope) : String → Option AliveRow :=
  replay AliveDeltaEnvelope.aic AliveDeltaEnvelope.entry (fun _ => none) rows

def loadSnapshot (shard : String) (cutover : ℕ) (generatedAt : String)
    (rows : List AliveDeltaEnvelope) : AliveSyncEngine × AliveStore :=
  let seen := fun s => if s = shard then some cutover else none
  ({ lastSeenSeq := seen
     localVersion := fun aic =>
       (lastOn AliveDeltaEnvelope.aic aic rows).map AliveDeltaEnvelope.version
     cutoverSeq := seen },
    { rows := snapshotRows rows
      checkpoints := [snapshotCheckpoint generatedAt (shard, cutover)] })

def applyDeltas : AliveSyncEngine × AliveStore → List AliveDeltaEnvelope →
    AliveSyncEngine × AliveStore
  | c, [] => c
  | c, env :: envs =>
    let out := applyDelta c.1 c.2 env none .done
    applyDeltas (out.engine, out.store) envs

def Increasing (envs : List AliveDeltaEnvelope) : Prop :=
  envs.Pairwise fun e f => e.aic = f.aic → e.version < f.version

section Engine

variable {e : AliveSyncEngine} {st : AliveStore} {envs : List AliveDeltaEnvelope}
  {env : AliveDeltaEnvelope} {shard : String}

/-- The memory knows the version of every row, and lets every later delta of a missing row pass. -/
def Serves (e : AliveSyncEngine) (rows : String → Option AliveRow)
    (envs : List AliveDeltaEnvelope) : Prop :=
  ∀ a, e.localVersion a = (rows a).map AliveRow.version ∨
    rows a = none ∧ ∀ env ∈ envs, env.aic = a → passesVersion env.version (e.localVersion a) = true

theorem Serves.newer (h : Serves e st.rows (env :: envs)) :
    newerThanRow st.rows env = passesVersion env.version (e.localVersion env.aic) := by
  rcases h env.aic with heq | ⟨hnone, hpass⟩
  · rw [heq]
    rfl
  · rw [hpass env List.mem_cons_self rfl, newerThanRow, hnone]
    rfl

theorem Serves.tail (h : Serves e st.rows (env :: envs)) {e' : AliveSyncEngine}
    (hv : e'.localVersion = e.localVersion) : Serves e' st.rows envs := by
  intro a
  rw [hv]
  apply (h a).imp_right
  rintro ⟨hnone, hpass⟩
  exact ⟨hnone, fun f hf => hpass f (List.mem_cons_of_mem _ hf)⟩

theorem Serves.written (h : Serves e st.rows (env :: envs)) (hinc : Increasing (env :: envs))
    (s : String) (n : ℕ) : Serves ((e.see s n).setVersion env.aic env.version)
      (overwrite st.rows env) envs := by
  intro a
  by_cases ha : a = env.aic
  · subst ha
    rw [overwrite_self, localVersion_setVersion_self]
    cases hop : env.op with
    | upsert => exact .inl rfl
    | delete =>
      cases hrow : st.rows env.aic with
      | some row => exact .inl rfl
      | none =>
        refine .inr ⟨rfl, fun f hf haic => ?_⟩
        have hlt := (List.pairwise_cons.mp hinc).1 f hf haic.symm
        simpa [passesVersion] using hlt
  · rw [overwrite_of_ne ha, localVersion_setVersion_of_ne ha, localVersion_see]
    exact h.tail rfl a

theorem rows_applyDeltas (hseq : envs.map AliveDeltaEnvelope.seq =
      List.range' (e.lastSeen shard + 1) envs.length) (hshard : ∀ env ∈ envs, env.shard = shard)
    (hinc : Increasing envs) (h : Serves e st.rows envs) :
    (applyDeltas (e, st) envs).2.rows = inOrder st.rows envs := by
  induction envs generalizing e st with
  | nil => rfl
  | cons env envs ih =>
    have hs : env.shard = shard := hshard env List.mem_cons_self
    have hrest : ∀ f ∈ envs, f.shard = shard := fun f hf => hshard f (List.mem_cons_of_mem _ hf)
    rw [List.map_cons, List.length_cons, List.range'_succ, List.cons.injEq] at hseq
    obtain ⟨hnext, hseq⟩ := hseq
    have hstep : (applyDeltas (e, st) (env :: envs)).2.rows = (applyDeltas
        ((applyDelta e st env none .done).engine, (applyDelta e st env none .done).store)
          envs).2.rows := rfl
    have hfold : inOrder st.rows (env :: envs) = inOrder (applyOnce st.rows env) envs := rfl
    have hseen : ∀ s n, s = shard → n = e.lastSeen shard + 1 →
        (e.see s n).lastSeen shard + 1 = e.lastSeen shard + 1 + 1 := by
      rintro s n rfl rfl
      rw [lastSeen_see, Function.update_self]
    rw [hstep, hfold]
    have heff := applyDelta_effect e st env none .done
    generalize applyDelta e st env none .done = out at heff ⊢
    cases heff with
    | gated hle =>
      rw [hs] at hle
      omega
    | gap hlt =>
      rw [hs] at hlt
      omega
    | skipped _ hver =>
      rw [applyOnce_of_not_newer (h.newer.trans hver)]
      refine ih ?_ hrest (List.pairwise_cons.mp hinc).2 (h.tail rfl)
      rw [hseen _ _ hs hnext]
      exact hseq
    | written d st' hexp hw =>
      rw [applyOnce_of_newer (h.newer.trans hexp.version), ← hw.rows]
      refine ih ?_ hrest (List.pairwise_cons.mp hinc).2 ?_
      · rw [lastSeen_setVersion, hseen _ _ hs hnext]
        exact hseq
      · rw [hw.rows]
        exact h.written hinc _ _

end Engine

section Gate

variable {rows : String → Option AliveRow} {envs : List AliveDeltaEnvelope}
  {env : AliveDeltaEnvelope} {a : String}

def lastNewer (rows : String → Option AliveRow) (a : String) (envs : List AliveDeltaEnvelope) :
    Option AliveDeltaEnvelope :=
  lastOn AliveDeltaEnvelope.aic a (envs.filter (newerThanRow rows))

theorem lastNewer_concat_self (h : newerThanRow rows env = true) :
    lastNewer rows env.aic (envs ++ [env]) = some env := by
  rw [lastNewer, List.filter_append, List.filter_singleton, h]
  exact lastOn_concat_self AliveDeltaEnvelope.aic _ env

theorem lastNewer_concat_of_not (h : env.aic ≠ a ∨ newerThanRow rows env = false) :
    lastNewer rows a (envs ++ [env]) = lastNewer rows a envs := by
  unfold lastNewer
  rw [List.filter_append, List.filter_singleton]
  cases hnew : newerThanRow rows env with
  | false => simp
  | true =>
    have ha : env.aic ≠ a := h.resolve_right (by simp [hnew])
    exact lastOn_concat_of_ne ha _

theorem mem_of_lastNewer (h : lastNewer rows a envs = some env) :
    env ∈ envs ∧ env.aic = a ∧ newerThanRow rows env = true := by
  obtain ⟨hmem, haic⟩ := mem_of_lastOn h
  obtain ⟨hin, hnew⟩ := List.mem_filter.mp hmem
  exact ⟨hin, haic, hnew⟩

structure Gated (rows : String → Option AliveRow) (envs : List AliveDeltaEnvelope) (a : String) :
    Prop where
  alive : aliveMap (inOrder rows envs) a =
    (lastNewer rows a envs).elim (aliveMap rows a) AliveDeltaEnvelope.entry
  untouched : lastNewer rows a envs = none → inOrder rows envs a = rows a
  version : ∀ d, lastNewer rows a envs = some d → ∀ row, inOrder rows envs a = some row →
    row.version = d.version

theorem Gated.newer_iff (h : Gated rows envs env.aic)
    (hlt : ∀ d ∈ envs, d.aic = env.aic → d.version < env.version) :
    newerThanRow (inOrder rows envs) env = newerThanRow rows env := by
  cases hlast : lastNewer rows env.aic envs with
  | none =>
    unfold newerThanRow
    rw [h.untouched hlast]
  | some d =>
    obtain ⟨hmem, haic, hnew⟩ := mem_of_lastNewer hlast
    have hd := hlt d hmem haic
    have hnow : newerThanRow (inOrder rows envs) env = true := by
      unfold newerThanRow
      cases hrow : inOrder rows envs env.aic with
      | none => rfl
      | some row =>
        have hver := h.version d hlast row hrow
        simp only [Option.map_some, passesVersion, decide_eq_true_eq]
        omega
    have hbefore : newerThanRow rows env = true := by
      unfold newerThanRow at hnew ⊢
      rw [haic] at hnew
      cases hrow : rows env.aic with
      | none => rfl
      | some row =>
        rw [hrow] at hnew
        simp only [Option.map_some, passesVersion, decide_eq_true_eq] at hnew ⊢
        omega
    rw [hnow, hbefore]

theorem gated_inOrder (rows : String → Option AliveRow) (hinc : Increasing envs) (a : String) :
    Gated rows envs a := by
  induction envs using List.reverseRecOn generalizing a with
  | nil => exact ⟨rfl, fun _ => rfl, nofun⟩
  | append_singleton envs env ih =>
    obtain ⟨hinc', _, hlast⟩ := List.pairwise_append.mp hinc
    have hlt : ∀ d ∈ envs, d.aic = env.aic → d.version < env.version :=
      fun d hd => hlast d hd env (List.mem_singleton_self env)
    have hsame : (env.aic ≠ a ∨ newerThanRow rows env = false) →
        inOrder rows (envs ++ [env]) a = inOrder rows envs a := by
      rw [inOrder_concat]
      rintro (ha | hnew)
      · exact applyOnce_of_ne ha.symm _
      · rw [applyOnce_of_not_newer (((ih hinc' env.aic).newer_iff hlt).trans hnew)]
    by_cases h : env.aic ≠ a ∨ newerThanRow rows env = false
    · have hrow := hsame h
      have hih := ih hinc' a
      constructor
      · rw [lastNewer_concat_of_not h, ← hih.alive, aliveMap, hrow, aliveMap]
      · rw [lastNewer_concat_of_not h, hrow]
        exact hih.untouched
      · rw [lastNewer_concat_of_not h, hrow]
        exact hih.version
    · obtain ⟨rfl, hnew⟩ : env.aic = a ∧ newerThanRow rows env = true := by simpa using h
      have hrow : inOrder rows (envs ++ [env]) = overwrite (inOrder rows envs) env := by
        rw [inOrder_concat, applyOnce_of_newer (((ih hinc' env.aic).newer_iff hlt).trans hnew)]
      constructor
      · rw [lastNewer_concat_self hnew, hrow, aliveMap_overwrite, write_self]
        rfl
      · rw [lastNewer_concat_self hnew]
        intro hnone
        cases hnone
      · rw [lastNewer_concat_self hnew, hrow]
        intro d hd row hrow'
        cases hd
        exact version_overwrite hrow'

end Gate

end Acps.AliveSync
