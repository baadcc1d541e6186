import Acps.AliveSync.Engine
import Acps.Lib.Replay
import Acps.Lib.Transition

/-!
A consumer of the alive deltas across redelivery, failed writes, crashes and resumes: its
rows are those of its last snapshot with every delta since applied once, in order.
-/

namespace Acps.AliveSync

open Replay Transition

structure DeltaStream where
  delta : String → ℕ → AliveDeltaEnvelope
  shardOf : String → String
  shard_delta : ∀ s n, (delta s n).shard = s
  seq_delta : ∀ s n, (delta s n).seq = n
  shardOf_aic : ∀ s n, shardOf (delta s n).aic = s
  version_lt : ∀ s m n, m < n → (delta s m).aic = (delta s n).aic →
    (delta s m).version < (delta s n).version

def DeltaStream.between (D : DeltaStream) (s : String) (lo hi : ℕ) : List AliveDeltaEnvelope :=
  (List.range' (lo + 1) (hi - lo)).map (D.delta s)

def newerThanRow (rows : String → Option AliveRow) (env : AliveDeltaEnvelope) : Bool :=
  passesVersion env.version ((rows env.aic).map AliveRow.version)

def applyOnce (rows : String → Option AliveRow) (env : AliveDeltaEnvelope) :
    String → Option AliveRow :=
  if newerThanRow rows env then overwrite rows env else rows

def inOrder (rows : String → Option AliveRow) (envs : List AliveDeltaEnvelope) :
    String → Option AliveRow := envs.foldl applyOnce rows

def aliveMap (rows : String → Option AliveRow) (aic : String) : Option AliveRow :=
  (rows aic).filter AliveRow.alive

def AliveDeltaEnvelope.entry (env : AliveDeltaEnvelope) : Option AliveRow :=
  match env.op with
  | .upsert => some (aliveRecord env)
  | .delete => none

structure Consumer where
  store : AliveStore
  engine : AliveSyncEngine
  polling : Bool
  position : String → ℕ
  base : AliveStore

namespace Consumer

def start (st : AliveStore) : Consumer := ⟨st, .fresh, false, fun _ => 0, st⟩

def pollApply (c : Consumer) (s : String) (env : AliveDeltaEnvelope) (commit : Commit) :
    Consumer :=
  let out := applyDelta c.engine c.store env (some (c.position s + 1)) commit
  match out.result with
  | .decided _ =>
    { c with
      store := out.store
      engine := out.engine
      position := Function.update c.position s (c.position s + 1) }
  | _ => { c with store := out.store, engine := out.engine, polling := false }

def seekPlan (st : AliveStore) (byTime : String → ℕ) (s : String) : ℕ :=
  ((st.checkpoint s).bind ShardCheckpoint.kafkaNextOffset).getD (byTime s)

def resume (c : Consumer) (versionsRead : Bool) (byTime : String → ℕ) : Option Consumer :=
  match c.engine.hydrate c.store with
  | none => none
  | some e =>
    if versionsRead then
      some { c with engine := e, polling := true, position := seekPlan c.store byTime }
    else some { c with engine := c.engine.loadCheckpoints c.store, polling := false }

def bootstrap (c : Consumer) (snap : AliveSnapshot) (commit : Commit) (byTime : String → ℕ) :
    Consumer :=
  let (applied, e, st) := applySnapshot c.engine c.store snap commit
  let replaced := commit ≠ .failed ∧ (replaceAliveSet snap).isSome
  { store := st
    engine := e
    polling := applied
    position := if applied then byTime else c.position
    base := if replaced then st else c.base }

def reset (c : Consumer) (commit : Commit) : Consumer :=
  if commit = .failed then { c with polling := false }
  else { c with store := .empty, polling := false, base := .empty }

end Consumer

inductive Action where
  | poll (s : String) (commit : Commit)
  | seek (s : String) (offset : ℕ)
  | crash
  | resume (versionsRead : Bool) (byTime : String → ℕ)
  | bootstrap (snap : AliveSnapshot) (commit : Commit) (byTime : String → ℕ)
  | reset (commit : Commit)

def consumer (D : DeltaStream) (log : String → List ℕ) : System Consumer Action where
  step c
    | .poll s commit =>
      if c.polling then
        ((log s)[c.position s]?).map fun n => c.pollApply s (D.delta s n) commit
      else none
    | .seek s offset => some { c with position := Function.update c.position s offset }
    | .crash => some { c with engine := .fresh, polling := false }
    | .resume versionsRead byTime => c.resume versionsRead byTime
    | .bootstrap snap commit byTime => some (c.bootstrap snap commit byTime)
    | .reset commit => some (c.reset commit)

section Rows

variable {rows rows' : String → Option AliveRow} {env : AliveDeltaEnvelope} {a : String}

theorem overwrite_of_ne (h : a ≠ env.aic) (rows : String → Option AliveRow) :
    overwrite rows env a = rows a := Function.update_of_ne h ..

theorem overwrite_self (rows : String → Option AliveRow) (env : AliveDeltaEnvelope) :
    overwrite rows env env.aic = match env.op with
      | .upsert => some (aliveRecord env)
      | .delete => (rows env.aic).map fun row =>
        { row with alive := false, version := env.version } := Function.update_self ..

theorem version_overwrite {row : AliveRow} (h : overwrite rows env env.aic = some row) :
    row.version = env.version := by
  rw [overwrite_self] at h
  cases hop : env.op with
  | upsert =>
    rw [hop] at h
    obtain rfl := Option.some.inj h
    rfl
  | delete =>
    rw [hop] at h
    obtain ⟨old, _, rfl⟩ := Option.map_eq_some_iff.mp h
    rfl

theorem applyOnce_of_newer (h : newerThanRow rows env = true) :
    applyOnce rows env = overwrite rows env := if_pos h

theorem applyOnce_of_not_newer (h : newerThanRow rows env = false) : applyOnce rows env = rows := by
  rw [applyOnce, h]
  rfl

theorem applyOnce_of_ne (h : a ≠ env.aic) (rows : String → Option AliveRow) :
    applyOnce rows env a = rows a := by
  unfold applyOnce
  split
  · exact overwrite_of_ne h rows
  · rfl

theorem applyOnce_congr (haic : rows env.aic = rows' env.aic) (ha : rows a = rows' a) :
    applyOnce rows env a = applyOnce rows' env a := by
  by_cases h : a = env.aic
  · subst h
    unfold applyOnce newerThanRow
    rw [haic]
    split
    · rw [overwrite_self, overwrite_self, haic]
    · exact ha
  · rw [applyOnce_of_ne h, applyOnce_of_ne h, ha]

theorem inOrder_concat (rows : String → Option AliveRow) (envs : List AliveDeltaEnvelope)
    (env : AliveDeltaEnvelope) :
    inOrder rows (envs ++ [env]) = applyOnce (inOrder rows envs) env := by
  unfold inOrder
  rw [List.foldl_append]
  rfl

end Rows

section Stream

variable {D : DeltaStream} {s : String}

@[simp] theorem between_self (D : DeltaStream) (s : String) (n : ℕ) : D.between s n n = [] := by
  simp [DeltaStream.between]

theorem between_succ {lo hi : ℕ} (h : lo ≤ hi) :
    D.between s lo (hi + 1) = D.between s lo hi ++ [D.delta s (hi + 1)] := by
  unfold DeltaStream.between
  have hlen : hi + 1 - lo = hi - lo + 1 := by omega
  rw [hlen, List.range'_1_concat, List.map_append, List.map_singleton]
  have hlast : lo + 1 + (hi - lo) = hi + 1 := by omega
  rw [hlast]

end Stream

structure Caught (D : DeltaStream) (base st : AliveStore) (s : String) (n : ℕ) : Prop where
  base_le : base.lastSeen s ≤ n
  rows : ∀ a, D.shardOf a = s →
    st.rows a = inOrder base.rows (D.between s (base.lastSeen s) n) a

def Agree (D : DeltaStream) (e : AliveSyncEngine) (rows : String → Option AliveRow) : Prop :=
  ∀ a, e.localVersion a = (rows a).map AliveRow.version ∨
    rows a = none ∧ ∃ m ≤ e.lastSeen (D.shardOf a), (D.delta (D.shardOf a) m).aic = a ∧
      e.localVersion a = some (D.delta (D.shardOf a) m).version

structure Exact (D : DeltaStream) (c : Consumer) : Prop where
  persisted : ∀ s, Caught D c.base c.store s (c.store.lastSeen s)
  consumed : c.polling → ∀ s, Caught D c.base c.store s (c.engine.lastSeen s)
  le : c.polling → ∀ s, c.store.lastSeen s ≤ c.engine.lastSeen s
  agree : c.polling → Agree D c.engine c.store.rows

section Invariant

variable {D : DeltaStream} {base st st' : AliveStore} {s t : String} {m n : ℕ}
  {e e' : AliveSyncEngine} {c : Consumer}

theorem caught_self (D : DeltaStream) (st : AliveStore) (s : String) :
    Caught D st st s (st.lastSeen s) where
  base_le := Nat.le_refl _
  rows a _ := by
    rw [between_self]
    rfl

theorem Caught.next (h : Caught D base st s n)
    (hrows : st'.rows = applyOnce st.rows (D.delta s (n + 1))) : Caught D base st' s (n + 1) := by
  constructor
  · exact Nat.le_succ_of_le h.base_le
  · intro a ha
    rw [hrows, between_succ h.base_le, inOrder_concat]
    apply applyOnce_congr
    · exact h.rows _ (D.shardOf_aic ..)
    · exact h.rows a ha

theorem Caught.frame (h : Caught D base st t m) (ht : t ≠ s)
    (hrows : st'.rows = applyOnce st.rows (D.delta s n)) : Caught D base st' t m := by
  constructor
  · exact h.base_le
  · intro a ha
    have hne : a ≠ (D.delta s n).aic := by
      intro heq
      apply ht
      rw [← ha, heq]
      exact D.shardOf_aic ..
    rw [hrows, applyOnce_of_ne hne]
    exact h.rows a ha

theorem Agree.mono (h : Agree D e st.rows) (hle : ∀ s, e.lastSeen s ≤ e'.lastSeen s)
    (hver : e'.localVersion = e.localVersion) : Agree D e' st.rows := by
  intro a
  rw [hver]
  rcases h a with heq | ⟨hnone, m, hm, hdelta, heq⟩
  · exact .inl heq
  · exact .inr ⟨hnone, m, Nat.le_trans hm (hle _), hdelta, heq⟩

theorem Agree.newer (h : Agree D e st.rows) (hn : e.lastSeen s < n) :
    newerThanRow st.rows (D.delta s n) =
      passesVersion (D.delta s n).version (e.localVersion (D.delta s n).aic) := by
  have haic := h (D.delta s n).aic
  rw [D.shardOf_aic] at haic
  rcases haic with heq | ⟨hnone, m, hm, hdelta, heq⟩
  · rw [heq]
    rfl
  · unfold newerThanRow
    rw [hnone, heq]
    symm
    simpa [passesVersion] using D.version_lt s m n (by omega) hdelta

theorem seq_of_expects (h : Expects e (D.delta s n)) : n = e.lastSeen s + 1 := by
  have hseq := h.seq
  rwa [D.seq_delta, D.shard_delta] at hseq

theorem Agree.rows_written (h : Agree D e st.rows) (hexp : Expects e (D.delta s n))
    (hw : Written st (D.delta s n) st') : st'.rows = applyOnce st.rows (D.delta s n) := by
  have hn := seq_of_expects hexp
  rw [hw.rows, applyOnce_of_newer]
  rw [h.newer (by omega), hexp.version]

theorem lastSeen_written (hw : Written st (D.delta s n) st') :
    st'.lastSeen = Function.update st.lastSeen s n := by
  rw [hw.lastSeen, D.seq_delta, D.shard_delta]

theorem Agree.written (h : Agree D e st.rows) (hn : n = e.lastSeen s + 1)
    (hrows : st'.rows = overwrite st.rows (D.delta s n)) :
    Agree D ((e.see s n).setVersion (D.delta s n).aic (D.delta s n).version) st'.rows := by
  have hseen : ((e.see s n).setVersion (D.delta s n).aic (D.delta s n).version).lastSeen =
      Function.update e.lastSeen s n := lastSeen_see ..
  intro a
  rw [hseen, hrows]
  by_cases ha : a = (D.delta s n).aic
  · subst ha
    rw [overwrite_self, D.shardOf_aic, localVersion_setVersion_self]
    cases hop : (D.delta s n).op with
    | upsert => exact .inl rfl
    | delete =>
      cases hrow : st.rows (D.delta s n).aic with
      | none => exact .inr ⟨rfl, n, by simp, rfl, rfl⟩
      | some row => exact .inl rfl
  · rw [overwrite_of_ne ha, localVersion_setVersion_of_ne ha, localVersion_see]
    rcases h a with heq | ⟨hnone, m, hm, hdelta, heq⟩
    · exact .inl heq
    · refine .inr ⟨hnone, m, ?_, hdelta, heq⟩
      by_cases hs : D.shardOf a = s
      · rw [hs, Function.update_self]
        rw [hs] at hm
        omega
      · rwa [Function.update_of_ne hs]

theorem agree_hydrate (D : DeltaStream) (h : e.hydrate st = some e') : Agree D e' st.rows :=
  fun a => .inl (localVersion_hydrate h a)

theorem Exact.caught_next (h : Exact D c) (hp : c.polling) (hn : n = c.engine.lastSeen s + 1)
    (hrows : st'.rows = applyOnce c.store.rows (D.delta s n)) {seen : String → ℕ}
    (hseen : ∀ t, Caught D c.base c.store t (seen t)) (t : String) :
    Caught D c.base st' t (Function.update seen s n t) := by
  by_cases ht : t = s
  · subst ht
    rw [Function.update_self, hn]
    exact (h.consumed hp t).next (hn ▸ hrows)
  · rw [Function.update_of_ne ht]
    exact (hseen t).frame ht hrows

theorem Exact.pollApply (h : Exact D c) (hp : c.polling) (s : String) (n : ℕ) (commit : Commit) :
    Exact D (c.pollApply s (D.delta s n) commit) := by
  have heff := applyDelta_effect c.engine c.store (D.delta s n) (some (c.position s + 1)) commit
  unfold Consumer.pollApply
  generalize applyDelta c.engine c.store (D.delta s n) (some (c.position s + 1)) commit = out
    at heff ⊢
  cases heff with
  | gated hle =>
    have hseen : (c.engine.see (D.delta s n).shard
        (c.engine.lastSeen (D.delta s n).shard)).lastSeen = c.engine.lastSeen := by
      rw [lastSeen_see, Function.update_eq_self]
    constructor
    · exact h.persisted
    · intro _
      simpa only [hseen] using h.consumed hp
    · intro _
      simpa only [hseen] using h.le hp
    · intro _
      exact (h.agree hp).mono (fun t => Nat.le_of_eq (congrFun hseen t).symm) rfl
  | gap hlt => exact ⟨h.persisted, nofun, nofun, nofun⟩
  | failed hexp => exact ⟨h.persisted, nofun, nofun, nofun⟩
  | skipped hseq hver =>
    rw [D.seq_delta, D.shard_delta] at hseq
    rw [D.seq_delta, D.shard_delta]
    have hsame : c.store.rows = applyOnce c.store.rows (D.delta s n) := by
      rw [applyOnce_of_not_newer]
      rw [(h.agree hp).newer (by omega), hver]
    have hseen := lastSeen_see c.engine s n
    have hmono : ∀ t, c.engine.lastSeen t ≤ (c.engine.see s n).lastSeen t := by
      intro t
      rw [hseen, Function.update_apply]
      split
      · next ht =>
        subst ht
        omega
      · exact Nat.le_refl _
    constructor
    · exact h.persisted
    · intro _
      rw [hseen]
      exact h.caught_next hp hseq hsame (h.consumed hp)
    · intro _ t
      exact Nat.le_trans (h.le hp t) (hmono t)
    · intro _
      exact (h.agree hp).mono hmono rfl
  | written d st' hexp hw =>
    have hseq := seq_of_expects hexp
    have hrows := (h.agree hp).rows_written hexp hw
    have hstore := lastSeen_written hw
    rw [D.seq_delta, D.shard_delta]
    constructor
    · dsimp only
      rw [hstore]
      exact h.caught_next hp hseq hrows h.persisted
    · intro _
      dsimp only
      rw [lastSeen_setVersion, lastSeen_see]
      exact h.caught_next hp hseq hrows (h.consumed hp)
    · intro _ t
      dsimp only
      rw [hstore, lastSeen_setVersion, lastSeen_see]
      by_cases ht : t = s
      · apply Nat.le_of_eq
        rw [ht, Function.update_self, Function.update_self]
      · rw [Function.update_of_ne ht, Function.update_of_ne ht]
        exact h.le hp t
    · intro _
      exact (h.agree hp).written hseq hw.rows
  | lost st' hexp hw =>
    have hseq := seq_of_expects hexp
    have hrows := (h.agree hp).rows_written hexp hw
    refine ⟨?_, nofun, nofun, nofun⟩
    dsimp only
    rw [lastSeen_written hw]
    exact h.caught_next hp hseq hrows h.persisted

theorem Exact.resume (h : Exact D c) {c' : Consumer} {versionsRead : Bool} {byTime : String → ℕ}
    (hc : c.resume versionsRead byTime = some c') : Exact D c' := by
  unfold Consumer.resume at hc
  cases hydr : c.engine.hydrate c.store with
  | none =>
    rw [hydr] at hc
    cases hc
  | some e =>
    rw [hydr] at hc
    cases versionsRead with
    | false =>
      obtain rfl := Option.some.inj hc
      exact ⟨h.persisted, nofun, nofun, nofun⟩
    | true =>
      obtain rfl := Option.some.inj hc
      have hseen := lastSeen_hydrate hydr
      constructor
      · exact h.persisted
      · intro _
        dsimp only
        rw [hseen]
        exact h.persisted
      · intro _ t
        exact Nat.le_of_eq (congrFun hseen t).symm
      · intro _
        exact agree_hydrate D hydr

theorem lastSeen_replaceAliveSet {snap : AliveSnapshot} (h : replaceAliveSet snap = some st) :
    (snapshotEngine snap).lastSeen = st.lastSeen := by
  unfold replaceAliveSet at h
  split at h
  · obtain rfl := Option.some.inj h
    funext s
    unfold snapshotEngine AliveSyncEngine.lastSeen AliveStore.lastSeen AliveStore.checkpoint
    dsimp only
    rw [List.find?_map]
    simp only [Option.map_map]
    rfl
  · cases h

theorem localVersion_replaceAliveSet {snap : AliveSnapshot} (h : replaceAliveSet snap = some st) :
    (snapshotEngine snap).localVersion = fun a => (st.rows a).map AliveRow.version := by
  unfold replaceAliveSet at h
  split at h
  · obtain rfl := Option.some.inj h
    funext a
    unfold snapshotEngine
    simp only [Option.map_map]
    rfl
  · cases h

theorem Exact.bootstrap (h : Exact D c) (snap : AliveSnapshot) (commit : Commit)
    (byTime : String → ℕ) : Exact D (c.bootstrap snap commit byTime) := by
  unfold Consumer.bootstrap applySnapshot
  cases hset : replaceAliveSet snap with
  | none => cases commit <;> exact ⟨by simpa using h.persisted, nofun, nofun, nofun⟩
  | some st' =>
    have hself := caught_self D st'
    cases commit with
    | failed => exact ⟨by simpa using h.persisted, nofun, nofun, nofun⟩
    | lost => exact ⟨by simpa using hself, nofun, nofun, nofun⟩
    | done =>
      have hseen := lastSeen_replaceAliveSet hset
      constructor
      · simpa using hself
      · intro _
        simpa [hseen] using hself
      · intro _ t
        exact Nat.le_of_eq (congrFun hseen t).symm
      · intro _ a
        exact .inl (congrFun (localVersion_replaceAliveSet hset) a)

theorem Exact.reset (h : Exact D c) (commit : Commit) : Exact D (c.reset commit) := by
  unfold Consumer.reset
  split
  · exact ⟨h.persisted, nofun, nofun, nofun⟩
  · exact ⟨caught_self D .empty, nofun, nofun, nofun⟩

theorem exact_step {log : String → List ℕ} {a : Action} {c' : Consumer} (h : Exact D c)
    (hc : (consumer D log).step c a = some c') : Exact D c' := by
  cases a with
  | poll s commit =>
    simp only [consumer] at hc
    split at hc
    · next hp =>
      obtain ⟨n, _, rfl⟩ := Option.map_eq_some_iff.mp hc
      exact h.pollApply hp s n commit
    · cases hc
  | seek s offset =>
    obtain rfl := Option.some.inj hc
    exact ⟨h.persisted, h.consumed, h.le, h.agree⟩
  | crash =>
    obtain rfl := Option.some.inj hc
    exact ⟨h.persisted, nofun, nofun, nofun⟩
  | resume versionsRead byTime => exact h.resume hc
  | bootstrap snap commit byTime =>
    obtain rfl := Option.some.inj hc
    exact h.bootstrap snap commit byTime
  | reset commit =>
    obtain rfl := Option.some.inj hc
    exact h.reset commit

theorem exact_start (D : DeltaStream) (st : AliveStore) : Exact D (.start st) :=
  ⟨caught_self D st, nofun, nofun, nofun⟩

theorem exact_exec {log : String → List ℕ} {as : List Action} (st : AliveStore)
    (hc : (consumer D log).exec (.start st) as = some c) : Exact D c :=
  (consumer D log).exec_induction (fun _ _ _ h hs => exact_step h hs) (exact_start D st) hc

end Invariant

def NotAhead (D : DeltaStream) (rows : String → Option AliveRow) (s : String) (lo : ℕ) : Prop :=
  ∀ n row, lo < n → rows (D.delta s n).aic = some row → row.version < (D.delta s n).version

section AliveMap

variable {D : DeltaStream} {rows : String → Option AliveRow} {env : AliveDeltaEnvelope}
  {s : String} {n : ℕ}

theorem aliveMap_overwrite (rows : String → Option AliveRow) (env : AliveDeltaEnvelope) :
    aliveMap (overwrite rows env) = write AliveDeltaEnvelope.aic AliveDeltaEnvelope.entry
      (aliveMap rows) env := by
  funext a
  by_cases ha : a = env.aic
  · subst ha
    rw [write_self, aliveMap, overwrite_self, AliveDeltaEnvelope.entry]
    cases env.op with
    | upsert => rfl
    | delete => cases rows env.aic <;> rfl
  · rw [write_of_ne (Ne.symm ha), aliveMap, overwrite_of_ne ha, aliveMap]

theorem NotAhead.newer (h : NotAhead D rows s n) :
    newerThanRow rows (D.delta s (n + 1)) = true := by
  unfold newerThanRow
  cases hrow : rows (D.delta s (n + 1)).aic with
  | none => rfl
  | some row => simpa [passesVersion] using h (n + 1) row (Nat.lt_succ_self n) hrow

theorem NotAhead.next (h : NotAhead D rows s n) :
    NotAhead D (overwrite rows (D.delta s (n + 1))) s (n + 1) := by
  intro m row hm hrow
  by_cases ha : (D.delta s m).aic = (D.delta s (n + 1)).aic
  · rw [ha] at hrow
    rw [version_overwrite hrow]
    exact D.version_lt s (n + 1) m hm ha.symm
  · rw [overwrite_of_ne ha] at hrow
    exact h m row (by omega) hrow

theorem NotAhead.aliveMap_inOrder {lo : ℕ} (h : NotAhead D rows s lo) (k : ℕ) :
    aliveMap (inOrder rows (D.between s lo (lo + k))) =
      replay AliveDeltaEnvelope.aic AliveDeltaEnvelope.entry (aliveMap rows)
        (D.between s lo (lo + k)) ∧
      NotAhead D (inOrder rows (D.between s lo (lo + k))) s (lo + k) := by
  induction k with
  | zero =>
    rw [Nat.add_zero, between_self]
    exact ⟨rfl, h⟩
  | succ k ih =>
    obtain ⟨hmap, hnext⟩ := ih
    rw [← Nat.add_assoc, between_succ (Nat.le_add_right lo k), inOrder_concat,
      applyOnce_of_newer hnext.newer, replay_append]
    constructor
    · rw [aliveMap_overwrite, hmap]
      rfl
    · exact hnext.next

end AliveMap

theorem exactly_once (D : DeltaStream) (log : String → List ℕ) {st : AliveStore}
    {as : List Action} {c : Consumer} (hc : (consumer D log).exec (.start st) as = some c) :
    (∀ s a, D.shardOf a = s → c.store.rows a =
      inOrder c.base.rows (D.between s (c.base.lastSeen s) (c.store.lastSeen s)) a) ∧
    (c.polling → ∀ s a, D.shardOf a = s → c.store.rows a =
      inOrder c.base.rows (D.between s (c.base.lastSeen s) (c.engine.lastSeen s)) a) ∧
    (∀ s, NotAhead D c.base.rows s (c.base.lastSeen s) → ∀ a, D.shardOf a = s →
      aliveMap c.store.rows a =
        replay AliveDeltaEnvelope.aic AliveDeltaEnvelope.entry (aliveMap c.base.rows)
          (D.between s (c.base.lastSeen s) (c.store.lastSeen s)) a) ∧
    (∀ env off commit, (∃ s expected got,
        (applyDelta c.engine c.store env off commit).result = .gapDetected s expected got) ↔
      c.engine.lastSeen env.shard + 1 < env.seq) ∧
    (∀ env off commit, (applyDelta c.engine c.store env off commit).result = .storeFailed →
      (applyDelta c.engine c.store env off commit).engine = c.engine) ∧
    ∀ snap commit, (applySnapshot c.engine c.store snap commit).1 = false →
      (applySnapshot c.engine c.store snap commit).2.1 = c.engine := by
  have h := exact_exec st hc
  refine ⟨?_, ?_, ?_, ?_, ?_, ?_⟩
  · intro s a ha
    exact (h.persisted s).rows a ha
  · intro hp s a ha
    exact (h.consumed hp s).rows a ha
  · intro s hahead a ha
    obtain ⟨k, hk⟩ := Nat.exists_eq_add_of_le (h.persisted s).base_le
    rw [hk]
    rw [← (hahead.aliveMap_inOrder k).1]
    have hrow := (h.persisted s).rows a ha
    rw [hk] at hrow
    unfold aliveMap
    rw [hrow]
  · intro env off commit
    constructor
    · rintro ⟨s, expected, got, hres⟩
      exact (gapDetected_iff.mp hres).1
    · intro hlt
      exact ⟨_, _, _, gapDetected_iff.mpr ⟨hlt, rfl, rfl, rfl⟩⟩
  · intro env off commit hres
    exact engine_of_storeFailed hres
  · intro snap commit hfalse
    exact engine_of_not_applied hfalse

section Redelivery

def alternating : DeltaStream where
  delta s n := ⟨s, n, s, n, if n % 3 = 0 then .delete else .upsert, some "t"⟩
  shardOf s := s
  shard_delta _ _ := rfl
  seq_delta _ _ := rfl
  shardOf_aic _ _ := rfl
  version_lt _ _ _ h _ := h

def firstSnapshot : AliveSnapshot := ⟨[("hb-000", 0)], "t0", [], by decide⟩

def redeliveryRun : List Action :=
  [.bootstrap firstSnapshot .done (fun _ => 0), .poll "hb-000" .done, .poll "hb-000" .lost,
    .crash, .resume true (fun _ => 0), .poll "hb-000" .done, .poll "hb-000" .failed,
    .resume true (fun _ => 0), .seek "hb-000" 0, .poll "hb-000" .done, .poll "hb-000" .done,
    .poll "hb-000" .done, .poll "hb-000" .done]

theorem exactly_once_redelivered :
    ∃ c, (consumer alternating (fun _ => [1, 2, 1, 3])).exec (.start .empty) redeliveryRun =
        some c ∧ c.store.lastSeen "hb-000" = 3 ∧
      ∀ s a, alternating.shardOf a = s → c.store.rows a = inOrder c.base.rows
        (alternating.between s (c.base.lastSeen s) (c.store.lastSeen s)) a := by
  have hrun : ((consumer alternating (fun _ => [1, 2, 1, 3])).exec (.start .empty)
      redeliveryRun).any (fun c => c.store.lastSeen "hb-000" = 3) = true := by decide +kernel
  obtain ⟨c, hc, hseen⟩ := (Option.any_eq_true _ _).mp hrun
  exact ⟨c, hc, of_decide_eq_true hseen, (exactly_once alternating _ hc).1⟩

end Redelivery

end Acps.AliveSync
