import Mathlib.Data.List.Nodup
import Mathlib.Logic.Function.Basic

/-!
The alive-sync engine of a consumer: its watermarks in memory, the rows and checkpoints in
its database, and the decision on each delta. A write of the store is one transaction.
-/

namespace Acps.AliveSync

inductive DeltaOp where
  | upsert
  | delete
  deriving DecidableEq

structure AliveDeltaEnvelope where
  shard : String
  seq : ℕ
  aic : String
  version : ℕ
  op : DeltaOp
  lastSeenAt : Option String
  deriving DecidableEq

inductive DeltaDecision where
  | applyUpsert
  | applyDelete
  | skipSeqGate
  | skipVersion
  | gap
  deriving DecidableEq

def passesSeqGate (seq lastSeenSeq : ℕ) : Bool := decide (lastSeenSeq < seq)

def isGap (seq lastSeenSeq : ℕ) : Bool := decide (lastSeenSeq + 1 < seq)

def passesVersion (version : ℕ) (localVersion : Option ℕ) : Bool :=
  match localVersion with
  | none => true
  | some v => decide (v < version)

def classifyDelta (env : AliveDeltaEnvelope) (lastSeenSeq : ℕ) (localVersion : Option ℕ) :
    DeltaDecision :=
  if !passesSeqGate env.seq lastSeenSeq then .skipSeqGate
  else if isGap env.seq lastSeenSeq then .gap
  else if !passesVersion env.version localVersion then .skipVersion
  else match env.op with
    | .upsert => .applyUpsert
    | .delete => .applyDelete

structure AliveRow where
  alive : Bool
  lastSeenAt : Option String
  version : ℕ
  shard : String
  deriving DecidableEq

structure ShardCheckpoint where
  shard : String
  lastSeenSeq : ℕ
  cutoverSeq : ℕ
  kafkaNextOffset : Option ℕ
  snapshotGeneratedAt : Option String
  deriving DecidableEq

structure AliveStore where
  rows : String → Option AliveRow
  checkpoints : List ShardCheckpoint

namespace AliveStore

def empty : AliveStore := ⟨fun _ => none, []⟩

def checkpoint (st : AliveStore) (shard : String) : Option ShardCheckpoint :=
  st.checkpoints.find? (fun cp => cp.shard = shard)

def lastSeen (st : AliveStore) (shard : String) : ℕ :=
  ((st.checkpoint shard).map ShardCheckpoint.lastSeenSeq).getD 0

def upsertCheckpoint (st : AliveStore) (shard : String) (lastSeenSeq : ℕ)
    (kafkaNextOffset : Option ℕ) : AliveStore :=
  { st with
    checkpoints := match st.checkpoint shard with
      | none => st.checkpoints ++ [⟨shard, lastSeenSeq, 0, kafkaNextOffset, none⟩]
      | some _ => st.checkpoints.map fun cp =>
        if cp.shard = shard then
          { cp with
            lastSeenSeq := lastSeenSeq
            kafkaNextOffset := kafkaNextOffset.or cp.kafkaNextOffset }
        else cp }

def setRow (st : AliveStore) (aic : String) (row : AliveRow) : AliveStore :=
  { st with rows := Function.update st.rows aic (some row) }

def applyUpsert (st : AliveStore) (aic : String) (record : AliveRow) (shard : String)
    (lastSeenSeq : ℕ) (kafkaNextOffset : Option ℕ) : AliveStore :=
  (st.setRow aic record).upsertCheckpoint shard lastSeenSeq kafkaNextOffset

def applyDelete (st : AliveStore) (aic shard : String) (lastSeenSeq : ℕ)
    (kafkaNextOffset : Option ℕ) (version : ℕ) : AliveStore :=
  (match st.rows aic with
    | none => st
    | some row => st.setRow aic { row with alive := false, version := version }).upsertCheckpoint
      shard lastSeenSeq kafkaNextOffset

end AliveStore

structure AliveSyncEngine where
  lastSeenSeq : String → Option ℕ
  localVersion : String → Option ℕ
  cutoverSeq : String → Option ℕ

namespace AliveSyncEngine

def fresh : AliveSyncEngine := ⟨fun _ => none, fun _ => none, fun _ => none⟩

def lastSeen (e : AliveSyncEngine) (shard : String) : ℕ := (e.lastSeenSeq shard).getD 0

def see (e : AliveSyncEngine) (shard : String) (seq : ℕ) : AliveSyncEngine :=
  { e with lastSeenSeq := Function.update e.lastSeenSeq shard (some seq) }

def setVersion (e : AliveSyncEngine) (aic : String) (version : ℕ) : AliveSyncEngine :=
  { e with localVersion := Function.update e.localVersion aic (some version) }

def loadCheckpoints (e : AliveSyncEngine) (st : AliveStore) : AliveSyncEngine :=
  { e with
    lastSeenSeq := fun shard => (st.checkpoint shard).map ShardCheckpoint.lastSeenSeq
    cutoverSeq := fun shard => (st.checkpoint shard).map ShardCheckpoint.cutoverSeq }

def loadLocalVersions (e : AliveSyncEngine) (st : AliveStore) : AliveSyncEngine :=
  { e with localVersion := fun aic => (st.rows aic).map AliveRow.version }

def hydrate (e : AliveSyncEngine) (st : AliveStore) : Option AliveSyncEngine :=
  if st.checkpoints = [] then none else some ((e.loadCheckpoints st).loadLocalVersions st)

end AliveSyncEngine

inductive Commit where
  | done
  | lost
  | failed
  deriving DecidableEq

inductive DeltaResult where
  | decided (d : DeltaDecision)
  | gapDetected (shard : String) (expectedSeq gotSeq : ℕ)
  | storeFailed
  deriving DecidableEq

structure DeltaOutcome where
  result : DeltaResult
  engine : AliveSyncEngine
  store : AliveStore

open AliveSyncEngine AliveStore

def persist (decision : DeltaDecision) (e e' : AliveSyncEngine) (st st' : AliveStore) :
    Commit → DeltaOutcome
  | .done => ⟨.decided decision, e', st'⟩
  | .lost => ⟨.storeFailed, e, st'⟩
  | .failed => ⟨.storeFailed, e, st⟩

def aliveRecord (env : AliveDeltaEnvelope) : AliveRow :=
  ⟨true, env.lastSeenAt, env.version, env.shard⟩

def applyDelta (e : AliveSyncEngine) (st : AliveStore) (env : AliveDeltaEnvelope)
    (kafkaNextOffset : Option ℕ) (commit : Commit) : DeltaOutcome :=
  let lastSeen := e.lastSeen env.shard
  let e' := (e.see env.shard env.seq).setVersion env.aic env.version
  match classifyDelta env lastSeen (e.localVersion env.aic) with
  | .gap => ⟨.gapDetected env.shard (lastSeen + 1) env.seq, e, st⟩
  | .applyUpsert =>
    persist .applyUpsert e e' st
      (st.applyUpsert env.aic (aliveRecord env) env.shard env.seq kafkaNextOffset) commit
  | .applyDelete =>
    persist .applyDelete e e' st
      (st.applyDelete env.aic env.shard env.seq kafkaNextOffset env.version) commit
  | decision => ⟨.decided decision, e.see env.shard (max lastSeen env.seq), st⟩

structure AliveSnapshot where
  cutoverSeqByShard : List (String × ℕ)
  generatedAt : String
  rows : List AliveDeltaEnvelope
  shards_nodup : (cutoverSeqByShard.map Prod.fst).Nodup

def snapshotCheckpoint (generatedAt : String) (c : String × ℕ) : ShardCheckpoint :=
  ⟨c.1, c.2, c.2, none, some generatedAt⟩

def replaceAliveSet (snap : AliveSnapshot) : Option AliveStore :=
  if (snap.rows.map AliveDeltaEnvelope.aic).Nodup then
    some
      { rows := fun aic => (snap.rows.find? (fun env => env.aic = aic)).map aliveRecord
        checkpoints := snap.cutoverSeqByShard.map (snapshotCheckpoint snap.generatedAt) }
  else none

def snapshotEngine (snap : AliveSnapshot) : AliveSyncEngine :=
  let cutover := fun shard =>
    (snap.cutoverSeqByShard.find? (fun c => c.1 = shard)).map Prod.snd
  { lastSeenSeq := cutover
    localVersion := fun aic =>
      (snap.rows.find? (fun env => env.aic = aic)).map AliveDeltaEnvelope.version
    cutoverSeq := cutover }

def applySnapshot (e : AliveSyncEngine) (st : AliveStore) (snap : AliveSnapshot) :
    Commit → Bool × AliveSyncEngine × AliveStore
  | .done => match replaceAliveSet snap with
    | none => (false, e, st)
    | some st' => (true, snapshotEngine snap, st')
  | .lost => (false, e, (replaceAliveSet snap).getD st)
  | .failed => (false, e, st)

section Facts

variable {e : AliveSyncEngine} {st : AliveStore} {env : AliveDeltaEnvelope} {off : Option ℕ}

theorem lastSeen_see (e : AliveSyncEngine) (shard : String) (seq : ℕ) :
    (e.see shard seq).lastSeen = Function.update e.lastSeen shard seq := by
  funext s
  unfold see AliveSyncEngine.lastSeen
  dsimp only
  rw [Function.update_apply, Function.update_apply]
  split <;> rfl

@[simp] theorem localVersion_see (e : AliveSyncEngine) (shard : String) (seq : ℕ) :
    (e.see shard seq).localVersion = e.localVersion := rfl

@[simp] theorem lastSeen_setVersion (e : AliveSyncEngine) (aic : String) (v : ℕ) :
    (e.setVersion aic v).lastSeen = e.lastSeen := rfl

@[simp] theorem localVersion_setVersion_self (e : AliveSyncEngine) (aic : String) (v : ℕ) :
    (e.setVersion aic v).localVersion aic = some v := Function.update_self ..

theorem localVersion_setVersion_of_ne {a aic : String} (h : a ≠ aic) (e : AliveSyncEngine) (v : ℕ) :
    (e.setVersion aic v).localVersion a = e.localVersion a := Function.update_of_ne h ..

@[simp] theorem rows_upsertCheckpoint (st : AliveStore) (shard : String) (seq : ℕ)
    (off : Option ℕ) : (st.upsertCheckpoint shard seq off).rows = st.rows := rfl

theorem checkpoint_upsertCheckpoint (st : AliveStore) (shard : String) (seq : ℕ) (off : Option ℕ)
    (s : String) : (st.upsertCheckpoint shard seq off).checkpoint s =
      if s = shard then
        some
          { shard := shard
            lastSeenSeq := seq
            cutoverSeq := ((st.checkpoint shard).map ShardCheckpoint.cutoverSeq).getD 0
            kafkaNextOffset := off.or ((st.checkpoint shard).bind ShardCheckpoint.kafkaNextOffset)
            snapshotGeneratedAt :=
              (st.checkpoint shard).bind ShardCheckpoint.snapshotGeneratedAt }
      else st.checkpoint s := by
  cases hcp : st.checkpoint shard with
  | none =>
    unfold upsertCheckpoint
    rw [hcp]
    unfold checkpoint at hcp ⊢
    dsimp only
    rw [List.find?_append]
    split
    · next hs =>
      subst hs
      rw [hcp]
      simp
    · next hs => simp [Ne.symm hs]
  | some cp =>
    have hshard : cp.shard = shard := by simpa using List.find?_some hcp
    unfold upsertCheckpoint
    rw [hcp]
    unfold checkpoint at hcp ⊢
    dsimp only
    rw [List.find?_map]
    have hcomp : ((fun c : ShardCheckpoint => decide (c.shard = s)) ∘ fun c : ShardCheckpoint =>
        if c.shard = shard then
          { c with lastSeenSeq := seq, kafkaNextOffset := off.or c.kafkaNextOffset } else c) =
        fun c => decide (c.shard = s) := by
      funext c
      dsimp only [Function.comp]
      split <;> rfl
    rw [hcomp]
    split
    · next hs =>
      subst hs
      rw [hcp]
      simp [hshard]
    · next hs =>
      cases hfind : st.checkpoints.find? (fun c => decide (c.shard = s)) with
      | none => rfl
      | some c =>
        have hc : c.shard = s := by simpa using List.find?_some hfind
        have hne : c.shard ≠ shard := hc ▸ hs
        rw [Option.map_some, if_neg hne]

theorem lastSeen_upsertCheckpoint (st : AliveStore) (shard : String) (seq : ℕ) (off : Option ℕ)
    (s : String) : (st.upsertCheckpoint shard seq off).lastSeen s =
      if s = shard then seq else st.lastSeen s := by
  unfold AliveStore.lastSeen
  rw [checkpoint_upsertCheckpoint]
  split <;> rfl

theorem lastSeen_applyUpsert (st : AliveStore) (aic : String) (record : AliveRow) (shard : String)
    (seq : ℕ) (off : Option ℕ) (s : String) :
    (st.applyUpsert aic record shard seq off).lastSeen s =
      if s = shard then seq else st.lastSeen s := lastSeen_upsertCheckpoint ..

theorem lastSeen_applyDelete (st : AliveStore) (aic shard : String) (seq : ℕ) (off : Option ℕ)
    (version : ℕ) (s : String) : (st.applyDelete aic shard seq off version).lastSeen s =
      if s = shard then seq else st.lastSeen s := by
  unfold AliveStore.applyDelete
  rw [lastSeen_upsertCheckpoint]
  cases st.rows aic <;> rfl

theorem rows_applyUpsert (st : AliveStore) (aic : String) (record : AliveRow) (shard : String)
    (seq : ℕ) (off : Option ℕ) :
    (st.applyUpsert aic record shard seq off).rows =
      Function.update st.rows aic (some record) := rfl

theorem rows_applyDelete (st : AliveStore) (aic shard : String) (seq : ℕ) (off : Option ℕ)
    (version : ℕ) : (st.applyDelete aic shard seq off version).rows =
      Function.update st.rows aic
        ((st.rows aic).map fun row => { row with alive := false, version := version }) := by
  unfold AliveStore.applyDelete
  rw [rows_upsertCheckpoint]
  cases h : st.rows aic with
  | none =>
    funext a
    by_cases ha : a = aic
    · subst ha
      rw [h, Option.map_none, Function.update_self]
    · rw [Function.update_of_ne ha]
  | some row => rfl

theorem lastSeen_hydrate {e' : AliveSyncEngine} (h : e.hydrate st = some e') :
    e'.lastSeen = st.lastSeen := by
  unfold hydrate at h
  split at h
  · cases h
  · obtain rfl := Option.some.inj h
    rfl

theorem localVersion_hydrate {e' : AliveSyncEngine} (h : e.hydrate st = some e') (aic : String) :
    e'.localVersion aic = (st.rows aic).map AliveRow.version := by
  unfold hydrate at h
  split at h
  · cases h
  · obtain rfl := Option.some.inj h
    rfl

theorem classifyDelta_cases (env : AliveDeltaEnvelope) (lastSeenSeq : ℕ) (v : Option ℕ) :
    (classifyDelta env lastSeenSeq v = .skipSeqGate ∧ env.seq ≤ lastSeenSeq) ∨
    (classifyDelta env lastSeenSeq v = .gap ∧ lastSeenSeq + 1 < env.seq) ∨
    (classifyDelta env lastSeenSeq v = .skipVersion ∧ env.seq = lastSeenSeq + 1 ∧
      passesVersion env.version v = false) ∨
    (classifyDelta env lastSeenSeq v =
        (match env.op with | .upsert => .applyUpsert | .delete => .applyDelete) ∧
      env.seq = lastSeenSeq + 1 ∧ passesVersion env.version v = true) := by
  unfold classifyDelta passesSeqGate isGap
  by_cases hgate : lastSeenSeq < env.seq
  · by_cases hgap : lastSeenSeq + 1 < env.seq
    · exact .inr (.inl ⟨by simp [hgate, hgap], hgap⟩)
    · have hseq : env.seq = lastSeenSeq + 1 := by omega
      cases hver : passesVersion env.version v with
      | false => exact .inr (.inr (.inl ⟨by simp [hgate, hgap], hseq, rfl⟩))
      | true => exact .inr (.inr (.inr ⟨by simp [hgate, hgap], hseq, rfl⟩))
  · exact .inl ⟨by simp [hgate], Nat.not_lt.mp hgate⟩

def overwrite (rows : String → Option AliveRow) (env : AliveDeltaEnvelope) :
    String → Option AliveRow :=
  Function.update rows env.aic <| match env.op with
    | .upsert => some (aliveRecord env)
    | .delete => (rows env.aic).map fun row => { row with alive := false, version := env.version }

structure Written (st : AliveStore) (env : AliveDeltaEnvelope) (st' : AliveStore) : Prop where
  rows : st'.rows = overwrite st.rows env
  lastSeen : st'.lastSeen = Function.update st.lastSeen env.shard env.seq

theorem written_applyUpsert (h : env.op = .upsert) : Written st env
    (st.applyUpsert env.aic (aliveRecord env) env.shard env.seq off) := by
  constructor
  · rw [rows_applyUpsert, overwrite, h]
  · funext s
    rw [lastSeen_applyUpsert, Function.update_apply]

theorem written_applyDelete (h : env.op = .delete) : Written st env
    (st.applyDelete env.aic env.shard env.seq off env.version) := by
  constructor
  · rw [rows_applyDelete, overwrite, h]
  · funext s
    rw [lastSeen_applyDelete, Function.update_apply]

structure Expects (e : AliveSyncEngine) (env : AliveDeltaEnvelope) : Prop where
  seq : env.seq = e.lastSeen env.shard + 1
  version : passesVersion env.version (e.localVersion env.aic) = true

inductive Effect (e : AliveSyncEngine) (st : AliveStore) (env : AliveDeltaEnvelope) :
    Commit → DeltaOutcome → Prop where
  | gated {commit : Commit} (h : env.seq ≤ e.lastSeen env.shard) :
    Effect e st env commit
      ⟨.decided .skipSeqGate, e.see env.shard (e.lastSeen env.shard), st⟩
  | gap {commit : Commit} (h : e.lastSeen env.shard + 1 < env.seq) :
    Effect e st env commit
      ⟨.gapDetected env.shard (e.lastSeen env.shard + 1) env.seq, e, st⟩
  | skipped {commit : Commit} (hseq : env.seq = e.lastSeen env.shard + 1)
    (hver : passesVersion env.version (e.localVersion env.aic) = false) :
    Effect e st env commit ⟨.decided .skipVersion, e.see env.shard env.seq, st⟩
  | written (d : DeltaDecision) (st' : AliveStore) (hexp : Expects e env)
    (h : Written st env st') : Effect e st env .done
      ⟨.decided d, (e.see env.shard env.seq).setVersion env.aic env.version, st'⟩
  | lost (st' : AliveStore) (hexp : Expects e env) (h : Written st env st') :
    Effect e st env .lost ⟨.storeFailed, e, st'⟩
  | failed (hexp : Expects e env) : Effect e st env .failed ⟨.storeFailed, e, st⟩

theorem effect_persist (d : DeltaDecision) {st' : AliveStore} (hexp : Expects e env)
    (h : Written st env st') (commit : Commit) : Effect e st env commit
      (persist d e ((e.see env.shard env.seq).setVersion env.aic env.version) st st' commit) := by
  cases commit with
  | done => exact .written d st' hexp h
  | lost => exact .lost st' hexp h
  | failed => exact .failed hexp

theorem applyDelta_effect (e : AliveSyncEngine) (st : AliveStore) (env : AliveDeltaEnvelope)
    (off : Option ℕ) (commit : Commit) :
    Effect e st env commit (applyDelta e st env off commit) := by
  unfold applyDelta
  dsimp only
  rcases classifyDelta_cases env (e.lastSeen env.shard) (e.localVersion env.aic) with
    ⟨h, hle⟩ | ⟨h, hlt⟩ | ⟨h, hseq, hver⟩ | ⟨h, hseq, hver⟩
  · rw [h]
    dsimp only
    rw [Nat.max_eq_left hle]
    exact .gated hle
  · rw [h]
    exact .gap hlt
  · rw [h]
    dsimp only
    rw [Nat.max_eq_right (by omega)]
    exact .skipped hseq hver
  · rw [h]
    cases hop : env.op with
    | upsert => exact effect_persist _ ⟨hseq, hver⟩ (written_applyUpsert hop) commit
    | delete => exact effect_persist _ ⟨hseq, hver⟩ (written_applyDelete hop) commit

theorem gapDetected_iff {commit : Commit} {shard : String} {expected got : ℕ} :
    (applyDelta e st env off commit).result = .gapDetected shard expected got ↔
      e.lastSeen env.shard + 1 < env.seq ∧ shard = env.shard ∧
        expected = e.lastSeen env.shard + 1 ∧ got = env.seq := by
  have heff := applyDelta_effect e st env off commit
  generalize applyDelta e st env off commit = out at heff ⊢
  cases heff with
  | gap h => simp [h, eq_comm]
  | gated h => simp [Nat.not_lt.mpr (show env.seq ≤ e.lastSeen env.shard + 1 by omega)]
  | skipped hseq hver => simp [hseq]
  | written d st' hexp h => simp [hexp.seq]
  | lost st' hexp h => simp [hexp.seq]
  | failed hexp => simp [hexp.seq]

theorem engine_of_storeFailed {commit : Commit}
    (h : (applyDelta e st env off commit).result = .storeFailed) :
    (applyDelta e st env off commit).engine = e := by
  have heff := applyDelta_effect e st env off commit
  generalize applyDelta e st env off commit = out at heff h ⊢
  cases heff <;> first | rfl | cases h

theorem engine_of_not_applied {snap : AliveSnapshot} {commit : Commit}
    (h : (applySnapshot e st snap commit).1 = false) :
    (applySnapshot e st snap commit).2.1 = e := by
  unfold applySnapshot at h ⊢
  cases commit with
  | done =>
    cases hset : replaceAliveSet snap with
    | none => rfl
    | some st' =>
      rw [hset] at h
      cases h
  | lost => rfl
  | failed => rfl

end Facts

end Acps.AliveSync
