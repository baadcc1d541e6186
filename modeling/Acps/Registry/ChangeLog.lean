import Acps.Dsp.Envelope
import Acps.Lib.Paging
import Mathlib.Data.List.Forall2

/-!
The change log of the registry: the global sequence, retention, and the incremental feed.
-/

namespace Acps.Registry

open Dsp Paging

inductive Payload where
  | obj (o : JsonObject)
  | text (s : String)
  deriving DecidableEq

structure ChangeLog where
  seq : ℤ
  ts : Timestamp
  type : String
  op : OperationType
  id : String
  version : ℤ
  payload : Option Payload
  deriving DecidableEq

inductive SyncErrorCode where
  | retentionWindowExceeded
  | changesQueryFailed
  | snapshotCreateFailed
  deriving DecidableEq

structure SyncError where
  statusCode : ℕ
  errorName : SyncErrorCode
  inputParams : List (String × ℤ)
  deriving DecidableEq

inductive Failure where
  | sync (error : SyncError)
  | validation
  | zeroDivision
  deriving DecidableEq

def isGone {α : Type} : Except Failure α → Bool
  | .error (.sync e) => e.statusCode = 410
  | _ => false

section Decoding

variable (loads : String → Option Json)

def buildEnvelope (item : ChangeLog) : Except Failure (Option Envelope) :=
  let envelope (payload : Option JsonObject) : Envelope :=
    ⟨item.seq, some item.ts, some item.op, item.type, item.id, item.version, payload⟩
  match item.payload with
  | none => .ok (some (envelope none))
  | some (.obj o) => .ok (some (envelope (some o)))
  | some (.text s) =>
    match loads s with
    | none => .ok none
    | some .null => .ok (some (envelope none))
    | some (.obj o) => .ok (some (envelope (some o)))
    | some _ => .error .validation

def buildEnvelopes : List ChangeLog → Except Failure (List Envelope)
  | [] => .ok []
  | item :: items => do
    match ← buildEnvelope loads item with
    | none => buildEnvelopes items
    | some e => return e :: (← buildEnvelopes items)

def buildChangesResult : List ChangeLog → ℤ → Except Failure (List Envelope × ℤ)
  | [], nextSeq => .ok ([], nextSeq)
  | change :: changes, nextSeq => do
    match ← buildEnvelope loads change with
    | none => buildChangesResult changes nextSeq
    | some e =>
      let (envelopes, last) ← buildChangesResult changes e.seq
      return (e :: envelopes, last)

def oldestSeq (table : List ChangeLog) : Option ℤ := (table.map ChangeLog.seq).min?

def retentionWindowExceeded (seq oldest : ℤ) : Failure :=
  .sync ⟨410, .retentionWindowExceeded, [("requested_seq", seq), ("oldest_seq", oldest)]⟩

def isTooOld (table : List ChangeLog) (seq : ℤ) : Option ℤ :=
  (oldestSeq table).filter (fun oldest => oldest ≠ 0 ∧ seq < oldest)

def matchesTypes (types : Option (List String)) (c : ChangeLog) : Bool :=
  match types with
  | none | some [] => true
  | some ts => c.type ∈ ts

def selectChanges (table : List ChangeLog) (seq : Option ℤ) (limit : ℕ)
    (types : Option (List String)) : List ChangeLog :=
  (orderBy ChangeLog.seq (table.filter fun c => seq.all (· < c.seq) ∧ matchesTypes types c)).take limit

def changesPage (table : List ChangeLog) (seq : Option ℤ) (limit : ℤ)
    (types : Option (List String)) : Except Failure (List Envelope × ℤ) :=
  -- PostgreSQL rejects a negative LIMIT
  if limit < 0 then .error (.sync ⟨500, .changesQueryFailed, [("limit", limit)]⟩)
  else buildChangesResult loads (selectChanges table seq limit.toNat types) (seq.getD 0)

def getChanges (table : List ChangeLog) (seq : Option ℤ) (limit : ℤ)
    (types : Option (List String)) : Except Failure (List Envelope × ℤ) :=
  match seq.bind (fun s => (isTooOld table s).map (fun oldest => (s, oldest))) with
  | some (s, oldest) => .error (retentionWindowExceeded s oldest)
  | none => changesPage loads table seq limit types

end Decoding

section Retention

structure LogState where
  globalSeq : ℤ
  changeLog : List ChangeLog
  everAppended : List ChangeLog

def LogState.empty : LogState := ⟨0, [], []⟩

def generateNextSeq (st : LogState) : ℤ × LogState :=
  (st.globalSeq + 1, { st with globalSeq := st.globalSeq + 1 })

def LogState.insert (st : LogState) (c : ChangeLog) : LogState :=
  { st with changeLog := st.changeLog ++ [c], everAppended := st.everAppended ++ [c] }

def createChangeLog (st : LogState) (now : Timestamp) (dataType objectId : String) (version : ℤ)
    (payload : Option Payload) (op : OperationType) (seq : Option ℤ) : ℤ × LogState :=
  let (newSeq, st') := match seq with
    | some q => (q, st)
    | none => generateNextSeq st
  (newSeq, st'.insert ⟨newSeq, now, dataType, op, objectId, version, payload⟩)

def keepSeqThreshold (table : List ChangeLog) (maxRecords : ℤ) : Option ℤ :=
  (((orderBy ChangeLog.seq table).reverse.drop (maxRecords - 1).toNat).head?).map ChangeLog.seq

def cleanupOldChangelogEntries (table : List ChangeLog) (now windowHours maxRecords : ℤ) :
    Except Failure (List ChangeLog) :=
  let cutoff := now - windowHours * 3600 * 1000000
  let recent := table.filter (fun c => ¬ c.ts < cutoff)
  if maxRecords < recent.length then
    if maxRecords < 1 then .error (.sync ⟨500, .changesQueryFailed, [("max_records", maxRecords)]⟩)
    else match keepSeqThreshold recent maxRecords with
      -- a threshold of zero counts as no threshold at all
      | some threshold =>
        if threshold = 0 then .ok recent else .ok (recent.filter (fun c => ¬ c.seq < threshold))
      | none => .ok recent
  else .ok recent

inductive LogOp where
  /-- A sequence value taken by a transaction that is rolled back. -/
  | burn
  | append (now : Timestamp) (dataType objectId : String) (version : ℤ) (payload : Option Payload)
      (op : OperationType)
  | cleanup (now windowHours maxRecords : ℤ)

def LogState.cleanup (st : LogState) (now windowHours maxRecords : ℤ) : LogState :=
  match cleanupOldChangelogEntries st.changeLog now windowHours maxRecords with
  | .ok table => { st with changeLog := table }
  | .error _ => st

def LogState.perform (st : LogState) : LogOp → LogState
  | .burn => (generateNextSeq st).2
  | .append now dataType objectId version payload op =>
    (createChangeLog st now dataType objectId version payload op none).2
  | .cleanup now windowHours maxRecords => st.cleanup now windowHours maxRecords

def LogState.run (st : LogState) (ops : List LogOp) : LogState := ops.foldl LogState.perform st

end Retention

theorem buildEnvelope_seq {loads : String → Option Json} {c : ChangeLog} {e : Envelope}
    (h : buildEnvelope loads c = .ok (some e)) : e.seq = c.seq := by
  unfold buildEnvelope at h
  split at h
  · simp only [Except.ok.injEq, Option.some.injEq] at h; rw [← h]
  · simp only [Except.ok.injEq, Option.some.injEq] at h; rw [← h]
  · split at h <;> simp only [Except.ok.injEq, Option.some.injEq, reduceCtorEq] at h <;> rw [← h]

structure LogState.Valid (st : LogState) : Prop where
  ascending : Ascending ChangeLog.seq st.everAppended
  bounded : ∀ c ∈ st.everAppended, 0 < c.seq ∧ c.seq ≤ st.globalSeq
  retained : List.Sublist st.changeLog st.everAppended
  nonneg : 0 ≤ st.globalSeq

namespace LogState.Valid

variable {st : LogState}

theorem ascending_changeLog (h : st.Valid) : Ascending ChangeLog.seq st.changeLog :=
  List.Pairwise.sublist h.retained h.ascending

theorem pos (h : st.Valid) {c : ChangeLog} (hc : c ∈ st.changeLog) : 0 < c.seq :=
  (h.bounded c (h.retained.subset hc)).1

theorem generateNextSeq (h : st.Valid) : (generateNextSeq st).2.Valid where
  ascending := h.ascending
  bounded c hc := ⟨(h.bounded c hc).1, (h.bounded c hc).2.trans (Int.le_add_one le_rfl)⟩
  retained := h.retained
  nonneg := by have := h.nonneg; simp only [Registry.generateNextSeq]; omega

theorem insert (h : st.Valid) {c : ChangeLog} (hnew : ∀ d ∈ st.everAppended, d.seq < c.seq)
    (hpos : 0 < c.seq) (hle : c.seq ≤ st.globalSeq) : (st.insert c).Valid where
  ascending := ascending_append h.ascending hnew
  bounded d hd := by
    rcases List.mem_append.mp hd with hd | hd
    · exact h.bounded d hd
    · obtain rfl := List.mem_singleton.mp hd
      exact ⟨hpos, hle⟩
  retained := h.retained.append_right [c]
  nonneg := h.nonneg

theorem createChangeLog (h : st.Valid) (now : Timestamp) (dataType objectId : String) (version : ℤ)
    (payload : Option Payload) (op : OperationType) :
    (createChangeLog st now dataType objectId version payload op none).2.Valid := by
  apply h.generateNextSeq.insert
  · intro d hd
    have := (h.bounded d hd).2
    dsimp only
    omega
  · have := h.nonneg
    dsimp only
    omega
  · exact le_rfl

theorem cleanup_sublist (table : List ChangeLog) (now windowHours maxRecords : ℤ)
    {rest : List ChangeLog}
    (h : cleanupOldChangelogEntries table now windowHours maxRecords = .ok rest) :
    List.Sublist rest table := by
  unfold cleanupOldChangelogEntries at h
  dsimp only at h
  split at h
  · split at h
    · simp at h
    · split at h
      · split at h <;> obtain rfl := Except.ok.inj h
        · exact List.filter_sublist
        · exact List.filter_sublist.trans List.filter_sublist
      · obtain rfl := Except.ok.inj h
        exact List.filter_sublist
  · obtain rfl := Except.ok.inj h
    exact List.filter_sublist

theorem cleanup (h : st.Valid) (now windowHours maxRecords : ℤ) :
    (st.cleanup now windowHours maxRecords).Valid := by
  unfold LogState.cleanup
  split
  · next table hok =>
    exact ⟨h.ascending, h.bounded, (cleanup_sublist _ _ _ _ hok).trans h.retained, h.nonneg⟩
  · exact h

theorem perform (h : st.Valid) (op : LogOp) : (st.perform op).Valid := by
  cases op with
  | burn => exact h.generateNextSeq
  | append now dataType objectId version payload op => exact h.createChangeLog ..
  | cleanup now windowHours maxRecords => exact h.cleanup ..

theorem run (h : st.Valid) (ops : List LogOp) : (st.run ops).Valid := by
  induction ops generalizing st with
  | nil => exact h
  | cons op ops ih => exact ih (h.perform op)

end LogState.Valid

theorem LogState.cleanup_globalSeq (st : LogState) (now windowHours maxRecords : ℤ) :
    (st.cleanup now windowHours maxRecords).globalSeq = st.globalSeq := by
  unfold LogState.cleanup
  split <;> rfl

theorem LogState.valid_empty : LogState.empty.Valid where
  ascending := List.Pairwise.nil
  bounded := by simp [LogState.empty]
  retained := List.Sublist.refl _
  nonneg := le_rfl

end Acps.Registry
