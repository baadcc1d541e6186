import Acps.Discovery.ApplySteps
import Mathlib.Data.List.ReduceOption

/-!
One synchronization, cut at the points where it waits and other tasks may run. The client is one
whose state is initialised, as it is once the background synchronization has been started.
-/

namespace Acps.Discovery

open Dsp

structure Client where
  replica : Replica
  forceFullSnapshot : Bool

structure SnapshotInfo where
  seq : ℤ
  chunkTotal : ℤ

inductive SyncPoint where
  | clear
  /-- The rows are deleted, and the versions are still tracked. -/
  | forget
  | snapshotRequest (fromSeq : Option ℤ)
  | chunkRequest (info : SnapshotInfo) (chunk : ℤ)
  | snapshotRow (info : SnapshotInfo) (chunk : ℤ) (rest : List Envelope) (e : Envelope)
      (point : ApplyPoint)
  | snapshotDelete
  | indexing
  | log
  | changesRequest (seq : ℤ)
  | changesRow (seq : ℤ) (rest : List Envelope) (e : Envelope) (point : ApplyPoint)
  | done

inductive Reply where
  | ok
  | snapshot (info : SnapshotInfo) (rows : List Envelope)
  | chunk (rows : List Envelope)
  /-- The header `X-Next-Seq` and the lines of the body, where a line that does not parse is none. -/
  | changes (nextSeq : Option ℤ) (lines : List (Option Envelope))
  | gone

namespace Client

def fullSnapshotRequired (c : Client) : Bool :=
  c.forceFullSnapshot || c.replica.state.lastSeq.getD 0 = 0

def markSnapshotRequired (c : Client) : Client :=
  ⟨⟨{ c.replica.state with needsSnapshot := true }, c.replica.agents⟩, true⟩

def completeSnapshot (c : Client) (seq : ℤ) : Client :=
  ⟨⟨{ c.replica.state with lastSeq := some seq, needsSnapshot := false }, c.replica.agents⟩,
    c.forceFullSnapshot⟩

def syncOnce (c : Client) : SyncPoint :=
  if c.replica.state.needsSnapshot then
    if c.fullSnapshotRequired then .clear else .snapshotRequest c.replica.state.lastSeq
  else .changesRequest (c.replica.state.lastSeq.getD 0)

def pending (c : Client) (rows : List Envelope) : List Envelope :=
  rows.dropWhile fun e => !accepts c.replica e

def skipped (c : Client) (rows : List Envelope) : List Envelope :=
  rows.takeWhile fun e => !accepts c.replica e

def applySnapshotRows (c : Client) (info : SnapshotInfo) (chunk : ℤ) (rows : List Envelope) :
    Client × SyncPoint :=
  match c.pending rows with
  | e :: rest => (c, .snapshotRow info chunk rest e .select)
  | [] =>
    if chunk + 1 < info.chunkTotal then (c, .chunkRequest info (chunk + 1))
    else (c.completeSnapshot info.seq, .snapshotDelete)

def applyChangesRows (c : Client) (seq : ℤ) (rows : List Envelope) : SyncPoint :=
  match c.pending rows with
  | e :: rest => .changesRow seq rest e .select
  | [] => .changesRequest (c.replica.state.lastSeq.getD 0)

def processChangesResponse (c : Client) (nextSeq : Option ℤ) : Client :=
  match nextSeq with
  | some seq => ⟨updateLastSeq seq c.replica, c.forceFullSnapshot⟩
  | none => c

def receiveChanges (c : Client) (seq : ℤ) (nextSeq : Option ℤ) (lines : List (Option Envelope)) :
    Client × SyncPoint :=
  let c := c.processChangesResponse nextSeq
  match lines.mapM id with
  | none => (c, .done)
  | some [] => (c, .log)
  | some rows => (c, c.applyChangesRows seq rows)

def resume (c : Client) : SyncPoint → Reply → Option (Client × SyncPoint)
  | .clear, .ok => some (⟨⟨c.replica.state, ∅⟩, c.forceFullSnapshot⟩, .forget)
  | .forget, .ok =>
    some (⟨⟨{ c.replica.state with objectVersions := fun _ _ => none }, c.replica.agents⟩,
      c.forceFullSnapshot⟩, .snapshotRequest none)
  | .snapshotRequest _, .snapshot info rows => some (c.applySnapshotRows info 0 rows)
  | .chunkRequest info chunk, .chunk rows => some (c.applySnapshotRows info chunk rows)
  | .snapshotRow info chunk rest e point, .ok =>
    match resumeApply c.replica e point with
    | none => some (c, .done)
    | some (r, some point) =>
      some (⟨r, c.forceFullSnapshot⟩, .snapshotRow info chunk rest e point)
    | some (r, none) => some (applySnapshotRows ⟨r, c.forceFullSnapshot⟩ info chunk rest)
  | .snapshotDelete, .ok => some (c, .indexing)
  | .indexing, .ok => some (⟨c.replica, false⟩, .log)
  | .log, .ok => some (c, .done)
  | .changesRequest seq, .changes nextSeq lines => some (c.receiveChanges seq nextSeq lines)
  | .changesRequest _, .gone => some (c.markSnapshotRequired, c.markSnapshotRequired.syncOnce)
  | .changesRow seq rest e point, .ok =>
    match resumeApply c.replica e point with
    | none => some (c, .done)
    | some (r, some point) => some (⟨r, c.forceFullSnapshot⟩, .changesRow seq rest e point)
    | some (r, none) => some (⟨r, c.forceFullSnapshot⟩,
        applyChangesRows ⟨r, c.forceFullSnapshot⟩ seq rest)
  | _, _ => none

end Client

theorem reduceOption_of_mapM {lines : List (Option Envelope)} {rows : List Envelope}
    (h : lines.mapM id = some rows) : lines.reduceOption = rows := by
  induction lines generalizing rows with
  | nil =>
    obtain rfl : [] = rows := by simpa using h
    rfl
  | cons line lines ih =>
    rw [List.mapM_cons] at h
    cases line with
    | none => simp at h
    | some e =>
      obtain ⟨rest, hrest, rfl⟩ : ∃ rest, lines.mapM id = some rest ∧ e :: rest = rows := by
        simpa [Option.bind_eq_some_iff] using h
      rw [List.reduceOption_cons_of_some, ih hrest]

def Replica.Same (r r' : Replica) : Prop :=
  r.state = r'.state ∧ ∀ id, r.agents.lookup id = r'.agents.lookup id

section Alone

variable {r r' : Replica}

theorem accepts_congr (h : r.Same r') (e : Envelope) : accepts r e = accepts r' e := by
  rw [accepts, accepts, h.1]

def Client.resumes (c : Client) (p : SyncPoint) : ℕ → Option (Client × SyncPoint)
  | 0 => some (c, p)
  | n + 1 => (c.resume p .ok).bind fun next => next.1.resumes next.2 n

theorem Replica.Same.apply (h : r.Same r') {e : Envelope} (hacc : accepts r e = true)
    {written : Database}
    (hw : ∀ id, written.lookup id = (r.apply e).2.agents.lookup id) :
    Replica.Same ⟨(r.apply e).2.state, written⟩ (r'.apply e).2 := by
  have hacc' := accepts_congr h e ▸ hacc
  simp only [accepts, Bool.and_eq_true, decide_eq_true_eq] at hacc hacc'
  rw [apply_applied hacc.1 hacc.2] at hw ⊢
  rw [apply_applied hacc'.1 hacc'.2]
  refine ⟨by rw [h.1], fun id => ?_⟩
  rw [hw, lookup_applyToDatabase, lookup_applyToDatabase, h.2]

end Alone

end Acps.Discovery
