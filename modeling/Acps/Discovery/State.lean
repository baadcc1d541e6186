import Acps.Dsp.Envelope
import Acps.Lib.LastWriter
import Mathlib.Data.Int.Order.Basic
import Mathlib.Data.List.AList

/-!
The replica that a discovery server keeps: the `agents` table and the state of its sync client.
-/

namespace Acps.Discovery

open Dsp LastWriter

structure AgentRow where
  version : ℤ
  seq : ℤ
  acs : Option JsonObject
  deriving DecidableEq

abbrev Database := AList (fun _ : String => AgentRow)

structure DSPState where
  lastSeq : Option ℤ
  objectVersions : String → String → Option ℤ
  needsSnapshot : Bool

def DSPState.default : DSPState := ⟨none, fun _ _ => none, true⟩

structure Replica where
  state : DSPState
  agents : Database

def Replica.empty : Replica := ⟨.default, ∅⟩

def currentVersion (versions : String → String → Option ℤ) (type id : String) : ℤ :=
  (versions type id).getD 0

def shouldApplyEnvelope (versions : String → String → Option ℤ) (e : Envelope) : Bool :=
  currentVersion versions e.type e.id < e.version

def envelopeRow (e : Envelope) : AgentRow := ⟨e.version, e.seq, e.payload⟩

def applyToDatabase (agents : Database) (e : Envelope) : Database :=
  if e.isDelete then agents.erase e.id else agents.insert e.id (envelopeRow e)

def trackVersion (versions : String → String → Option ℤ) (e : Envelope) :
    String → String → Option ℤ :=
  Function.update versions e.type (Function.update (versions e.type) e.id
    (if e.isDelete then none else some e.version))

def clearLocalSnapshotData (r : Replica) : Replica :=
  ⟨{ r.state with objectVersions := fun _ _ => none }, ∅⟩

def updateLastSeq (seq : ℤ) (r : Replica) : Replica :=
  ⟨{ r.state with lastSeq := some seq }, r.agents⟩

def Replica.apply (r : Replica) (e : Envelope) : Bool × Replica :=
  if shouldApplyEnvelope r.state.objectVersions e = false then (false, r)
  else if e.type ≠ "acs" then (false, r)
  else (true, ⟨{ r.state with objectVersions := trackVersion r.state.objectVersions e },
    applyToDatabase r.agents e⟩)

def Replica.applyAll (r : Replica) (es : List Envelope) : Replica :=
  es.foldl (fun r e => (r.apply e).2) r

def Replica.Tracked (r : Replica) : Prop :=
  ∀ id, r.state.objectVersions "acs" id = (r.agents.lookup id).map AgentRow.version

def Replica.cell (r : Replica) (id : String) : Cell ℤ AgentRow :=
  (r.agents.lookup id).map fun row => (row.version, row)

def toWrite (e : Envelope) : Write ℤ AgentRow :=
  if e.isDelete then .remove e.version else .put e.version (envelopeRow e)

def isAcsOf (id : String) (e : Envelope) : Bool := e.type = "acs" ∧ e.id = id

def acsWrites (id : String) (es : List Envelope) : List (Write ℤ AgentRow) :=
  (es.filter (isAcsOf id)).map toWrite

section Refinement

variable {r : Replica} {e : Envelope}

theorem tracked_empty : Replica.empty.Tracked := fun _ => rfl

theorem lookup_applyToDatabase (agents : Database) (e : Envelope) (id : String) :
    (applyToDatabase agents e).lookup id =
      if id = e.id then (if e.isDelete then none else some (envelopeRow e)) else agents.lookup id := by
  unfold applyToDatabase
  by_cases hid : id = e.id
  · subst hid
    cases e.isDelete <;> simp
  · cases e.isDelete <;> simp [hid]

theorem trackVersion_apply (versions : String → String → Option ℤ) (e : Envelope)
    (type id : String) : trackVersion versions e type id =
      if type = e.type ∧ id = e.id then (if e.isDelete then none else some e.version)
      else versions type id := by
  unfold trackVersion
  by_cases htype : type = e.type
  · subst htype
    by_cases hid : id = e.id <;> simp [hid]
  · simp [htype]

theorem toWrite_version (e : Envelope) : (toWrite e).version = e.version := by
  unfold toWrite
  split <;> rfl

theorem toWrite_effect (e : Envelope) : (toWrite e).effect =
    if e.isDelete then none else some (e.version, envelopeRow e) := by
  unfold toWrite
  split <;> rfl

theorem Replica.Tracked.level_cell (h : r.Tracked) (id : String) :
    level 0 (r.cell id) = currentVersion r.state.objectVersions "acs" id := by
  rw [currentVersion, h id, level, cell, Option.map_map]
  rfl

theorem Replica.apply_applied (hs : shouldApplyEnvelope r.state.objectVersions e = true)
    (htype : e.type = "acs") : r.apply e =
      (true, ⟨{ r.state with objectVersions := trackVersion r.state.objectVersions e },
        applyToDatabase r.agents e⟩) := by
  simp [apply, hs, htype]

theorem Replica.apply_skipped
    (h : shouldApplyEnvelope r.state.objectVersions e = false ∨ e.type ≠ "acs") :
    r.apply e = (false, r) := by
  unfold apply
  split
  · rfl
  · next hs => rw [if_pos (h.resolve_left hs)]

theorem Replica.Tracked.apply (h : r.Tracked) (e : Envelope) : (r.apply e).2.Tracked := by
  by_cases hs : shouldApplyEnvelope r.state.objectVersions e = true ∧ e.type = "acs"
  · rw [apply_applied hs.1 hs.2]
    intro id
    dsimp only
    rw [trackVersion_apply, lookup_applyToDatabase, hs.2]
    by_cases hid : id = e.id
    · cases e.isDelete <;> simp [hid, envelopeRow]
    · simpa [hid] using h id
  · rw [not_and_or, Bool.not_eq_true] at hs
    rwa [apply_skipped hs]

theorem Replica.Tracked.cell_apply (h : r.Tracked) (e : Envelope) (id : String) :
    (r.apply e).2.cell id =
      if isAcsOf id e then LastWriter.write 0 (r.cell id) (toWrite e) else r.cell id := by
  by_cases htype : e.type = "acs"
  · have hlevel : shouldApplyEnvelope r.state.objectVersions e =
        decide (level 0 (r.cell e.id) < (toWrite e).version) := by
      rw [h.level_cell, toWrite_version, shouldApplyEnvelope, htype]
    by_cases hlt : level 0 (r.cell e.id) < (toWrite e).version
    · rw [apply_applied (by rw [hlevel, decide_eq_true hlt]) htype]
      by_cases hid : id = e.id
      · subst hid
        rw [write_of_lt hlt, toWrite_effect]
        cases hdel : e.isDelete <;> simp [cell, lookup_applyToDatabase, isAcsOf, htype, hdel,
          envelopeRow]
      · simp [cell, lookup_applyToDatabase, isAcsOf, hid, Ne.symm hid]
    · rw [apply_skipped (.inl (by rw [hlevel, decide_eq_false hlt]))]
      by_cases hid : e.id = id
      · subst hid
        rw [write_of_not_lt hlt, ite_self]
      · simp [isAcsOf, hid]
  · rw [apply_skipped (.inr htype)]
    simp [isAcsOf, htype]

@[simp] theorem Replica.applyAll_nil (r : Replica) : r.applyAll [] = r := rfl

@[simp] theorem Replica.applyAll_cons (r : Replica) (e : Envelope) (es : List Envelope) :
    r.applyAll (e :: es) = (r.apply e).2.applyAll es := rfl

theorem Replica.Tracked.applyAll (h : r.Tracked) (es : List Envelope) :
    (r.applyAll es).Tracked := by
  induction es generalizing r with
  | nil => exact h
  | cons e es ih => exact ih (h.apply e)

theorem Replica.Tracked.cell_applyAll (h : r.Tracked) (es : List Envelope) (id : String) :
    (r.applyAll es).cell id = LastWriter.run 0 (r.cell id) (acsWrites id es) := by
  induction es generalizing r with
  | nil => rfl
  | cons e es ih =>
    rw [applyAll_cons, ih (h.apply e), h.cell_apply]
    by_cases he : isAcsOf id e <;> simp [acsWrites, he]

theorem Replica.cell_eq_some {id : String} {row : AgentRow} :
    r.cell id = some (row.version, row) ↔ r.agents.lookup id = some row := by
  simp only [cell, Option.map_eq_some_iff, Prod.mk.injEq]
  exact ⟨fun ⟨x, hx, _, hxr⟩ => hxr ▸ hx, fun h => ⟨row, h, rfl, rfl⟩⟩

theorem Replica.cell_eq_none {id : String} : r.cell id = none ↔ r.agents.lookup id = none := by
  simp [cell]

end Refinement

end Acps.Discovery
