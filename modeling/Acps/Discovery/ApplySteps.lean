import Acps.Discovery.State
import Acps.Lib.ReadCommitted

/-!
One apply, cut at the points where it waits and other tasks may run.
-/

namespace Acps.Discovery

open Dsp UnitOfWork

inductive ApplyPoint where
  | select
  | write (existing : Option AgentRow)
  | track
  deriving DecidableEq

def accepts (r : Replica) (e : Envelope) : Bool :=
  shouldApplyEnvelope r.state.objectVersions e && e.type = "acs"

def flushRow (current loaded new : AgentRow) : AgentRow :=
  ⟨flushed current.version loaded.version new.version, flushed current.seq loaded.seq new.seq,
    flushed current.acs loaded.acs new.acs⟩

/-- An insert fails on a key that is taken by then, and an update on a row that is gone. A delete
of a row that is gone, and an update without a difference, do nothing. -/
def writeRow (agents : Database) (existing : Option AgentRow) (e : Envelope) : Option Database :=
  match existing with
  | none =>
    if e.isDelete then some agents
    else if (agents.lookup e.id).isSome then none
    else some (agents.insert e.id (envelopeRow e))
  | some loaded =>
    if e.isDelete then some (agents.erase e.id)
    else if envelopeRow e = loaded then some agents
    else (agents.lookup e.id).map fun current =>
      agents.insert e.id (flushRow current loaded (envelopeRow e))

def resumeApply (r : Replica) (e : Envelope) : ApplyPoint → Option (Replica × Option ApplyPoint)
  | .select => some (r, some (.write (r.agents.lookup e.id)))
  | .write existing => (writeRow r.agents existing e).map fun agents =>
    (⟨r.state, agents⟩, some .track)
  | .track =>
    some (⟨{ r.state with objectVersions := trackVersion r.state.objectVersions e }, r.agents⟩, none)

section Alone

variable {r : Replica} {e : Envelope}

theorem erase_of_lookup_none {agents : Database} {id : String} (h : agents.lookup id = none) :
    agents.erase id = agents :=
  AList.ext (List.kerase_of_notMem_keys (AList.lookup_eq_none.mp h))

theorem flushRow_self (loaded new : AgentRow) : flushRow loaded loaded new = new := by
  simp only [flushRow, flushed_self]

theorem writeRow_alone (agents : Database) (e : Envelope) :
    ∃ written, writeRow agents (agents.lookup e.id) e = some written ∧
      ∀ id, written.lookup id = (applyToDatabase agents e).lookup id := by
  unfold writeRow applyToDatabase
  cases hrow : agents.lookup e.id with
  | none =>
    cases e.isDelete with
    | true => exact ⟨agents, rfl, by simp [erase_of_lookup_none hrow]⟩
    | false => exact ⟨_, by simp, fun _ => rfl⟩
  | some loaded =>
    cases e.isDelete with
    | true => exact ⟨_, rfl, fun _ => rfl⟩
    | false =>
      by_cases hsame : envelopeRow e = loaded
      · refine ⟨agents, by simp [hsame], fun id => ?_⟩
        by_cases hid : id = e.id
        · subst hid
          simp [hrow, hsame]
        · simp [hid]
      · refine ⟨agents.insert e.id (flushRow loaded loaded (envelopeRow e)), by simp [hsame], ?_⟩
        rw [flushRow_self]
        exact fun _ => rfl

theorem resumeApply_alone (h : accepts r e = true) : ∃ existing written,
    resumeApply r e .select = some (r, some (.write existing)) ∧
    resumeApply r e (.write existing) = some (⟨r.state, written⟩, some .track) ∧
    resumeApply ⟨r.state, written⟩ e .track =
      some (⟨(r.apply e).2.state, written⟩, none) ∧
    ∀ id, written.lookup id = (r.apply e).2.agents.lookup id := by
  simp only [accepts, Bool.and_eq_true, decide_eq_true_eq] at h
  obtain ⟨written, hwrite, hlookup⟩ := writeRow_alone r.agents e
  refine ⟨_, written, rfl, by simp [resumeApply, hwrite], ?_, ?_⟩
  · rw [Replica.apply_applied h.1 h.2]
    rfl
  · rw [Replica.apply_applied h.1 h.2]
    exact hlookup

end Alone

inductive Written (agents : Database) (e : Envelope) : Option AgentRow → Database → Prop
  | absent (hop : e.isDelete = true) : Written agents e none agents
  | deleted (loaded : AgentRow) (hop : e.isDelete = true) :
      Written agents e (some loaded) (agents.erase e.id)
  | inserted (hop : e.isDelete = false) (hrow : agents.lookup e.id = none) :
      Written agents e none (agents.insert e.id (envelopeRow e))
  | unchanged (hop : e.isDelete = false) : Written agents e (some (envelopeRow e)) agents
  | updated (loaded current : AgentRow) (hop : e.isDelete = false)
      (hrow : agents.lookup e.id = some current) : Written agents e (some loaded)
        (agents.insert e.id (flushRow current loaded (envelopeRow e)))

theorem writeRow_written {agents written : Database} {existing : Option AgentRow} {e : Envelope}
    (h : writeRow agents existing e = some written) : Written agents e existing written := by
  unfold writeRow at h
  cases existing with
  | none =>
    cases hdel : e.isDelete with
    | true =>
      obtain rfl : agents = written := by simpa [hdel] using h
      exact .absent hdel
    | false =>
      cases hrow : agents.lookup e.id with
      | some row => simp [hdel, hrow] at h
      | none =>
        obtain rfl : agents.insert e.id (envelopeRow e) = written := by simpa [hdel, hrow] using h
        exact .inserted hdel hrow
  | some loaded =>
    cases hdel : e.isDelete with
    | true =>
      obtain rfl : agents.erase e.id = written := by simpa [hdel] using h
      exact .deleted loaded hdel
    | false =>
      by_cases hsame : envelopeRow e = loaded
      · obtain rfl : agents = written := by simpa [hdel, hsame] using h
        exact hsame ▸ .unchanged hdel
      · obtain ⟨current, hrow, rfl⟩ : ∃ current, agents.lookup e.id = some current ∧
            agents.insert e.id (flushRow current loaded (envelopeRow e)) = written := by
          simpa [hdel, hsame] using h
        exact .updated loaded current hdel hrow

theorem Written.lookup_ne {agents written : Database} {existing : Option AgentRow} {e : Envelope}
    (h : Written agents e existing written) {id : String} (hid : id ≠ e.id) :
    written.lookup id = agents.lookup id := by
  cases h <;> simp [hid]

theorem Written.lookup_upsert {agents written : Database} {existing : Option AgentRow}
    {e : Envelope} (h : Written agents e existing written) (hop : e.isDelete = false)
    {row : AgentRow} (hrow : agents.lookup e.id = some row) :
    ∃ row', written.lookup e.id = some row' := by
  cases h with
  | absent hdel => rw [hop] at hdel; cases hdel
  | deleted loaded hdel => rw [hop] at hdel; cases hdel
  | inserted _ hnone => rw [hnone] at hrow; cases hrow
  | unchanged => exact ⟨row, hrow⟩
  | updated => exact ⟨_, AList.lookup_insert _⟩

theorem flushRow_version (current loaded new : AgentRow) :
    (flushRow current loaded new).version = current.version ∨
      (flushRow current loaded new).version = new.version :=
  flushed_eq_or current.version loaded.version new.version

theorem Written.version {agents written : Database} {existing : Option AgentRow} {e : Envelope}
    (h : Written agents e existing written) {row' : AgentRow}
    (hrow' : written.lookup e.id = some row') :
    (∃ row, agents.lookup e.id = some row ∧ row'.version = row.version) ∨
      e.isDelete = false ∧ row'.version = e.version := by
  cases h with
  | absent hop => exact .inl ⟨row', hrow', rfl⟩
  | deleted loaded hop => simp at hrow'
  | inserted hop hrow =>
    obtain rfl : envelopeRow e = row' := by simpa using hrow'
    exact .inr ⟨hop, rfl⟩
  | unchanged hop => exact .inl ⟨row', hrow', rfl⟩
  | updated loaded current hop hrow =>
    obtain rfl : flushRow current loaded (envelopeRow e) = row' := by simpa using hrow'
    rcases flushRow_version current loaded (envelopeRow e) with hv | hv
    · exact .inl ⟨current, hrow, hv⟩
    · exact .inr ⟨hop, hv⟩

end Acps.Discovery
