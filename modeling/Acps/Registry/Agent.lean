import Acps.Registry.ChangeLog

/-!
The agent rows of the registry and how a change of one is published to the change log.
Every command on agents is a sequence of these writes, one for each agent it touches.
-/

namespace Acps.Registry

open Dsp

inductive ApprovalStatus where
  | draft
  | pending
  | approved
  | rejected
  deriving DecidableEq

structure Agent (H : Type) where
  id : ℕ
  aic : Option String
  acs : Option Payload
  acsHash : Option H
  acsVersion : ℤ
  acsLastSeq : Option ℤ
  isActive : Bool
  isDeleted : Bool
  deletedAt : Option Timestamp
  isDisabled : Bool
  disabledAt : Option Timestamp
  approvalStatus : ApprovalStatus
  updatedAt : Timestamp

inductive AgentErrorCode where
  | agentNotFound
  | agentInactive
  | invalidStatusTransition
  | acsNotExisted
  | invalidAcs
  deriving DecidableEq

structure AgentError where
  statusCode : ℕ
  errorName : AgentErrorCode
  errorMsg : String
  deriving DecidableEq

/-- The library calls an ACS goes through. `acsHash` is the `sha256` of the dumped object, and
`validateAcs` the schema check with the endpoint checks; the schema admits objects only. -/
structure Platform (H : Type) where
  sha256 : String → H
  acsHash : JsonObject → H
  loads : String → Option Json
  loads_empty : loads "" = none
  isoformat : Timestamp → String
  validateAcs : Json → Except AgentError JsonObject

def plainPlatform : Platform Payload where
  sha256 := .text
  acsHash := .obj
  loads _ := none
  loads_empty := rfl
  isoformat _ := ""
  validateAcs
    | .obj o => .ok o
    | _ => .error ⟨400, .invalidAcs, "Json path: [ $ ]"⟩

structure Tables (H : Type) where
  agents : List (Agent H)
  log : LogState

def Tables.empty {H : Type} : Tables H := ⟨[], .empty⟩

variable {H : Type}

def truthy (acs : Option Payload) : Option Payload := acs.filter fun p => p ≠ .text "" ∧ p ≠ .obj []

def hashPayload (π : Platform H) : Payload → H
  | .obj acs => π.acsHash acs
  | .text s => π.sha256 s

def loadAgentAcsData (π : Platform H) (acs : Option Payload) : Option JsonObject :=
  match truthy acs with
  | some (.obj o) => some o
  | some (.text s) =>
    match π.loads s with
    | some (.obj o) => some o
    | _ => none
  | none => none

theorem truthy_obj (o : JsonObject) :
    truthy (some (.obj o)) = if o = [] then none else some (.obj o) := by
  by_cases h : o = []
  · subst h; rfl
  · simp [truthy, Option.filter, h]

theorem loadAgentAcsData_obj (π : Platform H) (o : JsonObject) :
    loadAgentAcsData π (some (.obj o)) = if o = [] then none else some o := by
  unfold loadAgentAcsData
  rw [truthy_obj]
  by_cases h : o = [] <;> simp [h]

def isAgentDeleted (a : Agent H) : Bool := a.isDeleted || a.deletedAt.isSome

def isAgentDisabled (a : Agent H) : Bool := a.isDisabled || a.disabledAt.isSome

def aicUrlPlaceholder : String := "{AIC}"

section Publish

variable [DecidableEq H] (π : Platform H)

def updateAgentWithChangelog (now : Timestamp) (log : LogState) (agent : Agent H)
    (newAcs : Option Payload) : LogState × Agent H :=
  let newAcsHash := (truthy newAcs).map (hashPayload π)
  if newAcsHash ≠ agent.acsHash then
    let (newSeq, log) := generateNextSeq log
    let agent := { agent with
      acsHash := newAcsHash, acsVersion := agent.acsVersion + 1, acsLastSeq := some newSeq,
      updatedAt := now }
    -- an agent without an AIC takes a seq but leaves no entry
    match agent.aic.filter (· ≠ "") with
    | some aic =>
      ((createChangeLog log now "acs" aic agent.acsVersion newAcs .upsert
        (some newSeq)).2, agent)
    | none => (log, agent)
  else (log, { agent with updatedAt := now })

def replaceEndpoint (aic : String) : Json → Json
  | .obj endpoint =>
    match JsonObject.get endpoint "url" with
    | some (.str url) =>
      if url.contains aicUrlPlaceholder then
        .obj (JsonObject.set endpoint "url" (.str (url.replace aicUrlPlaceholder aic)))
      else .obj endpoint
    | _ => .obj endpoint
  | other => other

def holdsPlaceholder : Json → Bool
  | .obj endpoint =>
    match JsonObject.get endpoint "url" with
    | some (.str url) => url.contains aicUrlPlaceholder
    | _ => false
  | _ => false

def replaceAgentAicPlaceholders (acs : JsonObject) (aic : Option String) : Option JsonObject :=
  match aic.filter (· ≠ ""), acs.get "endPoints" with
  | some aic, some (.arr endPoints) =>
    if endPoints.any holdsPlaceholder then
      some (acs.set "endPoints" (.arr (endPoints.map (replaceEndpoint aic))))
    else none
  | _, _ => none

def getOrNone (acs : JsonObject) (k : String) : Option Json := (acs.get k).filter (· ≠ .null)

def prepareAgentAcsUpdate (now : Timestamp) (agent : Agent H) : Option JsonObject :=
  (loadAgentAcsData π agent.acs).bind fun acs =>
    let aicChanged := getOrNone acs "aic" ≠ agent.aic.map .str
    let acs := if aicChanged then acs.set "aic" (agent.aic.elim .null .str) else acs
    let activeChanged := getOrNone acs "active" ≠ some (.bool agent.isActive)
    let acs := if activeChanged then acs.set "active" (.bool agent.isActive) else acs
    let replaced := replaceAgentAicPlaceholders acs agent.aic
    if aicChanged ∨ activeChanged ∨ replaced.isSome then
      some ((replaced.getD acs).set "lastModifiedTime" (.str (π.isoformat now)))
    else none

def updateAgentAcsData (now : Timestamp) (log : LogState) (agent : Agent H) :
    LogState × Agent H :=
  match prepareAgentAcsUpdate π now agent with
  | none => (log, agent)
  | some acs =>
    updateAgentWithChangelog π now log { agent with acs := some (.obj acs) } (some (.obj acs))

end Publish

def invalidStatusTransition (errorMsg : String) : AgentError :=
  ⟨400, .invalidStatusTransition, errorMsg⟩

section Guards

def ensureAgentIsActive (a : Agent H) : Except AgentError Unit :=
  if a.isActive then .ok () else .error ⟨400, .agentInactive, "Cannot update an inactive agent"⟩

def ensureAgentCanBeDeleted (a : Agent H) : Except AgentError Unit :=
  if isAgentDeleted a then .error (invalidStatusTransition "Deleted agents cannot be deleted again")
  else .ok ()

def ensureAgentCanBeDisabled (a : Agent H) : Except AgentError Unit :=
  if isAgentDeleted a then .error (invalidStatusTransition "Deleted agents cannot be disabled")
  else if isAgentDisabled a then
    .error (invalidStatusTransition "Disabled agents cannot be disabled again")
  else .ok ()

def ensureAgentCanBeEnabled (a : Agent H) : Except AgentError Unit :=
  if isAgentDeleted a then .error (invalidStatusTransition "Deleted agents cannot be enabled")
  else if isAgentDisabled a then .ok ()
  else .error (invalidStatusTransition "Only disabled agents can be enabled")

def ensureAgentIsTransitionable (a : Agent H) (action : String) : Except AgentError Unit :=
  if isAgentDeleted a then .error (invalidStatusTransition s!"Deleted agents cannot be {action}")
  else if isAgentDisabled a then
    .error (invalidStatusTransition s!"Disabled agents cannot be {action}")
  else ensureAgentIsActive a

def ApprovalStatus.value : ApprovalStatus → String
  | draft => "DRAFT"
  | pending => "PENDING"
  | approved => "APPROVED"
  | rejected => "REJECTED"

def ensureAgentIsEditable (a : Agent H) : Except AgentError Unit := do
  ensureAgentIsActive a
  if a.approvalStatus = .approved ∨ a.approvalStatus = .pending then
    let status := a.approvalStatus.value
    .error (invalidStatusTransition s!"Agents in {status} status cannot be updated")

end Guards

section Marks

def markAgentDeleted (now : Timestamp) (a : Agent H) : Agent H :=
  { a with isActive := false, isDeleted := true, deletedAt := some now, updatedAt := now }

def markAgentDisabled (now : Timestamp) (a : Agent H) : Agent H :=
  { a with isActive := false, isDisabled := true, disabledAt := some now, updatedAt := now }

def markAgentEnabled (now : Timestamp) (a : Agent H) : Agent H :=
  let a := { a with isDisabled := false, disabledAt := none, updatedAt := now }
  if isAgentDeleted a then a else { a with isActive := true }

end Marks

def normalizeAgentAcsPayload (π : Platform H) (acs : Option Payload) :
    Except AgentError (Option Payload × Option H) :=
  match truthy acs with
  | none => .ok (acs, none)
  | some (.text s) =>
    match π.loads s with
    | none => .error ⟨400, .acsNotExisted, "ACS cannot be null"⟩
    | some j => (π.validateAcs j).map fun o => (some (.obj o), some (π.sha256 s))
  | some (.obj o) => (π.validateAcs (.obj o)).map fun o => (some (.obj o), some (π.acsHash o))

inductive AgentWrite where
  | create (id : ℕ) (acs : Option Payload)
  /-- The outer `none` is a request without the key `acs`. -/
  | update (id : ℕ) (acs : Option (Option Payload))
  | submit (id : ℕ)
  | cancel (id : ℕ)
  | reject (id : ℕ)
  /-- `provider` is the verified provider snapshot, `newAic` the AIC that is issued. -/
  | approve (id : ℕ) (provider : Json) (newAic : String)
  | disable (id : ℕ)
  | enable (id : ℕ)
  | delete (id : ℕ)
  /-- The marks that a command on an ontology leaves on the rows its query selects. -/
  | disableDerived (id : ℕ)
  | enableDerived (id : ℕ)
  | deleteDerived (id : ℕ)
  /-- `acs` holds the members of the entity's ACS beyond its AIC and its active flag. -/
  | registerEntity (id : ℕ) (entityAic : String) (acs : JsonObject)

inductive WriteError where
  | agent (error : AgentError)
  | database
  deriving DecidableEq

section Writes

variable [DecidableEq H] (π : Platform H) (now : Timestamp) (t : Tables H)

def getAgent (id : ℕ) : Except WriteError (Agent H) :=
  match t.agents.find? (·.id = id) with
  | some a => .ok a
  | none => .error (.agent ⟨404, .agentNotFound, "Agent not found"⟩)

def Tables.save (log : LogState) (a : Agent H) : Tables H :=
  ⟨t.agents.map (fun b => if b.id = a.id then a else b), log⟩

def Tables.insertAgent (log : LogState) (a : Agent H) : Except WriteError (Tables H) :=
  if t.agents.any (·.id = a.id) then .error .database else .ok ⟨t.agents ++ [a], log⟩

def guarded {α : Type} (check : Except AgentError α) : Except WriteError α :=
  check.mapError .agent

def aicTaken (aic : String) : Bool := t.agents.any (·.aic = some aic)

def draftAgent (id : ℕ) (acs : Option Payload) (acsHash : Option H) : Agent H :=
  { id, aic := none, acs, acsHash, acsVersion := 1, acsLastSeq := none, isActive := true,
    isDeleted := false, deletedAt := none, isDisabled := false, disabledAt := none,
    approvalStatus := .draft, updatedAt := now }

def createAgent (id : ℕ) (acs : Option Payload) : Except WriteError (Tables H) := do
  let (acs, acsHash) ← guarded (normalizeAgentAcsPayload π acs)
  t.insertAgent t.log (draftAgent now id acs acsHash)

def syncAgentUpdate (a : Agent H) : Option (Option Payload × Option H) → LogState × Agent H
  | none => updateAgentAcsData π now t.log { a with updatedAt := now }
  | some (acs, none) => updateAgentAcsData π now t.log { a with acs, updatedAt := now }
  | some (acs, some hash) =>
    let b := { a with acs, acsHash := some hash, updatedAt := now }
    if some hash ≠ a.acsHash then updateAgentWithChangelog π now t.log b acs
    else updateAgentAcsData π now t.log b

def updateAgent (id : ℕ) (acs : Option (Option Payload)) : Except WriteError (Tables H) := do
  let a ← getAgent t id
  guarded (ensureAgentIsEditable a)
  let payload ← guarded (acs.mapM (normalizeAgentAcsPayload π))
  let (log, b) := syncAgentUpdate π now t a payload
  return t.save log b

def requireStatus (a : Agent H) (allowed : List ApprovalStatus) (errorMsg : String) :
    Except AgentError Unit :=
  if a.approvalStatus ∈ allowed then .ok () else .error (invalidStatusTransition errorMsg)

def moveApproval (action errorMsg : String) (allowed : List ApprovalStatus)
    (target : ApprovalStatus) (id : ℕ) : Except WriteError (Tables H) := do
  let a ← getAgent t id
  guarded (ensureAgentIsTransitionable a action)
  guarded (requireStatus a allowed errorMsg)
  return t.save t.log { a with approvalStatus := target, updatedAt := now }

def submitAgentForApproval : ℕ → Except WriteError (Tables H) :=
  moveApproval now t "submitted for review"
    "Only agents in draft or rejected status can be submitted for review" [.draft, .rejected]
    .pending

def cancelAgentSubmission : ℕ → Except WriteError (Tables H) :=
  moveApproval now t "canceled" "Only agents in pending status can be canceled" [.pending] .draft

def rejectAgent : ℕ → Except WriteError (Tables H) :=
  moveApproval now t "processed" "Only agents in pending status can be processed" [.pending]
    .rejected

def verifiedProviderAcs (a : Agent H) (provider : Json) : Option JsonObject :=
  (loadAgentAcsData π a.acs).bind fun acs =>
    if acs.get "provider" = some provider then none
    else some ((acs.set "provider" provider).set "lastModifiedTime" (.str (π.isoformat now)))

def approvedAcs (a : Agent H) (provider : Json) : Option Payload :=
  ((verifiedProviderAcs π now a provider).map .obj).orElse (fun _ => a.acs)

def approveAgent (id : ℕ) (provider : Json) (newAic : String) : Except WriteError (Tables H) := do
  let a ← getAgent t id
  guarded (ensureAgentIsTransitionable a "processed")
  guarded (requireStatus a [.pending] "Only agents in pending status can be processed")
  let b := { a with
    acs := approvedAcs π now a provider, approvalStatus := .approved, updatedAt := now }
  match a.aic.filter (· ≠ "") with
  | none =>
    -- the generator issues no empty AIC, and the unique index refuses a taken one
    if newAic = "" ∨ aicTaken t newAic then .error .database
    else
      let (log, c) := updateAgentAcsData π now t.log { b with aic := some newAic }
      return t.save log c
  | some _ =>
    if (verifiedProviderAcs π now a provider).isSome then
      let (log, c) := updateAgentWithChangelog π now t.log b b.acs
      return t.save log c
    else return t.save t.log b

def markAndPublish (check : Agent H → Except AgentError Unit) (mark : Agent H → Agent H) (id : ℕ) :
    Except WriteError (Tables H) := do
  let a ← getAgent t id
  guarded (check a)
  let (log, b) := updateAgentAcsData π now t.log (mark a)
  return t.save log b

def disableAgent : ℕ → Except WriteError (Tables H) :=
  markAndPublish π now t ensureAgentCanBeDisabled (markAgentDisabled now)

def enableAgent : ℕ → Except WriteError (Tables H) :=
  markAndPublish π now t ensureAgentCanBeEnabled (markAgentEnabled now)

def deleteAgent : ℕ → Except WriteError (Tables H) :=
  markAndPublish π now t ensureAgentCanBeDeleted (markAgentDeleted now)

def publishMark (mark : Agent H → Agent H) : ℕ → Except WriteError (Tables H) :=
  markAndPublish π now t (fun _ => .ok ()) mark

def entityAcs (entityAic : String) (acs : JsonObject) : JsonObject :=
  ("aic", .str entityAic) :: ("active", .bool true) :: acs

def entityAgent (id : ℕ) (entityAic : String) (acs : JsonObject) (seq : ℤ) : Agent H :=
  { id, aic := some entityAic, acs := some (.obj acs), acsHash := some (π.acsHash acs),
    acsVersion := 1, acsLastSeq := some seq, isActive := true, isDeleted := false,
    deletedAt := none, isDisabled := false, disabledAt := none, approvalStatus := .approved,
    updatedAt := now }

def registerEntity (id : ℕ) (entityAic : String) (acs : JsonObject) :
    Except WriteError (Tables H) :=
  if entityAic = "" ∨ aicTaken t entityAic then .error .database
  else
    let acs := entityAcs entityAic acs
    let (seq, log) := createChangeLog t.log now "acs" entityAic 1 (some (.obj acs)) .upsert none
    t.insertAgent log (entityAgent π now id entityAic acs seq)

def AgentWrite.perform : AgentWrite → Except WriteError (Tables H)
  | .create id acs => createAgent π now t id acs
  | .update id acs => updateAgent π now t id acs
  | .submit id => submitAgentForApproval now t id
  | .cancel id => cancelAgentSubmission now t id
  | .reject id => rejectAgent now t id
  | .approve id provider newAic => approveAgent π now t id provider newAic
  | .disable id => disableAgent π now t id
  | .enable id => enableAgent π now t id
  | .delete id => deleteAgent π now t id
  | .disableDerived id => publishMark π now t (markAgentDisabled now) id
  | .enableDerived id => publishMark π now t (markAgentEnabled now) id
  | .deleteDerived id => publishMark π now t (markAgentDeleted now) id
  | .registerEntity id entityAic acs => Registry.registerEntity π now t id entityAic acs

def Tables.write (w : AgentWrite) : Tables H :=
  match w.perform π now t with
  | .ok u => u
  | .error _ => t

end Writes

end Acps.Registry
