import Acps.Aic.Registry
import Acps.Registry.Published

/-!
The commands on agents. Disabling, enabling and deleting an ontology carries over to the agents
that are derived from it, one write after the other in one transaction.
-/

namespace Acps.Registry

open Dsp

variable {H : Type}

structure Database (H : Type) where
  tables : Tables H
  ontologies : List ℕ

def Database.empty {H : Type} : Database H := ⟨.empty, []⟩

structure AicSettings where
  upperCase : Aic.UpperCase
  aicCrcSalt : Aic.Text
  aicProtocolVersion : Aic.Registry.ProtocolVersion
  aicArspCode : Aic.Registry.LevelCode

def plainSettings : AicSettings where
  upperCase := Aic.asciiUpperCase
  aicCrcSalt := "1234".toList
  aicProtocolVersion := ⟨['1'], by decide⟩
  aicArspCode := ⟨['A'], by decide⟩

structure RowOrder where
  arrange : List ℕ → List ℕ
  perm : ∀ ids, (arrange ids).Perm ids

inductive Command where
  | create (id : ℕ) (isOntology : Bool) (acs : Option Payload)
  | update (id : ℕ) (acs : Option (Option Payload))
  | submit (id : ℕ)
  | cancel (id : ℕ)
  | reject (id : ℕ)
  /-- `providerCode` is the account's level 7, and the serials are the ones drawn. -/
  | approve (id : ℕ) (provider : Json) (providerCode : Aic.Registry.LevelCode)
      (ontologySerial instanceSerial : Aic.Registry.Serial)
  | registerEntity (id : ℕ) (ontologyAic : String) (instanceSerial : Aic.Registry.Serial)
      (acs : JsonObject)
  | disable (id : ℕ) (order : RowOrder)
  | enable (id : ℕ) (order : RowOrder)
  | delete (id : ℕ) (order : RowOrder)

inductive AtrErrorCode where
  | ontologyNotFound
  | ontologyInactive
  | invalidRequest
  | agentAcsMissing
  | generateAicFailed

structure AtrError where
  code : AtrErrorCode
  message : String
  httpStatus : ℕ

inductive CommandError where
  | write (error : WriteError)
  | atr (error : AtrError)
  | python (error : Aic.PyError)

def like : Aic.Text → Aic.Text → Bool
  | [], s => s.isEmpty
  | '%' :: p, s => s.tails.any (like p)
  | '\\' :: c :: p, s => s.head? = some c && like p s.tail
  | '_' :: p, s => !s.isEmpty && like p s.tail
  | c :: p, s => s.head? = some c && like p s.tail

def invalidAicPrefix : Aic.Text := "__invalid_aic_prefix__".toList

section

variable (S : AicSettings)

def issueAgentAic (isOntology : Bool) (providerCode : Aic.Registry.LevelCode)
    (ontologySerial instanceSerial : Aic.Registry.Serial) : Except Aic.PyError Aic.Text :=
  if isOntology then
    Aic.Registry.generateOntologyAic S.upperCase S.aicCrcSalt S.aicProtocolVersion S.aicArspCode
      providerCode ontologySerial
  else
    Aic.Registry.generateAic S.upperCase S.aicCrcSalt S.aicProtocolVersion S.aicArspCode
      providerCode ontologySerial instanceSerial

def getDerivedEntityLikePrefix (isOntology : Bool) (a : Agent H) :
    Except Aic.PyError (Option Aic.Text) :=
  match a.aic.filter (· ≠ "") with
  | none => .ok none
  | some aic =>
    if ¬ isOntology then .ok none
    else
      (Aic.Registry.getDerivedEntityLikePrefix S.upperCase S.aicCrcSalt aic.toList).map
        fun likePrefix => some (likePrefix.getD invalidAicPrefix)

def ensureRegistrableOntologyAgent (r : Database H) (ontologyAic : String) :
    Except AtrError (Agent H) :=
  match r.tables.agents.find? (·.aic = some ontologyAic) with
  | none => .error ⟨.ontologyNotFound, "Ontology AIC does not exist", 404⟩
  | some a =>
    if ¬ a.isActive ∨ a.isDisabled ∨ a.isDeleted then
      .error ⟨.ontologyInactive, "Ontology is inactive, disabled or deleted", 403⟩
    else if a.id ∉ r.ontologies then
      .error ⟨.invalidRequest,
        "The specified AIC is not an ontology. Only ontologies can derive entities.", 400⟩
    else if a.approvalStatus ≠ .approved then
      .error ⟨.ontologyInactive, "Ontology is not approved", 403⟩
    else .ok a

def generateEntityAic (ontologyAic : String) (instanceSerial : Aic.Registry.Serial) :
    Except CommandError String := do
  let entityAic ← (Aic.Registry.generateEntityAicFromOntology S.upperCase S.aicCrcSalt
    ontologyAic.toList instanceSerial).mapError .python
  match entityAic with
  | some entityAic => return String.ofList entityAic
  | none => .error (.atr ⟨.generateAicFailed, "Failed to generate entity AIC", 500⟩)

def ensureAcsObject (a : Agent H) : Except AtrError Unit :=
  match a.acs with
  | some (.obj _) => .ok ()
  | _ => .error ⟨.agentAcsMissing, "Ontology ACS not found", 404⟩

namespace Database

variable [DecidableEq H] (π : Platform H) (now : Timestamp) (r : Database H)

def isOntology (id : ℕ) : Bool := id ∈ r.ontologies

def write (w : AgentWrite) : Except CommandError (Database H) :=
  ((w.perform π now r.tables).mapError .write).map fun t => ⟨t, r.ontologies⟩

def derivedRows (a : Agent H) (selected : Agent H → Bool) : Except Aic.PyError (List ℕ) :=
  (Registry.getDerivedEntityLikePrefix S (r.isOntology a.id) a).map fun
    | none => []
    | some likePrefix =>
      (r.tables.agents.filter fun b => b.aic.any (fun aic => like (likePrefix ++ ['%']) aic.toList) ∧
        b.id ≠ a.id ∧ selected b).map Agent.id

def cascade (own : AgentWrite) (derived : ℕ → AgentWrite) (selected : Agent H → Bool) (id : ℕ)
    (order : RowOrder) : Except CommandError (Database H) := do
  let r' ← r.write π now own
  let a ← (getAgent r.tables id).mapError .write
  let rows ← (r.derivedRows S a selected).mapError .python
  (order.arrange rows).foldlM (fun r id => r.write π now (derived id)) r'

def create (id : ℕ) (isOntology : Bool) (acs : Option Payload) :
    Except CommandError (Database H) := do
  let r' ← r.write π now (.create id acs)
  return { r' with ontologies := if isOntology then id :: r'.ontologies else r'.ontologies }

def approve (id : ℕ) (provider : Json) (providerCode : Aic.Registry.LevelCode)
    (ontologySerial instanceSerial : Aic.Registry.Serial) : Except CommandError (Database H) := do
  let newAic ← (issueAgentAic S (r.isOntology id) providerCode ontologySerial
    instanceSerial).mapError .python
  r.write π now (.approve id provider (String.ofList newAic))

def registerEntity (id : ℕ) (ontologyAic : String) (instanceSerial : Aic.Registry.Serial)
    (acs : JsonObject) : Except CommandError (Database H) := do
  let a ← (ensureRegistrableOntologyAgent r ontologyAic).mapError .atr
  let entityAic ← generateEntityAic S ontologyAic instanceSerial
  (ensureAcsObject a).mapError .atr
  r.write π now (.registerEntity id entityAic acs)

def perform : Command → Except CommandError (Database H)
  | .create id isOntology acs => r.create π now id isOntology acs
  | .update id acs => r.write π now (.update id acs)
  | .submit id => r.write π now (.submit id)
  | .cancel id => r.write π now (.cancel id)
  | .reject id => r.write π now (.reject id)
  | .approve id provider providerCode ontologySerial instanceSerial =>
    r.approve S π now id provider providerCode ontologySerial instanceSerial
  | .registerEntity id ontologyAic instanceSerial acs =>
    r.registerEntity S π now id ontologyAic instanceSerial acs
  | .disable id order =>
    r.cascade S π now (.disable id) .disableDerived (fun b => b.isActive ∧ ¬ b.isDisabled) id order
  | .enable id order =>
    r.cascade S π now (.enable id) .enableDerived (fun b => b.isDisabled) id order
  | .delete id order =>
    r.cascade S π now (.delete id) .deleteDerived (fun b => ¬ b.isDeleted) id order

def handle (c : Command) : Database H :=
  match r.perform S π now c with
  | .ok r' => r'
  | .error _ => r

end Database

def commands [DecidableEq H] (π : Platform H) :
    Transition.System (Database H) (Timestamp × Command) :=
  ⟨fun r e => some (r.handle S π e.1 e.2)⟩

end

end Acps.Registry
