import Mathlib.Data.List.Chain
import Acps.Aic.Text
import Acps.Lib.Json

/-!
The tasks of a partner: their states, the commands that they get, and the state transition rules
of the protocol.
-/

namespace Acps.Partner

abbrev Time := ℤ

inductive TaskState where
  | accepted
  | working
  | awaitingInput
  | awaitingCompletion
  | completed
  | canceled
  | failed
  | rejected
  deriving DecidableEq

inductive TaskCommandType where
  | get
  | start
  | continue
  | cancel
  | complete
  | reStream
  deriving DecidableEq

structure TaskCommand where
  id : String
  sessionId : String
  senderId : String
  command : TaskCommandType
  taskId : Option String
  texts : List String
  deriving DecidableEq

def TaskCommand.target (command : TaskCommand) : String :=
  (command.taskId.filter (· ≠ "")).getD command.id

def TaskCommand.extractText (command : TaskCommand) : String :=
  "\n".intercalate (command.texts.filter (· ≠ ""))

def blank (text : String) : Bool := text.toList.all Aic.isSpace

structure TaskStatus where
  state : TaskState
  stateChangedAt : Time
  dataItems : List String

structure Product where
  id : Time
  dataItems : List String

structure TaskResult where
  id : String
  senderId : String
  taskId : String
  sessionId : String
  status : TaskStatus
  products : Option (List Product)
  commandHistory : List TaskCommand
  statusHistory : List TaskStatus

def TaskResult.state (task : TaskResult) : TaskState := task.status.state

structure TaskContext where
  task : TaskResult
  requirements : Option JsonObject
  runningFuture : Option ℕ

def terminalStates : List TaskState := [.completed, .failed, .rejected, .canceled]

abbrev Rules := Option TaskState → List TaskState

def aipRules : Rules
  | none => [.accepted, .rejected]
  | some .accepted => [.working, .canceled]
  | some .working => [.awaitingInput, .awaitingCompletion, .failed, .canceled]
  | some .awaitingInput => [.working, .canceled]
  | some .awaitingCompletion => [.working, .completed, .canceled]
  | some .completed | some .canceled | some .failed | some .rejected => []

def runnerRules : Rules
  | some .accepted => [.working, .canceled, .rejected, .failed]
  | current => aipRules current

def Follows (rules : Rules) (states : List TaskState) : Prop :=
  List.IsChain (fun a b => ∃ state ∈ rules a, b = some state) (none :: states.map some)

section Follows

variable {rules : Rules} {states : List TaskState} {state : TaskState}

theorem follows_nil : Follows rules [] := List.isChain_singleton _

theorem follows_append (h : Follows rules states) (hnext : state ∈ rules states.getLast?) :
    Follows rules (states ++ [state]) := by
  have hlast : (none :: states.map some).getLast? = some states.getLast? := by
    rw [List.getLast?_cons, List.getLast?_map]
    cases states.getLast? <;> rfl
  unfold Follows
  rw [List.map_append, ← List.cons_append]
  apply List.isChain_append.mpr
  refine ⟨h, List.isChain_singleton _, ?_⟩
  intro a ha b hb
  rw [hlast] at ha
  obtain rfl := Option.some.inj ha
  obtain rfl := Option.some.inj hb
  exact ⟨state, hnext, rfl⟩

instance : Decidable (Follows rules states) :=
  inferInstanceAs (Decidable (List.IsChain _ _))

theorem runnerRules_eq_nil {current : TaskState} :
    runnerRules (some current) = [] ↔ current ∈ terminalStates := by
  cases current <;> decide

theorem follows_terminal {before after : List TaskState}
    (h : Follows runnerRules (before ++ state :: after)) (hterminal : state ∈ terminalStates) :
    after = [] := by
  cases after with
  | nil => rfl
  | cons next after =>
    unfold Follows at h
    rw [List.map_append, List.map_cons, List.map_cons, ← List.cons_append] at h
    obtain ⟨-, hrest⟩ := List.isChain_split.mp h
    obtain ⟨⟨_, hnext, -⟩, -⟩ := List.isChain_cons_cons.mp hrest
    rw [runnerRules_eq_nil.mpr hterminal] at hnext
    cases hnext

end Follows

end Acps.Partner
