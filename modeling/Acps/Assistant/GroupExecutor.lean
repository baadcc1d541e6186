import Acps.Assistant.AipExecutor

/-!
The executor of the leader for tasks in a group: the partners report their states to the group, and each
round reads the results from there and sorts the partners.
-/

namespace Acps.Assistant.AipExecutor.GroupExecutor

open Partner (TaskState)

def failedStates : List TaskState := [.failed, .rejected, .canceled]

structure GroupTasks where
  states : String → Option TaskState
  products : String → Option String
  prompts : String → Option String

def addOnce (aics : List String) (aic : String) : List String :=
  if aic ∈ aics then aics else aics ++ [aic]

def categorizePartner (result : ExecutionResult) (aic : String) (state : TaskState)
    (dataItems : List String) : ExecutionResult :=
  let result := { result with
    awaitingInputPartners := result.awaitingInputPartners.erase aic
    awaitingCompletionPartners := result.awaitingCompletionPartners.erase aic
    completedPartners := result.completedPartners.erase aic
    failedPartners := result.failedPartners.erase aic }
  match state with
  | .awaitingInput =>
    { result with
      awaitingInputPartners := addOnce result.awaitingInputPartners aic
      questionsForUser := result.questionsForUser ++ dataItems }
  | .awaitingCompletion =>
    { result with
      awaitingCompletionPartners := addOnce result.awaitingCompletionPartners aic }
  | .completed => { result with completedPartners := addOnce result.completedPartners aic }
  | .failed | .rejected | .canceled =>
    { result with failedPartners := addOnce result.failedPartners aic }
  | .accepted | .working => result

def textItem (text : Option String) : List String := text.toList.filter (· ≠ "")

def selectDataItems (state : TaskState) (product prompt : Option String) : List String :=
  match state with
  | .awaitingCompletion | .completed =>
    if textItem product ≠ [] then textItem product else textItem prompt
  | _ => textItem prompt

def acceptedResult (task : PartnerTaskInfo) : PartnerExecutionResult :=
  { partnerAic := task.1, dimensionId := task.2, state := .accepted, task := none, dataItems := []
    error := none }

def updateFromGroup (group : GroupTasks) (result : ExecutionResult) (task : PartnerTaskInfo) :
    ExecutionResult :=
  match group.states task.1 with
  | none =>
    if task.1 ∈ result.partnerResults.map PartnerExecutionResult.partnerAic then result
    else { result with
      partnerResults := setResult result.partnerResults (acceptedResult task) }
  | some state =>
    let dataItems := selectDataItems state (group.products task.1) (group.prompts task.1)
    let per := { partnerAic := task.1, dimensionId := task.2, state, task := none, dataItems
                 error := none }
    categorizePartner { result with partnerResults := setResult result.partnerResults per } task.1
      state dataItems

def updatePartner (group : GroupTasks) (result : ExecutionResult) (task : PartnerTaskInfo) :
    ExecutionResult :=
  match Keyed.find PartnerExecutionResult.partnerAic result.partnerResults task.1 with
  | some existing =>
    if existing.state ∈ failedStates then categorizePartner result task.1 existing.state []
    else updateFromGroup group result task
  | none => updateFromGroup group result task

def updateResultFromGroupState (group : GroupTasks) (tasks : List PartnerTaskInfo)
    (result : ExecutionResult) : ExecutionResult :=
  tasks.foldl (updatePartner group)
    { result with
      awaitingInputPartners := [], awaitingCompletionPartners := [], completedPartners := []
      failedPartners := [], questionsForUser := [] }

def checkConvergence (result : ExecutionResult) : Bool × ExecutionPhase :=
  let total := result.partnerResults.length
  let awaitingInput := result.awaitingInputPartners.length
  let awaitingCompletion := result.awaitingCompletionPartners.length
  let failed := result.failedPartners.length
  let terminal := result.completedPartners.length + failed
  if total = 0 then (true, .completed)
  else if awaitingInput + awaitingCompletion + terminal < total then (false, .polling)
  else if 0 < awaitingInput then (true, .awaitingInput)
  else if 0 < awaitingCompletion then (true, .awaitingCompletion)
  else if failed = total then (true, .failed)
  else (true, .completed)

section Results

variable {results : List PartnerExecutionResult}

theorem addOnce_nodup {aics : List String} {aic : String} (h : aics.Nodup) :
    (addOnce aics aic).Nodup := by
  unfold addOnce
  split
  next => exact h
  next hnew => exact List.nodup_append.mpr ⟨h, List.nodup_singleton _, by
      intro a ha b hb
      rw [List.mem_singleton.mp hb]
      exact fun heq => hnew (heq ▸ ha)⟩

theorem mem_addOnce {aics : List String} {aic a : String} :
    a ∈ addOnce aics aic ↔ a ∈ aics ∨ a = aic := by
  unfold addOnce
  split
  next hold =>
    constructor
    · exact Or.inl
    · rintro (h | rfl)
      · exact h
      · exact hold
  next => rw [List.mem_append, List.mem_singleton]

theorem setResult_aics (results : List PartnerExecutionResult) (per : PartnerExecutionResult) :
    (setResult results per).map PartnerExecutionResult.partnerAic =
      addOnce (results.map PartnerExecutionResult.partnerAic) per.partnerAic := by
  unfold setResult addOnce
  cases hfind : Keyed.find PartnerExecutionResult.partnerAic results per.partnerAic with
  | none =>
    have hnew : per.partnerAic ∉ results.map PartnerExecutionResult.partnerAic := by
      intro hmem
      obtain ⟨row, hrow, heq⟩ := List.mem_map.mp hmem
      exact Keyed.find_eq_none.mp hfind row hrow heq
    rw [if_neg hnew]
    simp
  | some existing =>
    have hmem : per.partnerAic ∈ results.map PartnerExecutionResult.partnerAic :=
      List.mem_map.mpr ⟨existing, Keyed.mem_of_find hfind, Keyed.key_of_find hfind⟩
    rw [if_pos hmem]
    unfold Keyed.modify
    rw [Option.isSome_some, if_pos rfl, List.map_map]
    apply List.map_congr_left
    intro row _
    dsimp only [Function.comp]
    split
    next heq => exact heq.symm
    next => rfl

theorem find_setResult_of_ne {aic : String} {per : PartnerExecutionResult}
    (hne : aic ≠ per.partnerAic) :
    Keyed.find PartnerExecutionResult.partnerAic (setResult results per) aic =
      Keyed.find PartnerExecutionResult.partnerAic results aic := by
  unfold setResult
  split
  · unfold Keyed.find Keyed.modify
    rw [List.find?_map]
    have hsame : ((fun row : PartnerExecutionResult => decide (row.partnerAic = aic)) ∘
        fun row => if row.partnerAic = per.partnerAic then per else row) =
          fun row => decide (row.partnerAic = aic) := by
      funext row
      dsimp only [Function.comp]
      split
      next heq => rw [heq]
      next => rfl
    rw [hsame]
    cases hfind : results.find? fun row => row.partnerAic = aic with
    | none => rfl
    | some row =>
      have haic : row.partnerAic = aic := by simpa using List.find?_some hfind
      rw [Option.map_some, if_neg (haic ▸ hne)]
  · unfold Keyed.find
    rw [List.find?_append, List.find?_singleton, if_neg (by simpa using hne.symm), Option.or_none]

theorem categorizePartner_results (result : ExecutionResult) (aic : String) (state : TaskState)
    (dataItems : List String) :
    (categorizePartner result aic state dataItems).partnerResults = result.partnerResults := by
  unfold categorizePartner
  cases state <;> rfl

theorem updatePartner_aics (group : GroupTasks) (result : ExecutionResult) (task : PartnerTaskInfo) :
    (updatePartner group result task).partnerResults.map PartnerExecutionResult.partnerAic =
      addOnce (result.partnerResults.map PartnerExecutionResult.partnerAic) task.1 := by
  have hupdate : (updateFromGroup group result task).partnerResults.map
      PartnerExecutionResult.partnerAic =
        addOnce (result.partnerResults.map PartnerExecutionResult.partnerAic) task.1 := by
    unfold updateFromGroup
    split
    · split
      next hold => exact (if_pos hold).symm
      next => exact setResult_aics _ (acceptedResult task)
    · rw [categorizePartner_results]
      exact setResult_aics _ _
  unfold updatePartner
  split
  next existing hfind =>
    split
    · rw [categorizePartner_results]
      exact (if_pos (List.mem_map.mpr
        ⟨existing, Keyed.mem_of_find hfind, Keyed.key_of_find hfind⟩)).symm
    · exact hupdate
  next => exact hupdate

theorem updateResultFromGroupState_distinct {result : ExecutionResult}
    (h : Keyed.Unique PartnerExecutionResult.partnerAic result.partnerResults) (group : GroupTasks)
    (tasks : List PartnerTaskInfo) :
    Keyed.Unique PartnerExecutionResult.partnerAic
      (updateResultFromGroupState group tasks result).partnerResults := by
  have hfold (result : ExecutionResult)
      (h : Keyed.Unique PartnerExecutionResult.partnerAic result.partnerResults) :
      Keyed.Unique PartnerExecutionResult.partnerAic
        (tasks.foldl (updatePartner group) result).partnerResults := by
    induction tasks generalizing result with
    | nil => exact h
    | cons task tasks ih =>
      apply ih
      unfold Keyed.Unique
      rw [updatePartner_aics]
      exact addOnce_nodup h
  exact hfold _ h

end Results

end Acps.Assistant.AipExecutor.GroupExecutor
