import Acps.Assistant.GroupExecutor
import Acps.Assistant.CompletionGate

/-!
Three parts of the leader sort the partners of a task by their states and draw the phase of the
execution from it: the executor that polls, the executor of a group, and the completion gate.
-/

namespace Acps.Assistant.AipExecutor.Convergence

open Partner (TaskState)
open GroupExecutor (GroupTasks failedStates addOnce addOnce_nodup mem_addOnce categorizePartner
  categorizePartner_results find_setResult_of_ne updatePartner updatePartner_aics
  updateResultFromGroupState)
open CompletionGate (reclassify updateExecutionPhase foldl_reclassify)

def lists (result : ExecutionResult) : List (List String) :=
  [result.awaitingInputPartners, result.awaitingCompletionPartners, result.completedPartners,
    result.failedPartners]

def convergedPhases : List ExecutionPhase :=
  [.awaitingInput, .awaitingCompletion, .completed, .failed]

def AllStable (result : ExecutionResult) : Prop :=
  ∀ state ∈ result.states, state ∈ stableStates

instance (result : ExecutionResult) : Decidable (AllStable result) :=
  inferInstanceAs (Decidable (∀ _ ∈ _, _))

structure Agreement (assigned grouped : ExecutionResult) : Prop where
  lists : AllStable assigned → lists grouped = lists (classifyResults assigned) ∧
    lists (updateExecutionPhase assigned) = lists (classifyResults assigned)
  phases : AllStable assigned →
    GroupExecutor.checkConvergence grouped = checkConvergence assigned.states ∧
      (updateExecutionPhase assigned).phase = (checkConvergence assigned.states).2
  unstable : ¬ AllStable assigned → (checkConvergence assigned.states).1 = false ∧
    (checkConvergence assigned.states).2 ∉ convergedPhases ∧
    (GroupExecutor.checkConvergence grouped).1 = false ∧
    (GroupExecutor.checkConvergence grouped).2 ∉ convergedPhases ∧
    (updateExecutionPhase assigned).phase ∉ convergedPhases

def Uniform (assigned : ExecutionResult) : Prop :=
  if AllStable assigned then
    (assigned.states = [] → assigned.phase = .completed) ∧
      (.awaitingInput ∈ assigned.states ∨ .awaitingCompletion ∈ assigned.states ∨
        ¬ (.completed ∈ assigned.states ∧ ∃ state ∈ failedStates, state ∈ assigned.states))
  else
    (∀ state ∈ assigned.states, state ∉ stableStates) ∧ assigned.phase ∉ convergedPhases

section Group

def stateOf (group : GroupTasks) (results : List PartnerExecutionResult) (aic : String) :
    Option TaskState :=
  match Keyed.find PartnerExecutionResult.partnerAic results aic with
  | some existing => if existing.state ∈ failedStates then some existing.state else group.states aic
  | none => group.states aic

structure Reports (group : GroupTasks) (held pers : List PartnerExecutionResult) : Prop where
  states : ∀ per ∈ pers, stateOf group held per.partnerAic = some per.state
  known : ∀ per ∈ held, per.partnerAic ∈ pers.map PartnerExecutionResult.partnerAic
  distinct : Keyed.Unique PartnerExecutionResult.partnerAic held

def tasksOf (pers : List PartnerExecutionResult) : List PartnerTaskInfo :=
  pers.map fun per => (per.partnerAic, per.dimensionId)

variable {group : GroupTasks} {results pers : List PartnerExecutionResult} {result : ExecutionResult}

def Sorted (result : ExecutionResult) (aic : String) (state : TaskState) (after : ExecutionResult) :
    Prop :=
  ∃ (results : List PartnerExecutionResult) (dataItems : List String),
    after = categorizePartner { result with partnerResults := results } aic state dataItems ∧
    ∀ other, other ≠ aic →
      Keyed.find PartnerExecutionResult.partnerAic results other =
        Keyed.find PartnerExecutionResult.partnerAic result.partnerResults other

theorem updateFromGroup_sorted {task : PartnerTaskInfo} {state : TaskState}
    (hgroup : group.states task.1 = some state) :
    Sorted result task.1 state (GroupExecutor.updateFromGroup group result task) := by
  let dataItems :=
    GroupExecutor.selectDataItems state (group.products task.1) (group.prompts task.1)
  let per : PartnerExecutionResult :=
    { partnerAic := task.1, dimensionId := task.2, state, task := none, dataItems, error := none }
  refine ⟨setResult result.partnerResults per, dataItems, ?_,
    fun other hne => find_setResult_of_ne hne⟩
  unfold GroupExecutor.updateFromGroup
  rw [hgroup]

theorem updatePartner_sorted {task : PartnerTaskInfo} {state : TaskState}
    (hstate : stateOf group result.partnerResults task.1 = some state) :
    Sorted result task.1 state (updatePartner group result task) := by
  unfold stateOf at hstate
  unfold updatePartner
  cases hfind : Keyed.find PartnerExecutionResult.partnerAic result.partnerResults task.1 with
  | none =>
    rw [hfind] at hstate
    exact updateFromGroup_sorted hstate
  | some existing =>
    rw [hfind] at hstate
    dsimp only at hstate ⊢
    split at hstate
    next hfailed =>
      rw [if_pos hfailed, Option.some.inj hstate]
      exact ⟨result.partnerResults, [], rfl, fun _ _ => rfl⟩
    next hfailed =>
      rw [if_neg hfailed]
      exact updateFromGroup_sorted hstate

def listsWith (result : ExecutionResult) (pers : List PartnerExecutionResult) : List (List String) :=
  [result.awaitingInputPartners ++ aicsIn [.awaitingInput] pers,
    result.awaitingCompletionPartners ++ aicsIn [.awaitingCompletion] pers,
    result.completedPartners ++ aicsIn [.completed] pers,
    result.failedPartners ++ aicsIn failedStates pers]

theorem listsWith_cons {after : ExecutionResult} {per : PartnerExecutionResult}
    (h : lists after = listsWith result [per]) (pers : List PartnerExecutionResult) :
    listsWith after pers = listsWith result (per :: pers) := by
  have happend (states : List TaskState) (aics : List String) :
      aics ++ aicsIn states [per] ++ aicsIn states pers = aics ++ aicsIn states (per :: pers) := by
    unfold aicsIn
    rw [List.append_assoc, ← List.map_append, ← List.filter_append, List.singleton_append]
  simp only [lists, listsWith, List.cons.injEq, and_true] at h
  unfold listsWith
  rw [h.1, h.2.1, h.2.2.1, h.2.2.2, happend, happend, happend, happend]

theorem Sorted.lists_eq {per : PartnerExecutionResult} {after : ExecutionResult}
    (h : Sorted result per.partnerAic per.state after)
    (hfresh : ∀ aics ∈ lists result, per.partnerAic ∉ aics) :
    lists after = listsWith result [per] := by
  obtain ⟨results, dataItems, rfl, -⟩ := h
  simp only [lists, List.mem_cons, List.not_mem_nil, or_false, forall_eq_or_imp, forall_eq] at hfresh
  obtain ⟨hinput, hcompletion, hcompleted, hfailed⟩ := hfresh
  unfold categorizePartner
  cases hstate : per.state <;>
    simp [lists, listsWith, aicsIn, failedStates, hstate, addOnce, List.erase_of_not_mem, hinput,
      hcompletion, hcompleted, hfailed]

theorem Sorted.stateOf {aic other : String} {state : TaskState} {after : ExecutionResult}
    (h : Sorted result aic state after) (hne : other ≠ aic) :
    stateOf group after.partnerResults other = stateOf group result.partnerResults other := by
  obtain ⟨results, dataItems, rfl, hothers⟩ := h
  unfold Convergence.stateOf
  rw [categorizePartner_results, hothers other hne]

theorem mem_listsWith_single {per : PartnerExecutionResult} {aic : String}
    (h : ∃ aics ∈ listsWith result [per], aic ∈ aics) :
    aic = per.partnerAic ∨ ∃ aics ∈ lists result, aic ∈ aics := by
  have hsingle (states : List TaskState) (ha : aic ∈ aicsIn states [per]) :
      aic = per.partnerAic := by
    obtain ⟨row, hrow, rfl⟩ := List.mem_map.mp ha
    rw [List.mem_singleton.mp (List.mem_of_mem_filter hrow)]
  simp only [listsWith, lists, List.mem_cons, List.not_mem_nil, or_false, exists_eq_or_imp,
    exists_eq_left, List.mem_append] at h ⊢
  rcases h with (h | h) | (h | h) | (h | h) | (h | h)
  all_goals first | exact .inl (hsingle _ h) | simp [h]

theorem foldl_updatePartner (result : ExecutionResult)
    (hdistinct : Keyed.Unique PartnerExecutionResult.partnerAic pers)
    (hstates : ∀ per ∈ pers, stateOf group result.partnerResults per.partnerAic = some per.state)
    (hfresh : ∀ per ∈ pers, ∀ aics ∈ lists result, per.partnerAic ∉ aics) :
    lists ((tasksOf pers).foldl (updatePartner group) result) = listsWith result pers ∧
      ((tasksOf pers).foldl (updatePartner group) result).partnerResults.map
          PartnerExecutionResult.partnerAic =
        (pers.map PartnerExecutionResult.partnerAic).foldl addOnce
          (result.partnerResults.map PartnerExecutionResult.partnerAic) := by
  induction pers generalizing result with
  | nil => simp [tasksOf, lists, listsWith, aicsIn]
  | cons per pers ih =>
    obtain ⟨hnew, hdistinct⟩ := List.nodup_cons.mp hdistinct
    have hsorted : Sorted result per.partnerAic per.state
        (updatePartner group result (per.partnerAic, per.dimensionId)) :=
      updatePartner_sorted (hstates per List.mem_cons_self)
    have hne : ∀ other ∈ pers, other.partnerAic ≠ per.partnerAic := by
      intro other hother heq
      exact hnew (List.mem_map.mpr ⟨other, hother, heq⟩)
    have hlists := hsorted.lists_eq (hfresh per List.mem_cons_self)
    have hrest := ih (updatePartner group result (per.partnerAic, per.dimensionId)) hdistinct
      (fun other hother => by
        rw [hsorted.stateOf (hne other hother)]
        exact hstates other (List.mem_cons_of_mem _ hother))
      (fun other hother aics haics hmem => by
        rw [hlists] at haics
        rcases mem_listsWith_single ⟨aics, haics, hmem⟩ with heq | ⟨old, hold, hmem⟩
        · exact hne other hother heq
        · exact hfresh other (List.mem_cons_of_mem _ hother) old hold hmem)
    rw [listsWith_cons hlists, updatePartner_aics] at hrest
    exact hrest

end Group

section Phases

variable {pers : List PartnerExecutionResult} {result : ExecutionResult}

theorem aicsIn_length (states : List TaskState) (pers : List PartnerExecutionResult) :
    (aicsIn states pers).length = pers.countP fun per => per.state ∈ states := by
  unfold aicsIn
  rw [List.length_map, List.countP_eq_length_filter]

theorem aicsIn_eq_nil {states : List TaskState} :
    aicsIn states result.partnerResults = [] ↔ ∀ state ∈ states, state ∉ result.states := by
  unfold aicsIn
  rw [List.map_eq_nil_iff, List.filter_eq_nil_iff]
  constructor
  · rintro h state hstate hmem
    obtain ⟨per, hper, rfl⟩ := List.mem_map.mp hmem
    exact h per hper (decide_eq_true hstate)
  · intro h per hper hmem
    exact h per.state (of_decide_eq_true hmem) (List.mem_map_of_mem hper)

theorem count_stable (pers : List PartnerExecutionResult) :
    (aicsIn [.awaitingInput] pers).length + (aicsIn [.awaitingCompletion] pers).length +
        ((aicsIn [.completed] pers).length + (aicsIn failedStates pers).length) =
      pers.countP fun per => per.state ∈ stableStates := by
  induction pers with
  | nil => rfl
  | cons per pers ih =>
    simp only [aicsIn_length] at ih ⊢
    cases hstate : per.state <;>
      simp [hstate, failedStates, stableStates] at ih ⊢ <;> omega

theorem count_lt_iff (pers : List PartnerExecutionResult) :
    (pers.countP fun per => per.state ∈ stableStates) < pers.length ↔
      ¬ ∀ per ∈ pers, per.state ∈ stableStates := by
  have hle : (pers.countP fun per => decide (per.state ∈ stableStates)) ≤ pers.length :=
    List.countP_le_length
  have heq : (pers.countP fun per => decide (per.state ∈ stableStates)) = pers.length ↔
      ∀ per ∈ pers, per.state ∈ stableStates := by
    simp [List.countP_eq_length]
  rw [← heq]
  omega

theorem allStable_iff : AllStable result ↔ ∀ per ∈ result.partnerResults, per.state ∈ stableStates := by
  unfold AllStable ExecutionResult.states
  exact List.forall_mem_map

theorem ended_of_stable (hstable : AllStable result) (hinput : .awaitingInput ∉ result.states)
    (hcompletion : .awaitingCompletion ∉ result.states) {state : TaskState}
    (h : state ∈ result.states) : state = .completed ∨ state ∈ failedStates := by
  have hclass := hstable state h
  cases state with
  | awaitingInput => exact (hinput h).elim
  | awaitingCompletion => exact (hcompletion h).elim
  | accepted | working | completed | failed | rejected | canceled => revert hclass; decide

def SomeFailed (result : ExecutionResult) : Prop := ∃ state ∈ failedStates, state ∈ result.states

instance (result : ExecutionResult) : Decidable (SomeFailed result) :=
  inferInstanceAs (Decidable (∃ _ ∈ failedStates, _))

def stablePhase (result : ExecutionResult) : ExecutionPhase :=
  if .awaitingInput ∈ result.states then .awaitingInput
  else if .awaitingCompletion ∈ result.states then .awaitingCompletion
  else if SomeFailed result then .failed
  else .completed

theorem checkConvergence_stable (hstable : AllStable result) :
    checkConvergence result.states = (true, stablePhase result) := by
  have hall : ∀ state ∈ result.states, state ∈ stableStates := hstable
  unfold checkConvergence stablePhase
  rw [if_neg (not_not.mpr hall)]
  split
  · rfl
  next hinput =>
    split
    · rfl
    next hcompletion =>
      have hended (state : TaskState) : state ∈ result.states → _ :=
        ended_of_stable hstable hinput hcompletion
      have hterminal : ∀ state ∈ result.states, state ∈ terminalStates := by
        intro state hstate
        rcases hended state hstate with rfl | hfailed
        · decide
        · revert hfailed
          cases state <;> decide
      have hcompleted : (∀ state ∈ result.states, state = .completed) ↔ ¬ SomeFailed result := by
        constructor
        · rintro h ⟨state, hfailed, hstate⟩
          rw [h state hstate] at hfailed
          revert hfailed
          decide
        · intro h state hstate
          exact (hended state hstate).resolve_right fun hfailed => h ⟨state, hfailed, hstate⟩
      rw [if_pos hterminal]
      by_cases hfailed : SomeFailed result
      · rw [if_pos hfailed, if_neg (fun h => hcompleted.mp h hfailed)]
      · rw [if_neg hfailed, if_pos (hcompleted.mpr hfailed)]

theorem checkConvergence_unstable (hunstable : ¬ AllStable result) :
    checkConvergence result.states = (false, .polling) := if_pos hunstable

theorem updateExecutionPhase_lists (result : ExecutionResult) :
    lists (updateExecutionPhase result) = listsWith (.ofPhase result.phase) result.partnerResults := by
  unfold updateExecutionPhase
  rw [foldl_reclassify]
  dsimp only
  split <;> [skip; split <;> [skip; split <;> [skip; split]]]
  all_goals rfl

theorem classifyResults_lists (result : ExecutionResult) :
    lists (classifyResults result) = listsWith (.ofPhase result.phase) result.partnerResults := by
  have h := foldl_classify result.partnerResults { result with
    awaitingInputPartners := [], awaitingCompletionPartners := [], completedPartners := []
    failedPartners := [], questionsForUser := [], products := [] }
  unfold classifyResults lists
  rw [h.awaitingInput, h.awaitingCompletion, h.completed, h.failed]
  rfl

theorem updateExecutionPhase_phase (result : ExecutionResult) :
    (updateExecutionPhase result).phase =
      if .awaitingInput ∈ result.states then .awaitingInput
      else if .awaitingCompletion ∈ result.states then .awaitingCompletion
      else if .completed ∈ result.states ∧ ¬ SomeFailed result then .completed
      else if SomeFailed result then .failed
      else result.phase := by
  have hsingle (state : TaskState) :
      aicsIn [state] result.partnerResults ≠ [] ↔ state ∈ result.states := by
    rw [ne_eq, aicsIn_eq_nil]
    simp
  have hfailed : aicsIn [.failed, .rejected, .canceled] result.partnerResults = [] ↔
      ¬ SomeFailed result := by
    rw [aicsIn_eq_nil]
    simp only [SomeFailed, not_exists, not_and]
    rfl
  unfold updateExecutionPhase
  rw [foldl_reclassify]
  simp only [List.nil_append, hsingle, hfailed, ne_eq, not_not]
  split <;> [rfl; split <;> [rfl; split <;> [rfl; split <;> rfl]]]

theorem groupConvergence_eq {grouped : ExecutionResult}
    (hlists : lists grouped = listsWith (.ofPhase result.phase) result.partnerResults)
    (htotal : grouped.partnerResults.length = result.partnerResults.length) :
    GroupExecutor.checkConvergence grouped =
      if result.states = [] then (true, .completed)
      else if ¬ AllStable result then (false, .polling)
      else if .awaitingInput ∈ result.states then (true, .awaitingInput)
      else if .awaitingCompletion ∈ result.states then (true, .awaitingCompletion)
      else if .completed ∈ result.states then (true, .completed)
      else (true, .failed) := by
  have hsingle (state : TaskState) :
      0 < (aicsIn [state] result.partnerResults).length ↔ state ∈ result.states := by
    rw [List.length_pos_iff, ne_eq, aicsIn_eq_nil]
    simp
  have hnone : result.partnerResults.length = 0 ↔ result.states = [] := by
    unfold ExecutionResult.states
    rw [List.map_eq_nil_iff, List.length_eq_zero_iff]
  simp only [lists, listsWith, ExecutionResult.ofPhase, List.nil_append, List.cons.injEq,
    and_true] at hlists
  obtain ⟨hinput, hcompletion, hcompleted, hfailed⟩ := hlists
  unfold GroupExecutor.checkConvergence
  simp only [hinput, hcompletion, hcompleted, hfailed, htotal, count_stable, count_lt_iff, hsingle,
    hnone, ← allStable_iff]
  split
  · rfl
  split
  · rfl
  next hstable =>
    split
    · rfl
    next hno =>
      split
      · rfl
      next hno' =>
        have hended (state : TaskState) : state ∈ result.states → _ :=
          ended_of_stable (not_not.mp hstable) hno hno'
        have hall : (aicsIn failedStates result.partnerResults).length =
            result.partnerResults.length ↔ .completed ∉ result.states := by
          rw [aicsIn_length, List.countP_eq_length]
          constructor
          · intro h hmem
            obtain ⟨per, hper, hstate⟩ := List.mem_map.mp hmem
            have hfailed := of_decide_eq_true (h per hper)
            rw [hstate] at hfailed
            revert hfailed
            decide
          · intro h per hper
            have hmem : per.state ∈ result.states := List.mem_map_of_mem hper
            rcases hended per.state hmem with hcompleted | hfailed
            · exact (h (hcompleted ▸ hmem)).elim
            · exact decide_eq_true hfailed
        simp only [hall, ite_not]

end Phases

theorem updateResultFromGroupState_reported {group : GroupTasks} {assigned held : ExecutionResult}
    (hdistinct : Keyed.Unique PartnerExecutionResult.partnerAic assigned.partnerResults)
    (hreports : Reports group held.partnerResults assigned.partnerResults) :
    lists (updateResultFromGroupState group (tasksOf assigned.partnerResults) held) =
        listsWith (.ofPhase assigned.phase) assigned.partnerResults ∧
      (updateResultFromGroupState group (tasksOf assigned.partnerResults) held).partnerResults.length =
        assigned.partnerResults.length := by
  let aics := assigned.partnerResults.map PartnerExecutionResult.partnerAic
  have hknown (more known : List String) : known.Nodup →
      (more.foldl addOnce known).Nodup ∧ ∀ aic, aic ∈ more.foldl addOnce known ↔ aic ∈ known ∨ aic ∈ more := by
    induction more generalizing known with
    | nil => exact fun h => ⟨h, fun aic => by simp⟩
    | cons first more ih =>
      intro h
      refine ⟨(ih _ (addOnce_nodup h)).1, fun aic => ?_⟩
      rw [List.foldl_cons, (ih _ (addOnce_nodup h)).2, mem_addOnce, List.mem_cons, or_assoc]
  obtain ⟨hlists, haics⟩ := foldl_updatePartner { held with
      awaitingInputPartners := [], awaitingCompletionPartners := [], completedPartners := []
      failedPartners := [], questionsForUser := [] } hdistinct hreports.states
    (fun per _ => by simp [lists])
  refine ⟨hlists, ?_⟩
  obtain ⟨hnodup, hmem⟩ := hknown aics _ hreports.distinct
  have hperm : (aics.foldl addOnce (held.partnerResults.map PartnerExecutionResult.partnerAic)).Perm
      aics := by
    apply (List.perm_ext_iff_of_nodup hnodup hdistinct).mpr
    intro aic
    rw [hmem]
    constructor
    · rintro (hheld | hassigned)
      · obtain ⟨per, hper, rfl⟩ := List.mem_map.mp hheld
        exact hreports.known per hper
      · exact hassigned
    · exact Or.inr
  have hlength := hperm.length_eq
  rw [← haics, List.length_map, List.length_map] at hlength
  exact hlength

section Judgement

variable {assigned : ExecutionResult}

theorem stable_phases_iff {grouped : Bool × ExecutionPhase} (hstable : AllStable assigned)
    (hgrouped : grouped =
      if assigned.states = [] then (true, .completed)
      else if ¬ AllStable assigned then (false, .polling)
      else if .awaitingInput ∈ assigned.states then (true, .awaitingInput)
      else if .awaitingCompletion ∈ assigned.states then (true, .awaitingCompletion)
      else if .completed ∈ assigned.states then (true, .completed)
      else (true, .failed)) :
    (grouped = (true, stablePhase assigned) ∧
        (updateExecutionPhase assigned).phase = stablePhase assigned) ↔
      (assigned.states = [] → assigned.phase = .completed) ∧
        (.awaitingInput ∈ assigned.states ∨ .awaitingCompletion ∈ assigned.states ∨
          ¬ (.completed ∈ assigned.states ∧ SomeFailed assigned)) := by
  rw [updateExecutionPhase_phase, hgrouped]
  by_cases hnil : assigned.states = []
  · have hnone : ¬ SomeFailed assigned := by
      rintro ⟨state, -, hmem⟩
      rw [hnil] at hmem
      exact List.not_mem_nil hmem
    simp [stablePhase, hnil, hnone]
  rw [if_neg hnil, if_neg (not_not.mpr hstable)]
  unfold stablePhase
  by_cases hinput : .awaitingInput ∈ assigned.states
  · simp [hinput, hnil]
  by_cases hcompletion : .awaitingCompletion ∈ assigned.states
  · simp [hinput, hcompletion, hnil]
  have hended (state : TaskState) : state ∈ assigned.states → _ :=
    ended_of_stable hstable hinput hcompletion
  by_cases hcompleted : .completed ∈ assigned.states
  · by_cases hfailed : SomeFailed assigned
    · simp [hinput, hcompletion, hcompleted, hfailed]
    · simp [hinput, hcompletion, hcompleted, hfailed, hnil]
  · have hfailed : SomeFailed assigned := by
      obtain ⟨state, hmem⟩ := List.exists_mem_of_ne_nil _ hnil
      rcases hended state hmem with rfl | hfailed
      · exact (hcompleted hmem).elim
      · exact ⟨state, hfailed, hmem⟩
    simp [hinput, hcompletion, hcompleted, hfailed, hnil]

theorem none_stable_iff : (∀ state ∈ assigned.states, state ∉ stableStates) ↔
    .awaitingInput ∉ assigned.states ∧ .awaitingCompletion ∉ assigned.states ∧
      .completed ∉ assigned.states ∧ ¬ SomeFailed assigned := by
  constructor
  · intro h
    refine ⟨fun hmem => h _ hmem (by decide), fun hmem => h _ hmem (by decide),
      fun hmem => h _ hmem (by decide), ?_⟩
    rintro ⟨state, hfailed, hmem⟩
    apply h state hmem
    revert hfailed
    cases state <;> decide
  · rintro ⟨hinput, hcompletion, hcompleted, hfailed⟩ state hmem hclass
    cases state with
    | awaitingInput => exact hinput hmem
    | awaitingCompletion => exact hcompletion hmem
    | completed => exact hcompleted hmem
    | failed | rejected | canceled => exact hfailed ⟨_, by decide, hmem⟩
    | accepted | working => exact absurd hclass (by decide)

theorem updateExecutionPhase_unconverged :
    (updateExecutionPhase assigned).phase ∉ convergedPhases ↔
      (∀ state ∈ assigned.states, state ∉ stableStates) ∧ assigned.phase ∉ convergedPhases := by
  rw [updateExecutionPhase_phase, none_stable_iff]
  by_cases hinput : .awaitingInput ∈ assigned.states
  · simp [hinput, convergedPhases]
  by_cases hcompletion : .awaitingCompletion ∈ assigned.states
  · simp [hinput, hcompletion, convergedPhases]
  by_cases hcompleted : .completed ∈ assigned.states
  · by_cases hfailed : SomeFailed assigned
    · simp [hinput, hcompletion, hfailed, convergedPhases]
    · simp [hinput, hcompletion, hcompleted, hfailed, convergedPhases]
  by_cases hfailed : SomeFailed assigned
  · simp [hinput, hcompletion, hcompleted, hfailed, convergedPhases]
  · simp [hinput, hcompletion, hcompleted, hfailed]

end Judgement

def mixed : ExecutionResult :=
  { ExecutionResult.ofPhase .polling with
    partnerResults :=
      [{ partnerAic := "partner-a", dimensionId := "dim", state := .completed, task := none
         dataItems := [], error := none },
       { partnerAic := "partner-b", dimensionId := "dim", state := .failed, task := none
         dataItems := [], error := none }] }

def mixedGroup : GroupTasks where
  states aic := some (if aic = "partner-a" then .completed else .failed)
  products _ := none
  prompts _ := none

theorem mixed_reports : Reports mixedGroup [] mixed.partnerResults where
  states := by decide
  known := by decide
  distinct := List.nodup_nil

theorem mixed_disagree :
    Keyed.Unique PartnerExecutionResult.partnerAic mixed.partnerResults ∧
      Reports mixedGroup [] mixed.partnerResults ∧
      ¬ Agreement mixed (updateResultFromGroupState mixedGroup (tasksOf mixed.partnerResults)
        (.ofPhase .polling)) := by
  refine ⟨by unfold Keyed.Unique; decide, mixed_reports, ?_⟩
  intro h
  have hphases := (h.phases (by decide)).1
  revert hphases
  decide

theorem executors_agree_iff {group : GroupTasks} {assigned held : ExecutionResult}
    (hdistinct : Keyed.Unique PartnerExecutionResult.partnerAic assigned.partnerResults)
    (hreports : Reports group held.partnerResults assigned.partnerResults) :
    Agreement assigned
        (updateResultFromGroupState group (tasksOf assigned.partnerResults) held) ↔
      Uniform assigned := by
  obtain ⟨hlists, htotal⟩ := updateResultFromGroupState_reported hdistinct hreports
  have hgrouped := groupConvergence_eq hlists htotal
  unfold Uniform
  by_cases hstable : AllStable assigned
  · rw [if_pos hstable]
    refine Iff.trans ?_ (stable_phases_iff hstable hgrouped)
    constructor
    · intro h
      have hphases := h.phases hstable
      rw [checkConvergence_stable hstable] at hphases
      exact hphases
    · intro hphases
      constructor
      · intro _
        rw [hlists, updateExecutionPhase_lists, classifyResults_lists]
        exact ⟨rfl, rfl⟩
      · intro _
        rw [checkConvergence_stable hstable]
        exact hphases
      · exact fun hunstable => (hunstable hstable).elim
  · rw [if_neg hstable]
    have hnil : assigned.states ≠ [] := by
      intro hnil
      apply hstable
      unfold AllStable
      rw [hnil]
      exact fun _ hmem => (List.not_mem_nil hmem).elim
    rw [if_neg hnil, if_pos hstable] at hgrouped
    refine Iff.trans ?_ updateExecutionPhase_unconverged
    constructor
    · exact fun h => (h.unstable hstable).2.2.2.2
    · intro hphase
      constructor
      · exact fun hall => (hstable hall).elim
      · exact fun hall => (hstable hall).elim
      · intro _
        rw [checkConvergence_unstable hstable, hgrouped]
        exact ⟨rfl, by decide, rfl, by decide, hphase⟩

def allCompleted : ExecutionResult :=
  { mixed with
    partnerResults := mixed.partnerResults.map fun per => { per with state := .completed } }

theorem allCompleted_agree :
    Agreement allCompleted (updateResultFromGroupState
      { mixedGroup with states := fun _ => some .completed } (tasksOf allCompleted.partnerResults)
      (.ofPhase .polling)) :=
  (executors_agree_iff (by unfold Keyed.Unique; decide)
    ⟨by decide, by decide, by unfold Keyed.Unique; decide⟩).mpr (by unfold Uniform; decide)

end Acps.Assistant.AipExecutor.Convergence
