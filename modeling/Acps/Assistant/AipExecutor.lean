import Mathlib.Data.List.Nodup
import Acps.Lib.Keyed
import Acps.Assistant.NotificationExecutor

/-!
The executor of the leader: each partner of a plan is executed over a stream, over notifications or by
polling over RPC, as its capabilities say, and the results are merged and classified.
-/

namespace Acps.Assistant.AipExecutor

open Partner (TaskState)

def stableStates : List TaskState :=
  [.awaitingInput, .awaitingCompletion, .completed, .failed, .rejected, .canceled]

structure PartnerExecutionResult where
  partnerAic : String
  dimensionId : String
  state : TaskState
  task : Option TaskResult
  dataItems : List String
  error : Option String
  deriving DecidableEq

structure ExecutionResult where
  phase : ExecutionPhase
  partnerResults : List PartnerExecutionResult
  awaitingInputPartners : List String
  awaitingCompletionPartners : List String
  completedPartners : List String
  failedPartners : List String
  questionsForUser : List String
  products : List (String × List String)
  error : Option String
  deriving DecidableEq

def ExecutionResult.ofPhase (phase : ExecutionPhase) : ExecutionResult :=
  { phase, partnerResults := [], awaitingInputPartners := [], awaitingCompletionPartners := []
    completedPartners := [], failedPartners := [], questionsForUser := [], products := []
    error := none }

section Results

def setResult (results : List PartnerExecutionResult) (per : PartnerExecutionResult) :
    List PartnerExecutionResult :=
  if (Keyed.find PartnerExecutionResult.partnerAic results per.partnerAic).isSome then
    Keyed.modify PartnerExecutionResult.partnerAic results per.partnerAic fun _ => per
  else results ++ [per]

def setProducts (products : List (String × List String)) (aic : String) (items : List String) :
    List (String × List String) :=
  if (Keyed.find Prod.fst products aic).isSome then
    Keyed.modify Prod.fst products aic fun _ => (aic, items)
  else products ++ [(aic, items)]

def extendProducts (products : List (String × List String)) (aic : String) (items : List String) :
    List (String × List String) :=
  if (Keyed.find Prod.fst products aic).isSome then
    Keyed.modify Prod.fst products aic fun product => (aic, product.2 ++ items)
  else products ++ [(aic, items)]

def classify (result : ExecutionResult) (per : PartnerExecutionResult) : ExecutionResult :=
  match per.state with
  | .awaitingInput =>
    { result with
      awaitingInputPartners := result.awaitingInputPartners ++ [per.partnerAic]
      questionsForUser := result.questionsForUser ++ per.dataItems }
  | .awaitingCompletion =>
    { result with
      awaitingCompletionPartners := result.awaitingCompletionPartners ++ [per.partnerAic]
      products := setProducts result.products per.partnerAic per.dataItems }
  | .completed =>
    { result with
      completedPartners := result.completedPartners ++ [per.partnerAic]
      products := (per.task.elim [] TaskResult.products).foldl
        (fun products product => extendProducts products per.partnerAic product) result.products }
  | .failed | .rejected | .canceled =>
    { result with failedPartners := result.failedPartners ++ [per.partnerAic] }
  | .accepted | .working => result

def classifyResults (result : ExecutionResult) : ExecutionResult :=
  result.partnerResults.foldl classify
    { result with
      awaitingInputPartners := [], awaitingCompletionPartners := [], completedPartners := []
      failedPartners := [], questionsForUser := [], products := [] }

def checkConvergence (states : List TaskState) : Bool × ExecutionPhase :=
  if ¬ ∀ state ∈ states, state ∈ stableStates then (false, .polling)
  else if .awaitingInput ∈ states then (true, .awaitingInput)
  else if .awaitingCompletion ∈ states then (true, .awaitingCompletion)
  else if ∀ state ∈ states, state ∈ terminalStates then
    if ∀ state ∈ states, state = .completed then (true, .completed) else (true, .failed)
  else (false, .polling)

def ExecutionResult.states (result : ExecutionResult) : List TaskState :=
  result.partnerResults.map PartnerExecutionResult.state

def merge (dest src : ExecutionResult) : ExecutionResult :=
  { dest with
    partnerResults := src.partnerResults.foldl setResult dest.partnerResults
    completedPartners := dest.completedPartners ++ src.completedPartners
    failedPartners := dest.failedPartners ++ src.failedPartners
    awaitingInputPartners := dest.awaitingInputPartners ++ src.awaitingInputPartners
    awaitingCompletionPartners := dest.awaitingCompletionPartners ++ src.awaitingCompletionPartners
    questionsForUser := dest.questionsForUser ++ src.questionsForUser
    products := src.products.foldl (fun products product => setProducts products product.1 product.2)
      dest.products }

end Results

structure Acs where
  endpoint : Bool
  streaming : Bool
  notification : Bool

inductive ExecutorStrategy where
  | stream
  | notification
  | rpc
  deriving DecidableEq

def selectExecutorStrategy (acs : Acs) : ExecutorStrategy :=
  if acs.streaming then .stream else if acs.notification then .notification else .rpc

structure Executor where
  acsCache : String → Acs
  notificationExecutor : Bool
  maxExecutionRounds : ℕ

def Executor.strategy (e : Executor) (aic : String) : ExecutorStrategy :=
  match selectExecutorStrategy (e.acsCache aic) with
  | .stream => .stream
  | .notification => if e.notificationExecutor then .notification else .rpc
  | .rpc => .rpc

abbrev PartnerTaskInfo := String × String

def addPartner (e : Executor) (tasks : List PartnerTaskInfo) (selected : String × String) :
    List PartnerTaskInfo :=
  if (e.acsCache selected.2).endpoint ∧ selected.2 ∉ tasks.map Prod.fst then
    tasks ++ [(selected.2, selected.1)]
  else tasks

def selections (planning : PlanningResult) : List (String × String) :=
  planning.selectedPartners.flatMap fun selected => selected.2.map (selected.1, ·)

def buildPartnerTasks (e : Executor) (planning : PlanningResult) : List PartnerTaskInfo :=
  (selections planning).foldl (addPartner e) []

def narrow (planning : PlanningResult) (keepAics : List String) : PlanningResult :=
  { selectedPartners := planning.selectedPartners.filterMap fun selected =>
      let filtered := selected.2.filter (· ∈ keepAics)
      if filtered ≠ [] then some (selected.1, filtered) else none }

inductive StreamEvent where
  | taskResult (result : TaskResult)
  | other
  deriving DecidableEq

/-- What the leader sees of its partners: the events of a stream, the end of a wait for a
notification, the answers to the start (at 0) and to each poll. `expired` tells in which rounds the
polling has taken too long. -/
structure Seen where
  events : String → List StreamEvent
  notified : String → NotifiedTask
  polled : String → ℕ → TaskResult
  expired : ℕ → Bool

def runStream : Option TaskResult → List StreamEvent → Option TaskResult
  | last, [] => last
  | _, .taskResult result :: rest =>
    if result.state ∈ stableStates then some result else runStream (some result) rest
  | last, .other :: rest => runStream last rest

def PartnerExecutionResult.ofTask (task : PartnerTaskInfo) (result : TaskResult) :
    PartnerExecutionResult :=
  { partnerAic := task.1, dimensionId := task.2, state := result.state, task := some result
    dataItems := result.dataItems, error := none }

def PartnerExecutionResult.ofError (task : PartnerTaskInfo) (error : String) :
    PartnerExecutionResult :=
  { partnerAic := task.1, dimensionId := task.2, state := .failed, task := none, dataItems := []
    error := some error }

def executeOneStreamPartner (seen : Seen) (task : PartnerTaskInfo) : PartnerExecutionResult :=
  match runStream none (seen.events task.1) with
  | some final => .ofTask task final
  | none => .ofError task "No terminal event received from SSE stream"

def executeOneNotificationPartner (seen : Seen) (task : PartnerTaskInfo) : PartnerExecutionResult :=
  match (seen.notified task.1).future with
  | .resolved final => .ofTask task final
  | .pending | .cancelled => .ofError task "Notification callback timed out after 300.0s"

def assemble (awaiting : Bool) (result : ExecutionResult) (per : PartnerExecutionResult) :
    ExecutionResult :=
  let result := { result with partnerResults := setResult result.partnerResults per }
  match per.state, awaiting with
  | .completed, _ =>
    { result with
      completedPartners := result.completedPartners ++ [per.partnerAic]
      products := if per.dataItems ≠ [] then
        setProducts result.products per.partnerAic per.dataItems else result.products }
  | .awaitingInput, true =>
    { result with
      awaitingInputPartners := result.awaitingInputPartners ++ [per.partnerAic]
      questionsForUser := result.questionsForUser ++ per.dataItems }
  | .awaitingCompletion, true =>
    { result with
      awaitingCompletionPartners := result.awaitingCompletionPartners ++ [per.partnerAic]
      products := if per.dataItems ≠ [] then
        setProducts result.products per.partnerAic per.dataItems else result.products }
  | _, _ => { result with failedPartners := result.failedPartners ++ [per.partnerAic] }

def executeStreamingPartners (seen : Seen) (tasks : List PartnerTaskInfo) : ExecutionResult :=
  (tasks.map (executeOneStreamPartner seen)).foldl (assemble true) (.ofPhase .completed)

def executeNotificationPartners (seen : Seen) (tasks : List PartnerTaskInfo) : ExecutionResult :=
  (tasks.map (executeOneNotificationPartner seen)).foldl (assemble false) (.ofPhase .completed)

def pollAllPartners (seen : Seen) (tasks : List PartnerTaskInfo) (n : ℕ)
    (results : List PartnerExecutionResult) : List PartnerExecutionResult :=
  results.map fun per =>
    if per.partnerAic ∈ tasks.map Prod.fst then
      let task := seen.polled per.partnerAic n
      { per with state := task.state, task := some task, dataItems := task.dataItems }
    else per

def pollUntilConverged (seen : Seen) (tasks : List PartnerTaskInfo) :
    ℕ → ℕ → ExecutionResult → ExecutionResult
  | _, 0, result => result
  | n, rounds + 1, result =>
    if seen.expired n then { result with phase := .timeout, error := some "Execution timeout" }
    else
      let result := { result with
        partnerResults := pollAllPartners seen tasks n result.partnerResults }
      match checkConvergence result.states with
      | (true, phase) => { result with phase }
      | (false, _) => pollUntilConverged seen tasks (n + 1) rounds result

def executeTasks (e : Executor) (seen : Seen) (planning : PlanningResult) : ExecutionResult :=
  let tasks := buildPartnerTasks e planning
  if tasks = [] then .ofPhase .completed
  else
    let started := tasks.map fun task => PartnerExecutionResult.ofTask task (seen.polled task.1 0)
    classifyResults (pollUntilConverged seen tasks 1 e.maxExecutionRounds
      { ExecutionResult.ofPhase .polling with
        partnerResults := started.foldl setResult [] })

def execute (e : Executor) (seen : Seen) (planning : PlanningResult) : ExecutionResult :=
  let tasks := buildPartnerTasks e planning
  if tasks = [] then .ofPhase .completed
  else
    let streamTasks := tasks.filter fun task => e.strategy task.1 = .stream
    let notificationTasks := tasks.filter fun task => e.strategy task.1 = .notification
    let rpcTasks := tasks.filter fun task => e.strategy task.1 = .rpc
    let result := ExecutionResult.ofPhase .starting
    let result := if streamTasks ≠ [] then
      merge result (executeStreamingPartners seen streamTasks) else result
    let result := if notificationTasks ≠ [] then
      merge result (executeNotificationPartners seen notificationTasks) else result
    let result := if rpcTasks ≠ [] then
        merge result (executeTasks e seen (narrow planning (rpcTasks.map Prod.fst)))
      else if streamTasks ≠ [] ∨ notificationTasks ≠ [] then { result with phase := .completed }
      else result
    let result := classifyResults result
    match checkConvergence result.states with
    | (true, phase) => { result with phase }
    | (false, _) => result

section Results

variable {results pers : List PartnerExecutionResult} {result : ExecutionResult}

theorem mem_setResult {per other : PartnerExecutionResult} (h : other ∈ setResult results per) :
    other = per ∨ other ∈ results := by
  unfold setResult at h
  split at h
  · obtain ⟨old, hold, rfl⟩ := Keyed.mem_modify.mp h
    split
    · exact .inl rfl
    · exact .inr hold
  · rcases List.mem_append.mp h with h | h
    · exact .inr h
    · exact .inl (List.mem_singleton.mp h)

theorem foldl_setResult
    (hdistinct : Keyed.Unique PartnerExecutionResult.partnerAic (results ++ pers)) :
    pers.foldl setResult results = results ++ pers := by
  induction pers generalizing results with
  | nil => exact (List.append_nil _).symm
  | cons per pers ih =>
    have hfresh : Keyed.find PartnerExecutionResult.partnerAic results per.partnerAic = none := by
      apply Keyed.find_eq_none.mpr
      intro row hrow
      unfold Keyed.Unique at hdistinct
      rw [List.map_append, List.nodup_append] at hdistinct
      exact hdistinct.2.2 _ (List.mem_map_of_mem hrow) _ (List.mem_map_of_mem List.mem_cons_self)
    rw [List.append_cons] at hdistinct
    have hset : setResult results per = results ++ [per] := by
      unfold setResult
      rw [hfresh]
      rfl
    rw [List.foldl_cons, hset, ih hdistinct, ← List.append_cons]

theorem assemble_partnerResults (awaiting : Bool) :
    (pers.foldl (assemble awaiting) result).partnerResults =
      pers.foldl setResult result.partnerResults := by
  induction pers generalizing result with
  | nil => rfl
  | cons per pers ih =>
    rw [List.foldl_cons, List.foldl_cons, ih]
    congr 1
    unfold assemble
    split <;> rfl

def aicsIn (states : List TaskState) (pers : List PartnerExecutionResult) : List String :=
  (pers.filter (·.state ∈ states)).map PartnerExecutionResult.partnerAic

def questionsOf (pers : List PartnerExecutionResult) : List String :=
  (pers.filter (·.state = .awaitingInput)).flatMap PartnerExecutionResult.dataItems

structure Classified (pers : List PartnerExecutionResult) (before after : ExecutionResult) :
    Prop where
  partnerResults : after.partnerResults = before.partnerResults
  phase : after.phase = before.phase
  awaitingInput : after.awaitingInputPartners =
    before.awaitingInputPartners ++ aicsIn [.awaitingInput] pers
  awaitingCompletion : after.awaitingCompletionPartners =
    before.awaitingCompletionPartners ++ aicsIn [.awaitingCompletion] pers
  completed : after.completedPartners = before.completedPartners ++ aicsIn [.completed] pers
  failed : after.failedPartners =
    before.failedPartners ++ aicsIn [.failed, .rejected, .canceled] pers
  questions : after.questionsForUser = before.questionsForUser ++ questionsOf pers

theorem classify_classified (result : ExecutionResult) (per : PartnerExecutionResult) :
    Classified [per] result (classify result per) := by
  unfold classify
  cases hstate : per.state <;> constructor <;> simp [aicsIn, questionsOf, hstate]

theorem Classified.append {pers' : List PartnerExecutionResult} {before middle after : ExecutionResult}
    (h : Classified pers before middle) (h' : Classified pers' middle after) :
    Classified (pers ++ pers') before after where
  partnerResults := h'.partnerResults.trans h.partnerResults
  phase := h'.phase.trans h.phase
  awaitingInput := by simp [h'.awaitingInput, h.awaitingInput, aicsIn]
  awaitingCompletion := by simp [h'.awaitingCompletion, h.awaitingCompletion, aicsIn]
  completed := by simp [h'.completed, h.completed, aicsIn]
  failed := by simp [h'.failed, h.failed, aicsIn]
  questions := by simp [h'.questions, h.questions, questionsOf]

theorem foldl_classify (pers : List PartnerExecutionResult) (result : ExecutionResult) :
    Classified pers result (pers.foldl classify result) := by
  induction pers generalizing result with
  | nil => constructor <;> simp [aicsIn, questionsOf]
  | cons per pers ih => exact (classify_classified result per).append (ih _)

end Results

section Convergence

variable {states states' : List TaskState}

theorem checkConvergence_eq_true :
    (checkConvergence states).1 = true ↔ ∀ state ∈ states, state ∈ stableStates := by
  constructor
  · intro h
    by_contra hnot
    unfold checkConvergence at h
    rw [if_pos hnot] at h
    cases h
  · intro hstable
    unfold checkConvergence
    rw [if_neg (not_not.mpr hstable)]
    split
    · rfl
    next hinput =>
      split
      · rfl
      next hcompletion =>
        have hterminal : ∀ state ∈ states, state ∈ terminalStates := by
          intro state hstate
          have hclass := hstable state hstate
          cases state with
          | awaitingInput => exact (hinput hstate).elim
          | awaitingCompletion => exact (hcompletion hstate).elim
          | accepted | working | completed | failed | rejected | canceled => revert hclass; decide
        rw [if_pos hterminal]
        split <;> rfl

theorem checkConvergence_congr (h : ∀ state, state ∈ states ↔ state ∈ states') :
    checkConvergence states = checkConvergence states' := by
  unfold checkConvergence
  simp only [h]

end Convergence

section Plans

variable {e : Executor}

theorem addPartner_distinct {tasks : List PartnerTaskInfo} (h : Keyed.Unique Prod.fst tasks)
    (selected : String × String) : Keyed.Unique Prod.fst (addPartner e tasks selected) := by
  unfold addPartner
  split
  next hnew =>
    apply Keyed.unique_append h
    intro task htask heq
    exact hnew.2 (List.mem_map.mpr ⟨task, htask, heq⟩)
  next => exact h

theorem buildPartnerTasks_distinct (e : Executor) (planning : PlanningResult) :
    Keyed.Unique Prod.fst (buildPartnerTasks e planning) := by
  have hfold (selected : List (String × String)) :
      ∀ tasks, Keyed.Unique Prod.fst tasks →
        Keyed.Unique Prod.fst (selected.foldl (addPartner e) tasks) := by
    induction selected with
    | nil => exact fun _ h => h
    | cons first rest ih => exact fun tasks h => ih _ (addPartner_distinct h first)
  exact hfold _ [] List.nodup_nil

theorem selections_narrow (planning : PlanningResult) (keepAics : List String) :
    selections (narrow planning keepAics) =
      (selections planning).filter fun selected => selected.2 ∈ keepAics := by
  obtain ⟨dimensions⟩ := planning
  unfold selections narrow
  dsimp only
  induction dimensions with
  | nil => rfl
  | cons selected rest ih =>
    have hhead : (selected.2.map fun aic => (selected.1, aic)).filter (fun s => s.2 ∈ keepAics) =
        (selected.2.filter (· ∈ keepAics)).map fun aic => (selected.1, aic) := by
      rw [List.filter_map]
      rfl
    rw [List.flatMap_cons, List.filter_append, hhead, ← ih, List.filterMap_cons]
    by_cases hnone : selected.2.filter (· ∈ keepAics) = []
    · simp [hnone]
    · simp only [hnone, ne_eq, not_false_eq_true, if_true]
      rw [List.flatMap_cons]

theorem buildPartnerTasks_narrow (e : Executor) (planning : PlanningResult)
    (keepAics : List String) :
    buildPartnerTasks e (narrow planning keepAics) =
      (buildPartnerTasks e planning).filter fun task => task.1 ∈ keepAics := by
  have hadd (tasks : List PartnerTaskInfo) (selected : String × String) :
      (addPartner e tasks selected).filter (fun task => task.1 ∈ keepAics) =
        if selected.2 ∈ keepAics then
          addPartner e (tasks.filter fun task => task.1 ∈ keepAics) selected
        else tasks.filter fun task => task.1 ∈ keepAics := by
    have hknown (hkeep : selected.2 ∈ keepAics) :
        selected.2 ∈ (tasks.filter fun task => task.1 ∈ keepAics).map Prod.fst ↔
          selected.2 ∈ tasks.map Prod.fst := by
      simp only [List.mem_map, List.mem_filter, decide_eq_true_eq]
      constructor
      · rintro ⟨task, ⟨htask, -⟩, heq⟩
        exact ⟨task, htask, heq⟩
      · rintro ⟨task, htask, heq⟩
        exact ⟨task, ⟨htask, heq ▸ hkeep⟩, heq⟩
    unfold addPartner
    by_cases hkeep : selected.2 ∈ keepAics
    · rw [if_pos hkeep]
      simp only [hknown hkeep]
      split
      · rw [List.filter_append, List.filter_cons_of_pos (by simpa using hkeep), List.filter_nil]
      · rfl
    · rw [if_neg hkeep]
      split
      · rw [List.filter_append, List.filter_cons_of_neg (by simpa using hkeep), List.filter_nil,
          List.append_nil]
      · rfl
  have hfold (selected : List (String × String)) : ∀ tasks : List PartnerTaskInfo,
      (selected.filter fun s => s.2 ∈ keepAics).foldl (addPartner e)
          (tasks.filter fun task => task.1 ∈ keepAics) =
        (selected.foldl (addPartner e) tasks).filter fun task => task.1 ∈ keepAics := by
    induction selected with
    | nil => exact fun _ => rfl
    | cons first rest ih =>
      intro tasks
      rw [List.foldl_cons, ← ih, hadd]
      by_cases hkeep : first.2 ∈ keepAics
      · rw [List.filter_cons_of_pos (by simpa using hkeep), if_pos hkeep, List.foldl_cons]
      · rw [List.filter_cons_of_neg (by simpa using hkeep), if_neg hkeep]
  unfold buildPartnerTasks
  rw [selections_narrow]
  exact hfold _ []

end Plans

theorem runStream_eq {pre post : List StreamEvent} {final : TaskResult}
    (hunstable : ∀ r, .taskResult r ∈ pre → r.state ∉ stableStates)
    (hstable : final.state ∈ stableStates) (last : Option TaskResult) :
    runStream last (pre ++ .taskResult final :: post) = some final := by
  induction pre generalizing last with
  | nil => exact if_pos hstable
  | cons event pre ih =>
    have ih := ih fun r hr => hunstable r (List.mem_cons_of_mem _ hr)
    cases event with
    | taskResult r =>
      rw [List.cons_append, runStream, if_neg (hunstable r List.mem_cons_self)]
      exact ih _
    | other => exact ih _

end Acps.Assistant.AipExecutor
