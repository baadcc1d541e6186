import Acps.Assistant.GateResponse
import Acps.Assistant.GroupExecutor

/-!
The completion gate of the leader: what becomes of the partners that offer a product and wait for the
leader to accept it.
-/

namespace Acps.Assistant.AipExecutor.CompletionGate

open Aic (Text)
open Partner (TaskState)
open GroupExecutor (GroupTasks addOnce failedStates updateResultFromGroupState)

def reclassify (result : ExecutionResult) (per : PartnerExecutionResult) : ExecutionResult :=
  match per.state with
  | .awaitingInput =>
    { result with awaitingInputPartners := result.awaitingInputPartners ++ [per.partnerAic] }
  | .awaitingCompletion =>
    { result with
      awaitingCompletionPartners := result.awaitingCompletionPartners ++ [per.partnerAic] }
  | .completed => { result with completedPartners := result.completedPartners ++ [per.partnerAic] }
  | .failed | .rejected | .canceled =>
    { result with failedPartners := result.failedPartners ++ [per.partnerAic] }
  | .accepted | .working => result

def updateExecutionPhase (result : ExecutionResult) : ExecutionResult :=
  let result := result.partnerResults.foldl reclassify
    { result with
      awaitingInputPartners := [], awaitingCompletionPartners := [], completedPartners := []
      failedPartners := [] }
  if result.awaitingInputPartners ≠ [] then { result with phase := .awaitingInput }
  else if result.awaitingCompletionPartners ≠ [] then { result with phase := .awaitingCompletion }
  else if result.completedPartners ≠ [] ∧ result.failedPartners = [] then
    { result with phase := .completed }
  else if result.failedPartners ≠ [] then { result with phase := .failed }
  else result

structure Progress where
  result : ExecutionResult
  shared : List String
  deriving DecidableEq

def withTask (task : TaskResult) (per : PartnerExecutionResult) : PartnerExecutionResult :=
  { per with state := task.state, task := some task }

def withItems (items : List String) (per : PartnerExecutionResult) : PartnerExecutionResult :=
  { per with dataItems := per.dataItems ++ items }

namespace Progress

variable (p : Progress) (aic : String)

def find : Option PartnerExecutionResult :=
  Keyed.find PartnerExecutionResult.partnerAic p.result.partnerResults aic

def modify (f : PartnerExecutionResult → PartnerExecutionResult) : Progress :=
  { p with result := { p.result with
      partnerResults :=
        Keyed.modify PartnerExecutionResult.partnerAic p.result.partnerResults aic f } }

def classify : Progress :=
  let result := classifyResults p.result
  { result, shared := result.awaitingCompletionPartners }

def extend (items : List String) : Progress :=
  let p := if aic ∈ p.shared then p.modify aic (withItems items) else p
  { p with result := { p.result with products := extendProducts p.result.products aic items } }

def receive (task : TaskResult) : Progress := p.modify aic (withTask task)

def receiveCompleted (task : TaskResult) : Progress :=
  if (p.find aic).isSome then
    task.products.foldl (fun p product => p.extend aic product) (p.receive aic task)
  else p

def completed (task : TaskResult) : Progress :=
  let p := p.receiveCompleted aic task
  { p with result := { p.result with
      awaitingCompletionPartners := p.result.awaitingCompletionPartners.erase aic
      completedPartners := addOnce p.result.completedPartners aic } }

def forceCompleted (task : TaskResult) : Progress :=
  let p := p.receiveCompleted aic task
  { p with result := { p.result with
      awaitingCompletionPartners := p.result.awaitingCompletionPartners.erase aic
      completedPartners := p.result.completedPartners ++ [aic] } }

def continued (task : TaskResult) : Progress :=
  let p := p.receive aic task
  { p with result := { p.result with
      awaitingCompletionPartners := p.result.awaitingCompletionPartners.erase aic } }

def updatePhase : Progress := { p with result := updateExecutionPhase p.result }

end Progress

section Polling

def pollResult (per : PartnerExecutionResult) :
    Except String TaskResult → PartnerExecutionResult
  | .error error => { per with error := if error ≠ "" then some error else per.error }
  | .ok task => { per with state := task.state, task := some task, dataItems := task.dataItems }

def pollRound (tasks : List PartnerTaskInfo) (answers : String → Except String TaskResult)
    (p : Progress) : Progress :=
  { result := { p.result with
      partnerResults := p.result.partnerResults.map fun per =>
        if per.partnerAic ∈ tasks.map Prod.fst then pollResult per (answers per.partnerAic) else per }
    shared := p.shared.filter fun aic => ¬ (aic ∈ tasks.map Prod.fst ∧ (answers aic).isOk) }

structure Polls where
  answers : ℕ → String → Except String TaskResult
  heard : ℕ → GroupTasks
  expired : ℕ → Bool

def timedOut (p : Progress) : Progress :=
  { p with result := { p.result with phase := .timeout, error := some "Execution timeout" } }

def Progress.setPhase (p : Progress) (phase : ExecutionPhase) : Progress :=
  { p with result := { p.result with phase } }

def pollRounds (tasks : List PartnerTaskInfo) (polls : Polls) : ℕ → ℕ → Progress → Progress
  | _, 0, p => p
  | n, rounds + 1, p =>
    if polls.expired n then timedOut p
    else
      let p := pollRound tasks (polls.answers n) p
      match checkConvergence p.result.states with
      | (true, phase) => p.setPhase phase
      | (false, _) => pollRounds tasks polls (n + 1) rounds p

def pollUntilConverged (tasks : List PartnerTaskInfo) (polls : Polls) (rounds : ℕ) (p : Progress) :
    Progress :=
  (pollRounds tasks polls 1 rounds (p.setPhase .polling)).classify

def replaced (group : GroupTasks) (p : Progress) (aic : String) : Bool :=
  (group.states aic).isSome ∧ (p.find aic).all fun existing => existing.state ∉ failedStates

def groupRound (tasks : List PartnerTaskInfo) (group : GroupTasks) (p : Progress) : Progress :=
  { result := updateResultFromGroupState group tasks p.result
    shared := p.shared.filter fun aic => ¬ (aic ∈ tasks.map Prod.fst ∧ replaced group p aic) }

def waitRounds (tasks : List PartnerTaskInfo) (polls : Polls) : ℕ → ℕ → Progress → Progress
  | _, 0, p => p
  | n, rounds + 1, p =>
    if polls.expired n then timedOut p
    else
      let p := groupRound tasks (polls.heard n) p
      match GroupExecutor.checkConvergence p.result with
      | (true, phase) => p.setPhase phase
      | (false, _) => waitRounds tasks polls (n + 1) rounds p

def waitUntilConverged (tasks : List PartnerTaskInfo) (polls : Polls) (rounds : ℕ) (p : Progress) :
    Progress := waitRounds tasks polls 1 rounds (p.setPhase .polling)

end Polling

inductive NextAction where
  | complete
  | continue
  deriving DecidableEq

def AwaitingCompletionDecision.action (decision : AwaitingCompletionDecision) : Option NextAction :=
  if decision.nextAction = "complete" then some .complete
  else if decision.nextAction = "continue" then some .continue
  else none

structure SentCommand where
  action : NextAction
  partnerAic : String
  aipTaskId : String
  round : ℕ
  state : Option TaskState
  answer : Except String TaskResult

structure GateRound where
  round : ℕ
  asked : List PartnerProductSummary
  decisions : List AwaitingCompletionDecision

/-- What the loop depends on, and what the others answer it: `respond` is the language model in each
round, `answer` the partner that is sent the `n`-th command, `repoll` the polling of each round. -/
structure World where
  activeTaskId : String
  planning : PlanningResult
  endpoint : String → Bool
  gate : Bool
  maxRounds : ℕ
  group : Bool
  maxExecutionRounds : ℕ
  loads : Text → Option Json
  respond : ℕ → Except String Text
  answer : ℕ → Except String TaskResult
  repoll : ℕ → Polls

structure GateRun where
  progress : Progress
  sent : List SentCommand
  rounds : List GateRound

section Loop

variable (w : World)

def World.aipTaskId (aic : String) : String := w.activeTaskId ++ ":" ++ aic

def buildPartnerSummaries (result : ExecutionResult) : List PartnerProductSummary :=
  result.awaitingCompletionPartners.filterMap fun aic =>
    (Keyed.find PartnerExecutionResult.partnerAic result.partnerResults aic).map fun pr =>
      { partnerAic := aic, aipTaskId := w.aipTaskId aic, dimensionId := pr.dimensionId
        state := pr.state, dataItems := pr.dataItems
        products := pr.task.elim [] TaskResult.products }

def evaluate (round : ℕ) (summaries : List PartnerProductSummary) :
    Option (List PartnerProductSummary × List AwaitingCompletionDecision) :=
  let awaiting := summaries.filter (·.state = .awaitingCompletion)
  if awaiting = [] then some ([], [])
  else
    match w.respond round with
    | .ok response => some (awaiting, parseLlmResponse w.loads response awaiting)
    | .error _ => none

def command (round : ℕ) (action : NextAction) (aic aipTaskId : String)
    (receive : Progress → TaskResult → Progress) (s : GateRun) : GateRun :=
  let answer := w.answer s.sent.length
  let state := (s.progress.find aic).map PartnerExecutionResult.state
  { s with
    progress := match answer with
      | .ok task => receive s.progress task
      | .error _ => s.progress
    sent := s.sent ++ [{ action, partnerAic := aic, aipTaskId, round, state, answer }] }

def applyDecision (round : ℕ) (s : GateRun) (decision : AwaitingCompletionDecision) : GateRun :=
  let aic := decision.partnerAic
  if w.endpoint aic then
    match decision.action with
    | some .complete =>
      command w round .complete aic decision.aipTaskId (fun p task => p.completed aic task) s
    | some .continue =>
      command w round .continue aic decision.aipTaskId (fun p task => p.continued aic task) s
    | none => s
  else s

def GateRun.updatePhase (s : GateRun) : GateRun := { s with progress := s.progress.updatePhase }

def applyGateDecisions (round : ℕ) (decisions : List AwaitingCompletionDecision) (s : GateRun) :
    GateRun := (decisions.foldl (applyDecision w round) s).updatePhase

def forceComplete (s : GateRun) (aic : String) : GateRun :=
  if w.endpoint aic then
    command w 0 .complete aic (w.aipTaskId aic) (fun p task => p.forceCompleted aic task) s
  else s

def forceCompleteAllPartners (s : GateRun) : GateRun :=
  (s.progress.result.awaitingCompletionPartners.foldl (forceComplete w) s).updatePhase

def putTask (tasks : List PartnerTaskInfo) (aic dimension : String) : List PartnerTaskInfo :=
  if aic ∈ tasks.map Prod.fst then Keyed.modify Prod.fst tasks aic fun _ => (aic, dimension)
  else tasks ++ [(aic, dimension)]

def buildPartnerTasksForPolling : List PartnerTaskInfo :=
  (selections w.planning).foldl
    (fun tasks selected =>
      if w.endpoint selected.2 then putTask tasks selected.2 selected.1 else tasks) []

def World.repollUntilConverged (round : ℕ) (p : Progress) : Progress :=
  if w.group then
    waitUntilConverged (buildPartnerTasksForPolling w) (w.repoll round) w.maxExecutionRounds p
  else
    pollUntilConverged (buildPartnerTasksForPolling w) (w.repoll round) w.maxExecutionRounds p

def Progress.hasWorking (p : Progress) : Bool :=
  p.result.states.any fun state => state = .working ∨ state = .accepted

def gateRound (round : GateRound) (s : GateRun) : GateRun :=
  let s := applyGateDecisions w round.round round.decisions s
  let progress := if s.progress.hasWorking then
    (w.repollUntilConverged round.round s.progress).updatePhase else s.progress
  { s with progress, rounds := s.rounds ++ [round] }

def gateLoop : ℕ → ℕ → GateRun → GateRun
  | _, 0, s => s
  | n, rounds + 1, s =>
    if s.progress.result.phase = .awaitingCompletion then
      match evaluate w n (buildPartnerSummaries w s.progress.result) with
      | some (asked, decisions) =>
        let s := gateRound w { round := n, asked, decisions } s
        if s.progress.result.phase = .awaitingInput then s else gateLoop (n + 1) rounds s
      | none => s
    else s

def handleAwaitingCompletionWithLoop (p : Progress) : GateRun :=
  let s : GateRun := { progress := p, sent := [], rounds := [] }
  if w.gate then
    let s := gateLoop w 1 w.maxRounds s
    if s.progress.result.phase = .awaitingCompletion then forceCompleteAllPartners w s else s
  else forceCompleteAllPartners w s

end Loop

theorem foldl_reclassify (pers : List PartnerExecutionResult) (result : ExecutionResult) :
    pers.foldl reclassify result =
      { result with
        awaitingInputPartners := result.awaitingInputPartners ++ aicsIn [.awaitingInput] pers
        awaitingCompletionPartners :=
          result.awaitingCompletionPartners ++ aicsIn [.awaitingCompletion] pers
        completedPartners := result.completedPartners ++ aicsIn [.completed] pers
        failedPartners := result.failedPartners ++ aicsIn [.failed, .rejected, .canceled] pers } := by
  induction pers generalizing result with
  | nil => simp [aicsIn]
  | cons per pers ih =>
    rw [List.foldl_cons, ih]
    unfold reclassify
    cases hstate : per.state <;> simp [aicsIn, hstate]

end Acps.Assistant.AipExecutor.CompletionGate
