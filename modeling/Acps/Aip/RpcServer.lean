import Acps.Aip.Identity
import Acps.Aip.TaskManager

/-!
The RPC endpoint of a partner: each request is checked and given to the handler of its command, and
a handler that fails makes the task fail.
-/

namespace Acps.Aip.RpcServer

open Aic (UpperCase)
open Partner (TaskState TaskCommandType terminalStates)

inductive Raised where
  | identity (error : IdentityError)
  | exception (text : String)
  deriving DecidableEq

def Raised.ofCheck : CheckError → Raised
  | .identity error => .identity error
  | .value text => .exception text

inductive RpcId where
  | str (id : String)
  | int (id : ℤ)
  deriving DecidableEq

structure RpcRequest where
  id : Option RpcId
  command : TaskCommand

structure RpcResponse where
  id : Option RpcId
  result : Option TaskResult
  error : Option JSONRPCError
  deriving DecidableEq

/-- What comes of reading a body and validating it: an error of the two kinds that are expected, any
other exception (a body that is nested too deep), or a request. -/
inductive Body where
  | invalid (text : String)
  | broken (text : String)
  | request (request : RpcRequest)

structure Request where
  body : Body
  peerAic : Except IdentityError (Option String)

abbrev Handler (α : Type) := TaskCommand → α → TaskManager → Except Raised TaskResult × TaskManager

structure CommandHandlers where
  onStart : Option (Handler (Option TaskResult))
  onGet : Option (Handler TaskResult)
  onCancel : Option (Handler TaskResult)
  onComplete : Option (Handler TaskResult)
  onContinue : Option (Handler TaskResult)
  onMessage : Option (Handler (Option TaskResult))

structure Server where
  handlers : CommandHandlers
  localAic : Option String
  identityBindingEnabled : Bool

inductive Outcome where
  | response (response : RpcResponse)
  | raised (error : Raised)
  deriving DecidableEq

def RpcResponse.ofError (id : Option RpcId) (error : JSONRPCError) : RpcResponse :=
  { id, result := none, error := some error }

def RpcResponse.ofResult (id : Option RpcId) (result : TaskResult) : RpcResponse :=
  { id, result := some result, error := none }

def bindDefaultTaskResultIdentity (result : TaskResult) (localAic : Option String) : TaskResult :=
  match localAic.filter (· ≠ "") with
  | some localAic =>
    if result.senderId = defaultTaskResultSender then { result with senderId := localAic }
    else result
  | none => result

def bindHandled (localAic : Option String) (handled : Handled) (tasks : TaskManager) :
    TaskResult × TaskManager :=
  let result := bindDefaultTaskResultIdentity handled.result localAic
  match handled.keptAt with
  | some taskId => (result, tasks.put taskId result)
  | none => (result, tasks)

inductive Dispatched where
  | refused (error : JSONRPCError)
  | ran (outcome : Except Raised TaskResult) (tasks : TaskManager)

def taskNotFound (taskId : Option String) : JSONRPCError :=
  { code := -32001, message := "Task not found"
    data := some (.obj [("taskId", (taskId.map Json.str).getD .null)]) }

def commandName : TaskCommandType → String
  | .get => "TaskCommandType.Get"
  | .start => "TaskCommandType.Start"
  | .continue => "TaskCommandType.Continue"
  | .cancel => "TaskCommandType.Cancel"
  | .complete => "TaskCommandType.Complete"
  | .reStream => "TaskCommandType.ReStream"

section Server

variable (U : UpperCase) (s : Server) (drawn : Drawn)

def handle {α : Type} (handler : Option (Handler α)) (command : TaskCommand) (task : α)
    (default : Except String (Handled × TaskManager)) (tasks : TaskManager) : Dispatched :=
  match handler with
  | some handler =>
    let (outcome, tasks) := handler command task tasks
    .ran outcome tasks
  | none =>
    match default with
    | .error text => .ran (.error (.exception text)) tasks
    | .ok (handled, tasks) =>
      let (result, tasks) := bindHandled s.localAic handled tasks
      .ran (.ok result) tasks

def dispatchCommand (command : TaskCommand) (tasks : TaskManager) : Dispatched :=
  let task := tasks.getTask (command.taskId.filter (· ≠ ""))
  match command.command, task with
  | .start, task =>
    handle s s.handlers.onStart command task (DefaultHandlers.start drawn tasks command task) tasks
  | _, none => .refused (taskNotFound command.taskId)
  | .get, some task =>
    handle s s.handlers.onGet command task (.ok (DefaultHandlers.get command task, tasks)) tasks
  | .cancel, some task =>
    handle s s.handlers.onCancel command task (DefaultHandlers.cancel drawn tasks command task) tasks
  | .complete, some task =>
    handle s s.handlers.onComplete command task (DefaultHandlers.complete drawn tasks command task)
      tasks
  | .continue, some task =>
    handle s s.handlers.onContinue command task (.ok (DefaultHandlers.continue_ tasks command task))
      tasks
  | .reStream, some task =>
    match s.handlers.onMessage with
    | some handler =>
      let (outcome, tasks) := handler command (some task) tasks
      .ran outcome tasks
    | none =>
      .refused
        { code := -32602, message := "Invalid params"
          data := some (.str s!"Unknown or missing command: {commandName command.command}") }

def checkPeer (request : Request) (command : TaskCommand) : Except Raised Unit :=
  if s.identityBindingEnabled then
    match request.peerAic with
    | .error error => .error (.identity error)
    | .ok peerAic =>
      match assertSenderMatchesPeer U command.senderId peerAic with
      | .error error => .error (.ofCheck error)
      | .ok _ => .ok ()
  else .ok ()

def accept (request : Request) : Except Outcome RpcRequest :=
  match request.body with
  | .invalid text =>
    .error (.response (.ofError none
      { code := -32700, message := "Parse error", data := some (.str text) }))
  | .broken text => .error (.raised (.exception text))
  | .request rpcRequest =>
    if s.identityBindingEnabled ∧ s.localAic.filter (· ≠ "") = none then
      .error (.raised (.exception "local_aic is required when identity_binding_enabled=True"))
    else
      match checkPeer U s request rpcRequest.command with
      | .error (.identity error) =>
        .error (.response (.ofError rpcRequest.id (identityErrorToJsonrpc error)))
      | .error (.exception text) => .error (.raised (.exception text))
      | .ok () =>
        if rpcRequest.command.taskId.filter (· ≠ "") = none ∧ rpcRequest.command.command ≠ .start then
          .error (.response (.ofError rpcRequest.id
            { code := -32602, message := "Invalid params"
              data := some (.str "taskId is required for non-Start commands.") }))
        else .ok rpcRequest

def checkResult (result : TaskResult) : Except Raised Unit :=
  if s.identityBindingEnabled ∧ s.localAic ≠ none then
    match assertSenderMatchesExpected U result.senderId s.localAic with
    | .error error => .error (.ofCheck error)
    | .ok _ => .ok ()
  else .ok ()

def checkedOutcome : Except Raised TaskResult → Except Raised TaskResult
  | .error error => .error error
  | .ok result =>
    match checkResult U s result with
    | .error error => .error error
    | .ok () => .ok result

def answer (rpcRequest : RpcRequest) (outcome : Except Raised TaskResult) (tasks : TaskManager) :
    Outcome × TaskManager :=
  match checkedOutcome U s outcome with
  | .ok result => (.response (.ofResult rpcRequest.id result), tasks)
  | .error (.identity error) =>
    (.response (.ofError rpcRequest.id (identityErrorToJsonrpc error)), tasks)
  | .error (.exception text) =>
    match tasks.updateTaskStatus rpcRequest.command.taskId .failed drawn.failedAt
        [.text s!"Agent execution failed: {text}"] with
    | .ok (task, tasks) => (.response (.ofResult rpcRequest.id task), tasks)
    | .error text => (.raised (.exception text), tasks)

def handleRpcRequest (request : Request) (tasks : TaskManager) : Outcome × TaskManager :=
  match accept U s request with
  | .error outcome => (outcome, tasks)
  | .ok rpcRequest =>
    match dispatchCommand s drawn rpcRequest.command tasks with
    | .refused error => (.response (.ofError rpcRequest.id error), tasks)
    | .ran outcome tasks => answer U s drawn rpcRequest outcome tasks

def KeepsEnded (before after : TaskManager) : Prop :=
  ∀ taskId task, before taskId = some task → task.state ∈ terminalStates →
    ∃ later, after taskId = some later ∧ later.state = task.state

/-- A request has an answer, an error leaves all tasks as they are, and a handler that raises takes
no task out of a state in which it has ended, neither by itself nor by its exception. -/
structure Answered (request : Request) (tasks : TaskManager) : Prop where
  answers : ∃ response, (handleRpcRequest U s drawn request tasks).1 = .response response
  unchanged : ∀ response, (handleRpcRequest U s drawn request tasks).1 = .response response →
    response.error ≠ none → (handleRpcRequest U s drawn request tasks).2 = tasks
  ended : ∀ rpcRequest error after, accept U s request = .ok rpcRequest →
    dispatchCommand s drawn rpcRequest.command tasks = .ran (.error error) after →
      KeepsEnded tasks after ∧ KeepsEnded after (handleRpcRequest U s drawn request tasks).2

/-- A handler returns a result whose sender is accepted, or it changed no task before its identity
error or the one of the check; any other exception leaves the task of the request there, not ended
but for a failure, and no task that had ended in another state. -/
def CarefulRun (command : TaskCommand) (tasks : TaskManager) (outcome : Except Raised TaskResult)
    (after : TaskManager) : Prop :=
  match outcome, checkedOutcome U s outcome with
  | _, .ok _ => True
  | _, .error (.identity _) => after = tasks
  | .ok _, .error (.exception _) => after.getTask command.taskId ≠ none
  | .error _, .error (.exception _) =>
    KeepsEnded tasks after ∧ ∃ task, after.getTask command.taskId = some task ∧
      (task.state ∈ terminalStates → task.state = .failed)

structure Careful (request : Request) (tasks : TaskManager) : Prop where
  readable : ∀ text, request.body ≠ .broken text
  configured : ∀ rpcRequest, request.body = .request rpcRequest → s.identityBindingEnabled = true →
    s.localAic.filter (· ≠ "") ≠ none
  run : ∀ rpcRequest outcome after, accept U s request = .ok rpcRequest →
    dispatchCommand s drawn rpcRequest.command tasks = .ran outcome after →
      CarefulRun U s rpcRequest.command tasks outcome after

end Server

section Answers

variable {U : UpperCase} {s : Server} {drawn : Drawn} {tasks after : TaskManager}

theorem keepsEnded_refl (tasks : TaskManager) : KeepsEnded tasks tasks :=
  fun _ task htask _ => ⟨task, htask, rfl⟩

theorem updateTaskStatus_eq_error {taskId : Option String} (h : tasks.getTask taskId = none)
    (state : TaskState) (now : String) (items : List DataItem) :
    ∃ text, tasks.updateTaskStatus taskId state now items = .error text := by
  cases taskId with
  | none => exact ⟨_, rfl⟩
  | some taskId =>
    have htask : tasks taskId = none := h
    unfold TaskManager.updateTaskStatus
    dsimp only
    rw [htask]
    exact ⟨_, rfl⟩

theorem updateTaskStatus_eq_ok {taskId : Option String} {task : TaskResult}
    (h : tasks.getTask taskId = some task) (state : TaskState) (now : String)
    (items : List DataItem) :
    ∃ key later, tasks key = some task ∧ later.state = state ∧
      tasks.updateTaskStatus taskId state now items = .ok (later, tasks.put key later) := by
  obtain ⟨key, rfl, htask⟩ := Option.bind_eq_some_iff.mp h
  refine ⟨key, task.setStatus { state, stateChangedAt := now, dataItems := some items }, htask, rfl,
    ?_⟩
  unfold TaskManager.updateTaskStatus
  dsimp only
  rw [htask]

theorem keepsEnded_put_iff {key : String} {task later : TaskResult} (htask : tasks key = some task)
    (hlater : later.state = .failed) :
    KeepsEnded tasks (tasks.put key later) ↔
      (task.state ∈ terminalStates → task.state = .failed) := by
  constructor
  · intro h hended
    obtain ⟨found, hfound, hstate⟩ := h key task htask hended
    have hput : tasks.put key later key = some later := Function.update_self ..
    rw [hput] at hfound
    obtain rfl := Option.some.inj hfound
    rw [← hstate, hlater]
  · intro h other old hold hended
    by_cases hkey : other = key
    · rw [hkey, htask] at hold
      obtain rfl := Option.some.inj hold
      refine ⟨later, ?_, hlater.trans (h hended).symm⟩
      rw [hkey]
      exact Function.update_self ..
    · refine ⟨old, ?_, rfl⟩
      rw [← hold]
      exact Function.update_of_ne hkey ..

theorem checkPeer_error {request : Request} {command : TaskCommand} {error : Raised}
    (h : checkPeer U s request command = .error error) : ∃ e, error = .identity e := by
  unfold checkPeer at h
  split at h
  · split at h
    · cases h
      exact ⟨_, rfl⟩
    · split at h
      next checkError hcheck =>
        obtain ⟨e, rfl⟩ := assertSenderMatchesPeer_error hcheck
        cases h
        exact ⟨e, rfl⟩
      next => cases h
  · cases h

theorem accept_raised {request : Request} {error : Raised}
    (h : accept U s request = .error (.raised error)) :
    (∃ text, request.body = .broken text) ∨
      ∃ rpcRequest, request.body = .request rpcRequest ∧ s.identityBindingEnabled = true ∧
        s.localAic.filter (· ≠ "") = none := by
  unfold accept at h
  split at h
  next => cases h
  next text hbody => exact .inl ⟨text, hbody⟩
  next rpcRequest hbody =>
    split at h
    next hlocal => exact .inr ⟨rpcRequest, hbody, hlocal⟩
    next =>
      split at h
      next => cases h
      next text hpeer =>
        obtain ⟨e, he⟩ := checkPeer_error hpeer
        cases he
      next => split at h <;> cases h

theorem accept_not_raised {request : Request}
    (h : ∀ error, accept U s request ≠ .error (.raised error)) :
    (∀ text, request.body ≠ .broken text) ∧ ∀ rpcRequest, request.body = .request rpcRequest →
      s.identityBindingEnabled = true → s.localAic.filter (· ≠ "") ≠ none := by
  unfold accept at h
  constructor
  · intro text hbody
    rw [hbody] at h
    exact h _ rfl
  · intro rpcRequest hbody hbinding hlocal
    rw [hbody] at h
    dsimp only at h
    rw [if_pos ⟨hbinding, hlocal⟩] at h
    exact h _ rfl

theorem answer_cases (U : UpperCase) (s : Server) (drawn : Drawn) (rpcRequest : RpcRequest)
    (outcome : Except Raised TaskResult) (after : TaskManager) :
    (∃ result, checkedOutcome U s outcome = .ok result ∧
        answer U s drawn rpcRequest outcome after =
          (.response (.ofResult rpcRequest.id result), after)) ∨
      (∃ error, checkedOutcome U s outcome = .error (.identity error) ∧
        answer U s drawn rpcRequest outcome after =
          (.response (.ofError rpcRequest.id (identityErrorToJsonrpc error)), after)) ∨
      (∃ text raised, checkedOutcome U s outcome = .error (.exception text) ∧
        after.getTask rpcRequest.command.taskId = none ∧
        answer U s drawn rpcRequest outcome after = (.raised raised, after)) ∨
      ∃ text key task later, checkedOutcome U s outcome = .error (.exception text) ∧
        after.getTask rpcRequest.command.taskId = some task ∧ after key = some task ∧
        later.state = .failed ∧ answer U s drawn rpcRequest outcome after =
          (.response (.ofResult rpcRequest.id later), after.put key later) := by
  cases hchecked : checkedOutcome U s outcome with
  | ok result =>
    left
    refine ⟨result, rfl, ?_⟩
    unfold answer
    rw [hchecked]
  | error error =>
    right
    cases error with
    | identity error =>
      left
      refine ⟨error, rfl, ?_⟩
      unfold answer
      rw [hchecked]
    | exception text =>
      right
      cases htask : after.getTask rpcRequest.command.taskId with
      | none =>
        left
        obtain ⟨missing, hmissing⟩ := updateTaskStatus_eq_error htask .failed drawn.failedAt
          [.text s!"Agent execution failed: {text}"]
        refine ⟨text, .exception missing, rfl, rfl, ?_⟩
        unfold answer
        rw [hchecked]
        dsimp only
        rw [hmissing]
      | some task =>
        right
        obtain ⟨key, later, hkey, hlater, hupdate⟩ := updateTaskStatus_eq_ok htask .failed
          drawn.failedAt [.text s!"Agent execution failed: {text}"]
        refine ⟨text, key, task, later, rfl, rfl, hkey, hlater, ?_⟩
        unfold answer
        rw [hchecked]
        dsimp only
        rw [hupdate]

theorem answered_run_iff {request : Request} {rpcRequest : RpcRequest}
    {outcome : Except Raised TaskResult} (haccept : accept U s request = .ok rpcRequest)
    (hrun : dispatchCommand s drawn rpcRequest.command tasks = .ran outcome after) :
    Answered U s drawn request tasks ↔ CarefulRun U s rpcRequest.command tasks outcome after := by
  have hhandle : handleRpcRequest U s drawn request tasks =
      answer U s drawn rpcRequest outcome after := by
    unfold handleRpcRequest
    rw [haccept]
    dsimp only
    rw [hrun]
  have hraised {rpcRequest' : RpcRequest} {error : Raised} {after' : TaskManager}
      (haccept' : accept U s request = .ok rpcRequest')
      (hrun' : dispatchCommand s drawn rpcRequest'.command tasks = .ran (.error error) after') :
      outcome = .error error ∧ after = after' := by
    obtain rfl := Except.ok.inj (haccept.symm.trans haccept')
    obtain ⟨houtcome, hafter⟩ := Dispatched.ran.inj (hrun.symm.trans hrun')
    exact ⟨houtcome, hafter⟩
  rcases answer_cases U s drawn rpcRequest outcome after with
    ⟨result, hchecked, hanswer⟩ | ⟨error, hchecked, hanswer⟩ |
      ⟨text, raised, hchecked, htask, hanswer⟩ |
      ⟨text, key, task, later, hchecked, htask, hkey, hlater, hanswer⟩
  · unfold CarefulRun
    rw [hchecked]
    refine iff_of_true ⟨?_, ?_, ?_⟩ (by cases outcome <;> trivial)
    · exact ⟨_, by rw [hhandle, hanswer]⟩
    · intro response hresponse herror
      rw [hhandle, hanswer] at hresponse
      obtain rfl := Outcome.response.inj hresponse
      exact absurd rfl herror
    · intro rpcRequest' error after' haccept' hrun'
      rw [(hraised haccept' hrun').1] at hchecked
      cases hchecked
  · have hcareful : CarefulRun U s rpcRequest.command tasks outcome after ↔ after = tasks := by
      unfold CarefulRun
      rw [hchecked]
    rw [hcareful]
    constructor
    · intro h
      have hunchanged := h.unchanged (.ofError rpcRequest.id (identityErrorToJsonrpc error))
        (by rw [hhandle, hanswer]) (Option.some_ne_none _)
      rw [hhandle, hanswer] at hunchanged
      exact hunchanged
    · intro hafter
      refine ⟨⟨_, by rw [hhandle, hanswer]⟩, fun _ _ _ => by rw [hhandle, hanswer, hafter], ?_⟩
      intro rpcRequest' error' after' haccept' hrun'
      obtain ⟨-, rfl⟩ := hraised haccept' hrun'
      rw [hhandle, hanswer, hafter]
      exact ⟨keepsEnded_refl tasks, keepsEnded_refl tasks⟩
  · apply iff_of_false
    · intro h
      obtain ⟨response, hresponse⟩ := h.answers
      rw [hhandle, hanswer] at hresponse
      cases hresponse
    · unfold CarefulRun
      rw [hchecked]
      cases outcome with
      | ok result => exact fun h => h htask
      | error error =>
        rintro ⟨-, task, hsome, -⟩
        rw [htask] at hsome
        cases hsome
  · have hanswers : ∃ response,
        (handleRpcRequest U s drawn request tasks).1 = .response response :=
      ⟨_, by rw [hhandle, hanswer]⟩
    have hunchanged : ∀ response, (handleRpcRequest U s drawn request tasks).1 =
        .response response → response.error ≠ none →
          (handleRpcRequest U s drawn request tasks).2 = tasks := by
      intro response hresponse herror
      rw [hhandle, hanswer] at hresponse
      obtain rfl := Outcome.response.inj hresponse
      exact absurd rfl herror
    unfold CarefulRun
    rw [hchecked]
    cases outcome with
    | ok result =>
      refine iff_of_true ⟨hanswers, hunchanged, ?_⟩ (by rw [htask]; exact Option.some_ne_none _)
      intro rpcRequest' error' after' haccept' hrun'
      cases (hraised haccept' hrun').1
    | error error =>
      dsimp only
      constructor
      · intro h
        obtain ⟨hbefore, hlast⟩ := h.ended rpcRequest error after haccept hrun
        rw [hhandle, hanswer] at hlast
        exact ⟨hbefore, task, htask, (keepsEnded_put_iff hkey hlater).mp hlast⟩
      · rintro ⟨hbefore, found, hfound, hended⟩
        obtain rfl := Option.some.inj (htask.symm.trans hfound)
        refine ⟨hanswers, hunchanged, ?_⟩
        intro rpcRequest' error' after' haccept' hrun'
        obtain ⟨-, rfl⟩ := hraised haccept' hrun'
        rw [hhandle, hanswer]
        exact ⟨hbefore, (keepsEnded_put_iff hkey hlater).mpr hended⟩

theorem answered_of_no_run {request : Request}
    {outcome : Outcome} (hhandle : handleRpcRequest U s drawn request tasks = (outcome, tasks))
    (hrun : ∀ rpcRequest ran after, accept U s request = .ok rpcRequest →
      dispatchCommand s drawn rpcRequest.command tasks ≠ .ran ran after) :
    Answered U s drawn request tasks ↔ ∃ response, outcome = .response response := by
  constructor
  · intro h
    have hanswers := h.answers
    rwa [hhandle] at hanswers
  · intro h
    refine ⟨by rwa [hhandle], fun _ _ _ => by rw [hhandle], ?_⟩
    intro rpcRequest error after haccept hraised
    exact (hrun rpcRequest _ _ haccept hraised).elim

theorem answered_iff_careful (U : UpperCase) (s : Server) (drawn : Drawn) (request : Request)
    (tasks : TaskManager) : Answered U s drawn request tasks ↔ Careful U s drawn request tasks := by
  cases haccept : accept U s request with
  | ok rpcRequest =>
    obtain ⟨hreadable, hconfigured⟩ := accept_not_raised (U := U) (s := s) fun error hraised => by
      rw [haccept] at hraised
      cases hraised
    cases hrun : dispatchCommand s drawn rpcRequest.command tasks with
    | refused error =>
      have hno (rpcRequest' : RpcRequest) (ran : Except Raised TaskResult) (after : TaskManager)
          (haccept' : accept U s request = .ok rpcRequest') :
          dispatchCommand s drawn rpcRequest'.command tasks ≠ .ran ran after := by
        obtain rfl := Except.ok.inj (haccept.symm.trans haccept')
        rw [hrun]
        intro h
        cases h
      have hhandle : handleRpcRequest U s drawn request tasks =
          (.response (.ofError rpcRequest.id error), tasks) := by
        unfold handleRpcRequest
        rw [haccept]
        dsimp only
        rw [hrun]
      rw [answered_of_no_run hhandle hno]
      refine iff_of_true ⟨_, rfl⟩ ⟨hreadable, hconfigured, ?_⟩
      intro rpcRequest' outcome after haccept' hran
      exact (hno rpcRequest' outcome after haccept' hran).elim
    | ran outcome after =>
      rw [answered_run_iff haccept hrun]
      constructor
      · intro h
        refine ⟨hreadable, hconfigured, ?_⟩
        intro rpcRequest' outcome' after' haccept' hrun'
        obtain rfl := Except.ok.inj (haccept.symm.trans haccept')
        obtain ⟨rfl, rfl⟩ := Dispatched.ran.inj (hrun.symm.trans hrun')
        exact h
      · exact fun h => h.run rpcRequest outcome after haccept hrun
  | error outcome =>
    have hno (rpcRequest : RpcRequest) (ran : Except Raised TaskResult) (after : TaskManager)
        (haccept' : accept U s request = .ok rpcRequest) :
        dispatchCommand s drawn rpcRequest.command tasks ≠ .ran ran after := by
      rw [haccept] at haccept'
      cases haccept'
    have hhandle : handleRpcRequest U s drawn request tasks = (outcome, tasks) := by
      unfold handleRpcRequest
      rw [haccept]
    rw [answered_of_no_run hhandle hno]
    cases outcome with
    | response response =>
      obtain ⟨hreadable, hconfigured⟩ := accept_not_raised (U := U) (s := s) fun error hraised => by
        rw [haccept] at hraised
        cases hraised
      refine iff_of_true ⟨response, rfl⟩ ⟨hreadable, hconfigured, ?_⟩
      intro rpcRequest outcome after haccept' hran
      exact (hno rpcRequest outcome after haccept' hran).elim
    | raised error =>
      apply iff_of_false
      · rintro ⟨response, hresponse⟩
        cases hresponse
      · intro h
        rcases accept_raised haccept with ⟨text, hbody⟩ | ⟨rpcRequest, hbody, hbinding, hlocal⟩
        · exact h.readable text hbody
        · exact h.configured rpcRequest hbody hbinding hlocal

end Answers

namespace Sample

def localAic : String := "1.2.156.3088.1.A.B.C.D.140G"

def leaderAic : String := "1.2.156.3088.1.A.B.C.E.1E3K"

def noHandlers : CommandHandlers := ⟨none, none, none, none, none, none⟩

def server (handlers : CommandHandlers) : Server :=
  { handlers, localAic := some localAic, identityBindingEnabled := true }

def drawn : Drawn := ⟨"1", "now", "now", "now"⟩

def request (command : TaskCommandType) (taskId : Option String) : Request :=
  { body := .request
      { id := some (.int 1)
        command :=
          { id := "command", sentAt := "now", senderId := leaderAic, sessionId := none, command
            commandParams := none, taskId, dataItems := none } }
    peerAic := .ok (some leaderAic) }

def task (state : TaskState) : TaskResult :=
  { id := "result", sentAt := "now", senderId := localAic, taskId := "task", sessionId := none
    status := ⟨state, "now", none⟩, products := none, commandHistory := none, statusHistory := none }

def tasks (state : TaskState) : TaskManager := fun taskId =>
  if taskId = "task" then some (task state) else none

def misnaming : Handler TaskResult := fun _ task tasks =>
  let canceled := task.setStatus ⟨.canceled, "now", none⟩
  (.ok { canceled with senderId := leaderAic }, tasks.put task.taskId canceled)

def raising : Handler TaskResult := fun _ _ tasks => (.error (.exception "out of memory"), tasks)

end Sample

theorem requests_not_answered :
    (handleRpcRequest Aic.asciiUpperCase (Sample.server Sample.noHandlers) Sample.drawn
        (Sample.request .start none) fun _ => none).1 =
      .raised (.exception "Task with id None not found.") ∧
    (∃ response, (handleRpcRequest Aic.asciiUpperCase
        (Sample.server { Sample.noHandlers with onCancel := some Sample.misnaming }) Sample.drawn
          (Sample.request .cancel (some "task")) (Sample.tasks .working)).1 = .response response ∧
      response.error ≠ none) ∧
    ((handleRpcRequest Aic.asciiUpperCase
        (Sample.server { Sample.noHandlers with onCancel := some Sample.misnaming }) Sample.drawn
          (Sample.request .cancel (some "task")) (Sample.tasks .working)).2 "task").map
            TaskResult.state = some .canceled ∧
    ((handleRpcRequest Aic.asciiUpperCase
        (Sample.server { Sample.noHandlers with onGet := some Sample.raising }) Sample.drawn
          (Sample.request .get (some "task")) (Sample.tasks .completed)).2 "task").map
            TaskResult.state = some .failed := by
  refine ⟨by decide +kernel, ⟨.ofError (some (.int 1))
    { code := -32009, message := "AuthorizationFailedError"
      data := some (.str s!"senderId {Sample.leaderAic} does not match expected AIC {Sample.localAic}") },
    by decide +kernel, Option.some_ne_none _⟩, by decide +kernel, by decide +kernel⟩

end Acps.Aip.RpcServer
