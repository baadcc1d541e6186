import Mathlib.Data.String.Basic
import Mathlib.Logic.Function.Basic
import Acps.Lib.Json
import Acps.Partner.Task

/-!
The tasks that the kit keeps for a partner, and what it does by default on each command.
-/

namespace Acps.Aip

open Partner (TaskState TaskCommandType terminalStates)

inductive DataItem where
  | text (text : String)
  | file (name mimeType uri bytes : Option String)
  | structured (data : JsonObject)
  deriving DecidableEq

structure TaskCommand where
  id : String
  sentAt : String
  senderId : String
  sessionId : Option String
  command : TaskCommandType
  commandParams : Option JsonObject
  taskId : Option String
  dataItems : Option (List DataItem)
  deriving DecidableEq

structure TaskStatus where
  state : TaskState
  stateChangedAt : String
  dataItems : Option (List DataItem)
  deriving DecidableEq

structure Product where
  id : String
  name : Option String
  description : Option String
  dataItems : List DataItem
  deriving DecidableEq

structure TaskResult where
  id : String
  sentAt : String
  senderId : String
  taskId : String
  sessionId : Option String
  status : TaskStatus
  products : Option (List Product)
  commandHistory : Option (List TaskCommand)
  statusHistory : Option (List TaskStatus)
  deriving DecidableEq

namespace TaskResult

variable (task : TaskResult)

def state : TaskState := task.status.state

def commands : List TaskCommand := task.commandHistory.getD []

def statuses : List TaskStatus := task.statusHistory.getD []

def addCommand (command : TaskCommand) : TaskResult :=
  { task with commandHistory := some (task.commands ++ [command]) }

def setStatus (status : TaskStatus) : TaskResult :=
  { task with status, statusHistory := some (task.statuses ++ [status]) }

end TaskResult

structure Drawn where
  resultId : String
  changedAt : String
  sentAt : String
  failedAt : String

def defaultTaskResultSender : String := "server"

abbrev TaskManager := String → Option TaskResult

namespace TaskManager

variable (tasks : TaskManager)

def getTask (taskId : Option String) : Option TaskResult := taskId.bind tasks

def put (taskId : String) (task : TaskResult) : TaskManager :=
  Function.update tasks taskId (some task)

def createTask (drawn : Drawn) (command : TaskCommand) :
    Except String (TaskResult × TaskManager) :=
  match command.taskId.filter (· ≠ "") with
  | none => .error "A command to start a task must have a taskId."
  | some taskId =>
    let status : TaskStatus :=
      { state := .accepted, stateChangedAt := drawn.changedAt, dataItems := some [] }
    let task : TaskResult :=
      { id := s!"result-{drawn.resultId}", sentAt := drawn.sentAt
        senderId := defaultTaskResultSender, taskId, sessionId := command.sessionId, status
        products := none, commandHistory := some [command], statusHistory := some [status] }
    .ok (task, tasks.put taskId task)

def updateTaskStatus (taskId : Option String) (state : TaskState) (now : String)
    (dataItems : List DataItem) : Except String (TaskResult × TaskManager) :=
  match taskId with
  | none => .error "Task with id None not found."
  | some taskId =>
    match tasks taskId with
    | none => .error s!"Task with id {taskId} not found."
    | some task =>
      let task := task.setStatus { state, stateChangedAt := now, dataItems := some dataItems }
      .ok (task, tasks.put taskId task)

def addCommandToHistory (taskId : Option String) (command : TaskCommand) : TaskManager :=
  match taskId with
  | none => tasks
  | some taskId =>
    match tasks taskId with
    | none => tasks
    | some task => tasks.put taskId (task.addCommand command)

end TaskManager

structure Handled where
  result : TaskResult
  keptAt : Option String

namespace DefaultHandlers

variable (drawn : Drawn) (tasks : TaskManager) (command : TaskCommand) (task : TaskResult)

def current : Handled :=
  { result := (tasks.getTask command.taskId).getD task, keptAt := command.taskId }

def start (task : Option TaskResult) : Except String (Handled × TaskManager) :=
  match task with
  | some task =>
    let tasks := tasks.addCommandToHistory command.taskId command
    .ok (current tasks command task, tasks)
  | none =>
    (tasks.createTask drawn command).map fun (task, tasks) =>
      ({ result := task, keptAt := command.taskId }, tasks)

def newer {α : Type} (stamp : α → String) (cursor : Option Json) (history : Option (List α)) :
    Except Unit (Option (List α)) :=
  match cursor.filter (·.truthy), history.filter (· ≠ []) with
  | some (.str cursor), some history => .ok (some (history.filter fun entry => cursor < stamp entry))
  | some _, some _ => .error ()
  | _, _ => .ok none

def get : Handled :=
  let params := command.commandParams.getD []
  match newer TaskCommand.sentAt (params.get "lastCommandSentAt") task.commandHistory,
    newer TaskStatus.stateChangedAt (params.get "lastStateChangedAt") task.statusHistory with
  | .ok none, .ok none => { result := task, keptAt := command.taskId }
  | .ok commands, .ok statuses =>
    { result :=
        { task with
          commandHistory := commands.or task.commandHistory
          statusHistory := statuses.or task.statusHistory }
      keptAt := none }
  | _, _ => { result := task, keptAt := command.taskId }

def cancel : Except String (Handled × TaskManager) :=
  if task.state ∈ terminalStates then .ok ({ result := task, keptAt := command.taskId }, tasks)
  else
    let tasks := tasks.addCommandToHistory (some task.taskId) command
    (tasks.updateTaskStatus (some task.taskId) .canceled drawn.changedAt []).map
      fun (result, tasks) => ({ result, keptAt := some task.taskId }, tasks)

def complete : Except String (Handled × TaskManager) :=
  let tasks := tasks.addCommandToHistory (some task.taskId) command
  if task.state = .awaitingCompletion then
    (tasks.updateTaskStatus (some task.taskId) .completed drawn.changedAt []).map
      fun (result, tasks) => ({ result, keptAt := some task.taskId }, tasks)
  else .ok (current tasks command task, tasks)

def continue_ : Handled × TaskManager :=
  let tasks := tasks.addCommandToHistory (some task.taskId) command
  (current tasks command task, tasks)

end DefaultHandlers

end Acps.Aip
