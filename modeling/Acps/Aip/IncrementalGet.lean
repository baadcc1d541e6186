import Mathlib.Data.List.MinMax
import Acps.Aip.TaskManager
import Acps.Lib.Cursor
import Acps.Lib.Transition

/-!
A leader follows a task with polls, each of which names the largest times that it has received.
-/

namespace Acps.Aip.IncrementalGet

structure Following where
  task : TaskResult
  commands : List TaskCommand
  statuses : List TaskStatus

inductive Event where
  | command (command : TaskCommand) (stamped : command.sentAt ≠ "")
  | status (status : TaskStatus) (stamped : status.stateChangedAt ≠ "")
  | poll (request : TaskCommand)

def largest (stamps : List String) : Json := (stamps.max?.map Json.str).getD .null

namespace Following

variable (s : Following)

def commandsPolled : Polled TaskCommand := { history := s.task.commands, received := s.commands }

def statusesPolled : Polled TaskStatus := { history := s.task.statuses, received := s.statuses }

def initial (task : TaskResult) : Following :=
  { task := { task with commandHistory := none, statusHistory := none }
    commands := [], statuses := [] }

def getCommandParams : JsonObject :=
  [("lastCommandSentAt", largest (s.commands.map TaskCommand.sentAt)),
    ("lastStateChangedAt", largest (s.statuses.map TaskStatus.stateChangedAt))]

def poll (request : TaskCommand) : TaskResult :=
  (DefaultHandlers.get { request with commandParams := some s.getCommandParams } s.task).result

def step : Event → Following
  | .command command _ => { s with task := s.task.addCommand command }
  | .status status _ => { s with task := s.task.setStatus status }
  | .poll request =>
    { s with
      commands := s.commands ++ (s.poll request).commands
      statuses := s.statuses ++ (s.poll request).statuses }

def Complete : Prop :=
  s.commands.Perm s.task.commands ∧ s.statuses.Perm s.task.statuses

def Fresh : Event → Prop
  | .command command _ => ¬ s.commandsPolled.Passed TaskCommand.sentAt command
  | .status status _ => ¬ s.statusesPolled.Passed TaskStatus.stateChangedAt status
  | .poll _ => True

end Following

def following : Transition.System Following Event where
  step s event := some (s.step event)

section Polls

variable {α : Type}

theorem newer_largest (stamp : α → String) (history : Option (List α)) {received : List α}
    (hstamped : ∀ entry ∈ received, stamp entry ≠ "") :
    ∃ entries, DefaultHandlers.newer stamp (some (largest (received.map stamp))) history =
        .ok entries ∧ (entries.or history).getD [] =
          Polled.newer stamp { history := history.getD [], received } := by
  cases hmax : (received.map stamp).max? with
  | none =>
    have hnil : received = [] := List.map_eq_nil_iff.mp (List.max?_eq_none_iff.mp hmax)
    refine ⟨none, ?_, ?_⟩
    · unfold largest
      rw [hmax]
      rfl
    · symm
      apply List.filter_eq_self.mpr
      intro entry _
      apply decide_eq_true
      rintro ⟨old, hold, -⟩
      rw [hnil] at hold
      cases hold
  | some cursor =>
    obtain ⟨hmem, hle⟩ := List.max?_eq_some_iff.mp hmax
    have hpassed (entry : α) :
        Polled.Passed stamp { history := history.getD [], received } entry ↔
          stamp entry ≤ cursor := by
      constructor
      · rintro ⟨old, hold, hstamp⟩
        exact hstamp.trans (hle _ (List.mem_map_of_mem hold))
      · intro h
        obtain ⟨old, hold, rfl⟩ := List.mem_map.mp hmem
        exact ⟨old, hold, h⟩
    have hcursor : (some (largest (received.map stamp))).filter (·.truthy) =
        some (.str cursor) := by
      obtain ⟨old, hold, rfl⟩ := List.mem_map.mp hmem
      unfold largest
      rw [hmax]
      exact Option.filter_some_pos (decide_eq_true (hstamped old hold))
    unfold DefaultHandlers.newer
    rw [hcursor]
    have hnewer : Polled.newer stamp { history := history.getD [], received } =
        (history.getD []).filter fun entry => cursor < stamp entry := by
      apply List.filter_congr
      intro entry _
      rw [decide_eq_decide, hpassed, not_le]
    rw [hnewer]
    cases history with
    | none => exact ⟨none, rfl, rfl⟩
    | some entries =>
      cases entries with
      | nil => exact ⟨none, rfl, rfl⟩
      | cons entry entries => exact ⟨some _, rfl, rfl⟩

variable {command : TaskCommand} {task : TaskResult}

theorem get_histories {params : JsonObject} {commands : Option (List TaskCommand)}
    {statuses : Option (List TaskStatus)} (hparams : command.commandParams = some params)
    (hcommands : DefaultHandlers.newer TaskCommand.sentAt
      (JsonObject.get params "lastCommandSentAt") task.commandHistory = .ok commands)
    (hstatuses : DefaultHandlers.newer TaskStatus.stateChangedAt
      (JsonObject.get params "lastStateChangedAt") task.statusHistory = .ok statuses) :
    (DefaultHandlers.get command task).result.commands =
        (commands.or task.commandHistory).getD [] ∧
      (DefaultHandlers.get command task).result.statuses =
        (statuses.or task.statusHistory).getD [] := by
  unfold DefaultHandlers.get
  rw [hparams]
  dsimp only [Option.getD_some]
  rw [hcommands, hstatuses]
  cases commands <;> cases statuses <;> exact ⟨rfl, rfl⟩

end Polls

section Runs

variable {s : Following}

structure Steady (s : Following) : Prop where
  commandsStamped : ∀ command ∈ s.task.commands, command.sentAt ≠ ""
  statusesStamped : ∀ status ∈ s.task.statuses, status.stateChangedAt ≠ ""
  commandsSound : s.commandsPolled.Sound TaskCommand.sentAt
  statusesSound : s.statusesPolled.Sound TaskStatus.stateChangedAt

theorem Steady.received_commands (h : Steady s) {command : TaskCommand} (hc : command ∈ s.commands) :
    command.sentAt ≠ "" :=
  h.commandsStamped command (List.mem_of_mem_filter (h.commandsSound.subset hc))

theorem Steady.received_statuses (h : Steady s) {status : TaskStatus} (hs : status ∈ s.statuses) :
    status.stateChangedAt ≠ "" :=
  h.statusesStamped status (List.mem_of_mem_filter (h.statusesSound.subset hs))

theorem step_poll (h : Steady s) (request : TaskCommand) :
    (s.step (.poll request)).commandsPolled = s.commandsPolled.poll TaskCommand.sentAt ∧
      (s.step (.poll request)).statusesPolled = s.statusesPolled.poll TaskStatus.stateChangedAt := by
  obtain ⟨commands, hcommands, hnewCommands⟩ := newer_largest TaskCommand.sentAt
    s.task.commandHistory fun command hc => h.received_commands hc
  obtain ⟨statuses, hstatuses, hnewStatuses⟩ := newer_largest TaskStatus.stateChangedAt
    s.task.statusHistory fun status hs => h.received_statuses hs
  let get : TaskCommand := { request with commandParams := some s.getCommandParams }
  have hparams : get.commandParams = some s.getCommandParams := rfl
  have hget := get_histories hparams hcommands hstatuses
  rw [hnewCommands, hnewStatuses] at hget
  constructor
  · exact congrArg (fun new => Polled.mk s.task.commands (s.commands ++ new)) hget.1
  · exact congrArg (fun new => Polled.mk s.task.statuses (s.statuses ++ new)) hget.2

theorem Steady.step (h : Steady s) (event : Event) : Steady (s.step event) := by
  cases event with
  | command command stamped =>
    refine ⟨?_, h.statusesStamped, Polled.sound_arrive h.commandsSound command, h.statusesSound⟩
    intro other hother
    rcases List.mem_append.mp hother with hold | hnew
    · exact h.commandsStamped other hold
    · rw [List.mem_singleton.mp hnew]
      exact stamped
  | status status stamped =>
    refine ⟨h.commandsStamped, ?_, h.commandsSound, Polled.sound_arrive h.statusesSound status⟩
    intro other hother
    rcases List.mem_append.mp hother with hold | hnew
    · exact h.statusesStamped other hold
    · rw [List.mem_singleton.mp hnew]
      exact stamped
  | poll request =>
    obtain ⟨hcommands, hstatuses⟩ := step_poll h request
    refine ⟨h.commandsStamped, h.statusesStamped, ?_, ?_⟩
    · rw [hcommands]
      exact Polled.sound_poll h.commandsSound
    · rw [hstatuses]
      exact Polled.sound_poll h.statusesSound

def Recoverable (s : Following) : Prop :=
  s.commandsPolled.Whole TaskCommand.sentAt ∧ s.statusesPolled.Whole TaskStatus.stateChangedAt

theorem recoverable_step_iff (h : Steady s) (event : Event) :
    Recoverable (s.step event) ↔ Recoverable s ∧ s.Fresh event := by
  cases event with
  | command command _ =>
    have hcommands : (s.commandsPolled.arrive command).Whole TaskCommand.sentAt ↔ _ :=
      Polled.whole_arrive_iff h.commandsSound
    exact (and_congr_left' hcommands).trans and_right_comm
  | status status _ =>
    have hstatuses : (s.statusesPolled.arrive status).Whole TaskStatus.stateChangedAt ↔ _ :=
      Polled.whole_arrive_iff h.statusesSound
    exact (and_congr_right' hstatuses).trans and_assoc.symm
  | poll request =>
    obtain ⟨hcommands, hstatuses⟩ := step_poll h request
    unfold Recoverable
    rw [hcommands, hstatuses, Polled.whole_poll_iff, Polled.whole_poll_iff]
    exact (and_iff_left trivial).symm

theorem complete_poll_iff (h : Steady s) (request : TaskCommand) :
    (s.step (.poll request)).Complete ↔ Recoverable s := by
  obtain ⟨hcommands, hstatuses⟩ := step_poll h request
  have hreceived : (s.commandsPolled.poll TaskCommand.sentAt).received.Perm _ ↔ _ :=
    Polled.received_poll_iff
  have hchanged : (s.statusesPolled.poll TaskStatus.stateChangedAt).received.Perm _ ↔ _ :=
    Polled.received_poll_iff
  rw [← hcommands] at hreceived
  rw [← hstatuses] at hchanged
  exact and_congr hreceived hchanged

theorem exec_following (s : Following) (events : List Event) :
    following.exec s events = some (events.foldl Following.step s) := by
  induction events generalizing s with
  | nil => rfl
  | cons event events ih => exact ih (s.step event)

theorem steady_initial (task : TaskResult) : Steady (.initial task) :=
  ⟨fun _ h => absurd h List.not_mem_nil, fun _ h => absurd h List.not_mem_nil, List.nil_subperm,
    List.nil_subperm⟩

theorem complete_iff_fresh (task : TaskResult) (events : List Event) (request : TaskCommand) :
    ∃ s, following.exec (.initial task) (events ++ [.poll request]) = some s ∧
      (s.Complete ↔ following.Meets Following.Fresh (.initial task) events) := by
  have hbefore := exec_following (.initial task) events
  have hstep {s t : Following} {event : Event} (h : Steady s)
      (ht : following.step s event = some t) : Steady t ∧ (Recoverable t ↔ Recoverable s ∧
        s.Fresh event) := by
    obtain rfl : s.step event = t := Option.some.inj ht
    exact ⟨h.step event, recoverable_step_iff h event⟩
  have hsteady := following.exec_induction (fun s event t h ht => (hstep h ht).1)
    (steady_initial task) hbefore
  have hiff := following.exec_iff_meets (fun s event t h ht => (hstep h ht).1)
    (fun s event t h ht => (hstep h ht).2) (steady_initial task) hbefore
  refine ⟨_, following.exec_append_of_exec hbefore rfl, ?_⟩
  rw [complete_poll_iff hsteady, hiff]
  exact and_iff_right ⟨List.Perm.nil, List.Perm.nil⟩

end Runs

namespace Sample

def command (sentAt : String) : TaskCommand :=
  { id := sentAt, sentAt, senderId := "leader", sessionId := none, command := .continue
    commandParams := none, taskId := some "task", dataItems := none }

def task : TaskResult :=
  { id := "result", sentAt := "", senderId := "partner", taskId := "task", sessionId := none
    status := ⟨.working, "", none⟩, products := none, commandHistory := none, statusHistory := none }

def zones : List Event :=
  [.command (command "2025-01-01T09:00:00+00:00") (by decide), .poll (command "get"),
    .command (command "2025-01-01T01:30:00-08:00") (by decide), .poll (command "get")]

end Sample

theorem zone_command_lost :
    ∃ s, following.exec (.initial Sample.task) Sample.zones = some s ∧
      s.commands.map TaskCommand.sentAt = ["2025-01-01T09:00:00+00:00"] ∧
      s.task.commands.map TaskCommand.sentAt =
        ["2025-01-01T09:00:00+00:00", "2025-01-01T01:30:00-08:00"] ∧ ¬ s.Complete := by
  have hcommands : (Sample.zones.foldl Following.step (.initial Sample.task)).commands.length = 1 := by
    decide +kernel
  refine ⟨_, exec_following _ _, by decide +kernel, by decide +kernel, ?_⟩
  intro h
  have hlength := h.1.length_eq
  rw [hcommands] at hlength
  exact absurd hlength (by decide +kernel)

end Acps.Aip.IncrementalGet
