import Mathlib.Logic.Function.Basic
import Mathlib.Data.List.Infix
import Acps.Lib.Slots
import Acps.Lib.Transition
import Acps.Assistant.GateResponse

/-!
The compression of the dialog history of a session.
-/

namespace Acps.Assistant.HistoryCompression

open Aic (Text)
open AipExecutor.CompletionGate (strip)
open Transition (System)

def compressionThreshold : ℕ := 6

def turnsToKeep : ℕ := 3

def maxSummaryLength : ℕ := 2000

structure DialogTurn where
  place : ℕ
  userQuery : Text
  intentType : Text
  responseSummary : Option Text
  deriving DecidableEq

structure CompressionTurn where
  content : Text
  intent : Text

structure HistoryCompressionRequest where
  existingSummary : Option Text
  existingTurnCount : ℕ
  turnsToCompress : List CompressionTurn

structure HistoryCompressionResult where
  newSummary : Text
  compressedTurnCount : ℕ
  totalTurnCount : ℕ

section Compress

def unquote (mark : Char) (summary : Text) : Text :=
  if summary.head? = some mark ∧ summary.getLast? = some mark then summary.tail.dropLast else summary

def parseResponse (response : Text) : Text := unquote '\'' (unquote '"' (strip response))

def fallbackPart (turn : CompressionTurn) : Text :=
  let intentInfo := if turn.intent = [] then [] else '[' :: turn.intent ++ [']']
  let content := if turn.content.length > 100 then turn.content.take 100 ++ "...".toList
    else turn.content
  "用户".toList ++ intentInfo ++ ": ".toList ++ content

def fallbackCompression (turns : List CompressionTurn) (existingSummary : Option Text) : Text :=
  " | ".toList.intercalate ((existingSummary.filter (· ≠ [])).toList ++ turns.map fallbackPart)

def compress (request : HistoryCompressionRequest) (response : Option Text) :
    HistoryCompressionResult :=
  if request.turnsToCompress.isEmpty then
    { newSummary := request.existingSummary.getD [], compressedTurnCount := 0
      totalTurnCount := request.existingTurnCount }
  else
    let newSummary := match response with
      | some response => parseResponse response
      | none => fallbackCompression request.turnsToCompress request.existingSummary
    { newSummary := if newSummary.length > maxSummaryLength
        then newSummary.take maxSummaryLength ++ "...".toList else newSummary
      compressedTurnCount := request.turnsToCompress.length
      totalTurnCount := request.existingTurnCount + request.turnsToCompress.length }

end Compress

structure DialogContext where
  recentTurns : ℕ
  historySummary : Option Text := none
  historyTurnCount : Option ℕ := none

structure Compression where
  turns : ℕ
  count : ℕ
  batch : List DialogTurn
  request : HistoryCompressionRequest

inductive Task where
  | created
  | compressing (c : Compression)
  | ended

/-- A session with its tasks. A list is named by a number, and `lists` has what is in it. The last two
fields are for the record: the turns that were added, and the batches that were compressed. -/
structure State where
  present : Bool
  dialogContext : Option DialogContext
  lists : ℕ → List DialogTurn
  fresh : ℕ
  locked : Bool
  tasks : List Task
  added : List DialogTurn
  compressed : List (List DialogTurn)

def initial : State where
  present := true
  dialogContext := none
  lists _ := []
  fresh := 0
  locked := false
  tasks := []
  added := []
  compressed := []

inductive Act where
  | addDialogTurn (userQuery intentType : Text) (responseSummary : Option Text)
  | expire
  | createTask
  | start (i : ℕ)
  | finish (i : ℕ) (response : Option Text)
  | fail (i : ℕ)

namespace State

variable (s : State)

def recentTurns : List DialogTurn :=
  match s.dialogContext with
  | none => []
  | some context => s.lists context.recentTurns

def historyTurnCount : ℕ := (s.dialogContext.bind DialogContext.historyTurnCount).getD 0

def addDialogTurn (userQuery intentType : Text) (responseSummary : Option Text) : State :=
  if s.present then
    let turn : DialogTurn := ⟨s.added.length, userQuery, intentType, responseSummary⟩
    match s.dialogContext with
    | none => { s with
        dialogContext := some { recentTurns := s.fresh }
        lists := Function.update s.lists s.fresh [turn]
        fresh := s.fresh + 1
        added := s.added ++ [turn] }
    | some context => { s with
        lists := Function.update s.lists context.recentTurns (s.lists context.recentTurns ++ [turn])
        added := s.added ++ [turn] }
  else s

def shouldCompressHistory : Bool :=
  s.dialogContext.isSome ∧ compressionThreshold ≤ s.recentTurns.length

def setTask (i : ℕ) (task : Task) : State := { s with tasks := s.tasks.set i task }

def startTask (i : ℕ) : State :=
  match s.dialogContext with
  | none => s.setTask i .ended
  | some context =>
    let turns := s.lists context.recentTurns
    let count := turns.length - turnsToKeep
    if s.locked = false ∧ s.present ∧ s.shouldCompressHistory ∧ 0 < count then
      let batch := turns.take count
      let request : HistoryCompressionRequest :=
        { existingSummary := context.historySummary.filter (· ≠ [])
          existingTurnCount := context.historyTurnCount.getD 0
          turnsToCompress := batch.map fun turn => ⟨turn.userQuery, turn.intentType⟩ }
      { s.setTask i (.compressing ⟨context.recentTurns, count, batch, request⟩) with locked := true }
    else s.setTask i .ended

def finishTask (i : ℕ) (c : Compression) (result : HistoryCompressionResult) : State :=
  { s.setTask i .ended with
    locked := false
    dialogContext := s.dialogContext.map fun context =>
      { recentTurns := s.fresh
        historySummary := some result.newSummary
        historyTurnCount := some (context.historyTurnCount.getD 0 + result.compressedTurnCount) }
    lists := Function.update s.lists s.fresh ((s.lists c.turns).drop c.count)
    fresh := s.fresh + 1
    compressed := s.compressed ++ [c.batch] }

end State

def step (s : State) : Act → Option State
  | .addDialogTurn userQuery intentType responseSummary =>
    some (s.addDialogTurn userQuery intentType responseSummary)
  | .expire => some { s with present := false }
  | .createTask => some { s with tasks := s.tasks ++ [.created] }
  | .start i =>
    match s.tasks[i]? with
    | some .created => some (s.startTask i)
    | _ => none
  | .finish i response =>
    match s.tasks[i]? with
    | some (.compressing c) => some (s.finishTask i c (compress c.request response))
    | _ => none
  | .fail i =>
    match s.tasks[i]? with
    | some .created => some (s.setTask i .ended)
    | some (.compressing _) => some { s.setTask i .ended with locked := false }
    | _ => none

def system : System State Act := ⟨step⟩

structure Exact (s : State) : Prop where
  count : s.historyTurnCount + s.recentTurns.length = s.added.length
  suffix : s.recentTurns <:+ s.added
  once : s.compressed.flatten.Nodup

theorem compress_count (request : HistoryCompressionRequest) (response : Option Text) :
    (compress request response).compressedTurnCount = request.turnsToCompress.length := by
  unfold compress
  split
  next hempty => rw [List.isEmpty_iff.mp hempty]; rfl
  next => rfl

structure Held (s : State) (c : Compression) : Prop where
  locked : s.locked = true
  context : ∃ context, s.dialogContext = some context ∧ context.recentTurns = c.turns
  taken : c.batch = (s.lists c.turns).take c.count
  length_eq : c.batch.length = c.count
  passed : c.request.turnsToCompress.length = c.count

structure Inv (s : State) : Prop where
  allocated : ∀ context, s.dialogContext = some context → context.recentTurns < s.fresh
  held : ∀ (i : ℕ) (c : Compression), s.tasks[i]? = some (.compressing c) → Held s c
  alone : ∀ (i j : ℕ) (c c' : Compression), s.tasks[i]? = some (.compressing c) →
    s.tasks[j]? = some (.compressing c') → i = j
  account : s.compressed.flatten ++ s.recentTurns = s.added
  counted : s.historyTurnCount = s.compressed.flatten.length
  places : s.added.map DialogTurn.place = List.range s.added.length

theorem inv_initial : Inv initial where
  allocated context h := by cases h
  held i c h := by cases h
  alone i j c c' h := by cases h
  account := rfl
  counted := rfl
  places := rfl

theorem Inv.exact {s : State} (h : Inv s) : Exact s where
  count := by rw [h.counted, ← h.account, List.length_append]
  suffix := h.account ▸ List.suffix_append _ _
  once := by
    have hnodup : (s.added.map DialogTurn.place).Nodup := h.places ▸ List.nodup_range
    have hadded := hnodup.of_map
    rw [← h.account] at hadded
    exact hadded.of_append_left

section Tasks

variable {s : State} {i j : ℕ} {task : Task} {c c' : Compression}

theorem tasks_setTask (h : (s.setTask i task).tasks[j]? = some (.compressing c)) :
    i = j ∧ task = .compressing c ∨ i ≠ j ∧ s.tasks[j]? = some (.compressing c) := by
  change (s.tasks.set i task)[j]? = _ at h
  rw [List.getElem?_set] at h
  split at h
  next heq =>
    split at h
    next => exact .inl ⟨heq, Option.some.inj h⟩
    next => cases h
  next hne => exact .inr ⟨hne, h⟩

theorem Inv.setEnded (h : Inv s) (i : ℕ) : Inv (s.setTask i .ended) where
  allocated := h.allocated
  held j c hj := by
    rcases tasks_setTask hj with ⟨-, heq⟩ | ⟨-, hj⟩
    · cases heq
    · obtain ⟨hlocked, hcontext, htaken, hlength, hpassed⟩ := h.held j c hj
      exact ⟨hlocked, hcontext, htaken, hlength, hpassed⟩
  alone j k c c' hj hk := by
    rcases tasks_setTask hj with ⟨-, heq⟩ | ⟨-, hj⟩
    · cases heq
    · rcases tasks_setTask hk with ⟨-, heq⟩ | ⟨-, hk⟩
      · cases heq
      · exact h.alone j k c c' hj hk
  account := h.account
  counted := h.counted
  places := h.places

theorem Inv.nobody (h : Inv s) (hi : s.tasks[i]? = some (.compressing c))
    (hj : (s.setTask i .ended).tasks[j]? = some (.compressing c')) : False := by
  rcases tasks_setTask hj with ⟨-, heq⟩ | ⟨hne, hj⟩
  · cases heq
  · exact hne (h.alone i j c c' hi hj)

theorem Inv.released (h : Inv s) (hi : s.tasks[i]? = some (.compressing c)) :
    Inv { s.setTask i .ended with locked := false } where
  allocated := h.allocated
  held _ _ hk := (h.nobody hi hk).elim
  alone _ _ _ _ hk := (h.nobody hi hk).elim
  account := h.account
  counted := h.counted
  places := h.places

theorem Inv.not_compressing (h : Inv s) (hlocked : s.locked = false) :
    s.tasks[i]? ≠ some (.compressing c) := by
  intro hi
  have hheld := (h.held i c hi).locked
  rw [hlocked] at hheld
  cases hheld

end Tasks

section Steps

variable {s : State} {i : ℕ} {c : Compression}

theorem recentTurns_of_context {context : DialogContext} (h : s.dialogContext = some context) :
    s.recentTurns = s.lists context.recentTurns := by
  unfold State.recentTurns
  rw [h]

theorem places_concat {turns : List DialogTurn} (turn : DialogTurn)
    (h : turns.map DialogTurn.place = List.range turns.length) (hplace : turn.place = turns.length) :
    (turns ++ [turn]).map DialogTurn.place = List.range (turns ++ [turn]).length := by
  rw [List.map_append, h, List.length_append, List.length_singleton, List.range_succ,
    List.map_singleton, hplace]

theorem Inv.addDialogTurn (h : Inv s) (userQuery intentType : Text) (responseSummary : Option Text) :
    Inv (s.addDialogTurn userQuery intentType responseSummary) := by
  unfold State.addDialogTurn
  split
  next =>
    have hplaces := places_concat ⟨s.added.length, userQuery, intentType, responseSummary⟩
      h.places rfl
    split
    next hnone =>
      have hempty : s.recentTurns = [] := by
        unfold State.recentTurns
        rw [hnone]
      have hzero : s.historyTurnCount = 0 := by
        unfold State.historyTurnCount
        rw [hnone]
        rfl
      refine ⟨?_, ?_, h.alone, ?_, ?_, hplaces⟩
      · rintro context hcontext
        obtain rfl := Option.some.inj hcontext
        exact Nat.lt_succ_self _
      · intro i c hi
        obtain ⟨context, hcontext, -⟩ := (h.held i c hi).context
        rw [hnone] at hcontext
        cases hcontext
      · rw [← h.account, hempty, List.append_nil]
        exact congrArg (s.compressed.flatten ++ ·) (Function.update_self s.fresh _ s.lists)
      · rw [← h.counted, hzero]
        rfl
    next context hcontext =>
      refine ⟨h.allocated, ?_, h.alone, ?_, h.counted, hplaces⟩
      · intro i c hi
        obtain ⟨hlocked, ⟨context', hcontext', hturns⟩, htaken, hlength, hpassed⟩ := h.held i c hi
        obtain rfl : context = context' := Option.some.inj (hcontext.symm.trans hcontext')
        refine ⟨hlocked, ⟨context, hcontext, hturns⟩, ?_, hlength, hpassed⟩
        -- the turn is added behind those that the task has taken
        have hle : c.count ≤ (s.lists c.turns).length := by
          rw [← hlength, htaken, List.length_take]
          exact Nat.min_le_right _ _
        dsimp only
        rw [hturns, Function.update_self, List.take_append_of_le_length hle]
        exact htaken
      · have haccount := h.account
        rw [recentTurns_of_context hcontext] at haccount
        unfold State.recentTurns
        dsimp only
        rw [hcontext]
        dsimp only
        rw [Function.update_self, ← List.append_assoc, haccount]
  next => exact h

theorem Inv.startTask (h : Inv s) (i : ℕ) : Inv (s.startTask i) := by
  unfold State.startTask
  split
  next => exact h.setEnded i
  next context hcontext =>
    dsimp only
    split
    next hstart =>
      refine ⟨h.allocated, ?_, ?_, h.account, h.counted, h.places⟩
      · intro k c hk
        rcases tasks_setTask hk with ⟨-, heq⟩ | ⟨-, hk⟩
        · obtain rfl := Task.compressing.inj heq
          have hlength : ((s.lists context.recentTurns).take
              ((s.lists context.recentTurns).length - turnsToKeep)).length =
                (s.lists context.recentTurns).length - turnsToKeep := by
            rw [List.length_take]
            omega
          refine ⟨rfl, ⟨context, hcontext, rfl⟩, rfl, hlength, ?_⟩
          rw [List.length_map]
          exact hlength
        · exact absurd hk (h.not_compressing hstart.1)
      · intro j k c c' hj hk
        rcases tasks_setTask hj with ⟨hij, -⟩ | ⟨-, hj⟩
        · rcases tasks_setTask hk with ⟨hik, -⟩ | ⟨-, hk⟩
          · exact hij.symm.trans hik
          · exact absurd hk (h.not_compressing hstart.1)
        · exact absurd hj (h.not_compressing hstart.1)
    next => exact h.setEnded i

theorem Inv.finishTask (h : Inv s) (response : Option Text)
    (hi : s.tasks[i]? = some (.compressing c)) :
    Inv (s.finishTask i c (compress c.request response)) := by
  obtain ⟨-, ⟨context, hcontext, hturns⟩, htaken, hlength, hpassed⟩ := h.held i c hi
  refine ⟨?_, fun _ _ hk => (h.nobody hi hk).elim, fun _ _ _ _ hk => (h.nobody hi hk).elim, ?_, ?_,
    h.places⟩
  · intro new hnew
    obtain ⟨old, -, rfl⟩ := Option.map_eq_some_iff.mp hnew
    exact Nat.lt_succ_self _
  · have hnew : (s.finishTask i c (compress c.request response)).recentTurns =
        (s.lists c.turns).drop c.count := by
      unfold State.recentTurns State.finishTask
      dsimp only
      rw [hcontext]
      exact Function.update_self _ _ _
    change (s.compressed ++ [c.batch]).flatten ++ _ = s.added
    rw [hnew, List.flatten_append, List.flatten_singleton, List.append_assoc, htaken,
      List.take_append_drop, ← hturns, ← recentTurns_of_context hcontext]
    exact h.account
  · have hcount : s.historyTurnCount = context.historyTurnCount.getD 0 := by
      unfold State.historyTurnCount
      rw [hcontext]
      rfl
    change _ = (s.compressed ++ [c.batch]).flatten.length
    rw [List.flatten_append, List.flatten_singleton, List.length_append, ← h.counted, hcount, hlength,
      ← hpassed, ← compress_count c.request response]
    unfold State.historyTurnCount State.finishTask
    dsimp only
    rw [hcontext]
    rfl

theorem inv_step (s : State) (a : Act) (t : State) (h : Inv s) (hstep : step s a = some t) : Inv t := by
  cases a with
  | addDialogTurn userQuery intentType responseSummary =>
    obtain rfl := Option.some.inj hstep
    exact h.addDialogTurn userQuery intentType responseSummary
  | expire =>
    obtain rfl := Option.some.inj hstep
    refine ⟨h.allocated, fun i c hi => ?_, h.alone, h.account, h.counted, h.places⟩
    obtain ⟨hlocked, hcontext, htaken, hlength, hpassed⟩ := h.held i c hi
    exact ⟨hlocked, hcontext, htaken, hlength, hpassed⟩
  | createTask =>
    obtain rfl := Option.some.inj hstep
    have hold : ∀ (i : ℕ) (c : Compression), (s.tasks ++ [.created])[i]? = some (.compressing c) →
        s.tasks[i]? = some (.compressing c) := by
      intro i c hi
      rcases Slots.getElem?_concat_eq_some.mp hi with hi | ⟨-, heq⟩
      · exact hi
      · cases heq
    refine ⟨h.allocated, fun i c hi => ?_,
      fun i j c c' hi hj => h.alone i j c c' (hold i c hi) (hold j c' hj), h.account, h.counted,
      h.places⟩
    obtain ⟨hlocked, hcontext, htaken, hlength, hpassed⟩ := h.held i c (hold i c hi)
    exact ⟨hlocked, hcontext, htaken, hlength, hpassed⟩
  | start i =>
    simp only [step] at hstep
    split at hstep
    next hi =>
      obtain rfl := Option.some.inj hstep
      exact h.startTask i
    next => cases hstep
  | finish i response =>
    simp only [step] at hstep
    split at hstep
    next hi =>
      obtain rfl := Option.some.inj hstep
      exact h.finishTask response hi
    next => cases hstep
  | fail i =>
    simp only [step] at hstep
    split at hstep
    next hi =>
      obtain rfl := Option.some.inj hstep
      exact h.setEnded i
    next hi =>
      obtain rfl := Option.some.inj hstep
      exact h.released hi
    next => cases hstep

end Steps

theorem history_exact {s : State} {actions : List Act} (h : system.exec initial actions = some s) :
    Exact s :=
  (system.exec_induction inv_step inv_initial h).exact

namespace Sample

def add (query : String) : Act := .addDialogTurn query.toList "TASK_NEW".toList none

def actions : List Act :=
  List.replicate 6 (add "hello") ++
    [.createTask, .createTask, .start 0, add "late", .start 1, .finish 0 none]

end Sample

theorem history_exact_sample : ∃ s, system.exec initial Sample.actions = some s ∧
    s.recentTurns.map DialogTurn.place = [3, 4, 5, 6] ∧ Exact s := by
  have hruns : (system.exec initial Sample.actions).any
      (fun s => s.recentTurns.map DialogTurn.place = [3, 4, 5, 6]) = true := by
    decide +kernel
  obtain ⟨s, hs, hrecent⟩ := (Option.any_eq_true _ _).mp hruns
  exact ⟨s, hs, of_decide_eq_true hrecent, history_exact hs⟩

end Acps.Assistant.HistoryCompression
