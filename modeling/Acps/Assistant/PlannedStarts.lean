import Acps.Lib.Delimited
import Acps.Assistant.Planner

/-!
How a plan becomes start commands, over RPC and in a group. Both executors keep one selection of each
partner: the texts of the others are in it, their data is not.
-/

namespace Acps.Assistant.Planner

open Aic (Text UpperCase)
open AipExecutor.CompletionGate (strip)

structure StartContent where
  text : Text
  data : Option JsonObject
  deriving DecidableEq

def StartContent.render (repr : JsonObject → Text) (content : StartContent) : Text :=
  match content.data with
  | none => content.text
  | some data => content.text ++ "\n\n[结构化参数]: ".toList ++ repr data

def PartnerSelection.content (s : PartnerSelection) : StartContent :=
  ⟨s.instructionText, s.instructionData.filter (· ≠ [])⟩

structure StartCommand where
  partnerAic : String
  taskId : String
  content : StartContent
  deriving DecidableEq

def aipTaskId (activeTaskId aic : String) : String := activeTaskId ++ ":" ++ aic

structure EndPoint where
  url : Text
  transport : Text

def extractPartnerEndpoint (U : UpperCase) (endPoints : List EndPoint) : Option Text :=
  let https := endPoints.find? fun ep => "https://".toList.isPrefixOf ep.url
  let http := endPoints.find? fun ep =>
    ep.url ≠ [] ∧ ep.transport.flatMap U.upper ∈ ["HTTP".toList, "JSONRPC".toList]
  ((https.or http).or endPoints.head?).map EndPoint.url

namespace Direct

structure PartnerTask where
  dimensionId : String
  dimensionIds : List String
  aipTaskId : String
  selection : PartnerSelection
  endpoint : Text

structure Executor where
  upperCase : UpperCase
  acsCache : String → List EndPoint
  activeTaskId : String

def Executor.endpoint (e : Executor) (aic : String) : Option Text :=
  (extractPartnerEndpoint e.upperCase (e.acsCache aic)).filter (· ≠ [])

def addPartner (e : Executor) (tasks : Dict String PartnerTask) (a : String × PartnerSelection) :
    Dict String PartnerTask :=
  match e.endpoint a.2.partnerAic with
  | none => tasks
  | some endpoint =>
    match tasks.get a.2.partnerAic with
    | some existing => tasks.set a.2.partnerAic { existing with
        dimensionIds := if a.1 ∈ existing.dimensionIds then existing.dimensionIds
          else existing.dimensionIds ++ [a.1]
        selection := a.2
        endpoint }
    | none => tasks.set a.2.partnerAic
        { dimensionId := a.1, dimensionIds := [a.1]
          aipTaskId := aipTaskId e.activeTaskId a.2.partnerAic, selection := a.2, endpoint }

def buildPartnerTasks (e : Executor) (planning : PlanningResult) : Dict String PartnerTask :=
  planning.assigned.foldl (addPartner e) Dict.empty

def startAllPartners (tasks : Dict String PartnerTask) : List StartCommand :=
  tasks.entries.map fun task => ⟨task.1, task.2.aipTaskId, task.2.selection.content⟩

def starts (e : Executor) (planning : PlanningResult) : List StartCommand :=
  startAllPartners (buildPartnerTasks e planning)

end Direct

namespace InGroup

structure PartnerTask where
  dimensionId : String
  aipTaskId : String
  selection : PartnerSelection

structure Executor where
  leaderAic : String
  invited : String → Bool
  activeTaskId : String

def addPartner (e : Executor) (tasks : Dict String PartnerTask) (a : String × PartnerSelection) :
    Dict String PartnerTask :=
  if a.2.partnerAic ≠ "" ∧ a.2.partnerAic = e.leaderAic then tasks
  else tasks.set a.2.partnerAic
    { dimensionId := a.1, aipTaskId := aipTaskId e.activeTaskId a.2.partnerAic, selection := a.2 }

def buildPartnerTasks (e : Executor) (planning : PlanningResult) : Dict String PartnerTask :=
  planning.assigned.foldl (addPartner e) Dict.empty

def startAllPartners (e : Executor) (tasks : Dict String PartnerTask) : List StartCommand :=
  (tasks.entries.filter fun task => e.invited task.1).map fun task =>
    ⟨task.1, task.2.aipTaskId, task.2.selection.content⟩

def starts (e : Executor) (planning : PlanningResult) : List StartCommand :=
  startAllPartners e (buildPartnerTasks e planning)

end InGroup

/-- The partner gets one start, with each text that was planned for it, up to the white space around
the text, and with all data. -/
def Delivered (planning : PlanningResult) (starts : List StartCommand) (aic : String) : Prop :=
  starts.countP (fun start => start.partnerAic = aic) = 1 ∧
    ∀ start ∈ starts, start.partnerAic = aic → ∀ s ∈ planning.selections aic,
      strip s.instructionText <:+: start.content.text ∧
        ∀ data, s.instructionData = some data → data ≠ [] → start.content.data = some data

def DataLast (planning : PlanningResult) (aic : String) : Prop :=
  ∀ s ∈ planning.selections aic, ∀ data, s.instructionData = some data → data ≠ [] →
    (planning.selections aic).getLast?.bind PartnerSelection.instructionData = some data

section LastSelection

variable {τ : Type} {selection : τ → PartnerSelection} (kept : String → Prop) [DecidablePred kept]
  {step : Dict String τ → String × PartnerSelection → Dict String τ}

theorem get_foldl
    (hstep : ∀ tasks a aic, ((step tasks a).get aic).map selection =
      if a.2.partnerAic = aic ∧ kept aic then some a.2 else (tasks.get aic).map selection)
    (assigned : List (String × PartnerSelection)) (tasks : Dict String τ) (aic : String) :
    ((assigned.foldl step tasks).get aic).map selection =
      if kept aic then
        (((assigned.map Prod.snd).filter fun s => s.partnerAic = aic).getLast?).or
          ((tasks.get aic).map selection)
      else (tasks.get aic).map selection := by
  induction assigned generalizing tasks with
  | nil => split <;> rfl
  | cons a assigned ih =>
    rw [List.foldl_cons, ih, hstep, List.map_cons, List.filter_cons]
    by_cases hkept : kept aic
    · rw [if_pos hkept, if_pos hkept]
      by_cases haic : a.2.partnerAic = aic
      · rw [if_pos ⟨haic, hkept⟩, if_pos (by simpa using haic), List.getLast?_cons]
        cases (((assigned.map Prod.snd).filter fun s => s.partnerAic = aic).getLast?) <;> rfl
      · rw [if_neg fun h => haic h.1, if_neg (by simpa using haic)]
    · rw [if_neg hkept, if_neg hkept, if_neg fun h => hkept h.2]

end LastSelection

namespace Direct

theorem get_addPartner (e : Executor) (tasks : Dict String PartnerTask)
    (a : String × PartnerSelection) (aic : String) :
    ((addPartner e tasks a).get aic).map PartnerTask.selection =
      if a.2.partnerAic = aic ∧ (e.endpoint aic).isSome then some a.2
      else (tasks.get aic).map PartnerTask.selection := by
  unfold addPartner
  by_cases haic : a.2.partnerAic = aic
  · subst haic
    cases hend : e.endpoint a.2.partnerAic with
    | none =>
      rw [if_neg]
      rintro ⟨-, h⟩
      cases h
    | some endpoint =>
      rw [if_pos ⟨rfl, rfl⟩]
      dsimp only
      split
      all_goals rw [Dict.get_set_self]; rfl
  · rw [if_neg fun h => haic h.1]
    split
    next => rfl
    next =>
      split
      all_goals rw [Dict.get_set_ne (Ne.symm haic)]

theorem get_buildPartnerTasks (e : Executor) (planning : PlanningResult) (aic : String) :
    ((buildPartnerTasks e planning).get aic).map PartnerTask.selection =
      if (e.endpoint aic).isSome then (planning.selections aic).getLast? else none := by
  unfold buildPartnerTasks
  rw [get_foldl (fun aic => (e.endpoint aic).isSome) (get_addPartner e)]
  simp [PlanningResult.selections]

end Direct

namespace InGroup

theorem get_addPartner (e : Executor) (tasks : Dict String PartnerTask)
    (a : String × PartnerSelection) (aic : String) :
    ((addPartner e tasks a).get aic).map PartnerTask.selection =
      if a.2.partnerAic = aic ∧ ¬ (aic ≠ "" ∧ aic = e.leaderAic) then some a.2
      else (tasks.get aic).map PartnerTask.selection := by
  unfold addPartner
  by_cases haic : a.2.partnerAic = aic
  · subst haic
    split
    next hleader => rw [if_neg fun h => h.2 hleader]
    next hother => rw [if_pos ⟨rfl, hother⟩, Dict.get_set_self]; rfl
  · have hother : ¬ (a.2.partnerAic = aic ∧ ¬ (aic ≠ "" ∧ aic = e.leaderAic)) := fun h => haic h.1
    rw [if_neg hother]
    split
    next => rfl
    next => rw [Dict.get_set_ne (Ne.symm haic)]

theorem get_buildPartnerTasks (e : Executor) (planning : PlanningResult) {aic : String}
    (hleader : aic ≠ e.leaderAic) :
    ((buildPartnerTasks e planning).get aic).map PartnerTask.selection =
      (planning.selections aic).getLast? := by
  unfold buildPartnerTasks
  rw [get_foldl (fun aic => ¬ (aic ≠ "" ∧ aic = e.leaderAic)) (get_addPartner e),
    if_pos fun h => hleader h.2]
  simp [PlanningResult.selections]

end InGroup

section Texts

variable {planning : PlanningResult} {candidateMap : Dict String PartnerCandidate} {aic : String}

theorem strip_infix (text : Text) : strip text <:+: text := by
  unfold strip
  have hend : (text.dropWhile Aic.isSpace).reverse.dropWhile Aic.isSpace <:+
      (text.dropWhile Aic.isSpace).reverse := List.dropWhile_suffix _
  have hstart : ((text.dropWhile Aic.isSpace).reverse.dropWhile Aic.isSpace).reverse <+:
      text.dropWhile Aic.isSpace := by
    simpa using List.reverse_prefix.mpr hend
  exact hstart.isInfix.trans (List.dropWhile_suffix _).isInfix

theorem selections_normalize : (normalizeDuplicatePartnerAssignments candidateMap planning).selections
    aic = (planning.selections aic).map fun s =>
      s.instruct (mergedInstruction planning candidateMap aic) := by
  unfold PlanningResult.selections
  rw [assigned_normalize]
  induction planning.assigned with
  | nil => rfl
  | cons a assigned ih =>
    simp only [List.map_cons, List.filter_cons] at ih ⊢
    by_cases haic : a.2.partnerAic = aic
    · have hsame : (a.2.instruct (mergedInstruction planning candidateMap a.2.partnerAic)).partnerAic =
          aic := haic
      rw [if_pos (by simpa using hsame), if_pos (by simpa using haic), List.map_cons, ih, haic]
    · have hsame : (a.2.instruct (mergedInstruction planning candidateMap a.2.partnerAic)).partnerAic ≠
          aic := haic
      rw [if_neg (by simpa using hsame), if_neg (by simpa using haic), ih]

theorem strip_infix_join {texts : List Text} {text : Text} (h : text ∈ texts) :
    strip text <:+: ['\n'].intercalate (dedupeTexts texts) := by
  by_cases hblank : strip text = []
  · rw [hblank]
    exact List.nil_infix
  · apply Delimited.infix_intercalate
    unfold dedupeTexts
    rw [List.mem_eraseDups, List.mem_filter]
    exact ⟨List.mem_map_of_mem h, by simpa using hblank⟩

theorem buildPartnerInstruction_eq {scenarioId : Option String} {userQuery : Text}
    {candidate : Option PartnerCandidate} {dimensions : List String}
    {selections : List PartnerSelection} (hscenario : scenarioId ≠ some "tour") :
    buildPartnerInstruction scenarioId userQuery candidate dimensions selections =
      ['\n'].intercalate (dedupeTexts (selections.map PartnerSelection.instructionText)) := by
  unfold buildPartnerInstruction
  rw [if_neg hscenario]
  dsimp only
  split
  next hnone => rw [hnone]; rfl
  next => rfl

theorem strip_infix_merged (hscenario : planning.scenarioId ≠ some "tour") {s last : PartnerSelection}
    (hs : s ∈ planning.selections aic) (hlast : last ∈ planning.selections aic) :
    strip s.instructionText <:+:
      (last.instruct (mergedInstruction planning candidateMap aic)).instructionText := by
  unfold mergedInstruction
  rw [buildPartnerInstruction_eq hscenario]
  have hjoin := strip_infix_join (List.mem_map_of_mem (f := PartnerSelection.instructionText) hs)
  split
  next hone =>
    have hsame : s = last := by
      obtain ⟨only, honly⟩ := List.length_eq_one_iff.mp
        (Nat.le_antisymm hone (List.length_pos_of_mem hs))
      rw [honly, List.mem_singleton] at hs hlast
      rw [hs, hlast]
    rw [hsame]
    exact strip_infix _
  next =>
    dsimp only
    split
    next hempty =>
      rw [hempty] at hjoin
      rw [List.infix_nil.mp hjoin]
      exact List.nil_infix
    next => exact hjoin

end Texts

section Delivery

variable {planning : PlanningResult} {aic : String} {last : PartnerSelection}

def StartedWith (starts : List StartCommand) (aic : String) (s : PartnerSelection) : Prop :=
  starts.countP (fun start => start.partnerAic = aic) = 1 ∧
    ∀ start ∈ starts, start.partnerAic = aic → start.content = s.content

theorem Direct.startedWith (e : Direct.Executor) (hend : (e.endpoint aic).isSome)
    (hlast : (planning.selections aic).getLast? = some last) :
    StartedWith (Direct.starts e planning) aic last := by
  have hget := Direct.get_buildPartnerTasks e planning aic
  rw [if_pos hend, hlast] at hget
  obtain ⟨task, htask, hselection⟩ := Option.map_eq_some_iff.mp hget
  constructor
  · unfold Direct.starts Direct.startAllPartners
    rw [List.countP_map]
    have hkey : aic ∈ (Direct.buildPartnerTasks e planning).keys :=
      Dict.mem_keys_of_mem (Dict.get_eq_some.mp htask)
    exact Dict.countP_key.trans (if_pos hkey)
  · intro start hstart haic
    obtain ⟨entry, hentry, rfl⟩ := List.mem_map.mp hstart
    obtain rfl : entry.1 = aic := haic
    rw [← hselection, Dict.value_unique (Dict.get_eq_some.mp htask) hentry]

theorem InGroup.startedWith (e : InGroup.Executor) (hinvited : e.invited aic = true)
    (hleader : aic ≠ e.leaderAic) (hlast : (planning.selections aic).getLast? = some last) :
    StartedWith (InGroup.starts e planning) aic last := by
  have hget := InGroup.get_buildPartnerTasks e planning hleader
  rw [hlast] at hget
  obtain ⟨task, htask, hselection⟩ := Option.map_eq_some_iff.mp hget
  constructor
  · unfold InGroup.starts InGroup.startAllPartners
    rw [List.countP_map, List.countP_filter]
    have hkey : aic ∈ (InGroup.buildPartnerTasks e planning).keys :=
      Dict.mem_keys_of_mem (Dict.get_eq_some.mp htask)
    refine (List.countP_congr fun entry _ => ?_).trans (Dict.countP_key.trans (if_pos hkey))
    simp only [Function.comp_apply, Bool.and_eq_true, decide_eq_true_eq, and_iff_left_iff_imp]
    rintro rfl
    exact hinvited
  · intro start hstart haic
    obtain ⟨entry, hentry, rfl⟩ := List.mem_map.mp hstart
    obtain rfl : entry.1 = aic := haic
    rw [← hselection, Dict.value_unique (Dict.get_eq_some.mp htask) (List.mem_filter.mp hentry).1]

theorem delivered_iff {candidateMap : Dict String PartnerCandidate} {starts : List StartCommand}
    (hscenario : planning.scenarioId ≠ some "tour")
    (hlast : (planning.selections aic).getLast? = some last)
    (hstarts : StartedWith starts aic
      (last.instruct (mergedInstruction planning candidateMap aic))) :
    Delivered planning starts aic ↔ DataLast planning aic := by
  obtain ⟨hone, hcontent⟩ := hstarts
  constructor
  · rintro ⟨-, hdelivered⟩ s hs data hdata hne
    have hpos : 0 < starts.countP fun start => start.partnerAic = aic := by omega
    obtain ⟨start, hstart, haic⟩ := List.countP_pos_iff.mp hpos
    have haic : start.partnerAic = aic := by simpa using haic
    have hsent := (hdelivered start hstart haic s hs).2 data hdata hne
    rw [hcontent start hstart haic] at hsent
    rw [hlast]
    exact (Option.filter_eq_some_iff.mp hsent).1
  · intro hdata
    refine ⟨hone, fun start hstart haic s hs => ?_⟩
    rw [hcontent start hstart haic]
    constructor
    · exact strip_infix_merged hscenario hs (List.mem_of_getLast? hlast)
    · intro data hsome hne
      have hlastData := hdata s hs data hsome hne
      rw [hlast] at hlastData
      exact Option.filter_eq_some_iff.mpr ⟨hlastData, by simpa using hne⟩

end Delivery

/-- Both executors start each partner that they can reach once, with everything that was planned for
it. -/
def NothingLost (planning : PlanningResult) (direct : Direct.Executor) (group : InGroup.Executor)
    (executed : PlanningResult) : Prop :=
  (∀ aic, planning.selections aic ≠ [] → (direct.endpoint aic).isSome →
    Delivered planning (Direct.starts direct executed) aic) ∧
  ∀ aic, planning.selections aic ≠ [] → group.invited aic = true → aic ≠ group.leaderAic →
    Delivered planning (InGroup.starts group executed) aic

theorem nothing_lost_iff (planning : PlanningResult) (direct : Direct.Executor)
    (group : InGroup.Executor) (candidateMap : Dict String PartnerCandidate)
    (hscenario : planning.scenarioId ≠ some "tour") :
    NothingLost planning direct group (normalizeDuplicatePartnerAssignments candidateMap planning) ↔
      ∀ aic, planning.selections aic ≠ [] →
        ((direct.endpoint aic).isSome ∨ group.invited aic = true ∧ aic ≠ group.leaderAic) →
          DataLast planning aic := by
  have hlasts : ∀ aic, planning.selections aic ≠ [] → ∃ last,
      (planning.selections aic).getLast? = some last ∧
        ((normalizeDuplicatePartnerAssignments candidateMap planning).selections aic).getLast? =
          some (last.instruct (mergedInstruction planning candidateMap aic)) := by
    intro aic hne
    obtain ⟨last, hlast⟩ := Option.ne_none_iff_exists'.mp (mt List.getLast?_eq_none_iff.mp hne)
    refine ⟨last, hlast, ?_⟩
    rw [selections_normalize, List.getLast?_map, hlast, Option.map_some]
  constructor
  · rintro ⟨hdirect, hgroup⟩ aic hne hreached
    obtain ⟨last, hlast, hnormal⟩ := hlasts aic hne
    rcases hreached with hend | ⟨hinvited, hleader⟩
    · exact (delivered_iff hscenario hlast (Direct.startedWith direct hend hnormal)).mp
        (hdirect aic hne hend)
    · exact (delivered_iff hscenario hlast
        (InGroup.startedWith group hinvited hleader hnormal)).mp (hgroup aic hne hinvited hleader)
  · intro hdata
    constructor
    · intro aic hne hend
      obtain ⟨last, hlast, hnormal⟩ := hlasts aic hne
      exact (delivered_iff hscenario hlast (Direct.startedWith direct hend hnormal)).mpr
        (hdata aic hne (.inl hend))
    · intro aic hne hinvited hleader
      obtain ⟨last, hlast, hnormal⟩ := hlasts aic hne
      exact (delivered_iff hscenario hlast
        (InGroup.startedWith group hinvited hleader hnormal)).mpr
          (hdata aic hne (.inr ⟨hinvited, hleader⟩))

namespace Sample

def direct : Direct.Executor where
  upperCase := Aic.asciiUpperCase
  acsCache _ := [⟨"https://inn".toList, "HTTP".toList⟩]
  activeTaskId := "task"

def group : InGroup.Executor where
  leaderAic := "leader"
  invited _ := true
  activeTaskId := "task"

def selection (skill text : String) (data : Option JsonObject) : PartnerSelection where
  partnerAic := "inn"
  skillId := skill
  reason := "best match"
  instructionText := text.toList
  instructionData := data

def plan (meal : Option JsonObject) : PlanningResult where
  createdAt := none
  scenarioId := some "trip"
  userQuery := none
  selectedPartners := (Dict.empty.set "hotel" [selection "book" "book a room" (some [("nights", .num 2)])]).set
    "food" [selection "dine" "reserve a table" meal]
  dimensionNotes := none

end Sample

theorem nights_lost : ¬ NothingLost (Sample.plan none) Sample.direct Sample.group
    (normalizeDuplicatePartnerAssignments Dict.empty (Sample.plan none)) := by
  rintro ⟨hdirect, -⟩
  obtain ⟨-, hdelivered⟩ := hdirect "inn" (by decide +kernel) (by decide +kernel)
  have hstart : (⟨"inn", "task:inn", ⟨"book a room\nreserve a table".toList, none⟩⟩ : StartCommand) ∈
      Direct.starts Sample.direct
        (normalizeDuplicatePartnerAssignments Dict.empty (Sample.plan none)) := by
    decide +kernel
  have hselected : Sample.selection "book" "book a room" (some [("nights", .num 2)]) ∈
      (Sample.plan none).selections "inn" := by
    decide +kernel
  have hdata := (hdelivered _ hstart rfl _ hselected).2 [("nights", .num 2)] rfl (by decide)
  cases hdata

theorem nights_delivered : NothingLost (Sample.plan (some [("nights", .num 2)])) Sample.direct
    Sample.group
      (normalizeDuplicatePartnerAssignments Dict.empty (Sample.plan (some [("nights", .num 2)]))) := by
  refine (nothing_lost_iff _ Sample.direct Sample.group Dict.empty (by decide)).mpr ?_
  intro aic hne _ s hs data hdata _
  have hall : ∀ s ∈ ((Sample.plan (some [("nights", .num 2)])).assigned.map Prod.snd),
      s.partnerAic = "inn" ∧ s.instructionData = some [("nights", .num 2)] := by
    decide +kernel
  obtain ⟨hs, haic⟩ := List.mem_filter.mp hs
  obtain rfl : aic = "inn" := by
    rw [← (hall s hs).1]
    simpa using Eq.symm (of_decide_eq_true haic)
  rw [← hdata, (hall s hs).2]
  decide +kernel

end Acps.Assistant.Planner
