import Mathlib.Data.List.Infix
import Mathlib.Data.List.Dedup
import Acps.Lib.Dict
import Acps.Group.Session
import Acps.Assistant.GateResponse

/-!
The planner of the leader, after the language model has answered: what it makes of the partners that
were selected for each dimension before the plan is executed.
-/

namespace Acps.Assistant.Planner

open Aic (Text)
open AipExecutor.CompletionGate (strip)

structure PartnerSkillInfo where
  id : String
  name : String
  deriving DecidableEq

structure PartnerCandidate where
  partnerAic : String
  partnerName : String
  skills : List PartnerSkillInfo
  deriving DecidableEq

structure DimensionDef where
  id : String
  name : String
  deriving DecidableEq

structure PartnerSelection where
  partnerAic : String
  skillId : String
  skillIds : Option (List String) := none
  skillName : Option String := none
  reason : String
  instructionText : Text
  instructionData : Option JsonObject := none
  acsData : Option JsonObject := none
  deriving DecidableEq

inductive DimensionStatus where
  | active
  | inactive
  | fallback
  deriving DecidableEq

structure DimensionNote where
  status : DimensionStatus
  reason : String
  deriving DecidableEq

structure PlanningResult where
  createdAt : Option String
  scenarioId : Option String
  userQuery : Option Text
  selectedPartners : Dict String (List PartnerSelection)
  dimensionNotes : Option (Dict String DimensionNote)

structure SetOrder where
  iterate : List String → List String
  mem_iterate : ∀ {xs x}, x ∈ iterate xs ↔ x ∈ xs

abbrev DimensionPartnerMap := Dict String (List PartnerCandidate)

def DimensionPartnerMap.candidates (partners : DimensionPartnerMap) (dimId : String) :
    List PartnerCandidate := (partners.get dimId).getD []

namespace PlanningResult

def notes (result : PlanningResult) : Dict String DimensionNote :=
  result.dimensionNotes.getD Dict.empty

def assigned (result : PlanningResult) : List (String × PartnerSelection) :=
  result.selectedPartners.entries.flatMap fun e => e.2.map (e.1, ·)

def selections (result : PlanningResult) (aic : String) : List PartnerSelection :=
  (result.assigned.map Prod.snd).filter fun s => s.partnerAic = aic

def dimensionsOf (result : PlanningResult) (aic : String) : List String :=
  ((result.assigned.filter fun a => a.2.partnerAic = aic).map Prod.fst).eraseDups

end PlanningResult

section Instructions

def dedupeTexts (texts : List Text) : List Text :=
  ((texts.map strip).filter (· ≠ [])).eraseDups

def clauseMarks : Text := "\n。！？!?,，；;".toList

def conjunctions : List Text :=
  ["并且", "并", "以及", "同时", "另外", "再", "也想", "还想"].map String.toList

def subConjunctions : ℕ → Text → Text
  | _, [] => []
  | n + 1, _ :: rest => subConjunctions n rest
  | 0, c :: rest =>
    match conjunctions.find? (·.isPrefixOf (c :: rest)) with
    | some word => '；' :: subConjunctions (word.length - 1) rest
    | none => c :: subConjunctions 0 rest

def splitInstructionFragments (texts : List Text) : List Text :=
  dedupeTexts (texts.flatMap fun text =>
    let marked := text.map fun c => if c ∈ clauseMarks then '；' else c
    ((((subConjunctions 0 marked).splitOn '；').map (Group.stripChars (· ∈ " ，,；。".toList))).filter
      (· ≠ [])))

inductive Region where
  | urban
  | rural
  deriving DecidableEq

def Region.keywords : Region → List Text
  | .urban => ["故宫", "王府井", "天安门", "景山", "天坛", "颐和园", "胡同", "城区", "东城", "西城", "朝阳", "海淀", "丰台",
      "石景山"].map String.toList
  | .rural => ["八达岭", "长城", "延庆", "怀柔", "密云", "昌平", "门头沟", "房山", "大兴", "顺义", "平谷", "通州",
      "郊区"].map String.toList

def fragmentMatchesRegion (fragment : Text) (region : Region) : Bool :=
  region.keywords.any fun keyword => keyword <:+: fragment

def Region.tasks (attraction localTransport : Bool) : Region → List Text
  | .urban =>
    (if attraction then ["给出北京城六区内景点的游览顺序、停留重点和体验建议".toList] else []) ++
    (if localTransport then ["补充这些城区景点之间的步行、地铁或打车等轻量交通衔接建议".toList] else [])
  | .rural =>
    (if attraction then ["给出北京郊区景点的游览安排、顺序和注意事项".toList] else []) ++
    (if localTransport then
      ["可补充景区内或景区周边的轻量交通衔接提示，但不要提供城区到景区的通勤方案".toList] else [])

def Region.instruction (focusText : Text) (tasks : List Text) : Region → Text
  | .urban =>
    let taskText := if tasks = [] then "提供北京城六区内的游览建议".toList
      else ['；'].intercalate tasks
    "请围绕北京城六区行程提供建议：".toList ++ focusText ++ "。重点任务：".toList ++ taskText ++
      "。仅处理故宫、王府井、天安门等城六区范围内容，忽略郊区景点、跨城交通、餐饮和酒店部分。".toList
  | .rural =>
    let taskText := if tasks = [] then "提供北京郊区景点游览建议".toList
      else ['；'].intercalate tasks
    "请围绕北京郊区行程提供建议：".toList ++ focusText ++ "。重点任务：".toList ++ taskText ++
      "。仅处理八达岭长城、延庆、怀柔等郊区范围内容，忽略城六区景点、跨城交通、餐饮和酒店部分。".toList

def buildTourGeoInstruction (region : Region) (userQuery : Text) (dimensions : List String)
    (texts : List Text) : Text :=
  let fragments := splitInstructionFragments texts
  let filtered := fragments.filter (fragmentMatchesRegion · region)
  let filtered := if filtered ≠ [] then filtered
    else if fragments ≠ [] then fragments else splitInstructionFragments [userQuery]
  let tasks := region.tasks (dimensions.contains "attraction") (dimensions.contains "local_transport")
  region.instruction (['；'].intercalate filtered) tasks

def buildPartnerInstruction (scenarioId : Option String) (userQuery : Text)
    (candidate : Option PartnerCandidate) (dimensions : List String)
    (selections : List PartnerSelection) : Text :=
  let texts := dedupeTexts (selections.map PartnerSelection.instructionText)
  if texts = [] then []
  else
    match (if scenarioId = some "tour" then candidate else none).map PartnerCandidate.partnerName with
    | some "北京城区旅游智能体" => buildTourGeoInstruction .urban userQuery dimensions texts
    | some "北京郊区旅游智能体" => buildTourGeoInstruction .rural userQuery dimensions texts
    | _ => ['\n'].intercalate texts

end Instructions

section Normalizing

def coverDimension (result : PlanningResult) (dimId : String) : PlanningResult :=
  if dimId ∈ result.selectedPartners.keys then result
  else { result with
    selectedPartners := result.selectedPartners.set dimId []
    dimensionNotes := some (result.notes.set dimId ⟨.inactive, "LLM-2 未返回该维度的规划"⟩) }

def getCandidateAcsData (acsCache : List JsonObject) (candidate : PartnerCandidate) :
    Option JsonObject :=
  acsCache.find? fun acsData => JsonObject.get acsData "aic" = some (.str candidate.partnerAic)

def fallbackSelection (acsCache : List JsonObject) (userQuery : Option Text) (dim : DimensionDef)
    (candidate : PartnerCandidate) (skill : PartnerSkillInfo) : PartnerSelection where
  partnerAic := candidate.partnerAic
  skillId := skill.id
  skillName := some skill.name
  reason := "LLM-2 未返回可执行规划，系统回退到默认候选"
  instructionText := "请聚焦处理“".toList ++ dim.name.toList ++
    "”相关需求，并基于用户原始请求给出专业建议：".toList ++ userQuery.getD []
  acsData := getCandidateAcsData acsCache candidate

def primary (partners : DimensionPartnerMap) (dimId : String) :
    Option (PartnerCandidate × PartnerSkillInfo) := do
  let candidate ← (partners.candidates dimId).head?
  let skill ← candidate.skills.head?
  return (candidate, skill)

def fallbackDimension (acsCache : List JsonObject) (partners : DimensionPartnerMap)
    (result : PlanningResult) (dim : DimensionDef) : PlanningResult :=
  match primary partners dim.id with
  | none => result
  | some (candidate, skill) => { result with
      selectedPartners := result.selectedPartners.set dim.id
        [fallbackSelection acsCache result.userQuery dim candidate skill]
      dimensionNotes :=
        some (result.notes.set dim.id ⟨.active, "LLM-2 未返回可执行规划，系统已自动选择默认候选"⟩) }

def applyEmptySelectionFallback (acsCache : List JsonObject) (dimensions : List DimensionDef)
    (partners : DimensionPartnerMap) (result : PlanningResult) : PlanningResult :=
  dimensions.foldl (fallbackDimension acsCache partners)
    { result with dimensionNotes := some result.notes }

def buildPartnerCandidateMap (partners : DimensionPartnerMap) : Dict String PartnerCandidate :=
  (partners.entries.flatMap Prod.snd).foldl
    (fun candidateMap candidate => candidateMap.setDefault candidate.partnerAic candidate) Dict.empty

def mergedInstruction (result : PlanningResult) (candidateMap : Dict String PartnerCandidate)
    (aic : String) : Option Text :=
  if (result.selections aic).length ≤ 1 then none
  else
    let merged := buildPartnerInstruction result.scenarioId (result.userQuery.getD [])
      (candidateMap.get aic) (result.dimensionsOf aic) (result.selections aic)
    if merged = [] then none else some merged

def PartnerSelection.instruct (s : PartnerSelection) (text : Option Text) : PartnerSelection :=
  { s with instructionText := text.getD s.instructionText }

def normalizeDuplicatePartnerAssignments (candidateMap : Dict String PartnerCandidate)
    (result : PlanningResult) : PlanningResult :=
  -- a selection changes on behalf of its own partner only
  { result with selectedPartners := result.selectedPartners.map fun _ selections =>
      selections.map fun s => s.instruct (mergedInstruction result candidateMap s.partnerAic) }

def selectionCount (result : PlanningResult) : ℕ :=
  (result.selectedPartners.entries.map fun e => e.2.length).sum

def validateAndNormalize (order : SetOrder) (acsCache : List JsonObject) (nowIso : String)
    (result : PlanningResult) (dimensions : List DimensionDef) (partners : DimensionPartnerMap) :
    PlanningResult :=
  let dimIds := order.iterate (dimensions.map DimensionDef.id)
  let result := dimIds.foldl coverDimension result
  let result := if selectionCount result = 0 then
    applyEmptySelectionFallback acsCache dimensions partners result else result
  let result := normalizeDuplicatePartnerAssignments (buildPartnerCandidateMap partners) result
  { result with createdAt := if result.createdAt.any (· ≠ "") then result.createdAt else some nowIso }

end Normalizing

variable {result : PlanningResult} {candidateMap : Dict String PartnerCandidate}

namespace PlanningResult

theorem mem_assigned {a : String × PartnerSelection} :
    a ∈ result.assigned ↔ ∃ selections, (a.1, selections) ∈ result.selectedPartners.entries ∧
      a.2 ∈ selections := by
  obtain ⟨dimId, s⟩ := a
  simp only [assigned, List.mem_flatMap, List.mem_map, Prod.mk.injEq, Prod.exists]
  constructor
  · rintro ⟨_, selections, he, _, hs, rfl, rfl⟩
    exact ⟨selections, he, hs⟩
  · rintro ⟨selections, he, hs⟩
    exact ⟨dimId, selections, he, s, hs, rfl, rfl⟩

theorem selectionCount_eq : selectionCount result = result.assigned.length := by
  unfold selectionCount assigned
  rw [List.length_flatMap]
  simp only [List.length_map]

end PlanningResult

theorem assigned_normalize :
    (normalizeDuplicatePartnerAssignments candidateMap result).assigned =
      result.assigned.map fun a =>
        (a.1, a.2.instruct (mergedInstruction result candidateMap a.2.partnerAic)) := by
  unfold PlanningResult.assigned
  change ((result.selectedPartners.map _).entries.flatMap _) = _
  unfold Dict.map
  rw [List.flatMap_map, List.map_flatMap]
  simp only [List.map_map]
  rfl

end Acps.Assistant.Planner
