import Mathlib.Data.List.MinMax
import Acps.Partner.Task

/-!
What the stages of the runner make of the answers of the language model, without the waiting
between them.
-/

namespace Acps.Partner

structure SkillMeta where
  name : Option String
  requiredSlots : List String
  requiredSlotsAnyof : List (List String)

inductive ExecutionMode where
  | singleShot
  | sequentialSkills
  | concurrentSkills
  deriving DecidableEq

structure Agent where
  agentName : String
  aic : String
  maxConcurrentTasks : ℤ
  forceAcceptDecision : Bool
  /-- The object in the answer of the language model, or why there is none. -/
  parseResponse : String → Except String Json
  /-- Why the value is no text of a data item. -/
  validationError : Json → String
  skillsConfig : List (String × SkillMeta)
  slotLabels : Option (List (String × String))
  skillPrompts : List String
  executionMode : ExecutionMode
  normalizeSlots : JsonObject → JsonObject
  normalizeSkill : String → JsonObject → String

def typeName : Json → String
  | .null => "NoneType"
  | .bool _ => "bool"
  | .num _ => "int"
  | .str _ => "str"
  | .arr _ => "list"
  | .obj _ => "dict"

def asDict : Json → Except String JsonObject
  | .obj members => .ok members
  | other => .error ("'" ++ typeName other ++ "' object has no attribute 'get'")

variable (agent : Agent)

def internalError (e : String) : String := "Internal error: " ++ e

def textDataItem : Json → Except String String
  | .str s => .ok s
  | other => .error (agent.validationError other)

structure Decision where
  decision : Option Json
  reason : Json
  deriving DecidableEq

def isReject (d : Decision) : Bool := d.decision = some (.str "reject")

def readDecision (result : JsonObject) : Decision :=
  let d : Decision :=
    { decision := result.get "decision", reason := (result.get "reason").getD (.str "") }
  if isReject d ∧ agent.forceAcceptDecision then
    { decision := some (.str "accept")
      reason := if d.reason.truthy then d.reason
        else .str "forced accept (PARTNER_FORCE_ACCEPT_DECISION)" }
  else d

def decisionOf (content : String) : Except String Decision := do
  let result ← asDict (← agent.parseResponse content)
  return readDecision agent result

def mergeSlots (base update : JsonObject) : JsonObject :=
  update.foldl (fun o m => if m.2 = .null then o else o.set m.1 m.2) base

def deepMergeRequirements (base update : JsonObject) : JsonObject :=
  update.foldl (fun o m =>
    match o.get m.1, m.2 with
    | some (.obj old), .obj new => o.set m.1 (.obj (mergeSlots old new))
    | _, value => o.set m.1 value) base

def hasSkillsConfig : Bool := agent.skillsConfig ≠ [] ∨ agent.slotLabels.isSome

def strip (s : String) : String :=
  String.ofList ((s.toList.dropWhile Aic.isSpace).reverse.dropWhile Aic.isSpace).reverse

def lastPart (skillId : String) : String :=
  String.ofList (skillId.toList.reverse.takeWhile (· ≠ '.')).reverse

def canonicalizeSkillId (skillId : String) : Option String :=
  let normalized := strip skillId
  let configured := agent.skillsConfig.map Prod.fst
  let suffix := lastPart normalized
  let preferred := agent.agentName ++ "." ++ suffix
  if normalized = "" then none
  else if normalized ∈ configured then some normalized
  else if preferred ∈ configured then some preferred
  else
    match configured.filter fun candidate =>
      ('.' :: suffix.toList).isSuffixOf candidate.toList with
    | [candidate] => some candidate
    | _ => none

def normalizeSelectedSkills (selected : Json) (slots : JsonObject) : List String :=
  match selected with
  | .arr xs => xs.foldl (fun skills x =>
      match x with
      | .str raw =>
        match canonicalizeSkillId agent raw with
        | some canonical =>
          let skill := agent.normalizeSkill canonical slots
          if skill ∈ skills then skills else skills ++ [skill]
        | none => skills
      | _ => skills) []
  | _ => []

structure Normalized where
  slots : JsonObject
  skills : List String
  requirements : JsonObject

def normalizeRequirements (requirements : JsonObject) : Normalized :=
  let raw := match requirements.get "global" with
    | some (.obj members) => members
    | _ => []
  let slots := agent.normalizeSlots raw
  let skills :=
    normalizeSelectedSkills agent ((requirements.get "selectedSkills").getD (.arr [])) slots
  { slots, skills
    requirements := (requirements.set "global" (.obj slots)).set "selectedSkills"
      (.arr (skills.map .str)) }

def slotLabel (name : String) : String := (agent.slotLabels.bind (List.lookup name)).getD name

def emptySlot (slots : JsonObject) (name : String) : Bool := ¬ (slots.get name).any Json.truthy

def validateSkillSlots (skill : SkillMeta) (slots : JsonObject) : List String :=
  let missing := skill.requiredSlots.filter (emptySlot slots)
  let groups := skill.requiredSlotsAnyof.map fun group => group.filter (emptySlot slots)
  let best := if groups.any List.isEmpty then [] else (groups.argmin List.length).getD []
  (missing ++ best).map (slotLabel agent)

def skillName (skillId : String) : String :=
  ((agent.skillsConfig.lookup skillId).bind SkillMeta.name).getD skillId

def missingPrefix : String := "缺少必填信息: "

def validationMissing (n : Normalized) : List String :=
  let skills := if n.skills = [] then (agent.skillsConfig.map Prod.fst).take 1 else n.skills
  skills.filterMap fun skillId => do
    let skill ← agent.skillsConfig.lookup skillId
    let missing := validateSkillSlots agent skill n.slots
    if missing = [] then none
    else some ("[" ++ skillName agent skillId ++ "] " ++ missingPrefix ++ ", ".intercalate missing)

def joinTexts : List Json → Except String (List String)
  | [] => .ok []
  | .str s :: rest => (joinTexts rest).map (s :: ·)
  | other :: _ => .error ("expected str instance, " ++ typeName other ++ " found")

def joinJson : Json → Except String String
  | .arr xs => (joinTexts xs).map (", ".intercalate ·)
  | .str s => .ok (", ".intercalate (s.toList.map fun c => String.ofList [c]))
  | .obj members => .ok (", ".intercalate (members.map Prod.fst))
  | _ => .error "can only join an iterable"

def missingReasons (requirements : JsonObject) (n : Normalized) : Except String (List String) := do
  let fields := (requirements.get "missingFields").getD (.arr [])
  let found := if hasSkillsConfig agent then validationMissing agent n else []
  if fields.truthy then
    return (missingPrefix ++ (← joinJson fields)) :: found
  return found

def reasonText (reasons : List String) : String :=
  "缺少必填信息：" ++ "、".intercalate
    (reasons.map fun r => ((r.replace missingPrefix "").replace "[" "").replace "]" "")

inductive Verdict where
  | awaitingInput (text : String)
  | complete

def verdict (d : Decision) (reasons : List String) : Except String Verdict :=
  if reasons ≠ [] then .ok (.awaitingInput (reasonText reasons))
  else if isReject d then
    if d.reason.truthy then (textDataItem agent d.reason).map .awaitingInput
    else .ok (.awaitingInput "缺少必填信息，请提供更多详情")
  else .ok .complete

def analyse (old : Option JsonObject) (content : String) :
    Option JsonObject × Except String Verdict :=
  match (do
    let result ← asDict (← agent.parseResponse content)
    let requirements ← asDict ((result.get "requirements").getD (.obj []))
    return (readDecision agent result, requirements)) with
  | .error e => (old, .error e)
  | .ok (d, requirements) =>
    let merged := match old.filter (· ≠ []) with
      | some base => deepMergeRequirements base requirements
      | none => requirements
    let n := normalizeRequirements agent merged
    (some n.requirements, (missingReasons agent requirements n).bind (verdict agent d))

def skillOutput (skillId response : String) : String :=
  "【" ++ skillName agent skillId ++ "】\n" ++ response

def disclaimer : String := "\n\n【免责声明】价格/库存为演示估算，实际以官方/OTA 实时为准。"

def finalOutput (outputs : List String) (timedOut : Bool) : String :=
  let outputs := outputs.filter (· ≠ "")
  let error := if timedOut then "(System Error: Skills execution timed out)" else ""
  if outputs = [] then
    if timedOut then error else "No skills executed or no output generated."
  else "\n\n——\n".intercalate outputs ++ error ++ disclaimer

end Acps.Partner
