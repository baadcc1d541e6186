import Acps.Lib.Dict
import Acps.Lib.PyValue

/-!
The fields that partners wait for: how the question to the user and the routing of the answer merge what
several partners ask under one name.
-/

namespace Acps.Assistant

structure RequiredField (ν : Type) where
  fieldName : String
  fieldLabel : String
  fieldType : String
  description : Option String
  required : Bool
  constraints : Option (Dict String (PyValue ν))
  exampleText : Option String

structure PartnerClarificationItem (ν : Type) where
  partnerAic : String
  dimensionId : String
  aipTaskId : String
  questionText : Option String
  requiredFields : List (RequiredField ν)

structure PartnerGapInfo (ν : Type) where
  partnerAic : String
  aipTaskId : String
  awaitingFields : List (RequiredField ν)

structure FieldEntry (ν : Type) where
  field : RequiredField ν
  partners : List String

namespace RequiredField

def lowerKeys : List String := ["min", "minValue"]

def upperKeys : List String := ["max", "maxValue"]

def choiceKeys : List String := ["enum", "enum_values", "options"]

variable {ν : Type} [LinearOrder ν] [Zero ν] [One ν] (sets : PyValue.Intersection ν)

def mergeKey (key : String) (old value : PyValue ν) : Option (PyValue ν) :=
  if key ∈ lowerKeys then old.max value
  else if key ∈ upperKeys then old.min value
  else if key ∈ choiceKeys then PyValue.intersect sets old value
  else some old

def mergeItem (old : Option (PyValue ν)) (item : String × PyValue ν) : Option (PyValue ν) :=
  match old with
  | some old => mergeKey sets item.1 old item.2
  | none => some item.2

def mergeConstraints (a b : Dict String (PyValue ν)) : Option (Dict String (PyValue ν)) :=
  b.entries.foldlM (Dict.update (mergeItem sets) Prod.fst) a

def given (field : RequiredField ν) : Option (Dict String (PyValue ν)) :=
  field.constraints.filter fun constraints => constraints.entries ≠ []

end RequiredField

section Mapping

variable {ν : Type}

def notePartner (partners : List String) (partnerAic : String) : List String :=
  if partnerAic ∈ partners then partners else partners ++ [partnerAic]

variable (merge : RequiredField ν → RequiredField ν → Option (RequiredField ν))

def addField (partnerAic : String) (map : Dict String (FieldEntry ν)) (field : RequiredField ν) :
    Option (Dict String (FieldEntry ν)) :=
  match map.get field.fieldName with
  | none => some (map.set field.fieldName ⟨field, [partnerAic]⟩)
  | some existing => do
    let merged ← merge existing.field field
    return map.set field.fieldName ⟨merged, notePartner existing.partners partnerAic⟩

def addFields (partnerAic : String) (fields : List (RequiredField ν))
    (map : Dict String (FieldEntry ν)) : Option (Dict String (FieldEntry ν)) :=
  fields.foldlM (addField merge partnerAic) map

end Mapping

variable {ν : Type} [LinearOrder ν] [Zero ν] [One ν] (sets : PyValue.Intersection ν)

namespace InputRouter

open RequiredField

def mergeFieldConstraints (a b : RequiredField ν) : Option (RequiredField ν) :=
  let merged := { a with required := a.required || b.required }
  match a.given, b.given with
  | some old, some constraints => do
    let mergedConstraints ← mergeConstraints sets old constraints
    return { merged with constraints := some mergedConstraints }
  | none, some constraints => some { merged with constraints := some constraints }
  | _, none => some merged

def buildFieldMapping (partnerGaps : List (PartnerGapInfo ν)) :
    Option (Dict String (FieldEntry ν)) :=
  partnerGaps.foldlM (fun map gap =>
    addFields (mergeFieldConstraints sets) gap.partnerAic gap.awaitingFields map) .empty

end InputRouter

namespace ClarificationMerger

def mergeDescription (a b : Option String) : Option String :=
  if b.any (· ≠ "") ∧ (¬ a.any (· ≠ "") ∨ (a.getD "").length < (b.getD "").length) then b else a

def mergeFieldConstraints (a b : RequiredField ν) : Option (RequiredField ν) := do
  let merged ← InputRouter.mergeFieldConstraints sets a b
  return { merged with description := mergeDescription a.description b.description }

def genericFieldName (item : PartnerClarificationItem ν) : String := "answer_" ++ item.dimensionId

def genericField (item : PartnerClarificationItem ν) (questionText : String) : RequiredField ν where
  fieldName := genericFieldName item
  fieldLabel := item.dimensionId ++ " 相关信息"
  fieldType := "string"
  description := some questionText
  required := true
  constraints := none
  exampleText := none

def asksByText (item : PartnerClarificationItem ν) : Bool :=
  item.requiredFields.isEmpty && item.questionText.any (· ≠ "")

def addAnswer (item : PartnerClarificationItem ν) (map : Dict String (FieldEntry ν)) :
    Dict String (FieldEntry ν) :=
  match map.get (genericFieldName item) with
  | none => map.set (genericFieldName item)
      ⟨genericField item (item.questionText.getD ""), [item.partnerAic]⟩
  | some existing => map.set (genericFieldName item)
      { existing with partners := notePartner existing.partners item.partnerAic }

def addItem (map : Dict String (FieldEntry ν)) (item : PartnerClarificationItem ν) :
    Option (Dict String (FieldEntry ν)) := do
  let map ← addFields (mergeFieldConstraints sets) item.partnerAic item.requiredFields map
  return if asksByText item then addAnswer item map else map

def mergeFields (partnerItems : List (PartnerClarificationItem ν)) :
    Option (Dict String (FieldEntry ν)) :=
  partnerItems.foldlM (addItem sets) .empty

end ClarificationMerger

end Acps.Assistant
