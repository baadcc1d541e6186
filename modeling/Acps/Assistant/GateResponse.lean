import Acps.Aic.Text
import Acps.Lib.Json
import Acps.Partner.Task

/-!
The answer of the language model at the completion gate: its text is stripped down to one JSON object,
and the decisions are read from that; a text from which they cannot be read completes every partner.
-/

namespace Acps.Assistant.AipExecutor.CompletionGate

open Aic (Text isSpace)
open Partner (TaskState)

structure PartnerProductSummary where
  partnerAic : String
  aipTaskId : String
  dimensionId : String
  state : TaskState
  dataItems : List String
  products : List (List String)
  deriving DecidableEq

structure FollowupDirective where
  text : String
  data : Option JsonObject
  deriving DecidableEq

structure AwaitingCompletionDecision where
  partnerAic : String
  aipTaskId : String
  nextAction : String
  followup : Option FollowupDirective
  deriving DecidableEq

section Cleaning

def strip (text : Text) : Text :=
  ((text.dropWhile isSpace).reverse.dropWhile isSpace).reverse

def dropStart (mark text : Text) : Text :=
  if mark.isPrefixOf text then text.drop mark.length else text

def dropEnd (mark text : Text) : Text :=
  if mark.isSuffixOf text then text.take (text.length - mark.length) else text

def objectEnd : ℕ → Text → Option ℕ
  | _, [] => none
  | depth, c :: rest =>
    if c = '{' then (objectEnd (depth + 1) rest).map (· + 1)
    else if c = '}' then
      if depth = 1 then some 1 else (objectEnd (depth - 1) rest).map (· + 1)
    else (objectEnd depth rest).map (· + 1)

def cleanResponse (response : Text) : Text :=
  let cleaned := strip response
  let cleaned := dropStart "```json".toList cleaned
  let cleaned := dropStart "```".toList cleaned
  let cleaned := strip (dropEnd "```".toList cleaned)
  let cleaned := if '{' ∈ cleaned then cleaned.dropWhile (· ≠ '{') else cleaned
  if cleaned.head? = some '{' then
    match objectEnd 0 cleaned with
    | some length => cleaned.take length
    | none => cleaned
  else cleaned

end Cleaning

section Reading

def textField (o : JsonObject) (key fallback : String) : Option String :=
  match o.get key with
  | none => some fallback
  | some (.str text) => some text
  | some _ => none

def objectField (o : JsonObject) (key : String) : Option (Option JsonObject) :=
  match o.get key with
  | none | some .null => some none
  | some (.obj value) => some (some value)
  | some _ => none

def iterate : Json → Option (List Json)
  | .arr items => some items
  | .obj members => some (members.map fun member => .str member.1)
  | .str text => some (text.toList.map fun c => .str (String.singleton c))
  | .null | .bool _ | .num _ => none

def conflictReads : Json → Bool
  | .obj conflict => (textField conflict "code" "UNKNOWN").isSome &&
      (textField conflict "message" "").isSome && (objectField conflict "details").isSome
  | _ => true

def conflictsRead (decision : JsonObject) : Bool :=
  match decision.get "conflicts" with
  | some (.arr conflicts) => conflicts.all conflictReads
  | _ => true

def readFollowup (decision : JsonObject) : Option (Option FollowupDirective) :=
  match decision.get "followup" with
  | none => some none
  | some followup =>
    if followup.truthy then
      match followup with
      | .obj o => do
        let text ← textField o "text" ""
        let data ← objectField o "data"
        return some { text, data }
      | _ => none
    else some none

def readDecision : Json → Option AwaitingCompletionDecision
  | .obj o => do
    let partnerAic ← textField o "partnerAic" ""
    let aipTaskId ← textField o "aipTaskId" ""
    let nextAction ← textField o "nextAction" "complete"
    let followup ← readFollowup o
    if conflictsRead o then some { partnerAic, aipTaskId, nextAction, followup } else none
  | _ => none

def readDecisions : Json → Option (List AwaitingCompletionDecision)
  | .obj o => do
    let items ← iterate ((JsonObject.get o "decisions").getD (.arr []))
    let decisions ← items.mapM readDecision
    let _ ← textField o "decidedAt" ""
    return decisions
  | _ => none

def fallbackResult (awaiting : List PartnerProductSummary) : List AwaitingCompletionDecision :=
  awaiting.map fun summary =>
    { partnerAic := summary.partnerAic, aipTaskId := summary.aipTaskId, nextAction := "complete"
      followup := none }

def parseLlmResponse (loads : Text → Option Json) (response : Text)
    (awaiting : List PartnerProductSummary) : List AwaitingCompletionDecision :=
  match (loads (cleanResponse response)).bind readDecisions with
  | some decisions => decisions
  | none => fallbackResult awaiting

end Reading

end Acps.Assistant.AipExecutor.CompletionGate
