import Acps.Lib.Json
import Acps.Lib.LikePattern
import Mathlib.Data.List.Infix

/-!
The filter language of the query interfaces, and what it means for a record to satisfy a filter.
-/

namespace Acps.Monitor

inductive Comparison where
  | eq
  | ne
  | gt
  | gte
  | lt
  | lte
  deriving DecidableEq

inductive FilterOp where
  | compare (k : Comparison)
  | isIn
  | nin
  | contains
  | containsCs
  | startsWith
  | starts_with
  | between
  | present
  | isNull
  | other (name : String)
  deriving DecidableEq

structure AMPFilterCondition where
  field : String
  op : FilterOp
  value : Json
  deriving DecidableEq

inductive FilterLogic where
  | and
  | or
  | not
  deriving DecidableEq

inductive AMPFilter where
  | mk (conditions : List AMPFilterCondition) (groups : List AMPFilter) (logic : FilterLogic)

namespace AMPFilter

def conditions : AMPFilter → List AMPFilterCondition
  | mk conditions _ _ => conditions

def groups : AMPFilter → List AMPFilter
  | mk _ groups _ => groups

def logic : AMPFilter → FilterLogic
  | mk _ _ logic => logic

end AMPFilter

def FilterLogic.combine (logic : FilterLogic) (parts : List Bool) : Bool :=
  match parts, logic with
  | [], _ => true
  | p :: ps, .and => (p :: ps).all id
  | p :: ps, .or => (p :: ps).any id
  | p :: ps, .not => ! (p :: ps).all id

mutual

def AMPFilter.sat (holds : AMPFilterCondition → Bool) : AMPFilter → Bool
  | .mk conditions groups logic => logic.combine (conditions.map holds ++ satGroups holds groups)

def satGroups (holds : AMPFilterCondition → Bool) : List AMPFilter → List Bool
  | [] => []
  | f :: fs => f.sat holds :: satGroups holds fs

end

theorem AMPFilter.sat_eq (holds : AMPFilterCondition → Bool) (f : AMPFilter) :
    f.sat holds = f.logic.combine (f.conditions.map holds ++ satGroups holds f.groups) := by
  cases f
  rw [AMPFilter.sat]
  rfl

theorem combine_and (parts : List Bool) : FilterLogic.and.combine parts = parts.all id := by
  cases parts <;> rfl

theorem combine_of_ne_nil_or {parts : List Bool} (h : parts ≠ []) :
    FilterLogic.or.combine parts = parts.any id := by
  cases parts with
  | nil => exact absurd rfl h
  | cons => rfl

theorem combine_of_ne_nil_not {parts : List Bool} (h : parts ≠ []) :
    FilterLogic.not.combine parts = ! parts.all id := by
  cases parts with
  | nil => exact absurd rfl h
  | cons => rfl

inductive Cell where
  | null
  | text (s : String)
  | num (n : ℤ)
  | flag (b : Bool)
  | texts (xs : List String)
  deriving DecidableEq

structure Store where
  bind : String → Json → Option Cell
  textEq : String → String → Bool
  textLt : String → String → Bool
  fold : Char → Char
  str : Json → String
  bind_text : ∀ value, bind "text" value =
    match value with
    | .str s => some (.text s)
    | _ => none
  str_text : ∀ s, str (.str s) = s
  fold_fold : ∀ c, fold (fold c) = fold c
  fold_special : ∀ c, ∀ k ∈ LikePattern.specials, fold c = k ↔ c = k

namespace Store

variable (σ : Store)

def same : Cell → Cell → Bool
  | .text s, .text t => σ.textEq s t
  | .num m, .num n => m = n
  | .flag a, .flag b => a = b
  | .texts xs, .text t => xs.any (σ.textEq · t)
  | _, _ => false

def less : Cell → Cell → Bool
  | .text s, .text t => σ.textLt s t
  | .num m, .num n => m < n
  | .flag a, .flag b => ! a && b
  | _, _ => false

def folded (s : String) : List Char := s.toList.map σ.fold

def containsFolded : Cell → Cell → Bool
  | .text s, .text t => σ.folded t <:+: σ.folded s
  | _, _ => false

def containsExactly : Cell → Cell → Bool
  | .text s, .text t => t.toList <:+: s.toList
  | _, _ => false

def startsWithExactly : Cell → Cell → Bool
  | .text s, .text t => t.toList <+: s.toList
  | _, _ => false

def startsWithFolded : Cell → Cell → Bool
  | .text s, .text t => σ.folded t <+: σ.folded s
  | _, _ => false

end Store

def Comparison.test (σ : Store) (cell v : Cell) : Comparison → Bool
  | .eq => σ.same cell v
  | .ne => cell ≠ .null ∧ ! σ.same cell v
  | .gt => σ.less v cell
  | .gte => σ.less v cell || σ.same cell v
  | .lt => σ.less cell v
  | .lte => σ.less cell v || σ.same cell v

def Cell.Present (cell : Cell) : Prop := cell ≠ .null ∧ cell ≠ .text ""

instance (cell : Cell) : Decidable cell.Present :=
  inferInstanceAs (Decidable (cell ≠ .null ∧ cell ≠ .text ""))

def FilterOp.relates (σ : Store) (type : String) (cell : Cell) (value : Json) : FilterOp → Bool
  | .compare k => (σ.bind type value).any fun v => k.test σ cell v
  | .isIn =>
    match value with
    | .arr vs => vs.any fun v => (σ.bind type v).any (σ.same cell)
    | _ => false
  | .nin =>
    match value with
    | .arr vs => cell ≠ .null ∧ vs.all fun v => ! (σ.bind type v).any (σ.same cell)
    | _ => false
  | .contains => (σ.bind type value).any (σ.containsFolded cell)
  | .containsCs => (σ.bind type value).any (Store.containsExactly cell)
  | .startsWith | .starts_with => (σ.bind type value).any (σ.startsWithFolded cell)
  | .between =>
    match value with
    | .arr [lo, hi] =>
      (σ.bind type lo).any (fun v => Comparison.gte.test σ cell v) &&
        (σ.bind type hi).any fun v => Comparison.lte.test σ cell v
    | _ => false
  | .present => decide cell.Present = value.truthy
  | .isNull => decide (cell = .null) = value.truthy
  | .other _ => false

structure Column where
  name : String
  type : String
  deriving DecidableEq

abbrev Row := String → Cell

def AMPFilterCondition.holds (σ : Store) (columnOf : String → Option Column) (row : Row)
    (c : AMPFilterCondition) : Bool :=
  (columnOf c.field).any fun column => c.op.relates σ column.type (row column.name) c.value

end Acps.Monitor
