import Acps.Monitor.Filter

/-!
The conditions that the query builders write, and what a database makes of them.
-/

namespace Acps.Monitor

inductive Fragment where
  | compare (k : Comparison) (c : Column) (value : Json)
  | oneOf (c : Column) (values : List Json)
  | noneOf (c : Column) (values : List Json)
  | position (c : Column) (value : Json)
  | positionCaseInsensitive (c : Column) (value : Json)
  | startsWith (c : Column) (value : Json)
  | startsWithLower (c : Column) (value : Json)
  | between (c : Column) (lo hi : Json)
  | notEmpty (c : Column)
  | isNull (c : Column)
  | isNotNull (c : Column)
  | ilike (c : Column) (pattern : List Char)
  | has (c : Column) (value : Json)
  | textIs (c : Column) (s : String)
  | textIsNot (c : Column) (s : String)

def isTextType (type : String) : Prop := type = "String" ∨ type = "text"

instance (type : String) : Decidable (isTextType type) :=
  inferInstanceAs (Decidable (type = "String" ∨ type = "text"))

namespace Fragment

variable (σ : Store)

def eval (row : Row) : Fragment → Bool
  | compare k c value => (σ.bind c.type value).any fun v => k.test σ (row c.name) v
  | oneOf c values => values.any fun v => (σ.bind c.type v).any (σ.same (row c.name))
  | noneOf c values =>
    row c.name ≠ .null ∧ values.all fun v => ! (σ.bind c.type v).any (σ.same (row c.name))
  | position c value => (σ.bind c.type value).any (Store.containsExactly (row c.name))
  | positionCaseInsensitive c value => (σ.bind c.type value).any (σ.containsFolded (row c.name))
  | startsWith c value => (σ.bind c.type value).any (Store.startsWithExactly (row c.name))
  | startsWithLower c value => (σ.bind c.type value).any (σ.startsWithFolded (row c.name))
  | between c lo hi =>
    (σ.bind c.type lo).any (fun v => Comparison.gte.test σ (row c.name) v) &&
      (σ.bind c.type hi).any fun v => Comparison.lte.test σ (row c.name) v
  | notEmpty c => (row c.name).Present
  | isNull c => row c.name = .null
  | isNotNull c => row c.name ≠ .null
  | ilike c pattern =>
    match row c.name with
    | .text s => LikePattern.like (pattern.map σ.fold) (σ.folded s)
    | _ => false
  | has c value => (σ.bind "String" value).any (σ.same (row c.name))
  | textIs c s => row c.name = .text s
  | textIsNot c s => row c.name ≠ .null ∧ row c.name ≠ .text s

def accepts : Fragment → Bool
  | compare _ c value => (σ.bind c.type value).isSome
  | oneOf c values | noneOf c values => values.all fun v => (σ.bind c.type v).isSome
  | position c value | positionCaseInsensitive c value | startsWith c value
  | startsWithLower c value => isTextType c.type ∧ (σ.bind c.type value).isSome
  | between c lo hi => (σ.bind c.type lo).isSome ∧ (σ.bind c.type hi).isSome
  | notEmpty c | ilike c _ => isTextType c.type
  | isNull _ | isNotNull _ | textIs _ _ | textIsNot _ _ => true
  | has _ value => (σ.bind "String" value).isSome

def column : Fragment → Column
  | compare _ c _ | oneOf c _ | noneOf c _ | position c _ | positionCaseInsensitive c _
  | startsWith c _ | startsWithLower c _ | between c _ _ | notEmpty c | isNull c | isNotNull c
  | ilike c _ | has c _ | textIs c _ | textIsNot c _ => c

def Means (fragment : Fragment) (meets : Row → Bool) : Prop :=
  ∀ row, fragment.eval σ row = meets row

end Fragment

inductive FilterError where
  | invalidFilter
  | unsupportedField (field : String)
  | unsupportedOperator (op : FilterOp)
  deriving DecidableEq

structure FieldSpec where
  column : String
  chType : String
  apis : List String
  deriving DecidableEq

def FieldSpec.asColumn (spec : FieldSpec) : Column := { name := spec.column, type := spec.chType }

abbrev Fields := List (String × FieldSpec)

def fieldOf (api : String) (fields : Fields) (field : String) : Option FieldSpec :=
  (fields.lookup field).filter fun spec => api ∈ spec.apis

theorem mem_of_lookup {β : Type} {fields : List (String × β)} {field : String} {b : β}
    (h : fields.lookup field = some b) : (field, b) ∈ fields := by
  obtain ⟨before, after, rfl, _⟩ := List.lookup_eq_some_iff.mp h
  exact List.mem_append_right before List.mem_cons_self

theorem mem_of_fieldOf {api : String} {fields : Fields} {field : String} {spec : FieldSpec}
    (h : fieldOf api fields field = some spec) : (field, spec) ∈ fields :=
  mem_of_lookup (Option.eq_some_of_filter_eq_some h)

def requireField (api : String) (fields : Fields) (field : String) : Except FilterError FieldSpec :=
  match fieldOf api fields field with
  | none => .error (.unsupportedField field)
  | some spec => .ok spec

theorem requireField_eq_ok {api : String} {fields : Fields} {field : String} {spec : FieldSpec} :
    requireField api fields field = .ok spec ↔ fieldOf api fields field = some spec := by
  unfold requireField
  cases fieldOf api fields field <;> simp

end Acps.Monitor
