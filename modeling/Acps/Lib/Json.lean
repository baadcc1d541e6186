import Mathlib.Data.Int.Notation
import Mathlib.Data.List.Basic

/-!
JSON values, with objects as association lists in insertion order.
-/

namespace Acps

inductive Json where
  | null
  | bool (b : Bool)
  | num (n : ℤ)
  | str (s : String)
  | arr (xs : List Json)
  | obj (members : List (String × Json))

abbrev JsonObject := List (String × Json)

namespace Json

mutual

def decEq : (a b : Json) → Decidable (a = b)
  | .null, .null => isTrue rfl
  | .bool a, .bool b => decidable_of_iff (a = b) (by simp)
  | .num a, .num b => decidable_of_iff (a = b) (by simp)
  | .str a, .str b => decidable_of_iff (a = b) (by simp)
  | .arr xs, .arr ys => @decidable_of_iff _ (xs = ys) (by simp) (decEqList xs ys)
  | .obj xs, .obj ys => @decidable_of_iff _ (xs = ys) (by simp) (decEqMembers xs ys)
  | .null, .bool _ | .null, .num _ | .null, .str _ | .null, .arr _ | .null, .obj _
  | .bool _, .null | .bool _, .num _ | .bool _, .str _ | .bool _, .arr _ | .bool _, .obj _
  | .num _, .null | .num _, .bool _ | .num _, .str _ | .num _, .arr _ | .num _, .obj _
  | .str _, .null | .str _, .bool _ | .str _, .num _ | .str _, .arr _ | .str _, .obj _
  | .arr _, .null | .arr _, .bool _ | .arr _, .num _ | .arr _, .str _ | .arr _, .obj _
  | .obj _, .null | .obj _, .bool _ | .obj _, .num _ | .obj _, .str _ | .obj _, .arr _ =>
    isFalse (by simp)

def decEqList : (xs ys : List Json) → Decidable (xs = ys)
  | [], [] => isTrue rfl
  | [], _ :: _ => isFalse (by simp)
  | _ :: _, [] => isFalse (by simp)
  | x :: xs, y :: ys =>
    @decidable_of_iff _ (x = y ∧ xs = ys) (by simp)
      (@instDecidableAnd _ _ (decEq x y) (decEqList xs ys))

def decEqMembers : (xs ys : List (String × Json)) → Decidable (xs = ys)
  | [], [] => isTrue rfl
  | [], _ :: _ => isFalse (by simp)
  | _ :: _, [] => isFalse (by simp)
  | (j, x) :: xs, (k, y) :: ys =>
    @decidable_of_iff _ (j = k ∧ x = y ∧ xs = ys) (by simp [and_assoc])
      (@instDecidableAnd _ _ (instDecidableEqString j k)
        (@instDecidableAnd _ _ (decEq x y) (decEqMembers xs ys)))

end

instance : DecidableEq Json := decEq

def truthy : Json → Bool
  | .null => false
  | .bool b => b
  | .num n => n ≠ 0
  | .str s => s ≠ ""
  | .arr xs => ¬ xs.isEmpty
  | .obj members => ¬ members.isEmpty

end Json

namespace JsonObject

def get : JsonObject → String → Option Json
  | [], _ => none
  | (j, v) :: o, k => if j = k then some v else get o k

def set : JsonObject → String → Json → JsonObject
  | [], k, v => [(k, v)]
  | (j, w) :: o, k, v => if j = k then (k, v) :: o else (j, w) :: set o k v

@[simp] theorem get_nil (k : String) : get [] k = none := rfl

theorem get_cons (x : String × Json) (o : JsonObject) (k : String) :
    get (x :: o) k = if x.1 = k then some x.2 else get o k := rfl

theorem set_cons (x : String × Json) (o : JsonObject) (k : String) (v : Json) :
    set (x :: o) k v = if x.1 = k then (k, v) :: o else x :: set o k v := rfl

@[simp] theorem get_set_self (o : JsonObject) (k : String) (v : Json) :
    (o.set k v).get k = some v := by
  induction o with
  | nil => simp [set, get_cons]
  | cons x o ih => by_cases h : x.1 = k <;> simp [set_cons, get_cons, h, ih]

theorem get_set_ne (o : JsonObject) {j k : String} (h : j ≠ k) (v : Json) :
    (o.set k v).get j = o.get j := by
  induction o with
  | nil => simp [set, get_cons, h.symm]
  | cons x o ih =>
    by_cases hx : x.1 = k
    · simp [set_cons, get_cons, hx, h.symm]
    · rw [set_cons, if_neg hx, get_cons, get_cons, ih]

theorem set_ne_nil (o : JsonObject) (k : String) (v : Json) : o.set k v ≠ [] := by
  cases o with
  | nil => simp [set]
  | cons x o => by_cases h : x.1 = k <;> simp [set_cons, h]

end JsonObject

end Acps
