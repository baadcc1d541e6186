import Mathlib.Data.List.Basic
import Mathlib.Order.Lattice

/-!
The built-in values of Python that a JSON text is read into: their equality, their order where they have
one, and what a loop or a set takes from them.
-/

namespace Acps

inductive PyValue (ν : Type) where
  | null
  | bool (b : Bool)
  | num (n : ν)
  | str (s : String)
  | list (items : List (PyValue ν))
  | dict (members : List (String × PyValue ν))

namespace PyValue

theorem induct {ν : Type} {P : PyValue ν → Prop} (null : P .null) (bool : ∀ b, P (.bool b))
    (num : ∀ n, P (.num n)) (str : ∀ s, P (.str s))
    (list : ∀ items, (∀ v ∈ items, P v) → P (.list items))
    (dict : ∀ members : List (String × PyValue ν), (∀ m ∈ members, P m.2) → P (.dict members))
    (v : PyValue ν) : P v := by
  apply @PyValue.rec ν P (fun items => ∀ v ∈ items, P v) (fun members => ∀ m ∈ members, P m.2)
    (fun m => P m.2) null bool num str list dict
  · intro v hv
    cases hv
  · intro v items hhead htail w hw
    rcases List.mem_cons.mp hw with rfl | hw
    · exact hhead
    · exact htail w hw
  · intro m hm
    cases hm
  · intro m members hhead htail w hw
    rcases List.mem_cons.mp hw with rfl | hw
    · exact hhead
    · exact htail w hw
  · intro key v hv
    exact hv

section Equality

variable {ν : Type} [DecidableEq ν]

mutual

def decEq : (a b : PyValue ν) → Decidable (a = b)
  | .null, .null => isTrue rfl
  | .bool a, .bool b => decidable_of_iff (a = b) (by simp)
  | .num a, .num b => decidable_of_iff (a = b) (by simp)
  | .str a, .str b => decidable_of_iff (a = b) (by simp)
  | .list xs, .list ys => @decidable_of_iff _ (xs = ys) (by simp) (decEqItems xs ys)
  | .dict xs, .dict ys => @decidable_of_iff _ (xs = ys) (by simp) (decEqMembers xs ys)
  | .null, .bool _ | .null, .num _ | .null, .str _ | .null, .list _ | .null, .dict _
  | .bool _, .null | .bool _, .num _ | .bool _, .str _ | .bool _, .list _ | .bool _, .dict _
  | .num _, .null | .num _, .bool _ | .num _, .str _ | .num _, .list _ | .num _, .dict _
  | .str _, .null | .str _, .bool _ | .str _, .num _ | .str _, .list _ | .str _, .dict _
  | .list _, .null | .list _, .bool _ | .list _, .num _ | .list _, .str _ | .list _, .dict _
  | .dict _, .null | .dict _, .bool _ | .dict _, .num _ | .dict _, .str _ | .dict _, .list _ =>
    isFalse (by simp)

def decEqItems : (xs ys : List (PyValue ν)) → Decidable (xs = ys)
  | [], [] => isTrue rfl
  | [], _ :: _ => isFalse (by simp)
  | _ :: _, [] => isFalse (by simp)
  | x :: xs, y :: ys =>
    @decidable_of_iff _ (x = y ∧ xs = ys) (by simp)
      (@instDecidableAnd _ _ (decEq x y) (decEqItems xs ys))

def decEqMembers : (xs ys : List (String × PyValue ν)) → Decidable (xs = ys)
  | [], [] => isTrue rfl
  | [], _ :: _ => isFalse (by simp)
  | _ :: _, [] => isFalse (by simp)
  | (j, x) :: xs, (k, y) :: ys =>
    @decidable_of_iff _ (j = k ∧ x = y ∧ xs = ys) (by simp [and_assoc])
      (@instDecidableAnd _ _ (instDecidableEqString j k)
        (@instDecidableAnd _ _ (decEq x y) (decEqMembers xs ys)))

end

instance : DecidableEq (PyValue ν) := decEq

end Equality

def elements {ν : Type} : PyValue ν → Option (List (PyValue ν))
  | .list items => some items
  | .str s => some (s.toList.map fun c => .str (String.singleton c))
  | .dict members => some (members.map fun m => .str m.1)
  | .null | .bool _ | .num _ => none

def hashable {ν : Type} : PyValue ν → Bool
  | .null | .bool _ | .num _ | .str _ => true
  | .list _ | .dict _ => false

def collect {ν : Type} (v : PyValue ν) : Option (List (PyValue ν)) :=
  v.elements.bind fun items => if items.all hashable then some items else none

theorem collect_eq_some {ν : Type} {a : PyValue ν} {xs : List (PyValue ν)} :
    collect a = some xs ↔ a.elements = some xs ∧ xs.all hashable = true := by
  unfold collect
  rw [Option.bind_eq_some_iff]
  constructor
  · rintro ⟨ys, hys, h⟩
    split at h
    next hall =>
      cases h
      exact ⟨hys, hall⟩
    next => cases h
  · rintro ⟨hxs, hall⟩
    exact ⟨xs, hxs, if_pos hall⟩

section NormalForms

variable {ν : Type} [LinearOrder ν]

mutual

def cmp : PyValue ν → PyValue ν → Option Ordering
  | .num a, .num b => some (compare a b)
  | .str a, .str b => some (String.compare a b)
  | .list xs, .list ys => cmpItems xs ys
  | _, _ => none

def cmpItems : List (PyValue ν) → List (PyValue ν) → Option Ordering
  | [], [] => some .eq
  | [], _ :: _ => some .lt
  | _ :: _, [] => some .gt
  | x :: xs, y :: ys => if x = y then cmpItems xs ys else cmp x y

end

theorem compareString_swap {s t : String} : String.compare t s = (String.compare s t).swap :=
  String.instTransOrd.eq_swap

theorem eq_of_compareString {s t : String} (h : String.compare s t = .eq) : s = t :=
  String.instLawfulEqOrd.eq_of_compare h

theorem compareString_trans {r s t : String} (h : (String.compare r s).isLE = true)
    (h' : (String.compare s t).isLE = true) : (String.compare r t).isLE = true :=
  String.instTransOrd.isLE_trans h h'

theorem isLE_compare_trans {l m n : ν} (h : (compare l m).isLE = true)
    (h' : (compare m n).isLE = true) : (compare l n).isLE = true := by
  rw [Ordering.isLE_iff_ne_gt] at h h' ⊢
  exact compare_le_iff_le.mpr ((compare_le_iff_le.mp h).trans (compare_le_iff_le.mp h'))

variable {a b c x : PyValue ν} {xs ys : List (PyValue ν)}

theorem cmpItems_swap (h : ∀ x ∈ xs, ∀ y, cmp y x = (cmp x y).map Ordering.swap)
    (ys : List (PyValue ν)) : cmpItems ys xs = (cmpItems xs ys).map Ordering.swap := by
  induction xs generalizing ys with
  | nil => cases ys <;> rfl
  | cons x xs ih =>
    cases ys with
    | nil => rfl
    | cons y ys =>
      rw [cmpItems, cmpItems]
      by_cases heq : x = y
      · rw [if_pos heq, if_pos heq.symm]
        exact ih (fun z hz => h z (List.mem_cons_of_mem _ hz)) ys
      · rw [if_neg heq, if_neg (Ne.symm heq)]
        exact h x List.mem_cons_self y

theorem cmp_swap (a b : PyValue ν) : cmp b a = (cmp a b).map Ordering.swap := by
  induction a using induct generalizing b with
  | null | bool | dict => cases b <;> rfl
  | num m =>
    cases b with
    | num n => exact congrArg some Std.OrientedCmp.eq_swap
    | _ => rfl
  | str s =>
    cases b with
    | str t => exact congrArg some compareString_swap
    | _ => rfl
  | list xs ih =>
    cases b with
    | list ys =>
      rw [cmp, cmp]
      exact cmpItems_swap ih ys
    | _ => rfl

theorem eq_of_cmpItems (h : ∀ x ∈ xs, ∀ y, cmp x y = some .eq → x = y)
    (hys : cmpItems xs ys = some .eq) : xs = ys := by
  induction xs generalizing ys with
  | nil =>
    cases ys with
    | nil => rfl
    | cons y ys => cases hys
  | cons x xs ih =>
    cases ys with
    | nil => cases hys
    | cons y ys =>
      rw [cmpItems] at hys
      split at hys
      next heq => rw [heq, ih (fun z hz => h z (List.mem_cons_of_mem _ hz)) hys]
      next hne => exact absurd (h x List.mem_cons_self y hys) hne

theorem eq_of_cmp (h : cmp a b = some .eq) : a = b := by
  induction a using induct generalizing b with
  | null | bool | dict => cases b <;> cases h
  | num m =>
    cases b with
    | num n => rw [compare_eq_iff_eq.mp (Option.some.inj h)]
    | _ => cases h
  | str s =>
    cases b with
    | str t => rw [eq_of_compareString (Option.some.inj h)]
    | _ => cases h
  | list xs ih =>
    cases b with
    | list ys =>
      rw [cmp] at h
      rw [eq_of_cmpItems (fun x hx y hy => ih x hx hy) h]
    | _ => cases h

def Below (a b : PyValue ν) : Prop := (cmp a b).any Ordering.isLE = true

def BelowItems (xs ys : List (PyValue ν)) : Prop := (cmpItems xs ys).any Ordering.isLE = true

theorem Below.antisymm (hab : Below a b) (hba : Below b a) : a = b := by
  unfold Below at hba
  rw [cmp_swap] at hba
  cases h : cmp a b with
  | none =>
    rw [Below, h] at hab
    cases hab
  | some o =>
    rw [Below, h] at hab
    rw [h] at hba
    cases o with
    | lt => cases hba
    | eq => exact eq_of_cmp h
    | gt => cases hab

theorem belowItems_cons {y : PyValue ν} :
    BelowItems (x :: xs) (y :: ys) ↔ x = y ∧ BelowItems xs ys ∨ x ≠ y ∧ Below x y := by
  unfold BelowItems
  rw [cmpItems]
  split
  next heq => simp [heq]
  next hne => simp [hne, Below]

theorem BelowItems.trans {zs : List (PyValue ν)}
    (h : ∀ x ∈ xs, ∀ y z, Below x y → Below y z → Below x z) (hxy : BelowItems xs ys)
    (hyz : BelowItems ys zs) : BelowItems xs zs := by
  induction xs generalizing ys zs with
  | nil =>
    cases zs with
    | nil => rfl
    | cons z zs => rfl
  | cons x xs ih =>
    cases ys with
    | nil => cases hxy
    | cons y ys =>
      cases zs with
      | nil => cases hyz
      | cons z zs =>
        rw [belowItems_cons] at hxy hyz ⊢
        rcases hxy with ⟨rfl, hxy⟩ | ⟨hne, hxy⟩
        · rcases hyz with ⟨rfl, hyz⟩ | hyz
          · exact .inl ⟨rfl, ih (fun v hv => h v (List.mem_cons_of_mem _ hv)) hxy hyz⟩
          · exact .inr hyz
        · rcases hyz with ⟨rfl, -⟩ | ⟨-, hyz⟩
          · exact .inr ⟨hne, hxy⟩
          · refine .inr ⟨?_, h x List.mem_cons_self y z hxy hyz⟩
            rintro rfl
            exact hne (hxy.antisymm hyz)

theorem Below.trans (hab : Below a b) (hbc : Below b c) : Below a c := by
  induction a using induct generalizing b c with
  | null | bool | dict => cases hab
  | num l =>
    cases b with
    | num m =>
      cases c with
      | num n => exact isLE_compare_trans hab hbc
      | _ => cases hbc
    | _ => cases hab
  | str r =>
    cases b with
    | str s =>
      cases c with
      | str t => exact compareString_trans hab hbc
      | _ => cases hbc
    | _ => cases hab
  | list xs ih =>
    cases b with
    | list ys =>
      cases c with
      | list zs => exact BelowItems.trans (fun x hx y z => ih x hx) hab hbc
      | _ => cases hbc
    | _ => cases hab

end NormalForms

section Order

def insertMember {α : Type} (m : String × α) : List (String × α) → List (String × α)
  | [] => [m]
  | n :: members =>
    if String.compare m.1 n.1 = .lt then m :: n :: members else n :: insertMember m members

variable {ν : Type} [LinearOrder ν] [Zero ν] [One ν]

mutual

def norm : PyValue ν → PyValue ν
  | .null => .null
  | .bool b => .num (if b then 1 else 0)
  | .num n => .num n
  | .str s => .str s
  | .list items => .list (normItems items)
  | .dict members => .dict (normMembers members)

def normItems : List (PyValue ν) → List (PyValue ν)
  | [] => []
  | v :: items => norm v :: normItems items

def normMembers : List (String × PyValue ν) → List (String × PyValue ν)
  | [] => []
  | (key, v) :: members => insertMember (key, norm v) (normMembers members)

end

def eqv (a b : PyValue ν) : Bool := norm a = norm b

def le (a b : PyValue ν) : Bool := (cmp (norm a) (norm b)).any Ordering.isLE

def max (a b : PyValue ν) : Option (PyValue ν) :=
  (cmp (norm b) (norm a)).map fun o => if o = .gt then b else a

def min (a b : PyValue ν) : Option (PyValue ν) :=
  (cmp (norm b) (norm a)).map fun o => if o = .lt then b else a

def mem (x v : PyValue ν) : Bool := (v.elements.getD []).any (eqv x)

variable {a b x : PyValue ν}

theorem le_trans {c : PyValue ν} (hab : le a b = true) (hbc : le b c = true) : le a c = true :=
  Below.trans hab hbc

theorem le_of_max {m : PyValue ν} (h : max a b = some m) :
    le m x = true ↔ le a x = true ∧ le b x = true := by
  obtain ⟨o, ho, rfl⟩ := Option.map_eq_some_iff.mp h
  split
  next hgt =>
    have hab : le a b = true := by rw [le, cmp_swap, ho, hgt]; rfl
    exact ⟨fun hx => ⟨le_trans hab hx, hx⟩, And.right⟩
  next hle =>
    have hba : le b a = true := by rw [le, ho]; exact Ordering.isLE_iff_ne_gt.mpr hle
    exact ⟨fun hx => ⟨hx, le_trans hba hx⟩, And.left⟩

theorem le_of_min {m : PyValue ν} (h : min a b = some m) :
    le x m = true ↔ le x a = true ∧ le x b = true := by
  obtain ⟨o, ho, rfl⟩ := Option.map_eq_some_iff.mp h
  split
  next hlt =>
    have hba : le b a = true := by rw [le, ho, hlt]; rfl
    exact ⟨fun hx => ⟨le_trans hx hba, hx⟩, And.right⟩
  next hge =>
    have hab : le a b = true := by
      rw [le, cmp_swap, ho]
      exact Ordering.isLE_swap.trans (Ordering.isGE_iff_ne_lt.mpr hge)
    exact ⟨fun hx => ⟨hx, le_trans hx hab⟩, And.left⟩

end Order

section Sets

variable {ν : Type} [LinearOrder ν] [Zero ν] [One ν]

structure Intersection (ν : Type) [LinearOrder ν] [Zero ν] [One ν] where
  common : List (PyValue ν) → List (PyValue ν) → List (PyValue ν)
  any_common : ∀ xs ys x, (common xs ys).any (eqv x) = (xs.any (eqv x) && ys.any (eqv x))
  mem_common : ∀ xs ys, ∀ x ∈ common xs ys, x ∈ xs ∨ x ∈ ys

variable {i : Intersection ν} {a b v x : PyValue ν}

def intersect (i : Intersection ν) (a b : PyValue ν) : Option (PyValue ν) := do
  let xs ← collect a
  let ys ← collect b
  return .list (i.common xs ys)

theorem intersect_eq_some : intersect i a b = some v ↔
    ∃ xs ys, collect a = some xs ∧ collect b = some ys ∧ v = .list (i.common xs ys) := by
  unfold intersect
  simp only [Option.bind_eq_bind, Option.bind_eq_some_iff, Option.pure_def, Option.some.injEq]
  constructor
  · rintro ⟨xs, hxs, ys, hys, rfl⟩
    exact ⟨xs, ys, hxs, hys, rfl⟩
  · rintro ⟨xs, ys, hxs, hys, rfl⟩
    exact ⟨xs, hxs, ys, hys, rfl⟩

theorem isSome_intersect :
    (intersect i a b).isSome = true ↔ (collect a).isSome = true ∧ (collect b).isSome = true := by
  unfold intersect
  cases collect a with
  | none => simp
  | some xs => cases collect b <;> simp

theorem mem_intersect (h : intersect i a b = some v) : mem x v = (mem x a && mem x b) := by
  obtain ⟨xs, ys, hxs, hys, rfl⟩ := intersect_eq_some.mp h
  unfold mem
  rw [(collect_eq_some.mp hxs).1, (collect_eq_some.mp hys).1]
  exact i.any_common xs ys x

theorem collect_intersect (h : intersect i a b = some v) : (collect v).isSome = true := by
  obtain ⟨xs, ys, hxs, hys, rfl⟩ := intersect_eq_some.mp h
  refine Option.isSome_iff_exists.mpr ⟨_, collect_eq_some.mpr ⟨rfl, ?_⟩⟩
  rw [List.all_eq_true]
  intro z hz
  rcases i.mem_common xs ys z hz with hz | hz
  · exact List.all_eq_true.mp (collect_eq_some.mp hxs).2 z hz
  · exact List.all_eq_true.mp (collect_eq_some.mp hys).2 z hz

end Sets

end PyValue

end Acps
