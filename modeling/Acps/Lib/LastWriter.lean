import Mathlib.Data.List.Induction
import Mathlib.Order.Lattice

/-!
A register that accepts a write only above the version it holds. An empty register holds
the floor version, so a removal forgets how far the register had come.
-/

namespace Acps.LastWriter

variable {V P : Type}

inductive Write (V P : Type) where
  | put (v : V) (p : P)
  | remove (v : V)

abbrev Cell (V P : Type) := Option (V × P)

namespace Write

def version : Write V P → V
  | put v _ => v
  | remove v => v

def effect : Write V P → Cell V P
  | put v p => some (v, p)
  | remove _ => none

end Write

def level (floor : V) (c : Cell V P) : V := (c.map Prod.fst).getD floor

@[simp] theorem level_none (floor : V) : level floor (none : Cell V P) = floor := rfl

@[simp] theorem level_some (floor v : V) (p : P) : level floor (some (v, p)) = v := rfl

variable [LinearOrder V]

def write (floor : V) (c : Cell V P) (w : Write V P) : Cell V P :=
  if level floor c < w.version then w.effect else c

def run (floor : V) (c : Cell V P) (ws : List (Write V P)) : Cell V P := ws.foldl (write floor) c

variable {floor : V}

@[simp] theorem run_nil (c : Cell V P) : run floor c [] = c := rfl

@[simp] theorem run_cons (c : Cell V P) (w : Write V P) (ws : List (Write V P)) :
    run floor c (w :: ws) = run floor (write floor c w) ws := rfl

theorem run_append (c : Cell V P) (ws us : List (Write V P)) :
    run floor c (ws ++ us) = run floor (run floor c ws) us := List.foldl_append

theorem write_of_lt {c : Cell V P} {w : Write V P} (h : level floor c < w.version) :
    write floor c w = w.effect := if_pos h

theorem write_of_not_lt {c : Cell V P} {w : Write V P} (h : ¬ level floor c < w.version) :
    write floor c w = c := if_neg h

theorem floor_le_level_write {c : Cell V P} (h : floor ≤ level floor c) (w : Write V P) :
    floor ≤ level floor (write floor c w) := by
  by_cases hlt : level floor c < w.version
  · rw [write_of_lt hlt]
    cases w with
    | put v p => exact h.trans hlt.le
    | remove v => exact le_rfl
  · rwa [write_of_not_lt hlt]

theorem run_eq_some {c : Cell V P} {ws : List (Write V P)} {v : V} {p : P}
    (hc : floor ≤ level floor c) (h : run floor c ws = some (v, p)) :
    c = some (v, p) ∨ Write.put v p ∈ ws ∧ floor < v := by
  induction ws generalizing c with
  | nil => exact .inl h
  | cons w ws ih =>
    rcases ih (floor_le_level_write hc w) h with hw | ⟨hmem, hv⟩
    · by_cases hlt : level floor c < w.version
      · rw [write_of_lt hlt] at hw
        cases w with
        | remove u => simp [Write.effect] at hw
        | put u q =>
          obtain ⟨rfl, rfl⟩ : u = v ∧ q = p := by simpa [Write.effect] using hw
          exact .inr ⟨by simp, hc.trans_lt hlt⟩
      · rw [write_of_not_lt hlt] at hw
        exact .inl hw
    · exact .inr ⟨List.mem_cons_of_mem _ hmem, hv⟩

theorem run_none_of_no_put {ws : List (Write V P)}
    (h : ∀ v p, Write.put v p ∈ ws → ¬ floor < v) : run floor none ws = none := by
  cases hr : run floor none ws with
  | none => rfl
  | some x =>
    rcases run_eq_some (c := none) le_rfl hr with hc | ⟨hmem, hv⟩
    · exact absurd hc (by simp)
    · exact absurd hv (h _ _ hmem)

theorem run_of_level_ge {c : Cell V P} {ws : List (Write V P)}
    (h : ∀ w ∈ ws, w.version ≤ level floor c) : run floor c ws = c := by
  induction ws with
  | nil => rfl
  | cons w ws ih =>
    rw [run_cons, write_of_not_lt (h w (by simp)).not_gt]
    exact ih fun u hu => h u (List.mem_cons_of_mem _ hu)

theorem level_write_lt {c : Cell V P} {w : Write V P} {v : V} (hc : level floor c < v)
    (hf : floor < v) (hw : w.version < v) : level floor (write floor c w) < v := by
  by_cases hlt : level floor c < w.version
  · rw [write_of_lt hlt]
    cases w with
    | put u q => exact hw
    | remove u => exact hf
  · rwa [write_of_not_lt hlt]

theorem run_newest_put {c : Cell V P} {ws : List (Write V P)} {v : V} {p : P}
    (hc : level floor c < v) (hf : floor < v) (hmem : Write.put v p ∈ ws)
    (hmax : ∀ w ∈ ws, w = Write.put v p ∨ w.version < v) :
    run floor c ws = some (v, p) := by
  induction ws generalizing c with
  | nil => simp at hmem
  | cons w ws ih =>
    rw [run_cons]
    rcases hmax w (by simp) with rfl | hlt
    · rw [write_of_lt (w := .put v p) hc]
      apply run_of_level_ge
      intro u hu
      rcases hmax u (List.mem_cons_of_mem _ hu) with rfl | hlt
      · exact le_rfl
      · exact hlt.le
    · have hmem' : Write.put v p ∈ ws := by
        rcases List.mem_cons.mp hmem with rfl | h
        · exact absurd hlt (lt_irrefl _)
        · exact h
      exact ih (level_write_lt hc hf hlt) hmem' fun u hu => hmax u (List.mem_cons_of_mem _ hu)

def Versioned (ws : List (Write V P)) : Prop :=
  ∀ w ∈ ws, ∀ u ∈ ws, w.version = u.version → w = u

def Newest (ws : List (Write V P)) (w : Write V P) : Prop :=
  w ∈ ws ∧ ∀ u ∈ ws, u.version ≤ w.version

/-- The newest write survives every reordering: it is a put above the floor, or a removal with
no such put that a reordering could bring in after it. -/
def Settled (floor : V) (ws : List (Write V P)) : Write V P → Prop
  | .put v _ => floor < v
  | .remove _ => ∀ v p, Write.put v p ∈ ws → ¬ floor < v

omit [LinearOrder V] in
theorem Versioned.of_subset {ws us : List (Write V P)} (h : Versioned ws)
    (hsub : ∀ w ∈ us, w ∈ ws) : Versioned us :=
  fun w hw u hu => h w (hsub w hw) u (hsub u hu)

theorem Settled.of_subset {ws us : List (Write V P)} {w : Write V P} (h : Settled floor ws w)
    (hsub : ∀ u ∈ us, u ∈ ws) : Settled floor us w := by
  cases w with
  | put v p => exact h
  | remove v => exact fun u p hu => h u p (hsub _ hu)

theorem Newest.eq_or_lt {ws : List (Write V P)} {w u : Write V P} (hv : Versioned ws)
    (hn : Newest ws w) (hu : u ∈ ws) : u = w ∨ u.version < w.version := by
  rcases (hn.2 u hu).lt_or_eq with hlt | he
  · exact .inr hlt
  · exact .inl (hv u hu w hn.1 he)

theorem run_of_settled {ws : List (Write V P)} {w : Write V P} (hv : Versioned ws)
    (hn : Newest ws w) (hs : Settled floor ws w) : run floor none ws = w.effect := by
  cases w with
  | put v p =>
    exact run_newest_put hs hs hn.1 fun u hu => hn.eq_or_lt hv hu
  | remove v => exact run_none_of_no_put hs

theorem run_append_unsettled {ws : List (Write V P)} {v u : V} {p : P} (hv : Versioned ws)
    (hn : Newest ws (.remove v)) (hmem : Write.put u p ∈ ws) (hu : floor < u) :
    run floor none (ws ++ [.remove v, .put u p]) = some (u, p) := by
  have huv : u ≤ v := hn.2 _ hmem
  have hlevel : level floor (run floor none ws) < v := by
    cases hr : run floor none ws with
    | none => exact hu.trans_le huv
    | some x =>
      rcases run_eq_some (c := none) le_rfl hr with hc | ⟨hx, _⟩
      · exact absurd hc (by simp)
      · rcases hn.eq_or_lt hv hx with he | hlt
        · exact absurd he (by simp)
        · exact hlt
  rw [run_append, run_cons, run_cons, run_nil, write_of_lt (w := .remove v) hlevel]
  exact write_of_lt (w := .put u p) hu

end Acps.LastWriter
