import Mathlib.Data.List.Forall2

/-!
Computations that may fail: what it takes for a sequence of steps to succeed.
-/

namespace Acps.Fallible

variable {ε α β : Type}

def require (c : Prop) [Decidable c] (e : ε) : Except ε Unit := if c then .ok () else .error e

theorem require_eq_ok {c : Prop} [Decidable c] {e : ε} {u : Unit} :
    require c e = .ok u ↔ c := by
  unfold require
  split <;> simp_all

theorem ok_bind (a : α) (f : α → Except ε β) : (Except.ok a >>= f) = f a := rfl

theorem pure_eq_ok {a b : α} : (pure a : Except ε α) = .ok b ↔ a = b := Except.ok.injEq a b ▸ Iff.rfl

theorem bind_eq_ok {x : Except ε α} {f : α → Except ε β} {b : β} :
    (x >>= f) = .ok b ↔ ∃ a, x = .ok a ∧ f a = .ok b := by
  cases x with
  | ok a => simp [ok_bind]
  | error e => simp [bind, Except.bind]

theorem forM_require_eq_ok {c : α → Prop} [DecidablePred c] {e : α → ε} {as : List α} {u : Unit} :
    (as.forM fun a => require (c a) (e a)) = .ok u ↔ ∀ a ∈ as, c a := by
  induction as with
  | nil => exact iff_of_true rfl fun a h => by cases h
  | cons a as ih =>
    change (require (c a) (e a) >>= fun _ => as.forM fun a => require (c a) (e a)) = _ ↔ _
    rw [bind_eq_ok, List.forall_mem_cons, ← ih]
    constructor
    · rintro ⟨_, ha, has⟩
      exact ⟨require_eq_ok.mp ha, has⟩
    · rintro ⟨ha, has⟩
      exact ⟨(), require_eq_ok.mpr ha, has⟩

theorem mapM_congr {f g : α → Except ε β} {as : List α} (h : ∀ a ∈ as, f a = g a) :
    as.mapM f = as.mapM g := by
  induction as with
  | nil => rfl
  | cons a as ih =>
    rw [List.mapM_cons, List.mapM_cons, h a List.mem_cons_self,
      ih fun b hb => h b (List.mem_cons_of_mem _ hb)]

theorem forall₂_of_mapM {f : α → Except ε β} {as : List α} {bs : List β}
    (h : as.mapM f = .ok bs) : List.Forall₂ (fun a b => f a = .ok b) as bs := by
  induction as generalizing bs with
  | nil =>
    obtain rfl := pure_eq_ok.mp h
    exact .nil
  | cons a as ih =>
    rw [List.mapM_cons] at h
    obtain ⟨b, hb, h⟩ := bind_eq_ok.mp h
    obtain ⟨rest, hrest, h⟩ := bind_eq_ok.mp h
    obtain rfl := pure_eq_ok.mp h
    exact .cons hb (ih hrest)

theorem mem_of_mapM {f : α → Except ε β} {as : List α} {bs : List β} (h : as.mapM f = .ok bs) {b : β} :
    b ∈ bs ↔ ∃ a ∈ as, f a = .ok b := by
  have hall := forall₂_of_mapM h
  clear h
  induction hall with
  | nil => simp
  | cons hb _ ih =>
    simp only [List.mem_cons, exists_eq_or_imp, hb, Except.ok.injEq]
    exact or_congr eq_comm ih

theorem exists_mapM_eq_ok {f : α → Except ε β} {as : List α} :
    (∃ bs, as.mapM f = .ok bs) ↔ ∀ a ∈ as, ∃ b, f a = .ok b := by
  induction as with
  | nil => exact iff_of_true ⟨[], rfl⟩ fun a h => absurd h List.not_mem_nil
  | cons a as ih =>
    simp only [List.mapM_cons, bind_eq_ok, pure_eq_ok, List.forall_mem_cons, ← ih]
    constructor
    · rintro ⟨_, b, hb, bs, hbs, rfl⟩
      exact ⟨⟨b, hb⟩, bs, hbs⟩
    · rintro ⟨⟨b, hb⟩, bs, hbs⟩
      exact ⟨b :: bs, b, hb, bs, hbs, rfl⟩

theorem foldlM_invariant {σ : Type} {f : σ → α → Except ε σ} {I : σ → Prop}
    (hstep : ∀ s a t, I s → f s a = .ok t → I t) {s t : σ} {as : List α} (hs : I s)
    (h : as.foldlM f s = .ok t) : I t := by
  induction as generalizing s with
  | nil =>
    obtain rfl := pure_eq_ok.mp h
    exact hs
  | cons a as ih =>
    obtain ⟨u, hu, hrest⟩ := bind_eq_ok.mp h
    exact ih (hstep s a u hs hu) hrest

end Acps.Fallible
