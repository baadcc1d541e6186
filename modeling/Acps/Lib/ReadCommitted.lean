import Acps.Lib.Transition
import Mathlib.Logic.Basic
import Mathlib.Logic.Function.Basic

/-!
Concurrent transactions under read committed isolation: a statement reads what is committed when
it runs, and the changes of a transaction reach the store when it commits, or not at all.
-/

namespace Acps.ReadCommitted

open Transition

inductive Program (σ γ : Type) where
  | raise
  | query (run : σ → Program σ γ)
  | commit (changes : γ)

structure Service (ρ σ γ : Type) where
  program : ρ → σ → Program σ γ
  /-- Nothing for changes that the store refuses. -/
  apply : γ → σ → Option σ
  tick : σ → σ

structure State (τ σ γ : Type) where
  store : σ
  running : τ → Option (Program σ γ)

inductive Action (τ ρ : Type) where
  | start (i : τ) (request : ρ)
  | next (i : τ)
  | abort (i : τ)
  | tick

variable {τ ρ σ γ : Type}

namespace State

def idle (store : σ) : State τ σ γ := { store, running := fun _ => none }

variable [DecidableEq τ]

def continueWith (s : State τ σ γ) (i : τ) (p : Option (Program σ γ)) : State τ σ γ :=
  { s with running := Function.update s.running i p }

end State

section

variable [DecidableEq τ] (S : Service ρ σ γ)

def next (s : State τ σ γ) (i : τ) : Program σ γ → State τ σ γ
  | .raise => s.continueWith i none
  | .query run => s.continueWith i (some (run s.store))
  | .commit changes =>
    { s.continueWith i none with store := (S.apply changes s.store).getD s.store }

def step (s : State τ σ γ) : Action τ ρ → Option (State τ σ γ)
  | .start i request =>
    match s.running i with
    | none => some (s.continueWith i (some (S.program request s.store)))
    | some _ => none
  | .next i => (s.running i).map (next S s i)
  | .abort i => some (s.continueWith i none)
  | .tick => some { s with store := S.tick s.store }

def system : System (State τ σ γ) (Action τ ρ) := { step := step S }

end

def Program.Justified (I : σ → Prop) (R : σ → σ → Prop) (Q : σ → γ → Prop) :
    Program σ γ → σ → Prop
  | .raise, _ => True
  | .query run, s => ∀ t, I t → R s t → (run t).Justified I R Q t
  | .commit changes, s => ∀ t, I t → R s t → Q t changes

structure Guarantee (S : Service ρ σ γ) (I : σ → Prop) (R : σ → σ → Prop) (Q : σ → γ → Prop) : Prop where
  refl : ∀ s, R s s
  trans : ∀ s t u, R s t → R t u → R s u
  started : ∀ request s, I s → (S.program request s).Justified I R Q s
  tick : ∀ s, I s → I (S.tick s) ∧ R s (S.tick s)
  commit : ∀ s t changes, I s → Q s changes → S.apply changes s = some t → I t ∧ R s t

structure Sound (I : σ → Prop) (R : σ → σ → Prop) (Q : σ → γ → Prop) (s : State τ σ γ) :
    Prop where
  store : I s.store
  running : ∀ i p, s.running i = some p → p.Justified I R Q s.store

variable {S : Service ρ σ γ} {I : σ → Prop} {R : σ → σ → Prop} {Q : σ → γ → Prop}

theorem Program.justified_query {run : σ → Program σ γ} {s : σ} :
    (Program.query run).Justified I R Q s ↔
      ∀ t, I t → R s t → (run t).Justified I R Q t := Iff.rfl

theorem Program.Justified.later (hR : ∀ s t u, R s t → R t u → R s u) {p : Program σ γ}
    {s t : σ} (h : p.Justified I R Q s) (hst : R s t) : p.Justified I R Q t := by
  cases p with
  | raise => trivial
  | query run => exact fun u hu htu => h u hu (hR _ _ _ hst htu)
  | commit changes => exact fun u hu htu => h u hu (hR _ _ _ hst htu)

theorem sound_idle {store : σ} (h : I store) : Sound I R Q (State.idle store : State τ σ γ) :=
  ⟨h, fun _ _ hp => by cases hp⟩

variable {s t : State τ σ γ}

theorem sound_continueWith [DecidableEq τ] (h : Sound I R Q s) (i : τ) {p : Option (Program σ γ)}
    (hp : ∀ q ∈ p, q.Justified I R Q s.store) : Sound I R Q (s.continueWith i p) := by
  refine ⟨h.store, fun j q hq => ?_⟩
  change Function.update s.running i p j = some q at hq
  by_cases hj : j = i
  · subst hj
    rw [Function.update_self] at hq
    exact hp q hq
  · rw [Function.update_of_ne hj] at hq
    exact h.running j q hq

namespace Guarantee

variable (G : Guarantee S I R Q)

include G

theorem ready (h : Sound I R Q s) {i : τ} {changes : γ}
    (hi : s.running i = some (.commit changes)) : Q s.store changes :=
  h.running i _ hi s.store h.store (G.refl s.store)

theorem sound_evolve (h : Sound I R Q s) {store : σ} (hI : I store) (hR : R s.store store) :
    Sound I R Q { s with store := store } :=
  ⟨hI, fun i p hp => (h.running i p hp).later G.trans hR⟩

theorem sound_step [DecidableEq τ] {a : Action τ ρ} (h : Sound I R Q s) (ht : step S s a = some t) :
    Sound I R Q t := by
  cases a with
  | start i request =>
    rw [step] at ht
    split at ht
    · cases ht
      apply sound_continueWith h i
      rintro q ⟨⟩
      exact G.started request s.store h.store
    · cases ht
  | next i =>
    obtain ⟨p, hi, rfl⟩ := Option.map_eq_some_iff.mp ht
    have hp := h.running i p hi
    cases p with
    | raise => exact sound_continueWith h i fun q hq => by cases hq
    | query run =>
      apply sound_continueWith h i
      rintro q ⟨⟩
      exact hp s.store h.store (G.refl s.store)
    | commit changes =>
      have hended := sound_continueWith (p := none) h i fun q hq => by cases hq
      cases happly : S.apply changes s.store with
      | none =>
        rw [next, happly]
        exact hended
      | some store =>
        obtain ⟨hI, hR⟩ := G.commit _ _ _ h.store (G.ready h hi) happly
        rw [next, happly]
        exact G.sound_evolve hended hI hR
  | abort i =>
    cases ht
    exact sound_continueWith h i fun q hq => by cases hq
  | tick =>
    cases ht
    obtain ⟨hI, hR⟩ := G.tick s.store h.store
    exact G.sound_evolve h hI hR

end Guarantee

section Guarded

variable {C : γ → σ → Prop}

open Classical in
noncomputable def Service.guarded (S : Service ρ σ γ) (C : γ → σ → Prop) : Service ρ σ γ :=
  { S with apply := fun changes s => if C changes s then S.apply changes s else none }

def Commits (C : γ → σ → Prop) (s : State τ σ γ) : Action τ ρ → Prop
  | .next i => ∀ changes, s.running i = some (.commit changes) → C changes s.store
  | .start _ _ | .abort _ | .tick => True

instance [∀ changes s, Decidable (C changes s)] (s : State τ σ γ) :
    (a : Action τ ρ) → Decidable (Commits C s a)
  | .next i =>
    match h : s.running i with
    | some (.commit changes) => decidable_of_iff (C changes s.store) (by simp [Commits, h])
    | some .raise => .isTrue fun _ hc => by cases h.symm.trans hc
    | some (.query _) => .isTrue fun _ hc => by cases h.symm.trans hc
    | none => .isTrue fun _ hc => by cases h.symm.trans hc
  | .start _ _ | .abort _ | .tick => instDecidableTrue

theorem guarded_apply_eq_some {changes : γ} {u v : σ} :
    (S.guarded C).apply changes u = some v ↔ C changes u ∧ S.apply changes u = some v := by
  by_cases h : C changes u
  · simp [Service.guarded, h]
  · simp [Service.guarded, h]

theorem step_guarded [DecidableEq τ] {a : Action τ ρ} (h : Commits C s a) :
    step (S.guarded C) s a = step S s a := by
  cases a with
  | start i request => rfl
  | abort i => rfl
  | tick => rfl
  | next i =>
    apply Option.map_congr
    intro p hp
    cases p with
    | raise => rfl
    | query run => rfl
    | commit changes =>
      have happly : (S.guarded C).apply changes s.store = S.apply changes s.store :=
        if_pos (h changes hp)
      rw [next, next, happly]

theorem Guarantee.sound_exec [DecidableEq τ] (G : Guarantee (S.guarded C) I R Q)
    {as : List (Action τ ρ)} (h : Sound I R Q s) (hmeets : (system S).Meets (Commits C) s as)
    (ht : (system S).exec s as = some t) : Sound I R Q t := by
  refine (system S).exec_invariant (C := Commits C) ?_ h hmeets ht
  intro u a v hu hC hstep
  apply G.sound_step hu
  rw [step_guarded hC]
  exact hstep

end Guarded

end Acps.ReadCommitted

/-!
The write-back of a session that keeps a loaded copy of a row: an attribute is written if it
differs from what was loaded, and any other attribute keeps the value that the row has by then.
-/

namespace Acps.UnitOfWork

variable {α : Type} [DecidableEq α]

def flushed (current loaded new : α) : α := if new = loaded then current else new

theorem flushed_unchanged (current loaded : α) : flushed current loaded loaded = current :=
  if_pos rfl

theorem flushed_self (loaded new : α) : flushed loaded loaded new = new := by
  unfold flushed
  split
  · next h => exact h.symm
  · rfl

theorem flushed_eq_or (current loaded new : α) :
    flushed current loaded new = current ∨ flushed current loaded new = new := by
  unfold flushed
  split
  · exact .inl rfl
  · exact .inr rfl

end Acps.UnitOfWork
