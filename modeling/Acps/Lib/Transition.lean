import Mathlib.Data.Option.Basic

/-!
Systems that take one enabled action after another, and the induction rule that
carries an invariant along every schedule whose actions meet a side condition.
-/

namespace Acps.Transition

variable {σ α : Type}

structure System (σ α : Type) where
  step : σ → α → Option σ

namespace System

variable (S : System σ α)

def exec : σ → List α → Option σ
  | s, [] => some s
  | s, a :: as => (S.step s a).bind (fun t => exec t as)

def Meets (C : σ → α → Prop) : σ → List α → Prop
  | _, [] => True
  | s, a :: as => C s a ∧ ∀ t, S.step s a = some t → Meets C t as

theorem meets_cons {C : σ → α → Prop} {s t : σ} {a : α} {as : List α} (hC : C s a)
    (ht : S.step s a = some t) (h : S.Meets C t as) : S.Meets C s (a :: as) := by
  refine ⟨hC, fun u hu => ?_⟩
  obtain rfl : t = u := Option.some.inj (ht.symm.trans hu)
  exact h

@[simp] theorem exec_nil (s : σ) : S.exec s [] = some s := rfl

theorem exec_cons (s : σ) (a : α) (as : List α) :
    S.exec s (a :: as) = (S.step s a).bind (fun t => S.exec t as) := rfl

theorem exec_cons_eq_some {s u : σ} {a : α} {as : List α} :
    S.exec s (a :: as) = some u ↔ ∃ t, S.step s a = some t ∧ S.exec t as = some u := by
  rw [exec_cons, Option.bind_eq_some_iff]

theorem exec_append (s : σ) (as bs : List α) :
    S.exec s (as ++ bs) = (S.exec s as).bind (fun t => S.exec t bs) := by
  induction as generalizing s with
  | nil => rfl
  | cons a as ih =>
    rw [List.cons_append, exec_cons, exec_cons, Option.bind_assoc]
    congr 1
    funext t
    exact ih t

theorem exec_append_of_exec {s t u : σ} {as bs : List α} (ht : S.exec s as = some t)
    (hu : S.exec t bs = some u) : S.exec s (as ++ bs) = some u := by
  rw [exec_append, ht, Option.bind_some, hu]

theorem meets_append {C : σ → α → Prop} {s t : σ} {as bs : List α}
    (h : S.Meets C s (as ++ bs)) (ht : S.exec s as = some t) :
    S.Meets C s as ∧ S.Meets C t bs := by
  induction as generalizing s with
  | nil =>
    obtain rfl : s = t := by simpa using ht
    exact ⟨trivial, h⟩
  | cons a as ih =>
    obtain ⟨u, hu, hrest⟩ := S.exec_cons_eq_some.mp ht
    refine ⟨⟨h.1, ?_⟩, (ih (h.2 u hu) hrest).2⟩
    intro v hv
    obtain rfl : u = v := Option.some.inj (hu.symm.trans hv)
    exact (ih (h.2 u hu) hrest).1

theorem exec_invariant {C : σ → α → Prop} {I : σ → Prop}
    (hstep : ∀ s a t, I s → C s a → S.step s a = some t → I t)
    {s t : σ} {as : List α} (hs : I s) (hC : S.Meets C s as) (ht : S.exec s as = some t) : I t := by
  induction as generalizing s with
  | nil =>
    obtain rfl : s = t := by simpa using ht
    exact hs
  | cons a as ih =>
    obtain ⟨u, hu, hrest⟩ := S.exec_cons_eq_some.mp ht
    exact ih (hstep s a u hs hC.1 hu) (hC.2 u hu) hrest

theorem meets_of_invariant {C D : σ → α → Prop} {I : σ → Prop}
    (hstep : ∀ s a t, I s → C s a → S.step s a = some t → I t) (hD : ∀ s a, I s → C s a → D s a)
    {s : σ} {as : List α} (hs : I s) (hC : S.Meets C s as) : S.Meets D s as := by
  induction as generalizing s with
  | nil => trivial
  | cons a as ih =>
    exact ⟨hD s a hs hC.1, fun t ht => ih (hstep s a t hs hC.1 ht) (hC.2 t ht)⟩

theorem meets_of_forall {C : σ → α → Prop} {as : List α} (h : ∀ a ∈ as, ∀ s, C s a) (s : σ) :
    S.Meets C s as := by
  induction as generalizing s with
  | nil => trivial
  | cons a as ih => exact ⟨h a (by simp) s, fun t _ => ih (fun b hb => h b (by simp [hb])) t⟩

theorem meets_append_of_exec {C : σ → α → Prop} {s t : σ} {as bs : List α}
    (has : S.Meets C s as) (ht : S.exec s as = some t) (hbs : S.Meets C t bs) :
    S.Meets C s (as ++ bs) := by
  induction as generalizing s with
  | nil =>
    obtain rfl : s = t := by simpa using ht
    exact hbs
  | cons a as ih =>
    obtain ⟨u, hu, hrest⟩ := S.exec_cons_eq_some.mp ht
    exact S.meets_cons has.1 hu (ih (has.2 u hu) hrest)

theorem meets_iff {C : σ → α → Prop} {s : σ} {as : List α} :
    S.Meets C s as ↔ ∀ pre a post t, as = pre ++ a :: post → S.exec s pre = some t → C t a := by
  constructor
  · rintro h pre a post t rfl ht
    exact (S.meets_append h ht).2.1
  · intro h
    induction as generalizing s with
    | nil => trivial
    | cons a as ih =>
      refine ⟨h [] a as s rfl rfl, fun t ht => ih ?_⟩
      rintro pre b post u rfl hu
      apply h (a :: pre) b post u rfl
      rw [exec_cons, ht, Option.bind_some, hu]

theorem meets_congr {C D : σ → α → Prop} {I : σ → Prop}
    (hstep : ∀ s a t, I s → C s a → S.step s a = some t → I t)
    (hiff : ∀ s a, I s → (C s a ↔ D s a)) {s : σ} {as : List α} (hs : I s) :
    S.Meets C s as ↔ S.Meets D s as := by
  induction as generalizing s with
  | nil => exact Iff.rfl
  | cons a as ih =>
    constructor
    · intro h
      exact ⟨(hiff s a hs).mp h.1, fun t ht => (ih (hstep s a t hs h.1 ht)).mp (h.2 t ht)⟩
    · intro h
      have hC := (hiff s a hs).mpr h.1
      exact ⟨hC, fun t ht => (ih (hstep s a t hs hC ht)).mpr (h.2 t ht)⟩

theorem meets_and {C D : σ → α → Prop} {s : σ} {as : List α} (hC : S.Meets C s as)
    (hD : S.Meets D s as) : S.Meets (fun s a => C s a ∧ D s a) s as := by
  induction as generalizing s with
  | nil => trivial
  | cons a as ih => exact ⟨⟨hC.1, hD.1⟩, fun t ht => ih (hC.2 t ht) (hD.2 t ht)⟩

theorem meets_true (s : σ) (as : List α) : S.Meets (fun _ _ => True) s as := by
  induction as generalizing s with
  | nil => trivial
  | cons a as ih => exact ⟨trivial, fun t _ => ih t⟩

def check (c : σ → α → Bool) : σ → List α → Bool
  | _, [] => true
  | s, a :: as => c s a && (S.step s a).all (fun t => check c t as)

theorem meets_of_check {c : σ → α → Bool} {C : σ → α → Prop} (hc : ∀ s a, c s a = true → C s a)
    {s : σ} {as : List α} (h : S.check c s as = true) : S.Meets C s as := by
  induction as generalizing s with
  | nil => trivial
  | cons a as ih =>
    obtain ⟨hfirst, hrest⟩ := Bool.and_eq_true_iff.mp h
    refine ⟨hc s a hfirst, fun t ht => ih ?_⟩
    rwa [ht, Option.all_some] at hrest

theorem exec_iff_meets {C : σ → α → Prop} {I P : σ → Prop}
    (hstep : ∀ s a t, I s → S.step s a = some t → I t)
    (hiff : ∀ s a t, I s → S.step s a = some t → (P t ↔ P s ∧ C s a)) {s t : σ} {as : List α}
    (hs : I s) (ht : S.exec s as = some t) : P t ↔ P s ∧ S.Meets C s as := by
  induction as generalizing s with
  | nil =>
    obtain rfl : s = t := by simpa using ht
    exact (and_iff_left trivial).symm
  | cons a as ih =>
    obtain ⟨u, hu, hrest⟩ := S.exec_cons_eq_some.mp ht
    have hmeets : S.Meets C s (a :: as) ↔ C s a ∧ S.Meets C u as :=
      ⟨fun h => ⟨h.1, h.2 u hu⟩, fun h => S.meets_cons h.1 hu h.2⟩
    rw [ih (hstep s a u hs hu) hrest, hiff s a u hs hu, hmeets, and_assoc]

theorem exec_induction {I : σ → Prop} (hstep : ∀ s a t, I s → S.step s a = some t → I t)
    {s t : σ} {as : List α} (hs : I s) (ht : S.exec s as = some t) : I t :=
  S.exec_invariant (C := fun _ _ => True) (fun s a t hI _ h => hstep s a t hI h) hs
    (S.meets_true s as) ht

end System

end Acps.Transition

namespace Acps.Transition.System

section Unwinding

variable {σ α : Type} (S : System σ α)

def without (hidden : σ → α → Bool) : σ → List α → List α
  | _, [] => []
  | s, a :: as =>
    match S.step s a with
    | none => a :: as
    | some t => if hidden s a then without hidden t as else a :: without hidden t as

variable {S} {hidden : σ → α → Bool} {C : σ → α → Prop} {R : σ → σ → Prop}

theorem exec_without
    (hhidden : ∀ s s' a t, R s s' → C s a → hidden s a = true → S.step s a = some t → R t s')
    (hshown : ∀ s s' a t, R s s' → hidden s a = false → S.step s a = some t →
      ∃ t', S.step s' a = some t' ∧ R t t')
    {s s' t : σ} {as : List α} (hR : R s s') (hC : S.Meets C s as) (ht : S.exec s as = some t) :
    ∃ t', S.exec s' (S.without hidden s as) = some t' ∧ R t t' := by
  induction as generalizing s s' with
  | nil =>
    obtain rfl : s = t := Option.some.inj ht
    exact ⟨s', rfl, hR⟩
  | cons a as ih =>
    obtain ⟨u, hu, hrest⟩ := S.exec_cons_eq_some.mp ht
    have hmeets : S.Meets C u as := hC.2 u hu
    have hwithout : S.without hidden s (a :: as) =
        if hidden s a then S.without hidden u as else a :: S.without hidden u as := by
      rw [without, hu]
    rw [hwithout]
    cases hhid : hidden s a with
    | true =>
      rw [if_pos rfl]
      exact ih (hhidden s s' a u hR hC.1 hhid hu) hmeets hrest
    | false =>
      rw [if_neg Bool.false_ne_true]
      obtain ⟨u', hu', hR'⟩ := hshown s s' a u hR hhid hu
      obtain ⟨t', ht', hRt⟩ := ih hR' hmeets hrest
      exact ⟨t', S.exec_cons_eq_some.mpr ⟨u', hu', ht'⟩, hRt⟩

end Unwinding

end Acps.Transition.System
