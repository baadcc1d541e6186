import Acps.Discovery.ApplySteps
import Acps.Lib.Transition
import Mathlib.Logic.Function.Basic

/-!
Any number of tasks that apply envelopes to one replica, in every interleaving of their waits.
-/

namespace Acps.Discovery

open Dsp

structure Pool where
  replica : Replica
  calls : ℕ → Option (Envelope × ApplyPoint)

def Pool.start (r : Replica) : Pool := ⟨r, fun _ => none⟩

inductive ApplyAct where
  | call (i : ℕ) (e : Envelope)
  | resume (i : ℕ)
  | raise (i : ℕ)

def Pool.step (s : Pool) : ApplyAct → Option Pool
  | .call i e =>
    match s.calls i with
    | some _ => none
    | none =>
      if accepts s.replica e then
        some ⟨s.replica, Function.update s.calls i (some (e, .select))⟩
      else some s
  | .resume i => (s.calls i).map fun (e, p) =>
    match resumeApply s.replica e p with
    | some (r, p') => ⟨r, Function.update s.calls i (p'.map fun p' => (e, p'))⟩
    | none => ⟨s.replica, Function.update s.calls i none⟩
  | .raise i => some ⟨s.replica, Function.update s.calls i none⟩

def applies : Transition.System Pool ApplyAct := ⟨Pool.step⟩

def Pool.InFlight (s : Pool) (i : ℕ) (e : Envelope) : Prop :=
  ∃ p, s.calls i = some (e, p) ∧ p ≠ .track ∧ e.isDelete = false

def CheckHolds (s : Pool) : ApplyAct → Prop
  | .call _ e => accepts s.replica e = true → e.isDelete = false →
      (∀ row, s.replica.agents.lookup e.id = some row → row.version ≤ e.version) ∧
        ∀ j d, s.InFlight j d → d.id = e.id → d.version = e.version
  | _ => True

def VersionsKept (s : Pool) (a : ApplyAct) : Prop :=
  ∀ t, s.step a = some t → ∀ id row row', s.replica.agents.lookup id = some row →
    t.replica.agents.lookup id = some row' → row.version ≤ row'.version

structure Pool.Inv (s : Pool) : Prop where
  ahead : ∀ i e, s.InFlight i e → ∀ row, s.replica.agents.lookup e.id = some row →
    row.version ≤ e.version
  agree : ∀ i j d e, s.InFlight i d → s.InFlight j e → d.id = e.id → d.version = e.version

section Step

variable {s t : Pool} {i j : ℕ} {e : Envelope}

theorem Pool.inv_start (r : Replica) : (Pool.start r).Inv where
  ahead i e := by rintro ⟨p, hp, _⟩; simp [Pool.start] at hp
  agree i j d e := by rintro ⟨p, hp, _⟩; simp [Pool.start] at hp

theorem inFlight_update {c : Option (Envelope × ApplyPoint)} {r : Replica}
    (h : Pool.InFlight ⟨r, Function.update s.calls i c⟩ j e) :
    j = i ∧ (∃ p, c = some (e, p) ∧ p ≠ .track ∧ e.isDelete = false) ∨ s.InFlight j e := by
  obtain ⟨p, hp, hne, hop⟩ := h
  dsimp only at hp
  by_cases hj : j = i
  · subst hj
    rw [Function.update_self] at hp
    exact .inl ⟨rfl, p, hp, hne, hop⟩
  · rw [Function.update_of_ne hj] at hp
    exact .inr ⟨p, hp, hne, hop⟩

theorem Pool.Inv.moved (h : s.Inv) {c : Option (Envelope × ApplyPoint)} {r : Replica}
    (hr : r.agents = s.replica.agents)
    (hc : ∀ e p, c = some (e, p) → p ≠ .track → e.isDelete = false → s.InFlight i e) :
    Pool.Inv ⟨r, Function.update s.calls i c⟩ := by
  have hold {j : ℕ} {e : Envelope}
      (hj : Pool.InFlight ⟨r, Function.update s.calls i c⟩ j e) : s.InFlight j e := by
    rcases inFlight_update hj with ⟨rfl, p, hp, hne, hop⟩ | hj
    · exact hc e p hp hne hop
    · exact hj
  refine ⟨fun j e hj => ?_, fun j k d e hj hk => h.agree j k d e (hold hj) (hold hk)⟩
  dsimp only
  rw [hr]
  exact h.ahead j e (hold hj)

theorem Pool.Inv.called (h : s.Inv) (hacc : accepts s.replica e = true)
    (hC : CheckHolds s (.call i e)) :
    Pool.Inv ⟨s.replica, Function.update s.calls i (some (e, .select))⟩ := by
  have hnew {j : ℕ} {d : Envelope}
      (hj : Pool.InFlight ⟨s.replica, Function.update s.calls i (some (e, .select))⟩ j d) :
      d = e ∧ e.isDelete = false ∨ s.InFlight j d := by
    rcases inFlight_update hj with ⟨rfl, p, hp, _, hop⟩ | hj
    · obtain ⟨rfl, _⟩ := Prod.mk.inj (Option.some.inj hp)
      exact .inl ⟨rfl, hop⟩
    · exact .inr hj
  constructor
  · intro j d hj row hrow
    rcases hnew hj with ⟨rfl, hop⟩ | hj
    · exact (hC hacc hop).1 row hrow
    · exact h.ahead j d hj row hrow
  · intro j k d d' hj hk hid
    rcases hnew hj with ⟨rfl, hop⟩ | hold <;> rcases hnew hk with ⟨rfl, hop'⟩ | hold'
    · rfl
    · exact ((hC hacc hop).2 k d' hold' hid.symm).symm
    · exact (hC hacc hop').2 j d hold hid
    · exact h.agree j k d d' hold hold' hid

theorem Pool.Inv.written (h : s.Inv) {existing : Option AgentRow} {agents : Database}
    (hi : s.calls i = some (e, .write existing))
    (hw : Written s.replica.agents e existing agents) :
    Pool.Inv ⟨⟨s.replica.state, agents⟩, Function.update s.calls i (some (e, .track))⟩ := by
  have hold {j : ℕ} {d : Envelope}
      (hj : Pool.InFlight ⟨⟨s.replica.state, agents⟩,
        Function.update s.calls i (some (e, .track))⟩ j d) : s.InFlight j d := by
    rcases inFlight_update hj with ⟨rfl, p, hp, hne, _⟩ | hj
    · exact absurd (Prod.mk.inj (Option.some.inj hp)).2.symm hne
    · exact hj
  refine ⟨fun j d hj row hrow => ?_, fun j k d d' hj hk => h.agree j k d d' (hold hj) (hold hk)⟩
  dsimp only at hrow
  by_cases hid : d.id = e.id
  · rw [hid] at hrow
    rcases hw.version hrow with ⟨row', hrow', hv⟩ | ⟨hop, hv⟩
    · rw [hv]
      exact h.ahead j d (hold hj) row' (hid ▸ hrow')
    · rw [hv]
      exact (h.agree i j e d ⟨_, hi, by simp, hop⟩ (hold hj) hid.symm).le
  · rw [hw.lookup_ne hid] at hrow
    exact h.ahead j d (hold hj) row hrow

theorem Pool.Inv.step (h : s.Inv) {a : ApplyAct} (hC : CheckHolds s a) (ht : s.step a = some t) :
    t.Inv := by
  cases a with
  | call i e =>
    simp only [Pool.step] at ht
    split at ht
    · simp at ht
    · split at ht
      · next hacc =>
        obtain rfl := Option.some.inj ht
        exact h.called hacc hC
      · obtain rfl := Option.some.inj ht
        exact h
  | resume i =>
    obtain ⟨⟨e, p⟩, hi, rfl⟩ := Option.map_eq_some_iff.mp ht
    cases p with
    | select => exact h.moved rfl (by rintro _ _ ⟨⟩ _ hop; exact ⟨_, hi, by simp, hop⟩)
    | track => exact h.moved rfl (by simp)
    | write existing =>
      simp only [resumeApply]
      cases hw : writeRow s.replica.agents existing e with
      | none => exact h.moved rfl (by simp)
      | some agents => exact h.written hi (writeRow_written hw)
  | raise i =>
    obtain rfl := Option.some.inj ht
    exact h.moved rfl (by simp)

theorem Pool.Inv.versionsKept (h : s.Inv) (a : ApplyAct) : VersionsKept s a := by
  intro t ht id row row' hrow hrow'
  have hsame (hagents : t.replica.agents = s.replica.agents) : row.version ≤ row'.version := by
    rw [hagents, hrow] at hrow'
    exact (congrArg AgentRow.version (Option.some.inj hrow')).le
  cases a with
  | call i e =>
    simp only [Pool.step] at ht
    split at ht
    · simp at ht
    · split at ht <;> obtain rfl := Option.some.inj ht <;> exact hsame rfl
  | resume i =>
    obtain ⟨⟨e, p⟩, hi, rfl⟩ := Option.map_eq_some_iff.mp ht
    cases p with
    | select => exact hsame rfl
    | track => exact hsame rfl
    | write existing =>
      simp only [resumeApply] at hrow' hsame
      cases hw : writeRow s.replica.agents existing e with
      | none => exact hsame (by rw [hw]; rfl)
      | some agents =>
        rw [hw] at hrow'
        replace hw := writeRow_written hw
        by_cases hid : id = e.id
        · subst hid
          rcases hw.version hrow' with ⟨row₀, hrow₀, hv⟩ | ⟨hop, hv⟩
          · rw [hrow] at hrow₀
            rw [hv, Option.some.inj hrow₀]
          · rw [hv]
            exact h.ahead i e ⟨_, hi, by simp, hop⟩ row hrow
        · rw [Option.map_some] at hrow'
          dsimp only at hrow'
          rw [hw.lookup_ne hid, hrow] at hrow'
          exact (congrArg AgentRow.version (Option.some.inj hrow')).le
  | raise i =>
    obtain rfl := Option.some.inj ht
    exact hsame rfl

end Step

theorem concurrent_apply_keeps_versions {r : Replica} {acts : List ApplyAct}
    (h : applies.Meets CheckHolds (Pool.start r) acts) :
    applies.Meets VersionsKept (Pool.start r) acts :=
  applies.meets_of_invariant (I := Pool.Inv) (fun _ _ _ hI hC ht => hI.step hC ht)
    (fun _ a hI _ => hI.versionsKept a) (Pool.inv_start r) h

theorem concurrent_apply_keeps_versions_two :
    applies.Meets VersionsKept (Pool.start .empty)
      [.call 0 ⟨1, none, none, "acs", "A", 1, none⟩, .call 1 ⟨2, none, none, "acs", "B", 1, none⟩,
        .resume 0, .resume 1, .resume 1, .resume 0] := by
  apply concurrent_apply_keeps_versions
  refine ⟨fun _ _ => ⟨by simp [Pool.start, Replica.empty], ?_⟩, fun s hs => ⟨fun _ _ => ?_, ?_⟩⟩
  · rintro j d ⟨p, hp, _⟩
    simp [Pool.start] at hp
  · obtain rfl := Option.some.inj hs
    refine ⟨by simp [Pool.start, Replica.empty], ?_⟩
    intro j d hj hid
    rcases inFlight_update (s := Pool.start .empty) hj with ⟨_, q, hq, _⟩ | ⟨q, hq, _⟩
    · obtain ⟨rfl, _⟩ := Prod.mk.inj (Option.some.inj hq)
      exact absurd hid (by decide)
    · simp [Pool.start] at hq
  · exact fun t _ => ⟨trivial, fun _ _ => ⟨trivial, fun _ _ => ⟨trivial, fun _ _ =>
      ⟨trivial, fun _ _ => trivial⟩⟩⟩⟩

theorem older_version_overwrites :
    ¬ applies.Meets VersionsKept (Pool.start .empty)
      [.call 0 ⟨2, none, none, "acs", "A", 2, none⟩, .call 1 ⟨1, none, none, "acs", "A", 1, none⟩,
        .resume 0, .resume 0, .resume 1, .resume 1] := by
  intro h
  have hlast := (((((h.2 _ rfl).2 _ rfl).2 _ rfl).2 _ rfl).2 _ rfl).1
  exact absurd (hlast _ rfl "A" ⟨2, 2, none⟩ ⟨1, 1, none⟩ (by decide) (by decide)) (by decide)

end Acps.Discovery
