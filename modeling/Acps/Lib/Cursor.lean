import Mathlib.Data.List.Perm.Subperm
import Mathlib.Order.Lattice

/-!
Polling a growing history with a cursor: a poll brings the entries whose stamps are greater than all
those received before.
-/

namespace Acps

structure Polled (α : Type) where
  history : List α
  received : List α

namespace Polled

variable {α σ : Type} [LinearOrder σ] (stamp : α → σ) (p : Polled α)

def Passed (entry : α) : Prop := ∃ old ∈ p.received, stamp entry ≤ stamp old

instance (entry : α) : Decidable (p.Passed stamp entry) :=
  inferInstanceAs (Decidable (∃ old ∈ p.received, stamp entry ≤ stamp old))

def arrive (entry : α) : Polled α := { p with history := p.history ++ [entry] }

def newer : List α := p.history.filter fun entry => ¬ p.Passed stamp entry

def passed : List α := p.history.filter fun entry => p.Passed stamp entry

def poll : Polled α := { p with received := p.received ++ p.newer stamp }

def Sound : Prop := p.received.Subperm (p.passed stamp)

def Whole : Prop := p.received.Perm (p.passed stamp)

variable {stamp : α → σ} {p : Polled α} {entry : α}

theorem passed_append_newer : (p.passed stamp ++ p.newer stamp).Perm p.history := by
  have h := List.filter_append_perm (fun entry => decide (p.Passed stamp entry)) p.history
  simpa only [passed, newer, decide_not] using h

theorem passed_arrive_of_passed (h : p.Passed stamp entry) :
    (p.arrive entry).passed stamp = p.passed stamp ++ [entry] := by
  have hlast : [entry].filter (fun entry => p.Passed stamp entry) = [entry] :=
    List.filter_eq_self.mpr fun other hother => by
      rw [List.mem_singleton.mp hother]
      exact decide_eq_true h
  calc (p.arrive entry).passed stamp
      = (p.history ++ [entry]).filter fun entry => p.Passed stamp entry := rfl
    _ = p.passed stamp ++ [entry] := by rw [List.filter_append, hlast]; rfl

theorem passed_arrive_of_not_passed (h : ¬ p.Passed stamp entry) :
    (p.arrive entry).passed stamp = p.passed stamp := by
  have hlast : [entry].filter (fun entry => p.Passed stamp entry) = [] :=
    List.filter_eq_nil_iff.mpr fun other hother hpassed => by
      rw [List.mem_singleton.mp hother] at hpassed
      exact h (of_decide_eq_true hpassed)
  calc (p.arrive entry).passed stamp
      = (p.history ++ [entry]).filter fun entry => p.Passed stamp entry := rfl
    _ = p.passed stamp ++ [] := by rw [List.filter_append, hlast]; rfl
    _ = p.passed stamp := List.append_nil _

theorem passed_poll : (p.poll stamp).passed stamp = p.history := by
  apply List.filter_eq_self.mpr
  intro entry hentry
  apply decide_eq_true
  by_cases h : p.Passed stamp entry
  · obtain ⟨old, hold, hle⟩ := h
    exact ⟨old, List.mem_append_left _ hold, hle⟩
  · refine ⟨entry, List.mem_append_right _ ?_, le_refl _⟩
    exact List.mem_filter.mpr ⟨hentry, decide_eq_true h⟩

theorem sound_arrive (h : p.Sound stamp) (entry : α) : (p.arrive entry).Sound stamp := by
  unfold Sound
  by_cases hpassed : p.Passed stamp entry
  · rw [passed_arrive_of_passed hpassed]
    exact h.trans (List.sublist_append_left _ _).subperm
  · rw [passed_arrive_of_not_passed hpassed]
    exact h

theorem sound_poll (h : p.Sound stamp) : (p.poll stamp).Sound stamp := by
  unfold Sound
  rw [passed_poll]
  exact ((List.subperm_append_right _).mpr h).trans passed_append_newer.subperm

theorem whole_arrive_iff (h : p.Sound stamp) :
    (p.arrive entry).Whole stamp ↔ p.Whole stamp ∧ ¬ p.Passed stamp entry := by
  unfold Whole
  by_cases hpassed : p.Passed stamp entry
  · rw [passed_arrive_of_passed hpassed]
    apply iff_of_false
    · intro hwhole
      have hlength := hwhole.length_eq
      have hle := h.length_le
      rw [List.length_append, List.length_singleton] at hlength
      have hreceived : (p.arrive entry).received.length = p.received.length := rfl
      omega
    · exact fun hboth => hboth.2 hpassed
  · rw [passed_arrive_of_not_passed hpassed]
    exact (and_iff_left hpassed).symm

theorem whole_poll_iff : (p.poll stamp).Whole stamp ↔ p.Whole stamp := by
  unfold Whole
  rw [passed_poll]
  constructor
  · intro h
    exact (List.perm_append_right_iff _).mp (h.trans passed_append_newer.symm)
  · intro h
    exact ((List.perm_append_right_iff _).mpr h).trans passed_append_newer

theorem received_poll_iff : (p.poll stamp).received.Perm p.history ↔ p.Whole stamp := by
  rw [← whole_poll_iff]
  unfold Whole
  rw [passed_poll]

end Polled

end Acps
