import Acps.Assistant.Planner

/-!
What a plan selects comes from the candidates as far as the answer of the language model did: the plan
that is built when the answer selects nobody does, and the others keep what the answer selected.
-/

namespace Acps.Assistant.Planner

open Aic (Text)

variable {acsCache : List JsonObject} {dimensions : List DimensionDef} {partners : DimensionPartnerMap} {result : PlanningResult}
  {dimId : String} {s : PartnerSelection}

def Offered (partners : DimensionPartnerMap) (dimId : String) (s : PartnerSelection) : Prop :=
  ∃ c ∈ partners.candidates dimId,
    c.partnerAic = s.partnerAic ∧ s.skillId ∈ c.skills.map PartnerSkillInfo.id

instance : Decidable (Offered partners dimId s) :=
  inferInstanceAs (Decidable (∃ c ∈ partners.candidates dimId, _ ∧ _))

structure Confined (dimensions : List DimensionDef) (partners : DimensionPartnerMap)
    (result : PlanningResult) : Prop where
  covers : ∀ dim ∈ dimensions, dim.id ∈ result.selectedPartners.keys
  offered : ∀ a ∈ result.assigned, Offered partners a.1 a.2
  selects : (∃ dim ∈ dimensions, (primary partners dim.id).isSome) → result.assigned ≠ []

section Cover

theorem mem_assigned_coverDimension {a : String × PartnerSelection} :
    a ∈ (coverDimension result dimId).assigned ↔ a ∈ result.assigned := by
  unfold coverDimension
  split
  next => rfl
  next hnew =>
    rw [PlanningResult.mem_assigned, PlanningResult.mem_assigned]
    constructor
    · rintro ⟨selections, he, hs⟩
      rcases Dict.mem_entries_set.mp he with ⟨-, rfl⟩ | ⟨-, he⟩
      · cases hs
      · exact ⟨selections, he, hs⟩
    · rintro ⟨selections, he, hs⟩
      have hne : a.1 ≠ dimId := by
        rintro rfl
        exact hnew (Dict.mem_keys_of_mem he)
      exact ⟨selections, Dict.mem_entries_set.mpr (.inr ⟨hne, he⟩), hs⟩

theorem mem_keys_coverDimension {k : String} :
    k ∈ (coverDimension result dimId).selectedPartners.keys ↔
      k = dimId ∨ k ∈ result.selectedPartners.keys := by
  unfold coverDimension
  split
  next hold =>
    constructor
    · exact Or.inr
    · rintro (rfl | h)
      · exact hold
      · exact h
  next => exact Dict.mem_keys_set

theorem mem_assigned_cover {dimIds : List String} {a : String × PartnerSelection} :
    a ∈ (dimIds.foldl coverDimension result).assigned ↔ a ∈ result.assigned := by
  induction dimIds generalizing result with
  | nil => rfl
  | cons dimId dimIds ih => rw [List.foldl_cons, ih, mem_assigned_coverDimension]

theorem mem_keys_cover {dimIds : List String} {k : String} :
    k ∈ (dimIds.foldl coverDimension result).selectedPartners.keys ↔
      k ∈ dimIds ∨ k ∈ result.selectedPartners.keys := by
  induction dimIds generalizing result with
  | nil => simp
  | cons dimId dimIds ih =>
    rw [List.foldl_cons, ih, mem_keys_coverDimension, List.mem_cons]
    tauto

end Cover

section Fallback

theorem primary_offered {dim : DimensionDef} {query : Option Text} {c : PartnerCandidate}
    {skill : PartnerSkillInfo} (h : primary partners dim.id = some (c, skill)) :
    Offered partners dim.id (fallbackSelection acsCache query dim c skill) := by
  unfold primary at h
  simp only [Option.bind_eq_bind, Option.bind_eq_some_iff, Option.pure_def, Option.some.injEq,
    Prod.mk.injEq] at h
  obtain ⟨_, hc, _, hskill, rfl, rfl⟩ := h
  refine ⟨_, List.mem_of_mem_head? hc, rfl, ?_⟩
  exact List.mem_map.mpr ⟨_, List.mem_of_mem_head? hskill, rfl⟩

theorem mem_keys_fallbackDimension {k : String} {dim : DimensionDef}
    (h : k ∈ result.selectedPartners.keys) :
    k ∈ (fallbackDimension acsCache partners result dim).selectedPartners.keys := by
  unfold fallbackDimension
  split
  next => exact h
  next => exact Dict.mem_keys_set.mpr (.inr h)

theorem offered_fallbackDimension {dim : DimensionDef}
    (h : ∀ a ∈ result.assigned, Offered partners a.1 a.2) :
    ∀ a ∈ (fallbackDimension acsCache partners result dim).assigned, Offered partners a.1 a.2 := by
  unfold fallbackDimension
  split
  next => exact h
  next hprimary =>
    intro a ha
    obtain ⟨selections, he, hs⟩ := PlanningResult.mem_assigned.mp ha
    rcases Dict.mem_entries_set.mp he with ⟨hdim, rfl⟩ | ⟨-, he⟩
    · rw [hdim, List.mem_singleton.mp hs]
      exact primary_offered hprimary
    · exact h a (PlanningResult.mem_assigned.mpr ⟨selections, he, hs⟩)

theorem assigned_fallbackDimension_ne_nil {dim : DimensionDef}
    (h : result.assigned ≠ [] ∨ (primary partners dim.id).isSome) :
    (fallbackDimension acsCache partners result dim).assigned ≠ [] := by
  unfold fallbackDimension
  split
  next hnone =>
    rcases h with h | h
    · exact h
    · rw [hnone] at h
      cases h
  next c skill _ =>
    apply List.ne_nil_of_mem (a := (dim.id, fallbackSelection acsCache result.userQuery dim c skill))
    exact PlanningResult.mem_assigned.mpr
      ⟨_, Dict.mem_entries_set.mpr (.inl ⟨rfl, rfl⟩), List.mem_singleton_self _⟩

theorem mem_keys_fallback {k : String} (h : k ∈ result.selectedPartners.keys) :
    k ∈ (dimensions.foldl (fallbackDimension acsCache partners) result).selectedPartners.keys := by
  induction dimensions generalizing result with
  | nil => exact h
  | cons dim dimensions ih => exact ih (mem_keys_fallbackDimension h)

theorem offered_fallback (h : ∀ a ∈ result.assigned, Offered partners a.1 a.2) :
    ∀ a ∈ (dimensions.foldl (fallbackDimension acsCache partners) result).assigned,
      Offered partners a.1 a.2 := by
  induction dimensions generalizing result with
  | nil => exact h
  | cons dim dimensions ih => exact ih (offered_fallbackDimension h)

theorem assigned_fallback_ne_nil
    (h : result.assigned ≠ [] ∨ ∃ dim ∈ dimensions, (primary partners dim.id).isSome) :
    (dimensions.foldl (fallbackDimension acsCache partners) result).assigned ≠ [] := by
  induction dimensions generalizing result with
  | nil =>
    rcases h with h | ⟨dim, hdim, -⟩
    · exact h
    · cases hdim
  | cons dim dimensions ih =>
    apply ih
    rcases h with h | ⟨dim', hdim', hprimary⟩
    · exact .inl (assigned_fallbackDimension_ne_nil (.inl h))
    · rcases List.mem_cons.mp hdim' with rfl | hdim'
      · exact .inl (assigned_fallbackDimension_ne_nil (.inr hprimary))
      · exact .inr ⟨dim', hdim', hprimary⟩

end Fallback

section Normalize

variable {candidateMap : Dict String PartnerCandidate}

theorem offered_normalize :
    (∀ a ∈ (normalizeDuplicatePartnerAssignments candidateMap result).assigned,
      Offered partners a.1 a.2) ↔ ∀ a ∈ result.assigned, Offered partners a.1 a.2 := by
  rw [assigned_normalize, List.forall_mem_map]
  rfl

end Normalize

theorem plan_confined_iff (order : SetOrder) (acsCache : List JsonObject) (nowIso : String)
    (result : PlanningResult) (dimensions : List DimensionDef) (partners : DimensionPartnerMap) :
    Confined dimensions partners
        (validateAndNormalize order acsCache nowIso result dimensions partners) ↔
      ∀ a ∈ result.assigned, Offered partners a.1 a.2 := by
  set covered := (order.iterate (dimensions.map DimensionDef.id)).foldl coverDimension result
    with hcovered
  set filled := if selectionCount covered = 0 then
    applyEmptySelectionFallback acsCache dimensions partners covered else covered with hfilled
  have hassigned : (validateAndNormalize order acsCache nowIso result dimensions partners).assigned =
      (normalizeDuplicatePartnerAssignments (buildPartnerCandidateMap partners) filled).assigned := rfl
  have hkeys : (validateAndNormalize order acsCache nowIso result dimensions
      partners).selectedPartners.keys = filled.selectedPartners.keys := Dict.keys_map
  have hoffered : (∀ a ∈ filled.assigned, Offered partners a.1 a.2) ↔
      ∀ a ∈ result.assigned, Offered partners a.1 a.2 := by
    have hsame : (∀ a ∈ covered.assigned, Offered partners a.1 a.2) ↔
        ∀ a ∈ result.assigned, Offered partners a.1 a.2 :=
      forall_congr' fun a => by rw [hcovered, mem_assigned_cover]
    rw [← hsame, hfilled]
    split
    next hzero =>
      rw [PlanningResult.selectionCount_eq, List.length_eq_zero_iff] at hzero
      have hnone : ∀ a ∈ covered.assigned, Offered partners a.1 a.2 := by
        rw [hzero]
        intro a ha
        cases ha
      exact iff_of_true (offered_fallback hnone) hnone
    next => rfl
  constructor
  · intro h
    exact hoffered.mp (offered_normalize.mp (hassigned ▸ h.offered))
  · intro h
    refine { covers := ?_, offered := ?_, selects := ?_ }
    · intro dim hdim
      rw [hkeys, hfilled]
      have hmem : dim.id ∈ covered.selectedPartners.keys :=
        mem_keys_cover.mpr (.inl (order.mem_iterate.mpr (List.mem_map_of_mem hdim)))
      split
      next => exact mem_keys_fallback hmem
      next => exact hmem
    · rw [hassigned]
      exact offered_normalize.mpr (hoffered.mpr h)
    · intro hprimary
      rw [hassigned, assigned_normalize, ne_eq, List.map_eq_nil_iff, hfilled]
      split
      next => exact assigned_fallback_ne_nil (.inr hprimary)
      next hcount =>
        rw [PlanningResult.selectionCount_eq, List.length_eq_zero_iff] at hcount
        exact hcount

namespace Sample

def order : SetOrder := ⟨id, Iff.rfl⟩

def hotel : DimensionDef := ⟨"hotel", "酒店"⟩

def stranger : PartnerSelection where
  partnerAic := "stranger"
  skillId := "book"
  reason := "best match"
  instructionText := "book a room".toList

def answer : PlanningResult where
  createdAt := none
  scenarioId := some "trip"
  userQuery := none
  selectedPartners := Dict.empty.set "hotel" [stranger]
  dimensionNotes := none

def offers : DimensionPartnerMap :=
  Dict.empty.set "hotel" [⟨"inn", "Inn", [⟨"book", "Book"⟩]⟩]

end Sample

theorem stranger_planned : ¬ Confined [Sample.hotel] Sample.offers
    (validateAndNormalize Sample.order [] "now" Sample.answer [Sample.hotel] Sample.offers) := by
  have hnot : ¬ ∀ a ∈ (validateAndNormalize Sample.order [] "now" Sample.answer [Sample.hotel]
      Sample.offers).assigned, Offered Sample.offers a.1 a.2 := by
    decide +kernel
  exact fun h => hnot h.offered

end Acps.Assistant.Planner
