import Acps.Discovery.State

/-!
Whether the order and the repetition of envelopes matter to what the replica ends up with.
-/

namespace Acps.Discovery

open Dsp LastWriter

def VersionsDistinct (es : List Envelope) : Prop :=
  ∀ e ∈ es, ∀ d ∈ es, e.type = d.type → e.id = d.id → e.version = d.version → e = d

def Latest (es : List Envelope) (e : Envelope) : Prop :=
  e ∈ es ∧ e.type = "acs" ∧ ∀ d ∈ es, d.type = "acs" → d.id = e.id → d.version ≤ e.version

def envelopeEffect (e : Envelope) : Option AgentRow :=
  if e.isDelete then none else some (envelopeRow e)

def LatestWins (es : List Envelope) (agents : Database) : Prop :=
  (∀ e, Latest es e → agents.lookup e.id = envelopeEffect e) ∧
    ∀ id, (∀ e ∈ es, isAcsOf id e = false) → agents.lookup id = none

/-- The latest envelope of every agent is an upsert of a positive version, or a delete of an agent
that no other envelope could bring back. -/
def LatestSettled (es : List Envelope) : Prop :=
  ∀ e, Latest es e → if e.isDelete then
      ∀ d ∈ es, d.type = "acs" → d.id = e.id → d.isDelete = false → d.version ≤ 0
    else 0 < e.version

theorem isAcsOf_iff {id : String} {e : Envelope} : isAcsOf id e ↔ e.type = "acs" ∧ e.id = id := by
  simp [isAcsOf]

theorem mem_acsWrites {id : String} {es : List Envelope} {w : Write ℤ AgentRow} :
    w ∈ acsWrites id es ↔ ∃ e ∈ es, (e.type = "acs" ∧ e.id = id) ∧ toWrite e = w := by
  simp only [acsWrites, List.mem_map, List.mem_filter, isAcsOf_iff, and_assoc]

theorem toWrite_of_delete {e : Envelope} (h : e.isDelete = true) : toWrite e = .remove e.version :=
  if_pos h

theorem toWrite_of_upsert {e : Envelope} (h : e.isDelete = false) :
    toWrite e = .put e.version (envelopeRow e) := if_neg (by simp [h])

theorem toWrite_eq_put {e : Envelope} {v : ℤ} {row : AgentRow} (h : toWrite e = .put v row) :
    e.isDelete = false ∧ e.version = v := by
  cases hdel : e.isDelete with
  | true => simp [toWrite_of_delete hdel] at h
  | false =>
    rw [toWrite_of_upsert hdel] at h
    exact ⟨rfl, (Write.put.inj h).1⟩

section Writes

variable {es : List Envelope}

theorem VersionsDistinct.versioned (h : VersionsDistinct es) (id : String) :
    Versioned (acsWrites id es) := by
  intro w hw u hu hv
  obtain ⟨e, he, ⟨het, hei⟩, rfl⟩ := mem_acsWrites.mp hw
  obtain ⟨d, hd, ⟨hdt, hdi⟩, rfl⟩ := mem_acsWrites.mp hu
  rw [toWrite_version, toWrite_version] at hv
  rw [h e he d hd (het.trans hdt.symm) (hei.trans hdi.symm) hv]

theorem Latest.newest {e : Envelope} (h : Latest es e) : Newest (acsWrites e.id es) (toWrite e) := by
  refine ⟨mem_acsWrites.mpr ⟨e, h.1, ⟨h.2.1, rfl⟩, rfl⟩, ?_⟩
  intro u hu
  obtain ⟨d, hd, ⟨hdt, hdi⟩, rfl⟩ := mem_acsWrites.mp hu
  rw [toWrite_version, toWrite_version]
  exact h.2.2 d hd hdt hdi

theorem settled_toWrite_iff {e : Envelope} : Settled 0 (acsWrites e.id es) (toWrite e) ↔
    if e.isDelete then
      ∀ d ∈ es, d.type = "acs" → d.id = e.id → d.isDelete = false → d.version ≤ 0
    else 0 < e.version := by
  cases hdel : e.isDelete with
  | true =>
    rw [toWrite_of_delete hdel, if_pos rfl]
    constructor
    · intro h d hd hdt hdi hup
      exact not_lt.mp (h d.version (envelopeRow d)
        (mem_acsWrites.mpr ⟨d, hd, ⟨hdt, hdi⟩, toWrite_of_upsert hup⟩))
    · intro h v row hmem
      obtain ⟨d, hd, ⟨hdt, hdi⟩, hw⟩ := mem_acsWrites.mp hmem
      obtain ⟨hup, rfl⟩ := toWrite_eq_put hw
      exact (h d hd hdt hdi hup).not_gt
  | false =>
    rw [toWrite_of_upsert hdel, if_neg (by simp)]
    exact Iff.rfl

theorem mem_acsWrites_congr {ds : List Envelope} (h : ∀ e, e ∈ ds ↔ e ∈ es) (id : String)
    (w : Write ℤ AgentRow) : w ∈ acsWrites id ds ↔ w ∈ acsWrites id es := by
  simp only [mem_acsWrites, h]

theorem lookup_applyAll {id : String} {row : AgentRow} :
    (Replica.empty.applyAll es).agents.lookup id = some row ↔
      run 0 none (acsWrites id es) = some (row.version, row) := by
  rw [← Replica.cell_eq_some, tracked_empty.cell_applyAll]
  rfl

theorem lookup_applyAll_none {id : String} :
    (Replica.empty.applyAll es).agents.lookup id = none ↔ run 0 none (acsWrites id es) = none := by
  rw [← Replica.cell_eq_none, tracked_empty.cell_applyAll]
  rfl

theorem lookup_applyAll_iff_effect {ds : List Envelope} {e : Envelope} :
    (Replica.empty.applyAll ds).agents.lookup e.id = envelopeEffect e ↔
      run 0 none (acsWrites e.id ds) = (toWrite e).effect := by
  rw [toWrite_effect, envelopeEffect]
  cases e.isDelete with
  | true => exact lookup_applyAll_none
  | false => exact lookup_applyAll

end Writes

section Lookup

variable {r : Replica} {es : List Envelope}

theorem Replica.Tracked.lookup_applyAll_absent (h : r.Tracked) {id : String}
    (hid : ∀ e ∈ es, e.type = "acs" → e.id ≠ id) :
    (r.applyAll es).agents.lookup id = r.agents.lookup id := by
  have hnil : acsWrites id es = [] := by
    rw [acsWrites, List.map_eq_nil_iff, List.filter_eq_nil_iff]
    intro e he hacs
    exact hid e he (isAcsOf_iff.mp hacs).1 (isAcsOf_iff.mp hacs).2
  have hcell := h.cell_applyAll es id
  rw [hnil, run_nil] at hcell
  cases hrow : r.agents.lookup id with
  | none =>
    rw [← Replica.cell_eq_none] at hrow ⊢
    exact hcell.trans hrow
  | some row =>
    rw [← Replica.cell_eq_some] at hrow ⊢
    exact hcell.trans hrow

theorem Replica.Tracked.lookup_applyAll_newest (h : r.Tracked) {e : Envelope} (he : e ∈ es)
    (htype : e.type = "acs") (hop : e.isDelete = false) (hpos : 0 < e.version)
    (hrow : ∀ row, r.agents.lookup e.id = some row → row.version < e.version)
    (hmax : ∀ d ∈ es, d.type = "acs" → d.id = e.id → d = e ∨ d.version < e.version) :
    (r.applyAll es).agents.lookup e.id = some (envelopeRow e) := by
  rw [← Replica.cell_eq_some, h.cell_applyAll]
  refine run_newest_put (v := e.version) ?_ hpos
    (mem_acsWrites.mpr ⟨e, he, ⟨htype, rfl⟩, toWrite_of_upsert hop⟩) ?_
  · cases hl : r.agents.lookup e.id with
    | none => rwa [Replica.cell_eq_none.mpr hl, level_none]
    | some row =>
      rw [Replica.cell_eq_some.mpr hl, level_some]
      exact hrow row hl
  · intro w hw
    obtain ⟨d, hd, ⟨hdt, hdi⟩, rfl⟩ := mem_acsWrites.mp hw
    rcases hmax d hd hdt hdi with rfl | hlt
    · exact .inl (toWrite_of_upsert hop)
    · exact .inr (by rwa [toWrite_version])

theorem Replica.Tracked.lookup_applyAll_stale (h : r.Tracked) {id : String} {row : AgentRow}
    (hrow : r.agents.lookup id = some row)
    (hes : ∀ e ∈ es, e.type = "acs" → e.id = id → e.version ≤ row.version) :
    (r.applyAll es).agents.lookup id = some row := by
  rw [← Replica.cell_eq_some] at hrow ⊢
  rw [h.cell_applyAll, run_of_level_ge, hrow]
  intro w hw
  obtain ⟨e, he, ⟨het, hei⟩, rfl⟩ := mem_acsWrites.mp hw
  rw [hrow, level_some, toWrite_version]
  exact hes e he het hei

end Lookup

theorem latestWins_of_settled {es ds : List Envelope} (h : VersionsDistinct es)
    (hs : LatestSettled es) (hds : ∀ e, e ∈ ds ↔ e ∈ es) :
    LatestWins es (Replica.empty.applyAll ds).agents := by
  have hw := mem_acsWrites_congr hds
  constructor
  · intro e he
    rw [lookup_applyAll_iff_effect]
    have hsettled := settled_toWrite_iff.mpr (hs e he)
    refine run_of_settled ((h.versioned e.id).of_subset fun w => (hw e.id w).mp)
      ⟨(hw e.id _).mpr he.newest.1, fun u hu => he.newest.2 u ((hw e.id u).mp hu)⟩ ?_
    exact Settled.of_subset hsettled fun u => (hw e.id u).mp
  · intro id hid
    rw [lookup_applyAll_none]
    apply run_none_of_no_put
    intro v row hmem
    obtain ⟨e, he, hacs, _⟩ := mem_acsWrites.mp ((hw id _).mp hmem)
    exact absurd (isAcsOf_iff.mpr hacs) (by simp [hid e he])

theorem settled_of_latestWins {es : List Envelope} (h : VersionsDistinct es)
    (hall : ∀ ds, (∀ e, e ∈ ds ↔ e ∈ es) → LatestWins es (Replica.empty.applyAll ds).agents) :
    LatestSettled es := by
  intro e he
  by_contra hns
  rw [← settled_toWrite_iff] at hns
  have hv := h.versioned e.id
  cases hdel : e.isDelete with
  | false =>
    have hrun := lookup_applyAll_iff_effect.mp ((hall es fun _ => Iff.rfl).1 e he)
    have hw : toWrite e = .put e.version (envelopeRow e) := toWrite_of_upsert hdel
    rw [hw] at hrun hns
    rcases run_eq_some (c := none) le_rfl hrun with hc | ⟨_, hpos⟩
    · exact absurd hc (by simp)
    · exact hns hpos
  | true =>
    rw [toWrite_of_delete hdel] at hns
    obtain ⟨v, row, hmem, hpos⟩ : ∃ v row, Write.put v row ∈ acsWrites e.id es ∧ 0 < v := by
      by_contra hno
      push Not at hno
      exact hns fun v row hmem => (hno v row hmem).not_gt
    obtain ⟨d, hd, hdacs, hput⟩ := mem_acsWrites.mp hmem
    have hds : ∀ x, x ∈ es ++ [e, d] ↔ x ∈ es := by
      intro x
      simp only [List.mem_append, List.mem_cons, List.not_mem_nil, or_false]
      exact ⟨fun hx => hx.elim id (by rintro (rfl | rfl) <;> [exact he.1; exact hd]), .inl⟩
    have hrun := lookup_applyAll_iff_effect.mp ((hall _ hds).1 e he)
    have hwrites : acsWrites e.id (es ++ [e, d]) =
        acsWrites e.id es ++ [.remove e.version, .put v row] := by
      simp only [acsWrites, List.filter_append, List.map_append]
      rw [List.filter_cons_of_pos (isAcsOf_iff.mpr ⟨he.2.1, rfl⟩),
        List.filter_cons_of_pos (isAcsOf_iff.mpr hdacs), List.filter_nil, List.map_cons,
        List.map_cons, List.map_nil, hput, toWrite_of_delete hdel]
    have hnewest := he.newest
    rw [toWrite_of_delete hdel] at hnewest hrun
    rw [hwrites, run_append_unsettled hv hnewest hmem hpos] at hrun
    exact absurd hrun (by simp [Write.effect])

theorem apply_order_insensitive_iff {es : List Envelope} (h : VersionsDistinct es) :
    (∀ ds, (∀ e, e ∈ ds ↔ e ∈ es) → LatestWins es (Replica.empty.applyAll ds).agents) ↔
      LatestSettled es :=
  ⟨settled_of_latestWins h, fun hs _ hds => latestWins_of_settled h hs hds⟩

theorem apply_order_insensitive_two :
    (∀ ds, (∀ e, e ∈ ds ↔ e ∈ [⟨1, none, none, "acs", "A", 1, none⟩,
        (⟨2, none, none, "acs", "A", 2, none⟩ : Envelope)]) →
      LatestWins [⟨1, none, none, "acs", "A", 1, none⟩, ⟨2, none, none, "acs", "A", 2, none⟩]
        (Replica.empty.applyAll ds).agents) ↔
      LatestSettled [⟨1, none, none, "acs", "A", 1, none⟩, ⟨2, none, none, "acs", "A", 2, none⟩] :=
  apply_order_insensitive_iff (by unfold VersionsDistinct; decide)

def deleteBeforeUpsert : List Envelope :=
  [⟨2, none, some .delete, "acs", "A", 2, none⟩, ⟨1, none, some .upsert, "acs", "A", 1, none⟩]

theorem late_upsert_resurrects : VersionsDistinct deleteBeforeUpsert ∧
    ¬ ∀ ds, (∀ e, e ∈ ds ↔ e ∈ deleteBeforeUpsert) →
      LatestWins deleteBeforeUpsert (Replica.empty.applyAll ds).agents := by
  refine ⟨by unfold VersionsDistinct; decide, fun hall => ?_⟩
  have hwins := hall deleteBeforeUpsert fun _ => Iff.rfl
  have hrow := hwins.1 ⟨2, none, some .delete, "acs", "A", 2, none⟩ (by unfold Latest; decide)
  revert hrow
  decide

end Acps.Discovery
