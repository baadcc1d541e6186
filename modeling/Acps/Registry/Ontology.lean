import Acps.Aic.Issue
import Acps.Registry.Announced

/-!
Entities and the ontology they are derived from. What a cascade reaches is read off the first eight
levels of the AICs; an enabled entity is not held against its ontology.
-/

namespace Acps.Registry

open Dsp

variable {H : Type}

section Like

theorem like_cons {c : Char} (hc : c ≠ '%' ∧ c ≠ '_' ∧ c ≠ '\\') (p s : Aic.Text) :
    like (c :: p) s = (decide (s.head? = some c) && like p s.tail) := by
  obtain ⟨h₁, h₂, h₃⟩ := hc
  rw [like.eq_def]
  split <;> simp_all

theorem like_prefix_iff {p : Aic.Text} (hp : ∀ c ∈ p, c ≠ '%' ∧ c ≠ '_' ∧ c ≠ '\\') (s : Aic.Text) :
    like (p ++ ['%']) s = true ↔ p <+: s := by
  induction p generalizing s with
  | nil =>
    rw [List.nil_append, like]
    simp only [List.nil_prefix, iff_true]
    exact List.any_eq_true.mpr ⟨[], by simp, rfl⟩
  | cons c p ih =>
    have htail := ih fun d hd => hp d (List.mem_cons_of_mem _ hd)
    rw [List.cons_append, like_cons (hp c (by simp))]
    cases s with
    | nil => simp
    | cons d s =>
      simp only [List.head?_cons, List.tail_cons, Bool.and_eq_true, decide_eq_true_eq,
        Option.some.injEq, htail, List.cons_prefix_cons]
      exact and_congr eq_comm Iff.rfl

end Like

section Lineage

variable (S : AicSettings)

def levelsOf (aic : String) : List Aic.Text := Aic.levels S.upperCase aic.toList

def SameLineage (a b : Agent H) : Prop :=
  ∃ x y, a.aic = some x ∧ b.aic = some y ∧ levelsOf S x = levelsOf S y

theorem SameLineage.symm {S : AicSettings} {a b : Agent H} (h : SameLineage S a b) :
    SameLineage S b a := by
  obtain ⟨x, y, hx, hy, hlevels⟩ := h
  exact ⟨y, x, hy, hx, hlevels.symm⟩

theorem SameLineage.trans {S : AicSettings} {a b c : Agent H} (h : SameLineage S a b)
    (h' : SameLineage S b c) : SameLineage S a c := by
  obtain ⟨x, y, hx, hy, hlevels⟩ := h
  obtain ⟨y', z, hy', hz, hlevels'⟩ := h'
  obtain rfl := Option.some.inj (hy.symm.trans hy')
  exact ⟨x, z, hx, hz, hlevels.trans hlevels'⟩

theorem SameLineage.of_aic {S : AicSettings} {a b a' b' : Agent H} (h : SameLineage S a b)
    (ha : a'.aic = a.aic) (hb : b'.aic = b.aic) : SameLineage S a' b' := by
  obtain ⟨x, y, hx, hy, hlevels⟩ := h
  exact ⟨x, y, ha.trans hx, hb.trans hy, hlevels⟩

def EntitiesFollow (r : Database H) : Prop :=
  ∀ o ∈ r.tables.agents, o.id ∈ r.ontologies → ∀ b ∈ r.tables.agents, b.id ≠ o.id →
    SameLineage S o b → o.isDisabled = true ∨ o.isDeleted = true → b.isActive = false

def OntologyStands (r : Database H) (ls : List Aic.Text) : Prop :=
  ∀ o ∈ r.tables.agents, o.id ∈ r.ontologies → ∀ x, o.aic = some x → levelsOf S x = ls →
    o.isDisabled = false ∧ o.isDeleted = false

/-- Where a command makes an agent active, no other ontology with the agent's levels is deleted,
and none is disabled unless the command enables an ontology with all that is derived from it. -/
def OntologyHeld (r : Database H) : Timestamp × Command → Prop
  | (_, .approve id _ providerCode ontologySerial instanceSerial) =>
    ∀ newAic, issueAgentAic S (r.isOntology id) providerCode ontologySerial instanceSerial =
      .ok newAic → OntologyStands S r (levelsOf S (String.ofList newAic))
  | (_, .registerEntity _ ontologyAic _ _) => OntologyStands S r (levelsOf S ontologyAic)
  | (_, .enable id _) =>
    ∀ b ∈ r.tables.agents, b.id = id → ∀ o ∈ r.tables.agents, o.id ∈ r.ontologies → o.id ≠ id →
      SameLineage S o b → o.isDeleted = false ∧ (id ∈ r.ontologies ∨ o.isDisabled = false)
  | _ => True

structure Kept (r : Database H) : Prop where
  consistent : r.tables.Consistent
  flagged : ∀ a ∈ r.tables.agents, Flagged a
  issued : ∀ a ∈ r.tables.agents, ∀ x, a.aic = some x →
    Aic.Issued S.upperCase S.aicCrcSalt x.toList
  follow : EntitiesFollow S r

variable {S} {r r' : Database H}

theorem EntitiesFollow.empty : EntitiesFollow S (Database.empty : Database H) := by
  intro o ho
  simp [Database.empty, Tables.empty] at ho

theorem Kept.empty : Kept S (Database.empty : Database H) where
  consistent := .empty
  flagged a ha := by simp [Database.empty, Tables.empty] at ha
  issued a ha := by simp [Database.empty, Tables.empty] at ha
  follow := .empty

structure Joins (S : AicSettings) (r : Database H) (c : Agent H) (x : String) : Prop where
  issued : Aic.Issued S.upperCase S.aicCrcSalt x.toList
  isDisabled : c.isDisabled = false
  isDeleted : c.isDeleted = false
  stands : OntologyStands S r (levelsOf S x)

theorem Kept.joined (h : Kept S r) (hcons : r'.tables.Consistent)
    (hflagged : ∀ a ∈ r'.tables.agents, Flagged a)
    (hont : ∀ b ∈ r.tables.agents, b.id ∈ r'.ontologies → b.id ∈ r.ontologies)
    (hview : ∀ c ∈ r'.tables.agents, (∃ b ∈ r.tables.agents, b.id = c.id ∧ b.aic = c.aic ∧
      flags c = flags b) ∨ ∀ x, c.aic = some x → Joins S r c x) : Kept S r' where
  consistent := hcons
  flagged := hflagged
  issued c hc x hx := by
    rcases hview c hc with ⟨b, hb, _, haic, _⟩ | hjoins
    · exact h.issued b hb x (haic.trans hx)
    · exact (hjoins x hx).issued
  follow o ho hoo b hb hne hsame hdown := by
    obtain ⟨x, y, hx, hy, hlevels⟩ := hsame
    rcases hview o ho with ⟨o', ho', hoid, hoaic, hoflags⟩ | hjoins
    · have hdown' : o'.isDisabled = true ∨ o'.isDeleted = true := by
        have h₁ : o.isDisabled = o'.isDisabled := congrArg (·.2.2.2.1) hoflags
        have h₂ : o.isDeleted = o'.isDeleted := congrArg (·.2.1) hoflags
        rwa [h₁, h₂] at hdown
      have hoo' : o'.id ∈ r.ontologies := hont o' ho' (hoid ▸ hoo)
      rcases hview b hb with ⟨b', hb', hbid, hbaic, hbflags⟩ | hjoins
      · have hactive : b.isActive = b'.isActive := congrArg Prod.fst hbflags
        rw [hactive]
        exact h.follow o' ho' hoo' b' hb' (by rwa [hbid, hoid])
          ⟨x, y, hoaic.trans hx, hbaic.trans hy, hlevels⟩ hdown'
      · obtain ⟨h₁, h₂⟩ := (hjoins y hy).stands o' ho' hoo' x (hoaic.trans hx) hlevels
        simp [h₁, h₂] at hdown'
    · have hj := hjoins x hx
      simp [hj.isDisabled, hj.isDeleted] at hdown

theorem Kept.ne_empty (h : Kept S r) {a : Agent H} (ha : a ∈ r.tables.agents) {x : String}
    (hx : a.aic = some x) : x ≠ "" := by
  rintro rfl
  have hcount := (h.issued a ha "" hx).wellFormed.count
  rw [String.toList_empty, Aic.splitAic_nil] at hcount
  cases hcount

theorem wildcard_free {x : Aic.Text} (h : Aic.Issued S.upperCase S.aicCrcSalt x) :
    ∀ c ∈ Aic.join (Aic.levels S.upperCase x) ++ ['.'], c ≠ '%' ∧ c ≠ '_' ∧ c ≠ '\\' := by
  intro c hc
  have hc' : c = '.' ∨ Aic.isBase36 c = true := by
    rcases List.mem_append.mp hc with hc | hc
    · rcases Aic.mem_join hc with hdot | ⟨p, hp, hcp⟩
      · exact .inl hdot
      · have hbase := h.reBase36 p (List.mem_of_mem_take hp)
        exact .inr ((Aic.reBase36_iff.mp hbase).2 c hcp)
    · exact .inl (List.mem_singleton.mp hc)
  rcases hc' with rfl | hbase
  · decide
  · exact Aic.not_wildcard_of_isBase36 hbase

theorem Kept.like_iff (h : Kept S r) {a b : Agent H} (ha : a ∈ r.tables.agents)
    (hb : b ∈ r.tables.agents) {x : String} (hx : a.aic = some x) :
    b.aic.any (fun y => like (Aic.join (levelsOf S x) ++ ['.'] ++ ['%']) y.toList) = true ↔
      SameLineage S a b := by
  have hissued := h.issued a ha x hx
  cases hy : b.aic with
  | none =>
    refine iff_of_false (by simp) ?_
    rintro ⟨_, y, _, hby, _⟩
    rw [hy] at hby
    cases hby
  | some y =>
    rw [Option.any_some, levelsOf, like_prefix_iff (wildcard_free hissued),
      hissued.levels_prefix_iff (h.issued b hb y hy)]
    constructor
    · intro hlevels
      exact ⟨x, y, hx, hy, hlevels.symm⟩
    · rintro ⟨x', y', hx', hy', hlevels⟩
      obtain rfl := Option.some.inj (hx.symm.trans hx')
      obtain rfl := Option.some.inj (hy.symm.trans hy')
      exact hlevels.symm

theorem Kept.likePrefix (h : Kept S r) {a : Agent H} (ha : a ∈ r.tables.agents) {x : String}
    (hx : a.aic = some x) : getDerivedEntityLikePrefix S true a =
      .ok (some (Aic.join (levelsOf S x) ++ ['.'])) := by
  have hfilter : a.aic.filter (· ≠ "") = some x := by
    simp [hx, Option.filter, h.ne_empty ha hx]
  unfold getDerivedEntityLikePrefix
  rw [hfilter]
  dsimp only
  rw [if_neg (by simp), (h.issued a ha x hx).derivedLikePrefix]
  rfl

theorem likePrefix_of_not_ontology (a : Agent H) :
    getDerivedEntityLikePrefix S false a = .ok none := by
  unfold getDerivedEntityLikePrefix
  split
  · rfl
  · exact if_pos (by simp)

theorem mem_derivedRows [DecidableEq H] (h : Kept S r) {a b : Agent H} (ha : a ∈ r.tables.agents)
    (hb : b ∈ r.tables.agents) {selected : Agent H → Bool} {rows : List ℕ}
    (hrows : r.derivedRows S a selected = .ok rows) :
    b.id ∈ rows ↔ a.id ∈ r.ontologies ∧ SameLineage S a b ∧ b.id ≠ a.id ∧ selected b = true := by
  unfold Database.derivedRows at hrows
  by_cases ho : a.id ∈ r.ontologies
  · have hont : r.isOntology a.id = true := decide_eq_true ho
    rw [hont] at hrows
    cases hx : a.aic with
    | none =>
      have hnone : getDerivedEntityLikePrefix S true a = .ok none := by
        simp [getDerivedEntityLikePrefix, hx]
      rw [hnone] at hrows
      obtain rfl := Except.ok.inj hrows
      refine iff_of_false List.not_mem_nil ?_
      rintro ⟨_, ⟨x, _, hax, _⟩, _⟩
      rw [hx] at hax
      cases hax
    | some x =>
      rw [h.likePrefix ha hx] at hrows
      obtain rfl := Except.ok.inj hrows
      rw [and_iff_right ho, ← h.like_iff ha hb hx]
      simp only [List.mem_map, List.mem_filter, decide_eq_true_eq]
      constructor
      · rintro ⟨b', ⟨hb', hcond⟩, hid⟩
        obtain rfl := h.consistent.eq_of_id hb' hb hid
        exact hcond
      · intro hcond
        exact ⟨b, ⟨hb, hcond⟩, rfl⟩
  · have hont : r.isOntology a.id = false := decide_eq_false ho
    rw [hont, likePrefix_of_not_ontology] at hrows
    obtain rfl := Except.ok.inj hrows
    exact iff_of_false List.not_mem_nil fun hs => ho hs.1

end Lineage

section View

variable [DecidableEq H] {π : Platform H} {S : AicSettings} {now : Timestamp}

theorem Edited.quiet {t : Tables H} {w : AgentWrite} {a : Agent H} {r : LogState × Agent H}
    (hr : Edited π now t w a r) (hw : ¬ w.SetsFlags) :
    r.2.id = a.id ∧ flags r.2 = flags a ∧ (r.2.aic = a.aic ∨
      ∃ provider newAic, w = .approve a.id provider newAic ∧ r.2.aic = some newAic) := by
  obtain ⟨b, hb, hn⟩ := hr.renumbers
  refine ⟨hn.id.trans hb.id, hn.flags.trans (hb.flags.resolve_right fun hm => hw hm.1), ?_⟩
  rcases hb.aic with haic | ⟨provider, x, happrove, hx, _⟩
  · exact .inl (hn.aic.trans haic)
  · exact .inr ⟨provider, x, happrove, hn.aic.trans hx⟩

theorem markAndPublish_view {t u : Tables H} {check : Agent H → Except AgentError Unit}
    {mark : Agent H → Agent H} {id : ℕ} (hm : ∀ a, Marks now a (mark a))
    (h : markAndPublish π now t check mark id = .ok u) :
    ∃ a ∈ t.agents, a.id = id ∧ check a = .ok () ∧ ∀ c ∈ u.agents,
      c.id = id ∧ c.aic = a.aic ∧ flags c = flags (mark a) ∨ c ∈ t.agents ∧ c.id ≠ id := by
  obtain ⟨a, ha, h⟩ := bind_eq_ok h
  obtain ⟨_, hcheck, h⟩ := bind_eq_ok h
  obtain ⟨hmem, hid⟩ := getAgent_eq_ok ha
  obtain rfl := Except.ok.inj h
  obtain ⟨hmid, hmaic, _⟩ := (hm a).same
  have hn : Renumbers t.log (mark a) (updateAgentAcsData π now t.log (mark a)) :=
    updateAgentAcsData_renumbers t.log (mark a)
  refine ⟨a, hmem, hid, guarded_eq_ok hcheck, fun c hc => ?_⟩
  rcases (Tables.mem_save hmem (hn.id.trans hmid)).mp hc with rfl | ⟨hc, hne⟩
  · exact .inl ⟨(hn.id.trans hmid).trans hid, hn.aic.trans hmaic, hn.flags⟩
  · exact .inr ⟨hc, hid ▸ hne⟩

theorem write_view {r r' : Database H} {w : AgentWrite} {mark : Agent H → Agent H}
    {check : Agent H → Except AgentError Unit} {id : ℕ} (hm : ∀ a, Marks now a (mark a))
    (hw : w.perform π now r.tables = markAndPublish π now r.tables check mark id)
    (h : r.write π now w = .ok r') : r'.ontologies = r.ontologies ∧
      ∃ a ∈ r.tables.agents, a.id = id ∧ check a = .ok () ∧ ∀ c ∈ r'.tables.agents,
        c.id = id ∧ c.aic = a.aic ∧ flags c = flags (mark a) ∨ c ∈ r.tables.agents ∧ c.id ≠ id := by
  obtain ⟨hperform, hont⟩ := write_eq_ok h
  exact ⟨hont, markAndPublish_view hm (hw.symm.trans hperform)⟩

structure Effect (mark : Agent H → Agent H) (R : Agent H → Agent H → Prop) : Prop where
  mark : ∀ a c, flags c = flags (mark a) → R a c
  trans : ∀ a b c, R a b → R b c → R a c
  flags : ∀ a b c, R a b → flags c = flags b → R a c

theorem writes_view {r r' : Database H} {w : ℕ → AgentWrite} {mark : Agent H → Agent H}
    {R : Agent H → Agent H → Prop} (hR : Effect mark R) (hm : ∀ a, Marks now a (mark a))
    (hw : ∀ t : Tables H, ∀ id, (w id).perform π now t = publishMark π now t mark id)
    {ids : List ℕ} (h : ids.foldlM (fun r id => r.write π now (w id)) r = .ok r') :
    r'.ontologies = r.ontologies ∧ ∀ c ∈ r'.tables.agents, ∃ b ∈ r.tables.agents, b.id = c.id ∧
      b.aic = c.aic ∧ (c.id ∈ ids → R b c) ∧ (c.id ∉ ids → flags c = flags b) := by
  induction ids generalizing r with
  | nil =>
    obtain rfl := Except.ok.inj h
    exact ⟨rfl, fun c hc => ⟨c, hc, rfl, rfl, by simp, fun _ => rfl⟩⟩
  | cons id ids ih =>
    obtain ⟨u, hu, hrest⟩ := bind_eq_ok h
    obtain ⟨hont, a, ha, hid, _, hview⟩ := write_view hm (hw r.tables id) hu
    obtain ⟨hont', hviews⟩ := ih hrest
    refine ⟨hont'.trans hont, fun c hc => ?_⟩
    obtain ⟨b, hb, hbid, hbaic, hin, hout⟩ := hviews c hc
    rcases hview b hb with ⟨hbi, haic, hflags⟩ | ⟨hbr, hbi⟩
    · have hab : R a b := hR.mark a b hflags
      refine ⟨a, ha, hid.trans (hbi.symm.trans hbid), haic.symm.trans hbaic, fun _ => ?_, ?_⟩
      · by_cases hc : c.id ∈ ids
        · exact hR.trans a b c hab (hin hc)
        · exact hR.flags a b c hab (hout hc)
      · intro hnot
        exact absurd (List.mem_cons.mpr (.inl (hbid.symm.trans hbi))) hnot
    · refine ⟨b, hbr, hbid, hbaic, fun hmem => ?_, fun hnot => hout fun hmem => ?_⟩
      · exact hin ((List.mem_cons.mp hmem).resolve_left fun heq => hbi (hbid.trans heq))
      · exact hnot (List.mem_cons_of_mem _ hmem)

def Reached (S : AicSettings) (r : Database H) (a : Agent H) (selected : Agent H → Bool)
    (b : Agent H) : Prop :=
  b.id = a.id ∨ a.id ∈ r.ontologies ∧ SameLineage S a b ∧ selected b = true

theorem cascade_view {r r' : Database H} (hr : Kept S r) {own : AgentWrite} {derived : ℕ → AgentWrite}
    {mark : Agent H → Agent H} {check : Agent H → Except AgentError Unit}
    {selected : Agent H → Bool} {id : ℕ} {order : RowOrder} {R : Agent H → Agent H → Prop}
    (hR : Effect mark R) (hm : ∀ a, Marks now a (mark a))
    (hown : own.perform π now r.tables = markAndPublish π now r.tables check mark id)
    (hderived : ∀ t : Tables H, ∀ id, (derived id).perform π now t = publishMark π now t mark id)
    (h : r.cascade S π now own derived selected id order = .ok r') :
    r'.ontologies = r.ontologies ∧ ∃ a ∈ r.tables.agents, a.id = id ∧ check a = .ok () ∧
      ∀ c ∈ r'.tables.agents, ∃ b ∈ r.tables.agents, b.id = c.id ∧ b.aic = c.aic ∧
        (Reached S r a selected b → R b c) ∧ (¬ Reached S r a selected b → flags c = flags b) := by
  obtain ⟨u, hu, hrest⟩ := bind_eq_ok h
  obtain ⟨a', ha', hquery⟩ := bind_eq_ok hrest
  obtain ⟨rows, hok, hwrites⟩ := bind_eq_ok hquery
  clear h hrest hquery
  obtain ⟨hmem, hid⟩ := getAgent_eq_ok (mapError_eq_ok ha')
  have hrows := mapError_eq_ok hok
  obtain ⟨hont, a, ha, hai, hcheck, hview⟩ := write_view hm hown hu
  obtain rfl := hr.consistent.eq_of_id ha hmem (hai.trans hid.symm)
  obtain ⟨hont', hviews⟩ := writes_view hR hm hderived hwrites
  refine ⟨hont'.trans hont, a, ha, hai, hcheck, fun c hc => ?_⟩
  obtain ⟨b, hb, hbid, hbaic, hin, hout⟩ := hviews c hc
  have hmem_rows (d : Agent H) (hd : d ∈ r.tables.agents) (hdc : d.id = c.id) :
      c.id ∈ order.arrange rows ↔ a.id ∈ r.ontologies ∧ SameLineage S a d ∧ d.id ≠ a.id ∧
        selected d = true := by
    rw [(order.perm rows).mem_iff, ← hdc]
    exact mem_derivedRows hr ha hd hrows
  rcases hview b hb with ⟨hbi, haic, hflags⟩ | ⟨hbr, hbi⟩
  · have hca : a.id = c.id := hai.trans (hbi.symm.trans hbid)
    have hnot : c.id ∉ order.arrange rows := fun hrow =>
      ((hmem_rows a ha hca).mp hrow).2.2.1 rfl
    refine ⟨a, ha, hca, haic.symm.trans hbaic, fun _ => ?_, fun hne => absurd (.inl rfl) hne⟩
    exact hR.mark a c ((hout hnot).trans hflags)
  · have hne : b.id ≠ a.id := fun heq => hbi (heq.trans hai)
    have hrow := hmem_rows b hbr hbid
    refine ⟨b, hbr, hbid, hbaic, fun hreached => ?_, fun hreached => hout fun hmem => ?_⟩
    · obtain ⟨hont, hsame, hsel⟩ := hreached.resolve_left hne
      exact hin (hrow.mpr ⟨hont, hsame, hne, hsel⟩)
    · obtain ⟨hont, hsame, _, hsel⟩ := hrow.mp hmem
      exact hreached (.inr ⟨hont, hsame, hsel⟩)

end View

section Spread

variable {S : AicSettings} {r r' : Database H}

theorem effect_inactive {mark : Agent H → Agent H} (h : ∀ a, (mark a).isActive = false) :
    Effect mark fun _ c => c.isActive = false where
  mark a c hc := (congrArg Prod.fst hc : c.isActive = _).trans (h a)
  trans _ _ _ _ hc := hc
  flags _ b c hb hc := (congrArg Prod.fst hc : c.isActive = b.isActive).trans hb

theorem effect_enabled (now : Timestamp) : Effect (markAgentEnabled (H := H) now) fun a c =>
    c.isDisabled = false ∧ c.isDeleted = a.isDeleted where
  mark a c hc := by
    have h₁ : c.isDisabled = _ := congrArg (·.2.2.2.1) hc
    have h₂ : c.isDeleted = _ := congrArg (·.2.1) hc
    unfold markAgentEnabled at h₁ h₂
    constructor
    · rw [h₁]
      dsimp only
      split <;> rfl
    · rw [h₂]
      dsimp only
      split <;> rfl
  trans _ _ _ hab hbc := ⟨hbc.1, hbc.2.trans hab.2⟩
  flags _ b c hab hc :=
    ⟨(congrArg (·.2.2.2.1) hc : c.isDisabled = b.isDisabled).trans hab.1,
      (congrArg (·.2.1) hc : c.isDeleted = b.isDeleted).trans hab.2⟩

theorem Kept.lowered (h : Kept S r) (hcons : r'.tables.Consistent)
    (hflagged : ∀ a ∈ r'.tables.agents, Flagged a) (hont : r'.ontologies = r.ontologies)
    {a : Agent H} (ha : a ∈ r.tables.agents) {selected : Agent H → Bool}
    (hsel : ∀ b, Flagged b → b.isActive = true → selected b = true)
    (hview : ∀ c ∈ r'.tables.agents, ∃ b ∈ r.tables.agents, b.id = c.id ∧ b.aic = c.aic ∧
      (Reached S r a selected b → c.isActive = false) ∧
        (¬ Reached S r a selected b → flags c = flags b)) : Kept S r' where
  consistent := hcons
  flagged := hflagged
  issued c hc x hx := by
    obtain ⟨b, hb, _, haic, _⟩ := hview c hc
    exact h.issued b hb x (haic.trans hx)
  follow o ho hoo c hc hne hsame hdown := by
    obtain ⟨o', ho', hoid, hoaic, _, hosame⟩ := hview o ho
    obtain ⟨b, hb, hbid, hbaic, hreached, hbsame⟩ := hview c hc
    by_cases hb' : Reached S r a selected b
    · exact hreached hb'
    · have hactive : c.isActive = b.isActive := congrArg Prod.fst (hbsame hb')
      have hoo' : o'.id ∈ r.ontologies := by rwa [hoid, ← hont]
      have hline : SameLineage S o' b := hsame.of_aic hoaic hbaic
      rw [hactive]
      by_cases ho'' : Reached S r a selected o'
      · -- the query would have selected `b` if it were active
        have hab : a.id ∈ r.ontologies ∧ SameLineage S a b := by
          rcases ho'' with heq | ⟨haont, hao, _⟩
          · obtain rfl := h.consistent.eq_of_id ho' ha heq
            exact ⟨hoo', hline⟩
          · exact ⟨haont, hao.trans hline⟩
        rw [← Bool.not_eq_true]
        intro hact
        exact hb' (.inr ⟨hab.1, hab.2, hsel b (h.flagged b hb) hact⟩)
      · have hoflags := hosame ho''
        have h₁ : o.isDisabled = o'.isDisabled := congrArg (·.2.2.2.1) hoflags
        have h₂ : o.isDeleted = o'.isDeleted := congrArg (·.2.1) hoflags
        exact h.follow o' ho' hoo' b hb (by rwa [hbid, hoid]) hline (by rwa [h₁, h₂] at hdown)

theorem Kept.raised (h : Kept S r) (hcons : r'.tables.Consistent)
    (hflagged : ∀ a ∈ r'.tables.agents, Flagged a) (hont : r'.ontologies = r.ontologies)
    {a : Agent H} (ha : a ∈ r.tables.agents) (hdeleted : a.isDeleted = false)
    (hheld : ∀ o ∈ r.tables.agents, o.id ∈ r.ontologies → o.id ≠ a.id → SameLineage S o a →
      o.isDeleted = false ∧ (a.id ∈ r.ontologies ∨ o.isDisabled = false))
    (hview : ∀ c ∈ r'.tables.agents, ∃ b ∈ r.tables.agents, b.id = c.id ∧ b.aic = c.aic ∧
      (Reached S r a (fun b => b.isDisabled) b → c.isDisabled = false ∧ c.isDeleted = b.isDeleted) ∧
        (¬ Reached S r a (fun b => b.isDisabled) b → flags c = flags b)) : Kept S r' where
  consistent := hcons
  flagged := hflagged
  issued c hc x hx := by
    obtain ⟨b, hb, _, haic, _⟩ := hview c hc
    exact h.issued b hb x (haic.trans hx)
  follow o ho hoo c hc hne hsame hdown := by
    obtain ⟨o', ho', hoid, hoaic, hoenabled, hosame⟩ := hview o ho
    obtain ⟨b, hb, hbid, hbaic, _, hbsame⟩ := hview c hc
    have hoo' : o'.id ∈ r.ontologies := by rwa [hoid, ← hont]
    have hline : SameLineage S o' b := hsame.of_aic hoaic hbaic
    by_cases ho'' : Reached S r a (fun b => b.isDisabled) o'
    · obtain ⟨h₁, h₂⟩ := hoenabled ho''
      have hstands : o'.isDeleted = false := by
        by_cases heq : o'.id = a.id
        · obtain rfl := h.consistent.eq_of_id ho' ha heq
          exact hdeleted
        · exact (hheld o' ho' hoo' heq (ho''.resolve_left heq).2.1.symm).1
      simp [h₁, h₂, hstands] at hdown
    · have hoflags := hosame ho''
      have h₁ : o.isDisabled = o'.isDisabled := congrArg (·.2.2.2.1) hoflags
      have h₂ : o.isDeleted = o'.isDeleted := congrArg (·.2.1) hoflags
      rw [h₁, h₂] at hdown
      have hne' : o'.id ≠ a.id := fun heq => ho'' (.inl heq)
      have hnoline (hao : SameLineage S a o') : a.id ∉ r.ontologies ∧ o'.isDisabled = true := by
        obtain ⟨hstands, hor⟩ := hheld o' ho' hoo' hne' hao.symm
        have hdis : o'.isDisabled = true := hdown.resolve_right (by simp [hstands])
        exact ⟨fun haont => ho'' (.inr ⟨haont, hao, hdis⟩), hdis⟩
      by_cases hb' : Reached S r a (fun b => b.isDisabled) b
      · rcases hb' with heq | ⟨haont, hab, _⟩
        · obtain rfl := h.consistent.eq_of_id hb ha heq
          obtain ⟨hnot, hdis⟩ := hnoline hline.symm
          obtain ⟨_, hor⟩ := hheld o' ho' hoo' hne' hline
          simp [hnot, hdis] at hor
        · exact absurd haont (hnoline (hab.trans hline.symm)).1
      · have hactive : c.isActive = b.isActive := congrArg Prod.fst (hbsame hb')
        rw [hactive]
        exact h.follow o' ho' hoo' b hb (by rwa [hbid, hoid]) hline hdown

end Spread

section Keep

variable [DecidableEq H] {π : Platform H} {S : AicSettings} {now : Timestamp} {r r' : Database H}

theorem sound_of_perform (h : Kept S r) {c : Command} (hok : r.perform S π now c = .ok r') :
    r'.tables.Consistent ∧ ∀ a ∈ r'.tables.agents, Flagged a := by
  have hC : ApprovalMeets S (fun _ _ => True) r (now, c) := by
    cases c with
    | approve => exact fun _ _ => trivial
    | _ => trivial
  have hw := written_of_perform (C := fun _ _ => True) (fun _ _ _ => trivial) hC hok
  exact ⟨hw.consistent h.consistent, hw.flagged h.flagged⟩

omit [DecidableEq H] in
theorem Joins.of_flags {a c : Agent H} {x : String} (h : Joins S r a x)
    (hflags : flags c = flags a) : Joins S r c x where
  issued := h.issued
  isDisabled := (congrArg (·.2.2.2.1) hflags : c.isDisabled = a.isDisabled).trans h.isDisabled
  isDeleted := (congrArg (·.2.1) hflags : c.isDeleted = a.isDeleted).trans h.isDeleted
  stands := h.stands

theorem Kept.edited {w : AgentWrite} {a : Agent H} {e : LogState × Agent H} (h : Kept S r)
    (hcons : r'.tables.Consistent) (hflagged : ∀ a ∈ r'.tables.agents, Flagged a)
    (hont : r'.ontologies = r.ontologies) (ha : a ∈ r.tables.agents)
    (he : Edited π now r.tables w a e) (hw : ¬ w.SetsFlags)
    (hr : r'.tables = r.tables.save e.1 e.2)
    (hjoins : ∀ provider x, w = .approve a.id provider x → Joins S r a x) : Kept S r' := by
  obtain ⟨hid, hflags, haic⟩ := he.quiet hw
  refine h.joined hcons hflagged (fun _ _ hmem => hont ▸ hmem) fun c hc => ?_
  rw [hr] at hc
  rcases (Tables.mem_save ha hid).mp hc with rfl | ⟨hc, _⟩
  · rcases haic with haic | ⟨provider, newAic, happrove, hnew⟩
    · exact .inl ⟨a, ha, hid.symm, haic.symm, hflags⟩
    · right
      intro x hx
      obtain rfl := Option.some.inj (hnew.symm.trans hx)
      exact (hjoins provider newAic happrove).of_flags hflags
  · exact .inl ⟨c, hc, rfl, rfl, rfl⟩

theorem Kept.unissued (h : Kept S r) (w : AgentWrite) (hcons : r'.tables.Consistent)
    (hflagged : ∀ a ∈ r'.tables.agents, Flagged a) (hw : ¬ w.SetsFlags) (hi : ¬ w.Issues)
    (hok : r.write π now w = .ok r')
    (hedit : ∀ u, w.perform π now r.tables = .ok u →
      ∃ a ∈ r.tables.agents, ∃ e, Edited π now r.tables w a e ∧ u = r.tables.save e.1 e.2) :
    Kept S r' := by
  obtain ⟨hperform, hont⟩ := write_eq_ok hok
  obtain ⟨a, ha, e, he, hr⟩ := hedit _ hperform
  refine h.edited hcons hflagged hont ha he hw hr ?_
  rintro provider x rfl
  exact absurd trivial hi

omit [DecidableEq H] in
theorem ensureAgentIsTransitionable_eq_ok {a : Agent H} {action : String} {x : Unit}
    (h : ensureAgentIsTransitionable a action = .ok x) :
    a.isDisabled = false ∧ a.isDeleted = false := by
  unfold ensureAgentIsTransitionable at h
  split at h
  · cases h
  · next hdel =>
    split at h
    · cases h
    · next hdis =>
      simp only [isAgentDeleted, isAgentDisabled, Bool.or_eq_true, not_or, Bool.not_eq_true]
        at hdel hdis
      exact ⟨hdis.1, hdel.1⟩

theorem issueAgentAic_issued {isOntology : Bool} {providerCode : Aic.Registry.LevelCode}
    {ontologySerial instanceSerial : Aic.Registry.Serial} {newAic : Aic.Text}
    (h : issueAgentAic S isOntology providerCode ontologySerial instanceSerial = .ok newAic) :
    Aic.Issued S.upperCase S.aicCrcSalt newAic := by
  unfold issueAgentAic at h
  split at h
  · exact Aic.generateOntologyAic_issued h
  · exact Aic.generateAic_issued h

theorem Kept.approve (h : Kept S r) {id : ℕ} {provider : Json}
    {providerCode : Aic.Registry.LevelCode} {ontologySerial instanceSerial : Aic.Registry.Serial}
    (hheld : OntologyHeld S r
      (now, .approve id provider providerCode ontologySerial instanceSerial))
    (hcons : r'.tables.Consistent) (hflagged : ∀ a ∈ r'.tables.agents, Flagged a)
    (hok : r.approve S π now id provider providerCode ontologySerial instanceSerial = .ok r') :
    Kept S r' := by
  obtain ⟨newAic, hissue, hwrite⟩ := bind_eq_ok hok
  have hissue := mapError_eq_ok hissue
  obtain ⟨hperform, hont⟩ := write_eq_ok hwrite
  obtain ⟨a, ha, e, he, hr⟩ := approveAgent_edited hperform
  refine h.edited hcons hflagged hont ha he (by simp [AgentWrite.SetsFlags]) hr ?_
  rintro _ _ ⟨⟩
  obtain ⟨b, hb, hrest⟩ := bind_eq_ok hperform
  obtain ⟨_, hguard, _⟩ := bind_eq_ok hrest
  obtain ⟨hbmem, hbid⟩ := getAgent_eq_ok hb
  obtain rfl := h.consistent.eq_of_id hbmem ha hbid
  obtain ⟨hdisabled, hdeleted⟩ := ensureAgentIsTransitionable_eq_ok (guarded_eq_ok hguard)
  refine ⟨?_, hdisabled, hdeleted, hheld newAic hissue⟩
  rw [String.toList_ofList]
  exact issueAgentAic_issued hissue

theorem Kept.create (h : Kept S r) {id : ℕ} {isOntology : Bool} {acs : Option Payload}
    (hcons : r'.tables.Consistent) (hflagged : ∀ a ∈ r'.tables.agents, Flagged a)
    (hok : r.create π now id isOntology acs = .ok r') : Kept S r' := by
  obtain ⟨u, hu, hrest⟩ := bind_eq_ok hok
  obtain ⟨hperform, hont⟩ := write_eq_ok hu
  obtain ⟨payload, _, hinsert⟩ := bind_eq_ok hperform
  obtain ⟨hfree, htables⟩ := insertAgent_eq_ok hinsert
  obtain rfl := Except.ok.inj hrest
  refine h.joined hcons hflagged ?_ ?_
  · intro b hb hmem
    dsimp only at hmem
    split at hmem
    · rcases List.mem_cons.mp hmem with heq | hmem
      · exact absurd heq (hfree b hb)
      · exact hont ▸ hmem
    · exact hont ▸ hmem
  · intro c hc
    have hc : c ∈ u.tables.agents := hc
    rw [htables] at hc
    rcases List.mem_append.mp hc with hc | hc
    · exact .inl ⟨c, hc, rfl, rfl, rfl⟩
    · right
      rw [List.mem_singleton.mp hc]
      rintro x ⟨⟩

omit [DecidableEq H] in
theorem ensureRegistrableOntologyAgent_eq_ok {ontologyAic : String} {a : Agent H}
    (h : ensureRegistrableOntologyAgent r ontologyAic = .ok a) :
    a ∈ r.tables.agents ∧ a.aic = some ontologyAic := by
  unfold ensureRegistrableOntologyAgent at h
  split at h
  · cases h
  · next b hb =>
    have hmem := List.mem_of_find?_eq_some hb
    have haic : b.aic = some ontologyAic := by simpa using List.find?_some hb
    split at h
    · cases h
    · split at h
      · cases h
      · split at h
        · cases h
        · obtain rfl := Except.ok.inj h
          exact ⟨hmem, haic⟩

theorem generateEntityAic_eq_ok {ontologyAic entityAic : String}
    {instanceSerial : Aic.Registry.Serial}
    (hx : Aic.Issued S.upperCase S.aicCrcSalt ontologyAic.toList)
    (h : generateEntityAic S ontologyAic instanceSerial = .ok entityAic) :
    Aic.Issued S.upperCase S.aicCrcSalt entityAic.toList ∧
      levelsOf S entityAic = levelsOf S ontologyAic := by
  obtain ⟨entity, hentity, hrest⟩ := bind_eq_ok h
  cases entity with
  | none => cases hrest
  | some entity =>
    obtain rfl := Except.ok.inj hrest
    rw [levelsOf, String.toList_ofList]
    exact Aic.generateEntityAic_issued hx (mapError_eq_ok hentity)

theorem Kept.registerEntity (h : Kept S r) {id : ℕ} {ontologyAic : String}
    {instanceSerial : Aic.Registry.Serial} {acs : JsonObject}
    (hheld : OntologyStands S r (levelsOf S ontologyAic))
    (hcons : r'.tables.Consistent) (hflagged : ∀ a ∈ r'.tables.agents, Flagged a)
    (hok : r.registerEntity S π now id ontologyAic instanceSerial acs = .ok r') : Kept S r' := by
  obtain ⟨a, hensure, hrest⟩ := bind_eq_ok hok
  obtain ⟨entityAic, hentity, hrest'⟩ := bind_eq_ok hrest
  obtain ⟨_, _, hwrite⟩ := bind_eq_ok hrest'
  obtain ⟨hmem, haic⟩ := ensureRegistrableOntologyAgent_eq_ok (mapError_eq_ok hensure)
  obtain ⟨hissued, hlevels⟩ := generateEntityAic_eq_ok (h.issued a hmem ontologyAic haic) hentity
  obtain ⟨hperform, hont⟩ := write_eq_ok hwrite
  refine h.joined hcons hflagged (fun _ _ hmem => hont ▸ hmem) fun c hc => ?_
  simp only [AgentWrite.perform, Registry.registerEntity] at hperform
  split at hperform
  · cases hperform
  · obtain ⟨_, htables⟩ := insertAgent_eq_ok hperform
    rw [htables] at hc
    rcases List.mem_append.mp hc with hc | hc
    · exact .inl ⟨c, hc, rfl, rfl, rfl⟩
    · right
      rw [List.mem_singleton.mp hc]
      rintro x ⟨⟩
      exact ⟨hissued, rfl, rfl, hlevels ▸ hheld⟩

theorem Kept.cascaded_down (h : Kept S r) (hcons : r'.tables.Consistent)
    (hflagged : ∀ a ∈ r'.tables.agents, Flagged a) {own : AgentWrite} {derived : ℕ → AgentWrite}
    {mark : Agent H → Agent H} {check : Agent H → Except AgentError Unit}
    {selected : Agent H → Bool} {id : ℕ} {order : RowOrder}
    (hmark : ∀ a, (mark a).isActive = false) (hm : ∀ a, Marks now a (mark a))
    (hsel : ∀ b, Flagged b → b.isActive = true → selected b = true)
    (hown : own.perform π now r.tables = markAndPublish π now r.tables check mark id)
    (hderived : ∀ t : Tables H, ∀ id, (derived id).perform π now t = publishMark π now t mark id)
    (hok : r.cascade S π now own derived selected id order = .ok r') : Kept S r' := by
  obtain ⟨hont, a, ha, _, _, hview⟩ := cascade_view h (effect_inactive hmark) hm hown hderived hok
  exact h.lowered hcons hflagged hont ha hsel hview

theorem Kept.enable (h : Kept S r) (hcons : r'.tables.Consistent)
    (hflagged : ∀ a ∈ r'.tables.agents, Flagged a) {id : ℕ} {order : RowOrder}
    (hheld : OntologyHeld S r (now, .enable id order))
    (hok : r.perform S π now (.enable id order) = .ok r') : Kept S r' := by
  have hderived : ∀ t : Tables H, ∀ id, (AgentWrite.enableDerived id).perform π now t =
      publishMark π now t (markAgentEnabled now) id := fun _ _ => rfl
  obtain ⟨hont, a, ha, rfl, hcheck, hview⟩ :=
    cascade_view h (effect_enabled now) (fun _ => .enabled) rfl hderived hok
  have hdeleted : a.isDeleted = false := by
    unfold ensureAgentCanBeEnabled at hcheck
    split at hcheck
    · cases hcheck
    · next hdel =>
      simp only [isAgentDeleted, Bool.or_eq_true, not_or, Bool.not_eq_true] at hdel
      exact hdel.1
  exact h.raised hcons hflagged hont ha hdeleted (hheld a ha rfl) hview

theorem Kept.perform (h : Kept S r) {c : Command} (hheld : OntologyHeld S r (now, c))
    (hok : r.perform S π now c = .ok r') : Kept S r' := by
  obtain ⟨hcons, hflagged⟩ := sound_of_perform h hok
  cases c with
  | create id isOntology acs => exact h.create hcons hflagged hok
  | update id acs =>
    exact h.unissued (.update id acs) hcons hflagged not_false not_false hok fun _ hu => updateAgent_edited hu
  | submit id =>
    exact h.unissued (.submit id) hcons hflagged not_false not_false hok fun _ hu =>
      moveApproval_edited (by decide) (by decide) hu
  | cancel id =>
    exact h.unissued (.cancel id) hcons hflagged not_false not_false hok fun _ hu =>
      moveApproval_edited (by decide) (by decide) hu
  | reject id =>
    exact h.unissued (.reject id) hcons hflagged not_false not_false hok fun _ hu =>
      moveApproval_edited (by decide) (by decide) hu
  | approve id provider providerCode ontologySerial instanceSerial =>
    exact h.approve hheld hcons hflagged hok
  | registerEntity id ontologyAic instanceSerial acs =>
    exact h.registerEntity hheld hcons hflagged hok
  | disable id order =>
    refine h.cascaded_down hcons hflagged (fun _ => rfl) (fun _ => .disabled) ?_ rfl
      (fun _ _ => rfl) hok
    intro b hb hactive
    have hflags := hb.active
    rw [hactive] at hflags
    simp_all
  | enable id order => exact h.enable hcons hflagged hheld hok
  | delete id order =>
    refine h.cascaded_down hcons hflagged (fun _ => rfl) (fun _ => .deleted) ?_ rfl
      (fun _ _ => rfl) hok
    intro b hb hactive
    have hflags := hb.active
    rw [hactive] at hflags
    simp_all

theorem entities_follow {cs : List (Timestamp × Command)}
    (hheld : (commands S π).Meets (fun r e => OntologyHeld S r e) .empty cs)
    (h : (commands S π).exec .empty cs = some r) : EntitiesFollow S r := by
  refine ((commands S π).exec_invariant (I := Kept S) ?_ .empty hheld h).follow
  intro s e t hs hC he
  obtain rfl := Option.some.inj he
  unfold Database.handle
  cases hp : s.perform S π e.1 e.2 with
  | error _ => exact hs
  | ok r' => exact hs.perform hC hp

end Keep

section Cases

def tableOrder : RowOrder := ⟨id, fun _ => .refl _⟩

def ontologyRun : List (Timestamp × Command) :=
  [(1, .create 1 true (some (.obj [("aic", .str ""), ("active", .bool true)]))), (2, .submit 1),
    approval, (4, .registerEntity 2 "1.2.156.3088.1.A.B.C.0.14RC" ⟨['E'], by decide⟩ []),
    (5, .disable 1 tableOrder)]

theorem ontologyStands_of_all {S : AicSettings} {r : Database H} {ls : List Aic.Text}
    (h : ∀ o ∈ r.tables.agents, o.isDisabled = false ∧ o.isDeleted = false) :
    OntologyStands S r ls := fun o ho _ _ _ _ => h o ho

theorem ontologyRun_held :
    (commands plainSettings plainPlatform).Meets (fun r e => OntologyHeld plainSettings r e) .empty
      (ontologyRun ++ [(6, .enable 1 tableOrder)]) := by
  refine ⟨trivial, fun s hs => ⟨trivial, fun t ht => ⟨?_, fun u hu => ⟨?_, fun v hv => ⟨trivial,
    fun w hw => ⟨?_, fun _ _ => trivial⟩⟩⟩⟩⟩⟩
  all_goals
    obtain rfl := Option.some.inj hs
    obtain rfl := Option.some.inj ht
  · exact fun _ _ => ontologyStands_of_all (by decide +kernel)
  · obtain rfl := Option.some.inj hu
    exact ontologyStands_of_all (by decide +kernel)
  · obtain rfl := Option.some.inj hu
    obtain rfl := Option.some.inj hv
    obtain rfl := Option.some.inj hw
    intro _ _ _ o _ hont hne _
    refine absurd (List.mem_singleton.mp (?_ : o.id ∈ [1])) hne
    convert hont using 1
    decide +kernel

theorem entities_follow_reenabled :
    ∃ r : Database Payload, (commands plainSettings plainPlatform).exec .empty
        (ontologyRun ++ [(6, .enable 1 tableOrder)]) = some r ∧
      r.tables.agents.map Agent.isActive = [true, true] ∧ EntitiesFollow plainSettings r := by
  have hrun : ((commands plainSettings plainPlatform).exec .empty
      (ontologyRun ++ [(6, .enable 1 tableOrder)])).map
        (fun r => r.tables.agents.map Agent.isActive) = some [true, true] := by decide +kernel
  obtain ⟨r, hr, hactive⟩ := Option.map_eq_some_iff.mp hrun
  exact ⟨r, hr, hactive, entities_follow ontologyRun_held hr⟩

theorem enabled_entity_outlives :
    ¬ ∀ r : Database Payload, (commands plainSettings plainPlatform).exec .empty
        (ontologyRun ++ [(6, .enable 2 tableOrder)]) = some r → EntitiesFollow plainSettings r := by
  intro h
  have hrun : ((commands plainSettings plainPlatform).exec .empty
      (ontologyRun ++ [(6, .enable 2 tableOrder)])).map (fun r => decide (1 ∈ r.ontologies ∧
        (∃ o ∈ r.tables.agents, o.id = 1 ∧ o.aic = some "1.2.156.3088.1.A.B.C.0.14RC" ∧
          o.isDisabled = true) ∧
        ∃ b ∈ r.tables.agents, b.id = 2 ∧ b.aic = some "1.2.156.3088.1.A.B.C.E.1E3K" ∧
          b.isActive = true)) = some true := by decide +kernel
  obtain ⟨r, hr, hview⟩ := Option.map_eq_some_iff.mp hrun
  obtain ⟨hont, ⟨o, ho, hoid, hoaic, hdisabled⟩, b, hb, hbid, hbaic, hactive⟩ :=
    of_decide_eq_true hview
  have hlevels : levelsOf plainSettings "1.2.156.3088.1.A.B.C.0.14RC" =
      levelsOf plainSettings "1.2.156.3088.1.A.B.C.E.1E3K" := by decide +kernel
  have hinactive := h r hr o ho (hoid ▸ hont) b hb (by rw [hoid, hbid]; decide)
    ⟨_, _, hoaic, hbaic, hlevels⟩ (.inl hdisabled)
  rw [hactive] at hinactive
  cases hinactive

end Cases

end Acps.Registry
