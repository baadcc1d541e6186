import Mathlib.Data.List.Forall2
import Acps.Lib.Transition

/-!
The index of the skills: an agent is split into its skills, the descriptions are embedded in a batch,
and the rows of the agent are replaced.
-/

namespace Acps.Discovery.SkillIndex

open Transition

structure AcsSkill where
  id : Option String
  description : Option String

structure Acs where
  aic : Option String
  AIC : Option String
  description : Option String
  skills : Option (List AcsSkill)

structure SkillCandidate where
  skillid : String
  description : String
  deriving DecidableEq

def expandAgentToSkills (acs : Acs) : List SkillCandidate :=
  match acs.skills.getD [] with
  | [] => [{ skillid := "", description := acs.description.getD "" }]
  | skills => skills.map fun skill =>
    { skillid := skill.id.getD "", description := skill.description.getD "" }

inductive Mode where
  | cpu
  | gpu

structure Embedding (δ ω : Type) where
  dense : δ
  sparse : ω

structure Model (δ ω : Type) where
  dense : String → δ
  lexicalWeights : String → ω
  noWeights : ω

variable {δ ω : Type}

def Model.embedding (model : Model δ ω) : Mode → String → Embedding δ ω
  | .cpu, text => { dense := model.dense text, sparse := model.noWeights }
  | .gpu, text => { dense := model.dense text, sparse := model.lexicalWeights text }

/-- How the service answers at some time: a batch gets its embeddings by position, or fails. A text
that waits in the queue of the local model gets the embedding at its place in a batch. -/
structure Service (model : Model δ ω) where
  create : List String → Option (List δ)
  queued : String → Option (Embedding δ ω)
  create_eq : ∀ texts response, create texts = some response → response = texts.map model.dense
  queued_eq : ∀ text embedding, queued text = some embedding →
    embedding = model.embedding .gpu text

namespace Service

variable {model : Model δ ω} (service : Service model)

def getEmbeddingFromApi (text : String) : Option (Embedding δ ω) :=
  (service.create [text]).bind fun response => response.head?.map fun dense =>
    { dense, sparse := model.noWeights }

def getEmbeddingsBatchFromApi (texts : List String) : Option (List (Embedding δ ω)) :=
  if texts = [] then some []
  else
    match service.create texts with
    | some response => some (response.map fun dense => { dense, sparse := model.noWeights })
    | none =>
      if texts.length ≤ 1 then none else texts.mapM service.getEmbeddingFromApi

def getEmbeddingsBatch : Mode → List String → Option (List (Embedding δ ω))
  | .cpu, texts => service.getEmbeddingsBatchFromApi texts
  | .gpu, texts => texts.mapM service.queued

end Service

structure Skill (δ ω : Type) where
  aic : String
  skillId : String
  description : String
  embedding : Embedding δ ω
  update : ℕ

structure Index (δ ω : Type) where
  rows : List (Skill δ ω)
  updates : ℕ
  last : String → Option (ℕ × Acs)

structure Update (model : Model δ ω) where
  acs : Acs
  service : Service model
  raises : Bool

def Acs.agentAic (acs : Acs) : String := acs.aic.getD (acs.AIC.getD "")

def Acs.descriptionsToEmbed (acs : Acs) : List String :=
  ((expandAgentToSkills acs).map SkillCandidate.description).filter (· ≠ "")

namespace Index

def initial : Index δ ω := { rows := [], updates := 0, last := fun _ => none }

variable (index : Index δ ω)

def newRows (acs : Acs) (embeddings : List (Embedding δ ω)) : List (Skill δ ω) :=
  ((expandAgentToSkills acs).zip embeddings).map fun (candidate, embedding) =>
    { aic := acs.agentAic, skillId := candidate.skillid, description := candidate.description
      embedding, update := index.updates }

def succeed (acs : Acs) (rows : List (Skill δ ω)) : Index δ ω :=
  { rows, updates := index.updates + 1
    last := fun aic => if aic = acs.agentAic then some (index.updates, acs) else index.last aic }

variable {model : Model δ ω}

def updateAgentIndex (mode : Mode) (update : Update model) : Index δ ω :=
  let acs := update.acs
  if acs.agentAic = "" then index
  else if acs.descriptionsToEmbed = [] then index.succeed acs index.rows
  else
    match update.service.getEmbeddingsBatch mode acs.descriptionsToEmbed, update.raises with
    | some embeddings, false =>
      index.succeed acs
        (index.rows.filter (fun row => row.aic ≠ acs.agentAic) ++ index.newRows acs embeddings)
    | _, _ => index

end Index

def skillIndex (model : Model δ ω) (mode : Mode) : System (Index δ ω) (Update model) :=
  ⟨fun index update => some (index.updateAgentIndex mode update)⟩

section Embeddings

variable {model : Model δ ω} (service : Service model)

theorem mapM_eq_some {f : String → Option (Embedding δ ω)} {g : String → Embedding δ ω}
    (hf : ∀ text embedding, f text = some embedding → embedding = g text) {texts : List String}
    {embeddings : List (Embedding δ ω)} (h : texts.mapM f = some embeddings) :
    embeddings = texts.map g := by
  induction texts generalizing embeddings with
  | nil =>
    obtain rfl := Option.some.inj h
    rfl
  | cons text texts ih =>
    rw [List.mapM_cons] at h
    obtain ⟨first, hfirst, h⟩ := Option.bind_eq_some_iff.mp h
    obtain ⟨rest, hrest, h⟩ := Option.bind_eq_some_iff.mp h
    obtain rfl := Option.some.inj h
    rw [List.map_cons, hf text first hfirst, ih hrest]

theorem getEmbeddingFromApi_eq {text : String} {embedding : Embedding δ ω}
    (h : service.getEmbeddingFromApi text = some embedding) : embedding = model.embedding .cpu text := by
  obtain ⟨response, hresponse, h⟩ := Option.bind_eq_some_iff.mp h
  obtain rfl := service.create_eq _ _ hresponse
  exact (Option.some.inj h).symm

theorem getEmbeddingsBatch_eq {mode : Mode} {texts : List String}
    {embeddings : List (Embedding δ ω)} (h : service.getEmbeddingsBatch mode texts = some embeddings) :
    embeddings = texts.map (model.embedding mode) := by
  cases mode with
  | gpu => exact mapM_eq_some service.queued_eq h
  | cpu =>
    change service.getEmbeddingsBatchFromApi texts = some embeddings at h
    unfold Service.getEmbeddingsBatchFromApi at h
    split at h
    next hnone =>
      obtain rfl := Option.some.inj h
      rw [hnone]
      rfl
    next =>
      split at h
      next response hresponse =>
        obtain rfl := Option.some.inj h
        obtain rfl := service.create_eq _ _ hresponse
        rw [List.map_map]
        rfl
      next =>
        split at h
        · cases h
        · exact mapM_eq_some (fun _ _ => getEmbeddingFromApi_eq service) h

end Embeddings

section Updates

variable {model : Model δ ω} {mode : Mode} {index : Index δ ω} {update : Update model} {aic : String}

structure Skill.Of (model : Model δ ω) (mode : Mode) (k : ℕ) (row : Skill δ ω)
    (candidate : SkillCandidate) : Prop where
  update : row.update = k
  skillId : row.skillId = candidate.skillid
  description : row.description = candidate.description
  embedding : candidate.description ≠ "" →
    row.embedding = model.embedding mode candidate.description

def Index.rowsOf (index : Index δ ω) (aic : String) : List (Skill δ ω) :=
  index.rows.filter fun row => row.aic = aic

def Index.Follows (model : Model δ ω) (mode : Mode) (index : Index δ ω) (aic : String) : Prop :=
  ∀ k acs, index.last aic = some (k, acs) →
    ∃ rows, rows.Perm (index.rowsOf aic) ∧
      List.Forall₂ (Skill.Of model mode k) rows (expandAgentToSkills acs)

def writtenRows (model : Model δ ω) (mode : Mode) (k : ℕ) (acs : Acs) : List (Skill δ ω) :=
  ((expandAgentToSkills acs).zip (acs.descriptionsToEmbed.map (model.embedding mode))).map
    fun (candidate, embedding) =>
      { aic := acs.agentAic, skillId := candidate.skillid, description := candidate.description
        embedding, update := k }

structure Inv (model : Model δ ω) (mode : Mode) (index : Index δ ω) : Prop where
  earlier : ∀ row ∈ index.rows, row.update < index.updates
  written : ∀ aic k acs, index.last aic = some (k, acs) → acs.descriptionsToEmbed ≠ [] →
    index.rowsOf aic = writtenRows model mode k acs
  unwritten : ∀ aic k acs, index.last aic = some (k, acs) → acs.descriptionsToEmbed = [] →
    k < index.updates ∧ ∀ row ∈ index.rowsOf aic, row.update ≠ k

theorem aic_of_mem_writtenRows {k : ℕ} {acs : Acs} {row : Skill δ ω}
    (hrow : row ∈ writtenRows model mode k acs) : row.aic = acs.agentAic ∧ row.update = k := by
  obtain ⟨p, -, rfl⟩ := List.mem_map.mp hrow
  exact ⟨rfl, rfl⟩

variable (model mode) in
theorem rowsOf_replaced (rows : List (Skill δ ω)) (acs : Acs) (k : ℕ) (aic : String) :
    (rows.filter (fun row => row.aic ≠ acs.agentAic) ++ writtenRows model mode k acs).filter
        (fun row => row.aic = aic) =
      if aic = acs.agentAic then writtenRows model mode k acs
      else rows.filter fun row => row.aic = aic := by
  rw [List.filter_append, List.filter_filter]
  split
  next heq =>
    subst heq
    have hold : rows.filter (fun row => decide (row.aic = acs.agentAic) &&
        decide (row.aic ≠ acs.agentAic)) = [] := by
      rw [List.filter_eq_nil_iff]
      intro row _
      simp
    have hnew : (writtenRows model mode k acs).filter (fun row => row.aic = acs.agentAic) =
        writtenRows model mode k acs := by
      rw [List.filter_eq_self]
      intro row hrow
      exact decide_eq_true (aic_of_mem_writtenRows hrow).1
    rw [hold, hnew, List.nil_append]
  next hne =>
    have hold : rows.filter (fun row => decide (row.aic = aic) && decide (row.aic ≠ acs.agentAic)) =
        rows.filter fun row => row.aic = aic := by
      apply List.filter_congr
      intro row _
      by_cases heq : row.aic = aic
      · simp [heq, hne]
      · simp [heq]
    have hnew : (writtenRows model mode k acs).filter (fun row => row.aic = aic) = [] := by
      rw [List.filter_eq_nil_iff]
      intro row hrow
      rw [(aic_of_mem_writtenRows hrow).1]
      simpa using Ne.symm hne
    rw [hold, hnew, List.append_nil]

theorem inv_updateAgentIndex (h : Inv model mode index) (update : Update model) :
    Inv model mode (index.updateAgentIndex mode update) := by
  unfold Index.updateAgentIndex
  dsimp only
  split
  · exact h
  split
  next hnone =>
    refine ⟨?_, ?_, ?_⟩
    · intro row hrow
      exact Nat.lt_succ_of_lt (h.earlier row hrow)
    · intro aic k acs hlast hsome
      unfold Index.succeed at hlast
      dsimp only at hlast
      split at hlast
      · obtain ⟨-, rfl⟩ := Prod.mk.inj (Option.some.inj hlast)
        exact (hsome hnone).elim
      · exact h.written aic k acs hlast hsome
    · intro aic k acs hlast hempty
      unfold Index.succeed at hlast
      dsimp only at hlast
      split at hlast
      · obtain ⟨rfl, rfl⟩ := Prod.mk.inj (Option.some.inj hlast)
        refine ⟨Nat.lt_succ_self _, ?_⟩
        intro row hrow
        exact Nat.ne_of_lt (h.earlier row (List.mem_of_mem_filter hrow))
      · obtain ⟨hk, hrows⟩ := h.unwritten aic k acs hlast hempty
        exact ⟨Nat.lt_succ_of_lt hk, hrows⟩
  next hsome =>
    split
    next embeddings hembeddings hraises =>
      obtain rfl := getEmbeddingsBatch_eq update.service hembeddings
      have hrows (aic : String) := rowsOf_replaced model mode index.rows update.acs index.updates aic
      refine ⟨?_, ?_, ?_⟩
      · intro row hrow
        rcases List.mem_append.mp hrow with hold | hnew
        · exact Nat.lt_succ_of_lt (h.earlier row (List.mem_of_mem_filter hold))
        · have hnew : row ∈ writtenRows model mode index.updates update.acs := hnew
          rw [(aic_of_mem_writtenRows hnew).2]
          exact Nat.lt_succ_self _
      · intro aic k acs hlast hwritten
        refine (hrows aic).trans ?_
        unfold Index.succeed at hlast
        dsimp only at hlast
        split at hlast
        next heq =>
          obtain ⟨rfl, rfl⟩ := Prod.mk.inj (Option.some.inj hlast)
          exact if_pos heq
        next hne => exact (if_neg hne).trans (h.written aic k acs hlast hwritten)
      · intro aic k acs hlast hempty
        unfold Index.succeed at hlast
        dsimp only at hlast
        split at hlast
        · obtain ⟨-, rfl⟩ := Prod.mk.inj (Option.some.inj hlast)
          exact (hsome hempty).elim
        next hne =>
          obtain ⟨hk, hother⟩ := h.unwritten aic k acs hlast hempty
          refine ⟨Nat.lt_succ_of_lt hk, ?_⟩
          intro row hrow
          have hrow : row ∈ (index.rows.filter (fun row => row.aic ≠ update.acs.agentAic) ++
              writtenRows model mode index.updates update.acs).filter fun row => row.aic = aic := hrow
          rw [hrows aic, if_neg hne] at hrow
          exact hother row hrow
    next => exact h

theorem expandAgentToSkills_ne_nil (acs : Acs) : expandAgentToSkills acs ≠ [] := by
  unfold expandAgentToSkills
  split
  · exact List.cons_ne_nil _ _
  next hsome => exact fun hnil => hsome (List.map_eq_nil_iff.mp hnil)

theorem writtenRows_of_described {k : ℕ} {acs : Acs}
    (h : ∀ candidate ∈ expandAgentToSkills acs, candidate.description ≠ "") :
    List.Forall₂ (Skill.Of model mode k) (writtenRows model mode k acs) (expandAgentToSkills acs) := by
  have hall : acs.descriptionsToEmbed = (expandAgentToSkills acs).map SkillCandidate.description := by
    unfold Acs.descriptionsToEmbed
    rw [List.filter_eq_self]
    intro description hdescription
    obtain ⟨candidate, hcandidate, rfl⟩ := List.mem_map.mp hdescription
    exact decide_eq_true (h candidate hcandidate)
  unfold writtenRows
  rw [hall, List.map_map, ← List.map_prod_left_eq_zip, List.map_map, List.forall₂_map_left_iff,
    List.forall₂_same]
  intro candidate _
  exact ⟨rfl, rfl, rfl, fun _ => rfl⟩

theorem writtenRows_length_lt {k : ℕ} {acs : Acs} {candidate : SkillCandidate}
    (hcandidate : candidate ∈ expandAgentToSkills acs) (hempty : candidate.description = "") :
    (writtenRows model mode k acs).length < (expandAgentToSkills acs).length := by
  have hless : acs.descriptionsToEmbed.length <
      ((expandAgentToSkills acs).map SkillCandidate.description).length := by
    apply List.length_filter_lt_length_iff_exists.mpr
    exact ⟨_, List.mem_map_of_mem hcandidate, by simpa using hempty⟩
  unfold writtenRows
  rw [List.length_map] at hless
  rw [List.length_map, List.length_zip, List.length_map]
  exact Nat.lt_of_le_of_lt (Nat.min_le_right _ _) hless

theorem follows_iff (h : Inv model mode index) (aic : String) :
    index.Follows model mode aic ↔ ∀ k acs, index.last aic = some (k, acs) →
      ∀ candidate ∈ expandAgentToSkills acs, candidate.description ≠ "" := by
  constructor
  · intro hfollows k acs hlast candidate hcandidate hempty
    obtain ⟨rows, hperm, hrows⟩ := hfollows k acs hlast
    by_cases hnone : acs.descriptionsToEmbed = []
    · obtain ⟨-, hold⟩ := h.unwritten aic k acs hlast hnone
      obtain ⟨first, rest, hcandidates⟩ := List.exists_cons_of_ne_nil (expandAgentToSkills_ne_nil acs)
      rw [hcandidates] at hrows
      cases hrows with
      | cons hrow _ =>
        exact hold _ (hperm.mem_iff.mp List.mem_cons_self) hrow.update
    · have hlength := hperm.length_eq
      rw [h.written aic k acs hlast hnone, hrows.length_eq] at hlength
      exact absurd hlength (Nat.ne_of_gt (writtenRows_length_lt hcandidate hempty))
  · intro hdescribed k acs hlast
    have hall := hdescribed k acs hlast
    have hsome : acs.descriptionsToEmbed ≠ [] := by
      obtain ⟨candidate, hcandidate⟩ := List.exists_mem_of_ne_nil _ (expandAgentToSkills_ne_nil acs)
      apply List.ne_nil_of_mem
      exact List.mem_filter.mpr
        ⟨List.mem_map_of_mem hcandidate, decide_eq_true (hall candidate hcandidate)⟩
    refine ⟨_, .refl _, ?_⟩
    rw [h.written aic k acs hlast hsome]
    exact writtenRows_of_described hall

theorem index_follows {updates : List (Update model)}
    (hrun : (skillIndex model mode).exec Index.initial updates = some index) (aic : String) :
    index.Follows model mode aic ↔ ∀ k acs, index.last aic = some (k, acs) →
      ∀ candidate ∈ expandAgentToSkills acs, candidate.description ≠ "" := by
  have hinitial : Inv model mode (Index.initial : Index δ ω) := by
    refine ⟨?_, ?_, ?_⟩
    · intro row hrow
      cases hrow
    · intro aic k acs hlast
      cases hlast
    · intro aic k acs hlast
      cases hlast
  apply follows_iff
  refine (skillIndex model mode).exec_induction (I := Inv model mode) ?_ hinitial hrun
  intro s update t h ht
  obtain rfl := Option.some.inj ht
  exact inv_updateAgentIndex h update

end Updates

namespace Sample

def texts : Model String Unit := { dense := id, lexicalWeights := fun _ => (), noWeights := () }

def service : Service texts where
  create texts := some texts
  queued text := some { dense := text, sparse := () }
  create_eq := by
    intro texts response h
    rw [← Option.some.inj h]
    exact (List.map_id _).symm
  queued_eq := fun _ _ h => (Option.some.inj h).symm

def update (skills : List AcsSkill) : Update texts :=
  { acs := { aic := some "a", AIC := none, description := none, skills := some skills }
    service, raises := false }

def undescribed : List AcsSkill :=
  [{ id := some "x", description := none }, { id := some "y", description := some "trains" }]

def described : List AcsSkill :=
  [{ id := some "x", description := some "trains" }, { id := some "y", description := some "hotels" }]

end Sample

theorem described_index_follows :
    (Index.initial.updateAgentIndex .cpu (Sample.update Sample.described)).Follows Sample.texts .cpu
      "a" := by
  have hrun : (skillIndex Sample.texts .cpu).exec Index.initial [Sample.update Sample.described] =
      some (Index.initial.updateAgentIndex .cpu (Sample.update Sample.described)) := rfl
  apply (index_follows hrun "a").mpr
  intro k acs hlast
  obtain ⟨rfl, rfl⟩ := Prod.mk.inj (Option.some.inj hlast)
  decide

theorem undescribed_index_shifted :
    (Index.initial.updateAgentIndex .cpu (Sample.update Sample.undescribed)).rows.map
        (fun row => (row.skillId, row.description, row.embedding.dense)) = [("x", "", "trains")] ∧
      ¬ (Index.initial.updateAgentIndex .cpu (Sample.update Sample.undescribed)).Follows Sample.texts
        .cpu "a" := by
  refine ⟨by decide +kernel, ?_⟩
  intro hfollows
  obtain ⟨rows, hperm, hrows⟩ := hfollows 0 _ rfl
  have hlength := hperm.length_eq.symm.trans hrows.length_eq
  revert hlength
  decide +kernel

end Acps.Discovery.SkillIndex
