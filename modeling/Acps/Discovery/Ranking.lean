import Acps.Lib.Dict
import Mathlib.Algebra.Order.Field.Basic
import Mathlib.Algebra.Order.Ring.Rat
import Mathlib.Data.List.Induction
import Mathlib.Data.List.Sort
import Mathlib.Data.List.TakeWhile
import Mathlib.Logic.Function.Basic
import Mathlib.Tactic.NormNum
import Mathlib.Tactic.Positivity

/-!
How the skills that two searches find become an answer: they are fused by their ranks, a few of each
agent are kept, the first ones are ranked anew, and what is not relevant is cut off. A score is of
any type that is ordered, with the arithmetic that `_hybrid_fusion` does on it.
-/

namespace Acps.Discovery

structure RetrievedSkill (P : Type) where
  aic : String
  skillId : String
  rank : ℕ
  rest : P

structure RankedSkill (P S : Type) extends RetrievedSkill P where
  rrfScore : S
  rerankScore : Option S

structure OptimizationConfig (S : Type) where
  coarseK : ℕ
  relevanceThreshold : S
  limitSkillsPerAgent : Bool
  maxSkillsPerAgent : ℕ

/-- What comes back from the reranker: any number of scores, or an error, before which some of the
candidates may have got theirs. -/
inductive RerankAnswer (S : Type) where
  | scores (scores : List S)
  | failed (assigned : List S)

abbrev SkillKey := String × String

variable {P S : Type}

def RetrievedSkill.key (s : RetrievedSkill P) : SkillKey := (s.aic, s.skillId)

def limitSkillsPerAgent (maxPerAgent : ℕ) (agentSkillCount : String → ℕ) :
    List (RankedSkill P S) → List (RankedSkill P S)
  | [] => []
  | skill :: skills =>
    if agentSkillCount skill.aic < maxPerAgent then
      skill :: limitSkillsPerAgent maxPerAgent
        (Function.update agentSkillCount skill.aic (agentSkillCount skill.aic + 1)) skills
    else limitSkillsPerAgent maxPerAgent agentSkillCount skills

def assignScores : List (RankedSkill P S) → List S → List (RankedSkill P S)
  | candidate :: candidates, score :: scores =>
    { candidate with rerankScore := some score } :: assignScores candidates scores
  | candidates, _ => candidates

def rerankTopK : ℕ := 30

structure DiscoveryResult (P S : Type) where
  skill : RankedSkill P S
  ranking : ℕ

/-- A limit of zero is none, and the limit is looked at behind each result. -/
def formatDiscoveryResults (limit : ℤ) (filteredSkills : List (RankedSkill P S)) :
    List (DiscoveryResult P S) :=
  let results := (filteredSkills.zipIdx 1).map fun (skill, ranking) => ⟨skill, ranking⟩
  if limit = 0 then results else results.take (max 1 limit).toNat

section Pipeline

variable [Zero S] [One S] [Add S] [Div S] [NatCast S]

def contribution (rank : ℕ) : S := 1 / ((60 + rank : ℕ) : S)

def rrfScores (results : List (RetrievedSkill P)) : Dict SkillKey S :=
  results.foldl
    (fun scores item => scores.set item.key ((scores.get item.key).getD 0 + contribution item.rank))
    .empty

variable [LinearOrder S]

def hybridFusion (denseResults sparseResults : List (RetrievedSkill P)) (n : ℕ) :
    List (RankedSkill P S) :=
  let sortedItems :=
    ((rrfScores (denseResults ++ sparseResults)).entries.insertionSort fun a b => b.2 ≤ a.2).take n
  sortedItems.filterMap fun (key, score) =>
    ((denseResults ++ sparseResults).find? (·.key = key)).map fun item =>
      { item with rrfScore := score, rerankScore := none }

def rerankResults (candidates : List (RankedSkill P S)) : RerankAnswer S → List (RankedSkill P S)
  | .scores scores => (assignScores candidates scores).insertionSort fun a b =>
      b.rerankScore.getD 0 ≤ a.rerankScore.getD 0
  | .failed assigned => assignScores candidates assigned

def fusedCandidates (c : OptimizationConfig S)
    (denseResults sparseResults : List (RetrievedSkill P)) : List (RankedSkill P S) :=
  let finalResults := hybridFusion denseResults sparseResults c.coarseK
  if c.limitSkillsPerAgent then limitSkillsPerAgent c.maxSkillsPerAgent (fun _ => 0) finalResults
  else finalResults

def rankCandidates (c : OptimizationConfig S)
    (denseResults sparseResults : List (RetrievedSkill P)) :
    Option (RerankAnswer S) → List (RankedSkill P S)
  | none => fusedCandidates c denseResults sparseResults
  | some answer =>
    let finalResults := fusedCandidates c denseResults sparseResults
    rerankResults (finalResults.take rerankTopK) answer ++ finalResults.drop rerankTopK

def belowThreshold (relevanceThreshold : S) (skill : RankedSkill P S) : Bool :=
  skill.rerankScore.any (· < relevanceThreshold)

def truncateByRerankThreshold (relevanceThreshold : S) (finalResults : List (RankedSkill P S)) :
    List (RankedSkill P S) :=
  let top := finalResults.take rerankTopK
  if top.any (belowThreshold relevanceThreshold) then
    top.takeWhile fun skill => !belowThreshold relevanceThreshold skill
  else top ++ finalResults.drop rerankTopK

def discoverAgents (c : OptimizationConfig S) (limit : ℤ)
    (denseResults sparseResults : List (RetrievedSkill P)) (answer : Option (RerankAnswer S)) :
    List (DiscoveryResult P S) :=
  formatDiscoveryResults limit
    (truncateByRerankThreshold c.relevanceThreshold
      (rankCandidates c denseResults sparseResults answer))

end Pipeline

section Fusion

variable [Zero S] [One S] [Add S] [Div S] [NatCast S]
  {results dense sparse : List (RetrievedSkill P)} {a b k : SkillKey} {n : ℕ}

def rrf (results : List (RetrievedSkill P)) (k : SkillKey) : S :=
  (results.filter (·.key = k)).foldl (fun score item => score + contribution item.rank) 0

theorem rrfScores_append (results : List (RetrievedSkill P)) (item : RetrievedSkill P) :
    (rrfScores (results ++ [item]) : Dict SkillKey S) = (rrfScores results).set item.key
      (((rrfScores results).get item.key).getD 0 + contribution item.rank) := by
  rw [rrfScores, List.foldl_append]
  rfl

theorem rrf_of_not_mem (h : k ∉ results.map RetrievedSkill.key) : (rrf results k : S) = 0 := by
  have hnone : results.filter (·.key = k) = [] :=
    List.filter_eq_nil_iff.mpr fun x hx heq => h (List.mem_map.mpr ⟨x, hx, of_decide_eq_true heq⟩)
  rw [rrf, hnone]
  rfl

theorem get_rrfScores (results : List (RetrievedSkill P)) (k : SkillKey) :
    (rrfScores results : Dict SkillKey S).get k =
      if k ∈ results.map RetrievedSkill.key then some (rrf results k) else none := by
  induction results using List.reverseRecOn with
  | nil => rfl
  | append_singleton results item ih =>
    rw [rrfScores_append]
    by_cases hk : item.key = k
    · subst hk
      have hold : ((rrfScores results : Dict SkillKey S).get item.key).getD 0 =
          rrf results item.key := by
        rw [ih]
        split
        next => rfl
        next hnew => exact (rrf_of_not_mem hnew).symm
      rw [Dict.get_set_self, hold, if_pos (by simp), rrf, rrf, List.filter_append,
        List.foldl_append, List.filter_cons_of_pos (by simp)]
      rfl
    · rw [Dict.get_set_ne (Ne.symm hk), ih]
      simp [rrf, hk, Ne.symm hk]

theorem mem_rrfScores {score : S} : (k, score) ∈ (rrfScores results).entries ↔
    k ∈ results.map RetrievedSkill.key ∧ score = rrf results k := by
  rw [← Dict.get_eq_some, get_rrfScores]
  split
  next h => simp [h, eq_comm]
  next h => simp [h]

variable [LinearOrder S]

def fusedItems (results : List (RetrievedSkill P)) : List (SkillKey × S) :=
  (rrfScores results).entries.insertionSort fun a b => b.2 ≤ a.2

theorem fusedItems_perm (results : List (RetrievedSkill P)) :
    (fusedItems results : List (SkillKey × S)).Perm (rrfScores results).entries :=
  List.perm_insertionSort _ _

theorem mem_fusedItems {score : S} : (k, score) ∈ fusedItems results ↔
    k ∈ results.map RetrievedSkill.key ∧ score = rrf results k :=
  (fusedItems_perm results).mem_iff.trans mem_rrfScores

theorem fusedItems_keys_nodup (results : List (RetrievedSkill P)) :
    ((fusedItems results : List (SkillKey × S)).map Prod.fst).Nodup :=
  ((fusedItems_perm results).map Prod.fst).nodup_iff.mpr (rrfScores results).nodup

theorem fusedItems_sorted (results : List (RetrievedSkill P)) :
    (fusedItems results : List (SkillKey × S)).Pairwise fun a b => b.2 ≤ a.2 :=
  haveI : Std.Total fun a b : SkillKey × S => b.2 ≤ a.2 := ⟨fun a b => le_total b.2 a.2⟩
  haveI : IsTrans (SkillKey × S) fun a b => b.2 ≤ a.2 := ⟨fun _ _ _ h h' => h'.trans h⟩
  List.pairwise_insertionSort _ _

theorem hybridFusion_eq (dense sparse : List (RetrievedSkill P)) (n : ℕ) :
    (hybridFusion dense sparse n : List (RankedSkill P S)).map (fun s => (s.key, s.rrfScore)) =
      (fusedItems (dense ++ sparse)).take n := by
  rw [hybridFusion, List.map_filterMap]
  refine (List.filterMap_congr fun e he => ?_).trans List.filterMap_some
  obtain ⟨item, hitem, hkey⟩ := List.mem_map.mp (mem_fusedItems.mp (List.mem_of_mem_take he)).1
  cases hfind : (dense ++ sparse).find? (·.key = e.1) with
  | none => simpa [hkey] using List.find?_eq_none.mp hfind item hitem
  | some found =>
    have hfound : found.key = e.1 := by simpa using List.find?_some hfind
    simp only [hfind, Option.map_some]
    exact congrArg some (Prod.ext hfound rfl)

theorem hybridFusion_keys (dense sparse : List (RetrievedSkill P)) (n : ℕ) :
    (hybridFusion dense sparse n : List (RankedSkill P S)).map (·.key) =
      ((fusedItems (dense ++ sparse) : List (SkillKey × S)).map Prod.fst).take n := by
  rw [← List.map_take, ← hybridFusion_eq, List.map_map]
  rfl

structure Fuses (results : List (RetrievedSkill P)) (n : ℕ) (fused : List (RankedSkill P S)) :
    Prop where
  distinct : (fused.map (·.key)).Nodup
  first : ∀ s ∈ fused, results.find? (·.key = s.key) = some s.toRetrievedSkill
  score : ∀ s ∈ fused, s.rrfScore = rrf results s.key
  unscored : ∀ s ∈ fused, s.rerankScore = none
  sorted : fused.Pairwise fun s s' => s'.rrfScore ≤ s.rrfScore
  count : fused.length ≤ n
  best : ∀ item ∈ results, item.key ∉ fused.map (·.key) →
    fused.length = n ∧ ∀ s ∈ fused, rrf results item.key ≤ s.rrfScore

theorem mem_hybridFusion {s : RankedSkill P S} (h : s ∈ hybridFusion dense sparse n) :
    (dense ++ sparse).find? (·.key = s.key) = some s.toRetrievedSkill ∧
      s.rrfScore = rrf (dense ++ sparse) s.key ∧ s.rerankScore = none := by
  have hscore : (s.key, s.rrfScore) ∈ (fusedItems (dense ++ sparse)).take n := by
    rw [← hybridFusion_eq]
    exact List.mem_map.mpr ⟨s, h, rfl⟩
  obtain ⟨e, _, he⟩ := List.mem_filterMap.mp h
  obtain ⟨item, hitem, rfl⟩ := Option.map_eq_some_iff.mp he
  have hkey : item.key = e.1 := by simpa using List.find?_some hitem
  refine ⟨?_, (mem_fusedItems.mp (List.mem_of_mem_take hscore)).2, rfl⟩
  rw [← hkey] at hitem
  exact hitem

theorem hybridFusion_distinct (dense sparse : List (RetrievedSkill P)) (n : ℕ) :
    ((hybridFusion dense sparse n : List (RankedSkill P S)).map (·.key)).Nodup := by
  rw [hybridFusion_keys]
  exact (fusedItems_keys_nodup _).sublist (List.take_sublist _ _)

theorem length_hybridFusion (dense sparse : List (RetrievedSkill P)) (n : ℕ) :
    (hybridFusion dense sparse n : List (RankedSkill P S)).length =
      min n (fusedItems (dense ++ sparse) : List (SkillKey × S)).length := by
  rw [← List.length_take, ← hybridFusion_eq, List.length_map]

theorem hybridFusion_fuses (dense sparse : List (RetrievedSkill P)) (n : ℕ) :
    Fuses (dense ++ sparse) n (hybridFusion dense sparse n : List (RankedSkill P S)) := by
  have hitems := hybridFusion_eq (S := S) dense sparse n
  have hlength := length_hybridFusion (S := S) dense sparse n
  have hsorted := fusedItems_sorted (S := S) (dense ++ sparse)
  refine ⟨hybridFusion_distinct _ _ _, fun s h => (mem_hybridFusion h).1,
    fun s h => (mem_hybridFusion h).2.1, fun s h => (mem_hybridFusion h).2.2, ?_,
    hlength.trans_le (min_le_left _ _), fun item hitem hout => ?_⟩
  · have htaken := hsorted.sublist (List.take_sublist n _)
    rw [← hitems] at htaken
    exact List.pairwise_map.mp htaken
  · -- What is left out stands behind the cut, and the order goes through it.
    have hmem : (item.key, rrf (dense ++ sparse) item.key) ∈
        (fusedItems (dense ++ sparse) : List (SkillKey × S)) :=
      mem_fusedItems.mpr ⟨List.mem_map.mpr ⟨item, hitem, rfl⟩, rfl⟩
    rw [← List.take_append_drop n (fusedItems (dense ++ sparse)), ← hitems] at hmem hsorted
    have hdropped := (List.mem_append.mp hmem).resolve_left fun h => hout (by
      obtain ⟨s, hs, heq⟩ := List.mem_map.mp h
      exact List.mem_map.mpr ⟨s, hs, congrArg Prod.fst heq⟩)
    constructor
    · have hbehind := List.length_pos_of_mem hdropped
      rw [List.length_drop] at hbehind
      omega
    · intro s hs
      exact (List.pairwise_append.mp hsorted).2.2 _ (List.mem_map.mpr ⟨s, hs, rfl⟩) _ hdropped

end Fusion

section Agreement

variable [Zero S] [One S] [Add S] [Div S] [NatCast S]
  {results dense sparse : List (RetrievedSkill P)} {a b : SkillKey} {n : ℕ}

theorem filter_key (h : (results.map RetrievedSkill.key).Nodup) {x : RetrievedSkill P}
    (hx : x ∈ results) : results.filter (·.key = x.key) = [x] := by
  have hpairs : (results.map fun y => (y.key, y)).filter (Prod.fst · = x.key) = [(x.key, x)] :=
    Dict.filter_of_mem (by rwa [List.map_map]) (List.mem_map.mpr ⟨x, hx, rfl⟩)
  rw [List.filter_map] at hpairs
  simpa [Function.comp_def] using congrArg (List.map Prod.snd) hpairs

variable [LinearOrder S]

end Agreement

section Answer

variable {c : OptimizationConfig S} {limit : ℤ} {skills : List (RankedSkill P S)} {scores : List S}

theorem assignScores_retrieved (candidates : List (RankedSkill P S)) (scores : List S) :
    (assignScores candidates scores).map (·.toRetrievedSkill) =
      candidates.map (·.toRetrievedSkill) := by
  induction candidates generalizing scores with
  | nil => simp [assignScores]
  | cons candidate candidates ih =>
    cases scores with
    | nil => rfl
    | cons score scores => simp [assignScores, ih]

theorem assignScores_map (candidates : List (RankedSkill P S)) (score : RankedSkill P S → S) :
    assignScores candidates (candidates.map score) =
      candidates.map fun s => { s with rerankScore := some (score s) } := by
  induction candidates with
  | nil => rfl
  | cons candidate candidates ih => simp [assignScores, ih]

theorem take_drop_rerankTopK {ranked : List (RankedSkill P S)}
    (h : ranked.length = (skills.take rerankTopK).length) :
    (ranked ++ skills.drop rerankTopK).take rerankTopK = ranked ∧
      (ranked ++ skills.drop rerankTopK).drop rerankTopK = skills.drop rerankTopK := by
  rw [List.length_take] at h
  rcases le_total skills.length rerankTopK with hle | hle
  · rw [min_eq_right hle] at h
    rw [List.drop_eq_nil_of_le hle, List.append_nil, List.take_of_length_le (h.trans_le hle),
      List.drop_eq_nil_of_le (h.trans_le hle)]
    exact ⟨rfl, rfl⟩
  · rw [min_eq_left hle] at h
    exact ⟨List.take_left' h, List.drop_left' h⟩

variable [LinearOrder S]

theorem takeWhile_eq_filter {α : Type} {p : α → Bool} {l : List α}
    (h : l.Pairwise fun a b => p b = true → p a = true) : l.takeWhile p = l.filter p := by
  induction l with
  | nil => rfl
  | cons a l ih =>
    rw [List.pairwise_cons] at h
    by_cases ha : p a = true
    · rw [List.takeWhile_cons_of_pos ha, List.filter_cons_of_pos ha, ih h.2]
    · rw [List.takeWhile_cons_of_neg ha, List.filter_cons_of_neg ha,
        List.filter_eq_nil_iff.mpr fun b hb hpb => ha (h.1 b hb hpb)]

variable [Zero S]

theorem rerankResults_retrieved (candidates : List (RankedSkill P S)) (answer : RerankAnswer S) :
    ((rerankResults candidates answer).map (·.toRetrievedSkill)).Perm
      (candidates.map (·.toRetrievedSkill)) := by
  cases answer with
  | scores scores =>
    rw [← assignScores_retrieved candidates scores]
    exact (List.perm_insertionSort _ _).map _
  | failed assigned =>
    rw [rerankResults, assignScores_retrieved]

theorem rerankResults_sorted (candidates : List (RankedSkill P S)) (scores : List S) :
    (rerankResults candidates (.scores scores)).Pairwise
      fun s s' => s'.rerankScore.getD 0 ≤ s.rerankScore.getD 0 :=
  haveI : Std.Total fun s s' : RankedSkill P S =>
      s'.rerankScore.getD 0 ≤ s.rerankScore.getD 0 := ⟨fun _ _ => le_total _ _⟩
  haveI : IsTrans (RankedSkill P S) fun s s' =>
      s'.rerankScore.getD 0 ≤ s.rerankScore.getD 0 := ⟨fun _ _ _ h h' => h'.trans h⟩
  List.pairwise_insertionSort _ _

theorem relevant_of_le {relevanceThreshold : S} {s s' : RankedSkill P S}
    (hs : s.rerankScore.isSome = true) (hs' : s'.rerankScore.isSome = true)
    (hle : s'.rerankScore.getD 0 ≤ s.rerankScore.getD 0)
    (h : (!belowThreshold relevanceThreshold s') = true) :
    (!belowThreshold relevanceThreshold s) = true := by
  obtain ⟨x, hx⟩ := Option.isSome_iff_exists.mp hs
  obtain ⟨x', hx'⟩ := Option.isSome_iff_exists.mp hs'
  simp only [belowThreshold, hx, hx', Option.any_some, Option.getD_some, Bool.not_eq_true',
    decide_eq_false_iff_not, not_lt] at hle h ⊢
  exact h.trans hle

theorem length_rerankResults (candidates : List (RankedSkill P S)) (answer : RerankAnswer S) :
    (rerankResults candidates answer).length = candidates.length := by
  simpa using (rerankResults_retrieved candidates answer).length_eq

variable [One S] [Add S] [Div S] [NatCast S] {dense sparse : List (RetrievedSkill P)}
  {answer : Option (RerankAnswer S)}

/-- Where each skill that is sent gets a score, exactly those below the threshold are left out, and
what was not sent is only returned if there are none. -/
theorem discoverAgents_scored (c : OptimizationConfig S) (limit : ℤ)
    (dense sparse : List (RetrievedSkill P)) (score : RankedSkill P S → S) :
    ∃ ranked : List (RankedSkill P S),
      ranked.Perm (((fusedCandidates c dense sparse).take rerankTopK).map
        fun s => { s with rerankScore := some (score s) }) ∧
      ranked.Pairwise (fun s s' => s'.rerankScore.getD 0 ≤ s.rerankScore.getD 0) ∧
      discoverAgents c limit dense sparse
          (some (.scores (((fusedCandidates c dense sparse).take rerankTopK).map score))) =
        formatDiscoveryResults limit (if ranked.any (belowThreshold c.relevanceThreshold) then
            ranked.filter fun s => !belowThreshold c.relevanceThreshold s
          else ranked ++ (fusedCandidates c dense sparse).drop rerankTopK) := by
  have hperm : (rerankResults ((fusedCandidates c dense sparse).take rerankTopK)
      (.scores (((fusedCandidates c dense sparse).take rerankTopK).map score))).Perm _ :=
    List.perm_insertionSort _ _
  rw [assignScores_map] at hperm
  have hsorted := rerankResults_sorted ((fusedCandidates c dense sparse).take rerankTopK)
    (((fusedCandidates c dense sparse).take rerankTopK).map score)
  have hscored : ∀ s ∈ rerankResults ((fusedCandidates c dense sparse).take rerankTopK)
      (.scores (((fusedCandidates c dense sparse).take rerankTopK).map score)),
      s.rerankScore.isSome = true := by
    intro s hs
    obtain ⟨_, _, rfl⟩ := List.mem_map.mp (hperm.mem_iff.mp hs)
    rfl
  refine ⟨_, hperm, hsorted, ?_⟩
  have hcut := takeWhile_eq_filter (p := fun s => !belowThreshold c.relevanceThreshold s)
    (hsorted.imp_of_mem fun hs hs' => relevant_of_le (hscored _ hs) (hscored _ hs'))
  rw [discoverAgents, rankCandidates, truncateByRerankThreshold,
    (take_drop_rerankTopK (length_rerankResults _ _)).1,
    (take_drop_rerankTopK (length_rerankResults _ _)).2, hcut]

end Answer

end Acps.Discovery
