import Acps.Lib.Transition
import Mathlib.Data.List.Nodup
import Mathlib.Data.List.Range
import Mathlib.Logic.Function.Basic

/-!
The queue before the local embedding model. The worker gathers waiting requests into a batch, has
the model encode it, and settles the future of each. A future is named by the number of its request.
-/

namespace Acps.Discovery

structure QueueItem where
  text : String
  future : ℕ
  returnDense : Bool
  returnSparse : Bool

structure EmbeddingResult (V W : Type) where
  denseVecs : Option (List V)
  lexicalWeights : Option (List W)

structure Encoder (V W : Type) where
  dense : String → V
  sparse : String → W

inductive Settled (V W : Type) where
  | result (r : EmbeddingResult V W)
  | exception
  | cancelled

inductive WorkerPhase where
  | collecting
  | inferring
  | ended
  deriving DecidableEq

structure EmbeddingWorker (V W : Type) where
  made : List QueueItem
  queue : List QueueItem
  batch : List QueueItem
  phase : WorkerPhase
  futures : ℕ → Option (Settled V W)

inductive Inference where
  | embeddings
  | failed
  | raised

inductive WorkerAct where
  | getEmbedding (text : String) (returnDense returnSparse : Bool)
  | abandon (future : ℕ)
  | take
  | close
  | infer (outcome : Inference)
  | stopWorkers

variable {V W : Type}

def Encoder.embed (E : Encoder V W) (returnDense returnSparse : Bool) (text : String) :
    EmbeddingResult V W where
  denseVecs := if returnDense then some [E.dense text] else none
  lexicalWeights := if returnSparse then some [E.sparse text] else none

def settle (outcome : ℕ → Settled V W) :
    List (QueueItem × ℕ) → (ℕ → Option (Settled V W)) → ℕ → Option (Settled V W)
  | [], futures => futures
  | (item, idx) :: rest, futures =>
    settle outcome rest
      (if (futures item.future).isSome then futures
       else Function.update futures item.future (some (outcome idx)))

def publishBatchResults (E : Encoder V W) (batch : List QueueItem) :
    (ℕ → Option (Settled V W)) → ℕ → Option (Settled V W) :=
  let returnDense := batch.head?.all QueueItem.returnDense
  let returnSparse := batch.head?.any QueueItem.returnSparse
  let denseVecs := batch.map fun item => E.dense item.text
  let lexicalWeights := batch.map fun item => E.sparse item.text
  settle (fun idx => .result
    { denseVecs := if returnDense then some ((denseVecs.drop idx).take 1) else none
      lexicalWeights := if returnSparse then some ((lexicalWeights.drop idx).take 1) else none })
    batch.zipIdx

def setBatchException (batch : List QueueItem) :
    (ℕ → Option (Settled V W)) → ℕ → Option (Settled V W) :=
  settle (fun _ => .exception) batch.zipIdx

def drainQueue (queue : List QueueItem) :
    (ℕ → Option (Settled V W)) → ℕ → Option (Settled V W) :=
  settle (fun _ => .cancelled) queue.zipIdx

namespace EmbeddingWorker

def start : EmbeddingWorker V W := ⟨[], [], [], .collecting, fun _ => none⟩

def step (E : Encoder V W) (batchSize : ℕ) (s : EmbeddingWorker V W) :
    WorkerAct → Option (EmbeddingWorker V W)
  | .getEmbedding text returnDense returnSparse =>
    let item := ⟨text, s.made.length, returnDense, returnSparse⟩
    some { s with made := s.made ++ [item], queue := s.queue ++ [item] }
  | .abandon future =>
    if future < s.made.length ∧ s.futures future = none then
      some { s with futures := Function.update s.futures future (some .cancelled) }
    else none
  | .take =>
    match s.queue with
    | [] => none
    | item :: queue =>
      if s.phase = .collecting ∧ (s.batch = [] ∨ s.batch.length < batchSize) then
        some { s with queue := queue, batch := s.batch ++ [item] }
      else none
  | .close =>
    if s.phase = .collecting ∧ s.batch ≠ [] then some { s with phase := .inferring } else none
  | .infer outcome =>
    if s.phase = .inferring then
      match outcome with
      | .embeddings => some { s with
          batch := [], phase := .collecting, futures := publishBatchResults E s.batch s.futures }
      | .failed => some { s with
          batch := [], phase := .collecting, futures := setBatchException s.batch s.futures }
      | .raised => some { s with phase := .ended }
    else none
  | .stopWorkers =>
    some { s with queue := [], phase := .ended, futures := drainQueue s.queue s.futures }

end EmbeddingWorker

def embeddingWorker (E : Encoder V W) (batchSize : ℕ) :
    Transition.System (EmbeddingWorker V W) WorkerAct := ⟨EmbeddingWorker.step E batchSize⟩

section Settle

variable {outcome : ℕ → Settled V W} {futures : ℕ → Option (Settled V W)} {i : ℕ}
  {items : List QueueItem}

theorem settle_eq (outcome : ℕ → Settled V W) (pairs : List (QueueItem × ℕ))
    (futures : ℕ → Option (Settled V W)) (i : ℕ) :
    settle outcome pairs futures i =
      (futures i).or ((pairs.find? fun p => p.1.future = i).map fun p => outcome p.2) := by
  induction pairs generalizing futures with
  | nil => simp [settle]
  | cons p pairs ih =>
    obtain ⟨item, idx⟩ := p
    rw [settle, ih]
    by_cases hi : item.future = i
    · subst hi
      cases hf : futures item.future <;> simp [hf]
    · have hsame : (if (futures item.future).isSome then futures
          else Function.update futures item.future (some (outcome idx))) i = futures i := by
        split
        next => rfl
        next => exact Function.update_of_ne (Ne.symm hi) _ _
      rw [hsame, List.find?_cons_of_neg (by simpa using hi)]

theorem settle_cases (outcome : ℕ → Settled V W) (items : List QueueItem)
    (futures : ℕ → Option (Settled V W)) (i : ℕ) :
    settle outcome items.zipIdx futures i = futures i ∧
        ((futures i).isSome ∨ ∀ item ∈ items, item.future ≠ i) ∨
      futures i = none ∧ ∃ item idx, items[idx]? = some item ∧ item.future = i ∧
        settle outcome items.zipIdx futures i = some (outcome idx) := by
  rw [settle_eq]
  cases hf : futures i with
  | some x => exact .inl ⟨rfl, .inl rfl⟩
  | none =>
    cases hfind : items.zipIdx.find? fun p => p.1.future = i with
    | none =>
      refine .inl ⟨rfl, .inr fun item hitem heq => ?_⟩
      obtain ⟨idx, hidx⟩ := List.mem_iff_getElem?.mp hitem
      have hpair : (item, idx) ∈ items.zipIdx := List.mk_mem_zipIdx_iff_getElem?.mpr hidx
      exact absurd heq (by simpa using List.find?_eq_none.mp hfind _ hpair)
    | some p =>
      have hkey : p.1.future = i := by simpa using List.find?_some hfind
      exact .inr ⟨rfl, p.1, p.2, List.mk_mem_zipIdx_iff_getElem?.mp (List.mem_of_find?_eq_some hfind),
        hkey, rfl⟩

theorem settle_isSome {item : QueueItem} (h : item ∈ items) :
    (settle outcome items.zipIdx futures item.future).isSome = true := by
  rcases settle_cases outcome items futures item.future with ⟨heq, hsome | hnone⟩ | ⟨_, _, _, _, _, h⟩
  · rw [heq]
    exact hsome
  · exact absurd rfl (hnone item h)
  · rw [h]
    rfl

theorem publishBatchResults_cases (E : Encoder V W) (batch : List QueueItem)
    (futures : ℕ → Option (Settled V W)) (i : ℕ) :
    publishBatchResults E batch futures i = futures i ∧
        ((futures i).isSome ∨ ∀ item ∈ batch, item.future ≠ i) ∨
      futures i = none ∧ ∃ item ∈ batch, item.future = i ∧
        publishBatchResults E batch futures i = some (.result (E.embed
          (batch.head?.all QueueItem.returnDense) (batch.head?.any QueueItem.returnSparse)
          item.text)) := by
  rcases settle_cases _ batch futures i with h | ⟨hnone, item, idx, hidx, hi, h⟩
  · exact .inl h
  · refine .inr ⟨hnone, item, List.mem_of_getElem? hidx, hi, h.trans ?_⟩
    simp [Encoder.embed, List.take_one, List.head?_drop, hidx]

end Settle

section Runs

variable {E : Encoder V W} {batchSize : ℕ} {s t : EmbeddingWorker V W} {a : WorkerAct} {i : ℕ}

theorem step_futures (h : s.step E batchSize a = some t) (i : ℕ) :
    t.futures i = s.futures i ∨ s.futures i = none ∧
      (i < s.made.length ∨ ∃ item ∈ s.batch ++ s.queue, item.future = i) ∧
      (t.futures i = some .exception ∨ t.futures i = some .cancelled ∨
        a = .infer .embeddings ∧ ∃ item ∈ s.batch, item.future = i ∧
          t.futures i = some (.result (E.embed (s.batch.head?.all QueueItem.returnDense)
            (s.batch.head?.any QueueItem.returnSparse) item.text))) := by
  cases a with
  | getEmbedding text returnDense returnSparse =>
    obtain rfl := Option.some.inj h
    exact .inl rfl
  | abandon future =>
    obtain ⟨⟨hlt, hnone⟩, h⟩ := Option.ite_none_right_eq_some.mp h
    obtain rfl := Option.some.inj h
    by_cases hi : i = future
    · subst hi
      exact .inr ⟨hnone, .inl hlt, .inr (.inl (Function.update_self ..))⟩
    · exact .inl (Function.update_of_ne hi _ _)
  | take =>
    unfold EmbeddingWorker.step at h
    dsimp only at h
    split at h
    next => cases h
    next =>
      obtain ⟨_, h⟩ := Option.ite_none_right_eq_some.mp h
      obtain rfl := Option.some.inj h
      exact .inl rfl
  | close =>
    obtain ⟨_, h⟩ := Option.ite_none_right_eq_some.mp h
    obtain rfl := Option.some.inj h
    exact .inl rfl
  | infer outcome =>
    obtain ⟨_, h⟩ := Option.ite_none_right_eq_some.mp h
    cases outcome with
    | embeddings =>
      obtain rfl := Option.some.inj h
      rcases publishBatchResults_cases E s.batch s.futures i with ⟨heq, _⟩ | ⟨hnone, item, hitem, hi, h⟩
      · exact .inl heq
      · exact .inr ⟨hnone, .inr ⟨item, List.mem_append_left _ hitem, hi⟩,
          .inr (.inr ⟨rfl, item, hitem, hi, h⟩)⟩
    | failed =>
      obtain rfl := Option.some.inj h
      rcases settle_cases (fun _ => .exception) s.batch s.futures i with
        ⟨heq, _⟩ | ⟨hnone, item, idx, hidx, hi, h⟩
      · exact .inl heq
      · exact .inr ⟨hnone, .inr ⟨item, List.mem_append_left _ (List.mem_of_getElem? hidx), hi⟩,
          .inl h⟩
    | raised =>
      obtain rfl := Option.some.inj h
      exact .inl rfl
  | stopWorkers =>
    obtain rfl := Option.some.inj h
    rcases settle_cases (fun _ => .cancelled) s.queue s.futures i with
      ⟨heq, _⟩ | ⟨hnone, item, idx, hidx, hi, h⟩
    · exact .inl heq
    · exact .inr ⟨hnone, .inr ⟨item, List.mem_append_right _ (List.mem_of_getElem? hidx), hi⟩,
        .inr (.inl h)⟩

theorem step_futures_of_some {x : Settled V W} (h : s.step E batchSize a = some t)
    (hi : s.futures i = some x) : t.futures i = some x := by
  rcases step_futures h i with heq | ⟨hnone, _⟩
  · rw [heq, hi]
  · rw [hi] at hnone
    cases hnone

/-- Until the worker ends, what was requested is settled from the front on, and the rest of it is in
the batch and the queue in the order of the requests. -/
structure Serves (E : Encoder V W) (batchSize : ℕ) (s : EmbeddingWorker V W) : Prop where
  numbered : ∀ i, ∀ item : QueueItem, s.made[i]? = some item → item.future = i
  held : s.batch ++ s.queue ⊆ s.made
  size : s.batch.length ≤ max 1 batchSize
  unmade : ∀ i, s.made.length ≤ i → s.futures i = none
  served : s.phase ≠ .ended → ∃ past, s.made = past ++ (s.batch ++ s.queue) ∧
    ∀ item ∈ past, (s.futures item.future).isSome = true
  own : ∀ item ∈ s.made, ∀ r, s.futures item.future = some (.result r) →
    ∃ returnDense returnSparse, r = E.embed returnDense returnSparse item.text

theorem Serves.lt_of_mem (hs : Serves E batchSize s) {item : QueueItem} (h : item ∈ s.made) :
    item.future < s.made.length := by
  obtain ⟨i, hi⟩ := List.mem_iff_getElem?.mp h
  rw [hs.numbered i item hi]
  exact (List.getElem?_eq_some_iff.mp hi).1

theorem Serves.eq_of_future (hs : Serves E batchSize s) {item item' : QueueItem}
    (h : item ∈ s.made) (h' : item' ∈ s.made) (heq : item.future = item'.future) :
    item = item' := by
  obtain ⟨i, hi⟩ := List.mem_iff_getElem?.mp h
  obtain ⟨j, hj⟩ := List.mem_iff_getElem?.mp h'
  rw [hs.numbered i item hi, hs.numbered j item' hj] at heq
  subst heq
  exact Option.some.inj (hi.symm.trans hj)

theorem Serves.of_step (hs : Serves E batchSize s) (h : s.step E batchSize a = some t)
    (hmade : t.made = s.made) (hheld : t.batch ++ t.queue ⊆ s.batch ++ s.queue)
    (hsize : t.batch.length ≤ max 1 batchSize)
    (hserved : t.phase ≠ .ended → ∃ past, t.made = past ++ (t.batch ++ t.queue) ∧
      ∀ item ∈ past, (t.futures item.future).isSome = true) : Serves E batchSize t where
  numbered := hmade ▸ hs.numbered
  held := hmade ▸ List.Subset.trans hheld hs.held
  size := hsize
  unmade i hi := by
    rw [hmade] at hi
    rcases step_futures h i with heq | ⟨_, hlt | ⟨item, hitem, rfl⟩, _⟩
    · rw [heq, hs.unmade i hi]
    · exact absurd hi (Nat.not_le_of_lt hlt)
    · exact absurd hi (Nat.not_le_of_lt (hs.lt_of_mem (hs.held hitem)))
  served := hserved
  own := by
    intro item hitem r hr
    rw [hmade] at hitem
    rcases step_futures h item.future with
      heq | ⟨_, _, hx | hx | ⟨_, item', hitem', hi, hx⟩⟩
    · exact hs.own item hitem r (heq ▸ hr)
    · rw [hx] at hr
      cases hr
    · rw [hx] at hr
      cases hr
    · obtain rfl := hs.eq_of_future (hs.held (List.mem_append_left _ hitem')) hitem hi
      rw [hx] at hr
      cases hr
      exact ⟨_, _, rfl⟩

theorem serves_step (hs : Serves E batchSize s) (h : s.step E batchSize a = some t) :
    Serves E batchSize t := by
  have hkept : ∀ {past : List QueueItem}, (∀ item ∈ past, (s.futures item.future).isSome = true) →
      ∀ item ∈ past, (t.futures item.future).isSome = true := by
    intro past hpast item hitem
    obtain ⟨x, hx⟩ := Option.isSome_iff_exists.mp (hpast item hitem)
    rw [step_futures_of_some h hx]
    rfl
  have hstep := h
  cases a with
  | getEmbedding text returnDense returnSparse =>
    obtain rfl := Option.some.inj h
    refine ⟨fun i item hi => ?_, ?_, hs.size, fun i hi => ?_, fun hphase => ?_, ?_⟩
    · rw [List.getElem?_append] at hi
      split at hi
      next => exact hs.numbered i item hi
      next hge =>
        obtain ⟨hlt, hget⟩ := List.getElem?_eq_some_iff.mp hi
        have hlast : i = s.made.length := by simp at hlt; omega
        rw [List.getElem_singleton] at hget
        rw [← hget, hlast]
    · intro item hitem
      rw [← List.append_assoc] at hitem
      exact (List.mem_append.mp hitem).elim (fun h => List.mem_append_left _ (hs.held h))
        (List.mem_append_right _)
    · rw [List.length_append] at hi
      exact hs.unmade i (Nat.le_of_add_right_le hi)
    · obtain ⟨past, hmade, hpast⟩ := hs.served hphase
      exact ⟨past, by simp [hmade, List.append_assoc], hpast⟩
    · intro item hitem r hr
      rcases List.mem_append.mp hitem with hitem | hitem
      · exact hs.own item hitem r hr
      · rw [List.mem_singleton.mp hitem, hs.unmade _ le_rfl] at hr
        cases hr
  | abandon future =>
    obtain ⟨_, h⟩ := Option.ite_none_right_eq_some.mp h
    obtain rfl := Option.some.inj h
    refine hs.of_step hstep rfl (List.Subset.refl _) hs.size fun hphase => ?_
    obtain ⟨past, hmade, hpast⟩ := hs.served hphase
    exact ⟨past, hmade, hkept hpast⟩
  | take =>
    unfold EmbeddingWorker.step at h
    dsimp only at h
    split at h
    next => cases h
    next item queue hqueue =>
      obtain ⟨⟨_, hroom⟩, h⟩ := Option.ite_none_right_eq_some.mp h
      obtain rfl := Option.some.inj h
      have hsame : s.batch ++ [item] ++ queue = s.batch ++ s.queue := by
        rw [hqueue, List.append_assoc]
        rfl
      refine hs.of_step hstep rfl (hsame ▸ List.Subset.refl _) ?_ fun hphase => ?_
      · rw [List.length_append, List.length_singleton]
        rcases hroom with hempty | hroom
        · rw [hempty]
          exact Nat.le_max_left _ _
        · exact Nat.le_trans hroom (Nat.le_max_right _ _)
      · obtain ⟨past, hmade, hpast⟩ := hs.served hphase
        exact ⟨past, hmade.trans (congrArg (past ++ ·) hsame.symm), hpast⟩
  | close =>
    obtain ⟨⟨hphase, _⟩, h⟩ := Option.ite_none_right_eq_some.mp h
    obtain rfl := Option.some.inj h
    exact hs.of_step hstep rfl (List.Subset.refl _) hs.size
      fun _ => hs.served (by rw [hphase]; decide)
  | infer outcome =>
    obtain ⟨hphase, h⟩ := Option.ite_none_right_eq_some.mp h
    obtain ⟨past, hmade, hpast⟩ := hs.served (by rw [hphase]; decide)
    -- The batch joins what is settled.
    have hdone : (∀ item ∈ s.batch, (t.futures item.future).isSome = true) →
        ∃ past, s.made = past ++ ([] ++ s.queue) ∧
          ∀ item ∈ past, (t.futures item.future).isSome = true := by
      refine fun hbatch => ⟨past ++ s.batch, by rw [hmade, List.append_assoc, List.nil_append], ?_⟩
      intro item hitem
      exact (List.mem_append.mp hitem).elim (hkept hpast item) (hbatch item)
    cases outcome with
    | embeddings =>
      obtain rfl := Option.some.inj h
      exact hs.of_step hstep rfl (List.subset_append_right _ _) (Nat.zero_le _)
        fun _ => hdone fun item hitem => settle_isSome hitem
    | failed =>
      obtain rfl := Option.some.inj h
      exact hs.of_step hstep rfl (List.subset_append_right _ _) (Nat.zero_le _)
        fun _ => hdone fun item hitem => settle_isSome hitem
    | raised =>
      obtain rfl := Option.some.inj h
      exact hs.of_step hstep rfl (List.Subset.refl _) hs.size fun hphase => absurd rfl hphase
  | stopWorkers =>
    obtain rfl := Option.some.inj h
    refine hs.of_step hstep rfl ?_ hs.size fun hphase => absurd rfl hphase
    rw [List.append_nil]
    exact List.subset_append_left _ _

theorem serves_start : Serves E batchSize .start :=
  ⟨by simp [EmbeddingWorker.start], List.Subset.refl _, Nat.zero_le _, fun _ _ => rfl,
    fun _ => ⟨[], rfl, by simp⟩, fun _ h => absurd h List.not_mem_nil⟩

theorem serves_exec {as : List WorkerAct} (hs : Serves E batchSize s)
    (h : (embeddingWorker E batchSize).exec s as = some t) : Serves E batchSize t :=
  (embeddingWorker E batchSize).exec_induction (fun _ _ _ hs hstep => serves_step hs hstep) hs h

theorem embedding_requests_served {as : List WorkerAct}
    (h : (embeddingWorker E batchSize).exec .start as = some t) : Serves E batchSize t :=
  serves_exec serves_start h

def AsAsked (E : Encoder V W) (s : EmbeddingWorker V W) : Prop :=
  ∀ item ∈ s.made, ∀ r, s.futures item.future = some (.result r) →
    r = E.embed item.returnDense item.returnSparse item.text

/-- The first request of a batch asks for what the others do that are still waited for. -/
def Uniform (s : EmbeddingWorker V W) (a : WorkerAct) : Prop :=
  a = .infer .embeddings → ∀ item ∈ s.batch, s.futures item.future = none →
    s.batch.head?.all QueueItem.returnDense = item.returnDense ∧
      s.batch.head?.any QueueItem.returnSparse = item.returnSparse

theorem embed_inj {d d' p p' : Bool} {text : String}
    (h : E.embed d p text = E.embed d' p' text) : d = d' ∧ p = p' := by
  simp only [Encoder.embed, EmbeddingResult.mk.injEq] at h
  obtain ⟨hd, hp⟩ := h
  constructor
  · cases d <;> cases d' <;> simp_all
  · cases p <;> cases p' <;> simp_all

theorem made_step (h : s.step E batchSize a = some t) :
    t.made = s.made ∨ ∃ item, item.future = s.made.length ∧ t.made = s.made ++ [item] := by
  cases a with
  | getEmbedding text returnDense returnSparse =>
    obtain rfl := Option.some.inj h
    exact .inr ⟨_, rfl, rfl⟩
  | infer outcome =>
    left
    cases outcome <;> grind [EmbeddingWorker.step]
  | abandon | take | close | stopWorkers =>
    left
    grind [EmbeddingWorker.step]

theorem asAsked_step (hs : Serves E batchSize s) (h : s.step E batchSize a = some t) :
    AsAsked E t ↔ AsAsked E s ∧ Uniform s a := by
  have hmade : ∀ item ∈ s.made, item ∈ t.made := by
    rcases made_step h with heq | ⟨_, _, heq⟩ <;> simp +contextual [heq]
  constructor
  · refine fun hasked => ⟨fun item hitem r hr => hasked item (hmade item hitem) r
      (step_futures_of_some h hr), ?_⟩
    rintro rfl item hitem hnone
    obtain ⟨_, h⟩ := Option.ite_none_right_eq_some.mp h
    obtain rfl := Option.some.inj h
    have hheld := hs.held (List.mem_append_left _ hitem)
    rcases publishBatchResults_cases E s.batch s.futures item.future with
      ⟨_, hsome | hother⟩ | ⟨_, item', hitem', hi, hr⟩
    · simp [hnone] at hsome
    · exact absurd rfl (hother item hitem)
    · obtain rfl := hs.eq_of_future (hs.held (List.mem_append_left _ hitem')) hheld hi
      exact embed_inj (hasked _ hheld _ hr)
  · rintro ⟨hasked, huniform⟩ item hitem r hr
    have hold : item ∈ s.made ∨ s.made.length ≤ item.future := by
      rcases made_step h with heq | ⟨new, hnew, heq⟩
      · exact .inl (heq ▸ hitem)
      · rw [heq, List.mem_append, List.mem_singleton] at hitem
        refine hitem.imp_right fun hlast => ?_
        rw [hlast, hnew]
    rcases step_futures h item.future with heq | ⟨hnone, _, hx | hx | ⟨ha, item', hitem', hi, hx⟩⟩
    · rw [heq] at hr
      rcases hold with hitem | hlate
      · exact hasked item hitem r hr
      · rw [hs.unmade _ hlate] at hr
        cases hr
    · rw [hx] at hr
      cases hr
    · rw [hx] at hr
      cases hr
    · have hheld := hs.held (List.mem_append_left _ hitem')
      have hitem := hold.resolve_right (hi ▸ Nat.not_le_of_lt (hs.lt_of_mem hheld))
      obtain rfl := hs.eq_of_future hheld hitem hi
      obtain ⟨hdense, hsparse⟩ := huniform ha _ hitem' hnone
      rw [hx] at hr
      cases hr
      rw [hdense, hsparse]

theorem asAsked_exec {as : List WorkerAct} (hs : Serves E batchSize s)
    (h : (embeddingWorker E batchSize).exec s as = some t) :
    AsAsked E t ↔ AsAsked E s ∧ (embeddingWorker E batchSize).Meets Uniform s as := by
  induction as generalizing s with
  | nil =>
    obtain rfl := Option.some.inj h
    exact (and_iff_left trivial).symm
  | cons a as ih =>
    obtain ⟨u, hu, hrest⟩ := (embeddingWorker E batchSize).exec_cons_eq_some.mp h
    rw [ih (serves_step hs hu) hrest, asAsked_step hs hu, and_assoc]
    refine and_congr_right fun _ => and_congr_right fun _ =>
      ⟨fun hmeets t' ht' => ?_, fun hall => hall u hu⟩
    obtain rfl := Option.some.inj (hu.symm.trans ht')
    exact hmeets

theorem answered_as_asked_iff {as : List WorkerAct}
    (h : (embeddingWorker E batchSize).exec .start as = some t) :
    AsAsked E t ↔ (embeddingWorker E batchSize).Meets Uniform .start as := by
  rw [asAsked_exec serves_start h]
  exact and_iff_right fun _ hitem => absurd hitem List.not_mem_nil

theorem ended_step (h : s.step E batchSize a = some t) (hphase : s.phase = .ended)
    (hi : s.futures i = none) (hstop : a ≠ .stopWorkers) (habandon : a ≠ .abandon i) :
    t.phase = .ended ∧ t.futures i = none := by
  cases a with
  | infer outcome => simp [EmbeddingWorker.step, hphase] at h
  | stopWorkers => exact absurd rfl hstop
  | abandon future =>
    obtain ⟨_, h⟩ := Option.ite_none_right_eq_some.mp h
    obtain rfl := Option.some.inj h
    refine ⟨hphase, (Function.update_of_ne (fun heq => habandon ?_) _ _).trans hi⟩
    rw [heq]
  | getEmbedding | take | close => grind [EmbeddingWorker.step]

theorem Serves.distinct (hs : Serves E batchSize s) : (s.made.map QueueItem.future).Nodup := by
  have hmap : s.made.map QueueItem.future = List.range s.made.length := by
    refine List.ext_getElem (by simp) fun i hi _ => ?_
    rw [List.getElem_map, List.getElem_range]
    exact hs.numbered i _ (List.getElem?_eq_getElem _)
  rw [hmap]
  exact List.nodup_range

/-- What a worker holds when it is stopped is left to wait. -/
theorem held_left_waiting {as : List WorkerAct} {item : QueueItem} (bs : List WorkerAct)
    (hs : (embeddingWorker E batchSize).exec .start as = some s) (hphase : s.phase ≠ .ended)
    (hitem : item ∈ s.batch) (hpending : s.futures item.future = none)
    (hstop : .stopWorkers ∉ bs) (habandon : .abandon item.future ∉ bs)
    (h : (embeddingWorker E batchSize).exec s (.stopWorkers :: bs) = some t) :
    t.futures item.future = none := by
  obtain ⟨u, hu, hrest⟩ := (embeddingWorker E batchSize).exec_cons_eq_some.mp h
  have hserves := serves_exec serves_start hs
  have hkept : u.phase = .ended ∧ u.futures item.future = none := by
    obtain rfl := Option.some.inj hu
    refine ⟨rfl, ?_⟩
    rcases settle_cases (fun _ => .cancelled) s.queue s.futures item.future with
      ⟨heq, _⟩ | ⟨_, item', idx, hidx, hi, _⟩
    · exact heq.trans hpending
    · obtain ⟨past, hmade, _⟩ := hserves.served hphase
      have hdistinct := hserves.distinct
      rw [hmade, List.map_append, List.map_append] at hdistinct
      have hapart := List.disjoint_of_nodup_append (List.nodup_append.mp hdistinct).2.1
      exact absurd (List.mem_map.mpr ⟨item', List.mem_of_getElem? hidx, hi⟩)
        (hapart (List.mem_map.mpr ⟨item, hitem, rfl⟩))
  have hC : (embeddingWorker E batchSize).Meets
      (fun _ a => a ≠ .stopWorkers ∧ a ≠ .abandon item.future) u bs :=
    (embeddingWorker E batchSize).meets_of_forall
      (fun a ha _ => ⟨fun heq => hstop (heq ▸ ha), fun heq => habandon (heq ▸ ha)⟩) u
  exact ((embeddingWorker E batchSize).exec_invariant
    (fun _ _ _ hI hC hstep => ended_step hstep hI.1 hI.2 hC.1 hC.2) hkept hC hrest).2

namespace Sample

def encoder : Encoder Unit Unit := ⟨fun _ => (), fun _ => ()⟩

def mixed : List WorkerAct :=
  [.getEmbedding "a" true false, .getEmbedding "b" true true, .take, .take]

end Sample

theorem mixed_served : ∃ t, (embeddingWorker Sample.encoder 2).exec .start Sample.mixed = some t ∧
    Serves Sample.encoder 2 t := by
  have hexec : (embeddingWorker Sample.encoder 2).exec .start Sample.mixed = some _ := rfl
  exact ⟨_, hexec, embedding_requests_served hexec⟩

theorem mixed_cut_short : ∃ t, (embeddingWorker Sample.encoder 2).exec .start
      (Sample.mixed ++ [.close, .infer .embeddings]) = some t ∧ ¬ AsAsked Sample.encoder t ∧
    ¬ (embeddingWorker Sample.encoder 2).Meets Uniform .start
      (Sample.mixed ++ [.close, .infer .embeddings]) := by
  have hexec : (embeddingWorker Sample.encoder 2).exec .start
      (Sample.mixed ++ [.close, .infer .embeddings]) = some _ := rfl
  refine ⟨_, hexec, ?_⟩
  rw [← answered_as_asked_iff hexec, and_self]
  intro hasked
  have hlexical := hasked ⟨"b", 1, true, true⟩ (.tail _ (.head _)) _ rfl
  exact absurd (congrArg EmbeddingResult.lexicalWeights hlexical) (by decide)

theorem mixed_left_waiting : ∃ t, (embeddingWorker Sample.encoder 2).exec .start
      (Sample.mixed ++ [.stopWorkers]) = some t ∧ t.futures 1 = none := by
  have hheld : (embeddingWorker Sample.encoder 2).exec .start Sample.mixed = some _ := rfl
  have hitem : (⟨"b", 1, true, true⟩ : QueueItem) ∈ [⟨"a", 0, true, false⟩, ⟨"b", 1, true, true⟩] :=
    .tail _ (.head _)
  exact ⟨_, rfl, held_left_waiting [] hheld (by decide) hitem rfl List.not_mem_nil List.not_mem_nil
    rfl⟩

end Runs

end Acps.Discovery
