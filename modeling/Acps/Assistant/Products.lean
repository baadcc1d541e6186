import Acps.Lib.Transition
import Acps.Assistant.GateLoop

/-!
How the products of the partners are collected: the classification of the results makes a new product
map, and the answers to the commands of the gate are added to it.
-/

namespace Acps.Assistant.AipExecutor.CompletionGate

open Partner (TaskState)

/-- What the leader holds while it collects: its result, the last task result that it received from
each partner, and whether the results have been classified since they were last polled. -/
structure Collecting where
  progress : Progress
  received : String → Option TaskResult
  classified : Bool

inductive Receipt where
  | completed
  | forceCompleted
  | continued
  deriving DecidableEq

inductive CollectAct where
  | start (tasks : List PartnerTaskInfo) (answers : String → Except String TaskResult)
  | poll (tasks : List PartnerTaskInfo) (answers : String → Except String TaskResult)
  | classify
  | setPhase (phase : ExecutionPhase) (error : Option String)
  | answer (receipt : Receipt) (aic : String) (task : TaskResult)
  | updatePhase

namespace Collecting

def startPartner (answers : String → Except String TaskResult) (result : ExecutionResult)
    (task : PartnerTaskInfo) : ExecutionResult :=
  match answers task.1 with
  | .ok started =>
    { result with partnerResults := setResult result.partnerResults (.ofTask task started) }
  | .error error =>
    { result with
      partnerResults := setResult result.partnerResults (.ofError task error)
      failedPartners := result.failedPartners ++ [task.1] }

def startPartners (tasks : List PartnerTaskInfo) (answers : String → Except String TaskResult) :
    Progress :=
  { result := tasks.foldl (startPartner answers) (.ofPhase .starting), shared := [] }

def receivedBy (tasks : List PartnerTaskInfo) (answers : String → Except String TaskResult)
    (before : String → Option TaskResult) (aic : String) : Option TaskResult :=
  if aic ∈ tasks.map Prod.fst then
    match answers aic with
    | .ok task => some task
    | .error _ => before aic
  else before aic

def receipt (p : Progress) (aic : String) (task : TaskResult) : Receipt → Progress
  | .completed => p.completed aic task
  | .forceCompleted => p.forceCompleted aic task
  | .continued => p.continued aic task

def step (s : Collecting) : CollectAct → Collecting
  | .start tasks answers =>
    { progress := startPartners tasks answers
      received := receivedBy tasks answers fun _ => none
      classified := false }
  | .poll tasks answers =>
    { progress := pollRound tasks answers s.progress
      received := receivedBy tasks answers s.received
      classified := false }
  | .classify => { s with progress := s.progress.classify, classified := true }
  | .setPhase phase error =>
    { s with progress :=
        { s.progress with result := { s.progress.result with phase, error } } }
  | .answer receipt aic task =>
    { s with
      progress := Collecting.receipt s.progress aic task receipt
      received := Function.update s.received aic (some task) }
  | .updatePhase => { s with progress := s.progress.updatePhase }

def initial : Collecting :=
  { progress := { result := .ofPhase .starting, shared := [] }, received := fun _ => none
    classified := false }

end Collecting

def collecting : Transition.System Collecting CollectAct where
  step s a := some (s.step a)

section Entries

def entry (products : List (String × List String)) (aic : String) : List String :=
  (Keyed.find Prod.fst products aic).elim [] Prod.snd

variable {products : List (String × List String)} {aic other : String}

theorem entry_setProducts_of_ne (items : List String) (hne : other ≠ aic) :
    entry (setProducts products aic items) other = entry products other := by
  unfold setProducts entry
  split
  · exact congrArg (fun found : Option (String × List String) => found.elim [] Prod.snd)
      (Keyed.find_modify_of_ne (fun _ _ => rfl) hne)
  · unfold Keyed.find
    rw [List.find?_append, List.find?_singleton, if_neg (by simpa using hne.symm), Option.or_none]

theorem entry_extendProducts_of_ne (items : List String) (hne : other ≠ aic) :
    entry (extendProducts products aic items) other = entry products other := by
  unfold extendProducts entry
  split
  · exact congrArg (fun found : Option (String × List String) => found.elim [] Prod.snd)
      (Keyed.find_modify_of_ne (fun _ _ => rfl) hne)
  · unfold Keyed.find
    rw [List.find?_append, List.find?_singleton, if_neg (by simpa using hne.symm), Option.or_none]

theorem entry_extendProducts_self (items : List String) :
    entry (extendProducts products aic items) aic = entry products aic ++ items := by
  unfold extendProducts entry
  cases hfind : Keyed.find Prod.fst products aic with
  | none =>
    rw [if_neg (by simp)]
    have hnone : products.find? (fun product => product.1 = aic) = none := hfind
    unfold Keyed.find
    rw [List.find?_append, hnone]
    simp
  | some product =>
    have hself : Keyed.find Prod.fst
        (Keyed.modify Prod.fst products aic fun product => (aic, product.2 ++ items)) aic =
          (Keyed.find Prod.fst products aic).map fun product => (aic, product.2 ++ items) :=
      Keyed.find_modify_self fun _ _ => rfl
    rw [Option.isSome_some, if_pos rfl, hself, hfind]
    rfl

theorem entry_foldl_extendProducts (items : List (List String)) :
    entry (items.foldl (fun products product => extendProducts products aic product) products) aic =
      entry products aic ++ items.flatten := by
  induction items generalizing products with
  | nil => simp
  | cons product items ih =>
    rw [List.foldl_cons, ih, entry_extendProducts_self, List.flatten_cons, List.append_assoc]

theorem entry_foldl_extendProducts_of_ne (items : List (List String)) (hne : other ≠ aic) :
    entry (items.foldl (fun products product => extendProducts products aic product) products) other =
      entry products other := by
  induction items generalizing products with
  | nil => rfl
  | cons product items ih => rw [List.foldl_cons, ih, entry_extendProducts_of_ne product hne]

end Entries

def productItems (task : Option TaskResult) : List String := (task.elim [] TaskResult.products).flatten

section Classification

variable {pers : List PartnerExecutionResult} {per : PartnerExecutionResult}
  {result : ExecutionResult} {aic : String}

theorem entry_classify_of_ne (hne : aic ≠ per.partnerAic) :
    entry (classify result per).products aic = entry result.products aic := by
  unfold classify
  split
  · rfl
  · exact entry_setProducts_of_ne _ hne
  · exact entry_foldl_extendProducts_of_ne _ hne
  all_goals rfl

theorem entry_foldl_classify_of_notMem
    (h : aic ∉ pers.map PartnerExecutionResult.partnerAic) :
    entry (pers.foldl classify result).products aic = entry result.products aic := by
  induction pers generalizing result with
  | nil => rfl
  | cons per pers ih =>
    rw [List.map_cons, List.mem_cons, not_or] at h
    rw [List.foldl_cons, ih h.2, entry_classify_of_ne h.1]

theorem entry_foldl_classify (hdistinct : Keyed.Unique PartnerExecutionResult.partnerAic pers)
    (hper : per ∈ pers) (hcompleted : per.state = .completed) :
    entry (pers.foldl classify result).products per.partnerAic =
      entry result.products per.partnerAic ++ productItems per.task := by
  induction pers generalizing result with
  | nil => exact absurd hper List.not_mem_nil
  | cons first pers ih =>
    obtain ⟨hnew, hdistinct⟩ := List.nodup_cons.mp hdistinct
    rw [List.foldl_cons]
    rcases List.mem_cons.mp hper with rfl | hper
    · rw [entry_foldl_classify_of_notMem hnew]
      unfold classify
      rw [hcompleted]
      exact entry_foldl_extendProducts _
    · have hne : per.partnerAic ≠ first.partnerAic := fun heq =>
        hnew (heq ▸ List.mem_map_of_mem hper)
      rw [ih hdistinct hper, entry_classify_of_ne hne]

theorem entry_classifyResults
    (hdistinct : Keyed.Unique PartnerExecutionResult.partnerAic result.partnerResults)
    (hper : per ∈ result.partnerResults) (hcompleted : per.state = .completed) :
    entry (classifyResults result).products per.partnerAic = productItems per.task := by
  unfold classifyResults
  rw [entry_foldl_classify hdistinct hper hcompleted]
  rfl

end Classification

section Receipts

variable {p : Progress} {aic other : String}

theorem withItems_append (first second : List String) (per : PartnerExecutionResult) :
    withItems second (withItems first per) = withItems (first ++ second) per := by
  unfold withItems
  rw [List.append_assoc]

theorem withItems_nil (per : PartnerExecutionResult) : withItems [] per = per := by
  unfold withItems
  rw [List.append_nil]

theorem extend_shared (p : Progress) (aic : String) (items : List String) :
    (p.extend aic items).shared = p.shared := by
  unfold Progress.extend
  split <;> rfl

theorem extend_products (p : Progress) (aic : String) (items : List String) :
    (p.extend aic items).result.products = extendProducts p.result.products aic items := by
  unfold Progress.extend
  split <;> rfl

theorem foldl_extend_products (items : List (List String)) (p : Progress) :
    (items.foldl (fun p product => p.extend aic product) p).result.products =
      items.foldl (fun products product => extendProducts products aic product)
        p.result.products := by
  induction items generalizing p with
  | nil => rfl
  | cons product items ih => rw [List.foldl_cons, ih, extend_products, List.foldl_cons]

theorem find_foldl_extend (items : List (List String)) (p : Progress) :
    (items.foldl (fun p product => p.extend aic product) p).find aic =
      if aic ∈ p.shared then (p.find aic).map (withItems items.flatten) else p.find aic := by
  induction items generalizing p with
  | nil =>
    rw [List.flatten_nil, funext withItems_nil]
    split
    · exact (Option.map_id' (x := p.find aic)).symm
    · rfl
  | cons product items ih =>
    rw [List.foldl_cons, ih, extend_shared, find_extend]
    split
    · rw [Option.map_map, List.flatten_cons]
      exact congrArg (fun f => (p.find aic).map f) (funext fun per => withItems_append _ _ per)
    · rfl

theorem find_receiveCompleted (task : TaskResult) :
    (p.receiveCompleted aic task).find aic =
      (p.find aic).map fun per =>
        if aic ∈ p.shared then withItems task.products.flatten (withTask task per)
        else withTask task per := by
  unfold Progress.receiveCompleted
  split
  · rw [find_foldl_extend, find_receive]
    have hshared : (p.receive aic task).shared = p.shared := rfl
    rw [hshared]
    split
    · rw [Option.map_map]
      rfl
    · rfl
  next hnone =>
    have hfind : p.find aic = none := by simpa using hnone
    rw [hfind]
    rfl

theorem entry_receiveCompleted (task : TaskResult) (h : (p.find aic).isSome) :
    entry (p.receiveCompleted aic task).result.products aic =
      entry p.result.products aic ++ task.products.flatten := by
  unfold Progress.receiveCompleted
  rw [if_pos h, foldl_extend_products, entry_foldl_extendProducts]
  rfl

theorem entry_receiveCompleted_of_ne (task : TaskResult) (hne : other ≠ aic) :
    entry (p.receiveCompleted aic task).result.products other = entry p.result.products other := by
  unfold Progress.receiveCompleted
  split
  · rw [foldl_extend_products, entry_foldl_extendProducts_of_ne _ hne]
    rfl
  · rfl

def answeredResult (p : Progress) (aic : String) (task : TaskResult) :
    Receipt → PartnerExecutionResult → PartnerExecutionResult
  | .continued, per => withTask task per
  | .completed, per | .forceCompleted, per =>
    if aic ∈ p.shared then withItems task.products.flatten (withTask task per)
    else withTask task per

theorem receipt_answered (receipt : Receipt) (task : TaskResult) :
    Answered aic task p (Collecting.receipt p aic task receipt) := by
  cases receipt with
  | completed => exact completed_answered task
  | forceCompleted => exact forceCompleted_answered task
  | continued => exact continued_answered task

theorem find_receipt (receipt : Receipt) (task : TaskResult) :
    (Collecting.receipt p aic task receipt).find aic =
      (p.find aic).map (answeredResult p aic task receipt) := by
  cases receipt with
  | completed => exact find_receiveCompleted task
  | forceCompleted => exact find_receiveCompleted task
  | continued => exact find_receive task

theorem entry_receipt_of_ne (receipt : Receipt) (task : TaskResult) (hne : other ≠ aic) :
    entry (Collecting.receipt p aic task receipt).result.products other =
      entry p.result.products other := by
  cases receipt with
  | completed => exact entry_receiveCompleted_of_ne task hne
  | forceCompleted => exact entry_receiveCompleted_of_ne task hne
  | continued => rfl

theorem entry_receipt (receipt : Receipt) (task : TaskResult) (h : (p.find aic).isSome) :
    entry (Collecting.receipt p aic task receipt).result.products aic =
      entry p.result.products aic ++
        if receipt = .continued then [] else task.products.flatten := by
  cases receipt with
  | completed => exact entry_receiveCompleted task h
  | forceCompleted => exact entry_receiveCompleted task h
  | continued => exact (List.append_nil _).symm

end Receipts

section Runs

variable {s : Collecting} {aic : String}

/-- After a classification the products of each partner that has completed are the items of the
products in the last task result received from it. -/
def Right (s : Collecting) : Prop :=
  s.classified = true → ∀ aic per, s.progress.find aic = some per → per.state = .completed →
    entry s.progress.result.products aic = productItems (s.received aic)

def KeepsItems (s t : Collecting) : Prop :=
  ∀ aic, (t.progress.find aic).map PartnerExecutionResult.dataItems =
    (s.progress.find aic).map PartnerExecutionResult.dataItems

def CollectAct.isAnswer : CollectAct → Bool
  | .answer .. => true
  | _ => false

/-- A step after which the products are right, and that changes no recorded items if it is an answer
to a command. -/
def Honest (s : Collecting) (a : CollectAct) : Prop :=
  ∀ t, collecting.step s a = some t → Right t ∧ (a.isAnswer = true → KeepsItems s t)

/-- The answers that do no harm: no products come while the entry of the partner is the list of its
data items; a partner that has completed had no entry, or, when it was told to continue, just the
entry that its products make. -/
def Careful (s : Collecting) : CollectAct → Prop
  | .answer receipt aic task => (s.progress.find aic).isSome = true →
      (receipt ≠ .continued → aic ∈ s.progress.shared → task.products.flatten = []) ∧
      (s.classified = true → task.state = .completed →
        entry s.progress.result.products aic =
          if receipt = .continued then task.products.flatten else [])
  | _ => True

structure Tracked (s : Collecting) : Prop where
  distinct : s.progress.Distinct
  last : ∀ aic per, s.progress.find aic = some per → per.task = s.received aic

theorem answer_right_iff {receipt : Receipt} {task : TaskResult} (h : Right s) :
    Right (s.step (.answer receipt aic task)) ↔
      ((s.progress.find aic).isSome = true → s.classified = true → task.state = .completed →
        entry s.progress.result.products aic =
          if receipt = .continued then task.products.flatten else []) := by
  have hsame (items : List String) :
      items ++ (if receipt = .continued then [] else task.products.flatten) =
          task.products.flatten ↔
        items = if receipt = .continued then task.products.flatten else [] := by
    split
    · rw [List.append_nil]
    · exact List.append_left_eq_self
  constructor
  · intro hright hsome hclassified hstate
    obtain ⟨per, hper⟩ := Option.isSome_iff_exists.mp hsome
    have hfind : (Collecting.receipt s.progress aic task receipt).find aic = _ :=
      find_receipt receipt task
    rw [hper, Option.map_some] at hfind
    have hanswered : (answeredResult s.progress aic task receipt per).state = .completed := by
      rw [← hstate]
      unfold answeredResult
      cases receipt with
      | continued => rfl
      | completed | forceCompleted => dsimp only; split <;> rfl
    have hentry := hright hclassified aic _ hfind hanswered
    dsimp only [Collecting.step] at hentry
    rw [entry_receipt receipt task hsome, Function.update_self] at hentry
    exact (hsame _).mp hentry
  · intro hcareful hclassified other per hper hstate
    dsimp only [Collecting.step] at hper ⊢
    by_cases hne : other = aic
    · subst hne
      have hfind : (Collecting.receipt s.progress other task receipt).find other = _ :=
        find_receipt receipt task
      rw [hper] at hfind
      obtain ⟨old, hold, -⟩ := Option.map_eq_some_iff.mp hfind.symm
      have hsome : (s.progress.find other).isSome = true := by rw [hold]; rfl
      have hanswer : Answered other task s.progress _ := receipt_answered receipt task
      have hanswered := hanswer.state
      rw [hper, hold] at hanswered
      have htask : task.state = .completed := by
        rw [← hstate]
        exact (Option.some.inj hanswered).symm
      rw [entry_receipt receipt task hsome, Function.update_self]
      exact (hsame _).mpr (hcareful hsome hclassified htask)
    · rw [(receipt_answered receipt task).others other hne] at hper
      rw [entry_receipt_of_ne receipt task hne, Function.update_of_ne hne]
      exact h hclassified other per hper hstate

theorem answer_keeps_iff {receipt : Receipt} {task : TaskResult} :
    KeepsItems s (s.step (.answer receipt aic task)) ↔
      ((s.progress.find aic).isSome = true → receipt ≠ .continued → aic ∈ s.progress.shared →
        task.products.flatten = []) := by
  have hfind : (Collecting.receipt s.progress aic task receipt).find aic = _ :=
    find_receipt receipt task
  constructor
  · intro hkeeps hsome hreceipt hshared
    obtain ⟨per, hper⟩ := Option.isSome_iff_exists.mp hsome
    have hitems := hkeeps aic
    dsimp only [Collecting.step] at hitems
    rw [hfind, hper, Option.map_some, Option.map_some, Option.map_some] at hitems
    have happend : per.dataItems ++ task.products.flatten = per.dataItems := by
      cases receipt with
      | continued => exact (hreceipt rfl).elim
      | completed | forceCompleted =>
        dsimp only [answeredResult] at hitems
        rw [if_pos hshared] at hitems
        exact Option.some.inj hitems
    exact List.append_right_eq_self.mp happend
  · intro hcareful other
    dsimp only [Collecting.step]
    by_cases hne : other = aic
    · subst hne
      rw [hfind]
      cases hper : s.progress.find other with
      | none => rfl
      | some per =>
        rw [Option.map_some, Option.map_some, Option.map_some]
        have hempty := hcareful (by rw [hper]; rfl)
        cases receipt with
        | continued => rfl
        | completed | forceCompleted =>
          dsimp only [answeredResult]
          split
          next hshared =>
            rw [hempty (by decide) hshared, withItems_nil]
            rfl
          next => rfl
    · rw [(receipt_answered receipt task).others other hne]

theorem startPartners_tracked (tasks : List PartnerTaskInfo)
    (answers : String → Except String TaskResult) :
    Tracked (s.step (.start tasks answers)) := by
  have hfold (done : List PartnerTaskInfo) (result : ExecutionResult)
      (hdistinct : Keyed.Unique PartnerExecutionResult.partnerAic result.partnerResults)
      (hlast : ∀ per ∈ result.partnerResults,
        per.partnerAic ∈ tasks.map Prod.fst ∧ per.task = (answers per.partnerAic).toOption)
      (hdone : ∀ task ∈ done, task ∈ tasks) :
      Keyed.Unique PartnerExecutionResult.partnerAic
          (done.foldl (Collecting.startPartner answers) result).partnerResults ∧
        ∀ per ∈ (done.foldl (Collecting.startPartner answers) result).partnerResults,
          per.partnerAic ∈ tasks.map Prod.fst ∧ per.task = (answers per.partnerAic).toOption := by
    induction done generalizing result with
    | nil => exact ⟨hdistinct, hlast⟩
    | cons task done ih =>
      have hset (per : PartnerExecutionResult) (haic : per.partnerAic = task.1)
          (htask : per.task = (answers task.1).toOption) :
          Keyed.Unique PartnerExecutionResult.partnerAic (setResult result.partnerResults per) ∧
            ∀ other ∈ setResult result.partnerResults per,
              other.partnerAic ∈ tasks.map Prod.fst ∧
                other.task = (answers other.partnerAic).toOption := by
        constructor
        · unfold Keyed.Unique
          rw [GroupExecutor.setResult_aics]
          exact GroupExecutor.addOnce_nodup hdistinct
        · intro other hother
          rcases mem_setResult hother with rfl | hother
          · rw [haic]
            exact ⟨List.mem_map_of_mem (hdone task List.mem_cons_self), htask⟩
          · exact hlast other hother
      rw [List.foldl_cons]
      have hrest := fun result hd hl => ih result hd hl
        fun other hother => hdone other (List.mem_cons_of_mem _ hother)
      unfold Collecting.startPartner
      cases hanswer : answers task.1 with
      | ok started =>
        obtain ⟨hd, hl⟩ := hset (.ofTask task started) rfl (by rw [hanswer]; rfl)
        exact hrest _ hd hl
      | error error =>
        obtain ⟨hd, hl⟩ := hset (.ofError task error) rfl (by rw [hanswer]; rfl)
        exact hrest _ hd hl
  obtain ⟨hdistinct, hlast⟩ := hfold tasks (.ofPhase .starting) List.nodup_nil
    (fun _ h => absurd h List.not_mem_nil) fun _ h => h
  refine ⟨hdistinct, fun aic per hper => ?_⟩
  obtain ⟨hmem, htask⟩ := hlast per (Keyed.mem_of_find hper)
  obtain rfl : per.partnerAic = aic := Keyed.key_of_find hper
  rw [htask]
  change _ = Collecting.receivedBy tasks answers (fun _ => none) per.partnerAic
  unfold Collecting.receivedBy
  rw [if_pos hmem]
  cases answers per.partnerAic <;> rfl

theorem pollRound_tracked (h : Tracked s) (tasks : List PartnerTaskInfo)
    (answers : String → Except String TaskResult) :
    Tracked (s.step (.poll tasks answers)) := by
  refine ⟨pollRound_distinct h.distinct answers, fun aic per hper => ?_⟩
  let f := fun per : PartnerExecutionResult =>
    if per.partnerAic ∈ tasks.map Prod.fst then pollResult per (answers per.partnerAic) else per
  have hf : ∀ per, (f per).partnerAic = per.partnerAic := by
    intro per
    dsimp only [f]
    split
    · unfold pollResult
      split <;> rfl
    · rfl
  have hfind : (pollRound tasks answers s.progress).find aic = (s.progress.find aic).map f :=
    Keyed.find_map hf
  dsimp only [Collecting.step] at hper ⊢
  rw [hfind] at hper
  obtain ⟨old, hold, rfl⟩ := Option.map_eq_some_iff.mp hper
  have haic : old.partnerAic = aic := Keyed.key_of_find hold
  have hlast := h.last aic old hold
  unfold Collecting.receivedBy
  dsimp only [f]
  rw [haic]
  split
  · unfold pollResult
    cases answers aic with
    | ok task => rfl
    | error error => exact hlast
  · exact hlast

theorem step_tracked (h : Tracked s) (a : CollectAct) : Tracked (s.step a) := by
  cases a with
  | start tasks answers => exact startPartners_tracked tasks answers
  | poll tasks answers => exact pollRound_tracked h tasks answers
  | classify =>
    constructor
    · unfold Collecting.step Progress.Distinct
      rw [classify_results]
      exact h.distinct
    · intro aic per hper
      unfold Collecting.step Progress.find at hper
      rw [classify_results] at hper
      exact h.last aic per hper
  | setPhase phase error => exact ⟨h.distinct, h.last⟩
  | answer receipt aic task =>
    have hanswered : Answered aic task s.progress _ := receipt_answered receipt task
    refine ⟨hanswered.distinct h.distinct, fun other per hper => ?_⟩
    dsimp only [Collecting.step] at hper ⊢
    by_cases hne : other = aic
    · subst hne
      rw [find_receipt] at hper
      obtain ⟨old, -, rfl⟩ := Option.map_eq_some_iff.mp hper
      rw [Function.update_self]
      unfold answeredResult
      cases receipt with
      | continued => rfl
      | completed | forceCompleted => dsimp only; split <;> rfl
    · rw [hanswered.others other hne] at hper
      rw [Function.update_of_ne hne]
      exact h.last other per hper
  | updatePhase =>
    constructor
    · unfold Collecting.step Progress.updatePhase Progress.Distinct
      rw [updateExecutionPhase_results]
      exact h.distinct
    · intro aic per hper
      unfold Collecting.step Progress.updatePhase Progress.find at hper
      rw [updateExecutionPhase_results] at hper
      exact h.last aic per hper

theorem classify_right (h : Tracked s) : Right (s.step .classify) := by
  intro _ aic per hper hstate
  unfold Collecting.step Progress.find at hper
  rw [classify_results] at hper
  obtain rfl : per.partnerAic = aic := Keyed.key_of_find hper
  have hentry : entry (classifyResults s.progress.result).products per.partnerAic =
      productItems per.task := entry_classifyResults h.distinct (Keyed.mem_of_find hper) hstate
  rw [h.last per.partnerAic per hper] at hentry
  exact hentry

theorem updateExecutionPhase_products (result : ExecutionResult) :
    (updateExecutionPhase result).products = result.products := by
  unfold updateExecutionPhase
  rw [foldl_reclassify]
  dsimp only
  split <;> [skip; split <;> [skip; split <;> [skip; split]]]
  all_goals rfl

theorem updatePhase_right (h : Right s) : Right (s.step .updatePhase) := by
  intro hclassified aic per hper hstate
  unfold Collecting.step Progress.updatePhase Progress.find at hper
  rw [updateExecutionPhase_results] at hper
  have hentry := h hclassified aic per hper hstate
  unfold Collecting.step Progress.updatePhase
  rw [updateExecutionPhase_products]
  exact hentry

theorem honest_iff (hs : Tracked s) (h : Right s) (a : CollectAct) : Honest s a ↔ Careful s a := by
  have hstep : Honest s a ↔ Right (s.step a) ∧ (a.isAnswer = true → KeepsItems s (s.step a)) := by
    constructor
    · exact fun hhonest => hhonest _ rfl
    · rintro hboth t ht
      rw [← Option.some.inj ht]
      exact hboth
  rw [hstep]
  have hplain (hright : Right (s.step a)) (hno : a.isAnswer = false) :
      Right (s.step a) ∧ (a.isAnswer = true → KeepsItems s (s.step a)) := by
    refine ⟨hright, fun hyes => ?_⟩
    rw [hno] at hyes
    cases hyes
  cases a with
  | start tasks answers =>
    exact iff_of_true (hplain (fun hclassified => by cases hclassified) rfl) trivial
  | poll tasks answers =>
    exact iff_of_true (hplain (fun hclassified => by cases hclassified) rfl) trivial
  | classify => exact iff_of_true (hplain (classify_right hs) rfl) trivial
  | setPhase phase error => exact iff_of_true (hplain h rfl) trivial
  | answer receipt aic task =>
    rw [answer_right_iff h, answer_keeps_iff]
    constructor
    · rintro ⟨hright, hkeeps⟩ hsome
      exact ⟨hkeeps rfl hsome, hright hsome⟩
    · intro hcareful
      exact ⟨fun hsome => (hcareful hsome).2, fun _ hsome => (hcareful hsome).1⟩
  | updatePhase => exact iff_of_true (hplain (updatePhase_right h) rfl) trivial

theorem initial_tracked : Tracked Collecting.initial :=
  ⟨List.nodup_nil, fun _ _ hper => by cases hper⟩

theorem initial_right : Right Collecting.initial := fun hclassified => by cases hclassified

theorem products_collected_iff (acts : List CollectAct) :
    collecting.Meets Honest Collecting.initial acts ↔
      collecting.Meets Careful Collecting.initial acts := by
  apply collecting.meets_congr (I := fun s => Tracked s ∧ Right s)
  · intro s a t ⟨htracked, _⟩ hhonest hstep
    obtain rfl : s.step a = t := Option.some.inj hstep
    exact ⟨step_tracked htracked a, (hhonest _ rfl).1⟩
  · exact fun s a ⟨htracked, hright⟩ => honest_iff htracked hright a
  · exact ⟨initial_tracked, initial_right⟩

end Runs

section Gate

variable {p q r : Progress}

def Collects (p q : Progress) : Prop :=
  ∀ received classified, ∃ acts t,
    collecting.exec ⟨p, received, classified⟩ acts = some t ∧ t.progress = q

theorem Collects.refl (p : Progress) : Collects p p := fun _ _ => ⟨[], _, rfl, rfl⟩

theorem Collects.trans (h : Collects p q) (h' : Collects q r) : Collects p r := by
  intro received classified
  obtain ⟨acts, t, hacts, rfl⟩ := h received classified
  obtain ⟨acts', t', hacts', rfl⟩ := h' t.received t.classified
  exact ⟨acts ++ acts', t', collecting.exec_append_of_exec hacts hacts', rfl⟩

theorem Collects.step (a : CollectAct)
    (h : ∀ received classified, (Collecting.step ⟨p, received, classified⟩ a).progress = q) :
    Collects p q := fun received classified => ⟨[a], _, rfl, h received classified⟩

theorem pollRounds_collects (tasks : List PartnerTaskInfo) (polls : Polls) (n rounds : ℕ)
    (p : Progress) : Collects p (pollRounds tasks polls n rounds p) := by
  induction rounds generalizing n p with
  | zero => exact .refl p
  | succ rounds ih =>
    unfold pollRounds
    have hround : Collects p (pollRound tasks (polls.answers n) p) :=
      .step (.poll tasks (polls.answers n)) fun _ _ => rfl
    split
    · exact .step (.setPhase .timeout (some "Execution timeout")) fun _ _ => rfl
    dsimp only
    split
    next phase _ => exact hround.trans (.step (.setPhase phase _) fun _ _ => rfl)
    next => exact hround.trans (ih (n + 1) _)

theorem pollUntilConverged_collects (tasks : List PartnerTaskInfo) (polls : Polls) (rounds : ℕ)
    (p : Progress) : Collects p (pollUntilConverged tasks polls rounds p) := by
  have hphase : Collects p (p.setPhase .polling) := .step (.setPhase .polling _) fun _ _ => rfl
  exact (hphase.trans (pollRounds_collects tasks polls 1 rounds _)).trans
    (.step .classify fun _ _ => rfl)

theorem updatePhase_collects (p : Progress) : Collects p p.updatePhase :=
  .step .updatePhase fun _ _ => rfl

theorem command_collects (w : World) (round : ℕ) (action : NextAction) (aic aipTaskId : String)
    (receipt : Receipt) (s : GateRun) :
    Collects s.progress (command w round action aic aipTaskId
      (fun p task => Collecting.receipt p aic task receipt) s).progress := by
  unfold command
  dsimp only
  split
  next task _ => exact .step (.answer receipt aic task) fun _ _ => rfl
  next => exact .refl _

theorem applyGateDecisions_collects (w : World) (round : ℕ)
    (decisions : List AwaitingCompletionDecision) (s : GateRun) :
    Collects s.progress (applyGateDecisions w round decisions s).progress := by
  have hdecision (s : GateRun) (decision : AwaitingCompletionDecision) :
      Collects s.progress (applyDecision w round s decision).progress := by
    unfold applyDecision
    dsimp only
    split
    · split
      · exact command_collects w round _ _ _ .completed s
      · exact command_collects w round _ _ _ .continued s
      · exact .refl _
    · exact .refl _
  have hfold : Collects s.progress (decisions.foldl (applyDecision w round) s).progress := by
    induction decisions generalizing s with
    | nil => exact .refl _
    | cons decision decisions ih => exact (hdecision s decision).trans (ih _)
  exact hfold.trans (updatePhase_collects _)

theorem forceCompleteAllPartners_collects (w : World) (s : GateRun) :
    Collects s.progress (forceCompleteAllPartners w s).progress := by
  have hforce (s : GateRun) (aic : String) :
      Collects s.progress (forceComplete w s aic).progress := by
    unfold forceComplete
    split
    · exact command_collects w 0 _ _ _ .forceCompleted s
    · exact .refl _
  have hfold (aics : List String) (s : GateRun) :
      Collects s.progress (aics.foldl (forceComplete w) s).progress := by
    induction aics generalizing s with
    | nil => exact .refl _
    | cons aic aics ih => exact (hforce s aic).trans (ih _)
  exact (hfold _ s).trans (updatePhase_collects _)

theorem gateLoop_collects {w : World} (hdirect : w.group = false) (n rounds : ℕ) (s : GateRun) :
    Collects s.progress (gateLoop w n rounds s).progress := by
  induction rounds generalizing n s with
  | zero => exact .refl _
  | succ rounds ih =>
    have hround (round : GateRound) : Collects s.progress (gateRound w round s).progress := by
      unfold gateRound
      dsimp only
      refine (applyGateDecisions_collects w round.round round.decisions s).trans ?_
      split
      · unfold World.repollUntilConverged
        rw [hdirect, if_neg Bool.false_ne_true]
        exact (pollUntilConverged_collects _ _ _ _).trans (updatePhase_collects _)
      · exact .refl _
    unfold gateLoop
    split
    · split
      · dsimp only
        split
        · exact hround _
        · exact (hround _).trans (ih _ _)
      · exact .refl _
    · exact .refl _

theorem handleAwaitingCompletion_collects {w : World} (hdirect : w.group = false) (p : Progress) :
    Collects p (handleAwaitingCompletionWithLoop w p).progress := by
  unfold handleAwaitingCompletionWithLoop
  dsimp only
  split
  · split
    · exact (gateLoop_collects hdirect 1 w.maxRounds ⟨p, [], []⟩).trans
        (forceCompleteAllPartners_collects w _)
    · exact gateLoop_collects hdirect 1 w.maxRounds ⟨p, [], []⟩
  · exact forceCompleteAllPartners_collects w ⟨p, [], []⟩

end Gate

namespace Sample

def offered : TaskResult := { state := .awaitingCompletion, dataItems := ["draft"], products := [] }

def delivered : TaskResult := { state := .completed, dataItems := [], products := [["final"]] }

def draftThenFinal : List CollectAct :=
  [.start [("a", "dim")] fun _ => .ok offered, .poll [("a", "dim")] fun _ => .ok offered, .classify,
    .updatePhase, .answer .completed "a" delivered, .updatePhase]

end Sample

theorem draft_collected :
    ∃ s, collecting.exec Collecting.initial Sample.draftThenFinal = some s ∧
      (s.progress.find "a").map PartnerExecutionResult.state = some .completed ∧
      entry s.progress.result.products "a" = ["draft", "final"] ∧
      productItems (s.received "a") = ["final"] ∧
      (s.progress.find "a").map PartnerExecutionResult.dataItems = some ["draft", "final"] :=
  ⟨_, rfl, by decide, by decide, by decide, by decide⟩

theorem asking_collects : Collects Sample.twoWaiting
    (handleAwaitingCompletionWithLoop Sample.asking Sample.twoWaiting).progress :=
  handleAwaitingCompletion_collects rfl _

end Acps.Assistant.AipExecutor.CompletionGate
