import Acps.Assistant.AipExecutor

/-!
What a partner is executed over makes no difference to the result, up to the partners that a
notification does not tell of and to the order of the transports.
-/

namespace Acps.Assistant.AipExecutor

open Partner (TaskState)

structure Behaviour where
  before : List TaskResult
  final : TaskResult
  unstable : ∀ r ∈ before, r.state ∉ stableStates
  stable : final.state ∈ stableStates

def Behaviour.reached (b : Behaviour) (i : ℕ) : TaskResult := (b.before[i]?).getD b.final

/-- The leader sees the partners without faults and in time: a stream brings the final result, what a
poll answers is what the partner has reached by then, the final result in the last round at the latest,
and when a wait for a notification may end, the partner has its final result and all callbacks have
been delivered. -/
structure Faultless (rounds : ℕ) (behaviour : String → Behaviour)
    (schedule : String → List NotificationAct) (seen : Seen) : Prop where
  events : ∀ aic, ∃ pre post, seen.events aic = pre ++ .taskResult (behaviour aic).final :: post ∧
    ∀ r, .taskResult r ∈ pre → r ∈ (behaviour aic).before
  polled : ∀ aic, ∃ progress : ℕ → ℕ,
    (∀ n, seen.polled aic n = (behaviour aic).reached (progress n)) ∧
      (behaviour aic).before.length ≤ progress rounds
  expired : ∀ n ≤ rounds, seen.expired n = false
  notified : ∀ aic, notifiedTask.exec NotifiedTask.initial (schedule aic) = some (seen.notified aic) ∧
    (seen.notified aic).stage = .waiting ∧ (seen.notified aic).Delivered ∧
      (seen.notified aic).status = some (behaviour aic).final

structure Outcome where
  partner : String → Option (TaskState × List String)
  awaitingInputPartners : List String
  awaitingCompletionPartners : List String
  completedPartners : List String
  failedPartners : List String
  questionsForUser : List String
  phase : ExecutionPhase

def ExecutionResult.outcome (result : ExecutionResult) : Outcome :=
  { partner := fun aic =>
      (Keyed.find PartnerExecutionResult.partnerAic result.partnerResults aic).map fun per =>
        (per.state, per.dataItems)
    awaitingInputPartners := result.awaitingInputPartners
    awaitingCompletionPartners := result.awaitingCompletionPartners
    completedPartners := result.completedPartners
    failedPartners := result.failedPartners
    questionsForUser := result.questionsForUser
    phase := result.phase }

section Lists

variable {α : Type} {rank : α → ℕ}

def grouped (rank : α → ℕ) (l : List α) : List α :=
  l.filter (fun a => rank a = 0) ++ l.filter (fun a => rank a = 1) ++ l.filter (fun a => rank a = 2)

theorem grouped_perm (hrank : ∀ a, rank a ≤ 2) (l : List α) : (grouped rank l).Perm l := by
  have hsecond : (l.filter fun a => ¬ rank a = 0).filter (fun a => rank a = 1) =
      l.filter fun a => rank a = 1 := by
    rw [List.filter_filter]
    apply List.filter_congr
    intro a _
    by_cases hone : rank a = 1 <;> simp [hone]
  have hthird : (l.filter fun a => ¬ rank a = 0).filter (fun a => !decide (rank a = 1)) =
      l.filter fun a => rank a = 2 := by
    rw [List.filter_filter]
    apply List.filter_congr
    intro a _
    have hle := hrank a
    rw [Bool.eq_iff_iff]
    simp only [decide_not, Bool.and_eq_true, Bool.not_eq_true', decide_eq_false_iff_not,
      decide_eq_true_eq]
    omega
  have hrest := List.filter_append_perm (fun a => decide (rank a = 1))
    (l.filter fun a => ¬ rank a = 0)
  rw [hsecond, hthird] at hrest
  have hall := List.filter_append_perm (fun a => decide (rank a = 0)) l
  simp only [← decide_not] at hall
  unfold grouped
  rw [List.append_assoc]
  exact (hrest.append_left _).trans hall

theorem grouped_map {β : Type} (f : β → α) (l : List β) :
    (grouped (rank ∘ f) l).map f = grouped rank (l.map f) := by
  unfold grouped
  rw [List.map_append, List.map_append, List.filter_map, List.filter_map, List.filter_map]
  rfl

theorem filter_grouped (p : α → Bool) (l : List α) :
    (grouped rank l).filter p = grouped rank (l.filter p) := by
  unfold grouped
  rw [List.filter_append, List.filter_append]
  congr 1
  · congr 1
    · exact List.filter_comm ..
    · exact List.filter_comm ..
  · exact List.filter_comm ..

theorem grouped_eq_self_iff (hrank : ∀ a, rank a ≤ 2) {l : List α} :
    grouped rank l = l ↔ l.Pairwise fun a b => rank a ≤ rank b := by
  constructor
  · intro h
    rw [← h]
    unfold grouped
    have hgroup (n : ℕ) :
        (l.filter fun a => rank a = n).Pairwise fun a b => rank a ≤ rank b := by
      refine List.Pairwise.imp_of_mem (R := fun _ _ => True) ?_ (List.pairwise_of_forall fun _ _ => trivial)
      intro a b ha hb _
      have ha := of_decide_eq_true (List.mem_filter.mp ha).2
      have hb := of_decide_eq_true (List.mem_filter.mp hb).2
      rw [ha, hb]
    have hmem {n : ℕ} {a : α} (ha : a ∈ l.filter fun a => rank a = n) : rank a = n :=
      of_decide_eq_true (List.mem_filter.mp ha).2
    refine List.pairwise_append.mpr ⟨List.pairwise_append.mpr ⟨hgroup 0, hgroup 1, ?_⟩, hgroup 2, ?_⟩
    · intro a ha b hb
      rw [hmem ha]
      exact Nat.zero_le _
    · intro a _ b hb
      rw [hmem hb]
      exact hrank a
  · intro h
    induction l with
    | nil => rfl
    | cons a l ih =>
      obtain ⟨hfirst, hrest⟩ := List.pairwise_cons.mp h
      have ih := ih hrest
      have hempty {n : ℕ} (hn : n < rank a) : l.filter (fun a => rank a = n) = [] := by
        rw [List.filter_eq_nil_iff]
        intro b hb
        have hle := hfirst b hb
        simp only [decide_eq_true_eq]
        omega
      have hcases : rank a = 0 ∨ rank a = 1 ∨ rank a = 2 := by
        have hle := hrank a
        omega
      unfold grouped at ih ⊢
      rcases hcases with hzero | hone | htwo
      · simp [hzero, ih]
      · rw [hempty (n := 0) (by omega)] at ih
        simp [hone, hempty (n := 0) (by omega)]
        simpa using ih
      · rw [hempty (n := 0) (by omega), hempty (n := 1) (by omega)] at ih
        simp [htwo, hempty (n := 0) (by omega), hempty (n := 1) (by omega)]
        simpa using ih

end Lists

def outcomeOf (aics : List String) (reported : String → TaskState × List String) : Outcome :=
  let aicsIn (states : List TaskState) := aics.filter fun aic => (reported aic).1 ∈ states
  { partner := fun aic => if aic ∈ aics then some (reported aic) else none
    awaitingInputPartners := aicsIn [.awaitingInput]
    awaitingCompletionPartners := aicsIn [.awaitingCompletion]
    completedPartners := aicsIn [.completed]
    failedPartners := aicsIn [.failed, .rejected, .canceled]
    questionsForUser := (aicsIn [.awaitingInput]).flatMap fun aic => (reported aic).2
    phase := (checkConvergence (aics.map fun aic => (reported aic).1)).2 }

structure Outcome.Similar (a b : Outcome) : Prop where
  partner : a.partner = b.partner
  awaitingInput : a.awaitingInputPartners.Perm b.awaitingInputPartners
  awaitingCompletion : a.awaitingCompletionPartners.Perm b.awaitingCompletionPartners
  completed : a.completedPartners.Perm b.completedPartners
  failed : a.failedPartners.Perm b.failedPartners
  questions : a.questionsForUser.Perm b.questionsForUser
  phase : a.phase = b.phase

namespace Executor

def rank (e : Executor) (aic : String) : ℕ :=
  match e.strategy aic with
  | .stream => 0
  | .notification => 1
  | .rpc => 2

def aics (e : Executor) (planning : PlanningResult) : List String :=
  (buildPartnerTasks e planning).map Prod.fst

def polling (e : Executor) : Executor :=
  { e with acsCache := fun aic =>
      { e.acsCache aic with streaming := false, notification := false } }

theorem rank_le_two (e : Executor) (aic : String) : e.rank aic ≤ 2 := by
  unfold rank
  split <;> decide

@[simp] theorem polling_strategy (e : Executor) (aic : String) : e.polling.strategy aic = .rpc := rfl

theorem polling_aics (e : Executor) (planning : PlanningResult) :
    e.polling.aics planning = e.aics planning := rfl

end Executor

def Told (b : Behaviour) (schedule : List NotificationAct) : Prop :=
  b.final.terminal = true ∧
    (notifiedTask.Meets NotifiedTask.InTime .initial schedule ∨
      b.final.state = .failed ∧ b.final.dataItems = [])

section Execution

variable {e : Executor} {behaviour : String → Behaviour}
  {schedule : String → List NotificationAct} {seen : Seen} {planning : PlanningResult}
  {rounds : ℕ}

def finals (behaviour : String → Behaviour) (aic : String) : TaskState × List String :=
  ((behaviour aic).final.state, (behaviour aic).final.dataItems)

def reports (e : Executor) (behaviour : String → Behaviour) (seen : Seen) (aic : String) :
    TaskState × List String :=
  match e.strategy aic, (seen.notified aic).future with
  | .notification, .resolved result => (result.state, result.dataItems)
  | .notification, _ => (.failed, [])
  | _, _ => finals behaviour aic

theorem reached_stable (b : Behaviour) {i : ℕ} (h : (b.reached i).state ∈ stableStates) :
    b.reached i = b.final := by
  unfold Behaviour.reached at h ⊢
  cases hr : b.before[i]? with
  | none => rfl
  | some r =>
    rw [hr] at h
    exact (b.unstable r (List.mem_of_getElem? hr) h).elim

theorem Faultless.polled_last (h : Faultless rounds behaviour schedule seen) (aic : String) :
    seen.polled aic rounds = (behaviour aic).final := by
  obtain ⟨progress, hpolled, hlast⟩ := h.polled aic
  rw [hpolled, Behaviour.reached, List.getElem?_eq_none hlast]
  rfl

theorem Faultless.polled_stable (h : Faultless rounds behaviour schedule seen) {aic : String} {n : ℕ}
    (hstable : (seen.polled aic n).state ∈ stableStates) :
    seen.polled aic n = (behaviour aic).final := by
  obtain ⟨progress, hpolled, -⟩ := h.polled aic
  rw [hpolled] at hstable ⊢
  exact reached_stable _ hstable

theorem Faultless.stream (h : Faultless rounds behaviour schedule seen) (task : PartnerTaskInfo) :
    executeOneStreamPartner seen task = .ofTask task (behaviour task.1).final := by
  obtain ⟨pre, post, hevents, hpre⟩ := h.events task.1
  unfold executeOneStreamPartner
  rw [hevents, runStream_eq (fun r hr => (behaviour task.1).unstable r (hpre r hr))
    (behaviour task.1).stable]

theorem Faultless.polls (h : Faultless rounds behaviour schedule seen) (tasks : List PartnerTaskInfo)
    {n left : ℕ} {result : ExecutionResult} (hrounds : n + left = rounds)
    (hresult : result.partnerResults =
      tasks.map fun task => .ofTask task (seen.polled task.1 n)) :
    (pollUntilConverged seen tasks (n + 1) left result).partnerResults =
      tasks.map fun task => .ofTask task (behaviour task.1).final := by
  induction left generalizing n result with
  | zero =>
    obtain rfl : n = rounds := hrounds
    rw [pollUntilConverged, hresult]
    apply List.map_congr_left
    intro task _
    rw [h.polled_last]
  | succ left ih =>
    have hpoll : pollAllPartners seen tasks (n + 1) result.partnerResults =
        tasks.map fun task => .ofTask task (seen.polled task.1 (n + 1)) := by
      unfold pollAllPartners
      rw [hresult, List.map_map]
      apply List.map_congr_left
      intro task htask
      exact if_pos (List.mem_map_of_mem htask)
    rw [pollUntilConverged, h.expired (n + 1) (by omega)]
    simp only [Bool.false_eq_true, if_false, hpoll]
    split
    next hconverged =>
      apply List.map_congr_left
      intro task htask
      have hstable := checkConvergence_eq_true.mp (congrArg Prod.fst hconverged) _
        (List.mem_map_of_mem (List.mem_map_of_mem htask))
      rw [h.polled_stable hstable]
    next => exact ih (by omega) rfl

theorem distinct_map {tasks : List PartnerTaskInfo} (h : Keyed.Unique Prod.fst tasks)
    {f : PartnerTaskInfo → PartnerExecutionResult} (hf : ∀ task, (f task).partnerAic = task.1) :
    Keyed.Unique PartnerExecutionResult.partnerAic (tasks.map f) := by
  unfold Keyed.Unique
  rw [List.map_map]
  have hsame : PartnerExecutionResult.partnerAic ∘ f = Prod.fst := funext hf
  rw [hsame]
  exact h

theorem Faultless.executeTasks (h : Faultless e.maxExecutionRounds behaviour schedule seen) :
    (executeTasks e seen planning).partnerResults =
      (buildPartnerTasks e planning).map fun task => .ofTask task (behaviour task.1).final := by
  unfold AipExecutor.executeTasks
  dsimp only
  split
  next hnone =>
    rw [hnone]
    rfl
  next =>
    refine (foldl_classify _ _).partnerResults.trans ?_
    apply h.polls _ (Nat.zero_add _)
    dsimp only
    exact (foldl_setResult (distinct_map (buildPartnerTasks_distinct e planning) fun _ => rfl)).trans
      (List.nil_append _)

end Execution

structure Says (per : PartnerExecutionResult) (aic : String) (reported : TaskState × List String) :
    Prop where
  aic : per.partnerAic = aic
  state : per.state = reported.1
  dataItems : per.dataItems = reported.2

section Classification

variable {tasks : List PartnerTaskInfo} {f : PartnerTaskInfo → PartnerExecutionResult}
  {r : String → TaskState × List String} {result : ExecutionResult}

theorem find_reported (hf : ∀ task, Says (f task) task.1 (r task.1)) (aic : String) :
    (Keyed.find PartnerExecutionResult.partnerAic (tasks.map f) aic).map
        (fun per => (per.state, per.dataItems)) =
      if aic ∈ tasks.map Prod.fst then some (r aic) else none := by
  cases hfind : Keyed.find PartnerExecutionResult.partnerAic (tasks.map f) aic with
  | none =>
    have hnot : aic ∉ tasks.map Prod.fst := by
      intro hmem
      obtain ⟨task, htask, rfl⟩ := List.mem_map.mp hmem
      exact Keyed.find_eq_none.mp hfind _ (List.mem_map_of_mem htask) (hf task).aic
    rw [if_neg hnot]
    rfl
  | some per =>
    obtain ⟨task, htask, rfl⟩ := List.mem_map.mp (Keyed.mem_of_find hfind)
    have haic : task.1 = aic := (hf task).aic.symm.trans (Keyed.key_of_find hfind)
    subst haic
    rw [if_pos (List.mem_map_of_mem htask), Option.map_some, (hf task).state, (hf task).dataItems]

theorem aicsIn_reported (hf : ∀ task, Says (f task) task.1 (r task.1)) (states : List TaskState) :
    aicsIn states (tasks.map f) =
      (tasks.map Prod.fst).filter fun aic => (r aic).1 ∈ states := by
  unfold aicsIn
  rw [List.filter_map, List.filter_map, List.map_map]
  have hclass : ((fun per => decide (per.state ∈ states)) ∘ f : PartnerTaskInfo → Bool) =
      (fun aic => decide ((r aic).1 ∈ states)) ∘ Prod.fst := by
    funext task
    rw [Function.comp_apply, Function.comp_apply, (hf task).state]
  rw [hclass]
  exact List.map_congr_left fun task _ => (hf task).aic

theorem questionsOf_reported (hf : ∀ task, Says (f task) task.1 (r task.1)) :
    questionsOf (tasks.map f) =
      ((tasks.map Prod.fst).filter fun aic => (r aic).1 ∈ [TaskState.awaitingInput]).flatMap
        fun aic => (r aic).2 := by
  unfold questionsOf
  rw [List.filter_map, List.filter_map, List.flatMap_map, List.flatMap_map]
  have hclass : ((fun per => decide (per.state = TaskState.awaitingInput)) ∘ f :
      PartnerTaskInfo → Bool) =
      (fun aic => decide ((r aic).1 ∈ [TaskState.awaitingInput])) ∘ Prod.fst := by
    funext task
    rw [Function.comp_apply, Function.comp_apply, (hf task).state]
    simp
  rw [hclass]
  congr 1
  funext task
  exact (hf task).dataItems

theorem classified_outcome (hresult : result.partnerResults = tasks.map f)
    (hf : ∀ task, Says (f task) task.1 (r task.1))
    (hstable : ∀ aic, (r aic).1 ∈ stableStates) :
    (match checkConvergence (classifyResults result).states with
      | (true, phase) => { classifyResults result with phase }
      | (false, _) => classifyResults result).outcome = outcomeOf (tasks.map Prod.fst) r := by
  have hclassified : Classified result.partnerResults _ (classifyResults result) :=
    foldl_classify _ _
  have hpartners : (classifyResults result).partnerResults = tasks.map f :=
    hclassified.partnerResults.trans hresult
  rw [hresult] at hclassified
  have hstates : (classifyResults result).states = (tasks.map Prod.fst).map fun aic => (r aic).1 := by
    unfold ExecutionResult.states
    rw [hpartners, List.map_map, List.map_map]
    exact List.map_congr_left fun task _ => (hf task).state
  have hconverged : (checkConvergence (classifyResults result).states).1 = true := by
    rw [hstates, checkConvergence_eq_true]
    intro state hstate
    obtain ⟨aic, -, rfl⟩ := List.mem_map.mp hstate
    exact hstable aic
  have hpair : checkConvergence (classifyResults result).states =
      (true, (checkConvergence (classifyResults result).states).2) :=
    Prod.ext hconverged rfl
  rw [hpair]
  dsimp only
  unfold ExecutionResult.outcome outcomeOf
  dsimp only
  rw [hpartners, hclassified.awaitingInput, hclassified.awaitingCompletion, hclassified.completed,
    hclassified.failed, hclassified.questions, hstates]
  simp only [List.nil_append, aicsIn_reported hf, questionsOf_reported hf]
  congr 1
  funext aic
  exact find_reported hf aic

end Classification

section Execution

variable {e : Executor} {behaviour : String → Behaviour}
  {schedule : String → List NotificationAct} {seen : Seen} {planning : PlanningResult}
  {rounds : ℕ}

def executed (e : Executor) (behaviour : String → Behaviour) (seen : Seen) (task : PartnerTaskInfo) :
    PartnerExecutionResult :=
  match e.strategy task.1 with
  | .notification => executeOneNotificationPartner seen task
  | .stream | .rpc => .ofTask task (behaviour task.1).final

theorem executed_reports (e : Executor) (behaviour : String → Behaviour) (seen : Seen)
    (task : PartnerTaskInfo) :
    Says (executed e behaviour seen task) task.1 (reports e behaviour seen task.1) := by
  unfold executed reports executeOneNotificationPartner
  cases e.strategy task.1 with
  | stream | rpc => exact ⟨rfl, rfl, rfl⟩
  | notification =>
    cases (seen.notified task.1).future with
    | pending | resolved | cancelled => exact ⟨rfl, rfl, rfl⟩

theorem reports_stable (h : Faultless rounds behaviour schedule seen) (aic : String) :
    (reports e behaviour seen aic).1 ∈ stableStates := by
  obtain ⟨hrun, -, -, hstatus⟩ := h.notified aic
  unfold reports
  cases e.strategy aic with
  | stream | rpc => exact (behaviour aic).stable
  | notification =>
    cases hfuture : (seen.notified aic).future with
    | pending | cancelled =>
      dsimp only
      decide
    | resolved result =>
      have hlast := ((NotifiedTask.inv_run hrun).resolved result hfuture).1
      obtain rfl := Option.some.inj (hstatus.symm.trans hlast)
      exact (behaviour aic).stable

theorem merge_partnerResults {part : List PartnerTaskInfo} {result src : ExecutionResult}
    {before : List PartnerExecutionResult} {f : PartnerTaskInfo → PartnerExecutionResult}
    (hbefore : result.partnerResults = before) (hsrc : src.partnerResults = part.map f)
    (hdistinct : Keyed.Unique PartnerExecutionResult.partnerAic (before ++ part.map f)) :
    (if part ≠ [] then merge result src else result).partnerResults = before ++ part.map f := by
  split
  next =>
    unfold merge
    rw [hsrc, hbefore]
    exact foldl_setResult hdistinct
  next hnone =>
    rw [not_not.mp hnone, hbefore]
    exact (List.append_nil _).symm

theorem settled_partnerResults {part : List PartnerTaskInfo} {result src : ExecutionResult} {p : Prop}
    [Decidable p] {phase : ExecutionPhase} :
    (if part ≠ [] then merge result src
      else if p then { result with phase } else result).partnerResults =
      (if part ≠ [] then merge result src else result).partnerResults := by
  split
  · rfl
  · split <;> rfl

theorem assembled_partnerResults {tasks : List PartnerTaskInfo} {awaiting : Bool}
    {f : PartnerTaskInfo → PartnerExecutionResult}
    (hdistinct : Keyed.Unique PartnerExecutionResult.partnerAic (tasks.map f)) :
    ((tasks.map f).foldl (assemble awaiting) (.ofPhase .completed)).partnerResults =
      tasks.map f := by
  rw [assemble_partnerResults]
  exact (foldl_setResult (show Keyed.Unique _ ([] ++ tasks.map f) from hdistinct)).trans
    (List.nil_append _)

def tasksOver (e : Executor) (planning : PlanningResult) (strategy : ExecutorStrategy) :
    List PartnerTaskInfo :=
  (buildPartnerTasks e planning).filter fun task => e.strategy task.1 = strategy

theorem tasksOver_of_rank (strategy : ExecutorStrategy) {n : ℕ}
    (hn : ∀ aic, e.strategy aic = strategy ↔ e.rank aic = n) :
    tasksOver e planning strategy =
      (buildPartnerTasks e planning).filter fun task => (e.rank ∘ Prod.fst) task = n := by
  unfold tasksOver
  simp only [hn, Function.comp_apply]

theorem grouped_tasks :
    grouped (e.rank ∘ Prod.fst) (buildPartnerTasks e planning) =
      tasksOver e planning .stream ++ tasksOver e planning .notification ++
        tasksOver e planning .rpc := by
  have hranks (aic : String) : (e.strategy aic = .stream ↔ e.rank aic = 0) ∧
      (e.strategy aic = .notification ↔ e.rank aic = 1) ∧ (e.strategy aic = .rpc ↔ e.rank aic = 2) := by
    unfold Executor.rank
    cases e.strategy aic <;> decide
  rw [tasksOver_of_rank _ fun aic => (hranks aic).1, tasksOver_of_rank _ fun aic => (hranks aic).2.1,
    tasksOver_of_rank _ fun aic => (hranks aic).2.2]
  rfl

theorem narrowed_tasks :
    buildPartnerTasks e (narrow planning ((tasksOver e planning .rpc).map Prod.fst)) =
      tasksOver e planning .rpc := by
  rw [buildPartnerTasks_narrow]
  apply List.filter_congr
  intro task htask
  rw [decide_eq_decide]
  unfold tasksOver
  constructor
  · intro hmem
    obtain ⟨other, hother, heq⟩ := List.mem_map.mp hmem
    rw [← heq]
    exact of_decide_eq_true (List.mem_filter.mp hother).2
  · intro hrpc
    exact List.mem_map_of_mem (List.mem_filter.mpr ⟨htask, decide_eq_true hrpc⟩)

theorem tasksOver_executed {strategy : ExecutorStrategy}
    {f : PartnerTaskInfo → PartnerExecutionResult}
    (hf : ∀ task, e.strategy task.1 = strategy → f task = executed e behaviour seen task) :
    (tasksOver e planning strategy).map f =
      (tasksOver e planning strategy).map (executed e behaviour seen) := by
  apply List.map_congr_left
  intro task htask
  exact hf task (of_decide_eq_true (List.mem_filter.mp htask).2)

theorem execute_outcome (h : Faultless e.maxExecutionRounds behaviour schedule seen) :
    (execute e seen planning).outcome =
      outcomeOf (grouped e.rank (e.aics planning)) (reports e behaviour seen) := by
  have hrank (task : PartnerTaskInfo) : (e.rank ∘ Prod.fst) task ≤ 2 := e.rank_le_two task.1
  have hall : Keyed.Unique PartnerExecutionResult.partnerAic
      ((grouped (e.rank ∘ Prod.fst) (buildPartnerTasks e planning)).map
        (executed e behaviour seen)) := by
    apply distinct_map _ fun task => (executed_reports e behaviour seen task).aic
    exact ((grouped_perm hrank _).map Prod.fst).nodup_iff.mpr (buildPartnerTasks_distinct e planning)
  have hpart (strategy : ExecutorStrategy) : Keyed.Unique PartnerExecutionResult.partnerAic
      ((tasksOver e planning strategy).map (executed e behaviour seen)) := by
    apply distinct_map _ fun task => (executed_reports e behaviour seen task).aic
    exact (buildPartnerTasks_distinct e planning).sublist (List.filter_sublist.map _)
  rw [grouped_tasks, List.map_append, List.map_append] at hall
  have hstream : (executeStreamingPartners seen (tasksOver e planning .stream)).partnerResults =
      (tasksOver e planning .stream).map (executed e behaviour seen) := by
    have hsame : (tasksOver e planning .stream).map (executeOneStreamPartner seen) =
        (tasksOver e planning .stream).map (executed e behaviour seen) := by
      apply tasksOver_executed
      intro task hstrategy
      rw [h.stream task, executed, hstrategy]
    unfold executeStreamingPartners
    rw [hsame]
    exact assembled_partnerResults (hpart _)
  have hnotified : (executeNotificationPartners seen
      (tasksOver e planning .notification)).partnerResults =
      (tasksOver e planning .notification).map (executed e behaviour seen) := by
    have hsame : (tasksOver e planning .notification).map (executeOneNotificationPartner seen) =
        (tasksOver e planning .notification).map (executed e behaviour seen) := by
      apply tasksOver_executed
      intro task hstrategy
      rw [executed, hstrategy]
    unfold executeNotificationPartners
    rw [hsame]
    exact assembled_partnerResults (hpart _)
  have hpolled : (executeTasks e seen (narrow planning
      ((tasksOver e planning .rpc).map Prod.fst))).partnerResults =
      (tasksOver e planning .rpc).map (executed e behaviour seen) := by
    rw [h.executeTasks, narrowed_tasks]
    apply tasksOver_executed
    intro task hstrategy
    rw [executed, hstrategy]
  have haics : (grouped (e.rank ∘ Prod.fst) (buildPartnerTasks e planning)).map Prod.fst =
      grouped e.rank (e.aics planning) := grouped_map _ _
  have htwo : Keyed.Unique PartnerExecutionResult.partnerAic
      ((tasksOver e planning .stream).map (executed e behaviour seen) ++
        (tasksOver e planning .notification).map (executed e behaviour seen)) :=
    hall.sublist ((List.sublist_append_left _ _).map _)
  have hfirst := merge_partnerResults (show (ExecutionResult.ofPhase .starting).partnerResults = []
    from rfl) hstream (hpart .stream)
  rw [List.nil_append] at hfirst
  have hthird := merge_partnerResults (merge_partnerResults hfirst hnotified htwo) hpolled hall
  unfold execute
  dsimp only
  split
  next hnone =>
    rw [← haics, hnone]
    rfl
  next =>
    rw [← haics]
    refine classified_outcome (f := executed e behaviour seen) ?_ (executed_reports e behaviour seen)
      (reports_stable h)
    rw [grouped_tasks, List.map_append, List.map_append]
    exact settled_partnerResults.trans hthird

theorem polling_outcome (h : Faultless e.maxExecutionRounds behaviour schedule seen) :
    (execute e.polling seen planning).outcome =
      outcomeOf (e.aics planning) (finals behaviour) := by
  have hself : grouped e.polling.rank (e.aics planning) = e.aics planning :=
    (grouped_eq_self_iff e.polling.rank_le_two).mpr (List.pairwise_of_forall fun _ _ => le_rfl)
  have hpolled : (execute e.polling seen planning).outcome =
      outcomeOf (grouped e.polling.rank (e.polling.aics planning))
        (reports e.polling behaviour seen) := execute_outcome h
  rw [hpolled, Executor.polling_aics, hself]
  rfl

theorem reports_eq_finals (h : Faultless rounds behaviour schedule seen) (aic : String) :
    reports e behaviour seen aic = finals behaviour aic ↔
      (e.strategy aic = .notification → Told (behaviour aic) (schedule aic)) := by
  obtain ⟨hrun, hwaiting, hdelivered, hstatus⟩ := h.notified aic
  have hresolved (hterminal : (behaviour aic).final.terminal = true) :=
    NotifiedTask.resolved_iff hrun hwaiting ⟨hstatus, hterminal⟩ hdelivered
  have hunseen (hfuture : (seen.notified aic).future ≠ .resolved (behaviour aic).final) :
      Told (behaviour aic) (schedule aic) ↔ (TaskState.failed, []) = finals behaviour aic := by
    constructor
    · rintro ⟨hterminal, hmeets | ⟨hstate, hdata⟩⟩
      · exact (hfuture ((hresolved hterminal).mpr hmeets)).elim
      · exact Prod.ext hstate.symm hdata.symm
    · intro heq
      have hstate : (behaviour aic).final.state = .failed := (congrArg Prod.fst heq).symm
      have hterminal : (behaviour aic).final.terminal = true := by
        unfold TaskResult.terminal
        rw [hstate]
        decide
      exact ⟨hterminal, .inr ⟨hstate, (congrArg Prod.snd heq).symm⟩⟩
  unfold reports
  cases e.strategy aic with
  | stream | rpc => simp
  | notification =>
    simp only [true_implies]
    cases hfuture : (seen.notified aic).future with
    | pending =>
      refine (hunseen ?_).symm
      rw [hfuture]
      intro hr
      cases hr
    | cancelled =>
      refine (hunseen ?_).symm
      rw [hfuture]
      intro hr
      cases hr
    | resolved result =>
      obtain ⟨hlast, hterminal⟩ := (NotifiedTask.inv_run hrun).resolved result hfuture
      obtain rfl := Option.some.inj (hstatus.symm.trans hlast)
      exact ⟨fun _ => ⟨hterminal, .inl ((hresolved hterminal).mp hfuture)⟩, fun _ => rfl⟩

end Execution

section Outcomes

variable {aics aics' : List String} {r r' : String → TaskState × List String}

theorem outcomeOf_congr (h : ∀ aic ∈ aics, r aic = r' aic) : outcomeOf aics r = outcomeOf aics r' := by
  have hclass (states : List TaskState) : (aics.filter fun aic => (r aic).1 ∈ states) =
      aics.filter fun aic => (r' aic).1 ∈ states := by
    apply List.filter_congr
    intro aic haic
    rw [h aic haic]
  have hquestions : (aics.filter fun aic => (r aic).1 ∈ [TaskState.awaitingInput]).flatMap
        (fun aic => (r aic).2) =
      (aics.filter fun aic => (r' aic).1 ∈ [TaskState.awaitingInput]).flatMap
        fun aic => (r' aic).2 := by
    rw [hclass]
    apply List.flatMap_congr
    intro aic haic
    rw [h aic (List.mem_of_mem_filter haic)]
  have hstates : (aics.map fun aic => (r aic).1) = aics.map fun aic => (r' aic).1 := by
    apply List.map_congr_left
    intro aic haic
    rw [h aic haic]
  unfold outcomeOf
  dsimp only
  rw [hquestions, hstates]
  simp only [hclass]
  congr 1
  funext aic
  split
  next haic => rw [h aic haic]
  next => rfl

theorem outcomeOf_similar (h : aics.Perm aics') : (outcomeOf aics r).Similar (outcomeOf aics' r) where
  partner := by
    funext aic
    unfold outcomeOf
    simp only [h.mem_iff]
  awaitingInput := h.filter _
  awaitingCompletion := h.filter _
  completed := h.filter _
  failed := h.filter _
  questions := (h.filter _).flatMap_right _
  phase := by
    unfold outcomeOf
    dsimp only
    rw [checkConvergence_congr fun state => (h.map _).mem_iff]

theorem reported_of_partner (h : (outcomeOf aics r).partner = (outcomeOf aics' r').partner)
    (haics : ∀ aic, aic ∈ aics ↔ aic ∈ aics') : ∀ aic ∈ aics, r aic = r' aic := by
  intro aic haic
  have hpartner := congrFun h aic
  unfold outcomeOf at hpartner
  dsimp only at hpartner
  rw [if_pos haic, if_pos ((haics aic).mp haic)] at hpartner
  exact Option.some.inj hpartner

end Outcomes

def classes : List (List TaskState) :=
  [[.awaitingInput], [.awaitingCompletion], [.completed], [.failed, .rejected, .canceled]]

section Comparison

variable {e : Executor} {behaviour : String → Behaviour}
  {schedule schedule' : String → List NotificationAct} {seen seen' : Seen}

def Ordered (e : Executor) (behaviour : String → Behaviour) (planning : PlanningResult) : Prop :=
  ∀ states ∈ classes,
    ((e.aics planning).filter fun aic => (behaviour aic).final.state ∈ states).Pairwise
      fun a b => e.rank a ≤ e.rank b

def AllTold (e : Executor) (behaviour : String → Behaviour)
    (schedule : String → List NotificationAct) (planning : PlanningResult) : Prop :=
  ∀ aic ∈ e.aics planning, e.strategy aic = .notification → Told (behaviour aic) (schedule aic)

theorem grouped_outcome (planning : PlanningResult) :
    outcomeOf (grouped e.rank (e.aics planning)) (finals behaviour) =
        outcomeOf (e.aics planning) (finals behaviour) ↔ Ordered e behaviour planning := by
  have hclass (states : List TaskState) :
      ((grouped e.rank (e.aics planning)).filter
          fun aic => (finals behaviour aic).1 ∈ states) =
        (e.aics planning).filter (fun aic => (finals behaviour aic).1 ∈ states) ↔
      ((e.aics planning).filter fun aic => (behaviour aic).final.state ∈ states).Pairwise
        fun a b => e.rank a ≤ e.rank b := by
    rw [filter_grouped]
    exact grouped_eq_self_iff e.rank_le_two
  constructor
  · intro heq states hstates
    apply (hclass states).mp
    simp only [classes, List.mem_cons, List.not_mem_nil, or_false] at hstates
    rcases hstates with rfl | rfl | rfl | rfl
    · exact congrArg Outcome.awaitingInputPartners heq
    · exact congrArg Outcome.awaitingCompletionPartners heq
    · exact congrArg Outcome.completedPartners heq
    · exact congrArg Outcome.failedPartners heq
  · intro hordered
    have hsame (states : List TaskState) (hstates : states ∈ classes) :=
      (hclass states).mpr (hordered states hstates)
    obtain ⟨hpartner, -, -, -, -, -, hphase⟩ :=
      outcomeOf_similar (r := finals behaviour) (grouped_perm e.rank_le_two (e.aics planning))
    unfold outcomeOf at hpartner hphase ⊢
    dsimp only at hpartner hphase ⊢
    rw [hpartner, hphase, hsame [.awaitingInput] (by decide),
      hsame [.awaitingCompletion] (by decide), hsame [.completed] (by decide),
      hsame [.failed, .rejected, .canceled] (by decide)]

/-- Over any mix of transports the outcome is that of polling, up to the order of the partners, exactly
if the leader is told of the end of each partner that it executes over notifications; and it is the same
altogether if moreover the transports keep the order of the plan. -/
theorem execute_over_any_transport
    (h : Faultless e.maxExecutionRounds behaviour schedule seen)
    (h' : Faultless e.maxExecutionRounds behaviour schedule' seen') (planning : PlanningResult) :
    ((execute e seen planning).outcome = (execute e.polling seen' planning).outcome ↔
      AllTold e behaviour schedule planning ∧ Ordered e behaviour planning) ∧
    ((execute e seen planning).outcome.Similar (execute e.polling seen' planning).outcome ↔
      AllTold e behaviour schedule planning) := by
  rw [execute_outcome h, polling_outcome h']
  have hperm := grouped_perm e.rank_le_two (e.aics planning)
  have htold : AllTold e behaviour schedule planning ↔
      ∀ aic ∈ grouped e.rank (e.aics planning), reports e behaviour seen aic = finals behaviour aic := by
    unfold AllTold
    simp only [reports_eq_finals h, hperm.mem_iff]
  have hreported (hpartner : (outcomeOf (grouped e.rank (e.aics planning))
        (reports e behaviour seen)).partner =
      (outcomeOf (e.aics planning) (finals behaviour)).partner) :
      AllTold e behaviour schedule planning :=
    htold.mpr (reported_of_partner hpartner fun _ => hperm.mem_iff)
  constructor
  · constructor
    · intro heq
      have hall := hreported (congrArg Outcome.partner heq)
      rw [outcomeOf_congr (htold.mp hall)] at heq
      exact ⟨hall, (grouped_outcome planning).mp heq⟩
    · rintro ⟨hall, hordered⟩
      rw [outcomeOf_congr (htold.mp hall)]
      exact (grouped_outcome planning).mpr hordered
  · constructor
    · exact fun hsimilar => hreported hsimilar.partner
    · intro hall
      rw [outcomeOf_congr (htold.mp hall)]
      exact outcomeOf_similar hperm

end Comparison

namespace Sample

open NotifiedTask.Sample (resultOf startedTask)

def executor : Executor :=
  { acsCache := fun aic =>
      { endpoint := true, streaming := aic = "stream", notification := aic = "notification" }
    notificationExecutor := true
    maxExecutionRounds := 50 }

def planning : PlanningResult := { selectedPartners := [("hotel", ["stream", "notification", "rpc"])] }

def schedule (final : TaskState) : List NotificationAct :=
  startedTask ++ [.handleStart, .updateStatus (resultOf final), .listener, .postOnce,
    .notificationStarted, .onCallback 0]

def seen (final : TaskState) : Seen :=
  { events := fun _ =>
      [.taskResult (resultOf .accepted), .other, .taskResult (resultOf final)]
    notified := fun _ =>
      { NotifiedTask.initial with
        stage := .waiting
        future := if final ∈ terminalStates then .resolved (resultOf final) else .pending
        initialResult := some (resultOf .accepted)
        status := some (resultOf final)
        subscribed := true }
    polled := fun _ n => if n = 0 then resultOf .accepted else resultOf final
    expired := fun _ => false }

def behaviour (final : TaskState) (hfinal : final ∈ stableStates) : Behaviour :=
  { before := [resultOf .accepted]
    final := resultOf final
    unstable := by decide
    stable := hfinal }

theorem faultless {final : TaskState} (hfinal : final ∈ stableStates)
    (hrun : notifiedTask.exec .initial (schedule final) = some ((seen final).notified "")) :
    Faultless 50 (fun _ => behaviour final hfinal) (fun _ => schedule final) (seen final) where
  events := by
    intro aic
    refine ⟨[.taskResult (resultOf .accepted), .other], [], rfl, ?_⟩
    intro r hr
    simp only [List.mem_cons, StreamEvent.taskResult.injEq, List.not_mem_nil, or_false,
      reduceCtorEq] at hr
    exact List.mem_singleton.mpr hr
  polled := by
    intro aic
    refine ⟨id, ?_, show 1 ≤ 50 by decide⟩
    intro n
    cases n with
    | zero => rfl
    | succ n => rfl
  expired := fun _ _ => rfl
  notified := fun aic => ⟨hrun, rfl, ⟨rfl, rfl, rfl⟩, rfl⟩

end Sample

theorem completed_over_any_transport :
    (execute Sample.executor (Sample.seen .completed) Sample.planning).outcome =
      (execute Sample.executor.polling (Sample.seen .completed) Sample.planning).outcome := by
  have h := Sample.faultless (show .completed ∈ stableStates by decide) (by decide +kernel)
  apply ((execute_over_any_transport (e := Sample.executor) h h Sample.planning).1).mpr
  constructor
  · intro aic _ _
    refine ⟨rfl, .inl ?_⟩
    exact notifiedTask.meets_of_check (fun _ _ h => of_decide_eq_true h)
      (show notifiedTask.check (fun s a => decide (s.InTime a)) .initial
        (Sample.schedule .completed) = true by decide +kernel)
  · unfold Ordered
    decide +kernel

theorem awaiting_input_over_notification :
    (∃ behaviour schedule, Faultless 50 behaviour schedule (Sample.seen .awaitingInput)) ∧
      (execute Sample.executor (Sample.seen .awaitingInput) Sample.planning).failedPartners =
        ["notification"] ∧
      (execute Sample.executor.polling (Sample.seen .awaitingInput)
        Sample.planning).failedPartners = [] := by
  refine ⟨⟨_, _, Sample.faultless (show .awaitingInput ∈ stableStates by decide) (by decide +kernel)⟩, ?_⟩
  decide +kernel

end Acps.Assistant.AipExecutor
