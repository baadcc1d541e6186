import Acps.Assistant.Convergence

/-!
What the loop of the completion gate does: to which partners it sends its commands, which partners it
leaves waiting, and when it calls the execution completed.
-/

namespace Acps.Assistant.AipExecutor.CompletionGate

open Aic (Text)
open Partner (TaskState)
open GroupExecutor (GroupTasks updateResultFromGroupState updateResultFromGroupState_distinct)
open Convergence (lists listsWith updateExecutionPhase_lists updateExecutionPhase_phase SomeFailed)

def Progress.Distinct (p : Progress) : Prop :=
  Keyed.Unique PartnerExecutionResult.partnerAic p.result.partnerResults

section Answers

variable {p : Progress} {aic other : String}

theorem Progress.Distinct.modify (h : p.Distinct)
    {f : PartnerExecutionResult → PartnerExecutionResult}
    (hf : ∀ per, (f per).partnerAic = per.partnerAic) : (p.modify aic f).Distinct :=
  Keyed.unique_modify (fun per _ _ => hf per) h

structure Answered (aic : String) (task : TaskResult) (p q : Progress) : Prop where
  others : ∀ other, other ≠ aic → q.find other = p.find other
  state : (q.find aic).map PartnerExecutionResult.state = (p.find aic).map fun _ => task.state
  distinct : p.Distinct → q.Distinct

theorem find_receive (task : TaskResult) :
    (p.receive aic task).find aic = (p.find aic).map (withTask task) :=
  Keyed.find_modify_self fun _ h => h

theorem find_receive_of_ne (task : TaskResult) (hne : other ≠ aic) :
    (p.receive aic task).find other = p.find other :=
  Keyed.find_modify_of_ne (fun _ h => h) hne

theorem find_extend (items : List String) :
    (p.extend aic items).find aic =
      if aic ∈ p.shared then (p.find aic).map (withItems items) else p.find aic := by
  unfold Progress.extend
  split
  · exact Keyed.find_modify_self fun _ h => h
  · rfl

theorem find_extend_of_ne (items : List String) (hne : other ≠ aic) :
    (p.extend aic items).find other = p.find other := by
  unfold Progress.extend
  split
  · exact Keyed.find_modify_of_ne (fun _ h => h) hne
  · rfl

theorem receive_answered (task : TaskResult) : Answered aic task p (p.receive aic task) where
  others _ hne := find_receive_of_ne task hne
  state := by
    rw [find_receive, Option.map_map]
    rfl
  distinct h := h.modify (f := withTask task) fun _ => rfl

theorem Answered.extend {task : TaskResult} {q : Progress} (h : Answered aic task p q)
    (items : List String) : Answered aic task p (q.extend aic items) where
  others other hne := (find_extend_of_ne items hne).trans (h.others other hne)
  state := by
    rw [find_extend, ← h.state]
    split
    · rw [Option.map_map]
      rfl
    · rfl
  distinct hdistinct := by
    unfold Progress.extend
    split
    · exact (h.distinct hdistinct).modify (f := withItems items) fun _ => rfl
    · exact h.distinct hdistinct

theorem receiveCompleted_answered (task : TaskResult) :
    Answered aic task p (p.receiveCompleted aic task) := by
  unfold Progress.receiveCompleted
  split
  · have hfold (products : List (List String)) (q : Progress) (h : Answered aic task p q) :
        Answered aic task p (products.foldl (fun q product => q.extend aic product) q) := by
      induction products generalizing q with
      | nil => exact h
      | cons product products ih => exact ih _ (h.extend product)
    exact hfold task.products _ (receive_answered task)
  next hnone =>
    have hfind : p.find aic = none := by simpa using hnone
    constructor
    · exact fun _ _ => rfl
    · rw [hfind]
      rfl
    · exact id

theorem completed_answered (task : TaskResult) : Answered aic task p (p.completed aic task) :=
  have h : Answered aic task p (p.receiveCompleted aic task) := receiveCompleted_answered task
  ⟨h.others, h.state, h.distinct⟩

theorem forceCompleted_answered (task : TaskResult) :
    Answered aic task p (p.forceCompleted aic task) :=
  have h : Answered aic task p (p.receiveCompleted aic task) := receiveCompleted_answered task
  ⟨h.others, h.state, h.distinct⟩

theorem continued_answered (task : TaskResult) : Answered aic task p (p.continued aic task) :=
  have h : Answered aic task p (p.receive aic task) := receive_answered task
  ⟨h.others, h.state, h.distinct⟩

end Answers

def SentCommand.Proper (w : World) (c : SentCommand) : Prop :=
  c.state = some .awaitingCompletion ∧ c.aipTaskId = w.aipTaskId c.partnerAic

section Commands

variable {w : World} {round : ℕ} {ι : Type} {aic aipTaskId : ι → String}
  {step : GateRun → ι → GateRun}

structure Addresses (round : ℕ) (aic aipTaskId : String) (s t : GateRun) : Prop where
  sent : t.sent = s.sent ∨ ∃ c : SentCommand, t.sent = s.sent ++ [c] ∧ c.round = round ∧
    c.partnerAic = aic ∧ c.aipTaskId = aipTaskId ∧
    c.state = (s.progress.find aic).map PartnerExecutionResult.state
  others : ∀ other, other ≠ aic → t.progress.find other = s.progress.find other
  rounds : t.rounds = s.rounds
  distinct : s.progress.Distinct → t.progress.Distinct

theorem Addresses.refl (round : ℕ) (aic aipTaskId : String) (s : GateRun) :
    Addresses round aic aipTaskId s s := ⟨.inl rfl, fun _ _ => rfl, rfl, id⟩

theorem command_addresses (action : NextAction) {aic aipTaskId : String} {s : GateRun}
    {receive : Progress → TaskResult → Progress}
    (hreceive : ∀ p task, Answered aic task p (receive p task)) :
    Addresses round aic aipTaskId s (command w round action aic aipTaskId receive s) where
  sent := .inr ⟨_, rfl, rfl, rfl, rfl, rfl⟩
  others other hne := by
    unfold command
    dsimp only
    split
    · exact (hreceive _ _).others other hne
    · rfl
  rounds := rfl
  distinct h := by
    unfold command
    dsimp only
    split
    · exact (hreceive _ _).distinct h
    · exact h

theorem applyDecision_addresses (s : GateRun) (decision : AwaitingCompletionDecision) :
    Addresses round decision.partnerAic decision.aipTaskId s (applyDecision w round s decision) := by
  unfold applyDecision
  dsimp only
  split
  · split
    · exact command_addresses .complete fun _ _ => completed_answered _
    · exact command_addresses .continue fun _ _ => continued_answered _
    · exact .refl _ _ _ _
  · exact .refl _ _ _ _

theorem forceComplete_addresses (s : GateRun) (aic : String) :
    Addresses 0 aic (w.aipTaskId aic) s (forceComplete w s aic) := by
  unfold forceComplete
  split
  · exact command_addresses .complete fun _ _ => forceCompleted_answered _
  · exact .refl _ _ _ _

structure Sends (w : World) (aics : List String) (more : List SentCommand) : Prop where
  proper : ∀ c ∈ more, c.Proper w
  once : (more.map SentCommand.partnerAic).Sublist aics

theorem foldl_addresses
    (hstep : ∀ s i, Addresses round (aic i) (aipTaskId i) s (step s i)) (items : List ι)
    (s : GateRun) :
    ∃ more, (items.foldl step s).sent = s.sent ++ more ∧ (∀ c ∈ more, c.round = round) ∧
      ((items.map aic).Nodup →
        (∀ i ∈ items, (s.progress.find (aic i)).map PartnerExecutionResult.state =
          some .awaitingCompletion ∧ aipTaskId i = w.aipTaskId (aic i)) →
        Sends w (items.map aic) more) := by
  induction items generalizing s with
  | nil => exact ⟨[], by simp, by simp, fun _ _ => ⟨by simp, by simp⟩⟩
  | cons i items ih =>
    obtain ⟨more, hsent, hround, hsends⟩ := ih (step s i)
    have hfirst := hstep s i
    have hrest (hdistinct : (aic i :: items.map aic).Nodup)
        (hawait : ∀ j ∈ i :: items, (s.progress.find (aic j)).map PartnerExecutionResult.state =
          some .awaitingCompletion ∧ aipTaskId j = w.aipTaskId (aic j)) :
        Sends w (items.map aic) more := by
      obtain ⟨hnew, hdistinct⟩ := List.nodup_cons.mp hdistinct
      apply hsends hdistinct
      intro j hj
      have hne : aic j ≠ aic i := fun heq => hnew (heq ▸ List.mem_map_of_mem hj)
      rw [hfirst.others _ hne]
      exact hawait j (List.mem_cons_of_mem _ hj)
    rcases hfirst.sent with hsame | ⟨c, hadded, hc, haic, hid, hstate⟩
    · refine ⟨more, by rw [List.foldl_cons, hsent, hsame], hround, fun hdistinct hawait => ?_⟩
      have h := hrest hdistinct hawait
      exact ⟨h.proper, h.once.cons _⟩
    · refine ⟨c :: more, by rw [List.foldl_cons, hsent, hadded, List.append_assoc]; rfl, ?_,
        fun hdistinct hawait => ?_⟩
      · intro d hd
        rcases List.mem_cons.mp hd with rfl | hd
        · exact hc
        · exact hround d hd
      · have h := hrest hdistinct hawait
        have hproper : c.Proper w := by
          obtain ⟨hwaits, hown⟩ := hawait i List.mem_cons_self
          exact ⟨hstate.trans hwaits, by rw [hid, haic, hown]⟩
        constructor
        · intro d hd
          rcases List.mem_cons.mp hd with rfl | hd
          · exact hproper
          · exact h.proper d hd
        · rw [List.map_cons, List.map_cons, haic]
          exact h.once.cons_cons _

theorem foldl_distinct (hstep : ∀ s i, Addresses round (aic i) (aipTaskId i) s (step s i))
    (items : List ι) {s : GateRun} (h : s.progress.Distinct) :
    (items.foldl step s).progress.Distinct := by
  induction items generalizing s with
  | nil => exact h
  | cons i items ih => exact ih ((hstep s i).distinct h)

theorem foldl_rounds (hstep : ∀ s i, Addresses round (aic i) (aipTaskId i) s (step s i))
    (items : List ι) (s : GateRun) : (items.foldl step s).rounds = s.rounds := by
  induction items generalizing s with
  | nil => rfl
  | cons i items ih => exact (ih (step s i)).trans (hstep s i).rounds

end Commands

section Polling

variable {p : Progress} {tasks : List PartnerTaskInfo} {polls : Polls}

theorem pollRound_distinct (h : p.Distinct) (answers : String → Except String TaskResult) :
    (pollRound tasks answers p).Distinct := by
  unfold Progress.Distinct pollRound Keyed.Unique at *
  rw [List.map_map]
  have hsame : (PartnerExecutionResult.partnerAic ∘ fun per =>
      if per.partnerAic ∈ tasks.map Prod.fst then pollResult per (answers per.partnerAic) else per) =
        PartnerExecutionResult.partnerAic := by
    funext per
    dsimp only [Function.comp]
    split
    · unfold pollResult
      split <;> rfl
    · rfl
  rw [hsame]
  exact h

theorem pollRounds_distinct (n rounds : ℕ) (h : p.Distinct) :
    (pollRounds tasks polls n rounds p).Distinct := by
  induction rounds generalizing n p with
  | zero => exact h
  | succ rounds ih =>
    unfold pollRounds
    have hround : (pollRound tasks (polls.answers n) p).Distinct := pollRound_distinct h _
    split
    · exact h
    dsimp only
    split
    · exact hround
    · exact ih (n + 1) hround

theorem groupRound_distinct (h : p.Distinct) (group : GroupTasks) :
    (groupRound tasks group p).Distinct := updateResultFromGroupState_distinct h group tasks

theorem waitRounds_distinct (n rounds : ℕ) (h : p.Distinct) :
    (waitRounds tasks polls n rounds p).Distinct := by
  induction rounds generalizing n p with
  | zero => exact h
  | succ rounds ih =>
    unfold waitRounds
    have hround : (groupRound tasks (polls.heard n) p).Distinct := groupRound_distinct h _
    split
    · exact h
    dsimp only
    split
    · exact hround
    · exact ih (n + 1) hround

theorem classify_results (p : Progress) :
    p.classify.result.partnerResults = p.result.partnerResults :=
  (foldl_classify _ _).partnerResults

theorem repollUntilConverged_distinct (w : World) (round : ℕ) (h : p.Distinct) :
    (w.repollUntilConverged round p).Distinct := by
  unfold World.repollUntilConverged
  split
  · exact waitRounds_distinct 1 _ h
  · unfold pollUntilConverged Progress.Distinct
    rw [classify_results]
    exact pollRounds_distinct 1 _ h

end Polling

section Phases

structure Listed (result : ExecutionResult) : Prop where
  awaiting : ∀ aic, aic ∈ result.awaitingCompletionPartners ↔
    aic ∈ aicsIn [.awaitingCompletion] result.partnerResults
  once : result.awaitingCompletionPartners.Nodup

structure Judged (result : ExecutionResult) : Prop where
  listed : result.phase = .awaitingCompletion → Listed result
  waiting : result.phase ≠ .awaitingCompletion → .awaitingCompletion ∈ result.states →
    .awaitingInput ∈ result.states
  completed : result.phase = .completed →
    ∀ state ∈ result.states, state = .completed ∨ state = .working ∨ state = .accepted

variable {p : Progress} {result : ExecutionResult}

theorem updateExecutionPhase_results (result : ExecutionResult) :
    (updateExecutionPhase result).partnerResults = result.partnerResults := by
  unfold updateExecutionPhase
  rw [foldl_reclassify]
  dsimp only
  split <;> [skip; split <;> [skip; split <;> [skip; split]]]
  all_goals rfl

theorem updateExecutionPhase_listed
    (h : Keyed.Unique PartnerExecutionResult.partnerAic result.partnerResults) :
    Listed (updateExecutionPhase result) := by
  have hlists := updateExecutionPhase_lists result
  simp only [lists, listsWith, ExecutionResult.ofPhase, List.nil_append, List.cons.injEq,
    and_true] at hlists
  obtain ⟨-, hawaiting, -, -⟩ := hlists
  constructor
  · intro aic
    rw [hawaiting, updateExecutionPhase_results]
  · rw [hawaiting]
    exact h.sublist (List.filter_sublist.map _)

theorem updateExecutionPhase_states (result : ExecutionResult) :
    (updateExecutionPhase result).states = result.states :=
  congrArg (List.map PartnerExecutionResult.state) (updateExecutionPhase_results result)

theorem updatePhase_judged (h : p.Distinct) : Judged p.updatePhase.result where
  listed _ := updateExecutionPhase_listed h
  waiting hphase hwaits := by
    unfold Progress.updatePhase at *
    rw [updateExecutionPhase_states] at hwaits ⊢
    rw [updateExecutionPhase_phase] at hphase
    by_contra hinput
    rw [if_neg hinput, if_pos hwaits] at hphase
    exact hphase rfl
  completed hphase state hstate := by
    unfold Progress.updatePhase at *
    rw [updateExecutionPhase_states] at hstate
    rw [updateExecutionPhase_phase] at hphase
    by_cases hinput : .awaitingInput ∈ p.result.states
    · rw [if_pos hinput] at hphase
      cases hphase
    by_cases hwaits : .awaitingCompletion ∈ p.result.states
    · rw [if_neg hinput, if_pos hwaits] at hphase
      cases hphase
    have hfailed : ¬ SomeFailed p.result := by
      intro hfailed
      rw [if_neg hinput, if_neg hwaits, if_neg (fun h => h.2 hfailed), if_pos hfailed] at hphase
      cases hphase
    cases state with
    | awaitingInput => exact (hinput hstate).elim
    | awaitingCompletion => exact (hwaits hstate).elim
    | failed | rejected | canceled => exact (hfailed ⟨_, by decide, hstate⟩).elim
    | accepted | working | completed => decide

theorem Listed.find {result : ExecutionResult} {aic : String} (h : Listed result)
    (hdistinct : Keyed.Unique PartnerExecutionResult.partnerAic result.partnerResults)
    (haic : aic ∈ result.awaitingCompletionPartners) :
    (Keyed.find PartnerExecutionResult.partnerAic result.partnerResults aic).map
      PartnerExecutionResult.state = some .awaitingCompletion := by
  obtain ⟨per, hper, rfl⟩ := List.mem_map.mp ((h.awaiting aic).mp haic)
  obtain ⟨hmem, hstate⟩ := List.mem_filter.mp hper
  rw [Keyed.find_of_mem hdistinct hmem]
  exact congrArg some (List.mem_singleton.mp (of_decide_eq_true hstate))

end Phases

section Rounds

variable {w : World} {n : ℕ} {s : GateRun} {result : ExecutionResult}
  {asked : List PartnerProductSummary} {decisions : List AwaitingCompletionDecision}

structure GateRound.Orderly (r : GateRound) : Prop where
  asked : ∀ decision ∈ r.decisions, ∃ summary ∈ r.asked,
    summary.partnerAic = decision.partnerAic ∧ summary.aipTaskId = decision.aipTaskId
  once : (r.decisions.map AwaitingCompletionDecision.partnerAic).Nodup

def GateRound.Unread (w : World) (r : GateRound) : Prop :=
  ∀ response, w.respond r.round = .ok response →
    (w.loads (cleanResponse response)).bind readDecisions = none

structure ProperRound (w : World) (sent : List SentCommand) (round : ℕ) : Prop where
  proper : ∀ c ∈ sent, c.round = round → c.Proper w
  once : ((sent.filter (·.round = round)).map SentCommand.partnerAic).Nodup

theorem properRound_append {sent more : List SentCommand} {round : ℕ}
    (hmore : ∀ c ∈ more, c.round ≠ round) (h : ProperRound w sent round) :
    ProperRound w (sent ++ more) round := by
  constructor
  · intro c hc hround
    rcases List.mem_append.mp hc with hc | hc
    · exact h.proper c hc hround
    · exact (hmore c hc hround).elim
  · have hnone : more.filter (·.round = round) = [] := by
      rw [List.filter_eq_nil_iff]
      exact fun c hc hround => hmore c hc (of_decide_eq_true hround)
    rw [List.filter_append, hnone, List.append_nil]
    exact h.once

theorem Sends.properRound {sent more : List SentCommand} {round : ℕ} {aics : List String}
    (h : Sends w aics more) (hdistinct : aics.Nodup) (hmore : ∀ c ∈ more, c.round = round)
    (hsent : ∀ c ∈ sent, c.round ≠ round) : ProperRound w (sent ++ more) round := by
  have hnone : sent.filter (·.round = round) = [] := by
    rw [List.filter_eq_nil_iff]
    exact fun c hc hround => hsent c hc (of_decide_eq_true hround)
  have hall : more.filter (·.round = round) = more := by
    rw [List.filter_eq_self]
    exact fun c hc => decide_eq_true (hmore c hc)
  constructor
  · intro c hc hround
    rcases List.mem_append.mp hc with hc | hc
    · exact (hsent c hc hround).elim
    · exact h.proper c hc
  · rw [List.filter_append, hnone, hall, List.nil_append]
    exact hdistinct.sublist h.once

theorem buildPartnerSummaries_asked {summary : PartnerProductSummary}
    (h : summary ∈ buildPartnerSummaries w result) (hstate : summary.state = .awaitingCompletion) :
    (Keyed.find PartnerExecutionResult.partnerAic result.partnerResults summary.partnerAic).map
        PartnerExecutionResult.state = some .awaitingCompletion ∧
      summary.aipTaskId = w.aipTaskId summary.partnerAic := by
  obtain ⟨aic, -, hsummary⟩ := List.mem_filterMap.mp h
  obtain ⟨per, hfind, rfl⟩ := Option.map_eq_some_iff.mp hsummary
  rw [hfind]
  exact ⟨congrArg some hstate, rfl⟩

theorem buildPartnerSummaries_aics (w : World) (result : ExecutionResult) :
    ((buildPartnerSummaries w result).map PartnerProductSummary.partnerAic).Sublist
      result.awaitingCompletionPartners := by
  unfold buildPartnerSummaries
  induction result.awaitingCompletionPartners with
  | nil => exact List.Sublist.refl _
  | cons aic aics ih =>
    cases hfind : Keyed.find PartnerExecutionResult.partnerAic result.partnerResults aic with
    | none =>
      rw [List.filterMap_cons_none (by rw [hfind]; rfl)]
      exact ih.cons _
    | some per =>
      rw [List.filterMap_cons_some (by rw [hfind]; rfl)]
      exact ih.cons_cons _

theorem fallbackResult_aics (awaiting : List PartnerProductSummary) :
    (fallbackResult awaiting).map AwaitingCompletionDecision.partnerAic =
      awaiting.map PartnerProductSummary.partnerAic := by
  unfold fallbackResult
  rw [List.map_map]
  rfl

theorem evaluate_eq_some {summaries : List PartnerProductSummary}
    (h : evaluate w n summaries = some (asked, decisions)) :
    (asked = summaries.filter fun summary => summary.state = .awaitingCompletion) ∧
      (GateRound.Unread w ⟨n, asked, decisions⟩ → decisions = fallbackResult asked) := by
  unfold evaluate at h
  dsimp only at h
  split at h
  next hnone =>
    obtain ⟨rfl, rfl⟩ := Prod.mk.inj (Option.some.inj h)
    exact ⟨hnone.symm, fun _ => rfl⟩
  next =>
    split at h
    next response hresponse =>
      obtain ⟨rfl, rfl⟩ := Prod.mk.inj (Option.some.inj h)
      refine ⟨rfl, fun hunread => ?_⟩
      unfold parseLlmResponse
      rw [hunread response hresponse]
    next => cases h

structure Looping (w : World) (n : ℕ) (s : GateRun) : Prop where
  distinct : s.progress.Distinct
  judged : Judged s.progress.result
  sent : ∀ c ∈ s.sent, 0 < c.round ∧ c.round < n
  rounds : ∀ r ∈ s.rounds, 0 < r.round ∧ r.round < n
  orderly : ∀ r ∈ s.rounds, r.Orderly → ProperRound w s.sent r.round
  unread : ∀ r ∈ s.rounds, r.Unread w → r.Orderly

theorem gateRound_looping (hn : 0 < n) (h : Looping w n s)
    (hphase : s.progress.result.phase = .awaitingCompletion)
    (hevaluate : evaluate w n (buildPartnerSummaries w s.progress.result) = some (asked, decisions)) :
    Looping w (n + 1) (gateRound w ⟨n, asked, decisions⟩ s) := by
  obtain ⟨hasked, hfallback⟩ := evaluate_eq_some hevaluate
  have hsummary : ∀ summary ∈ asked,
      (s.progress.find summary.partnerAic).map PartnerExecutionResult.state =
          some .awaitingCompletion ∧ summary.aipTaskId = w.aipTaskId summary.partnerAic := by
    intro summary hmem
    rw [hasked] at hmem
    obtain ⟨hmem, hstate⟩ := List.mem_filter.mp hmem
    exact buildPartnerSummaries_asked hmem (of_decide_eq_true hstate)
  have hstep (s : GateRun) (decision : AwaitingCompletionDecision) :
      Addresses n decision.partnerAic decision.aipTaskId s (applyDecision w n s decision) :=
    applyDecision_addresses s decision
  obtain ⟨more, hsent, hround, hsends⟩ := foldl_addresses (w := w) hstep decisions s
  have happly : (gateRound w ⟨n, asked, decisions⟩ s).sent = s.sent ++ more := hsent
  have hrounds : (gateRound w ⟨n, asked, decisions⟩ s).rounds = s.rounds ++ [⟨n, asked, decisions⟩] :=
    congrArg (· ++ _) (foldl_rounds hstep decisions s)
  have hdistinct : (applyGateDecisions w n decisions s).progress.Distinct := by
    unfold applyGateDecisions GateRun.updatePhase Progress.updatePhase Progress.Distinct
    rw [updateExecutionPhase_results]
    exact foldl_distinct hstep decisions h.distinct
  have hupdated : Judged (applyGateDecisions w n decisions s).progress.result :=
    updatePhase_judged (foldl_distinct hstep decisions h.distinct)
  have hnew : (⟨n, asked, decisions⟩ : GateRound).Orderly → ProperRound w (s.sent ++ more) n := by
    intro horderly
    refine (hsends horderly.once ?_).properRound horderly.once hround
      (fun c hc => Nat.ne_of_lt (h.sent c hc).2)
    intro decision hmem
    obtain ⟨summary, hmem, haic, hid⟩ := horderly.asked decision hmem
    rw [← haic, ← hid]
    exact hsummary summary hmem
  constructor
  · unfold gateRound
    dsimp only
    split
    · unfold Progress.updatePhase Progress.Distinct
      rw [updateExecutionPhase_results]
      exact repollUntilConverged_distinct w n hdistinct
    · exact hdistinct
  · unfold gateRound
    dsimp only
    split
    · exact updatePhase_judged (repollUntilConverged_distinct w n hdistinct)
    · exact hupdated
  · intro c hc
    rw [happly] at hc
    rcases List.mem_append.mp hc with hc | hc
    · exact ⟨(h.sent c hc).1, Nat.lt_succ_of_lt (h.sent c hc).2⟩
    · rw [hround c hc]
      exact ⟨hn, Nat.lt_succ_self n⟩
  · intro r hr
    rw [hrounds] at hr
    rcases List.mem_append.mp hr with hr | hr
    · exact ⟨(h.rounds r hr).1, Nat.lt_succ_of_lt (h.rounds r hr).2⟩
    · rw [List.mem_singleton.mp hr]
      exact ⟨hn, Nat.lt_succ_self n⟩
  · intro r hr horderly
    rw [hrounds] at hr
    rw [happly]
    rcases List.mem_append.mp hr with hr | hr
    · apply properRound_append ?_ (h.orderly r hr horderly)
      intro c hc heq
      rw [hround c hc] at heq
      exact Nat.ne_of_lt (h.rounds r hr).2 heq.symm
    · rw [List.mem_singleton.mp hr] at horderly ⊢
      exact hnew horderly
  · intro r hr hunread
    rw [hrounds] at hr
    rcases List.mem_append.mp hr with hr | hr
    · exact h.unread r hr hunread
    · rw [List.mem_singleton.mp hr] at hunread ⊢
      have hall : decisions = fallbackResult asked := hfallback hunread
      constructor
      · intro decision hmem
        rw [hall] at hmem
        obtain ⟨summary, hsummary, heq⟩ := List.mem_map.mp hmem
        exact ⟨summary, hsummary, by rw [← heq], by rw [← heq]⟩
      · dsimp only
        rw [hall, fallbackResult_aics, hasked]
        let summaries := buildPartnerSummaries w s.progress.result
        have hsublist : ((summaries.filter fun summary => summary.state = .awaitingCompletion).map
            PartnerProductSummary.partnerAic).Sublist
              (summaries.map PartnerProductSummary.partnerAic) := List.filter_sublist.map _
        exact (hsublist.trans (buildPartnerSummaries_aics w _)).nodup (h.judged.listed hphase).once

theorem gateLoop_looping (rounds : ℕ) (hn : 0 < n) (h : Looping w n s) :
    ∃ m, 0 < m ∧ Looping w m (gateLoop w n rounds s) := by
  induction rounds generalizing n s with
  | zero => exact ⟨n, hn, h⟩
  | succ rounds ih =>
    unfold gateLoop
    split
    next hphase =>
      split
      next asked decisions hevaluate =>
        have hround := gateRound_looping hn h hphase hevaluate
        dsimp only
        split
        · exact ⟨n + 1, Nat.succ_pos n, hround⟩
        · exact ih (Nat.succ_pos n) hround
      next => exact ⟨n, hn, h⟩
    next => exact ⟨n, hn, h⟩

end Rounds

section Forcing

variable {w : World} {s : GateRun}

def SentCommand.Unanswered (c : SentCommand) : Prop :=
  c.action = .complete ∧ ∀ task, c.answer = .ok task → task.state = .awaitingCompletion

theorem forceComplete_left {aic : String} (hendpoint : w.endpoint aic = true)
    (hstill : ((forceComplete w s aic).progress.find aic).map PartnerExecutionResult.state =
      some .awaitingCompletion) :
    ∃ c, (forceComplete w s aic).sent = s.sent ++ [c] ∧ c.round = 0 ∧ c.partnerAic = aic ∧
      c.Unanswered := by
  unfold forceComplete at *
  rw [if_pos hendpoint] at *
  refine ⟨_, rfl, rfl, rfl, rfl, ?_⟩
  intro task hanswer
  unfold command at hstill
  dsimp only at hstill hanswer
  rw [hanswer] at hstill
  dsimp only at hstill
  rw [(forceCompleted_answered task).state] at hstill
  obtain ⟨per, -, hstate⟩ := Option.map_eq_some_iff.mp hstill
  exact hstate

theorem foldl_forceComplete_others {aics : List String} {other : String} (hother : other ∉ aics) :
    (aics.foldl (forceComplete w) s).progress.find other = s.progress.find other := by
  induction aics generalizing s with
  | nil => rfl
  | cons aic aics ih =>
    rw [List.mem_cons, not_or] at hother
    obtain ⟨hne, hother⟩ := hother
    rw [List.foldl_cons, ih hother]
    exact (forceComplete_addresses s aic).others other hne

theorem foldl_forceComplete_left {aics : List String} (hdistinct : aics.Nodup) {aic : String}
    (haic : aic ∈ aics) (hendpoint : w.endpoint aic = true)
    (hstill : ((aics.foldl (forceComplete w) s).progress.find aic).map
      PartnerExecutionResult.state = some .awaitingCompletion) :
    ∃ c ∈ (aics.foldl (forceComplete w) s).sent, c.round = 0 ∧ c.partnerAic = aic ∧
      c.Unanswered := by
  induction aics generalizing s with
  | nil => exact absurd haic List.not_mem_nil
  | cons first aics ih =>
    obtain ⟨hnew, hdistinct⟩ := List.nodup_cons.mp hdistinct
    rcases List.mem_cons.mp haic with rfl | haic
    · rw [List.foldl_cons] at hstill ⊢
      rw [foldl_forceComplete_others hnew] at hstill
      obtain ⟨c, hsent, hround, hpartner, hanswer⟩ := forceComplete_left hendpoint hstill
      have hstep (s : GateRun) (aic : String) :
          Addresses 0 aic (w.aipTaskId aic) s (forceComplete w s aic) := forceComplete_addresses s aic
      obtain ⟨more, hmore, -, -⟩ := foldl_addresses (w := w) hstep aics (forceComplete w s aic)
      refine ⟨c, ?_, hround, hpartner, hanswer⟩
      rw [hmore, hsent]
      simp
    · exact ih hdistinct haic hstill

end Forcing

structure Conduct (w : World) (run : GateRun) : Prop where
  orderly : ∀ r ∈ run.rounds, r.Orderly → ProperRound w run.sent r.round
  unread : ∀ r ∈ run.rounds, r.Unread w → ProperRound w run.sent r.round
  forced : ProperRound w run.sent 0
  left : ∀ per ∈ run.progress.result.partnerResults, per.state = .awaitingCompletion →
    .awaitingInput ∈ run.progress.result.states ∨ w.endpoint per.partnerAic = false ∨
      ∃ c ∈ run.sent, c.round = 0 ∧ c.partnerAic = per.partnerAic ∧ c.Unanswered
  completed : run.progress.result.phase = .completed →
    ∀ state ∈ run.progress.result.states, state = .completed ∨ state = .working ∨ state = .accepted

theorem forceCompleteAllPartners_conduct {w : World} {n : ℕ} {s : GateRun} (h : Looping w n s)
    (hphase : s.progress.result.phase = .awaitingCompletion) :
    Conduct w (forceCompleteAllPartners w s) := by
  have hlisted := h.judged.listed hphase
  have hstep := forceComplete_addresses (w := w)
  obtain ⟨more, hsent, hround, hsends⟩ := foldl_addresses (w := w) hstep
    s.progress.result.awaitingCompletionPartners s
  rw [List.map_id'] at hsends
  have hall : (forceCompleteAllPartners w s).sent = s.sent ++ more := hsent
  have hrounds : (forceCompleteAllPartners w s).rounds = s.rounds := foldl_rounds hstep _ s
  have hmore (r : GateRound) (hr : r ∈ s.rounds) : ∀ c ∈ more, c.round ≠ r.round := by
    intro c hc heq
    rw [hround c hc] at heq
    exact Nat.ne_of_lt (h.rounds r hr).1 heq
  have hdistinct := foldl_distinct hstep s.progress.result.awaitingCompletionPartners h.distinct
  have horderly : ∀ r ∈ s.rounds, r.Orderly →
      ProperRound w (forceCompleteAllPartners w s).sent r.round := by
    intro r hr horderly
    rw [hall]
    exact properRound_append (hmore r hr) (h.orderly r hr horderly)
  constructor
  · rw [hrounds]
    exact horderly
  · rw [hrounds]
    exact fun r hr hunread => horderly r hr (h.unread r hr hunread)
  · rw [hall]
    refine (hsends hlisted.once fun aic haic => ⟨?_, rfl⟩).properRound hlisted.once hround
      fun c hc => Nat.ne_of_gt (h.sent c hc).1
    exact hlisted.find h.distinct haic
  · intro per hper hstate
    have hresults : (forceCompleteAllPartners w s).progress.result.partnerResults =
        (s.progress.result.awaitingCompletionPartners.foldl (forceComplete w)
          s).progress.result.partnerResults := updateExecutionPhase_results _
    rw [hresults] at hper
    have hfind := Keyed.find_of_mem hdistinct hper
    have hstill : ((s.progress.result.awaitingCompletionPartners.foldl (forceComplete w)
        s).progress.find per.partnerAic).map PartnerExecutionResult.state =
          some .awaitingCompletion := by
      unfold Progress.find
      rw [hfind]
      exact congrArg some hstate
    have hlist : per.partnerAic ∈ s.progress.result.awaitingCompletionPartners := by
      by_contra hnot
      rw [foldl_forceComplete_others hnot] at hstill
      obtain ⟨old, hold, hwaits⟩ := Option.map_eq_some_iff.mp hstill
      apply hnot
      rw [hlisted.awaiting]
      exact List.mem_map.mpr ⟨old, List.mem_filter.mpr ⟨Keyed.mem_of_find hold,
        decide_eq_true (List.mem_singleton.mpr hwaits)⟩, Keyed.key_of_find hold⟩
    cases hendpoint : w.endpoint per.partnerAic with
    | false => exact .inr (.inl rfl)
    | true => exact .inr (.inr (foldl_forceComplete_left hlisted.once hlist hendpoint hstill))
  · exact (updatePhase_judged hdistinct).completed

theorem handleAwaitingCompletion_conduct (w : World) (p : Progress) (hdistinct : p.Distinct)
    (hphase : p.result.phase = .awaitingCompletion) (hlisted : Listed p.result) :
    Conduct w (handleAwaitingCompletionWithLoop w p) := by
  let s : GateRun := { progress := p, sent := [], rounds := [] }
  have hstart : Looping w 1 s :=
    { distinct := hdistinct
      judged := ⟨fun _ => hlisted, fun h => (h hphase).elim,
        fun h => by rw [hphase] at h; cases h⟩
      sent := fun _ hc => absurd hc List.not_mem_nil
      rounds := fun _ hr => absurd hr List.not_mem_nil
      orderly := fun _ hr => absurd hr List.not_mem_nil
      unread := fun _ hr => absurd hr List.not_mem_nil }
  unfold handleAwaitingCompletionWithLoop
  dsimp only
  split
  · obtain ⟨m, hm, h⟩ := gateLoop_looping w.maxRounds Nat.one_pos hstart
    split
    next hawaits => exact forceCompleteAllPartners_conduct h hawaits
    next hawaits =>
      constructor
      · exact h.orderly
      · exact fun r hr hunread => h.orderly r hr (h.unread r hr hunread)
      · constructor
        · intro c hc hround
          exact absurd hround (Nat.ne_of_gt (h.sent c hc).1)
        · have hnone : (gateLoop w 1 w.maxRounds s).sent.filter (·.round = 0) = [] := by
            rw [List.filter_eq_nil_iff]
            exact fun c hc hround => Nat.ne_of_gt (h.sent c hc).1 (of_decide_eq_true hround)
          rw [hnone]
          exact List.nodup_nil
      · intro per hper hstate
        exact .inl (h.judged.waiting hawaits (List.mem_map.mpr ⟨per, hper, hstate⟩))
      · exact h.judged.completed
  · exact forceCompleteAllPartners_conduct hstart hphase

namespace Sample

def waiting (aic : String) : PartnerExecutionResult :=
  { partnerAic := aic, dimensionId := "dim", state := .awaitingCompletion, task := none
    dataItems := [], error := none }

def twoWaiting : Progress :=
  { result := { ExecutionResult.ofPhase .awaitingCompletion with
      partnerResults := [waiting "a", waiting "b"], awaitingCompletionPartners := ["a", "b"] }
    shared := ["a", "b"] }

def response : Text :=
  ("\x7b\"decisions\": [\x7b\"partnerAic\": \"a\", \"aipTaskId\": \"task:a\", " ++
    "\"nextAction\": \"continue\"\x7d]\x7d").toList

def loads (text : Text) : Option Json :=
  if text = response then
    some (.obj [("decisions", .arr [.obj [("partnerAic", .str "a"), ("aipTaskId", .str "task:a"),
      ("nextAction", .str "continue")]])])
  else none

def asking : World where
  activeTaskId := "task"
  planning := { selectedPartners := [("dim", ["a", "b"])] }
  endpoint _ := true
  gate := true
  maxRounds := 1
  group := false
  maxExecutionRounds := 1
  loads := loads
  respond _ := .ok response
  answer _ := .ok { state := .working, dataItems := [], products := [] }
  repoll _ :=
    { answers := fun _ aic => .ok
        { state := if aic = "a" then .awaitingInput else .awaitingCompletion, dataItems := []
          products := [] }
      heard := fun _ => { states := fun _ => none, products := fun _ => none, prompts := fun _ => none }
      expired := fun _ => false }

end Sample

theorem asking_leaves_waiting :
    ∃ per ∈ (handleAwaitingCompletionWithLoop Sample.asking
        Sample.twoWaiting).progress.result.partnerResults,
      per.state = .awaitingCompletion ∧ Sample.asking.endpoint per.partnerAic = true ∧
        ∀ c ∈ (handleAwaitingCompletionWithLoop Sample.asking Sample.twoWaiting).sent,
          c.partnerAic ≠ per.partnerAic := by
  delta Sample.asking Sample.loads Sample.response
  repeat rw [String.toList_append, String.toList_ofList, String.toList_ofList]
  decide +kernel

theorem asking_conduct :
    Conduct Sample.asking (handleAwaitingCompletionWithLoop Sample.asking Sample.twoWaiting) :=
  handleAwaitingCompletion_conduct Sample.asking Sample.twoWaiting
    (by unfold Progress.Distinct Keyed.Unique; decide) rfl
    ⟨fun _ => Iff.rfl, by decide⟩

end Acps.Assistant.AipExecutor.CompletionGate
