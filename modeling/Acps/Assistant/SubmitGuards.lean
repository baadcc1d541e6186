import Acps.Assistant.CurrentTask

/-!
What a submit has checked when its request was handled still holds when it acts, if no other submit or
cancellation takes the active task away from it.
-/

namespace Acps.Assistant

open Transition
open Partner (Time TaskState)

inductive Capture where
  | new (taskId : Option ActiveTaskId)
  | planned (replaced : Option ActiveTaskId)
  | input (taskId : ActiveTaskId)

def SubmitStage.capture : SubmitStage → Option Capture
  | .cancellation _ taskId _ | .termination _ taskId _ => some (.new (some taskId))
  | .planning _ replaced => some (.new replaced)
  | .planAudit _ replaced => some (.planned replaced)
  | .routing taskId | .continuation taskId _ _ _ _ | .partialContinuation taskId _ _ _ =>
    some (.input taskId)
  | _ => none

def Capture.active (k : ℕ) : Capture → Option ActiveTaskId
  | .new taskId => taskId
  | .planned _ => some k
  | .input taskId => some taskId

def Capture.subject : Capture → Option ActiveTaskId
  | .new taskId | .planned taskId => taskId
  | .input taskId => some taskId

def Capture.isNew : Capture → Bool
  | .new _ => true
  | _ => false

def SubmitRequest.names (r : SubmitRequest) (taskId : Option ActiveTaskId) : Prop :=
  ∀ n, r.activeTaskId = some n → taskId = some n

/-- The session is open when the submit acts, and a task that its request names is the one that it
acts on, and the active one. Once it has been replaced, the new one is. -/
def SubmitEvent.Guarded (submits : List Submit) (e : SubmitEvent) : Prop :=
  ∃ submit : Submit, submits[e.submit]? = some submit ∧
    match e.effect with
    | .handled _ => True
    | .terminated taskId => submit.request.names (some taskId) ∧ submit.request.names e.activeTask
    | .installed replaced => e.closed = false ∧ submit.request.names replaced ∧
        submit.request.names e.activeTask
    | .submitted replaced => e.closed = false ∧ submit.request.names replaced ∧
        (submit.request.activeTaskId.isSome → e.activeTask = some e.submit)
    | .continued taskId _ => e.closed = false ∧ submit.request.names (some taskId) ∧
        submit.request.names e.activeTask

namespace Leader

def Unterminated (s : Leader) (i : ℕ) (run : Run) : Prop :=
  s.executor.runs[i]? = some run ∧ run.stage ≠ .done ∧ i ∉ s.terminated

def OneTask (s : Leader) : Prop :=
  ∀ (i j : ℕ) (run other : Run), s.Unterminated i run → s.Unterminated j other →
    other.taskId = run.taskId

def capture (s : Leader) (k : ℕ) : Option Capture := (s.stage k).bind SubmitStage.capture

def Others (s : Leader) (a : LeaderAct) (p : Capture → Bool) : Prop :=
  ∀ j ∈ List.range s.submits.length, a.submitOf ≠ some j → (s.capture j).all p = true

def Handles (s : Leader) (request : SubmitRequest) : IntentType → Prop
  | .chitChat => True
  | .taskNew => s.session.closed = false ∧ request.names s.session.activeTask ∧
      (s.session.activeTask = none → ∀ i ∈ List.range s.executor.runs.length,
        (s.executor.runs[i]?).all (fun run => run.stage = .done) = true ∨ i ∈ s.terminated)
  | .taskInput => s.session.activeTask.isSome →
      s.session.closed = false ∧ request.names s.session.activeTask

instance (r : SubmitRequest) (taskId : Option ActiveTaskId) : Decidable (r.names taskId) :=
  decidable_of_iff (r.activeTaskId.all (fun n => taskId = some n) = true) (by
    unfold SubmitRequest.names
    cases r.activeTaskId <;> simp)

instance (s : Leader) (a : LeaderAct) (p : Capture → Bool) : Decidable (s.Others a p) :=
  inferInstanceAs (Decidable (∀ j ∈ List.range s.submits.length, a.submitOf ≠ some j →
    (s.capture j).all p = true))

instance (s : Leader) (request : SubmitRequest) (intentType : IntentType) :
    Decidable (s.Handles request intentType) :=
  match intentType with
  | .chitChat => instDecidableTrue
  | .taskNew => inferInstanceAs (Decidable (s.session.closed = false ∧
      request.names s.session.activeTask ∧ (s.session.activeTask = none →
        ∀ i ∈ List.range s.executor.runs.length,
          (s.executor.runs[i]?).all (fun run => run.stage = .done) = true ∨ i ∈ s.terminated)))
  | .taskInput => inferInstanceAs (Decidable (s.session.activeTask.isSome = true →
      s.session.closed = false ∧ request.names s.session.activeTask))

def Checked (s : Leader) : LeaderAct → Bool
  | .handleIntent k _ => (s.submits[k]?).all fun submit => match submit.stage with
    | .audit intent => decide (s.Handles submit.request intent.intentType)
    | _ => true
  | _ => true

/-- When its request is handled the checks hold again, and nothing is left running if no task is
active. While it goes on from there to its effects, no other submit or cancellation takes the active
task away, and no run is started while another submit is on its way to a new task. -/
structure Undisturbed (o : Orchestrator) (s : Leader) (a : LeaderAct) : Prop where
  handled : s.Checked a = true
  taken : s.closes o a = true ∨ s.replaces a = true → s.Others a fun _ => false
  started : (s.starts o a).isSome = true → s.Others a fun c => !c.isNew

instance (o : Orchestrator) (s : Leader) (a : LeaderAct) : Decidable (s.Undisturbed o a) :=
  decidable_of_iff (s.Checked a = true ∧
    (s.closes o a = true ∨ s.replaces a = true → s.Others a fun _ => false) ∧
    ((s.starts o a).isSome = true → s.Others a fun c => !c.isNew))
    ⟨fun h => ⟨h.1, h.2.1, h.2.2⟩, fun h => ⟨h.handled, h.taken, h.started⟩⟩

inductive Recaptures (s : Leader) (k : ℕ) : LeaderAct → Capture → Prop
  | kept {a : LeaderAct} {c : Capture} (hreplaces : s.replaces a = false)
      (hcapture : s.capture k = some c) : Recaptures s k a c
  | new {now : Time} {intent : IntentDecision} (hstage : s.stage k = some (.audit intent))
      (hintent : intent.intentType = .taskNew) :
      Recaptures s k (.handleIntent k now) (.new s.session.activeTask)
  | input {now : Time} {intent : IntentDecision} {taskId : ActiveTaskId}
      (hstage : s.stage k = some (.audit intent)) (hintent : intent.intentType = .taskInput)
      (hactive : s.session.activeTask = some taskId) :
      Recaptures s k (.handleIntent k now) (.input taskId)
  | planned {planning : PlanningResult} {now : Time} {replaced : Option ActiveTaskId}
      (hcapture : s.capture k = some (.new replaced)) :
      Recaptures s k (.planned k (some planning) now) (.planned replaced)

inductive Records (s : Leader) (k : ℕ) : LeaderAct → SubmitEffect → Prop
  | handled {now : Time} {intentType : IntentType} :
      Records s k (.handleIntent k now) (.handled intentType)
  | terminated {now : Time} {intent : IntentDecision} {taskId : ActiveTaskId}
      (hstage : s.stage k = some (.audit intent)) (hintent : intent.intentType = .taskNew)
      (hactive : s.session.activeTask = some taskId) :
      Records s k (.handleIntent k now) (.terminated taskId)
  | installed {planning : PlanningResult} {now : Time} {replaced : Option ActiveTaskId}
      (hcapture : s.capture k = some (.new replaced)) :
      Records s k (.planned k (some planning) now) (.installed replaced)
  | submitted {replaced : Option ActiveTaskId} (hcapture : s.capture k = some (.planned replaced)) :
      Records s k (.planAudited k) (.submitted replaced)
  | continued {a : LeaderAct} {taskId : ActiveTaskId} {partnerAic : String}
      (hcapture : s.capture k = some (.input taskId)) :
      Records s k a (.continued taskId partnerAic)

structure Follows (k : ℕ) (a : LeaderAct) (s t : Leader) : Prop where
  capture : ∀ c, t.capture k = some c → Recaptures s k a c
  events : ∀ e ∈ t.events, e ∈ s.events ∨ e.submit = k ∧ e.closed = s.session.closed ∧
    e.activeTask = s.session.activeTask ∧ Records s k a e.effect

end Leader

section Captures

open Leader

variable {o : Orchestrator} {s t : Leader} {a : LeaderAct} {k : ℕ}

theorem capture_setStage {stage : SubmitStage} {c : Capture}
    (h : (s.setStage k stage).capture k = some c) : stage.capture = some c := by
  unfold Leader.capture at h
  rw [stage_setStage] at h
  obtain ⟨stage', hstage, h⟩ := Option.bind_eq_some_iff.mp h
  obtain ⟨-, -, rfl⟩ := Option.map_eq_some_iff.mp hstage
  exact h

theorem capture_finish (s : Leader) (k : ℕ) : (s.finish o k).capture k = none := by
  unfold Leader.capture
  rw [stage_finish]
  cases s.stage k with
  | none => rfl
  | some stage => rfl

theorem events_finish (s : Leader) (k : ℕ) : (s.finish o k).events = s.events := by
  unfold finish
  split <;> rfl

structure Goes (k : ℕ) (c : Capture) (s t : Leader) : Prop where
  capture : ∀ c', t.capture k = some c' → c' = c
  events : ∀ e ∈ t.events, e ∈ s.events ∨ e.submit = k ∧ e.closed = s.session.closed ∧
    e.activeTask = s.session.activeTask ∧ ∃ taskId partnerAic, c = .input taskId ∧
      e.effect = .continued taskId partnerAic

theorem goes_setStage {c : Capture} {stage : SubmitStage} (hstage : ∀ c', stage.capture = some c' → c' = c) :
    Goes k c s (s.setStage k stage) :=
  ⟨fun c' h => hstage c' (capture_setStage h), fun _ he => .inl he⟩

theorem goes_finish (c : Capture) : Goes k c s (s.finish o k) := by
  refine ⟨fun c' h => ?_, fun e he => .inl ?_⟩
  · rw [capture_finish] at h
    cases h
  · rwa [events_finish] at he

theorem Goes.of_same {u : Leader} {c : Capture} (h : Goes k c u t) (hevents : u.events = s.events)
    (hclosed : u.session.closed = s.session.closed)
    (hactive : u.session.activeTask = s.session.activeTask) : Goes k c s t := by
  refine ⟨h.capture, fun e he => ?_⟩
  rw [← hevents, ← hclosed, ← hactive]
  exact h.events e he

theorem goes_startPlanning (s : Leader) (intent : IntentDecision) (replaced : Option ActiveTaskId) :
    Goes k (.new replaced) s (s.startPlanning o k intent replaced) := by
  unfold startPlanning
  split
  · exact goes_setStage fun c' h => (Option.some.inj h).symm
  · exact goes_finish _

theorem goes_terminate (s : Leader) (intent : IntentDecision) (taskId : ActiveTaskId)
    (partners : List String) :
    Goes k (.new (some taskId)) s (s.terminate o k intent taskId partners) := by
  unfold terminate
  split
  · exact goes_setStage fun c' h => (Option.some.inj h).symm
  · exact goes_startPlanning s intent _

theorem goes_continue {taskId : ActiveTaskId} {stage : SubmitStage} (partnerAic : String)
    (hstage : stage.capture = some (.input taskId)) :
    Goes k (.input taskId) s ((s.record k (.continued taskId partnerAic)).setStage k stage) := by
  refine ⟨fun c' h => ?_, fun e he => ?_⟩
  · have hc := capture_setStage h
    rw [hstage] at hc
    exact (Option.some.inj hc).symm
  · rcases List.mem_append.mp he with he | he
    · exact .inl he
    · obtain rfl := List.mem_singleton.mp he
      exact .inr ⟨rfl, rfl, rfl, taskId, partnerAic, rfl, rfl⟩

theorem goes_raise (c : Capture) : Goes k c s (s.raise k) :=
  goes_setStage fun c' h => by cases h

theorem goes_continuePartially (s : Leader) (taskId : ActiveTaskId) (routing : RoutingResult)
    (partners : List String) :
    Goes k (.input taskId) s (s.continuePartially o k taskId routing partners) := by
  unfold continuePartially
  split
  · exact goes_continue _ rfl
  · split
    · exact goes_setStage fun c' h => by cases h
    · exact goes_finish _
  · exact goes_raise _

theorem goes_continuePartners (s : Leader) (taskId : ActiveTaskId) (routing : RoutingResult)
    (partners : List String) (successes : ℕ) (now : Time) :
    Goes k (.input taskId) s (s.continuePartners o k taskId routing partners successes now) := by
  unfold continuePartners
  split
  · exact goes_continue _ rfl
  · unfold concludeContinue
    dsimp only
    split
    · exact (goes_finish _).of_same rfl rfl rfl
    · exact (goes_finish _).of_same rfl rfl rfl
  · exact goes_raise _

theorem follows_of_goes {c : Capture} (h : Goes k c s t) (hcapture : s.capture k = some c)
    (hreplaces : s.replaces a = false) : Follows k a s t := by
  refine ⟨fun c' hc' => ?_, fun e he => ?_⟩
  · rw [h.capture c' hc']
    exact .kept hreplaces hcapture
  · rcases h.events e he with he | ⟨hsubmit, hclosed, hactive, taskId, partnerAic, rfl, heffect⟩
    · exact .inl he
    · refine .inr ⟨hsubmit, hclosed, hactive, ?_⟩
      rw [heffect]
      exact .continued hcapture

theorem capture_of_stage {stage : SubmitStage} {c : Capture} (hstage : s.stage k = some stage)
    (hcapture : stage.capture = some c) : s.capture k = some c := by
  unfold Leader.capture
  rw [hstage]
  exact hcapture

theorem follows_of_idle (hcapture : t.capture k = none) (hevents : t.events = s.events) :
    Follows k a s t := by
  refine ⟨fun c h => ?_, fun e he => .inl ?_⟩
  · rw [hcapture] at h
    cases h
  · rwa [hevents] at he

theorem follows_chitChat {intent : IntentDecision} {now : Time} :
    Follows k (.handleIntent k now) s
      ((s.record k (.handled .chitChat)).handleChitChat o k intent now) := by
  unfold handleChitChat
  dsimp only
  refine ⟨fun c h => ?_, fun e he => ?_⟩
  · rw [capture_finish] at h
    cases h
  · rw [events_finish] at he
    rcases List.mem_append.mp he with he | he
    · exact .inl he
    · obtain rfl := List.mem_singleton.mp he
      exact .inr ⟨rfl, rfl, rfl, .handled⟩

theorem follows_taskNew {intent : IntentDecision} {now : Time}
    (hstage : s.stage k = some (.audit intent)) (hintent : intent.intentType = .taskNew) :
    Follows k (.handleIntent k now) s
      ((s.record k (.handled .taskNew)).handleTaskNew o k intent) := by
  have hhandled (e : SubmitEvent) (he : e ∈ (s.record k (.handled .taskNew)).events) :
      e ∈ s.events ∨ e.submit = k ∧ e.closed = s.session.closed ∧
        e.activeTask = s.session.activeTask ∧ Records s k (.handleIntent k now) e.effect := by
    rcases List.mem_append.mp he with he | he
    · exact .inl he
    · obtain rfl := List.mem_singleton.mp he
      exact .inr ⟨rfl, rfl, rfl, .handled⟩
  unfold handleTaskNew
  dsimp only
  split
  · next taskId hactive =>
    have hactive : s.session.activeTask = some taskId := hactive
    refine ⟨fun c h => ?_, fun e he => ?_⟩
    · obtain rfl := Option.some.inj (capture_setStage h)
      rw [← hactive]
      exact .new hstage hintent
    · rcases List.mem_append.mp he with he | he
      · exact hhandled e he
      · obtain rfl := List.mem_singleton.mp he
        exact .inr ⟨rfl, rfl, rfl, .terminated hstage hintent hactive⟩
  · next hnone =>
    have hnone : s.session.activeTask = none := hnone
    have hgoes := goes_startPlanning (o := o) (k := k)
      { s.record k (.handled .taskNew) with session := { s.session with
        expertScenario := (intent.targetScenario.filter (· ≠ "")).or s.session.expertScenario } }
      intent none
    refine ⟨fun c h => ?_, fun e he => ?_⟩
    · rw [hgoes.capture c h, ← hnone]
      exact .new hstage hintent
    · rcases hgoes.events e he with he | ⟨-, -, -, taskId, partnerAic, hc, -⟩
      · exact hhandled e he
      · cases hc

theorem follows_taskInput {intent : IntentDecision} {now : Time}
    (hstage : s.stage k = some (.audit intent)) (hintent : intent.intentType = .taskInput) :
    Follows k (.handleIntent k now) s ((s.record k (.handled .taskInput)).handleTaskInput o k) := by
  have hevents : ((s.record k (.handled .taskInput)).handleTaskInput o k).events =
      (s.record k (.handled .taskInput)).events := by
    unfold handleTaskInput
    split
    · split
      · rfl
      · exact events_finish _ k
    · exact events_finish _ k
  refine ⟨fun c h => ?_, fun e he => ?_⟩
  · unfold handleTaskInput at h
    split at h
    · next taskId hactive =>
      split at h
      · obtain rfl := Option.some.inj (capture_setStage h)
        exact .input hstage hintent hactive
      · rw [capture_finish] at h
        cases h
    · rw [capture_finish] at h
      cases h
  · rw [hevents] at he
    rcases List.mem_append.mp he with he | he
    · exact .inl he
    · obtain rfl := List.mem_singleton.mp he
      exact .inr ⟨rfl, rfl, rfl, .handled⟩

theorem follows_handleIntent {now : Time} (ht : s.audited o k now = some t) :
    Follows k (.handleIntent k now) s t := by
  unfold Leader.audited at ht
  split at ht
  · next intent hstage =>
    obtain rfl := Option.some.inj ht
    unfold Leader.handleIntent
    dsimp only
    split
    · next hintent =>
      rw [hintent]
      exact follows_chitChat
    · next hintent =>
      rw [hintent]
      exact follows_taskNew hstage hintent
    · next hintent =>
      rw [hintent]
      exact follows_taskInput hstage hintent
  · cases ht

theorem follows_planned {planning : Option PlanningResult} {now : Time}
    (ht : s.planned o k planning now = some t) : Follows k (.planned k planning now) s t := by
  unfold Leader.planned at ht
  split at ht
  · next intent replaced submit hstage hsubmit =>
    have hcapture : s.capture k = some (.new replaced) := capture_of_stage hstage rfl
    split at ht
    · obtain rfl := Option.some.inj ht
      refine ⟨fun c h => ?_, fun e he => ?_⟩
      · obtain rfl := Option.some.inj (capture_setStage h)
        exact .planned hcapture
      · rcases List.mem_append.mp he with he | he
        · exact .inl he
        · obtain rfl := List.mem_singleton.mp he
          exact .inr ⟨rfl, rfl, rfl, .installed hcapture⟩
    · obtain rfl := Option.some.inj ht
      exact follows_of_idle (capture_finish s k) (events_finish s k)
  · cases ht

theorem follows_planAudited (ht : s.planAudited o k = some t) :
    Follows k (.planAudited k) s t := by
  unfold Leader.planAudited at ht
  split at ht
  · next planning replaced hstage =>
    obtain rfl := Option.some.inj ht
    unfold Leader.submitTask
    dsimp only
    refine ⟨fun c h => ?_, fun e he => ?_⟩
    · rw [capture_finish] at h
      cases h
    · rw [events_finish] at he
      rcases List.mem_append.mp he with he | he
      · exact .inl he
      · obtain rfl := List.mem_singleton.mp he
        exact .inr ⟨rfl, rfl, rfl, .submitted (capture_of_stage hstage rfl)⟩
  · cases ht

theorem follows_routed {routing : Option RoutingResult} {now : Time}
    (ht : s.routed o k routing now = some t) : Follows k (.routed k routing now) s t := by
  unfold Leader.routed at ht
  split at ht
  · next taskId hstage =>
    have hcapture : s.capture k = some (.input taskId) := capture_of_stage hstage rfl
    split at ht
    · split at ht
      · obtain rfl := Option.some.inj ht
        exact follows_of_goes (goes_continuePartners s taskId _ _ _ now) hcapture rfl
      · obtain rfl := Option.some.inj ht
        exact follows_of_goes (goes_continuePartially s taskId _ _) hcapture rfl
    · obtain rfl := Option.some.inj ht
      exact follows_of_idle (capture_finish s k) (events_finish s k)
  · cases ht

theorem follows_continued {state : Option TaskState} {now : Time}
    (ht : s.continued o k state now = some t) : Follows k (.continued k state now) s t := by
  unfold Leader.continued at ht
  split at ht
  · next taskId routing partnerAic rest successes hstage =>
    obtain rfl := Option.some.inj ht
    have hkept := works_continuedPartner (k := k) s taskId partnerAic state
    have hevents : (s.continuedPartner taskId partnerAic state).events = s.events := by
      unfold continuedPartner
      split <;> rfl
    exact follows_of_goes ((goes_continuePartners _ taskId routing rest _ now).of_same hevents
      hkept.closed hkept.activeTask) (capture_of_stage hstage rfl) rfl
  · next taskId routing partnerAic rest hstage =>
    obtain rfl := Option.some.inj ht
    exact follows_of_goes (goes_continuePartially s taskId routing rest)
      (capture_of_stage hstage rfl) rfl
  · cases ht

theorem follows_step (hsubmit : a.submitOf = some k) (ht : s.step o a = some t) :
    Follows k a s t := by
  cases a with
  | analyzed j intent =>
    obtain rfl := Option.some.inj hsubmit
    change s.analyzed j intent = some t at ht
    unfold Leader.analyzed at ht
    split at ht
    · split at ht
      · obtain rfl := Option.some.inj ht
        exact ⟨fun c h => (by cases capture_setStage h), fun e he => .inl he⟩
      · obtain rfl := Option.some.inj ht
        exact ⟨fun c h => (by cases capture_setStage h), fun e he => .inl he⟩
    · cases ht
  | handleIntent j now =>
    obtain rfl := Option.some.inj hsubmit
    exact follows_handleIntent ht
  | cancelled j =>
    obtain rfl := Option.some.inj hsubmit
    change s.cancelled o j = some t at ht
    unfold Leader.cancelled at ht
    split at ht
    · next intent taskId run hstage =>
      obtain ⟨-, ht⟩ := Option.ite_none_right_eq_some.mp ht
      obtain rfl := Option.some.inj ht
      exact follows_of_goes (goes_terminate s intent taskId _) (capture_of_stage hstage rfl) rfl
    · cases ht
  | terminated j =>
    obtain rfl := Option.some.inj hsubmit
    change s.terminatedPartner o j = some t at ht
    unfold Leader.terminatedPartner at ht
    split at ht
    · next intent taskId rest hstage =>
      obtain rfl := Option.some.inj ht
      exact follows_of_goes (goes_terminate s intent taskId rest) (capture_of_stage hstage rfl) rfl
    · cases ht
  | planned j planning now =>
    obtain rfl := Option.some.inj hsubmit
    exact follows_planned ht
  | planAudited j =>
    obtain rfl := Option.some.inj hsubmit
    exact follows_planAudited ht
  | routed j routing now =>
    obtain rfl := Option.some.inj hsubmit
    exact follows_routed ht
  | continued j state now =>
    obtain rfl := Option.some.inj hsubmit
    exact follows_continued ht
  | clarified j =>
    obtain rfl := Option.some.inj hsubmit
    change s.clarified o j = some t at ht
    unfold Leader.clarified at ht
    split at ht
    · obtain rfl := Option.some.inj ht
      exact follows_of_idle (capture_finish s j) (events_finish s j)
    · cases ht
  | _ => cases hsubmit

theorem events_other (hsubmit : a.submitOf = none) (ht : s.step o a = some t) :
    t.events = s.events := by
  cases a with
  | submit r =>
    obtain rfl := Option.some.inj ht
    unfold Leader.submit
    split <;> rfl
  | cancel now =>
    obtain rfl := Option.some.inj ht
    unfold Leader.cancel
    split
    · split <;> rfl
    · rfl
  | partnerNotified j =>
    change s.partnerNotified o j = some t at ht
    unfold Leader.partnerNotified at ht
    split at ht
    · split at ht
      · obtain rfl := Option.some.inj ht
        rfl
      · obtain rfl := Option.some.inj ht
        rfl
    · cases ht
  | cancelAudited j =>
    change s.cancelAudited j = some t at ht
    unfold Leader.cancelAudited at ht
    split at ht
    · obtain rfl := Option.some.inj ht
      rfl
    · cases ht
  | run i awaited now =>
    obtain ⟨run, -, ht⟩ := Option.bind_eq_some_iff.mp ht
    obtain ⟨segment, -, rfl⟩ := Option.map_eq_some_iff.mp ht
    rfl
  | pollUpdate i result now | progress i result now =>
    obtain ⟨run, -, ht⟩ := Option.bind_eq_some_iff.mp ht
    obtain ⟨-, ht⟩ := Option.ite_none_right_eq_some.mp ht
    obtain rfl := Option.some.inj ht
    rfl
  | callback i =>
    obtain ⟨executor, -, rfl⟩ := Option.map_eq_some_iff.mp ht
    rfl
  | _ => cases hsubmit

theorem terminated_handleTaskNew (s : Leader) (k : ℕ) (intent : IntentDecision) :
    (s.handleTaskNew o k intent).terminated =
      s.terminated ++ s.session.activeTask.toList.flatMap s.liveRuns := by
  unfold handleTaskNew
  dsimp only
  split
  · next taskId hactive =>
    have hactive : s.session.activeTask = some taskId := hactive
    rw [hactive, Option.toList_some, List.flatMap_singleton]
    rfl
  · next hnone =>
    have hnone : s.session.activeTask = none := hnone
    rw [(works_startPlanning (k := k) _ intent none).terminated, hnone, Option.toList_none,
      List.flatMap_nil, List.append_nil]

theorem terminated_step (ht : s.step o a = some t) {i : ℕ} (hi : i ∈ s.terminated) :
    i ∈ t.terminated := by
  cases a with
  | handleIntent k now =>
    change s.audited o k now = some t at ht
    unfold Leader.audited at ht
    split at ht
    · next intent hstage =>
      obtain rfl := Option.some.inj ht
      unfold Leader.handleIntent
      dsimp only
      split
      · unfold handleChitChat
        dsimp only
        rwa [(works_finish _ k).terminated]
      · rw [terminated_handleTaskNew]
        exact List.mem_append_left _ hi
      · rwa [(works_handleTaskInput _).terminated]
    · cases ht
  | planned k planning now =>
    change s.planned o k planning now = some t at ht
    unfold Leader.planned at ht
    split at ht
    · split at ht
      · obtain rfl := Option.some.inj ht
        exact hi
      · obtain rfl := Option.some.inj ht
        rwa [(works_finish s k).terminated]
    · cases ht
  | planAudited k =>
    change s.planAudited o k = some t at ht
    unfold Leader.planAudited at ht
    split at ht
    · obtain rfl := Option.some.inj ht
      unfold Leader.submitTask
      dsimp only
      rwa [(works_finish _ k).terminated]
    · cases ht
  | continued k state now =>
    cases hstarts : s.starts o (.continued k state now) with
    | none => rwa [(works_continued hstarts ht).terminated]
    | some taskId =>
      obtain ⟨-, -, -, -, -, -, -, -, -, -, hsame, -⟩ := resumed_of_starts hstarts ht
      rwa [hsame]
  | analyzed k intent => rwa [(works_analyzed ht).terminated]
  | cancelled k => rwa [(works_cancelled ht).terminated]
  | terminated k => rwa [(works_terminatedPartner ht).terminated]
  | routed k routing now => rwa [(works_routed ht).terminated]
  | clarified k => rwa [(works_clarified ht).terminated]
  | submit r =>
    obtain rfl := Option.some.inj ht
    unfold Leader.submit
    split <;> exact hi
  | cancel now =>
    obtain rfl := Option.some.inj ht
    unfold Leader.cancel
    split
    · split
      · exact hi
      · exact List.mem_append_left _ hi
    · exact List.mem_append_left _ hi
  | partnerNotified j =>
    change s.partnerNotified o j = some t at ht
    unfold Leader.partnerNotified at ht
    split at ht
    · split at ht
      · obtain rfl := Option.some.inj ht
        exact hi
      · obtain rfl := Option.some.inj ht
        exact List.mem_append_left _ hi
    · cases ht
  | cancelAudited j =>
    change s.cancelAudited j = some t at ht
    unfold Leader.cancelAudited at ht
    split at ht
    · obtain rfl := Option.some.inj ht
      exact hi
    · cases ht
  | run i awaited now =>
    obtain ⟨run, -, ht⟩ := Option.bind_eq_some_iff.mp ht
    obtain ⟨segment, -, rfl⟩ := Option.map_eq_some_iff.mp ht
    exact hi
  | pollUpdate i result now | progress i result now =>
    obtain ⟨run, -, ht⟩ := Option.bind_eq_some_iff.mp ht
    obtain ⟨-, ht⟩ := Option.ite_none_right_eq_some.mp ht
    obtain rfl := Option.some.inj ht
    exact hi
  | callback i =>
    obtain ⟨executor, -, rfl⟩ := Option.map_eq_some_iff.mp ht
    exact hi

end Captures

structure Leader.Guarded (s : Leader) : Prop where
  captured : ∀ (k : ℕ) (submit : Submit) (c : Capture), s.submits[k]? = some submit →
    submit.stage.capture = some c → s.session.closed = false ∧
      s.session.activeTask = c.active k ∧ submit.request.names c.subject
  events : ∀ e ∈ s.events, e.Guarded s.submits
  clear : ∀ (k : ℕ) (c : Capture), s.capture k = some c → c.isNew = true →
    ∀ (i : ℕ) (run : Run), ¬ s.Unterminated i run
  current : ∀ (i : ℕ) (run : Run) (taskId : ActiveTaskId), s.Unterminated i run →
    s.session.activeTask = some taskId → run.taskId = taskId
  one : s.OneTask

section Invariant

open Leader

variable {o : Orchestrator} {s t : Leader} {a : LeaderAct} {k : ℕ}

theorem guarded_initial (mode : ExecutionMode) : (Leader.initial mode).Guarded where
  captured := by
    intro k submit c h
    cases h
  events := by
    intro e he
    cases he
  clear := by
    intro k c h
    cases h
  current := by
    intro i run taskId h
    cases h.1
  one := by
    intro i j run other h
    cases h.1

theorem capture_eq_some {c : Capture} : s.capture k = some c ↔
    ∃ submit : Submit, s.submits[k]? = some submit ∧ submit.stage.capture = some c := by
  unfold Leader.capture Leader.stage
  rw [Option.bind_map, Option.bind_eq_some_iff]
  rfl

theorem submit_other (ht : s.step o a = some t) {j : ℕ} (hother : a.submitOf ≠ some j)
    {submit : Submit} {c : Capture} (hsubmit : t.submits[j]? = some submit)
    (hcapture : submit.stage.capture = some c) : s.submits[j]? = some submit := by
  cases hof : a.submitOf with
  | some k =>
    have hne : j ≠ k := by
      rintro rfl
      exact hother hof
    exact ((own_step hof ht).others j hne).symm.trans hsubmit
  | none =>
    obtain ⟨added, hadded, hfresh⟩ := submits_added hof ht
    rw [hadded] at hsubmit
    by_cases hlt : j < s.submits.length
    · rwa [List.getElem?_append_left hlt] at hsubmit
    · rw [List.getElem?_append_right (Nat.le_of_not_lt hlt)] at hsubmit
      rw [hfresh submit (List.mem_of_getElem? hsubmit)] at hcapture
      cases hcapture

theorem Leader.Others.of_capture {p : Capture → Bool} (h : s.Others a p) {j : ℕ} {submit : Submit}
    {c : Capture} (hother : a.submitOf ≠ some j) (hsubmit : s.submits[j]? = some submit)
    (hcapture : submit.stage.capture = some c) : p c = true := by
  have hj : j ∈ List.range s.submits.length :=
    List.mem_range.mpr (List.getElem?_eq_some_iff.mp hsubmit).1
  have hall := h j hj hother
  rw [capture_eq_some.mpr ⟨submit, hsubmit, hcapture⟩] at hall
  exact hall

theorem capture_of_starts (ht : s.step o a = some t) {taskId : ActiveTaskId}
    (hstarts : s.starts o a = some taskId) :
    ∃ k c, a.submitOf = some k ∧ s.capture k = some c ∧ c.active k = some taskId ∧
      c.isNew = false := by
  cases a with
  | planAudited k =>
    obtain rfl := Option.some.inj hstarts
    change s.planAudited o k = some t at ht
    unfold Leader.planAudited at ht
    split at ht
    · next planning replaced hstage =>
      exact ⟨k, .planned replaced, rfl, capture_of_stage hstage rfl, rfl, rfl⟩
    · cases ht
  | continued k state now =>
    obtain ⟨routing, partnerAic, rest, successes, hstage, -⟩ := resumed_of_starts hstarts ht
    exact ⟨k, .input taskId, rfl, capture_of_stage hstage rfl, rfl, rfl⟩
  | _ => cases hstarts

theorem active_of_starts (h : s.Guarded) (ht : s.step o a = some t) {taskId : ActiveTaskId}
    (hstarts : s.starts o a = some taskId) : s.session.activeTask = some taskId := by
  obtain ⟨k, c, -, hcapture, hactive, -⟩ := capture_of_starts ht hstarts
  obtain ⟨submit, hsubmit, hcapture⟩ := capture_eq_some.mp hcapture
  rw [(h.captured k submit c hsubmit hcapture).2.1, hactive]

theorem unterminated_step (ht : s.step o a = some t) {i : ℕ} {run' : Run}
    (hrun' : t.Unterminated i run') :
    (∃ run : Run, s.Unterminated i run ∧ run'.taskId = run.taskId) ∨
      s.starts o a = some run'.taskId := by
  obtain ⟨hrun', hlive', hleft⟩ := hrun'
  rcases runs_step ht i run' hrun' with ⟨run, hrun, hid, hlive, -⟩ | ⟨-, hstarted⟩
  · exact .inl ⟨run, ⟨hrun, hlive hlive', fun hi => hleft (terminated_step ht hi)⟩, hid⟩
  · exact .inr hstarted

theorem one_step (h : s.Guarded) (ht : s.step o a = some t) : t.OneTask := by
  intro i j run other hrun hother
  rcases unterminated_step ht hrun with ⟨run₀, hrun₀, hid⟩ | hstarted
  · rcases unterminated_step ht hother with ⟨other₀, hother₀, hid'⟩ | hstarted'
    · rw [hid, hid']
      exact h.one i j run₀ other₀ hrun₀ hother₀
    · rw [hid]
      exact (h.current i run₀ _ hrun₀ (active_of_starts h ht hstarted')).symm
  · have hactive := active_of_starts h ht hstarted
    rcases unterminated_step ht hother with ⟨other₀, hother₀, hid'⟩ | hstarted'
    · rw [hid']
      exact h.current j other₀ _ hother₀ hactive
    · exact Option.some.inj (hstarted'.symm.trans hstarted)

theorem current_run_step (h : s.Guarded) (ht : s.step o a = some t) {i : ℕ} {run' : Run}
    {taskId : ActiveTaskId} (hrun' : t.Unterminated i run')
    (hactive' : t.session.activeTask = some taskId) : run'.taskId = taskId := by
  cases hcloses : s.closes o a with
  | true =>
    obtain ⟨-, -, -, -, hnone⟩ := step_closes hcloses ht
    rw [hnone] at hactive'
    cases hactive'
  | false =>
    cases hreplaces : s.replaces a with
    | true =>
      obtain ⟨-, -, -, hnew⟩ := step_replaces hreplaces ht
      rcases hnew with ⟨-, -, -, -, -, -, -, hnone⟩ | ⟨k, planning, now, intent, replaced, rfl, hstage, -⟩
      · rw [hnone] at hactive'
        cases hactive'
      · -- Whatever ran before was terminated when the submit was handled.
        rcases unterminated_step ht hrun' with ⟨run, hrun, -⟩ | hstarted
        · exact (h.clear k _ (capture_of_stage hstage rfl) rfl i run hrun).elim
        · cases hstarted
    | false =>
      rw [(step_session hcloses hreplaces ht).2] at hactive'
      rcases unterminated_step ht hrun' with ⟨run, hrun, hid⟩ | hstarted
      · rw [hid]
        exact h.current i run taskId hrun hactive'
      · rw [active_of_starts h ht hstarted] at hactive'
        exact Option.some.inj hactive'

theorem handled_of_undisturbed {now : Time} (hC : s.Undisturbed o (.handleIntent k now))
    {intent : IntentDecision} (hstage : s.stage k = some (.audit intent)) {submit : Submit}
    (hsubmit : s.submits[k]? = some submit) : s.Handles submit.request intent.intentType := by
  have hhandled := hC.handled
  unfold Leader.Checked at hhandled
  unfold Leader.stage at hstage
  dsimp only at hhandled
  rw [hsubmit] at hstage
  rw [hsubmit, Option.all_some, Option.some.inj hstage] at hhandled
  exact of_decide_eq_true hhandled

theorem clear_of_handled (h : s.Guarded) {now : Time} (hC : s.Undisturbed o (.handleIntent k now))
    {intent : IntentDecision} (hstage : s.stage k = some (.audit intent))
    (hintent : intent.intentType = .taskNew) (ht : s.audited o k now = some t) {i : ℕ} {run : Run}
    (hrun : s.Unterminated i run) : i ∈ t.terminated := by
  obtain ⟨hrun, hlive, hleft⟩ := hrun
  have hlt : i < s.executor.runs.length := (List.getElem?_eq_some_iff.mp hrun).1
  have hterminated : t.terminated =
      s.terminated ++ s.session.activeTask.toList.flatMap s.liveRuns := by
    unfold Leader.audited at ht
    rw [hstage] at ht
    obtain rfl := Option.some.inj ht
    unfold Leader.handleIntent
    rw [hintent]
    exact terminated_handleTaskNew (s.record k (.handled .taskNew)) k intent
  rw [hterminated]
  cases hactive : s.session.activeTask with
  | some taskId =>
    rw [Option.toList_some, List.flatMap_singleton]
    refine List.mem_append_right _ (List.mem_filter.mpr ⟨List.mem_range.mpr hlt, ?_⟩)
    rw [hrun, Option.any_some]
    exact decide_eq_true ⟨h.current i run taskId ⟨hrun, hlive, hleft⟩ hactive, hlive⟩
  | none =>
    obtain ⟨submit, hsubmit, -⟩ := Option.map_eq_some_iff.mp hstage
    have hhandled := handled_of_undisturbed hC hstage hsubmit
    rw [hintent] at hhandled
    rcases hhandled.2.2 hactive i (List.mem_range.mpr hlt) with hdone | hterminated
    · rw [hrun, Option.all_some] at hdone
      exact absurd (of_decide_eq_true hdone) hlive
    · exact List.mem_append_left _ hterminated

theorem clear_step (h : s.Guarded) (hC : s.Undisturbed o a) (ht : s.step o a = some t) {c : Capture}
    (hcapture' : t.capture k = some c) (hnew : c.isNew = true) {i : ℕ} {run' : Run} :
    ¬ t.Unterminated i run' := by
  intro hrun'
  by_cases hown : a.submitOf = some k
  · have hfollows := (follows_step hown ht).capture c hcapture'
    cases hfollows with
    | kept hreplaces hcapture =>
      rcases unterminated_step ht hrun' with ⟨run, hrun, -⟩ | hstarted
      · exact h.clear k c hcapture hnew i run hrun
      · obtain ⟨k', c', hof, hcapture', -, hold⟩ := capture_of_starts ht hstarted
        obtain rfl := Option.some.inj (hown.symm.trans hof)
        rw [hcapture] at hcapture'
        rw [Option.some.inj hcapture', hold] at hnew
        cases hnew
    | new hstage hintent =>
      rcases unterminated_step ht hrun' with ⟨run, hrun, -⟩ | hstarted
      · exact hrun'.2.2 (clear_of_handled h hC hstage hintent ht hrun)
      · cases hstarted
    | input hstage hintent hactive => cases hnew
    | planned hcapture => cases hnew
  · obtain ⟨submit, hsubmit', hcapture⟩ := capture_eq_some.mp hcapture'
    have hsubmit := submit_other ht hown hsubmit' hcapture
    rcases unterminated_step ht hrun' with ⟨run, hrun, -⟩ | hstarted
    · exact h.clear k c (capture_eq_some.mpr ⟨submit, hsubmit, hcapture⟩) hnew i run hrun
    · have hold := (hC.started (by rw [hstarted]; rfl)).of_capture hown hsubmit hcapture
      rw [hnew] at hold
      cases hold

theorem exists_of_submitOf (hof : a.submitOf = some k) (ht : s.step o a = some t) :
    ∃ submit : Submit, s.submits[k]? = some submit := by
  cases hstage : s.stage k with
  | some stage =>
    obtain ⟨submit, hsubmit, -⟩ := Option.map_eq_some_iff.mp hstage
    exact ⟨submit, hsubmit⟩
  | none =>
    cases a with
    | analyzed j | handleIntent j | cancelled j | terminated j | planned j | planAudited j | routed j
    | continued j | clarified j =>
      obtain rfl := Option.some.inj hof
      simp [Leader.step, Leader.analyzed, Leader.audited, Leader.cancelled,
        Leader.terminatedPartner, Leader.planned, Leader.planAudited, Leader.routed,
        Leader.continued, Leader.clarified, hstage] at ht
    | _ => cases hof

theorem request_own (hown : a.submitOf = some k) (ht : s.step o a = some t) {submit' : Submit}
    (hsubmit' : t.submits[k]? = some submit') :
    ∃ submit : Submit, s.submits[k]? = some submit ∧ submit.request = submit'.request := by
  have hrequest := (own_step hown ht).request
  rw [hsubmit'] at hrequest
  exact Option.map_eq_some_iff.mp hrequest.symm

theorem captured_own (h : s.Guarded) (hC : s.Undisturbed o a) (ht : s.step o a = some t)
    (hown : a.submitOf = some k) {submit : Submit} (hsubmit : s.submits[k]? = some submit)
    {c : Capture} (hcapture' : t.capture k = some c) : t.session.closed = false ∧
      t.session.activeTask = c.active k ∧ submit.request.names c.subject := by
  have hheld {c : Capture} (hcapture : s.capture k = some c) : s.session.closed = false ∧
      s.session.activeTask = c.active k ∧ submit.request.names c.subject := by
    obtain ⟨submit', hsubmit', hcapture⟩ := capture_eq_some.mp hcapture
    obtain rfl := Option.some.inj (hsubmit.symm.trans hsubmit')
    exact h.captured k submit c hsubmit hcapture
  have hcloses : s.closes o a = false := by
    cases a with
    | cancel now | partnerNotified j => cases hown
    | _ => rfl
  have hfollows := (follows_step hown ht).capture c hcapture'
  cases hfollows with
  | kept hreplaces hcapture =>
    obtain ⟨hclosed, hactive⟩ := step_session hcloses hreplaces ht
    rw [hclosed, hactive]
    exact hheld hcapture
  | @new now intent hstage hintent =>
    have hhandled := handled_of_undisturbed hC hstage hsubmit
    rw [hintent] at hhandled
    have hreplaces : s.replaces (.handleIntent k now) = false := by
      unfold Leader.replaces
      dsimp only
      rw [hstage]
      simp [hintent]
    obtain ⟨hclosed, hactive⟩ := step_session hcloses hreplaces ht
    rw [hclosed, hactive]
    exact ⟨hhandled.1, rfl, hhandled.2.1⟩
  | @input now intent taskId hstage hintent hactive₀ =>
    have hhandled := handled_of_undisturbed hC hstage hsubmit
    rw [hintent] at hhandled
    have hopen := hhandled (by rw [hactive₀]; rfl)
    have hreplaces : s.replaces (.handleIntent k now) = false := by
      unfold Leader.replaces
      dsimp only
      rw [hstage]
      simp [hintent]
    obtain ⟨hclosed, hactive⟩ := step_session hcloses hreplaces ht
    rw [hclosed, hactive, hactive₀]
    exact ⟨hopen.1, rfl, fun n hn => hactive₀.symm.trans (hopen.2 n hn)⟩
  | planned hcapture =>
    obtain ⟨hclosed, hactive, hnames⟩ := hheld hcapture
    obtain ⟨hsame, -, -, hnew⟩ := step_replaces rfl ht
    rcases hnew with ⟨k', now', intent, ha, -⟩ | ⟨k', planning', now', intent, replaced', ha, -, -, -, hk⟩
    · cases ha
    · obtain rfl := Option.some.inj (congrArg LeaderAct.submitOf ha)
      exact ⟨hsame.trans hclosed, hk, hnames⟩

theorem captured_step (h : s.Guarded) (hC : s.Undisturbed o a) (ht : s.step o a = some t)
    {submit' : Submit} {c : Capture} (hsubmit' : t.submits[k]? = some submit')
    (hcapture : submit'.stage.capture = some c) : t.session.closed = false ∧
      t.session.activeTask = c.active k ∧ submit'.request.names c.subject := by
  by_cases hown : a.submitOf = some k
  · obtain ⟨submit, hsubmit, hrequest⟩ := request_own hown ht hsubmit'
    rw [← hrequest]
    exact captured_own h hC ht hown hsubmit (capture_eq_some.mpr ⟨submit', hsubmit', hcapture⟩)
  · have hsubmit := submit_other ht hown hsubmit' hcapture
    have hkept : ¬ (s.closes o a = true ∨ s.replaces a = true) := by
      intro htakes
      have hnone := (hC.taken htakes).of_capture hown hsubmit hcapture
      cases hnone
    obtain ⟨hcloses, hreplaces⟩ := not_or.mp hkept
    obtain ⟨hclosed, hactive⟩ := step_session (Bool.eq_false_iff.mpr hcloses)
      (Bool.eq_false_iff.mpr hreplaces) ht
    rw [hclosed, hactive]
    exact h.captured k submit' c hsubmit hcapture

theorem guarded_of_requests {e : SubmitEvent} (he : e.Guarded s.submits)
    (ht : s.step o a = some t) : e.Guarded t.submits := by
  obtain ⟨submit, hsubmit, hguarded⟩ := he
  cases hof : a.submitOf with
  | none =>
    obtain ⟨added, hadded, -⟩ := submits_added hof ht
    refine ⟨submit, ?_, hguarded⟩
    rw [hadded, List.getElem?_append_left (List.getElem?_eq_some_iff.mp hsubmit).1, hsubmit]
  | some k =>
    have hown := own_step hof ht
    by_cases hk : e.submit = k
    · have hrequest := hown.request
      rw [← hk, hsubmit] at hrequest
      obtain ⟨submit', hsubmit', hsame⟩ := Option.map_eq_some_iff.mp hrequest
      refine ⟨submit', hsubmit', ?_⟩
      rw [hsame]
      exact hguarded
    · exact ⟨submit, (hown.others e.submit hk).trans hsubmit, hguarded⟩

theorem guarded_of_records (h : s.Guarded) (hC : s.Undisturbed o a) {submit : Submit}
    (hsubmit : s.submits[k]? = some submit) {effect : SubmitEffect} (hrecords : Records s k a effect) :
    SubmitEvent.Guarded s.submits { submit := k, effect, closed := s.session.closed
                                    activeTask := s.session.activeTask } := by
  have hheld {c : Capture} (hcapture : s.capture k = some c) : s.session.closed = false ∧
      s.session.activeTask = c.active k ∧ submit.request.names c.subject := by
    obtain ⟨submit', hsubmit', hcapture⟩ := capture_eq_some.mp hcapture
    obtain rfl := Option.some.inj (hsubmit.symm.trans hsubmit')
    exact h.captured k submit c hsubmit hcapture
  refine ⟨submit, hsubmit, ?_⟩
  cases hrecords with
  | handled => trivial
  | terminated hstage hintent hactive =>
    have hhandled := handled_of_undisturbed hC hstage hsubmit
    rw [hintent] at hhandled
    exact ⟨fun n hn => hactive.symm.trans (hhandled.2.1 n hn), hhandled.2.1⟩
  | installed hcapture =>
    obtain ⟨hclosed, hactive, hnames⟩ := hheld hcapture
    exact ⟨hclosed, hnames, fun n hn => hactive.trans (hnames n hn)⟩
  | submitted hcapture =>
    obtain ⟨hclosed, hactive, hnames⟩ := hheld hcapture
    exact ⟨hclosed, hnames, fun _ => hactive⟩
  | continued hcapture =>
    obtain ⟨hclosed, hactive, hnames⟩ := hheld hcapture
    exact ⟨hclosed, hnames, fun n hn => hactive.trans (hnames n hn)⟩

theorem events_step (h : s.Guarded) (hC : s.Undisturbed o a) (ht : s.step o a = some t)
    {e : SubmitEvent} (he : e ∈ t.events) : e.Guarded t.submits := by
  cases hof : a.submitOf with
  | none =>
    rw [events_other hof ht] at he
    exact guarded_of_requests (h.events e he) ht
  | some k =>
    rcases (follows_step hof ht).events e he with he | ⟨hsubmit, hclosed, hactive, hrecords⟩
    · exact guarded_of_requests (h.events e he) ht
    · obtain ⟨submit, hexists⟩ := exists_of_submitOf hof ht
      have hguarded := guarded_of_records h hC hexists hrecords
      rw [← hsubmit, ← hclosed, ← hactive] at hguarded
      exact guarded_of_requests hguarded ht

theorem guarded_step (h : s.Guarded) (hC : s.Undisturbed o a) (ht : s.step o a = some t) :
    t.Guarded where
  captured := fun _ _ _ hsubmit hcapture => captured_step h hC ht hsubmit hcapture
  events := fun _ he => events_step h hC ht he
  clear := fun _ _ hcapture hnew _ _ => clear_step h hC ht hcapture hnew
  current := fun _ _ _ hrun hactive => current_run_step h ht hrun hactive
  one := one_step h ht

end Invariant

section Runs

variable {o : Orchestrator} {mode : ExecutionMode} {schedule : List LeaderAct} {s : Leader}

theorem submits_guarded (hrun : (leader o).exec (.initial mode) schedule = some s)
    (hundisturbed : (leader o).Meets (Leader.Undisturbed o) (.initial mode) schedule) :
    (∀ e ∈ s.events, e.Guarded s.submits) ∧ s.OneTask := by
  have h : s.Guarded := (leader o).exec_invariant
    (fun _ _ _ h hC ht => guarded_step h hC ht) (guarded_initial mode) hundisturbed hrun
  exact ⟨h.events, h.one⟩

namespace Sample

def askedInstead (k : ℕ) (now : Time) : List LeaderAct :=
  [.submit { query := "lunch", mode := none, clientRequestId := none, activeTaskId := some 0 },
    .analyzed k (some (intent .taskNew)), .handleIntent k now]

def stopped : List LeaderAct := [.run 0 (.raised "") 5, .callback 0]

def installed (k : ℕ) (now : Time) : List LeaderAct :=
  [.cancelled k, .terminated k, .planned k (some planning) now, .planAudited k]

end Sample

theorem named_task_replaced :
    ∃ s, (leader Sample.orchestrator).exec (.initial .directRpc)
      (Sample.running ++ Sample.askedInstead 1 4 ++ Sample.stopped ++ Sample.installed 1 6) = some s ∧
      ((∀ e ∈ s.events, e.Guarded s.submits) ∧ s.OneTask) ∧
      s.events.map SubmitEvent.effect = [.handled .taskNew, .installed none, .submitted none,
        .handled .taskNew, .terminated 0, .installed (some 0), .submitted (some 0)] := by
  have hruns : ((leader Sample.orchestrator).exec (.initial .directRpc) (Sample.running ++
      Sample.askedInstead 1 4 ++ Sample.stopped ++ Sample.installed 1 6)).any (fun s =>
        s.events.map SubmitEvent.effect = [.handled .taskNew, .installed none, .submitted none,
          .handled .taskNew, .terminated 0, .installed (some 0), .submitted (some 0)]) = true := by
    decide +kernel
  obtain ⟨s, hs, heffects⟩ := (Option.any_eq_true _ _).mp hruns
  refine ⟨s, hs, submits_guarded hs ?_, of_decide_eq_true heffects⟩
  exact (leader Sample.orchestrator).meets_of_check (fun _ _ h => of_decide_eq_true h)
    (show (leader Sample.orchestrator).check
      (fun s a => decide (s.Undisturbed Sample.orchestrator a)) (.initial .directRpc)
      (Sample.running ++ Sample.askedInstead 1 4 ++ Sample.stopped ++ Sample.installed 1 6) = true by
        decide +kernel)

theorem submits_not_guarded :
    (∃ s, (leader Sample.orchestrator).exec (.initial .directRpc) (Sample.asked 0 .taskNew 1 ++
      [.cancel 2, .planned 0 (some Sample.planning) 3]) = some s ∧
        ∃ e ∈ s.events, ¬ e.Guarded s.submits) ∧
    (∃ s, (leader Sample.orchestrator).exec (.initial .directRpc) (Sample.running ++
      Sample.askedInstead 1 4 ++ Sample.askedInstead 2 4 ++ Sample.stopped ++ Sample.installed 1 6 ++
        Sample.installed 2 7) = some s ∧ ∃ e ∈ s.events, ¬ e.Guarded s.submits) ∧
    ∃ s, (leader Sample.orchestrator).exec (.initial .directRpc) (Sample.running ++
      Sample.asked 1 .chitChat 4 ++ Sample.asked 2 .taskNew 5 ++
        [.planned 2 (some Sample.planning) 6, .planAudited 2]) = some s ∧ ¬ s.OneTask := by
  refine ⟨?_, ?_, ?_⟩
  · have hclosed : ((leader Sample.orchestrator).exec (.initial .directRpc) (Sample.asked 0 .taskNew 1 ++
        [.cancel 2, .planned 0 (some Sample.planning) 3])).any (fun s => s.events.any fun e =>
          e.effect = .installed none ∧ e.closed = true) = true := by
      decide +kernel
    obtain ⟨s, hs, hevents⟩ := (Option.any_eq_true _ _).mp hclosed
    obtain ⟨e, he, hevent⟩ := List.any_eq_true.mp hevents
    obtain ⟨heffect, hclosed⟩ := of_decide_eq_true hevent
    refine ⟨s, hs, e, he, ?_⟩
    rintro ⟨submit, -, hguarded⟩
    rw [heffect] at hguarded
    rw [hguarded.1] at hclosed
    cases hclosed
  · have hother : ((leader Sample.orchestrator).exec (.initial .directRpc) (Sample.running ++
        Sample.askedInstead 1 4 ++ Sample.askedInstead 2 4 ++ Sample.stopped ++
          Sample.installed 1 6 ++ Sample.installed 2 7)).any (fun s => s.events.any fun e =>
            e.effect = .installed (some 0) ∧ e.activeTask = some 1 ∧
              (s.submits[e.submit]?).any fun submit => submit.request.activeTaskId = some 0) =
        true := by
      decide +kernel
    obtain ⟨s, hs, hevents⟩ := (Option.any_eq_true _ _).mp hother
    obtain ⟨e, he, hevent⟩ := List.any_eq_true.mp hevents
    obtain ⟨heffect, hactive, hnamed⟩ := of_decide_eq_true hevent
    refine ⟨s, hs, e, he, ?_⟩
    rintro ⟨submit, hsubmit, hguarded⟩
    rw [hsubmit, Option.any_some] at hnamed
    rw [heffect] at hguarded
    have hzero := hguarded.2.2 0 (of_decide_eq_true hnamed)
    rw [hactive] at hzero
    cases hzero
  · have htwo : ((leader Sample.orchestrator).exec (.initial .directRpc) (Sample.running ++
        Sample.asked 1 .chitChat 4 ++ Sample.asked 2 .taskNew 5 ++
          [.planned 2 (some Sample.planning) 6, .planAudited 2])).any (fun s =>
            s.terminated = [] ∧ s.executor.runs.map Run.taskId = [0, 2] ∧
              s.executor.runs.all fun run => run.stage ≠ .done) = true := by
      decide +kernel
    obtain ⟨s, hs, hends⟩ := (Option.any_eq_true _ _).mp htwo
    obtain ⟨hterminated, hids, hlive⟩ := of_decide_eq_true hends
    refine ⟨s, hs, fun hone => ?_⟩
    obtain ⟨first, rest, hruns, hfirst, hrest⟩ := List.map_eq_cons_iff.mp hids
    obtain ⟨second, rest', rfl, hsecond, hnil⟩ := List.map_eq_cons_iff.mp hrest
    have hunterminated (i : ℕ) (run : Run) (hrun : s.executor.runs[i]? = some run) :
        s.Unterminated i run := by
      refine ⟨hrun, ?_, by simp [hterminated]⟩
      exact of_decide_eq_true (List.all_eq_true.mp hlive run (List.mem_of_getElem? hrun))
    have hsame := hone 0 1 first second (hunterminated 0 first (by simp [hruns]))
      (hunterminated 1 second (by simp [hruns]))
    rw [hfirst, hsecond] at hsame
    cases hsame

end Runs

end Acps.Assistant
