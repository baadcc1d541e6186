import Acps.Assistant.Session
import Acps.Lib.Transition

/-!
How the leader executes a task over notifications: it sets a configuration, starts the task over RPC
and starts the notification, each with an answer of the partner, and waits for a callback with a
terminal state.
-/

namespace Acps.Assistant

open Transition
open Partner (TaskState)

structure TaskResult where
  state : TaskState
  dataItems : List String
  products : List (List String)
  deriving DecidableEq

def TaskResult.terminal (r : TaskResult) : Bool := r.state ∈ terminalStates

inductive TaskFuture where
  | pending
  | resolved (result : TaskResult)
  | cancelled
  deriving DecidableEq

inductive NotificationStage where
  | settingNotification
  | startingTask
  | startingNotification
  | waiting
  | returned (result : TaskResult)
  | timedOut
  deriving DecidableEq

/-- One task that is executed over notifications, at the leader and at its partner. `listeners` are the
spawned ones that have not run, `posting` those that have found the subscription, and `callbacks` the
requests on their way to the leader. -/
structure NotifiedTask where
  stage : NotificationStage
  future : TaskFuture
  initialResult : Option TaskResult
  status : Option TaskResult
  subscribed : Bool
  listeners : ℕ
  posting : ℕ
  callbacks : List TaskResult
  deriving DecidableEq

inductive NotificationAct where
  | notificationSet
  | onStart (result : TaskResult)
  | updateStatus (result : TaskResult)
  | startAnswered
  | startReturned
  | handleStart
  | notificationStarted
  | listener
  | postOnce
  | onCallback (k : ℕ)
  | wake
  | timeout
  deriving DecidableEq

namespace NotifiedTask

def initial : NotifiedTask :=
  { stage := .settingNotification, future := .pending, initialResult := none, status := none
    subscribed := false, listeners := 0, posting := 0, callbacks := [] }

variable (s : NotifiedTask)

def dispatchCallback (result : TaskResult) : NotifiedTask :=
  if s.future = .pending ∧ result.terminal then { s with future := .resolved result } else s

def onStart (result : TaskResult) : Option NotifiedTask :=
  if s.stage = .startingTask ∧ s.status = none then some { s with status := some result } else none

def updateStatus (result : TaskResult) : Option NotifiedTask :=
  if s.status.any fun status => !status.terminal then
    some { s with status := some result, listeners := s.listeners + 1 }
  else none

def startAnswered : Option NotifiedTask :=
  if s.stage = .startingTask ∧ s.status.isSome ∧ s.initialResult = none then
    some { s with initialResult := s.status }
  else none

def startReturned : Option NotifiedTask :=
  if s.stage = .startingTask ∧ s.initialResult.isSome then
    some { s with stage := .startingNotification }
  else none

def handleStart : Option NotifiedTask :=
  if s.stage = .startingNotification ∧ s.subscribed = false then some { s with subscribed := true }
  else none

def notificationStarted : Option NotifiedTask :=
  if s.stage = .startingNotification ∧ s.subscribed = true then
    let s := match s.initialResult with
      | some result => if result.terminal then s.dispatchCallback result else s
      | none => s
    some { s with stage := .waiting }
  else none

def listener : Option NotifiedTask :=
  if 0 < s.listeners then
    some { s with
      listeners := s.listeners - 1
      posting := if s.subscribed then s.posting + 1 else s.posting }
  else none

def postOnce : Option NotifiedTask :=
  if 0 < s.posting then
    some { s with posting := s.posting - 1, callbacks := s.callbacks ++ s.status.toList }
  else none

def onCallback (k : ℕ) : Option NotifiedTask :=
  (s.callbacks[k]?).map fun result =>
    { s with callbacks := s.callbacks.eraseIdx k }.dispatchCallback result

def wake : Option NotifiedTask :=
  match s.stage, s.future with
  | .waiting, .resolved result => some { s with stage := .returned result }
  | _, _ => none

def timeout : Option NotifiedTask :=
  if s.stage = .waiting ∧ s.future = .pending then
    some { s with stage := .timedOut, future := .cancelled }
  else none

def step : NotificationAct → Option NotifiedTask
  | .notificationSet =>
    if s.stage = .settingNotification then some { s with stage := .startingTask } else none
  | .onStart result => s.onStart result
  | .updateStatus result => s.updateStatus result
  | .startAnswered => s.startAnswered
  | .startReturned => s.startReturned
  | .handleStart => s.handleStart
  | .notificationStarted => s.notificationStarted
  | .listener => s.listener
  | .postOnce => s.postOnce
  | .onCallback k => s.onCallback k
  | .wake => s.wake
  | .timeout => s.timeout

end NotifiedTask

def notifiedTask : System NotifiedTask NotificationAct := ⟨fun s => s.step⟩

namespace NotifiedTask

def Over (s : NotifiedTask) (result : TaskResult) : Prop :=
  s.status = some result ∧ result.terminal = true

def Delivered (s : NotifiedTask) : Prop := s.listeners = 0 ∧ s.posting = 0 ∧ s.callbacks = []

def InTime (s : NotifiedTask) : NotificationAct → Prop
  | .handleStart => s.status.any TaskResult.terminal = true →
    s.initialResult.any TaskResult.terminal = true ∨ 0 < s.listeners
  | _ => True

instance (s : NotifiedTask) (a : NotificationAct) : Decidable (s.InTime a) := by
  cases a with
  | handleStart =>
    exact inferInstanceAs (Decidable (s.status.any TaskResult.terminal = true →
      s.initialResult.any TaskResult.terminal = true ∨ 0 < s.listeners))
  | notificationSet | onStart | updateStatus | startAnswered | startReturned | notificationStarted
  | listener | postOnce | onCallback | wake | timeout => exact instDecidableTrue

structure Inv (s : NotifiedTask) : Prop where
  callbacks : ∀ r ∈ s.callbacks, r.terminal = true → s.status = some r
  resolved : ∀ r, s.future = .resolved r → s.Over r
  answered : ∀ r, s.initialResult = some r → s.status.isSome = true ∧
    (r.terminal = true → s.status = some r)
  returned : ∀ r, s.stage = .returned r → s.Over r
  early : s.subscribed = false → s.posting = 0 ∧ s.callbacks = [] ∧ s.future = .pending ∧
    (s.stage = .settingNotification ∨ s.stage = .startingTask ∨ s.stage = .startingNotification)
  starting : s.stage = .settingNotification ∨ s.stage = .startingTask → s.subscribed = false
  backfilled : s.stage = .waiting → s.initialResult.any TaskResult.terminal = true →
    s.future ≠ .pending
  cancelled : s.future = .cancelled → s.stage = .timedOut

section Invariant

variable {s t : NotifiedTask} {a : NotificationAct}

theorem inv_initial : initial.Inv where
  callbacks := by
    intro r hr
    cases hr
  resolved := by
    intro r hr
    cases hr
  answered := by
    intro r hr
    cases hr
  returned := by
    intro r hr
    cases hr
  early := fun _ => ⟨rfl, rfl, rfl, .inl rfl⟩
  starting := fun _ => rfl
  backfilled := by
    intro h
    cases h
  cancelled := by
    intro h
    cases h

theorem dispatchCallback_cases (s : NotifiedTask) (r : TaskResult) :
    s.dispatchCallback r = s ∨
      s.future = .pending ∧ r.terminal = true ∧
        s.dispatchCallback r = { s with future := .resolved r } := by
  unfold dispatchCallback
  split
  · next h => exact .inr ⟨h.1, h.2, rfl⟩
  · exact .inl rfl

theorem inv_onStart (h : s.Inv) {r : TaskResult} (ht : s.onStart r = some t) : t.Inv := by
  obtain ⟨⟨hstage, hnone⟩, ht⟩ := Option.ite_none_right_eq_some.mp ht
  obtain rfl := Option.some.inj ht
  have hearly := h.early (h.starting (.inr hstage))
  refine ⟨?_, ?_, ?_, ?_, h.early, h.starting, h.backfilled, h.cancelled⟩
  · intro r' hr'
    have hr' : r' ∈ s.callbacks := hr'
    rw [hearly.2.1] at hr'
    cases hr'
  · intro r' hr'
    have hr' : s.future = .resolved r' := hr'
    rw [hearly.2.2.1] at hr'
    cases hr'
  · intro r' hr'
    have hsome := (h.answered r' hr').1
    rw [hnone] at hsome
    cases hsome
  · intro r' hr'
    have hr' : s.stage = .returned r' := hr'
    rw [hstage] at hr'
    cases hr'

theorem inv_updateStatus (h : s.Inv) {r : TaskResult} (ht : s.updateStatus r = some t) : t.Inv := by
  obtain ⟨hgoes, ht⟩ := Option.ite_none_right_eq_some.mp ht
  obtain rfl := Option.some.inj ht
  obtain ⟨status, hstatus, hgoes⟩ := (Option.any_eq_true _ _).mp hgoes
  have hnot {r' : TaskResult} (hr' : s.status = some r') (hterminal : r'.terminal = true) : False := by
    obtain rfl := Option.some.inj (hstatus.symm.trans hr')
    rw [hterminal] at hgoes
    cases hgoes
  refine ⟨?_, ?_, ?_, ?_, h.early, h.starting, h.backfilled, h.cancelled⟩
  · intro r' hr' hterminal
    exact (hnot (h.callbacks r' hr' hterminal) hterminal).elim
  · intro r' hr'
    obtain ⟨hover, hterminal⟩ := h.resolved r' hr'
    exact (hnot hover hterminal).elim
  · intro r' hr'
    exact ⟨rfl, fun hterminal => (hnot ((h.answered r' hr').2 hterminal) hterminal).elim⟩
  · intro r' hr'
    obtain ⟨hover, hterminal⟩ := h.returned r' hr'
    exact (hnot hover hterminal).elim

theorem inv_notificationStarted (h : s.Inv) (ht : s.notificationStarted = some t) : t.Inv := by
  obtain ⟨⟨hstage, hsubscribed⟩, ht⟩ := Option.ite_none_right_eq_some.mp ht
  obtain rfl := Option.some.inj ht
  have hcancelled : s.future ≠ .cancelled := by
    intro hcancelled
    have htimedOut := h.cancelled hcancelled
    rw [hstage] at htimedOut
    cases htimedOut
  cases hinitial : s.initialResult with
  | none =>
    dsimp only
    refine ⟨h.callbacks, h.resolved, ?_, ?_, ?_, ?_, ?_, ?_⟩
    · intro r hr
      have hr : s.initialResult = some r := hr
      rw [hinitial] at hr
      cases hr
    · intro r hr
      cases hr
    · intro hnot
      have hnot : s.subscribed = false := hnot
      rw [hsubscribed] at hnot
      cases hnot
    · rintro (hr | hr) <;> cases hr
    · intro _ hr
      have hr : s.initialResult.any TaskResult.terminal = true := hr
      rw [hinitial] at hr
      cases hr
    · intro hr
      exact (hcancelled hr).elim
  | some r =>
    obtain ⟨-, hlast⟩ := h.answered r hinitial
    dsimp only
    by_cases hterminal : r.terminal = true
    · rw [if_pos hterminal]
      have hstatus := hlast hterminal
      have hsame : (s.dispatchCallback r).status = s.status ∧
          (s.dispatchCallback r).callbacks = s.callbacks ∧
          (s.dispatchCallback r).initialResult = s.initialResult ∧
          (s.dispatchCallback r).subscribed = s.subscribed := by
        rcases dispatchCallback_cases s r with hsame | ⟨-, -, hsame⟩ <;> rw [hsame] <;>
          exact ⟨rfl, rfl, rfl, rfl⟩
      have hdone : ∃ r', (s.dispatchCallback r).future = .resolved r' ∧ s.Over r' := by
        unfold dispatchCallback
        split
        · exact ⟨r, rfl, hstatus, hterminal⟩
        · next hdone =>
          cases hfuture : s.future with
          | pending => exact (hdone ⟨hfuture, hterminal⟩).elim
          | resolved r' => exact ⟨r', rfl, h.resolved r' hfuture⟩
          | cancelled => exact (hcancelled hfuture).elim
      obtain ⟨r', hfuture, hover⟩ := hdone
      refine ⟨?_, ?_, ?_, ?_, ?_, ?_, ?_, ?_⟩
      · intro r'' hr''
        dsimp only at hr'' ⊢
        rw [hsame.2.1] at hr''
        rw [hsame.1]
        exact h.callbacks r'' hr''
      · intro r'' hr''
        have hr'' : (s.dispatchCallback r).future = .resolved r'' := hr''
        rw [hfuture] at hr''
        obtain rfl := TaskFuture.resolved.inj hr''
        refine ⟨?_, hover.2⟩
        dsimp only
        rw [hsame.1]
        exact hover.1
      · intro r'' hr''
        dsimp only at hr'' ⊢
        rw [hsame.2.2.1] at hr''
        rw [hsame.1]
        exact h.answered r'' hr''
      · intro r'' hr''
        cases hr''
      · intro hnot
        dsimp only at hnot
        rw [hsame.2.2.2, hsubscribed] at hnot
        cases hnot
      · rintro (hr | hr) <;> cases hr
      · intro _ _
        dsimp only
        rw [hfuture]
        intro hpending
        cases hpending
      · intro hr
        dsimp only at hr
        rw [hfuture] at hr
        cases hr
    · rw [if_neg hterminal]
      refine ⟨h.callbacks, h.resolved, h.answered, ?_, ?_, ?_, ?_, ?_⟩
      · intro r' hr'
        cases hr'
      · intro hnot
        have hnot : s.subscribed = false := hnot
        rw [hsubscribed] at hnot
        cases hnot
      · rintro (hr | hr) <;> cases hr
      · intro _ hr
        have hr : s.initialResult.any TaskResult.terminal = true := hr
        rw [hinitial] at hr
        exact (hterminal hr).elim
      · intro hr
        exact (hcancelled hr).elim

theorem inv_onCallback (h : s.Inv) {k : ℕ} (ht : s.onCallback k = some t) : t.Inv := by
  obtain ⟨r, hr, rfl⟩ := Option.map_eq_some_iff.mp ht
  have hmem := List.mem_of_getElem? hr
  have hsubscribed : s.subscribed = true := by
    by_contra hnot
    have hempty := (h.early (by simpa using hnot)).2.1
    rw [hempty] at hmem
    cases hmem
  have hleft : ∀ r' ∈ s.callbacks.eraseIdx k, r' ∈ s.callbacks := fun _ hr' =>
    List.mem_of_mem_eraseIdx hr'
  rcases dispatchCallback_cases { s with callbacks := s.callbacks.eraseIdx k } r with
    hsame | ⟨-, hterminal, hsame⟩
  · rw [hsame]
    refine ⟨fun r' hr' => h.callbacks r' (hleft r' hr'), h.resolved, h.answered, h.returned, ?_,
      h.starting, h.backfilled, h.cancelled⟩
    intro hnot
    have hnot : s.subscribed = false := hnot
    rw [hsubscribed] at hnot
    cases hnot
  · rw [hsame]
    refine ⟨fun r' hr' => h.callbacks r' (hleft r' hr'), ?_, h.answered, h.returned, ?_,
      h.starting, ?_, ?_⟩
    · intro r' hr'
      obtain rfl := TaskFuture.resolved.inj hr'
      exact ⟨h.callbacks r hmem hterminal, hterminal⟩
    · intro hnot
      have hnot : s.subscribed = false := hnot
      rw [hsubscribed] at hnot
      cases hnot
    · intro _ _ hr'
      cases hr'
    · intro hr'
      cases hr'

theorem inv_step (h : s.Inv) (ht : s.step a = some t) : t.Inv := by
  cases a with
  | notificationSet =>
    obtain ⟨hstage, ht⟩ := Option.ite_none_right_eq_some.mp ht
    obtain rfl := Option.some.inj ht
    have hnot := h.starting (.inl hstage)
    obtain ⟨hposting, hcallbacks, hfuture, -⟩ := h.early hnot
    refine ⟨h.callbacks, h.resolved, h.answered, ?_, ?_, fun _ => hnot, ?_, ?_⟩
    · intro r hr
      cases hr
    · exact fun _ => ⟨hposting, hcallbacks, hfuture, .inr (.inl rfl)⟩
    · intro hr
      cases hr
    · intro hr
      have hr : s.future = .cancelled := hr
      rw [hfuture] at hr
      cases hr
  | onStart r => exact inv_onStart h ht
  | updateStatus r => exact inv_updateStatus h ht
  | startAnswered =>
    obtain ⟨⟨hstage, hstarted, -⟩, ht⟩ := Option.ite_none_right_eq_some.mp ht
    obtain rfl := Option.some.inj ht
    refine ⟨h.callbacks, h.resolved, fun r hr => ⟨hstarted, fun _ => hr⟩, h.returned, h.early,
      h.starting, ?_, h.cancelled⟩
    intro hr
    have hr : s.stage = .waiting := hr
    rw [hstage] at hr
    cases hr
  | startReturned =>
    obtain ⟨⟨hstage, -⟩, ht⟩ := Option.ite_none_right_eq_some.mp ht
    obtain rfl := Option.some.inj ht
    have hnot := h.starting (.inr hstage)
    obtain ⟨hposting, hcallbacks, hfuture, -⟩ := h.early hnot
    refine ⟨h.callbacks, h.resolved, h.answered, ?_, ?_, fun _ => hnot, ?_, ?_⟩
    · intro r hr
      cases hr
    · exact fun _ => ⟨hposting, hcallbacks, hfuture, .inr (.inr rfl)⟩
    · intro hr
      cases hr
    · intro hr
      have hr : s.future = .cancelled := hr
      rw [hfuture] at hr
      cases hr
  | handleStart =>
    obtain ⟨⟨hstage, -⟩, ht⟩ := Option.ite_none_right_eq_some.mp ht
    obtain rfl := Option.some.inj ht
    refine ⟨h.callbacks, h.resolved, h.answered, h.returned, ?_, ?_, h.backfilled, h.cancelled⟩
    · intro hnot
      cases hnot
    · intro hr
      have hr : s.stage = .settingNotification ∨ s.stage = .startingTask := hr
      rw [hstage] at hr
      rcases hr with hr | hr <;> cases hr
  | notificationStarted => exact inv_notificationStarted h ht
  | listener =>
    obtain ⟨-, ht⟩ := Option.ite_none_right_eq_some.mp ht
    obtain rfl := Option.some.inj ht
    refine ⟨h.callbacks, h.resolved, h.answered, h.returned, ?_, h.starting, h.backfilled,
      h.cancelled⟩
    intro hnot
    have hnot : s.subscribed = false := hnot
    obtain ⟨hposting, hrest⟩ := h.early hnot
    refine ⟨?_, hrest⟩
    dsimp only
    rw [hnot]
    exact hposting
  | postOnce =>
    obtain ⟨hposting, ht⟩ := Option.ite_none_right_eq_some.mp ht
    obtain rfl := Option.some.inj ht
    refine ⟨?_, h.resolved, h.answered, h.returned, ?_, h.starting, h.backfilled, h.cancelled⟩
    · intro r hr hterminal
      rcases List.mem_append.mp hr with hr | hr
      · exact h.callbacks r hr hterminal
      · exact Option.mem_toList.mp hr
    · intro hnot
      rw [(h.early hnot).1] at hposting
      exact absurd hposting (Nat.lt_irrefl 0)
  | onCallback k => exact inv_onCallback h ht
  | wake =>
    change s.wake = some t at ht
    unfold wake at ht
    split at ht
    · next hstage hfuture =>
      obtain rfl := Option.some.inj ht
      have hsubscribed : s.subscribed = true := by
        by_contra hnot
        have hpending := (h.early (by simpa using hnot)).2.2.1
        rw [hfuture] at hpending
        cases hpending
      refine ⟨h.callbacks, h.resolved, h.answered, ?_, ?_, ?_, ?_, ?_⟩
      · intro r hr
        obtain rfl := NotificationStage.returned.inj hr
        exact h.resolved _ hfuture
      · intro hnot
        have hnot : s.subscribed = false := hnot
        rw [hsubscribed] at hnot
        cases hnot
      · rintro (hr | hr) <;> cases hr
      · intro hr
        cases hr
      · intro hr
        have hr : s.future = .cancelled := hr
        rw [hfuture] at hr
        cases hr
    · cases ht
  | timeout =>
    obtain ⟨⟨hstage, -⟩, ht⟩ := Option.ite_none_right_eq_some.mp ht
    obtain rfl := Option.some.inj ht
    have hsubscribed : s.subscribed = true := by
      by_contra hnot
      have hwhere := (h.early (by simpa using hnot)).2.2.2
      rw [hstage] at hwhere
      rcases hwhere with hr | hr | hr <;> cases hr
    refine ⟨h.callbacks, ?_, h.answered, ?_, ?_, ?_, ?_, fun _ => rfl⟩
    · intro r hr
      cases hr
    · intro r hr
      cases hr
    · intro hnot
      have hnot : s.subscribed = false := hnot
      rw [hsubscribed] at hnot
      cases hnot
    · rintro (hr | hr) <;> cases hr
    · intro hr
      cases hr

end Invariant

def Announced (s : NotifiedTask) : Prop :=
  s.initialResult.any TaskResult.terminal = true ∨ 0 < s.listeners ∨ 0 < s.posting ∨
    (∃ r ∈ s.callbacks, r.terminal = true) ∨ s.future ≠ .pending

structure Lost (s : NotifiedTask) : Prop where
  subscribed : s.subscribed = true
  started : s.stage ≠ .startingTask
  ended : s.status.any TaskResult.terminal = true
  initialResult : s.initialResult.any TaskResult.terminal = false
  delivered : s.Delivered
  future : s.future = .pending ∨ s.future = .cancelled

section Announcement

variable {s t : NotifiedTask} {a : NotificationAct}

theorem announced_dispatchCallback {r : TaskResult} (hterminal : r.terminal = true) :
    (s.dispatchCallback r).future ≠ .pending := by
  unfold dispatchCallback
  split
  · intro hpending
    cases hpending
  · next hdone =>
    intro hpending
    exact hdone ⟨hpending, hterminal⟩

theorem announced_step (h : s.Inv) (hC : s.InTime a) (ht : s.step a = some t)
    (hI : s.subscribed = true → s.status.any TaskResult.terminal = true → s.Announced)
    (hsubscribed : t.subscribed = true) (hover : t.status.any TaskResult.terminal = true) :
    t.Announced := by
  cases a with
  | notificationSet =>
    obtain ⟨hstage, ht⟩ := Option.ite_none_right_eq_some.mp ht
    obtain rfl := Option.some.inj ht
    exact hI hsubscribed hover
  | onStart r =>
    obtain ⟨⟨hstage, -⟩, ht⟩ := Option.ite_none_right_eq_some.mp ht
    obtain rfl := Option.some.inj ht
    have hsubscribed : s.subscribed = true := hsubscribed
    rw [h.starting (.inr hstage)] at hsubscribed
    cases hsubscribed
  | updateStatus r =>
    obtain ⟨-, ht⟩ := Option.ite_none_right_eq_some.mp ht
    obtain rfl := Option.some.inj ht
    exact .inr (.inl (Nat.succ_pos _))
  | startAnswered =>
    obtain ⟨⟨hstage, -⟩, ht⟩ := Option.ite_none_right_eq_some.mp ht
    obtain rfl := Option.some.inj ht
    have hsubscribed : s.subscribed = true := hsubscribed
    rw [h.starting (.inr hstage)] at hsubscribed
    cases hsubscribed
  | startReturned =>
    obtain ⟨-, ht⟩ := Option.ite_none_right_eq_some.mp ht
    obtain rfl := Option.some.inj ht
    exact hI hsubscribed hover
  | handleStart =>
    obtain ⟨-, ht⟩ := Option.ite_none_right_eq_some.mp ht
    obtain rfl := Option.some.inj ht
    rcases hC hover with hinitial | hlistener
    · exact .inl hinitial
    · exact .inr (.inl hlistener)
  | notificationStarted =>
    obtain ⟨⟨-, hsub⟩, ht⟩ := Option.ite_none_right_eq_some.mp ht
    obtain rfl := Option.some.inj ht
    cases hinitial : s.initialResult with
    | none =>
      rw [hinitial] at hover
      exact hI hsub hover
    | some r =>
      rw [hinitial] at hover
      dsimp only at hover ⊢
      by_cases hterminal : r.terminal = true
      · rw [if_pos hterminal]
        exact .inr (.inr (.inr (.inr (announced_dispatchCallback hterminal))))
      · rw [if_neg hterminal] at hover ⊢
        exact hI hsub hover
  | listener =>
    obtain ⟨hpos, ht⟩ := Option.ite_none_right_eq_some.mp ht
    obtain rfl := Option.some.inj ht
    have hsub : s.subscribed = true := hsubscribed
    refine .inr (.inr (.inl ?_))
    dsimp only
    rw [if_pos hsub]
    exact Nat.succ_pos _
  | postOnce =>
    obtain ⟨hpos, ht⟩ := Option.ite_none_right_eq_some.mp ht
    obtain rfl := Option.some.inj ht
    obtain ⟨r, hr, hterminal⟩ := (Option.any_eq_true _ _).mp hover
    have hr : s.status = some r := hr
    refine .inr (.inr (.inr (.inl ⟨r, ?_, hterminal⟩)))
    exact List.mem_append_right _ (Option.mem_toList.mpr hr)
  | onCallback k =>
    obtain ⟨r, hr, rfl⟩ := Option.map_eq_some_iff.mp ht
    by_cases hterminal : r.terminal = true
    · exact .inr (.inr (.inr (.inr (announced_dispatchCallback hterminal))))
    · have hsame : dispatchCallback { s with callbacks := s.callbacks.eraseIdx k } r =
          { s with callbacks := s.callbacks.eraseIdx k } :=
        if_neg fun hboth => hterminal hboth.2
      rw [hsame] at hsubscribed hover ⊢
      rcases hI hsubscribed hover with hinitial | hlistener | hposting | ⟨r', hr', hlast⟩ | hdone
      · exact .inl hinitial
      · exact .inr (.inl hlistener)
      · exact .inr (.inr (.inl hposting))
      · refine .inr (.inr (.inr (.inl ⟨r', ?_, hlast⟩)))
        obtain ⟨j, hj⟩ := List.mem_iff_getElem?.mp hr'
        have hne : j ≠ k := by
          rintro rfl
          obtain rfl := Option.some.inj (hr.symm.trans hj)
          exact hterminal hlast
        exact List.mem_eraseIdx_iff_getElem?.mpr ⟨j, hne, hj⟩
      · exact .inr (.inr (.inr (.inr hdone)))
  | wake =>
    change s.wake = some t at ht
    unfold wake at ht
    split at ht
    · obtain rfl := Option.some.inj ht
      exact hI hsubscribed hover
    · cases ht
  | timeout =>
    obtain ⟨-, ht⟩ := Option.ite_none_right_eq_some.mp ht
    obtain rfl := Option.some.inj ht
    exact .inr (.inr (.inr (.inr fun hpending => by cases hpending)))

theorem lost_of_late (h : s.Inv) (hlate : ¬ s.InTime a) (ht : s.step a = some t) : t.Lost := by
  cases a with
  | handleStart =>
    obtain ⟨⟨hstage, hnot⟩, ht⟩ := Option.ite_none_right_eq_some.mp ht
    obtain rfl := Option.some.inj ht
    obtain ⟨hover, hunknown⟩ := Classical.not_imp.mp hlate
    obtain ⟨hinitial, hlistener⟩ := not_or.mp hunknown
    obtain ⟨hposting, hcallbacks, hfuture, -⟩ := h.early hnot
    refine ⟨rfl, ?_, hover, by simpa using hinitial, ⟨?_, hposting, hcallbacks⟩, .inl hfuture⟩
    · intro hr
      have hr : s.stage = .startingTask := hr
      rw [hstage] at hr
      cases hr
    · exact Nat.eq_zero_of_not_pos hlistener
  | _ => exact (hlate trivial).elim

theorem lost_step (h : s.Inv) (hlost : s.Lost) (ht : s.step a = some t) : t.Lost := by
  obtain ⟨hsubscribed, hstarted, hover, hinitial, ⟨hlisteners, hposting, hcallbacks⟩, hfuture⟩ := hlost
  cases a with
  | notificationSet =>
    obtain ⟨hstage, -⟩ := Option.ite_none_right_eq_some.mp ht
    have hnot := h.starting (.inl hstage)
    rw [hsubscribed] at hnot
    cases hnot
  | onStart r | startAnswered | startReturned =>
    obtain ⟨⟨hstage, -⟩, -⟩ := Option.ite_none_right_eq_some.mp ht
    exact (hstarted hstage).elim
  | updateStatus r =>
    obtain ⟨hgoes, -⟩ := Option.ite_none_right_eq_some.mp ht
    obtain ⟨status, hstatus, hgoes⟩ := (Option.any_eq_true _ _).mp hgoes
    rw [hstatus, Option.any_some] at hover
    rw [hover] at hgoes
    cases hgoes
  | handleStart =>
    obtain ⟨⟨-, hnot⟩, -⟩ := Option.ite_none_right_eq_some.mp ht
    rw [hsubscribed] at hnot
    cases hnot
  | notificationStarted =>
    obtain ⟨-, ht⟩ := Option.ite_none_right_eq_some.mp ht
    obtain rfl := Option.some.inj ht
    have hsame : (match s.initialResult with
        | some result => if result.terminal then s.dispatchCallback result else s
        | none => s) = s := by
      cases hr : s.initialResult with
      | none => rfl
      | some r =>
        rw [hr, Option.any_some] at hinitial
        exact if_neg (by simp [hinitial])
    rw [hsame]
    refine ⟨hsubscribed, ?_, hover, hinitial, ⟨hlisteners, hposting, hcallbacks⟩, hfuture⟩
    intro hr
    cases hr
  | listener =>
    obtain ⟨hpos, -⟩ := Option.ite_none_right_eq_some.mp ht
    rw [hlisteners] at hpos
    exact absurd hpos (Nat.lt_irrefl 0)
  | postOnce =>
    obtain ⟨hpos, -⟩ := Option.ite_none_right_eq_some.mp ht
    rw [hposting] at hpos
    exact absurd hpos (Nat.lt_irrefl 0)
  | onCallback k =>
    obtain ⟨r, hr, -⟩ := Option.map_eq_some_iff.mp ht
    rw [hcallbacks] at hr
    cases hr
  | wake =>
    change s.wake = some t at ht
    unfold wake at ht
    split at ht
    · next hresolved =>
      rw [hresolved] at hfuture
      rcases hfuture with hr | hr <;> cases hr
    · cases ht
  | timeout =>
    obtain ⟨-, ht⟩ := Option.ite_none_right_eq_some.mp ht
    obtain rfl := Option.some.inj ht
    refine ⟨hsubscribed, ?_, hover, hinitial, ⟨hlisteners, hposting, hcallbacks⟩, .inr rfl⟩
    intro hr
    cases hr

end Announcement

section Runs

variable {schedule : List NotificationAct} {s t : NotifiedTask}

theorem lost_of_not_meets (h : s.Inv) (hrun : notifiedTask.exec s schedule = some t)
    (hlate : ¬ notifiedTask.Meets InTime s schedule) : t.Lost := by
  induction schedule generalizing s with
  | nil => exact (hlate trivial).elim
  | cons a schedule ih =>
    obtain ⟨u, hu, hrest⟩ := notifiedTask.exec_cons_eq_some.mp hrun
    by_cases hC : s.InTime a
    · apply ih (inv_step h hu) hrest
      intro hmeets
      exact hlate (notifiedTask.meets_cons hC hu hmeets)
    · have hlost : u.Inv ∧ u.Lost := ⟨inv_step h hu, lost_of_late h hC hu⟩
      exact (notifiedTask.exec_induction (I := fun s => s.Inv ∧ s.Lost)
        (fun _ _ _ hI ht => ⟨inv_step hI.1 ht, lost_step hI.1 hI.2 ht⟩) hlost hrest).2

theorem inv_run (hrun : notifiedTask.exec initial schedule = some s) : s.Inv :=
  notifiedTask.exec_induction (fun _ _ _ h ht => inv_step h ht) inv_initial hrun

theorem resolved_iff {r : TaskResult} (hrun : notifiedTask.exec initial schedule = some s)
    (hwaiting : s.stage = .waiting) (hover : s.Over r) (hdelivered : s.Delivered) :
    s.future = .resolved r ↔ notifiedTask.Meets InTime initial schedule := by
  have h := inv_run hrun
  obtain ⟨hstatus, hterminal⟩ := hover
  obtain ⟨hlisteners, hposting, hcallbacks⟩ := hdelivered
  constructor
  · intro hresolved
    by_contra hlate
    have hlost := lost_of_not_meets inv_initial hrun hlate
    rcases hlost.future with hfuture | hfuture
    · rw [hresolved] at hfuture
      cases hfuture
    · rw [hresolved] at hfuture
      cases hfuture
  · intro hmeets
    have hI : s.Inv ∧
        (s.subscribed = true → s.status.any TaskResult.terminal = true → s.Announced) :=
      notifiedTask.exec_invariant (I := fun s => s.Inv ∧
          (s.subscribed = true → s.status.any TaskResult.terminal = true → s.Announced))
        (fun _ _ _ hI hC ht => ⟨inv_step hI.1 ht, announced_step hI.1 hC ht hI.2⟩)
        ⟨inv_initial, fun hr => by cases hr⟩ hmeets hrun
    have hsubscribed : s.subscribed = true := by
      by_contra hnot
      have hwhere := (h.early (by simpa using hnot)).2.2.2
      rw [hwaiting] at hwhere
      rcases hwhere with hr | hr | hr <;> cases hr
    have hdone : s.future ≠ .pending := by
      rcases hI.2 hsubscribed (by rw [hstatus]; exact hterminal) with
        hinitial | hlistener | hpost | ⟨r', hr', -⟩ | hdone
      · exact h.backfilled hwaiting hinitial
      · rw [hlisteners] at hlistener
        exact absurd hlistener (Nat.lt_irrefl 0)
      · rw [hposting] at hpost
        exact absurd hpost (Nat.lt_irrefl 0)
      · rw [hcallbacks] at hr'
        cases hr'
      · exact hdone
    cases hfuture : s.future with
    | pending => exact (hdone hfuture).elim
    | resolved r' =>
      obtain ⟨hlast, -⟩ := h.resolved r' hfuture
      rw [Option.some.inj (hlast.symm.trans hstatus)]
    | cancelled =>
      have htimedOut := h.cancelled hfuture
      rw [hwaiting] at htimedOut
      cases htimedOut

theorem completion_notified (hrun : notifiedTask.exec initial schedule = some s) :
    (∀ r, s.stage = .returned r → s.Over r) ∧
    ∀ r, s.stage = .waiting → s.Over r → s.Delivered →
      (s.future = .resolved r ↔ notifiedTask.Meets InTime initial schedule) := by
  refine ⟨(inv_run hrun).returned, ?_⟩
  intro r hwaiting hover hdelivered
  exact resolved_iff hrun hwaiting hover hdelivered

namespace Sample

def resultOf (state : TaskState) : TaskResult := { state, dataItems := [], products := [] }

def startedTask : List NotificationAct :=
  [.notificationSet, .onStart (resultOf .accepted), .startAnswered, .startReturned]

def notified : List NotificationAct :=
  startedTask ++ [.handleStart, .updateStatus (resultOf .completed), .listener, .postOnce,
    .notificationStarted, .onCallback 0]

def unnoticed : List NotificationAct :=
  startedTask ++ [.updateStatus (resultOf .completed), .listener, .handleStart,
    .notificationStarted]

end Sample

theorem subscribed_completion_notified :
    ∃ s, notifiedTask.exec initial Sample.notified = some s ∧ s.stage = .waiting ∧
      s.Over (Sample.resultOf .completed) ∧ s.Delivered ∧
      s.future = .resolved (Sample.resultOf .completed) := by
  have hruns : (notifiedTask.exec initial Sample.notified).any (fun s => s.stage = .waiting ∧
      (s.status = some (Sample.resultOf .completed) ∧
        (Sample.resultOf .completed).terminal = true) ∧
      s.listeners = 0 ∧ s.posting = 0 ∧ s.callbacks = []) = true := by
    decide +kernel
  obtain ⟨s, hs, hends⟩ := (Option.any_eq_true _ _).mp hruns
  obtain ⟨hwaiting, hover, hdelivered⟩ := of_decide_eq_true hends
  refine ⟨s, hs, hwaiting, hover, hdelivered, ?_⟩
  apply ((completion_notified hs).2 _ hwaiting hover hdelivered).mpr
  exact notifiedTask.meets_of_check (fun _ _ h => of_decide_eq_true h)
    (show notifiedTask.check (fun s a => decide (s.InTime a)) initial Sample.notified = true by
      decide +kernel)

theorem completion_unnoticed :
    ∃ s, notifiedTask.exec initial Sample.unnoticed = some s ∧ s.stage = .waiting ∧
      s.Over (Sample.resultOf .completed) ∧ s.Delivered ∧ s.future = .pending ∧
      (s.step .timeout).map NotifiedTask.stage = some .timedOut := by
  have hruns : (notifiedTask.exec initial Sample.unnoticed).any (fun s => s.stage = .waiting ∧
      (s.status = some (Sample.resultOf .completed) ∧
        (Sample.resultOf .completed).terminal = true) ∧
      (s.listeners = 0 ∧ s.posting = 0 ∧ s.callbacks = []) ∧ s.future = .pending ∧
      (s.step .timeout).map NotifiedTask.stage = some .timedOut) = true := by
    decide +kernel
  obtain ⟨s, hs, hends⟩ := (Option.any_eq_true _ _).mp hruns
  obtain ⟨hwaiting, hover, hdelivered, hrest⟩ := of_decide_eq_true hends
  exact ⟨s, hs, hwaiting, hover, hdelivered, hrest⟩

end Runs

end NotifiedTask

end Acps.Assistant
