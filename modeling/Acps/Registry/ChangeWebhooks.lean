import Acps.Lib.Transition
import Mathlib.Data.List.Nodup
import Mathlib.Logic.Function.Basic
import Mathlib.Order.Lattice
import Mathlib.Tactic.Common

/-!
The batching of `data_change` webhooks, where a window is set: triggers merge into one state under
a lock, and a timer that each of them starts anew sends what has been merged.
-/

namespace Acps.Registry

structure TriggerCall where
  dataTypes : List String
  currentSeq : ℤ
  deriving DecidableEq

structure DataChange where
  type : String
  currentSeq : ℤ
  deriving DecidableEq

inductive TimerStatus where
  | armed
  | fired
  | over
  deriving DecidableEq

structure SentBatch where
  batch : List TriggerCall
  events : List DataChange
  deriving DecidableEq

/-- The timers are numbered in the order in which they were started. The last two fields are not
kept by the code: the triggers since the last batch, and the batches. -/
structure DataChangeBatch where
  types : List String
  maxSeq : Option ℤ
  timer : Option ℕ
  started : ℕ
  status : ℕ → TimerStatus
  merged : List TriggerCall
  sent : List SentBatch

namespace DataChangeBatch

def empty : DataChangeBatch := ⟨[], none, none, 0, fun _ => .over, [], []⟩

def addType (types : List String) (type : String) : List String :=
  if type ∈ types then types else types ++ [type]

def mergeSeq (maxSeq : Option ℤ) (currentSeq : ℤ) : Option ℤ :=
  some (maxSeq.elim currentSeq fun m => max m currentSeq)

def cancelled : TimerStatus → TimerStatus
  | .fired => .fired
  | _ => .over

def triggerDataChangeWebhook (s : DataChangeBatch) (call : TriggerCall) : DataChangeBatch :=
  let status := s.timer.elim s.status fun i => Function.update s.status i (cancelled (s.status i))
  { s with
    types := call.dataTypes.foldl addType s.types
    maxSeq := mergeSeq s.maxSeq call.currentSeq
    timer := some s.started
    started := s.started + 1
    status := Function.update status s.started .armed
    merged := s.merged ++ [call] }

def batchEvents (types : List String) (maxSeq : Option ℤ) : List DataChange :=
  (if types = [] then ["acs"] else types).map fun type => ⟨type, maxSeq.getD 0⟩

def sendBatch (s : DataChangeBatch) (i : ℕ) : DataChangeBatch :=
  { s with
    types := []
    maxSeq := none
    timer := none
    status := Function.update s.status i .over
    merged := []
    sent := s.sent ++ [⟨s.merged, batchEvents s.types s.maxSeq⟩] }

end DataChangeBatch

inductive WebhookAction where
  | trigger (call : TriggerCall)
  | fire (timer : ℕ)
  | send (timer : ℕ)

def WebhookAction.call : WebhookAction → Option TriggerCall
  | .trigger call => some call
  | _ => none

def webhooks : Transition.System DataChangeBatch WebhookAction where
  step s
    | .trigger call => some (s.triggerDataChangeWebhook call)
    | .fire i =>
      if s.status i = .armed then some { s with status := Function.update s.status i .fired }
      else none
    | .send i => if s.status i = .fired then some (s.sendBatch i) else none

structure SentBatch.Right (b : SentBatch) : Prop where
  nonempty : b.batch ≠ []
  seq : ∀ e ∈ b.events, (b.batch.map TriggerCall.currentSeq).max? = some e.currentSeq
  types : ∀ type, type ∈ b.events.map DataChange.type ↔ ∃ c ∈ b.batch, type ∈ c.dataTypes
  distinct : (b.events.map DataChange.type).Nodup

def Punctual (s : DataChangeBatch) : WebhookAction → Prop
  | .trigger _ => ∀ i, s.timer = some i → s.status i ≠ .fired
  | .fire _ => True
  | .send _ => s.merged ≠ [] → ∃ c ∈ s.merged, c.dataTypes ≠ []

def DataChangeBatch.Quiet (s : DataChangeBatch) : Prop := ∀ i, s.status i = .over

section Merge

open DataChangeBatch

theorem mem_foldl_addType {dataTypes types : List String} {type : String} :
    type ∈ dataTypes.foldl addType types ↔ type ∈ types ∨ type ∈ dataTypes := by
  induction dataTypes generalizing types with
  | nil => simp
  | cons t dataTypes ih =>
    have hadd : type ∈ addType types t ↔ type ∈ types ∨ type = t := by
      unfold addType
      split
      · next ht => exact ⟨.inl, fun h => h.elim id fun heq => heq ▸ ht⟩
      · simp
    rw [List.foldl_cons, ih, hadd, List.mem_cons, or_assoc]

theorem nodup_foldl_addType {dataTypes types : List String} (h : types.Nodup) :
    (dataTypes.foldl addType types).Nodup := by
  induction dataTypes generalizing types with
  | nil => exact h
  | cons t dataTypes ih =>
    apply ih
    unfold addType
    split
    · exact h
    · next ht => exact h.append (List.nodup_singleton t) (by simpa using ht)

theorem mergeSeq_max (seqs : List ℤ) (x : ℤ) : mergeSeq seqs.max? x = (seqs ++ [x]).max? := by
  cases seqs with
  | nil => rfl
  | cons y ys => simp [mergeSeq, List.max?, List.foldl_append]

end Merge

section Invariant

variable {s t : DataChangeBatch} {a : WebhookAction}

structure Batched (s : DataChangeBatch) : Prop where
  types : ∀ type, type ∈ s.types ↔ ∃ c ∈ s.merged, type ∈ c.dataTypes
  distinct : s.types.Nodup
  maxSeq : s.maxSeq = (s.merged.map TriggerCall.currentSeq).max?
  idle : s.merged = [] ↔ s.timer = none
  current : ∀ i, s.timer = some i → s.status i ≠ .over
  fresh : ∀ i, s.started ≤ i → s.status i = .over

theorem batched_empty : Batched .empty where
  types _ := by simp [DataChangeBatch.empty]
  distinct := .nil
  maxSeq := rfl
  idle := by simp [DataChangeBatch.empty]
  current i h := by simp [DataChangeBatch.empty] at h
  fresh _ _ := rfl

theorem status_trigger (s : DataChangeBatch) (call : TriggerCall) {i : ℕ} (hi : i ≠ s.started) :
    (s.triggerDataChangeWebhook call).status i =
      if s.timer = some i then DataChangeBatch.cancelled (s.status i) else s.status i := by
  rw [DataChangeBatch.triggerDataChangeWebhook]
  dsimp only
  rw [Function.update_of_ne hi]
  cases htimer : s.timer with
  | none => rfl
  | some j =>
    by_cases hj : j = i
    · subst hj
      simp
    · rw [Option.elim_some, Function.update_of_ne (Ne.symm hj), if_neg (by simpa using hj)]

theorem status_trigger_self (s : DataChangeBatch) (call : TriggerCall) :
    (s.triggerDataChangeWebhook call).status s.started = .armed := Function.update_self ..

theorem Batched.trigger (h : Batched s) (call : TriggerCall) :
    Batched (s.triggerDataChangeWebhook call) where
  types type := by
    have hold := h.types type
    simp only [DataChangeBatch.triggerDataChangeWebhook, mem_foldl_addType, hold, List.mem_append,
      List.mem_singleton]
    constructor
    · rintro (⟨c, hc, hmem⟩ | hmem)
      · exact ⟨c, .inl hc, hmem⟩
      · exact ⟨call, .inr rfl, hmem⟩
    · rintro ⟨c, hc | rfl, hmem⟩
      · exact .inl ⟨c, hc, hmem⟩
      · exact .inr hmem
  distinct := nodup_foldl_addType h.distinct
  maxSeq := by
    simp only [DataChangeBatch.triggerDataChangeWebhook, h.maxSeq, List.map_append, List.map_cons,
      List.map_nil]
    exact mergeSeq_max _ _
  idle := by simp [DataChangeBatch.triggerDataChangeWebhook]
  current i hi := by
    obtain rfl : s.started = i := Option.some.inj hi
    rw [status_trigger_self]
    decide
  fresh i hi := by
    have hlt : s.started < i := hi
    have hover := h.fresh i hlt.le
    rw [status_trigger s call hlt.ne']
    split
    · rw [hover]
      rfl
    · exact hover

theorem Batched.step (h : Batched s) (hstep : webhooks.step s a = some t) : Batched t := by
  cases a with
  | trigger call =>
    obtain rfl := Option.some.inj hstep
    exact h.trigger call
  | fire i =>
    simp only [webhooks, Option.ite_none_right_eq_some, Option.some.injEq] at hstep
    obtain ⟨harmed, rfl⟩ := hstep
    refine ⟨h.types, h.distinct, h.maxSeq, h.idle, fun j hj => ?_, fun j hj => ?_⟩
    · by_cases hji : j = i
      · subst hji
        simp
      · exact (Function.update_of_ne hji TimerStatus.fired s.status).trans_ne (h.current j hj)
    · have hji : j ≠ i := by
        rintro rfl
        rw [h.fresh j hj] at harmed
        exact absurd harmed (by decide)
      exact (Function.update_of_ne hji TimerStatus.fired s.status).trans (h.fresh j hj)
  | send i =>
    simp only [webhooks, Option.ite_none_right_eq_some, Option.some.injEq] at hstep
    obtain ⟨-, rfl⟩ := hstep
    refine ⟨by simp [DataChangeBatch.sendBatch], .nil, rfl, by simp [DataChangeBatch.sendBatch],
      by simp [DataChangeBatch.sendBatch], fun j hj => ?_⟩
    by_cases hji : j = i
    · subst hji
      exact Function.update_self ..
    · exact (Function.update_of_ne hji ..).trans (h.fresh j hj)

theorem Batched.reachable {as : List WebhookAction} (h : webhooks.exec .empty as = some s) :
    Batched s := webhooks.exec_induction (fun _ _ _ hs hstep => hs.step hstep) batched_empty h

theorem merged_exec {as : List WebhookAction} (h : webhooks.exec s as = some t) :
    (t.sent.flatMap SentBatch.batch) ++ t.merged =
      (s.sent.flatMap SentBatch.batch) ++ s.merged ++ as.filterMap WebhookAction.call := by
  induction as generalizing s with
  | nil =>
    obtain rfl : s = t := by simpa using h
    simp
  | cons a as ih =>
    obtain ⟨u, hu, hrest⟩ := webhooks.exec_cons_eq_some.mp h
    rw [ih hrest]
    cases a with
    | trigger call =>
      obtain rfl := Option.some.inj hu
      simp [DataChangeBatch.triggerDataChangeWebhook, WebhookAction.call]
    | fire i =>
      simp only [webhooks, Option.ite_none_right_eq_some, Option.some.injEq] at hu
      obtain ⟨-, rfl⟩ := hu
      rw [List.filterMap_cons_none rfl]
    | send i =>
      simp only [webhooks, Option.ite_none_right_eq_some, Option.some.injEq] at hu
      obtain ⟨-, rfl⟩ := hu
      rw [List.filterMap_cons_none rfl]
      simp [DataChangeBatch.sendBatch]

end Invariant

section Punctuality

variable {s t : DataChangeBatch} {a : WebhookAction}

def Sole (s : DataChangeBatch) : Prop := ∀ i, s.status i ≠ .over → s.timer = some i

theorem right_iff (h : Batched s) :
    SentBatch.Right ⟨s.merged, DataChangeBatch.batchEvents s.types s.maxSeq⟩ ↔
      s.merged ≠ [] ∧ ∃ c ∈ s.merged, c.dataTypes ≠ [] := by
  have htyped : s.types = [] ↔ ¬ ∃ c ∈ s.merged, c.dataTypes ≠ [] := by
    rw [List.eq_nil_iff_forall_not_mem]
    simp only [h.types]
    constructor
    · rintro hnone ⟨c, hc, hne⟩
      obtain ⟨type, htype⟩ := List.exists_mem_of_ne_nil _ hne
      exact hnone type ⟨c, hc, htype⟩
    · rintro hnone type ⟨c, hc, htype⟩
      exact hnone ⟨c, hc, List.ne_nil_of_mem htype⟩
  constructor
  · intro hright
    refine ⟨hright.nonempty, ?_⟩
    by_contra hnone
    have htypes := hright.types "acs"
    rw [DataChangeBatch.batchEvents, if_pos (htyped.mpr hnone)] at htypes
    obtain ⟨c, hc, hmem⟩ := htypes.mp (by simp)
    exact hnone ⟨c, hc, List.ne_nil_of_mem hmem⟩
  · rintro ⟨hne, hsome⟩
    have htypes : s.types ≠ [] := fun hnil => htyped.mp hnil hsome
    have hevents : (DataChangeBatch.batchEvents s.types s.maxSeq).map DataChange.type = s.types := by
      rw [DataChangeBatch.batchEvents, if_neg htypes, List.map_map]
      exact List.map_id _
    refine ⟨hne, fun e he => ?_, fun type => ?_, ?_⟩
    · rw [DataChangeBatch.batchEvents, if_neg htypes] at he
      obtain ⟨type, -, rfl⟩ := List.mem_map.mp he
      obtain ⟨m, hm⟩ := Option.ne_none_iff_exists'.mp fun hnone : s.maxSeq = none => by
        rw [h.maxSeq, List.max?_eq_none_iff, List.map_eq_nil_iff] at hnone
        exact hne hnone
      rw [← h.maxSeq, hm, Option.getD_some]
    · rw [hevents]
      exact h.types type
    · rw [hevents]
      exact h.distinct

theorem sole_trigger_iff (h : Batched s) (call : TriggerCall) :
    Sole (s.triggerDataChangeWebhook call) ↔ Sole s ∧ Punctual s (.trigger call) := by
  have hstarted : s.status s.started = .over := h.fresh _ le_rfl
  constructor
  · intro hsole
    have hother {i : ℕ} (hi : i ≠ s.started) :
        (s.triggerDataChangeWebhook call).status i = .over := by
      by_contra hlive
      exact hi (Option.some.inj (hsole i hlive)).symm
    constructor
    · intro i hi
      have hne : i ≠ s.started := by
        rintro rfl
        exact hi hstarted
      have hover := hother hne
      rw [status_trigger s call hne] at hover
      by_contra htimer
      rw [if_neg htimer] at hover
      exact hi hover
    · intro i htimer hfired
      have hne : i ≠ s.started := by
        rintro rfl
        rw [hstarted] at hfired
        exact absurd hfired (by decide)
      have hover := hother hne
      rw [status_trigger s call hne, if_pos htimer, hfired] at hover
      exact absurd hover (by decide)
  · rintro ⟨hsole, hpunctual⟩ i hi
    by_contra hne
    have hne : i ≠ s.started := fun heq => hne (congrArg some heq.symm)
    rw [status_trigger s call hne] at hi
    split at hi
    · next htimer =>
      have hnot := hpunctual i htimer
      match hstatus : s.status i with
      | .fired => exact hnot hstatus
      | .armed => exact hi (by rw [hstatus]; rfl)
      | .over => exact hi (by rw [hstatus]; rfl)
    · next htimer => exact htimer (hsole i hi)

theorem sole_send_iff (h : Batched s) {i : ℕ} (hfired : s.status i = .fired) :
    (Sole (s.sendBatch i) ∧ s.merged ≠ []) ↔ Sole s := by
  have hlive : s.status i ≠ .over := by rw [hfired]; decide
  have hother {j : ℕ} (hj : j ≠ i) : (s.sendBatch i).status j = s.status j :=
    Function.update_of_ne hj ..
  constructor
  · rintro ⟨hsole, hne⟩ j hj
    have hover {k : ℕ} (hk : s.status k ≠ .over) : k = i := by
      by_contra hki
      have := hsole k (by rwa [hother hki])
      simp [DataChangeBatch.sendBatch] at this
    obtain ⟨k, hk⟩ := Option.ne_none_iff_exists'.mp fun hnone => hne (h.idle.mpr hnone)
    rw [hover hj, hk, hover (h.current k hk)]
  · intro hsole
    have htimer := hsole i hlive
    constructor
    · intro j hj
      have hji : j ≠ i := by
        rintro rfl
        exact hj (Function.update_self ..)
      rw [hother hji] at hj
      rw [hsole j hj] at htimer
      exact absurd (Option.some.inj htimer) hji
    · intro hnil
      rw [h.idle.mp hnil] at htimer
      exact absurd htimer (by simp)

theorem right_step_iff (h : Batched s) (hstep : webhooks.step s a = some t) :
    (Sole t ∧ ∀ b ∈ t.sent, b.Right) ↔ (Sole s ∧ ∀ b ∈ s.sent, b.Right) ∧ Punctual s a := by
  cases a with
  | trigger call =>
    obtain rfl := Option.some.inj hstep
    rw [sole_trigger_iff h call, and_right_comm]
    rfl
  | fire i =>
    simp only [webhooks, Option.ite_none_right_eq_some, Option.some.injEq] at hstep
    obtain ⟨harmed, rfl⟩ := hstep
    simp only [Punctual, and_true]
    apply and_congr_left'
    apply forall_congr'
    intro j
    by_cases hji : j = i
    · subst hji
      simp [harmed]
    · simp [Function.update_of_ne hji]
  | send i =>
    simp only [webhooks, Option.ite_none_right_eq_some, Option.some.injEq] at hstep
    obtain ⟨hfired, rfl⟩ := hstep
    have hsent : (∀ b ∈ (s.sendBatch i).sent, b.Right) ↔
        (∀ b ∈ s.sent, b.Right) ∧ s.merged ≠ [] ∧ ∃ c ∈ s.merged, c.dataTypes ≠ [] := by
      rw [← right_iff h]
      simp only [DataChangeBatch.sendBatch, List.forall_mem_append, List.forall_mem_singleton]
    rw [hsent, ← sole_send_iff h hfired]
    simp only [Punctual]
    tauto

theorem merged_of_quiet (h : Batched s) (hquiet : s.Quiet) : s.merged = [] := by
  by_contra hne
  obtain ⟨k, hk⟩ := Option.ne_none_iff_exists'.mp fun hnone => hne (h.idle.mpr hnone)
  exact h.current k hk (hquiet k)

theorem batches_right_iff {as : List WebhookAction} (hs : webhooks.exec .empty as = some s) :
    s.sent.flatMap SentBatch.batch ++ s.merged = as.filterMap WebhookAction.call ∧
      (webhooks.Meets Punctual .empty as → ∀ b ∈ s.sent, b.Right) ∧
      (s.Quiet → s.merged = [] ∧
        ((∀ b ∈ s.sent, b.Right) ↔ webhooks.Meets Punctual .empty as)) := by
  have hbatched := Batched.reachable hs
  have hempty : Sole .empty ∧ ∀ b ∈ DataChangeBatch.empty.sent, b.Right :=
    ⟨fun i hi => absurd rfl hi, fun b hb => absurd hb (List.not_mem_nil)⟩
  have hiff := webhooks.exec_iff_meets (C := Punctual) (I := Batched)
    (P := fun s => Sole s ∧ ∀ b ∈ s.sent, b.Right) (fun _ _ _ hs hstep => hs.step hstep)
    (fun _ _ _ hs hstep => right_step_iff hs hstep) batched_empty hs
  rw [and_iff_right hempty] at hiff
  refine ⟨merged_exec hs, fun hmeets => (hiff.mpr hmeets).2, fun hquiet => ?_⟩
  refine ⟨merged_of_quiet hbatched hquiet, ?_⟩
  rw [← hiff]
  exact ⟨fun hright => ⟨fun i hi => absurd (hquiet i) hi, hright⟩, And.right⟩

namespace Sample

def merging : List WebhookAction :=
  [.trigger ⟨["acs"], 3⟩, .trigger ⟨["acs"], 5⟩, .fire 1, .send 1]

def lateCancel : List WebhookAction :=
  [.trigger ⟨["acs"], 1⟩, .fire 0, .trigger ⟨["acs"], 2⟩, .send 0, .fire 1, .send 1]

end Sample

theorem batches_right_iff_at :
    ∃ s, webhooks.exec .empty Sample.merging = some s ∧
      s.sent = [⟨[⟨["acs"], 3⟩, ⟨["acs"], 5⟩], [⟨"acs", 5⟩]⟩] ∧
      s.sent.flatMap SentBatch.batch ++ s.merged = [⟨["acs"], 3⟩, ⟨["acs"], 5⟩] := by
  obtain ⟨s, hs⟩ : ∃ s, webhooks.exec .empty Sample.merging = some s := ⟨_, rfl⟩
  have hsent : (webhooks.exec .empty Sample.merging).map DataChangeBatch.sent =
      some [⟨[⟨["acs"], 3⟩, ⟨["acs"], 5⟩], [⟨"acs", 5⟩]⟩] := by decide
  rw [hs] at hsent
  exact ⟨s, hs, Option.some.inj hsent, (batches_right_iff hs).1⟩

theorem late_cancel_sends_empty_batch :
    ∃ s, webhooks.exec .empty Sample.lateCancel = some s ∧
      s.sent = [⟨[⟨["acs"], 1⟩, ⟨["acs"], 2⟩], [⟨"acs", 2⟩]⟩, ⟨[], [⟨"acs", 0⟩]⟩] ∧
      ¬ ∀ b ∈ s.sent, b.Right := by
  obtain ⟨s, hs⟩ : ∃ s, webhooks.exec .empty Sample.lateCancel = some s := ⟨_, rfl⟩
  have hsent : (webhooks.exec .empty Sample.lateCancel).map DataChangeBatch.sent =
      some [⟨[⟨["acs"], 1⟩, ⟨["acs"], 2⟩], [⟨"acs", 2⟩]⟩, ⟨[], [⟨"acs", 0⟩]⟩] := by decide
  rw [hs] at hsent
  refine ⟨s, hs, Option.some.inj hsent, fun hright => ?_⟩
  have hempty := hright ⟨[], [⟨"acs", 0⟩]⟩ (by rw [Option.some.inj hsent]; simp)
  exact hempty.nonempty rfl

end Punctuality

end Acps.Registry
