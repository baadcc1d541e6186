import Acps.Lib.Slots
import Acps.Lib.Transition

/-!
The partners that the group executor believes to be in the group of a session.
-/

namespace Acps.Assistant.InvitedCache

open Transition (System)

structure Group where
  generation : ℕ
  members : List String
  deriving DecidableEq

/-- Where `execute` is. It waits for the group, for its invitations, or for one start after the other;
an execution that was abandoned has raised while some of its invitations go on. -/
inductive Phase where
  | creating
  | inviting (generation : ℕ) (waiting succeeded : List String)
  | abandoned (generation : ℕ) (waiting : List String)
  | starting (remaining : List String)
  | ended
  deriving DecidableEq

structure Execution where
  partners : List String
  phase : Phase
  deriving DecidableEq

structure StartSent where
  partner : String
  member : Bool
  deriving DecidableEq

/-- `mapped` is the entry of `_session_group_map`, `group` that of `group_sessions`, and `invited` that
of `_invited_partners`, a set. The starts are for the record. -/
structure State where
  mapped : Bool
  group : Option Group
  generations : ℕ
  invited : List String
  executions : List Execution
  starts : List StartSent
  deriving DecidableEq

def initial : State := ⟨false, none, 0, [], [], []⟩

/-- How an invitation ends. `joinedFormer` is the success of an invitation to a group that has been
dissolved meanwhile; `raised` an error that the retries do not catch. -/
inductive Outcome where
  | joined
  | joinedFormer
  | refused
  | raised
  deriving DecidableEq

inductive Act where
  | execute (partners : List String)
  | created (i : ℕ) (ok : Bool)
  | inviteEnds (i : ℕ) (partner : String) (outcome : Outcome)
  | ensured (i : ℕ)
  | start (i : ℕ) (published : Bool)
  | requestPartnerLeave (partner : String)
  | leave (partner : String)
  | forceRemovePartner (partner : String)
  | dissolveGroup
  | expireGroup

namespace State

variable (s : State)

def isMember (partner : String) : Bool := s.group.any fun g => partner ∈ g.members

def setPhase (i : ℕ) (phase : Phase) : State :=
  { s with executions := s.executions.modify i fun e => { e with phase } }

def ensurePartnersInvited (partners : List String) : Phase :=
  let toInvite := partners.filter (· ∉ s.invited)
  if toInvite = [] then .starting partners
  else
    match s.group with
    | none => .ended
    | some g => .inviting g.generation toInvite []

def withGroup : State :=
  match s.group with
  | some _ => { s with mapped := true }
  | none => { s with
      mapped := true, group := some ⟨s.generations, []⟩, generations := s.generations + 1 }

def join (partner : String) : State :=
  { s with group := s.group.map fun g => { g with members := partner :: g.members } }

def depart (partner : String) : State :=
  { s with group := s.group.map fun g => { g with members := g.members.filter (· ≠ partner) } }

def sendStart (partner : String) (published : Bool) : State :=
  match s.group with
  | some g => if published
      then { s with starts := s.starts ++ [⟨partner, partner ∈ g.members⟩] } else s
  | none => s

end State

def inviteEnds (s : State) (i : ℕ) (partner : String) (outcome : Outcome) : Option State :=
  match s.executions[i]?.map Execution.phase with
  | some (.inviting generation waiting succeeded) =>
    if partner ∈ waiting then
      let rest := waiting.filter (· ≠ partner)
      match outcome with
      | .joined => if s.group.isSome then
          some ((s.join partner).setPhase i (.inviting generation rest (partner :: succeeded)))
        else none
      | .joinedFormer => if s.group.any (fun g => g.generation = generation) then none
        else some (s.setPhase i (.inviting generation rest (partner :: succeeded)))
      | .refused => some (s.setPhase i (.inviting generation rest succeeded))
      | .raised => some (s.setPhase i (.abandoned generation rest))
    else none
  | some (.abandoned generation waiting) =>
    if partner ∈ waiting then
      let rest := waiting.filter (· ≠ partner)
      match outcome with
      | .joined => if s.group.isSome then
          some ((s.join partner).setPhase i (.abandoned generation rest)) else none
      | _ => some (s.setPhase i (.abandoned generation rest))
    else none
  | _ => none

def step (s : State) : Act → Option State
  | .execute partners =>
    some { s with executions := s.executions ++ [⟨partners,
      if partners = [] then .ended
      else if s.mapped then s.ensurePartnersInvited partners else .creating⟩] }
  | .created i ok =>
    match s.executions[i]? with
    | some ⟨partners, .creating⟩ =>
      if ok then some (s.withGroup.setPhase i (s.withGroup.ensurePartnersInvited partners))
      else some (s.setPhase i .ended)
    | _ => none
  | .inviteEnds i partner outcome => inviteEnds s i partner outcome
  | .ensured i =>
    match s.executions[i]? with
    | some ⟨partners, .inviting _ [] succeeded⟩ =>
      let invited := s.invited ++ succeeded
      some ({ s with invited }.setPhase i (.starting (partners.filter (· ∈ invited))))
    | _ => none
  | .start i published =>
    match s.executions[i]?.map Execution.phase with
    | some (.starting (partner :: rest)) =>
      some ((s.sendStart partner published).setPhase i (.starting rest))
    | _ => none
  | .requestPartnerLeave _ => if s.group.isSome then some s else none
  | .leave partner => if s.isMember partner then some (s.depart partner) else none
  | .forceRemovePartner partner => if s.group.isSome then some (s.depart partner) else none
  | .dissolveGroup => some { s with mapped := false, group := none }
  | .expireGroup => some { s with group := none }

def system : System State Act := ⟨step⟩

def Coherent (s : State) : Prop := ∀ start ∈ s.starts, start.member = true

def Execution.Counts (s : State) (e : Execution) (partner : String) : Prop :=
  match e.phase with
  | .inviting _ _ succeeded => partner ∈ e.partners ∧ partner ∈ s.invited ∨ partner ∈ succeeded
  | .starting remaining => partner ∈ remaining
  | _ => False

def Execution.busy (e : Execution) : Bool :=
  match e.phase with
  | .inviting _ _ _ => true
  | .starting remaining => remaining ≠ []
  | _ => false

def CacheTrue (s : State) (partners : List String) : Prop :=
  ∀ partner ∈ partners, partner ∈ s.invited → s.isMember partner = true

/-- An execution finds no partner in the set that is not in the group; nobody that an execution is
about to start leaves or is removed; and no group is made anew while an execution is about to start
somebody. -/
def Careful (s : State) : Act → Prop
  | .execute partners => s.mapped = true → CacheTrue s partners
  | .created i ok => ok = true → (∀ e ∈ s.executions[i]?, CacheTrue s e.partners) ∧
      (s.group = none → ∀ e ∈ s.executions, e.busy = false)
  | .leave partner | .forceRemovePartner partner => ∀ e ∈ s.executions, ¬ e.Counts s partner
  | _ => True

instance (s : State) (e : Execution) (partner : String) : Decidable (e.Counts s partner) := by
  unfold Execution.Counts
  split <;> infer_instance

instance (s : State) (partners : List String) : Decidable (CacheTrue s partners) :=
  inferInstanceAs (Decidable (∀ partner ∈ partners, _ → _))

instance (s : State) (a : Act) : Decidable (Careful s a) := by
  unfold Careful
  split <;> infer_instance

structure Kept (g : Group) (s : State) (e : Execution) : Prop where
  members : ∀ partner, e.Counts s partner → partner ∈ g.members
  generation : ∀ n waiting succeeded, e.phase = .inviting n waiting succeeded → g.generation = n

structure Inv (s : State) : Prop where
  kept : ∀ g, s.group = some g → ∀ e ∈ s.executions, Kept g s e
  coherent : Coherent s

theorem inv_initial : Inv initial where
  kept g h := by cases h
  coherent start h := by cases h

section Phases

variable {s : State} {g : Group} {e : Execution} {i : ℕ} {partner : String} {partners : List String}

theorem mem_setPhase {phase : Phase} (h : e ∈ (s.setPhase i phase).executions) :
    e ∈ s.executions ∨ ∃ old, s.executions[i]? = some old ∧ e = { old with phase } := by
  obtain ⟨j, hj⟩ := List.mem_iff_getElem?.mp h
  rcases Slots.getElem?_modify_eq_some.mp hj with ⟨rfl, old, hold, rfl⟩ | ⟨-, hj⟩
  · exact .inr ⟨old, hold, rfl⟩
  · exact .inl (List.mem_of_getElem? hj)

theorem Inv.setPhase (h : Inv s) {phase : Phase}
    (hphase : ∀ g, s.group = some g → ∀ old, s.executions[i]? = some old →
      Kept g s { old with phase }) : Inv (s.setPhase i phase) where
  kept g hg e he := by
    rcases mem_setPhase he with he | ⟨old, hold, rfl⟩
    · exact ⟨(h.kept g hg e he).members, (h.kept g hg e he).generation⟩
    · exact ⟨(hphase g hg old hold).members, (hphase g hg old hold).generation⟩
  coherent := h.coherent

theorem Kept.of_idle (hcounts : ∀ partner, ¬ e.Counts s partner)
    (hphase : ∀ n waiting succeeded, e.phase ≠ .inviting n waiting succeeded) : Kept g s e :=
  ⟨fun partner h => absurd h (hcounts partner), fun n waiting succeeded h =>
    absurd h (hphase n waiting succeeded)⟩

theorem Kept.of_not_busy (h : e.busy = false) : Kept g s e := by
  obtain ⟨partners, phase⟩ := e
  cases phase with
  | inviting generation waiting succeeded => cases h
  | starting remaining =>
    obtain rfl : remaining = [] := by simpa [Execution.busy] using h
    exact .of_idle (fun _ h => by cases h) (fun _ _ _ h => by cases h)
  | creating => exact .of_idle (fun _ h => h) (fun _ _ _ h => by cases h)
  | abandoned generation waiting => exact .of_idle (fun _ h => h) (fun _ _ _ h => by cases h)
  | ended => exact .of_idle (fun _ h => h) (fun _ _ _ h => by cases h)

theorem isMember_iff (hg : s.group = some g) : s.isMember partner = true ↔ partner ∈ g.members := by
  unfold State.isMember
  rw [hg, Option.any_some, decide_eq_true_eq]

theorem kept_ensure (hg : s.group = some g) (hcache : CacheTrue s partners) :
    Kept g s ⟨partners, s.ensurePartnersInvited partners⟩ := by
  have hmember : ∀ partner ∈ partners, partner ∈ s.invited → partner ∈ g.members :=
    fun partner hp hinvited => (isMember_iff hg).mp (hcache partner hp hinvited)
  unfold State.ensurePartnersInvited
  dsimp only
  split
  next hnone =>
    have hall : ∀ partner ∈ partners, partner ∈ s.invited := by
      intro partner hp
      simpa using List.filter_eq_nil_iff.mp hnone partner hp
    exact ⟨fun partner hp => hmember partner hp (hall partner hp), fun _ _ _ h => by cases h⟩
  next =>
    rw [hg]
    constructor
    · rintro partner (⟨hp, hinvited⟩ | h)
      · exact hmember partner hp hinvited
      · cases h
    · intro n waiting succeeded h
      exact (Phase.inviting.inj h).1

end Phases

section Operations

variable {s : State} {e : Execution} {i : ℕ} {partner : String} {partners : List String}

theorem Inv.join (h : Inv s) (partner : String) : Inv (s.join partner) where
  kept g hg e he := by
    obtain ⟨old, hold, rfl⟩ := Option.map_eq_some_iff.mp hg
    exact ⟨fun p hp => List.mem_cons_of_mem _ ((h.kept old hold e he).members p hp),
      (h.kept old hold e he).generation⟩
  coherent := h.coherent

theorem Inv.depart (h : Inv s) (hcounts : ∀ e ∈ s.executions, ¬ e.Counts s partner) :
    Inv (s.depart partner) where
  kept g hg e he := by
    obtain ⟨old, hold, rfl⟩ := Option.map_eq_some_iff.mp hg
    refine ⟨fun p hp => List.mem_filter.mpr ⟨(h.kept old hold e he).members p hp, ?_⟩,
      (h.kept old hold e he).generation⟩
    have hne : p ≠ partner := fun heq => hcounts e he (heq ▸ hp)
    simpa using hne
  coherent := h.coherent

theorem Inv.withGroup (h : Inv s) (hbusy : s.group = none → ∀ e ∈ s.executions, e.busy = false) :
    Inv s.withGroup := by
  unfold State.withGroup
  split
  next g hg =>
    refine ⟨fun g' hg' e he => ?_, h.coherent⟩
    exact ⟨(h.kept g' hg' e he).members, (h.kept g' hg' e he).generation⟩
  next hnone => exact ⟨fun g _ e he => .of_not_busy (hbusy hnone e he), h.coherent⟩

theorem cacheTrue_withGroup (h : CacheTrue s partners) : CacheTrue s.withGroup partners := by
  unfold State.withGroup
  split
  next => exact h
  next hnone =>
    intro p hp hinvited
    have hmember := h p hp hinvited
    unfold State.isMember at hmember
    rw [hnone] at hmember
    cases hmember

theorem Inv.sendStart (h : Inv s) {e : Execution} (he : e ∈ s.executions)
    (hcounts : e.Counts s partner) (published : Bool) : Inv (s.sendStart partner published) := by
  unfold State.sendStart
  split
  next g hg =>
    split
    next =>
      refine ⟨fun g' hg' e' he' => ?_, ?_⟩
      · exact ⟨(h.kept g' hg' e' he').members, (h.kept g' hg' e' he').generation⟩
      · intro start hstart
        rcases List.mem_append.mp hstart with hstart | hstart
        · exact h.coherent start hstart
        · rw [List.mem_singleton.mp hstart]
          exact decide_eq_true ((h.kept g hg e he).members partner hcounts)
    next => exact h
  next => exact h

theorem Inv.ensured (h : Inv s) {n : ℕ} {succeeded : List String}
    (hi : s.executions[i]? = some ⟨partners, .inviting n [] succeeded⟩) :
    Inv ({ s with invited := s.invited ++ succeeded }.setPhase i
      (.starting (partners.filter (· ∈ s.invited ++ succeeded)))) := by
  have hmem := List.mem_of_getElem? hi
  have hinvited : Inv { s with invited := s.invited ++ succeeded } := by
    refine ⟨fun g hg e he => ⟨fun p hp => ?_, (h.kept g hg e he).generation⟩, h.coherent⟩
    have hold := (h.kept g hg e he).members p
    unfold Execution.Counts at hp hold
    split at hp
    next hphase =>
      rw [hphase] at hold
      rcases hp with ⟨hpartner, hinvited⟩ | hp
      · rcases List.mem_append.mp hinvited with hinvited | hsucceeded
        · exact hold (.inl ⟨hpartner, hinvited⟩)
        · exact (h.kept g hg _ hmem).members p (.inr hsucceeded)
      · exact hold (.inr hp)
    next hphase =>
      rw [hphase] at hold
      exact hold hp
    next => exact hp.elim
  refine hinvited.setPhase fun g hg old hold => ?_
  obtain rfl := Option.some.inj (hi.symm.trans hold)
  refine ⟨fun p hp => ?_, fun _ _ _ hphase => by cases hphase⟩
  obtain ⟨hpartner, hset⟩ := List.mem_filter.mp hp
  rcases List.mem_append.mp (of_decide_eq_true hset) with hset | hsucceeded
  · exact (h.kept g hg _ hmem).members p (.inl ⟨hpartner, hset⟩)
  · exact (h.kept g hg _ hmem).members p (.inr hsucceeded)

theorem Inv.setPhase_of_counts (h : Inv s) {phase old : Phase}
    (hold : s.executions[i]?.map Execution.phase = some old)
    (hcounts : ∀ partners p, (Execution.mk partners phase).Counts s p →
      (Execution.mk partners old).Counts s p ∨ s.isMember p = true)
    (hphase : ∀ n waiting succeeded, phase = .inviting n waiting succeeded →
      ∃ waiting' succeeded', old = .inviting n waiting' succeeded') : Inv (s.setPhase i phase) := by
  refine h.setPhase fun g hg e he => ?_
  rw [he, Option.map_some, Option.some.injEq] at hold
  have hkept := h.kept g hg e (List.mem_of_getElem? he)
  constructor
  · intro p hp
    rcases hcounts e.partners p hp with hp | hp
    · rw [← hold] at hp
      exact hkept.members p hp
    · exact (isMember_iff hg).mp hp
  · intro n waiting succeeded hnew
    obtain ⟨waiting', succeeded', heq⟩ := hphase n waiting succeeded hnew
    exact hkept.generation n waiting' succeeded' (hold.trans heq)

theorem isMember_join (hgroup : s.group.isSome) : (s.join partner).isMember partner = true := by
  obtain ⟨g, hg⟩ := Option.isSome_iff_exists.mp hgroup
  unfold State.join State.isMember
  dsimp only
  rw [hg, Option.map_some, Option.any_some]
  exact decide_eq_true List.mem_cons_self

theorem Inv.inviteEnds (h : Inv s) {outcome : Outcome} {t : State}
    (hstep : inviteEnds s i partner outcome = some t) : Inv t := by
  unfold InvitedCache.inviteEnds at hstep
  split at hstep
  next n waiting succeeded hold =>
    obtain ⟨-, hstep⟩ := Option.ite_none_right_eq_some.mp hstep
    cases outcome with
    | joined =>
      obtain ⟨hgroup, ht⟩ := Option.ite_none_right_eq_some.mp hstep
      obtain rfl := Option.some.inj ht
      refine (h.join partner).setPhase_of_counts hold ?_ fun _ _ _ heq => ?_
      · rintro partners p (hp | hp)
        · exact .inl (.inl hp)
        · rcases List.mem_cons.mp hp with rfl | hp
          · exact .inr (isMember_join hgroup)
          · exact .inl (.inr hp)
      · obtain ⟨rfl, -, -⟩ := Phase.inviting.inj heq
        exact ⟨_, _, rfl⟩
    | joinedFormer =>
      obtain ⟨hother, ht⟩ := Option.ite_none_left_eq_some.mp hstep
      obtain rfl := Option.some.inj ht
      -- a group that is there is the one of the invitation
      refine h.setPhase fun g hg e he => ?_
      rw [he, Option.map_some, Option.some.injEq] at hold
      have hsame := (h.kept g hg e (List.mem_of_getElem? he)).generation n waiting succeeded hold
      rw [hg] at hother
      exact absurd (decide_eq_true hsame) hother
    | refused =>
      obtain rfl := Option.some.inj hstep
      refine h.setPhase_of_counts hold (fun _ _ hp => .inl hp) fun _ _ _ heq => ?_
      obtain ⟨rfl, -, -⟩ := Phase.inviting.inj heq
      exact ⟨_, _, rfl⟩
    | raised =>
      obtain rfl := Option.some.inj hstep
      exact h.setPhase_of_counts hold (fun _ _ hp => hp.elim) fun _ _ _ heq => by cases heq
  next n waiting hold =>
    obtain ⟨-, hstep⟩ := Option.ite_none_right_eq_some.mp hstep
    have habandoned (s' : State) (h' : Inv s') (rest : List String)
        (hold : s'.executions[i]?.map Execution.phase = some (.abandoned n waiting)) :
        Inv (s'.setPhase i (.abandoned n rest)) :=
      h'.setPhase_of_counts hold (fun _ _ hp => hp.elim) fun _ _ _ heq => by cases heq
    cases outcome with
    | joined =>
      obtain ⟨-, ht⟩ := Option.ite_none_right_eq_some.mp hstep
      obtain rfl := Option.some.inj ht
      exact habandoned _ (h.join partner) _ hold
    | joinedFormer | refused | raised =>
      obtain rfl := Option.some.inj hstep
      exact habandoned s h _ hold
  next => cases hstep

end Operations

theorem inv_step (s : State) (a : Act) (t : State) (h : Inv s) (hC : Careful s a)
    (hstep : step s a = some t) : Inv t := by
  cases a with
  | execute partners =>
    obtain rfl := Option.some.inj hstep
    refine ⟨fun g hg e he => ?_, h.coherent⟩
    rcases List.mem_append.mp he with he | he
    · exact ⟨(h.kept g hg e he).members, (h.kept g hg e he).generation⟩
    · rw [List.mem_singleton.mp he]
      split
      next => exact .of_not_busy rfl
      next =>
        split
        next hmapped =>
          have hkept := kept_ensure hg (hC hmapped)
          exact ⟨hkept.members, hkept.generation⟩
        next => exact .of_not_busy rfl
  | created i ok =>
    simp only [step] at hstep
    split at hstep
    next partners hi =>
      split at hstep
      next hok =>
        obtain rfl := Option.some.inj hstep
        obtain ⟨hcache, hbusy⟩ := hC hok
        refine (h.withGroup hbusy).setPhase fun g hg old hold => ?_
        have hsame : s.executions[i]? = some old := by
          rw [← hold]
          unfold State.withGroup
          split <;> rfl
        obtain rfl := Option.some.inj (hi.symm.trans hsame)
        exact kept_ensure hg (cacheTrue_withGroup (hcache _ hi))
      next =>
        obtain rfl := Option.some.inj hstep
        exact h.setPhase fun _ _ _ _ => .of_not_busy rfl
    next => cases hstep
  | inviteEnds i partner outcome => exact h.inviteEnds hstep
  | ensured i =>
    simp only [step] at hstep
    split at hstep
    next partners n succeeded hi =>
      obtain rfl := Option.some.inj hstep
      exact h.ensured hi
    next => cases hstep
  | start i published =>
    simp only [step] at hstep
    split at hstep
    next partner rest hold =>
      obtain rfl := Option.some.inj hstep
      obtain ⟨e, hi, hphase⟩ := Option.map_eq_some_iff.mp hold
      have hcounts : e.Counts s partner := by
        unfold Execution.Counts
        rw [hphase]
        exact List.mem_cons_self
      have hsame : (s.sendStart partner published).executions[i]?.map Execution.phase =
          some (.starting (partner :: rest)) := by
        rw [← hold]
        unfold State.sendStart
        split
        · split <;> rfl
        · rfl
      exact (h.sendStart (List.mem_of_getElem? hi) hcounts published).setPhase_of_counts hsame
        (fun _ _ hp => .inl (List.mem_cons_of_mem _ hp)) fun _ _ _ heq => by cases heq
    next => cases hstep
  | requestPartnerLeave partner =>
    obtain ⟨-, ht⟩ := Option.ite_none_right_eq_some.mp hstep
    obtain rfl := Option.some.inj ht
    exact h
  | leave partner =>
    obtain ⟨-, ht⟩ := Option.ite_none_right_eq_some.mp hstep
    obtain rfl := Option.some.inj ht
    exact h.depart hC
  | forceRemovePartner partner =>
    obtain ⟨-, ht⟩ := Option.ite_none_right_eq_some.mp hstep
    obtain rfl := Option.some.inj ht
    exact h.depart hC
  | dissolveGroup | expireGroup =>
    obtain rfl := Option.some.inj hstep
    refine ⟨?_, h.coherent⟩
    intro g hg
    cases hg

theorem starts_to_members {s : State} {actions : List Act} (hC : system.Meets Careful initial actions)
    (h : system.exec initial actions = some s) : Coherent s :=
  (system.exec_invariant inv_step inv_initial hC h).coherent

namespace Sample

def firstRun : List Act :=
  [.execute ["hotel"], .created 0 true, .inviteEnds 0 "hotel" .joined, .ensured 0, .start 0 true]

def secondRun : List Act := [.execute ["hotel"], .start 1 true]

end Sample

theorem removed_partner_started : ∃ s, system.exec initial
    (Sample.firstRun ++ .forceRemovePartner "hotel" :: Sample.secondRun) = some s ∧ ¬ Coherent s := by
  refine ⟨_, rfl, ?_⟩
  intro h
  have hlast := h ⟨"hotel", false⟩ (by decide)
  cases hlast

theorem member_started_again : ∃ s, system.exec initial (Sample.firstRun ++ Sample.secondRun) = some s ∧
    s.starts.length = 2 ∧ Coherent s := by
  have hcareful : system.Meets Careful initial (Sample.firstRun ++ Sample.secondRun) :=
    system.meets_of_check (fun _ _ h => of_decide_eq_true h)
      (show system.check (fun s a => decide (Careful s a)) initial
        (Sample.firstRun ++ Sample.secondRun) = true by decide +kernel)
  exact ⟨_, rfl, rfl, starts_to_members hcareful rfl⟩

end Acps.Assistant.InvitedCache
