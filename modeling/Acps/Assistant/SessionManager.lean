import Acps.Assistant.Session
import Acps.Lib.Transition

/-!
The sessions that a leader keeps, and the groups of those in the group mode.
-/

namespace Acps.Assistant.SessionGroups

open Transition
open Partner (Time)

structure StoredSession where
  sessionId : String
  mode : ExecutionMode
  groupId : Bool
  touchedAt : Time
  deriving DecidableEq

structure Dissolution where
  sessionId : String
  byCleanup : Bool
  deriving DecidableEq

structure Config where
  ttl : Time
  maxSessions : ℕ

/-- `sessions` is in the order of creation. `sessionGroupMap` is the map of the group manager and
`groupSessions` that of the group leader; `groups` are the groups that exist at the broker. `creating`
are the calls of `create_group_session` that have not returned, and `cleaning` the sessions that the
cleanup has dropped and not gone on with. -/
structure Store where
  sessions : List StoredSession
  sessionGroupMap : String → Bool
  groupSessions : String → Bool
  groups : String → Bool
  creating : List String
  cleaning : List StoredSession
  dissolving : List Dissolution

inductive SessionAct where
  | createSession (sessionId : String) (mode : ExecutionMode) (now : Time)
  | getSession (sessionId : String) (now : Time)
  | updateSession (sessionId : String) (now : Time)
  | syncGroup (sessionId : String)
  | cleanupExpired (now : Time)
  | cleanupNext
  | deleteSession (sessionId : String)
  | createGroup (sessionId : String)
  | groupCreated (sessionId : String)
  | groupFailed (sessionId : String)
  | leaderCleanup (sessionId : String)
  | dissolved (i : ℕ)
  | dissolutionFailed (i : ℕ)
  deriving DecidableEq

def StoredSession.expired (config : Config) (session : StoredSession) (now : Time) : Bool :=
  session.touchedAt + config.ttl < now

namespace Store

def initial : Store :=
  { sessions := [], sessionGroupMap := fun _ => false, groupSessions := fun _ => false
    groups := fun _ => false, creating := [], cleaning := [], dissolving := [] }

variable (config : Config) (s : Store)

def evicted : List StoredSession := s.sessions.take (s.sessions.length + 1 - config.maxSessions)

def createSession (sessionId : String) (mode : ExecutionMode) (now : Time) : Option Store :=
  if 0 < config.maxSessions ∧ sessionId ∉ s.sessions.map StoredSession.sessionId then
    some { s with
      sessions := s.sessions.drop (s.sessions.length + 1 - config.maxSessions) ++
        [{ sessionId, mode, groupId := false, touchedAt := now }] }
  else none

def goneOnAccess (sessionId : String) (now : Time) (session : StoredSession) : Bool :=
  session.sessionId = sessionId && session.expired config now

def getSession (sessionId : String) (now : Time) : Store :=
  { s with sessions := s.sessions.filter fun session => !goneOnAccess config sessionId now session }

def updateSession (sessionId : String) (now : Time) : Store :=
  { s with sessions := Keyed.modify StoredSession.sessionId s.sessions sessionId fun session =>
      { session with touchedAt := now } }

def syncGroup (sessionId : String) : Store :=
  { s with sessions := Keyed.modify StoredSession.sessionId s.sessions sessionId fun session =>
      { session with groupId := session.groupId || session.mode = .group } }

def leaderDissolve (d : Dissolution) : Store :=
  if s.groupSessions d.sessionId then
    { s with
      groupSessions := Function.update s.groupSessions d.sessionId false
      dissolving := s.dissolving ++ [d] }
  else s

def dissolveGroupForSession (d : Dissolution) : Store :=
  if s.sessionGroupMap d.sessionId then
    { s with sessionGroupMap := Function.update s.sessionGroupMap d.sessionId false
      }.leaderDissolve d
  else s

def resolveGroupId (session : StoredSession) : Bool :=
  session.groupId || s.sessionGroupMap session.sessionId

def dissolveGroupOf (session : StoredSession) (byCleanup : Bool) : Store :=
  if session.mode = .group ∧ s.resolveGroupId session then
    s.dissolveGroupForSession { sessionId := session.sessionId, byCleanup }
  else s

def cleanupIdle : Bool := s.dissolving.all fun d => !d.byCleanup

def cleanupExpired (now : Time) : Option Store :=
  if s.cleaning = [] ∧ s.cleanupIdle then
    some { s with
      sessions := s.sessions.filter fun session => !session.expired config now
      cleaning := s.sessions.filter fun session => session.expired config now }
  else none

def cleanupNext : Option Store :=
  match s.cleaning with
  | [] => none
  | session :: rest =>
    if s.cleanupIdle then some ({ s with cleaning := rest }.dissolveGroupOf session true) else none

def deleteSession (sessionId : String) : Store :=
  match Keyed.find StoredSession.sessionId s.sessions sessionId with
  | none => s
  | some session =>
    { s with sessions := s.sessions.filter fun other => other.sessionId ≠ sessionId
      }.dissolveGroupOf session false

def createGroup (sessionId : String) : Store :=
  if s.sessionGroupMap sessionId then s else { s with creating := s.creating ++ [sessionId] }

def groupCreated (sessionId : String) : Option Store :=
  if sessionId ∈ s.creating then
    some { s with
      creating := s.creating.erase sessionId
      groups := Function.update s.groups sessionId true
      groupSessions := Function.update s.groupSessions sessionId true
      sessionGroupMap := Function.update s.sessionGroupMap sessionId true }
  else none

def groupFailed (sessionId : String) : Option Store :=
  if sessionId ∈ s.creating then some { s with creating := s.creating.erase sessionId } else none

def leaderCleanup (sessionId : String) : Option Store :=
  if s.groupSessions sessionId then
    some (s.leaderDissolve { sessionId, byCleanup := false })
  else none

def dissolved (i : ℕ) : Option Store :=
  (s.dissolving[i]?).map fun d =>
    { s with
      dissolving := s.dissolving.eraseIdx i
      groups := Function.update s.groups d.sessionId false }

def dissolutionFailed (i : ℕ) : Option Store :=
  (s.dissolving[i]?).map fun _ => { s with dissolving := s.dissolving.eraseIdx i }

def step : SessionAct → Option Store
  | .createSession sessionId mode now => s.createSession config sessionId mode now
  | .getSession sessionId now => some (s.getSession config sessionId now)
  | .updateSession sessionId now => some (s.updateSession sessionId now)
  | .syncGroup sessionId => some (s.syncGroup sessionId)
  | .cleanupExpired now => s.cleanupExpired config now
  | .cleanupNext => s.cleanupNext
  | .deleteSession sessionId => some (s.deleteSession sessionId)
  | .createGroup sessionId => some (s.createGroup sessionId)
  | .groupCreated sessionId => s.groupCreated sessionId
  | .groupFailed sessionId => s.groupFailed sessionId
  | .leaderCleanup sessionId => s.leaderCleanup sessionId
  | .dissolved i => s.dissolved i
  | .dissolutionFailed i => s.dissolutionFailed i

end Store

def sessionGroups (config : Config) : System Store SessionAct := ⟨fun s => s.step config⟩

namespace Store

variable {config : Config} {s t : Store} {sessionId : String}

def Dissolving (s : Store) (sessionId : String) : Prop :=
  ∃ d ∈ s.dissolving, d.sessionId = sessionId

def HasGroupSession (sessions : List StoredSession) (sessionId : String) : Prop :=
  ∃ session ∈ sessions, session.sessionId = sessionId ∧ session.mode = .group

/-- Every group belongs to a stored session, or to one that the cleanup still has to go on with, or its
dissolution is in progress. -/
def NoLeakedGroup (s : Store) : Prop :=
  ∀ sessionId, s.groups sessionId = true →
    sessionId ∈ s.sessions.map StoredSession.sessionId ∨ HasGroupSession s.cleaning sessionId ∨
      s.Dissolving sessionId

def Droppable (s : Store) (sessionId : String) : Prop :=
  s.groups sessionId = true → s.Dissolving sessionId

/-- Sessions that are evicted or expire on access have no group; the session of a group is not dropped
while the group is being created; and no dissolution fails. -/
def Kept (config : Config) (s : Store) : SessionAct → Prop
  | .createSession _ _ _ => ∀ session ∈ s.evicted config, s.Droppable session.sessionId
  | .getSession sessionId now => ∀ session ∈ s.sessions,
    goneOnAccess config sessionId now session = true → s.Droppable session.sessionId
  | .groupCreated sessionId => HasGroupSession (s.sessions ++ s.cleaning) sessionId
  | .dissolutionFailed _ => False
  | _ => True

structure Inv (s : Store) : Prop where
  unique : Keyed.Unique StoredSession.sessionId s.sessions
  known : ∀ sessionId, s.groups sessionId = true →
    s.sessionGroupMap sessionId = true ∧ s.groupSessions sessionId = true ∨ s.Dissolving sessionId
  owned : ∀ sessionId, s.groups sessionId = true →
    HasGroupSession s.sessions sessionId ∨ HasGroupSession s.cleaning sessionId ∨
      s.Dissolving sessionId

theorem Inv.noLeakedGroup (h : s.Inv) : s.NoLeakedGroup := by
  intro sessionId hgroup
  rcases h.owned sessionId hgroup with ⟨session, hsession, rfl, -⟩ | hpending
  · exact .inl (List.mem_map_of_mem hsession)
  · exact .inr hpending

structure Dissolves (s t : Store) (sessionId : String) : Prop where
  sessions : t.sessions = s.sessions
  cleaning : t.cleaning = s.cleaning
  groups : t.groups = s.groups
  dissolving : ∀ other, s.Dissolving other → t.Dissolving other
  others : ∀ other ≠ sessionId, t.sessionGroupMap other = s.sessionGroupMap other ∧
    t.groupSessions other = s.groupSessions other
  known : s.sessionGroupMap sessionId = true → s.groupSessions sessionId = true →
    t.sessionGroupMap sessionId = true ∧ t.groupSessions sessionId = true ∨ t.Dissolving sessionId

theorem Dissolves.refl (s : Store) (sessionId : String) : Dissolves s s sessionId :=
  ⟨rfl, rfl, rfl, fun _ h => h, fun _ _ => ⟨rfl, rfl⟩, fun hmap hleader => .inl ⟨hmap, hleader⟩⟩

theorem leaderDissolve_dissolves (s : Store) (d : Dissolution) :
    Dissolves s (s.leaderDissolve d) d.sessionId := by
  unfold leaderDissolve
  split
  next =>
    refine ⟨rfl, rfl, rfl, ?_, ?_, ?_⟩
    · rintro other ⟨d', hd', rfl⟩
      exact ⟨d', List.mem_append_left _ hd', rfl⟩
    · intro other hother
      exact ⟨rfl, Function.update_of_ne hother _ _⟩
    · intro _ _
      exact .inr ⟨d, List.mem_append_right _ List.mem_cons_self, rfl⟩
  next => exact Dissolves.refl s _

theorem dissolveGroupForSession_dissolves (s : Store) (d : Dissolution) :
    Dissolves s (s.dissolveGroupForSession d) d.sessionId ∧
      (s.sessionGroupMap d.sessionId = true → s.groupSessions d.sessionId = true →
        (s.dissolveGroupForSession d).Dissolving d.sessionId) := by
  unfold dissolveGroupForSession
  split
  next =>
    have hleader := leaderDissolve_dissolves
      { s with sessionGroupMap := Function.update s.sessionGroupMap d.sessionId false } d
    have hknown (hgroup : s.groupSessions d.sessionId = true) :
        (leaderDissolve { s with
          sessionGroupMap := Function.update s.sessionGroupMap d.sessionId false } d).Dissolving
            d.sessionId := by
      unfold leaderDissolve
      rw [if_pos hgroup]
      exact ⟨d, List.mem_append_right _ List.mem_cons_self, rfl⟩
    refine ⟨⟨hleader.sessions, hleader.cleaning, hleader.groups, hleader.dissolving, ?_, ?_⟩,
      fun _ => hknown⟩
    · intro other hother
      obtain ⟨hmap, hgroup⟩ := hleader.others other hother
      exact ⟨hmap.trans (Function.update_of_ne hother _ _), hgroup⟩
    · exact fun _ hgroup => .inr (hknown hgroup)
  next hmap => exact ⟨Dissolves.refl s _, fun h => (hmap h).elim⟩

theorem dissolveGroupOf_dissolves (s : Store) (session : StoredSession) (byCleanup : Bool) :
    Dissolves s (s.dissolveGroupOf session byCleanup) session.sessionId ∧
      (session.mode = .group → s.sessionGroupMap session.sessionId = true →
        s.groupSessions session.sessionId = true →
        (s.dissolveGroupOf session byCleanup).Dissolving session.sessionId) := by
  unfold dissolveGroupOf
  split
  next =>
    obtain ⟨hdissolves, hdissolving⟩ :=
      s.dissolveGroupForSession_dissolves { sessionId := session.sessionId, byCleanup }
    exact ⟨hdissolves, fun _ => hdissolving⟩
  next hnot =>
    refine ⟨Dissolves.refl s _, ?_⟩
    intro hmode hmap _
    apply (hnot ⟨hmode, _⟩).elim
    unfold resolveGroupId
    rw [hmap, Bool.or_true]

theorem inv_dissolve (hunique : Keyed.Unique StoredSession.sessionId s.sessions)
    (hknown : ∀ sessionId, s.groups sessionId = true →
      s.sessionGroupMap sessionId = true ∧ s.groupSessions sessionId = true ∨ s.Dissolving sessionId)
    (hdissolves : Dissolves s t sessionId)
    (howned : ∀ other, s.groups other = true → HasGroupSession s.sessions other ∨
      HasGroupSession s.cleaning other ∨ t.Dissolving other) : t.Inv where
  unique := by
    rw [hdissolves.sessions]
    exact hunique
  known := by
    intro other hgroup
    rw [hdissolves.groups] at hgroup
    rcases hknown other hgroup with ⟨hmap, hleader⟩ | hdissolving
    · by_cases heq : other = sessionId
      · subst heq
        exact hdissolves.known hmap hleader
      · obtain ⟨hmap', hleader'⟩ := hdissolves.others other heq
        exact .inl ⟨hmap'.trans hmap, hleader'.trans hleader⟩
    · exact .inr (hdissolves.dissolving other hdissolving)
  owned := by
    intro other hgroup
    rw [hdissolves.groups] at hgroup
    rw [hdissolves.sessions, hdissolves.cleaning]
    exact howned other hgroup

theorem inv_sessions (h : s.Inv) (hsame : t.groups = s.groups ∧
      t.sessionGroupMap = s.sessionGroupMap ∧ t.groupSessions = s.groupSessions ∧
      t.dissolving = s.dissolving)
    (howned : ∀ other, s.groups other = true → HasGroupSession s.sessions other →
      HasGroupSession t.sessions other ∨ HasGroupSession t.cleaning other ∨ s.Dissolving other)
    (hcleaning : ∀ session ∈ s.cleaning, session ∈ t.cleaning)
    (hunique : Keyed.Unique StoredSession.sessionId t.sessions) : t.Inv := by
  obtain ⟨hgroups, hmap, hleader, hdissolving⟩ := hsame
  have hpending {other : String} : t.Dissolving other ↔ s.Dissolving other := by
    unfold Dissolving
    rw [hdissolving]
  refine ⟨hunique, ?_, ?_⟩
  · intro other hgroup
    rw [hgroups] at hgroup
    rw [hmap, hleader, hpending]
    exact h.known other hgroup
  · intro other hgroup
    rw [hgroups] at hgroup
    rw [hpending]
    rcases h.owned other hgroup with hstored | ⟨session, hsession, hsame⟩ | hdone
    · exact howned other hgroup hstored
    · exact .inr (.inl ⟨session, hcleaning session hsession, hsame⟩)
    · exact .inr (.inr hdone)

theorem inv_modify (h : s.Inv) {f : StoredSession → StoredSession}
    (hid : ∀ session, (f session).sessionId = session.sessionId)
    (hmode : ∀ session, (f session).mode = session.mode) :
    Inv { s with sessions := Keyed.modify StoredSession.sessionId s.sessions sessionId f } := by
  refine inv_sessions h ⟨rfl, rfl, rfl, rfl⟩ ?_ (fun _ hmem => hmem)
    (Keyed.unique_modify (fun session _ _ => hid session) h.unique)
  rintro other - ⟨session, hsession, hother, hgroup⟩
  refine .inl ⟨_, Keyed.mem_modify.mpr ⟨session, hsession, rfl⟩, ?_⟩
  split
  · exact ⟨(hid session).trans hother, (hmode session).trans hgroup⟩
  · exact ⟨hother, hgroup⟩

section Steps

variable {a : SessionAct}

theorem inv_createSession (h : s.Inv) {mode : ExecutionMode} {now : Time}
    (hC : s.Kept config (.createSession sessionId mode now))
    (ht : s.createSession config sessionId mode now = some t) : t.Inv := by
  obtain ⟨⟨-, hfresh⟩, ht⟩ := Option.ite_none_right_eq_some.mp ht
  obtain rfl := Option.some.inj ht
  have hunique : Keyed.Unique StoredSession.sessionId
      (s.sessions.drop (s.sessions.length + 1 - config.maxSessions)) :=
    h.unique.sublist ((List.drop_sublist _ _).map _)
  refine inv_sessions h ⟨rfl, rfl, rfl, rfl⟩ ?_ (fun _ hmem => hmem)
    (Keyed.unique_append hunique ?_)
  rotate_left
  · rintro session hsession rfl
    exact hfresh (List.mem_map_of_mem (List.mem_of_mem_drop hsession))
  rintro other hgroup ⟨session, hsession, rfl, hmode⟩
  rw [← List.take_append_drop (s.sessions.length + 1 - config.maxSessions) s.sessions] at hsession
  rcases List.mem_append.mp hsession with hevicted | hkept
  · exact .inr (.inr (hC session hevicted hgroup))
  · exact .inl ⟨session, List.mem_append_left _ hkept, rfl, hmode⟩

theorem inv_getSession (h : s.Inv) {now : Time} (hC : s.Kept config (.getSession sessionId now)) :
    (s.getSession config sessionId now).Inv := by
  refine inv_sessions h ⟨rfl, rfl, rfl, rfl⟩ ?_ (fun _ hmem => hmem)
    (h.unique.sublist (List.filter_sublist.map _))
  rintro other hgroup ⟨session, hsession, rfl, hmode⟩
  by_cases hgone : goneOnAccess config sessionId now session = true
  · exact .inr (.inr (hC session hsession hgone hgroup))
  · refine .inl ⟨session, List.mem_filter.mpr ⟨hsession, ?_⟩, rfl, hmode⟩
    simpa using hgone

theorem inv_cleanupExpired (h : s.Inv) {now : Time} (ht : s.cleanupExpired config now = some t) :
    t.Inv := by
  obtain ⟨⟨hempty, -⟩, ht⟩ := Option.ite_none_right_eq_some.mp ht
  obtain rfl := Option.some.inj ht
  refine inv_sessions h ⟨rfl, rfl, rfl, rfl⟩ ?_ ?_ (h.unique.sublist (List.filter_sublist.map _))
  · rintro other - ⟨session, hsession, hother, hmode⟩
    by_cases hexpired : session.expired config now = true
    · exact .inr (.inl ⟨session, List.mem_filter.mpr ⟨hsession, hexpired⟩, hother, hmode⟩)
    · refine .inl ⟨session, List.mem_filter.mpr ⟨hsession, ?_⟩, hother, hmode⟩
      simpa using hexpired
  · intro session hsession
    rw [hempty] at hsession
    cases hsession

theorem inv_dissolveGroupOf {session : StoredSession} {byCleanup : Bool}
    (hunique : Keyed.Unique StoredSession.sessionId s.sessions)
    (hknown : ∀ other, s.groups other = true →
      s.sessionGroupMap other = true ∧ s.groupSessions other = true ∨ s.Dissolving other)
    (howned : ∀ other, s.groups other = true →
      HasGroupSession (session :: s.sessions) other ∨ HasGroupSession (session :: s.cleaning) other ∨
        s.Dissolving other) : (s.dissolveGroupOf session byCleanup).Inv := by
  obtain ⟨hdissolves, hdissolving⟩ := s.dissolveGroupOf_dissolves session byCleanup
  have hsession (hmode : session.mode = .group) (hgroup : s.groups session.sessionId = true) :
      (s.dissolveGroupOf session byCleanup).Dissolving session.sessionId := by
    rcases hknown _ hgroup with ⟨hmap, hleader⟩ | hdone
    · exact hdissolving hmode hmap hleader
    · exact hdissolves.dissolving _ hdone
  apply inv_dissolve hunique hknown hdissolves
  intro other hgroup
  rcases howned other hgroup with ⟨found, hfound, hother, hmode⟩ | ⟨found, hfound, hother, hmode⟩ | hdone
  · rcases List.mem_cons.mp hfound with rfl | hfound
    · subst hother
      exact .inr (.inr (hsession hmode hgroup))
    · exact .inl ⟨found, hfound, hother, hmode⟩
  · rcases List.mem_cons.mp hfound with rfl | hfound
    · subst hother
      exact .inr (.inr (hsession hmode hgroup))
    · exact .inr (.inl ⟨found, hfound, hother, hmode⟩)
  · exact .inr (.inr (hdissolves.dissolving other hdone))

theorem inv_cleanupNext (h : s.Inv) (ht : s.cleanupNext = some t) : t.Inv := by
  unfold cleanupNext at ht
  split at ht
  · cases ht
  next session rest hcleaning =>
    obtain ⟨-, ht⟩ := Option.ite_none_right_eq_some.mp ht
    obtain rfl := Option.some.inj ht
    refine inv_dissolveGroupOf (s := { s with cleaning := rest }) h.unique h.known ?_
    intro other hgroup
    rcases h.owned other hgroup with ⟨found, hfound, hsame⟩ | hpending | hdone
    · exact .inl ⟨found, List.mem_cons_of_mem _ hfound, hsame⟩
    · rw [hcleaning] at hpending
      exact .inr (.inl hpending)
    · exact .inr (.inr hdone)

theorem inv_deleteSession (h : s.Inv) (sessionId : String) : (s.deleteSession sessionId).Inv := by
  unfold deleteSession
  split
  next => exact h
  next session hfind =>
    have hid : session.sessionId = sessionId := Keyed.key_of_find hfind
    refine inv_dissolveGroupOf
      (s := { s with sessions := s.sessions.filter fun other => other.sessionId ≠ sessionId })
      (h.unique.sublist (List.filter_sublist.map _)) h.known ?_
    intro other hgroup
    rcases h.owned other hgroup with ⟨found, hfound, hsame⟩ | ⟨found, hfound, hsame⟩ | hdone
    · refine .inl ⟨found, ?_, hsame⟩
      by_cases heq : found.sessionId = sessionId
      · rw [h.unique.eq_of_key hfound (Keyed.mem_of_find hfind) (heq.trans hid.symm)]
        exact List.mem_cons_self
      · exact List.mem_cons_of_mem _ (List.mem_filter.mpr ⟨hfound, decide_eq_true heq⟩)
    · exact .inr (.inl ⟨found, List.mem_cons_of_mem _ hfound, hsame⟩)
    · exact .inr (.inr hdone)

theorem inv_createGroup (h : s.Inv) (sessionId : String) : (s.createGroup sessionId).Inv := by
  unfold createGroup
  split
  · exact h
  · exact ⟨h.unique, h.known, h.owned⟩

theorem inv_groupCreated (h : s.Inv) (hC : s.Kept config (.groupCreated sessionId))
    (ht : s.groupCreated sessionId = some t) : t.Inv := by
  obtain ⟨-, ht⟩ := Option.ite_none_right_eq_some.mp ht
  obtain rfl := Option.some.inj ht
  refine ⟨h.unique, ?_, ?_⟩
  · intro other hgroup
    by_cases heq : other = sessionId
    · subst heq
      exact .inl ⟨Function.update_self .., Function.update_self ..⟩
    · dsimp only at hgroup ⊢
      rw [Function.update_of_ne heq] at hgroup
      rw [Function.update_of_ne heq, Function.update_of_ne heq]
      exact h.known other hgroup
  · intro other hgroup
    by_cases heq : other = sessionId
    · subst heq
      obtain ⟨session, hsession, hsame⟩ := hC
      rcases List.mem_append.mp hsession with hstored | hcleaning
      · exact .inl ⟨session, hstored, hsame⟩
      · exact .inr (.inl ⟨session, hcleaning, hsame⟩)
    · dsimp only at hgroup
      rw [Function.update_of_ne heq] at hgroup
      exact h.owned other hgroup

theorem inv_dissolved (h : s.Inv) {i : ℕ} (ht : s.dissolved i = some t) : t.Inv := by
  obtain ⟨d, hd, rfl⟩ := Option.map_eq_some_iff.mp ht
  have hothers {other : String} (hother : other ≠ d.sessionId) (hdone : s.Dissolving other) :
      ∃ d' ∈ s.dissolving.eraseIdx i, d'.sessionId = other := by
    obtain ⟨d', hd', rfl⟩ := hdone
    obtain ⟨j, hj⟩ := List.mem_iff_getElem?.mp hd'
    refine ⟨d', List.mem_eraseIdx_iff_getElem?.mpr ⟨j, ?_, hj⟩, rfl⟩
    rintro rfl
    obtain rfl := Option.some.inj (hd.symm.trans hj)
    exact hother rfl
  have hgroup {other : String}
      (hgroup : Function.update s.groups d.sessionId false other = true) :
      other ≠ d.sessionId ∧ s.groups other = true := by
    by_cases heq : other = d.sessionId
    · subst heq
      rw [Function.update_self] at hgroup
      cases hgroup
    · rw [Function.update_of_ne heq] at hgroup
      exact ⟨heq, hgroup⟩
  refine ⟨h.unique, ?_, ?_⟩
  · intro other hother
    obtain ⟨hne, hold⟩ := hgroup hother
    exact (h.known other hold).imp_right (hothers hne)
  · intro other hother
    obtain ⟨hne, hold⟩ := hgroup hother
    exact (h.owned other hold).imp_right (Or.imp_right (hothers hne))

theorem inv_step (h : s.Inv) (hC : s.Kept config a) (ht : s.step config a = some t) : t.Inv := by
  cases a with
  | createSession sessionId mode now => exact inv_createSession h hC ht
  | getSession sessionId now =>
    obtain rfl := Option.some.inj ht
    exact inv_getSession h hC
  | updateSession sessionId now =>
    obtain rfl := Option.some.inj ht
    exact inv_modify h (fun _ => rfl) fun _ => rfl
  | syncGroup sessionId =>
    obtain rfl := Option.some.inj ht
    exact inv_modify h (fun _ => rfl) fun _ => rfl
  | cleanupExpired now => exact inv_cleanupExpired h ht
  | cleanupNext => exact inv_cleanupNext h ht
  | deleteSession sessionId =>
    obtain rfl := Option.some.inj ht
    exact inv_deleteSession h sessionId
  | createGroup sessionId =>
    obtain rfl := Option.some.inj ht
    exact inv_createGroup h sessionId
  | groupCreated sessionId => exact inv_groupCreated h hC ht
  | groupFailed sessionId =>
    obtain ⟨-, ht⟩ := Option.ite_none_right_eq_some.mp ht
    obtain rfl := Option.some.inj ht
    exact ⟨h.unique, h.known, h.owned⟩
  | leaderCleanup sessionId =>
    obtain ⟨-, ht⟩ := Option.ite_none_right_eq_some.mp ht
    obtain rfl := Option.some.inj ht
    have hdissolves := s.leaderDissolve_dissolves { sessionId, byCleanup := false }
    apply inv_dissolve h.unique h.known hdissolves
    intro other hgroup
    exact (h.owned other hgroup).imp_right (Or.imp_right (hdissolves.dissolving other))
  | dissolved i => exact inv_dissolved h ht
  | dissolutionFailed i => exact hC.elim

end Steps

theorem no_leaked_group {schedule : List SessionAct}
    (hC : (sessionGroups config).Meets (Kept config) initial schedule)
    (hrun : (sessionGroups config).exec initial schedule = some s) : s.NoLeakedGroup := by
  have hinitial : initial.Inv := by
    refine ⟨List.nodup_nil, ?_, ?_⟩ <;>
    · intro sessionId hgroup
      cases hgroup
  exact ((sessionGroups config).exec_invariant (fun _ _ _ h hC ht => inv_step h hC ht)
    hinitial hC hrun).noLeakedGroup

instance (config : Config) (s : Store) (a : SessionAct) : Decidable (s.Kept config a) := by
  cases a with
  | createSession =>
    exact inferInstanceAs (Decidable (∀ session ∈ s.evicted config,
      s.groups session.sessionId = true → ∃ d ∈ s.dissolving, d.sessionId = session.sessionId))
  | getSession sessionId now =>
    exact inferInstanceAs (Decidable (∀ session ∈ s.sessions,
      goneOnAccess config sessionId now session = true →
        s.groups session.sessionId = true → ∃ d ∈ s.dissolving, d.sessionId = session.sessionId))
  | groupCreated sessionId =>
    exact inferInstanceAs (Decidable (∃ session ∈ s.sessions ++ s.cleaning,
      session.sessionId = sessionId ∧ session.mode = .group))
  | dissolutionFailed => exact instDecidableFalse
  | updateSession | syncGroup | cleanupExpired | cleanupNext | deleteSession | createGroup
  | groupFailed | leaderCleanup | dissolved => exact instDecidableTrue

namespace Sample

def oneSession : Config := { ttl := 60, maxSessions := 1 }

def grouped : List SessionAct :=
  [.createSession "a" .group 0, .createGroup "a", .groupCreated "a", .syncGroup "a"]

end Sample

theorem expired_group_dissolved :
    ∃ s, (sessionGroups Sample.oneSession).exec initial
        (Sample.grouped ++ [.cleanupExpired 61, .cleanupNext]) = some s ∧
      s.sessions = [] ∧ s.groups "a" = true ∧ s.NoLeakedGroup := by
  have hruns : ((sessionGroups Sample.oneSession).exec initial
      (Sample.grouped ++ [.cleanupExpired 61, .cleanupNext])).any (fun s =>
        s.sessions = [] ∧ s.groups "a" = true) = true := by
    decide +kernel
  obtain ⟨s, hs, hends⟩ := (Option.any_eq_true _ _).mp hruns
  obtain ⟨hempty, hgroup⟩ := of_decide_eq_true hends
  refine ⟨s, hs, hempty, hgroup, no_leaked_group ?_ hs⟩
  exact (sessionGroups Sample.oneSession).meets_of_check (fun _ _ h => of_decide_eq_true h)
    (show (sessionGroups Sample.oneSession).check (fun s a => decide (s.Kept Sample.oneSession a)) initial
      (Sample.grouped ++ [.cleanupExpired 61, .cleanupNext]) = true by decide +kernel)

theorem evicted_group_leaks :
    ∃ s, (sessionGroups Sample.oneSession).exec initial
        (Sample.grouped ++ [.createSession "b" .group 1]) = some s ∧ ¬ s.NoLeakedGroup := by
  have hruns : ((sessionGroups Sample.oneSession).exec initial
      (Sample.grouped ++ [.createSession "b" .group 1])).any (fun s =>
        s.groups "a" = true ∧ s.sessions.map StoredSession.sessionId = ["b"] ∧
          s.cleaning = [] ∧ s.dissolving = []) = true := by
    decide +kernel
  obtain ⟨s, hs, hends⟩ := (Option.any_eq_true _ _).mp hruns
  obtain ⟨hgroup, hsessions, hcleaning, hdissolving⟩ := of_decide_eq_true hends
  refine ⟨s, hs, ?_⟩
  intro hkept
  have hleaked := hkept "a" hgroup
  unfold HasGroupSession Dissolving at hleaked
  rw [hsessions, hcleaning, hdissolving] at hleaked
  simp at hleaked

end Store

end Acps.Assistant.SessionGroups
