import Acps.Lib.Transition
import Acps.Mq.Authz

/-!
Changes and checks of the groups in every interleaving of their waits for Redis, with Redis failing
at any of its calls: whether a member that was removed is still let in.
-/

namespace Acps.Mq

open Aic (Text PyError)

namespace Acl

variable (acl : Acl)

def cachedMembers (cacheKey : Text) : Finset Text := (acl.localCache cacheKey).getD ∅

def sadd (cacheKey memberAic : Text) : Acl :=
  { acl with redis := Function.update acl.redis cacheKey (insert memberAic (acl.redis cacheKey)) }

def srem (cacheKey memberAic : Text) : Acl :=
  { acl with redis := Function.update acl.redis cacheKey ((acl.redis cacheKey).erase memberAic) }

def delete (cacheKey : Text) : Acl := { acl with redis := Function.update acl.redis cacheKey ∅ }

def pop (cacheKey : Text) : Acl :=
  { acl with localCache := Function.update acl.localCache cacheKey none }

def cacheAdded (cacheKey memberAic : Text) : Acl :=
  acl.cacheMembers cacheKey (insert memberAic (acl.cachedMembers cacheKey))

def cacheRemoved (cacheKey memberAic : Text) : Acl :=
  let cachedMembers := (acl.cachedMembers cacheKey).erase memberAic
  if cachedMembers = ∅ then acl.pop cacheKey else acl.cacheMembers cacheKey cachedMembers

end Acl

inductive AclCall where
  | addMember (leaderAic groupId memberAic : Text)
  | removeMember (leaderAic groupId memberAic : Text)
  | deleteGroup (leaderAic groupId : Text)
  | checkGroupMembership (leaderAic groupId requesterAic : Text)

inductive AclPoint where
  | idle
  | addSadd (cacheKey memberAic : Text) (served : Bool)
  | addExpire (cacheKey memberAic : Text)
  | removeSrem (cacheKey memberAic : Text) (served : Bool)
  | removeExpire (cacheKey memberAic : Text)
  | deleteDelete (cacheKey : Text) (served : Bool)
  | checkSismember (cacheKey requesterAic : Text) (reply : Option Bool)
  | checkSmembers (cacheKey requesterAic : Text) (isMember : Bool) (reply : Option (Finset Text))

def AclCall.begin : AclCall → Except PyError AclPoint
  | .addMember leaderAic groupId memberAic => do
    ensureValidIdentifiers leaderAic groupId (some memberAic)
    return .addSadd (buildCacheKey leaderAic groupId) memberAic false
  | .removeMember leaderAic groupId memberAic => do
    ensureValidIdentifiers leaderAic groupId (some memberAic)
    return .removeSrem (buildCacheKey leaderAic groupId) memberAic false
  | .deleteGroup leaderAic groupId => do
    ensureValidIdentifiers leaderAic groupId none
    return .deleteDelete (buildCacheKey leaderAic groupId) false
  | .checkGroupMembership leaderAic groupId requesterAic => do
    ensureValidIdentifiers leaderAic groupId (some requesterAic)
    return .checkSismember (buildCacheKey leaderAic groupId) requesterAic none

namespace Acl

variable (acl : Acl)

def serve : AclPoint → Option (Acl × AclPoint)
  | .addSadd cacheKey memberAic false =>
    some (acl.sadd cacheKey memberAic, .addSadd cacheKey memberAic true)
  | .removeSrem cacheKey memberAic false =>
    some (acl.srem cacheKey memberAic, .removeSrem cacheKey memberAic true)
  | .deleteDelete cacheKey false => some (acl.delete cacheKey, .deleteDelete cacheKey true)
  | .checkSismember cacheKey requesterAic none =>
    some (acl, .checkSismember cacheKey requesterAic (some (requesterAic ∈ acl.redis cacheKey)))
  | .checkSmembers cacheKey requesterAic isMember none =>
    some (acl, .checkSmembers cacheKey requesterAic isMember (some (acl.redis cacheKey)))
  | _ => none

def resume : AclPoint → Option (Acl × AclPoint × Option Bool)
  | .addSadd cacheKey memberAic true => some (acl, .addExpire cacheKey memberAic, none)
  | .addExpire cacheKey memberAic => some (acl.cacheAdded cacheKey memberAic, .idle, none)
  | .removeSrem cacheKey memberAic true => some (acl, .removeExpire cacheKey memberAic, none)
  | .removeExpire cacheKey memberAic => some (acl.cacheRemoved cacheKey memberAic, .idle, none)
  | .deleteDelete cacheKey true => some (acl.pop cacheKey, .idle, none)
  | .checkSismember cacheKey requesterAic (some isMember) =>
    if acl.localCache cacheKey = none then
      some (acl, .checkSmembers cacheKey requesterAic isMember none, none)
    else some (acl, .idle, some isMember)
  | .checkSmembers cacheKey _ isMember (some members) =>
    some (acl.cacheMembers cacheKey members, .idle, some isMember)
  | _ => none

def raised : AclPoint → Option (Option Bool)
  | .idle => none
  | .checkSismember cacheKey requesterAic _ =>
    some (some (requesterAic ∈ acl.cachedMembers cacheKey))
  | .checkSmembers _ _ isMember _ => some (some isMember)
  | _ => some none

end Acl

namespace AclPoint

def requested : AclPoint → Option (Text × Text)
  | .checkSismember cacheKey requesterAic _ => some (cacheKey, requesterAic)
  | .checkSmembers cacheKey requesterAic _ _ => some (cacheKey, requesterAic)
  | _ => none

def fallsBack : AclPoint → Bool
  | .checkSismember _ _ _ => true
  | _ => false

def granted : AclPoint → Bool
  | .checkSismember _ _ reply => reply = some true
  | .checkSmembers _ _ isMember _ => isMember
  | _ => false

def added : AclPoint → Option (Text × Text)
  | .addSadd cacheKey memberAic _ => some (cacheKey, memberAic)
  | _ => none

def Removes : AclPoint → Text → Text → Prop
  | .removeSrem cacheKey memberAic true, k, m => k = cacheKey ∧ m = memberAic
  | .removeExpire cacheKey memberAic, k, m => k = cacheKey ∧ m = memberAic
  | .deleteDelete cacheKey true, k, _ => k = cacheKey
  | _, _, _ => False

def Stores : AclPoint → Text → Text → Prop
  | .addExpire cacheKey memberAic, k, m => k = cacheKey ∧ m = memberAic
  | .checkSmembers cacheKey _ _ (some members), k, m => k = cacheKey ∧ m ∈ members
  | _, _, _ => False

end AclPoint

structure AclTask where
  point : AclPoint
  late : Bool

structure AclAnswer where
  late : Bool
  isMember : Bool
  deriving DecidableEq

structure AclPool where
  acl : Acl
  tasks : ℕ → AclTask
  revoked : Text → Finset Text
  answers : List AclAnswer

inductive AclAct where
  | call (i : ℕ) (call : AclCall)
  | serve (i : ℕ)
  | resume (i : ℕ)
  | raise (i : ℕ)
  | expireKey (cacheKey : Text)
  | evict (cacheKey : Text)

namespace AclPool

def start (acl : Acl) : AclPool := ⟨acl, fun _ => ⟨.idle, false⟩, fun _ => ∅, []⟩

variable (s : AclPool)

def nowRevoked : AclPoint → Text → Finset Text
  | .addSadd cacheKey memberAic _ =>
    Function.update s.revoked cacheKey ((s.revoked cacheKey).erase memberAic)
  | .removeSrem cacheKey memberAic _ =>
    Function.update s.revoked cacheKey (s.revoked cacheKey ∪ s.acl.redis cacheKey ∩ {memberAic})
  | .deleteDelete cacheKey _ =>
    Function.update s.revoked cacheKey (s.revoked cacheKey ∪ s.acl.redis cacheKey)
  | _ => s.revoked

def isLate (p : AclPoint) : Bool := p.requested.any fun (cacheKey, m) => m ∈ s.revoked cacheKey

def settle (i : ℕ) (acl : Acl) (p : AclPoint) (answer : Option Bool) : AclPool :=
  let late := (s.tasks i).late
  { s with
    acl := acl
    tasks := Function.update s.tasks i ⟨p, late⟩
    answers := s.answers ++ (answer.map fun isMember => ⟨late, isMember⟩).toList }

def step : AclAct → Option AclPool
  | .call i call =>
    match (s.tasks i).point, call.begin with
    | .idle, .ok p => some { s with tasks := Function.update s.tasks i ⟨p, s.isLate p⟩ }
    | .idle, .error _ => some s
    | _, _ => none
  | .serve i => (s.acl.serve (s.tasks i).point).map fun (acl, p) =>
    let tasks := Function.update s.tasks i ⟨p, (s.tasks i).late⟩
    { s with
      acl := acl
      tasks := fun j => ⟨(tasks j).point, (tasks j).late && (tasks j).point.requested ≠ p.added⟩
      revoked := s.nowRevoked (s.tasks i).point }
  | .resume i => (s.acl.resume (s.tasks i).point).map fun (acl, p, answer) =>
    s.settle i acl p answer
  | .raise i => (s.acl.raised (s.tasks i).point).map fun answer => s.settle i s.acl .idle answer
  | .expireKey cacheKey => some { s with acl := s.acl.delete cacheKey }
  | .evict cacheKey => some { s with acl := s.acl.pop cacheKey }

def Effective : Prop := ∀ a ∈ s.answers, a.late = true → a.isMember = false

instance : Decidable s.Effective :=
  inferInstanceAs (Decidable (∀ a ∈ s.answers, a.late = true → a.isMember = false))

def Stale (cacheKey memberAic : Text) : Prop :=
  memberAic ∈ s.revoked cacheKey ∧ memberAic ∈ s.acl.cachedMembers cacheKey

def Unapplied (cacheKey memberAic : Text) : Prop :=
  ∃ i, (s.tasks i).point.Removes cacheKey memberAic

/-- No failure keeps a removal from the cache that has the member; no call puts into the cache what
was removed while it waited; and no check that begins after a removal falls back on a cache that
has yet to see it. -/
def Guarded : AclAct → Prop
  | .resume i => ∀ k m, (s.tasks i).point.Stores k m → m ∉ s.revoked k
  | .raise i =>
    (∀ k m, (s.tasks i).point.Removes k m → ¬ s.Stale k m) ∧
      ∀ k m, (s.tasks i).point.requested = some (k, m) → (s.tasks i).point.fallsBack = true →
        (s.tasks i).late = true → s.Stale k m → ¬ s.Unapplied k m
  | _ => True

end AclPool

def aclCalls : Transition.System AclPool AclAct := ⟨AclPool.step⟩

section Members

variable {acl : Acl} {k m cacheKey memberAic : Text}

theorem mem_update {f : Text → Finset Text} {members : Finset Text} :
    m ∈ Function.update f cacheKey members k ↔ if k = cacheKey then m ∈ members else m ∈ f k := by
  by_cases hk : k = cacheKey
  · subst hk
    rw [Function.update_self, if_pos rfl]
  · rw [Function.update_of_ne hk, if_neg hk]

namespace Acl

theorem cachedMembers_update {entry : Option (Finset Text)} :
    m ∈ (⟨acl.redis, Function.update acl.localCache cacheKey entry⟩ : Acl).cachedMembers k ↔
      if k = cacheKey then m ∈ entry.getD ∅ else m ∈ acl.cachedMembers k := by
  unfold cachedMembers
  dsimp only
  by_cases hk : k = cacheKey
  · subst hk
    rw [Function.update_self, if_pos rfl]
  · rw [Function.update_of_ne hk, if_neg hk]

theorem mem_cacheMembers {members : Finset Text} :
    m ∈ (acl.cacheMembers cacheKey members).cachedMembers k ↔
      if k = cacheKey then m ∈ members else m ∈ acl.cachedMembers k := cachedMembers_update

theorem mem_pop :
    m ∈ (acl.pop cacheKey).cachedMembers k ↔ k ≠ cacheKey ∧ m ∈ acl.cachedMembers k := by
  refine cachedMembers_update.trans ?_
  by_cases hk : k = cacheKey
  · simp [hk]
  · simp [hk]

theorem mem_cacheAdded : m ∈ (acl.cacheAdded cacheKey memberAic).cachedMembers k ↔
    (k = cacheKey ∧ m = memberAic) ∨ m ∈ acl.cachedMembers k := by
  refine mem_cacheMembers.trans ?_
  by_cases hk : k = cacheKey
  · simp [hk]
  · simp [hk]

theorem redis_cacheRemoved : (acl.cacheRemoved cacheKey memberAic).redis = acl.redis := by
  unfold cacheRemoved
  dsimp only
  split <;> rfl

theorem mem_cacheRemoved : m ∈ (acl.cacheRemoved cacheKey memberAic).cachedMembers k ↔
    ¬ (k = cacheKey ∧ m = memberAic) ∧ m ∈ acl.cachedMembers k := by
  have hrest : m ∈ (acl.cacheRemoved cacheKey memberAic).cachedMembers k ↔
      if k = cacheKey then m ∈ (acl.cachedMembers cacheKey).erase memberAic
      else m ∈ acl.cachedMembers k := by
    unfold cacheRemoved
    dsimp only
    split
    next hempty =>
      rw [hempty]
      exact cachedMembers_update
    next => exact mem_cacheMembers
  rw [hrest]
  by_cases hk : k = cacheKey
  · simp [hk]
  · simp [hk]

end Acl

end Members

structure Serves (s : AclPool) (p : AclPoint) (acl : Acl) (p' : AclPoint) : Prop where
  cached : acl.cachedMembers = s.acl.cachedMembers
  requested : p'.requested = p.requested
  waits : ∀ k m, ¬ p.Removes k m
  kept : ∀ k m, m ∈ s.revoked k → p'.added ≠ some (k, m) → m ∈ s.nowRevoked p k
  absent : ∀ k m, (m ∈ s.revoked k → m ∉ s.acl.redis k) → m ∈ s.nowRevoked p k → m ∉ acl.redis k
  revoked : ∀ k m, m ∈ s.nowRevoked p k → m ∈ s.revoked k ∨ p'.Removes k m
  granted : ∀ k m, p.requested = some (k, m) → p'.granted = true →
    p.granted = true ∨ m ∈ s.acl.redis k

structure Resumes (acl : Acl) (p : AclPoint) (acl' : Acl) (p' : AclPoint) (answer : Option Bool) :
    Prop where
  redis : acl'.redis = acl.redis
  requested : ∀ k m, p'.requested = some (k, m) → p.requested = some (k, m)
  granted : p'.granted = true → p.granted = true
  cached : ∀ k m, m ∈ acl'.cachedMembers k →
    p.Stores k m ∨ m ∈ acl.cachedMembers k ∧ (p.Removes k m → p'.Removes k m)
  answer : ∀ isMember, answer = some isMember → ∃ k m, p.requested = some (k, m) ∧
    isMember = p.granted

section Points

variable {s : AclPool} {acl acl' : Acl} {p p' : AclPoint}

theorem Serves.of_update {cacheKey : Text} {members revoked : Finset Text}
    (hnow : s.nowRevoked p = Function.update s.revoked cacheKey revoked)
    (hrequested : p.requested = none) (hrequested' : p'.requested = none)
    (hwaits : ∀ k m, ¬ p.Removes k m)
    (hkept : ∀ m ∈ s.revoked cacheKey, p'.added ≠ some (cacheKey, m) → m ∈ revoked)
    (habsent : ∀ m ∈ revoked, (m ∈ s.revoked cacheKey → m ∉ s.acl.redis cacheKey) → m ∉ members)
    (hrevoked : ∀ m ∈ revoked, m ∈ s.revoked cacheKey ∨ p'.Removes cacheKey m) :
    Serves s p { s.acl with redis := Function.update s.acl.redis cacheKey members } p' := by
  refine ⟨rfl, hrequested'.trans hrequested.symm, hwaits, ?_, ?_, ?_, ?_⟩
  · intro k m hm hadded
    rw [hnow, mem_update]
    split
    next hk =>
      subst hk
      exact hkept m hm hadded
    next => exact hm
  · intro k m hold hm
    rw [hnow, mem_update] at hm
    rw [mem_update]
    split at hm
    next hk =>
      subst hk
      rw [if_pos rfl]
      exact habsent m hm hold
    next hk =>
      rw [if_neg hk]
      exact hold hm
  · intro k m hm
    rw [hnow, mem_update] at hm
    split at hm
    next hk =>
      subst hk
      exact hrevoked m hm
    next => exact .inl hm
  · intro k m h
    rw [hrequested] at h
    cases h

theorem Acl.serve_spec (h : s.acl.serve p = some (acl, p')) : Serves s p acl p' := by
  unfold Acl.serve at h
  split at h
  next cacheKey memberAic =>
    obtain ⟨rfl, rfl⟩ := Prod.mk.inj (Option.some.inj h)
    apply Serves.of_update rfl rfl rfl (fun _ _ => id)
    · intro m hm hadded
      refine Finset.mem_erase.mpr ⟨fun hsame => hadded ?_, hm⟩
      rw [hsame]
      rfl
    · intro m hm habsent
      obtain ⟨hne, hm⟩ := Finset.mem_erase.mp hm
      rw [Finset.mem_insert, not_or]
      exact ⟨hne, habsent hm⟩
    · exact fun m hm => .inl (Finset.mem_of_mem_erase hm)
  next cacheKey memberAic =>
    obtain ⟨rfl, rfl⟩ := Prod.mk.inj (Option.some.inj h)
    apply Serves.of_update rfl rfl rfl (fun _ _ => id)
    · exact fun m hm _ => Finset.mem_union_left _ hm
    · intro m hm habsent hmember
      obtain ⟨hne, hmember⟩ := Finset.mem_erase.mp hmember
      rcases Finset.mem_union.mp hm with hm | hm
      · exact habsent hm hmember
      · exact hne (Finset.mem_singleton.mp (Finset.mem_of_mem_inter_right hm))
    · intro m hm
      refine (Finset.mem_union.mp hm).imp_right fun hm => ⟨rfl, ?_⟩
      exact Finset.mem_singleton.mp (Finset.mem_of_mem_inter_right hm)
  next cacheKey =>
    obtain ⟨rfl, rfl⟩ := Prod.mk.inj (Option.some.inj h)
    apply Serves.of_update rfl rfl rfl (fun _ _ => id)
    · exact fun m hm _ => Finset.mem_union_left _ hm
    · exact fun m _ _ => Finset.notMem_empty m
    · exact fun m hm => (Finset.mem_union.mp hm).imp_right fun _ => rfl
  next cacheKey requesterAic =>
    obtain ⟨rfl, rfl⟩ := Prod.mk.inj (Option.some.inj h)
    refine ⟨rfl, rfl, fun _ _ => id, fun _ _ hm _ => hm, fun _ _ habsent => habsent,
      fun _ _ hm => .inl hm, fun k m hreq hgranted => .inr ?_⟩
    obtain ⟨rfl, rfl⟩ := Prod.mk.inj (Option.some.inj hreq)
    exact of_decide_eq_true (Option.some.inj (of_decide_eq_true hgranted))
  next cacheKey requesterAic isMember =>
    obtain ⟨rfl, rfl⟩ := Prod.mk.inj (Option.some.inj h)
    exact ⟨rfl, rfl, fun _ _ => id, fun _ _ hm _ => hm, fun _ _ habsent => habsent,
      fun _ _ hm => .inl hm, fun _ _ _ hgranted => .inl hgranted⟩
  next => cases h

theorem Resumes.of_change (hredis : acl'.redis = acl.redis) (hrequested : p'.requested = none)
    (hgranted : p'.granted = false)
    (hcached : ∀ k m, m ∈ acl'.cachedMembers k →
      p.Stores k m ∨ m ∈ acl.cachedMembers k ∧ (p.Removes k m → p'.Removes k m)) :
    Resumes acl p acl' p' none where
  redis := hredis
  requested := by
    intro k m h
    rw [hrequested] at h
    cases h
  granted := by
    intro h
    rw [hgranted] at h
    cases h
  cached := hcached
  answer := by
    intro isMember h
    cases h

theorem Resumes.of_answer {isMember : Bool} {k m : Text} (hredis : acl'.redis = acl.redis)
    (hrequested : p.requested = some (k, m)) (hgranted : p.granted = isMember)
    (hcached : ∀ k m, m ∈ acl'.cachedMembers k → p.Stores k m ∨ m ∈ acl.cachedMembers k)
    (hremoves : ∀ k m, ¬ p.Removes k m) : Resumes acl p acl' .idle (some isMember) where
  redis := hredis
  requested := by
    intro _ _ h
    cases h
  granted := by
    intro h
    cases h
  cached := fun k m hm =>
    (hcached k m hm).imp_right fun hm => ⟨hm, fun h => absurd h (hremoves k m)⟩
  answer := by
    intro b h
    obtain rfl := Option.some.inj h
    exact ⟨k, m, hrequested, hgranted.symm⟩

theorem Acl.resume_spec {answer : Option Bool} (h : acl.resume p = some (acl', p', answer)) :
    Resumes acl p acl' p' answer := by
  unfold Acl.resume at h
  split at h
  next cacheKey memberAic =>
    obtain ⟨rfl, hrest⟩ := Prod.mk.inj (Option.some.inj h)
    obtain ⟨rfl, rfl⟩ := Prod.mk.inj hrest
    exact Resumes.of_change rfl rfl rfl fun k m hm => .inr ⟨hm, id⟩
  next cacheKey memberAic =>
    obtain ⟨rfl, hrest⟩ := Prod.mk.inj (Option.some.inj h)
    obtain ⟨rfl, rfl⟩ := Prod.mk.inj hrest
    exact Resumes.of_change rfl rfl rfl
      fun k m hm => (Acl.mem_cacheAdded.mp hm).imp_right fun hm => ⟨hm, id⟩
  next cacheKey memberAic =>
    obtain ⟨rfl, hrest⟩ := Prod.mk.inj (Option.some.inj h)
    obtain ⟨rfl, rfl⟩ := Prod.mk.inj hrest
    exact Resumes.of_change rfl rfl rfl fun k m hm => .inr ⟨hm, id⟩
  next cacheKey memberAic =>
    obtain ⟨rfl, hrest⟩ := Prod.mk.inj (Option.some.inj h)
    obtain ⟨rfl, rfl⟩ := Prod.mk.inj hrest
    refine Resumes.of_change Acl.redis_cacheRemoved rfl rfl fun k m hm => ?_
    obtain ⟨hother, hm⟩ := Acl.mem_cacheRemoved.mp hm
    exact .inr ⟨hm, fun hsame => absurd hsame hother⟩
  next cacheKey =>
    obtain ⟨rfl, hrest⟩ := Prod.mk.inj (Option.some.inj h)
    obtain ⟨rfl, rfl⟩ := Prod.mk.inj hrest
    refine Resumes.of_change rfl rfl rfl fun k m hm => ?_
    obtain ⟨hother, hm⟩ := Acl.mem_pop.mp hm
    exact .inr ⟨hm, fun hsame => absurd hsame hother⟩
  next cacheKey requesterAic isMember =>
    have hsaid :
        (AclPoint.checkSismember cacheKey requesterAic (some isMember)).granted = isMember := by
      cases isMember <;> rfl
    split at h
    · obtain ⟨rfl, hrest⟩ := Prod.mk.inj (Option.some.inj h)
      obtain ⟨rfl, rfl⟩ := Prod.mk.inj hrest
      exact
        { redis := rfl
          requested := fun _ _ hreq => hreq
          granted := hsaid.trans
          cached := fun _ _ hm => .inr ⟨hm, id⟩
          answer := fun _ hanswer => by cases hanswer }
    · obtain ⟨rfl, hrest⟩ := Prod.mk.inj (Option.some.inj h)
      obtain ⟨rfl, rfl⟩ := Prod.mk.inj hrest
      exact Resumes.of_answer rfl rfl hsaid (fun _ _ hm => .inr hm) fun _ _ => id
  next cacheKey requesterAic isMember members =>
    obtain ⟨rfl, hrest⟩ := Prod.mk.inj (Option.some.inj h)
    obtain ⟨rfl, rfl⟩ := Prod.mk.inj hrest
    refine Resumes.of_answer rfl rfl rfl (fun k m hm => ?_) fun _ _ => id
    have hm' := Acl.mem_cacheMembers.mp hm
    split at hm'
    next hk => exact .inl ⟨hk, hm'⟩
    next => exact .inr hm'
  next => cases h

theorem Acl.raised_spec {isMember : Bool} (h : acl.raised p = some (some isMember)) :
    ∃ k m, p.requested = some (k, m) ∧
      if p.fallsBack then isMember = decide (m ∈ acl.cachedMembers k)
      else isMember = p.granted := by
  unfold Acl.raised at h
  split at h
  · cases h
  · obtain rfl := Option.some.inj (Option.some.inj h)
    exact ⟨_, _, rfl, rfl⟩
  · obtain rfl := Option.some.inj (Option.some.inj h)
    exact ⟨_, _, rfl, rfl⟩
  · cases Option.some.inj h

end Points

theorem AclCall.begin_granted {call : AclCall} {p : AclPoint} (h : call.begin = .ok p) :
    p.granted = false := by
  cases call with
  | addMember leaderAic groupId memberAic =>
    obtain ⟨_, -, h⟩ := Fallible.bind_eq_ok.mp h
    obtain rfl := Fallible.pure_eq_ok.mp h
    rfl
  | removeMember leaderAic groupId memberAic =>
    obtain ⟨_, -, h⟩ := Fallible.bind_eq_ok.mp h
    obtain rfl := Fallible.pure_eq_ok.mp h
    rfl
  | deleteGroup leaderAic groupId =>
    obtain ⟨_, -, h⟩ := Fallible.bind_eq_ok.mp h
    obtain rfl := Fallible.pure_eq_ok.mp h
    rfl
  | checkGroupMembership leaderAic groupId requesterAic =>
    obtain ⟨_, -, h⟩ := Fallible.bind_eq_ok.mp h
    obtain rfl := Fallible.pure_eq_ok.mp h
    rfl

namespace AclPool

structure Sound (s : AclPool) : Prop where
  absent : ∀ k m, m ∈ s.revoked k → m ∉ s.acl.redis k
  applied : ∀ k m, s.Stale k m → s.Unapplied k m
  late : ∀ i k m, (s.tasks i).point.requested = some (k, m) → (s.tasks i).late = true →
    m ∈ s.revoked k ∧ (s.tasks i).point.granted = false
  effective : s.Effective

theorem sound_start (acl : Acl) : (start acl).Sound where
  absent := fun k m h => absurd h (Finset.notMem_empty m)
  applied := fun k m h => absurd h.1 (Finset.notMem_empty m)
  late := fun i k m h => by cases h
  effective := List.forall_mem_nil _

variable {s t : AclPool} {i : ℕ}

theorem Unapplied.update {k m : Text} {task : AclTask} (h : s.Unapplied k m)
    (hi : (s.tasks i).point.Removes k m → task.point.Removes k m) :
    ∃ j, (Function.update s.tasks i task j).point.Removes k m := by
  obtain ⟨j, hj⟩ := h
  refine ⟨j, ?_⟩
  by_cases hji : j = i
  · subst hji
    rw [Function.update_self]
    exact hi hj
  · rwa [Function.update_of_ne hji]

theorem Sound.begin (h : s.Sound) {p : AclPoint} (hidle : (s.tasks i).point = .idle)
    (hgranted : p.granted = false) :
    Sound { s with tasks := Function.update s.tasks i ⟨p, s.isLate p⟩ } where
  absent := h.absent
  applied := by
    intro k m hstale
    refine (h.applied k m hstale).update fun hremoves => ?_
    rw [hidle] at hremoves
    cases hremoves
  late := by
    intro j k m hrequested hlate
    dsimp only at hrequested hlate ⊢
    by_cases hji : j = i
    · subst hji
      rw [Function.update_self] at hrequested hlate ⊢
      unfold isLate at hlate
      rw [hrequested] at hlate
      exact ⟨of_decide_eq_true hlate, hgranted⟩
    · rw [Function.update_of_ne hji] at hrequested hlate ⊢
      exact h.late j k m hrequested hlate
  effective := h.effective

theorem Sound.serve (h : s.Sound) {acl : Acl} {p : AclPoint}
    (hserves : Serves s (s.tasks i).point acl p) :
    let tasks := Function.update s.tasks i ⟨p, (s.tasks i).late⟩
    Sound
      { s with
        acl := acl
        tasks := fun j => ⟨(tasks j).point, (tasks j).late && (tasks j).point.requested ≠ p.added⟩
        revoked := s.nowRevoked (s.tasks i).point } := by
  refine ⟨fun k m => hserves.absent k m (h.absent k m), ?_, ?_, h.effective⟩
  · rintro k m ⟨hrevoked, hcached⟩
    rw [hserves.cached] at hcached
    rcases hserves.revoked k m hrevoked with hold | hnew
    · exact (h.applied k m ⟨hold, hcached⟩).update
        fun hremoves => absurd hremoves (hserves.waits k m)
    · refine ⟨i, ?_⟩
      dsimp only
      rwa [Function.update_self]
  · intro j k m hrequested hlate
    obtain ⟨hlate, hnotadded⟩ := Bool.and_eq_true_iff.mp hlate
    dsimp only at hrequested hlate hnotadded ⊢
    rw [hrequested] at hnotadded
    have hadded : p.added ≠ some (k, m) := fun hsame => of_decide_eq_true hnotadded hsame.symm
    by_cases hji : j = i
    · subst hji
      rw [Function.update_self] at hrequested hlate ⊢
      have hasked := hserves.requested.symm.trans hrequested
      obtain ⟨hrevoked, hgranted⟩ := h.late j k m hasked hlate
      refine ⟨hserves.kept k m hrevoked hadded, Bool.eq_false_iff.mpr fun hnow => ?_⟩
      rcases hserves.granted k m hasked hnow with hbefore | hmember
      · rw [hgranted] at hbefore
        cases hbefore
      · exact h.absent k m hrevoked hmember
    · rw [Function.update_of_ne hji] at hrequested hlate ⊢
      obtain ⟨hrevoked, hgranted⟩ := h.late j k m hrequested hlate
      exact ⟨hserves.kept k m hrevoked hadded, hgranted⟩

theorem Sound.settle (h : s.Sound) {acl : Acl} {p : AclPoint} {answer : Option Bool}
    (hredis : acl.redis = s.acl.redis)
    (hcached : ∀ k m, m ∈ s.revoked k → m ∈ acl.cachedMembers k →
      s.Stale k m ∧ ((s.tasks i).point.Removes k m → p.Removes k m))
    (hrequested : ∀ k m, p.requested = some (k, m) → (s.tasks i).point.requested = some (k, m))
    (hgranted : p.granted = true → (s.tasks i).point.granted = true)
    (hanswer : ∀ isMember, answer = some isMember → (s.tasks i).late = true → isMember = false) :
    (s.settle i acl p answer).Sound := by
  refine ⟨?_, ?_, ?_, ?_⟩
  · intro k m hrevoked
    change m ∉ acl.redis k
    rw [hredis]
    exact h.absent k m hrevoked
  · rintro k m ⟨hrevoked, hmem⟩
    obtain ⟨hstale, hremoves⟩ := hcached k m hrevoked hmem
    exact (h.applied k m hstale).update hremoves
  · intro j k m hreq hlate
    unfold AclPool.settle at hreq hlate ⊢
    dsimp only at hreq hlate ⊢
    by_cases hji : j = i
    · subst hji
      rw [Function.update_self] at hreq hlate ⊢
      obtain ⟨hrevoked, hno⟩ := h.late j k m (hrequested k m hreq) hlate
      refine ⟨hrevoked, Bool.eq_false_iff.mpr fun hnow => ?_⟩
      rw [hgranted hnow] at hno
      cases hno
    · rw [Function.update_of_ne hji] at hreq hlate ⊢
      exact h.late j k m hreq hlate
  · intro a ha
    rcases List.mem_append.mp ha with ha | ha
    · exact h.effective a ha
    · cases answer with
      | none => cases ha
      | some isMember =>
        obtain rfl := List.mem_singleton.mp ha
        exact fun hlate => hanswer isMember rfl hlate

theorem Sound.resume (h : s.Sound) {acl : Acl} {p : AclPoint} {answer : Option Bool}
    (hstores : ∀ k m, (s.tasks i).point.Stores k m → m ∉ s.revoked k)
    (hresumes : Resumes s.acl (s.tasks i).point acl p answer) :
    (s.settle i acl p answer).Sound := by
  refine h.settle hresumes.redis ?_ hresumes.requested hresumes.granted ?_
  · intro k m hrevoked hmem
    rcases hresumes.cached k m hmem with hnew | ⟨hold, hremoves⟩
    · exact absurd hrevoked (hstores k m hnew)
    · exact ⟨⟨hrevoked, hold⟩, hremoves⟩
  · intro isMember hanswer hlate
    obtain ⟨k, m, hrequested, rfl⟩ := hresumes.answer isMember hanswer
    exact (h.late i k m hrequested hlate).2

theorem Sound.raise (h : s.Sound) {answer : Option Bool} (hguarded : s.Guarded (.raise i))
    (hraised : s.acl.raised (s.tasks i).point = some answer) :
    (s.settle i s.acl .idle answer).Sound := by
  obtain ⟨hremoval, hfallback⟩ := hguarded
  refine h.settle rfl ?_ (fun k m h => by cases h) (fun h => by cases h) ?_
  · intro k m hrevoked hmem
    exact ⟨⟨hrevoked, hmem⟩, fun hremoves => absurd ⟨hrevoked, hmem⟩ (hremoval k m hremoves)⟩
  · rintro isMember rfl hlate
    obtain ⟨k, m, hrequested, hsaid⟩ := Acl.raised_spec hraised
    obtain ⟨hrevoked, hgranted⟩ := h.late i k m hrequested hlate
    split at hsaid
    next hfalls =>
      rw [hsaid, decide_eq_false_iff_not]
      intro hmem
      have hstale : s.Stale k m := ⟨hrevoked, hmem⟩
      exact hfallback k m hrequested hfalls hlate hstale (h.applied k m hstale)
    next => exact hsaid.trans hgranted

theorem Sound.expireKey (h : s.Sound) (cacheKey : Text) :
    Sound { s with acl := s.acl.delete cacheKey } where
  absent := by
    intro k m hrevoked hmem
    refine h.absent k m hrevoked ?_
    have hmem' := mem_update.mp hmem
    split at hmem'
    · exact absurd hmem' (Finset.notMem_empty m)
    · exact hmem'
  applied := h.applied
  late := h.late
  effective := h.effective

theorem Sound.evict (h : s.Sound) (cacheKey : Text) :
    Sound { s with acl := s.acl.pop cacheKey } where
  absent := h.absent
  applied := fun k m hstale => h.applied k m ⟨hstale.1, (Acl.mem_pop.mp hstale.2).2⟩
  late := h.late
  effective := h.effective

theorem sound_step {a : AclAct} (h : s.Sound) (hguarded : s.Guarded a)
    (hstep : aclCalls.step s a = some t) : t.Sound := by
  cases a with
  | call i call =>
    unfold aclCalls step at hstep
    dsimp only at hstep
    split at hstep
    next p hidle hbegin =>
      obtain rfl := Option.some.inj hstep
      exact h.begin hidle (AclCall.begin_granted hbegin)
    next =>
      obtain rfl := Option.some.inj hstep
      exact h
    next => cases hstep
  | serve i =>
    obtain ⟨⟨acl, p⟩, hserve, rfl⟩ := Option.map_eq_some_iff.mp hstep
    exact h.serve (Acl.serve_spec hserve)
  | resume i =>
    obtain ⟨⟨acl, p, answer⟩, hresume, rfl⟩ := Option.map_eq_some_iff.mp hstep
    exact h.resume hguarded (Acl.resume_spec hresume)
  | raise i =>
    obtain ⟨answer, hraised, rfl⟩ := Option.map_eq_some_iff.mp hstep
    exact h.raise hguarded hraised
  | expireKey cacheKey =>
    obtain rfl := Option.some.inj hstep
    exact h.expireKey cacheKey
  | evict cacheKey =>
    obtain rfl := Option.some.inj hstep
    exact h.evict cacheKey

end AclPool

def checkActs (i : ℕ) (leaderAic groupId requesterAic : Text) (answers : Answers) (cached : Bool) :
    List AclAct :=
  .call i (.checkGroupMembership leaderAic groupId requesterAic) ::
    if answers.sismember then
      .serve i :: .resume i ::
        if cached then [] else if answers.smembers then [.serve i, .resume i] else [.raise i]
    else [.raise i]

section Alone

variable {s : AclPool} {i : ℕ} {p : AclPoint} {late : Bool} {acl acl' : Acl}
  {answers : List AclAnswer} {p' : AclPoint}

structure Waits (i : ℕ) (p : AclPoint) (late : Bool) (acl : Acl) (answers : List AclAnswer)
    (s : AclPool) : Prop where
  task : s.tasks i = ⟨p, late⟩
  acl : s.acl = acl
  answers : s.answers = answers

theorem waits_call {call : AclCall} (hidle : (s.tasks i).point = .idle)
    (hbegin : call.begin = .ok p) : ∃ t, aclCalls.step s (.call i call) = some t ∧
      Waits i p (s.isLate p) s.acl s.answers t := by
  refine ⟨{ s with tasks := Function.update s.tasks i ⟨p, s.isLate p⟩ }, ?_,
    Function.update_self .., rfl, rfl⟩
  unfold aclCalls AclPool.step
  dsimp only
  rw [hidle, hbegin]

theorem Waits.serve (h : Waits i p late acl answers s) (hserve : acl.serve p = some (acl', p'))
    (hcheck : p'.added = none ∧ p'.requested ≠ none) :
    ∃ t, aclCalls.step s (.serve i) = some t ∧ Waits i p' late acl' answers t := by
  obtain ⟨htask, rfl, rfl⟩ := h
  refine ⟨_, Option.map_eq_some_iff.mpr ⟨(acl', p'), by rw [htask, hserve], rfl⟩, ?_, rfl, rfl⟩
  dsimp only
  rw [Function.update_self, htask, hcheck.1, decide_eq_true hcheck.2, Bool.and_true]

theorem Waits.resume (h : Waits i p late acl answers s) {answer : Option Bool}
    (hresume : acl.resume p = some (acl', p', answer)) :
    ∃ t, aclCalls.step s (.resume i) = some t ∧
      Waits i p' late acl' (answers ++ (answer.map fun b => ⟨late, b⟩).toList) t := by
  obtain ⟨htask, rfl, rfl⟩ := h
  refine ⟨s.settle i acl' p' answer,
    Option.map_eq_some_iff.mpr ⟨(acl', p', answer), by rw [htask, hresume], rfl⟩, ?_, rfl, ?_⟩
  · exact (Function.update_self ..).trans (by rw [htask])
  · unfold AclPool.settle
    rw [htask]

theorem Waits.raise (h : Waits i p late acl answers s) {answer : Option Bool}
    (hraised : acl.raised p = some answer) :
    ∃ t, aclCalls.step s (.raise i) = some t ∧
      Waits i .idle late acl (answers ++ (answer.map fun b => ⟨late, b⟩).toList) t := by
  obtain ⟨htask, rfl, rfl⟩ := h
  refine ⟨s.settle i s.acl .idle answer,
    Option.map_eq_some_iff.mpr ⟨answer, by rw [htask, hraised], rfl⟩, ?_, rfl, ?_⟩
  · exact (Function.update_self ..).trans (by rw [htask])
  · unfold AclPool.settle
    rw [htask]

theorem exec_checkActs {leaderAic groupId requesterAic : Text} {replies : Answers}
    {isMember : Bool} (hidle : (s.tasks i).point = .idle)
    (h : s.acl.checkGroupMembership replies leaderAic groupId requesterAic = .ok (isMember, acl)) :
    let cacheKey := buildCacheKey leaderAic groupId
    ∃ t, aclCalls.exec s (checkActs i leaderAic groupId requesterAic replies
        (s.acl.localCache cacheKey).isSome) = some t ∧
      Waits i .idle (requesterAic ∈ s.revoked cacheKey) acl
        (s.answers ++ [⟨requesterAic ∈ s.revoked cacheKey, isMember⟩]) t := by
  obtain ⟨_, hvalid, h⟩ := Fallible.bind_eq_ok.mp h
  have hbegin : (AclCall.checkGroupMembership leaderAic groupId requesterAic).begin =
      .ok (.checkSismember (buildCacheKey leaderAic groupId) requesterAic none) :=
    Fallible.bind_eq_ok.mpr ⟨_, hvalid, rfl⟩
  dsimp only at h ⊢
  generalize buildCacheKey leaderAic groupId = cacheKey at *
  obtain ⟨s₁, hcall, hbegun⟩ := waits_call hidle hbegin
  unfold checkActs
  rw [aclCalls.exec_cons, hcall, Option.bind_some]
  by_cases hsismember : replies.sismember = true
  · rw [if_pos hsismember] at h ⊢
    obtain ⟨s₂, hserve, hserved⟩ := hbegun.serve rfl ⟨rfl, Option.some_ne_none _⟩
    rw [aclCalls.exec_cons, hserve, Option.bind_some]
    cases hcache : s.acl.localCache cacheKey with
    | some members =>
      rw [hcache, if_neg fun hnone => by cases hnone.1] at h
      obtain ⟨rfl, rfl⟩ := Prod.mk.inj (Fallible.pure_eq_ok.mp h)
      have hcached : s.acl.localCache cacheKey ≠ none := by
        rw [hcache]
        exact Option.some_ne_none members
      obtain ⟨t, hresume, hdone⟩ := hserved.resume (if_neg hcached)
      exact ⟨t, aclCalls.exec_cons_eq_some.mpr ⟨t, hresume, rfl⟩, hdone⟩
    | none =>
      obtain ⟨s₃, hresume, hasked⟩ := hserved.resume (if_pos hcache)
      rw [aclCalls.exec_cons, hresume, Option.bind_some, Option.isSome_none,
        if_neg Bool.false_ne_true]
      rw [Option.map_none, Option.toList_none, List.append_nil] at hasked
      by_cases hsmembers : replies.smembers = true
      · rw [hcache, if_pos ⟨rfl, hsmembers⟩] at h
        obtain ⟨rfl, rfl⟩ := Prod.mk.inj (Fallible.pure_eq_ok.mp h)
        obtain ⟨s₄, hload, hloaded⟩ := hasked.serve rfl ⟨rfl, Option.some_ne_none _⟩
        obtain ⟨t, hstore, hdone⟩ := hloaded.resume rfl
        rw [if_pos hsmembers, aclCalls.exec_cons, hload, Option.bind_some]
        exact ⟨t, aclCalls.exec_cons_eq_some.mpr ⟨t, hstore, rfl⟩, hdone⟩
      · rw [hcache, if_neg fun hboth => hsmembers hboth.2] at h
        obtain ⟨rfl, rfl⟩ := Prod.mk.inj (Fallible.pure_eq_ok.mp h)
        obtain ⟨t, hraise, hdone⟩ := hasked.raise rfl
        rw [if_neg hsmembers]
        exact ⟨t, aclCalls.exec_cons_eq_some.mpr ⟨t, hraise, rfl⟩, hdone⟩
  · rw [if_neg hsismember] at h ⊢
    obtain ⟨t, hraise, hdone⟩ := hbegun.raise rfl
    refine ⟨t, aclCalls.exec_cons_eq_some.mpr ⟨t, hraise, rfl⟩, ?_⟩
    unfold Acl.cachedMembers at hdone
    cases hcache : s.acl.localCache cacheKey with
    | none =>
      rw [hcache] at h hdone
      obtain ⟨rfl, rfl⟩ := Prod.mk.inj (Fallible.pure_eq_ok.mp h)
      exact hdone
    | some members =>
      rw [hcache] at h hdone
      obtain ⟨rfl, rfl⟩ := Prod.mk.inj (Fallible.pure_eq_ok.mp h)
      exact hdone

theorem stale_granted {leaderAic groupId requesterAic : Text} (hidle : (s.tasks i).point = .idle)
    (hleader : IsAic leaderAic) (hgroup : IsGroupId groupId) (hrequester : IsAic requesterAic)
    (h : s.Stale (buildCacheKey leaderAic groupId) requesterAic) :
    ∃ acts t, aclCalls.exec s acts = some t ∧ ¬ t.Effective := by
  obtain ⟨acl', hcheck⟩ := s.acl.checkGroupMembership_ok ⟨false, false⟩ hleader hgroup hrequester
  have hmember : requesterAic ∈ s.acl.members ⟨false, false⟩ leaderAic groupId := h.2
  rw [decide_eq_true hmember] at hcheck
  obtain ⟨t, hexec, hdone⟩ := exec_checkActs hidle hcheck
  refine ⟨_, t, hexec, fun heffective => ?_⟩
  have hanswer := heffective ⟨requesterAic ∈ s.revoked (buildCacheKey leaderAic groupId), true⟩ (by
    rw [hdone.answers]
    exact List.mem_append_right _ (List.mem_singleton_self _))
  cases hanswer (decide_eq_true h.1)

end Alone

theorem revocation_effective {acl : Acl} {acts : List AclAct} {t : AclPool}
    (h : aclCalls.exec (AclPool.start acl) acts = some t)
    (hguarded : aclCalls.Meets AclPool.Guarded (AclPool.start acl) acts) : t.Effective := by
  have hsound : t.Sound := aclCalls.exec_invariant
    (fun _ _ _ hs hC hstep => AclPool.sound_step hs hC hstep) (AclPool.sound_start acl) hguarded h
  exact hsound.effective

/-! Calls for one member of one group, which start from nothing. -/

namespace Sample

def leaderAic : Text := "1.2.156.3088.1.A.A.A.A.AAAA".toList

def memberAic : Text := "1.2.156.3088.1.B.B.B.B.BBBB".toList

def groupId : Text := ['g']

def start : AclPool := .start ⟨fun _ => ∅, fun _ => none⟩

def add (i : ℕ) : List AclAct := [.call i (.addMember leaderAic groupId memberAic), .serve i]

def remove (i : ℕ) : List AclAct := [.call i (.removeMember leaderAic groupId memberAic), .serve i]

def finish (i : ℕ) : List AclAct := [.resume i, .resume i]

def check (i : ℕ) : List AclAct := [.call i (.checkGroupMembership leaderAic groupId memberAic)]

def fallback (i : ℕ) : List AclAct := check i ++ [.raise i]

def failedRemoval : List AclAct :=
  add 0 ++ finish 0 ++ remove 1 ++ [.resume 1, .raise 1] ++ fallback 2

def lateStore : List AclAct :=
  add 0 ++ finish 0 ++ [.evict (buildCacheKey leaderAic groupId)] ++
    check 1 ++ [.serve 1, .resume 1, .serve 1] ++ remove 2 ++ finish 2 ++ [.resume 1] ++ fallback 3

def lateAddition : List AclAct := add 0 ++ remove 1 ++ finish 1 ++ finish 0 ++ fallback 2

def earlyCheck : List AclAct := add 0 ++ finish 0 ++ remove 1 ++ fallback 2

def orderly : List AclAct := add 0 ++ finish 0 ++ remove 1 ++ finish 1 ++ fallback 2

end Sample

def AclPool.isGuarded (s : AclPool) : AclAct → Bool
  | .resume i =>
    match (s.tasks i).point with
    | .addExpire cacheKey memberAic => memberAic ∉ s.revoked cacheKey
    | .checkSmembers cacheKey _ _ (some members) => members ∩ s.revoked cacheKey = ∅
    | _ => true
  | .raise i =>
    match (s.tasks i).point with
    | .checkSismember cacheKey requesterAic _ => requesterAic ∉ s.acl.cachedMembers cacheKey
    | _ => false
  | _ => true

theorem AclPool.guarded_of_isGuarded {s : AclPool} {a : AclAct} (h : s.isGuarded a = true) :
    s.Guarded a := by
  cases a with
  | resume i =>
    intro k m hstores hrevoked
    unfold AclPool.isGuarded at h
    unfold AclPoint.Stores at hstores
    dsimp only at h
    split at hstores
    next hpoint =>
      rw [hpoint] at h
      obtain ⟨rfl, rfl⟩ := hstores
      exact of_decide_eq_true h hrevoked
    next hpoint =>
      rw [hpoint] at h
      obtain ⟨rfl, hmem⟩ := hstores
      have hnone := Finset.mem_inter.mpr ⟨hmem, hrevoked⟩
      rw [of_decide_eq_true h] at hnone
      exact Finset.notMem_empty _ hnone
    next => exact hstores
  | raise i =>
    unfold AclPool.isGuarded at h
    dsimp only at h
    split at h
    next cacheKey requesterAic reply hpoint =>
      refine ⟨fun k m hremoves => ?_, fun k m hrequested _ _ hstale => ?_⟩
      · rw [hpoint] at hremoves
        exact hremoves.elim
      · rw [hpoint] at hrequested
        obtain ⟨rfl, rfl⟩ := Prod.mk.inj (Option.some.inj hrequested)
        exact absurd hstale.2 (of_decide_eq_true h)
    next => cases h
  | _ => trivial

theorem orderly_revocation : ∃ t, aclCalls.exec Sample.start Sample.orderly = some t ∧
    t.answers = [⟨true, false⟩] ∧ t.Effective := by
  have hends : (aclCalls.exec Sample.start Sample.orderly).any
      (fun t => t.answers = [⟨true, false⟩]) = true := by decide +kernel
  have hchecked : aclCalls.check AclPool.isGuarded Sample.start Sample.orderly = true := by
    decide +kernel
  obtain ⟨t, hexec, hanswers⟩ := Option.any_eq_true .. |>.mp hends
  exact ⟨t, hexec, of_decide_eq_true hanswers, revocation_effective hexec
    (aclCalls.meets_of_check (fun _ _ => AclPool.guarded_of_isGuarded) hchecked)⟩

theorem refuted_of_any {acts : List AclAct}
    (h : (aclCalls.exec Sample.start acts).any (fun t => ¬ t.Effective) = true) :
    ∃ t, aclCalls.exec Sample.start acts = some t ∧ ¬ t.Effective := by
  obtain ⟨t, hexec, hbad⟩ := Option.any_eq_true .. |>.mp h
  exact ⟨t, hexec, of_decide_eq_true hbad⟩

theorem removed_member_granted :
    (∃ t, aclCalls.exec Sample.start Sample.failedRemoval = some t ∧ ¬ t.Effective) ∧
    (∃ t, aclCalls.exec Sample.start Sample.lateStore = some t ∧ ¬ t.Effective) ∧
    (∃ t, aclCalls.exec Sample.start Sample.lateAddition = some t ∧ ¬ t.Effective) ∧
    ∃ t, aclCalls.exec Sample.start Sample.earlyCheck = some t ∧ ¬ t.Effective := by
  refine ⟨refuted_of_any ?_, refuted_of_any ?_, refuted_of_any ?_, refuted_of_any ?_⟩
  · decide +kernel
  · decide +kernel
  · decide +kernel
  · decide +kernel

end Acps.Mq
