import Acps.Lib.Fallible
import Acps.Mq.Names
import Mathlib.Data.Finset.Basic

/-!
The members of each group, in Redis and in the local cache that stands in for it, and the
authorization service of the broker with what it lets a user do to a queue or an exchange.
-/

namespace Acps.Mq

open Aic (Text PyError)

structure Acl where
  redis : Text → Finset Text
  localCache : Text → Option (Finset Text)

structure Answers where
  sismember : Bool
  smembers : Bool

def buildCacheKey (leaderAic groupId : Text) : Text :=
  "group_acl:".toList ++ leaderAic ++ ':' :: groupId

def ensureValidIdentifiers (leaderAic groupId : Text) (memberAic : Option Text) :
    Except PyError Unit :=
  if ¬ validateAicFormat leaderAic aicPrefix then .error (.valueError "invalid leader AIC")
  else if ¬ memberAic.all (validateAicFormat · aicPrefix) then
    .error (.valueError "invalid member AIC")
  else if ¬ validateGroupIdFormat groupId then .error (.valueError "invalid group-id")
  else .ok ()

namespace Acl

def cacheMembers (acl : Acl) (cacheKey : Text) (members : Finset Text) : Acl :=
  { acl with localCache := Function.update acl.localCache cacheKey (some members) }

def checkGroupMembership (acl : Acl) (answers : Answers) (leaderAic groupId requesterAic : Text) :
    Except PyError (Bool × Acl) := do
  ensureValidIdentifiers leaderAic groupId (some requesterAic)
  let cacheKey := buildCacheKey leaderAic groupId
  if answers.sismember then
    let isMember : Bool := requesterAic ∈ acl.redis cacheKey
    if acl.localCache cacheKey = none ∧ answers.smembers then
      return (isMember, acl.cacheMembers cacheKey (acl.redis cacheKey))
    else return (isMember, acl)
  else
    match acl.localCache cacheKey with
    | none => return (false, acl)
    | some cachedMembers => return (requesterAic ∈ cachedMembers, acl)

def members (acl : Acl) (answers : Answers) (leaderAic groupId : Text) : Finset Text :=
  let cacheKey := buildCacheKey leaderAic groupId
  if answers.sismember then acl.redis cacheKey else (acl.localCache cacheKey).getD ∅

end Acl

theorem ensureValidIdentifiers_ok {leaderAic groupId : Text} {memberAic : Option Text}
    (hleader : IsAic leaderAic) (hgroup : IsGroupId groupId)
    (hmember : ∀ m ∈ memberAic, IsAic m) :
    ensureValidIdentifiers leaderAic groupId memberAic = .ok () := by
  have hall : memberAic.all (validateAicFormat · aicPrefix) = true := by
    cases memberAic with
    | none => rfl
    | some m => exact hmember m rfl
  unfold ensureValidIdentifiers
  rw [if_neg (not_not.mpr hleader), if_neg (not_not.mpr hall), if_neg (not_not.mpr hgroup)]

theorem Acl.checkGroupMembership_ok (acl : Acl) (answers : Answers)
    {leaderAic groupId requesterAic : Text} (hleader : IsAic leaderAic)
    (hgroup : IsGroupId groupId) (hrequester : IsAic requesterAic) :
    ∃ acl', acl.checkGroupMembership answers leaderAic groupId requesterAic =
      .ok (decide (requesterAic ∈ acl.members answers leaderAic groupId), acl') := by
  have hensure : ensureValidIdentifiers leaderAic groupId (some requesterAic) = .ok () :=
    ensureValidIdentifiers_ok hleader hgroup fun m hm => Option.some.inj hm ▸ hrequester
  unfold checkGroupMembership members
  rw [hensure, Fallible.ok_bind]
  cases hanswer : answers.sismember with
  | true =>
    simp only [if_true]
    split
    · exact ⟨_, rfl⟩
    · exact ⟨_, rfl⟩
  | false =>
    simp only [Bool.false_eq_true, if_false]
    cases hcache : acl.localCache (buildCacheKey leaderAic groupId) with
    | none => exact ⟨_, rfl⟩
    | some cachedMembers => exact ⟨_, rfl⟩

inductive AuthDecision where
  | allow
  | deny
  | refuse
  deriving DecidableEq

def defaultExchange : Text := "amq.default".toList

def inboxTopic : Text := "inbox.topic".toList

def acpsVhost : Text := "acps".toList

namespace Resource

def exchange : Text := "exchange".toList

def queue : Text := "queue".toList

end Resource

namespace Permission

def configure : Text := "configure".toList

def write : Text := "write".toList

def read : Text := "read".toList

end Permission

section Decisions

variable (acl : Acl) (answers : Answers)

def checkExchangePermission (username name permission : Text) :
    Except PyError (AuthDecision × Acl) :=
  if name = defaultExchange then .ok (.deny, acl)
  else if name = inboxTopic then .ok (.allow, acl)
  else
    match parseGroupExchange name with
    | none => .ok (.deny, acl)
    | some groupExchange =>
      if permission = Permission.configure then
        if groupExchange.leaderAic = username then .ok (.allow, acl) else .ok (.deny, acl)
      else do
        let (isMember, acl) ← acl.checkGroupMembership answers groupExchange.leaderAic
          groupExchange.groupId username
        return (if isMember then .allow else .deny, acl)

def activeMember (groupQueue : GroupQueueName) (username : Text) : Except PyError (Bool × Acl) :=
  if username = groupQueue.memberAic then
    acl.checkGroupMembership answers groupQueue.leaderAic groupQueue.groupId username
  else .ok (false, acl)

def checkQueuePermission (username name permission : Text) :
    Except PyError (AuthDecision × Acl) :=
  match parseInboxQueue name with
  | some inboxOwner => if inboxOwner = username then .ok (.allow, acl) else .ok (.deny, acl)
  | none =>
    match parseGroupQueue name with
    | none => .ok (.deny, acl)
    | some groupQueue => do
      let (isActiveMember, acl) ← activeMember acl answers groupQueue username
      if permission = Permission.configure ∨ permission = Permission.write then
        if username = groupQueue.leaderAic then return (.allow, acl)
        else if username = groupQueue.memberAic ∧ isActiveMember then return (.allow, acl)
        else return (.deny, acl)
      else if permission = Permission.read then
        if username = groupQueue.memberAic ∧ isActiveMember then return (.allow, acl)
        else return (.deny, acl)
      else return (.deny, acl)

def checkResource (username vhost resource name permission : Text) :
    Except PyError (AuthDecision × Acl) :=
  if ¬ validateAicFormat username aicPrefix then .ok (.deny, acl)
  else if vhost ≠ acpsVhost then .ok (.deny, acl)
  else if permission ∉ [Permission.configure, Permission.write, Permission.read] then .ok (.deny, acl)
  else if resource = Resource.exchange then
    checkExchangePermission acl answers username name permission
  else if resource = Resource.queue then
    checkQueuePermission acl answers username name permission
  else .ok (.deny, acl)

end Decisions

section Rights

variable (members : Text → Text → Finset Text) (username : Text)

inductive ExchangeRight (permission : Text) : Text → Prop where
  | topic : ExchangeRight permission inboxTopic
  | leader (groupId : Text) (hvalid : (Reading.exchange ⟨username, groupId⟩).Valid)
      (hpermission : permission = Permission.configure) :
      ExchangeRight permission (Reading.exchange ⟨username, groupId⟩).text
  | member (g : GroupExchangeName) (hvalid : (Reading.exchange g).Valid)
      (hpermission : permission ≠ Permission.configure)
      (hmember : username ∈ members g.leaderAic g.groupId) :
      ExchangeRight permission (Reading.exchange g).text

inductive QueueRight (permission : Text) : Text → Prop where
  | inbox (hvalid : IsAic username) : QueueRight permission (Reading.inbox username).text
  | member (leaderAic groupId : Text)
      (hvalid : (Reading.queue ⟨leaderAic, groupId, username⟩).Valid)
      (hmember : username ∈ members leaderAic groupId) :
      QueueRight permission (Reading.queue ⟨leaderAic, groupId, username⟩).text
  | leader (groupId memberAic : Text)
      (hvalid : (Reading.queue ⟨username, groupId, memberAic⟩).Valid)
      (hpermission : permission = Permission.configure ∨ permission = Permission.write) :
      QueueRight permission (Reading.queue ⟨username, groupId, memberAic⟩).text

theorem exchangeRight_iff {permission name : Text} :
    ExchangeRight members username permission name ↔ name = inboxTopic ∨
      ∃ g, parseGroupExchange name = some g ∧
        if permission = Permission.configure then g.leaderAic = username
        else username ∈ members g.leaderAic g.groupId := by
  constructor
  · intro h
    cases h with
    | topic => exact .inl rfl
    | leader groupId hvalid hpermission =>
      exact .inr ⟨_, parseGroupExchange_eq_some.mpr ⟨hvalid, rfl⟩, by rw [if_pos hpermission]⟩
    | member g hvalid hpermission hmember =>
      exact .inr ⟨g, parseGroupExchange_eq_some.mpr ⟨hvalid, rfl⟩, by rwa [if_neg hpermission]⟩
  · rintro (rfl | ⟨⟨leaderAic, groupId⟩, hparse, hright⟩)
    · exact .topic
    · obtain ⟨hvalid, rfl⟩ := parseGroupExchange_eq_some.mp hparse
      by_cases hpermission : permission = Permission.configure
      · rw [if_pos hpermission] at hright
        subst hright
        exact .leader groupId hvalid hpermission
      · rw [if_neg hpermission] at hright
        exact .member _ hvalid hpermission hright

theorem queueRight_iff {permission name : Text} :
    QueueRight members username permission name ↔ parseInboxQueue name = some username ∨
      ∃ q, parseGroupQueue name = some q ∧
        (q.memberAic = username ∧ username ∈ members q.leaderAic q.groupId ∨
          q.leaderAic = username ∧
            (permission = Permission.configure ∨ permission = Permission.write)) := by
  constructor
  · intro h
    cases h with
    | inbox hvalid => exact .inl (parseInboxQueue_eq_some.mpr ⟨hvalid, rfl⟩)
    | member leaderAic groupId hvalid hmember =>
      exact .inr ⟨_, parseGroupQueue_eq_some.mpr ⟨hvalid, rfl⟩, .inl ⟨rfl, hmember⟩⟩
    | leader groupId memberAic hvalid hpermission =>
      exact .inr ⟨_, parseGroupQueue_eq_some.mpr ⟨hvalid, rfl⟩, .inr ⟨rfl, hpermission⟩⟩
  · rintro (hparse | ⟨⟨leaderAic, groupId, memberAic⟩, hparse, hright⟩)
    · obtain ⟨hvalid, rfl⟩ := parseInboxQueue_eq_some.mp hparse
      exact .inbox hvalid
    · obtain ⟨hvalid, rfl⟩ := parseGroupQueue_eq_some.mp hparse
      rcases hright with ⟨rfl, hmember⟩ | ⟨rfl, hpermission⟩
      · exact .member leaderAic groupId hvalid hmember
      · exact .leader groupId memberAic hvalid hpermission

end Rights

section Allowed

variable (acl : Acl) (answers : Answers) {username : Text}

theorem checkExchangePermission_ok (husername : IsAic username) (name permission : Text) :
    ∃ d acl', checkExchangePermission acl answers username name permission = .ok (d, acl') ∧
      (d = .allow ↔ ExchangeRight (acl.members answers) username permission name) := by
  rw [exchangeRight_iff]
  unfold checkExchangePermission
  by_cases hdefault : name = defaultExchange
  · have htopic : name ≠ inboxTopic := hdefault ▸ (by decide)
    have hparse : parseGroupExchange name = none := hdefault ▸ (by decide)
    exact ⟨.deny, acl, if_pos hdefault, by simp [htopic, hparse]⟩
  · rw [if_neg hdefault]
    by_cases htopic : name = inboxTopic
    · exact ⟨.allow, acl, if_pos htopic, by simp [htopic]⟩
    · rw [if_neg htopic]
      cases hparse : parseGroupExchange name with
      | none => exact ⟨.deny, acl, rfl, by simp [htopic]⟩
      | some g =>
        obtain ⟨hvalid, -⟩ := parseGroupExchange_eq_some.mp hparse
        by_cases hpermission : permission = Permission.configure
        · by_cases hleader : g.leaderAic = username
          · exact ⟨.allow, acl, by simp [hpermission, hleader], by simp [hpermission, hleader]⟩
          · exact ⟨.deny, acl, by simp [hpermission, hleader],
              by simp [hpermission, hleader, htopic]⟩
        · obtain ⟨acl', hcheck⟩ := acl.checkGroupMembership_ok answers hvalid.1 hvalid.2 husername
          refine ⟨if username ∈ acl.members answers g.leaderAic g.groupId then .allow else .deny,
            acl', ?_, by simp [hpermission, htopic]⟩
          simp only [if_neg hpermission, hcheck, Fallible.ok_bind, decide_eq_true_eq]
          rfl

theorem activeMember_ok (husername : IsAic username) {q : GroupQueueName}
    (hvalid : (Reading.queue q).Valid) :
    ∃ isActiveMember acl', activeMember acl answers q username = .ok (isActiveMember, acl') ∧
      (username = q.memberAic ∧ isActiveMember = true ↔
        username = q.memberAic ∧ username ∈ acl.members answers q.leaderAic q.groupId) := by
  unfold activeMember
  by_cases hmember : username = q.memberAic
  · obtain ⟨acl', hcheck⟩ := acl.checkGroupMembership_ok answers hvalid.1 hvalid.2.1 husername
    exact ⟨_, acl', (if_pos hmember).trans hcheck, by rw [decide_eq_true_eq]⟩
  · exact ⟨false, acl, if_neg hmember, by simp [hmember]⟩

theorem checkQueuePermission_ok (husername : IsAic username) (name : Text) {permission : Text}
    (hpermission : permission ∈ [Permission.configure, Permission.write, Permission.read]) :
    ∃ d acl', checkQueuePermission acl answers username name permission = .ok (d, acl') ∧
      (d = .allow ↔ QueueRight (acl.members answers) username permission name) := by
  unfold checkQueuePermission
  cases hinbox : parseInboxQueue name with
  | some inboxOwner =>
    have hparse := parseGroupQueue_of_inbox hinbox
    by_cases howner : inboxOwner = username
    · exact ⟨.allow, acl, if_pos howner, by simp [queueRight_iff, hinbox, howner]⟩
    · exact ⟨.deny, acl, if_neg howner, by simp [queueRight_iff, hinbox, hparse, howner]⟩
  | none =>
    cases hparse : parseGroupQueue name with
    | none => exact ⟨.deny, acl, rfl, by simp [queueRight_iff, hinbox, hparse]⟩
    | some q =>
      obtain ⟨hvalid, -⟩ := parseGroupQueue_eq_some.mp hparse
      obtain ⟨isActiveMember, acl', hrun, hactive⟩ := activeMember_ok acl answers husername hvalid
      have hright : QueueRight (acl.members answers) username permission name ↔
          username = q.memberAic ∧ isActiveMember = true ∨ username = q.leaderAic ∧
            (permission = Permission.configure ∨ permission = Permission.write) := by
        simp [queueRight_iff, hinbox, hparse, hactive, eq_comm]
      simp only [List.mem_cons, List.not_mem_nil, or_false] at hpermission
      simp only [hrun, Fallible.ok_bind]
      by_cases hown : username = q.memberAic ∧ isActiveMember = true
      · refine ⟨.allow, acl', ?_, iff_of_true rfl (hright.mpr (.inl hown))⟩
        simp only [if_pos hown, ite_self]
        rcases hpermission with rfl | rfl | rfl <;> simp [pure, Except.pure]
      · simp only [if_neg hown, ite_self]
        by_cases hleader : username = q.leaderAic ∧
            (permission = Permission.configure ∨ permission = Permission.write)
        · refine ⟨.allow, acl', ?_, iff_of_true rfl (hright.mpr (.inr hleader))⟩
          rw [if_pos hleader.2, if_pos hleader.1]
          rfl
        · refine ⟨.deny, acl', ?_, by simp [hright, hown, hleader]⟩
          by_cases hchange : permission = Permission.configure ∨ permission = Permission.write
          · rw [if_pos hchange, if_neg fun h => hleader ⟨h, hchange⟩]
            rfl
          · rw [if_neg hchange]
            rfl

theorem checkResource_ok (username vhost resource name permission : Text) :
    ∃ d acl', checkResource acl answers username vhost resource name permission = .ok (d, acl') ∧
      (d = .allow → IsAic username ∧
        (resource = Resource.exchange ∧
            ExchangeRight (acl.members answers) username permission name ∨
          resource = Resource.queue ∧
            QueueRight (acl.members answers) username permission name)) := by
  unfold checkResource
  by_cases husername : IsAic username
  · rw [if_neg (not_not.mpr husername)]
    by_cases hvhost : vhost = acpsVhost
    · rw [if_neg (not_not.mpr hvhost)]
      by_cases hpermission :
          permission ∈ [Permission.configure, Permission.write, Permission.read]
      · rw [if_neg (not_not.mpr hpermission)]
        by_cases hexchange : resource = Resource.exchange
        · obtain ⟨d, acl', hrun, hright⟩ :=
            checkExchangePermission_ok acl answers husername name permission
          exact ⟨d, acl', (if_pos hexchange).trans hrun,
            fun hd => ⟨husername, .inl ⟨hexchange, hright.mp hd⟩⟩⟩
        · rw [if_neg hexchange]
          by_cases hqueue : resource = Resource.queue
          · obtain ⟨d, acl', hrun, hright⟩ :=
              checkQueuePermission_ok acl answers husername name hpermission
            exact ⟨d, acl', (if_pos hqueue).trans hrun,
              fun hd => ⟨husername, .inr ⟨hqueue, hright.mp hd⟩⟩⟩
          · exact ⟨.deny, acl, if_neg hqueue, fun hd => by cases hd⟩
      · exact ⟨.deny, acl, if_pos hpermission, fun hd => by cases hd⟩
    · exact ⟨.deny, acl, if_pos hvhost, fun hd => by cases hd⟩
  · exact ⟨.deny, acl, if_pos husername, fun hd => by cases hd⟩

def Allows (username vhost resource name permission : Text) : Prop :=
  ∃ acl', checkResource acl answers username vhost resource name permission = .ok (.allow, acl')

variable {acl answers}

theorem Allows.right {vhost resource name permission : Text}
    (h : Allows acl answers username vhost resource name permission) :
    resource = Resource.exchange ∧
        ExchangeRight (acl.members answers) username permission name ∨
      resource = Resource.queue ∧ QueueRight (acl.members answers) username permission name := by
  obtain ⟨acl', hallow⟩ := h
  obtain ⟨d, acl'', hrun, hright⟩ :=
    checkResource_ok acl answers username vhost resource name permission
  obtain ⟨rfl, -⟩ := Prod.mk.inj (Except.ok.inj (hallow.symm.trans hrun))
  exact (hright rfl).2

def OwnQueue (acl : Acl) (answers : Answers) (username name : Text) : Prop :=
  name = (Reading.inbox username).text ∨
    ∃ leaderAic groupId, (Reading.queue ⟨leaderAic, groupId, username⟩).Valid ∧
      name = (Reading.queue ⟨leaderAic, groupId, username⟩).text ∧
      username ∈ acl.members answers leaderAic groupId

def LedQueue (username name : Text) : Prop :=
  ∃ groupId memberAic, (Reading.queue ⟨username, groupId, memberAic⟩).Valid ∧
    name = (Reading.queue ⟨username, groupId, memberAic⟩).text

theorem Allows.queue {vhost name permission : Text}
    (h : Allows acl answers username vhost Resource.queue name permission) :
    OwnQueue acl answers username name ∨ permission ≠ Permission.read ∧ LedQueue username name := by
  rcases h.right with ⟨hresource, -⟩ | ⟨-, hright⟩
  · exact absurd hresource (by decide)
  · cases hright with
    | inbox hvalid => exact .inl (.inl rfl)
    | member leaderAic groupId hvalid hmember =>
      exact .inl (.inr ⟨leaderAic, groupId, hvalid, rfl, hmember⟩)
    | leader groupId memberAic hvalid hpermission =>
      refine .inr ⟨?_, groupId, memberAic, hvalid, rfl⟩
      rcases hpermission with rfl | rfl <;> decide

theorem Allows.exchange {vhost permission : Text} {g : GroupExchangeName}
    (hg : (Reading.exchange g).Valid)
    (h : Allows acl answers username vhost Resource.exchange (Reading.exchange g).text
      permission) :
    if permission = Permission.configure then username = g.leaderAic
    else username ∈ acl.members answers g.leaderAic g.groupId := by
  rcases h.right with ⟨-, hright⟩ | ⟨hresource, -⟩
  · have hparse : parseGroupExchange (Reading.exchange g).text = some g :=
      parseGroupExchange_eq_some.mpr ⟨hg, rfl⟩
    rcases (exchangeRight_iff _ _).mp hright with htopic | ⟨g', hparse', hright⟩
    · rw [htopic] at hparse
      exact absurd hparse (by simp [show parseGroupExchange inboxTopic = none by decide])
    · obtain rfl := Option.some.inj (hparse.symm.trans hparse')
      split
      next hconfigure => exact ((if_pos hconfigure).mp hright).symm
      next hconfigure => rwa [if_neg hconfigure] at hright
  · exact absurd hresource (by decide)

end Allowed

theorem queue_isolation (acl : Acl) (answers : Answers) (username vhost name : Text) :
    (Allows acl answers username vhost Resource.queue name Permission.read →
      OwnQueue acl answers username name) ∧
    (∀ permission, Allows acl answers username vhost Resource.queue name permission →
      OwnQueue acl answers username name ∨ LedQueue username name) ∧
    (∀ g, (Reading.exchange g).Valid → name = (Reading.exchange g).text → ∀ permission,
      Allows acl answers username vhost Resource.exchange name permission →
        if permission = Permission.configure then username = g.leaderAic
        else username ∈ acl.members answers g.leaderAic g.groupId) ∧
    (∀ r : Reading, r.Valid → r ∈ readings r.text) ∧
    (∀ r ∈ readings name, r.Valid ∧ name = r.text ∧ ∀ s ∈ readings name, s = r) := by
  refine ⟨fun h => ?_, fun permission h => ?_, ?_, fun r hr => mem_readings.mpr ⟨hr, rfl⟩, ?_⟩
  · exact h.queue.resolve_right fun hled => hled.1 rfl
  · exact h.queue.imp_right And.right
  · rintro g hg rfl permission h
    exact h.exchange hg
  · intro r hr
    obtain ⟨hvalid, hname⟩ := mem_readings.mp hr
    exact ⟨hvalid, hname, fun s hs => readings_unique hs hr⟩

end Acps.Mq
