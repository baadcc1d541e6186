import Acps.Aip.Identity
import Acps.Lib.Fallible
import Acps.Lib.Json
import Acps.Lib.Keyed
import Acps.Lib.Transition
import Acps.Partner.Task

/-!
Notifications of a partner: leaders register callbacks for a task, subscribe them with a start, and each
task result that is dispatched is posted to the subscribed callbacks.
-/

namespace Acps.Aip.Notifications

open Aic (UpperCase)
open Partner (TaskState)

structure NotificationConfig where
  id : Option String
  url : String
  token : String
  taskId : String
  deriving DecidableEq

structure Entry where
  owner : String
  taskId : String
  configId : String
  config : NotificationConfig
  deriving DecidableEq

def Entry.key (entry : Entry) : String × String × String :=
  (entry.owner, entry.taskId, entry.configId)

structure NotificationSubscription where
  taskId : String
  configId : String
  ownerAic : Option String
  notifyOnStates : Option (List TaskState)
  deriving DecidableEq

def ownerKey (ownerAic : Option String) : String :=
  (ownerAic.filter (· ≠ "")).getD "__notification_unscoped__"

def NotificationSubscription.key (sub : NotificationSubscription) : String × String × String :=
  (ownerKey sub.ownerAic, sub.taskId, sub.configId)

def NotificationSubscription.wants (sub : NotificationSubscription) (state : TaskState) : Bool :=
  match sub.notifyOnStates with
  | none => true
  | some states => states = [] ∨ state ∈ states

abbrev ConfigStore := List Entry

namespace ConfigStore

variable (store : ConfigStore)

def put (entry : Entry) : ConfigStore :=
  if (Keyed.find Entry.key store entry.key).isSome then
    Keyed.modify Entry.key store entry.key fun _ => entry
  else store ++ [entry]

def set (config : NotificationConfig) (ownerAic : Option String) (fresh : String) :
    NotificationConfig × ConfigStore :=
  let config := if (config.id.filter (· ≠ "")).isNone then { config with id := some fresh }
    else config
  let entry : Entry :=
    { owner := ownerKey ownerAic, taskId := config.taskId, configId := config.id.getD "", config }
  (config, store.put entry)

def getForOwner (ownerAic : Option String) (taskId : String) (configId : Option String) :
    List Entry :=
  store.filter fun entry => entry.owner = ownerKey ownerAic ∧ entry.taskId = taskId ∧
    configId.all fun id => entry.configId = id

def deleteForOwner (ownerAic : Option String) (taskId : String) (configId : Option String) :
    Bool × ConfigStore :=
  (store.getForOwner ownerAic taskId configId ≠ [], store.filter fun entry =>
    ¬ (entry.owner = ownerKey ownerAic ∧ entry.taskId = taskId ∧
      configId.all fun id => entry.configId = id))

def requireForOwner (ownerAic : Option String) (taskId configId : String) : Option Entry :=
  (store.getForOwner ownerAic taskId (some configId)).head?

end ConfigStore

structure NotificationService where
  localAic : Option String
  identityBindingEnabled : Bool
  store : ConfigStore
  subs : List NotificationSubscription

inductive NotificationError where
  | check (error : CheckError)
  | value (text : String)
  | key (text : String)
  | type
  deriving DecidableEq

structure StartCommand where
  senderId : String
  taskId : Option String
  commandParams : Option JsonObject

structure TaskResult where
  senderId : String
  taskId : String
  state : TaskState

section States

def taskStateOf : String → Option TaskState
  | "accepted" => some .accepted
  | "working" => some .working
  | "awaiting-input" => some .awaitingInput
  | "awaiting-completion" => some .awaitingCompletion
  | "completed" => some .completed
  | "canceled" => some .canceled
  | "failed" => some .failed
  | "rejected" => some .rejected
  | _ => none

def stateOfJson : Json → Option TaskState
  | .str text => taskStateOf text
  | _ => none

def notifyOnStates (raw : Option Json) : Except NotificationError (Option (List TaskState)) :=
  match raw with
  | none => .ok none
  | some raw =>
    if raw.truthy then
      match raw with
      | .arr items => .ok (items.mapM stateOfJson)
      | .str _ => .ok none
      | .obj members => .ok (members.mapM fun member => taskStateOf member.1)
      | .null | .bool _ | .num _ => .error .type
    else .ok none

end States

def configIdOf : Json → Except NotificationError String
  | .str text => .ok text
  | .arr _ | .obj _ => .error .type
  | .num n => .error (.key s!"NotificationConfig {n} not found")
  | .bool _ => .error (.key "NotificationConfig True not found")
  | .null => .error (.value "commandParams.notificationConfigId is required")

namespace NotificationService

variable (U : UpperCase) (s : NotificationService)

def handleSet (config : NotificationConfig) (ownerAic : Option String) (fresh : String) :
    NotificationService := { s with store := (s.store.set config ownerAic fresh).2 }

def handleDelete (ownerAic : Option String) (taskId : String) (configId : Option String) :
    NotificationService := { s with store := (s.store.deleteForOwner ownerAic taskId configId).2 }

def checkStart (command : StartCommand) (ownerAic : Option String) :
    Except NotificationError Unit :=
  if s.identityBindingEnabled then
    match assertSenderMatchesPeer U command.senderId ownerAic with
    | .error error => .error (.check error)
    | .ok _ => .ok ()
  else .ok ()

def startSubscription (command : StartCommand) (ownerAic : Option String) :
    Except NotificationError NotificationSubscription := do
  s.checkStart U command ownerAic
  let some taskId := command.taskId.filter (· ≠ "") | .error (.value "taskId is required")
  let commandParams := command.commandParams.getD []
  let some rawId := (commandParams.get "notificationConfigId").filter (·.truthy)
    | .error (.value "commandParams.notificationConfigId is required")
  let configId ← configIdOf rawId
  let some entry := s.store.requireForOwner ownerAic taskId configId
    | .error (.key s!"NotificationConfig {configId} not found")
  let states ← notifyOnStates (commandParams.get "notifyOnStates")
  return { taskId, configId := entry.configId, ownerAic, notifyOnStates := states }

def handleStart (command : StartCommand) (ownerAic : Option String) :
    Except NotificationError NotificationService :=
  (s.startSubscription U command ownerAic).map fun sub => { s with subs := s.subs ++ [sub] }

def subMatches (taskId : String) (state : TaskState) : List NotificationSubscription :=
  s.subs.filter fun sub => sub.taskId = taskId ∧ sub.wants state

def dispatch (result : TaskResult) : Except NotificationError (List Entry) := do
  if s.identityBindingEnabled then
    match assertSenderMatchesExpected U result.senderId s.localAic with
    | .error error => .error (.check error)
    | .ok _ => .ok ()
  (s.subMatches result.taskId result.state).mapM fun sub =>
    match s.store.requireForOwner sub.ownerAic result.taskId sub.configId with
    | some entry => .ok entry
    | none => .error (.key s!"NotificationConfig {sub.configId} not found")

end NotificationService

structure Running where
  service : NotificationService
  started : List NotificationSubscription

inductive Request where
  | set (config : NotificationConfig) (ownerAic : Option String) (fresh : String)
  | delete (ownerAic : Option String) (taskId : String) (configId : Option String)
  | get (ownerAic : Option String) (taskId : String) (configId : Option String)
  | start (command : StartCommand) (ownerAic : Option String)
  | dispatch (result : TaskResult)

def Running.step (U : UpperCase) (r : Running) : Request → Running
  | .set config ownerAic fresh => { r with service := r.service.handleSet config ownerAic fresh }
  | .delete ownerAic taskId configId =>
    { r with service := r.service.handleDelete ownerAic taskId configId }
  | .get _ _ _ | .dispatch _ => r
  | .start command ownerAic =>
    match r.service.startSubscription U command ownerAic with
    | .ok sub =>
      { service := { r.service with subs := r.service.subs ++ [sub] }
        started := r.started ++ [sub] }
    | .error _ => r

def running (U : UpperCase) : Transition.System Running Request where
  step r request := some (r.step U request)

def Running.initial (localAic : Option String) (identityBindingEnabled : Bool) : Running :=
  { service := { localAic, identityBindingEnabled, store := [], subs := [] }, started := [] }

section Requests

variable {U : UpperCase} {store : ConfigStore} {r : Running}

theorem requireForOwner_eq (ownerAic : Option String) (taskId configId : String) :
    store.requireForOwner ownerAic taskId configId =
      Keyed.find Entry.key store (ownerKey ownerAic, taskId, configId) := by
  unfold ConfigStore.requireForOwner ConfigStore.getForOwner Keyed.find
  rw [List.head?_filter]
  congr 1
  funext entry
  simp [Entry.key, Prod.ext_iff]

theorem put_distinct (h : Keyed.Unique Entry.key store) (entry : Entry) :
    Keyed.Unique Entry.key (store.put entry) := by
  unfold ConfigStore.put
  split
  next =>
    apply Keyed.unique_modify _ h
    exact fun row _ hkey => hkey.symm
  next hnone =>
    apply Keyed.unique_append h
    exact Keyed.find_eq_none.mp (by simpa using hnone)

structure Kept (r : Running) : Prop where
  distinct : Keyed.Unique Entry.key r.service.store
  subs : r.service.subs = r.started

theorem step_kept (h : Kept r) (request : Request) : Kept (r.step U request) := by
  cases request with
  | set config ownerAic fresh => exact ⟨put_distinct h.distinct _, h.subs⟩
  | delete ownerAic taskId configId => exact ⟨h.distinct.sublist (List.filter_sublist.map _), h.subs⟩
  | get ownerAic taskId configId => exact h
  | dispatch result => exact h
  | start command ownerAic =>
    unfold Running.step
    dsimp only
    split
    next sub _ => exact ⟨h.distinct, congrArg (· ++ [sub]) h.subs⟩
    next => exact h

end Requests

section Dispatching

variable (U : UpperCase) (r : Running)

def Genuine (result : TaskResult) : Prop :=
  r.service.identityBindingEnabled = true →
    ∃ sender, assertSenderMatchesExpected U result.senderId r.service.localAic = .ok sender

def posts (result : TaskResult) : List Entry :=
  match r.service.dispatch U result with
  | .ok entries => entries
  | .error _ => []

def Subscribed (result : TaskResult) (key : String × String × String) : Prop :=
  ∃ sub ∈ r.started, sub.key = key ∧ sub.taskId = result.taskId ∧ sub.wants result.state = true

structure Delivered (result : TaskResult) : Prop where
  once : ((posts U r result).map Entry.key).Nodup
  exact : ∀ entry, entry ∈ posts U r result ↔
    entry ∈ r.service.store ∧ Subscribed r result entry.key

def Live (sub : NotificationSubscription) : Prop := sub.key ∈ r.service.store.map Entry.key

/-- All subscriptions that match are of different configurations that exist, or of none that does. -/
def Coherent (result : TaskResult) : Prop :=
  (∀ sub ∈ r.service.subMatches result.taskId result.state, Live r sub) ∧
      ((r.service.subMatches result.taskId result.state).map NotificationSubscription.key).Nodup ∨
    ∀ sub ∈ r.service.subMatches result.taskId result.state, ¬ Live r sub

variable {U : UpperCase} {r : Running} {result : TaskResult}

theorem subMatches_iff {sub : NotificationSubscription} :
    sub ∈ r.service.subMatches result.taskId result.state ↔
      sub ∈ r.service.subs ∧ sub.taskId = result.taskId ∧ sub.wants result.state = true := by
  unfold NotificationService.subMatches
  rw [List.mem_filter, decide_eq_true_eq]

def lookUp (r : Running) (sub : NotificationSubscription) : Except NotificationError Entry :=
  match Keyed.find Entry.key r.service.store sub.key with
  | some entry => .ok entry
  | none => .error (.key s!"NotificationConfig {sub.configId} not found")

theorem dispatch_eq (hgenuine : Genuine U r result) :
    r.service.dispatch U result =
      (r.service.subMatches result.taskId result.state).mapM (lookUp r) := by
  have hlook : (r.service.subMatches result.taskId result.state).mapM (fun sub =>
      match r.service.store.requireForOwner sub.ownerAic result.taskId sub.configId with
      | some entry => Except.ok entry
      | none => .error (.key s!"NotificationConfig {sub.configId} not found")) =
        (r.service.subMatches result.taskId result.state).mapM (lookUp r) := by
    apply Fallible.mapM_congr
    intro sub hsub
    rw [requireForOwner_eq, ← (subMatches_iff.mp hsub).2.1]
    rfl
  unfold NotificationService.dispatch
  split
  next hbinding =>
    obtain ⟨sender, hsender⟩ := hgenuine hbinding
    rw [hsender]
    exact hlook
  next => exact hlook

theorem lookUp_eq_ok {sub : NotificationSubscription} {entry : Entry}
    (h : lookUp r sub = .ok entry) : entry ∈ r.service.store ∧ entry.key = sub.key := by
  unfold lookUp at h
  split at h
  next found hfind =>
    obtain rfl := Except.ok.inj h
    exact ⟨Keyed.mem_of_find hfind, Keyed.key_of_find hfind⟩
  next => cases h

theorem live_iff {sub : NotificationSubscription} :
    Live r sub ↔ ∃ entry, lookUp r sub = .ok entry := by
  unfold Live lookUp
  constructor
  · intro h
    cases hfind : Keyed.find Entry.key r.service.store sub.key with
    | none =>
      obtain ⟨entry, hentry, hkey⟩ := List.mem_map.mp h
      exact absurd hkey (Keyed.find_eq_none.mp hfind entry hentry)
    | some entry => exact ⟨entry, rfl⟩
  · rintro ⟨entry, hentry⟩
    obtain ⟨hmem, hkey⟩ := lookUp_eq_ok hentry
    exact List.mem_map.mpr ⟨entry, hmem, hkey⟩

theorem posts_of_live (hgenuine : Genuine U r result)
    (hlive : ∀ sub ∈ r.service.subMatches result.taskId result.state, Live r sub) :
    (r.service.subMatches result.taskId result.state).mapM (lookUp r) = .ok (posts U r result) := by
  obtain ⟨entries, hentries⟩ := Fallible.exists_mapM_eq_ok.mpr fun sub hsub =>
    live_iff.mp (hlive sub hsub)
  unfold posts
  rw [dispatch_eq hgenuine, hentries]

theorem posts_of_dead (hgenuine : Genuine U r result) {sub : NotificationSubscription}
    (hsub : sub ∈ r.service.subMatches result.taskId result.state) (hdead : ¬ Live r sub) :
    posts U r result = [] := by
  unfold posts
  rw [dispatch_eq hgenuine]
  split
  next entries hentries =>
    have hall := Fallible.exists_mapM_eq_ok.mp ⟨entries, hentries⟩
    exact (hdead (live_iff.mpr (hall sub hsub))).elim
  next => rfl

theorem mapM_keys {subs : List NotificationSubscription} {entries : List Entry}
    (h : subs.mapM (lookUp r) = .ok entries) :
    entries.map Entry.key = subs.map NotificationSubscription.key := by
  have hall := Fallible.forall₂_of_mapM h
  clear h
  induction hall with
  | nil => rfl
  | cons hentry _ ih => rw [List.map_cons, List.map_cons, ih, (lookUp_eq_ok hentry).2]

theorem lookUp_of_key (hkept : Kept r) {sub : NotificationSubscription} {entry : Entry}
    (hmem : entry ∈ r.service.store) (hkey : sub.key = entry.key) : lookUp r sub = .ok entry := by
  unfold lookUp
  rw [hkey, Keyed.find_of_mem hkept.distinct hmem]

theorem delivered_iff (hkept : Kept r) (hgenuine : Genuine U r result) :
    Delivered U r result ↔ Coherent r result := by
  have hstarted {sub : NotificationSubscription} :
      sub ∈ r.service.subMatches result.taskId result.state ↔
        sub ∈ r.started ∧ sub.taskId = result.taskId ∧ sub.wants result.state = true := by
    rw [subMatches_iff, hkept.subs]
  have hsubscribed {entry : Entry} :
      entry ∈ r.service.store ∧ Subscribed r result entry.key ↔
        ∃ sub ∈ r.service.subMatches result.taskId result.state, lookUp r sub = .ok entry := by
    constructor
    · rintro ⟨hmem, sub, hsub, hkey, hmatch⟩
      exact ⟨sub, hstarted.mpr ⟨hsub, hmatch⟩, lookUp_of_key hkept hmem hkey⟩
    · rintro ⟨sub, hsub, hfound⟩
      obtain ⟨hmem, hkey⟩ := lookUp_eq_ok hfound
      exact ⟨hmem, sub, (hstarted.mp hsub).1, hkey.symm, (hstarted.mp hsub).2⟩
  by_cases hlive : ∀ sub ∈ r.service.subMatches result.taskId result.state, Live r sub
  · have hposts := posts_of_live hgenuine hlive
    constructor
    · intro h
      refine .inl ⟨hlive, ?_⟩
      rw [← mapM_keys hposts]
      exact h.once
    · intro h
      constructor
      · rw [mapM_keys hposts]
        rcases h with ⟨-, honce⟩ | hdead
        · exact honce
        · have hnone : r.service.subMatches result.taskId result.state = [] :=
            List.eq_nil_iff_forall_not_mem.mpr fun sub hsub => hdead sub hsub (hlive sub hsub)
          rw [hnone]
          exact List.nodup_nil
      · intro entry
        rw [hsubscribed]
        exact Fallible.mem_of_mapM hposts
  · push Not at hlive
    obtain ⟨dead, hdead, hgone⟩ := hlive
    have hposts := posts_of_dead hgenuine hdead hgone
    constructor
    · intro h
      right
      intro sub hsub hlive
      obtain ⟨entry, hentry⟩ := live_iff.mp hlive
      have hposted := (h.exact entry).mpr (hsubscribed.mpr ⟨sub, hsub, hentry⟩)
      rw [hposts] at hposted
      exact List.not_mem_nil hposted
    · rintro (⟨hall, -⟩ | hnone)
      · exact (hgone (hall dead hdead)).elim
      · constructor
        · rw [hposts]
          exact List.nodup_nil
        · intro entry
          rw [hposts, hsubscribed]
          constructor
          · exact fun h => absurd h List.not_mem_nil
          · rintro ⟨sub, hsub, hentry⟩
            exact (hnone sub hsub (live_iff.mpr ⟨entry, hentry⟩)).elim

end Dispatching

section Runs

variable (U : UpperCase)

def DeliversRequest (r : Running) : Request → Prop
  | .dispatch result => Genuine U r result → Delivered U r result
  | _ => True

def CoherentRequest (r : Running) : Request → Prop
  | .dispatch result => Genuine U r result → Coherent r result
  | _ => True

theorem notifications_delivered_iff (localAic : Option String) (identityBindingEnabled : Bool)
    (requests : List Request) :
    (running U).Meets (DeliversRequest U) (.initial localAic identityBindingEnabled) requests ↔
      (running U).Meets (CoherentRequest U) (.initial localAic identityBindingEnabled) requests := by
  apply (running U).meets_congr (I := Kept)
  · intro r request t hkept _ hstep
    obtain rfl : r.step U request = t := Option.some.inj hstep
    exact step_kept hkept request
  · intro r request hkept
    cases request with
    | dispatch result => exact forall_congr' fun hgenuine => delivered_iff hkept hgenuine
    | set | delete | get | start => exact Iff.rfl
  · exact ⟨List.nodup_nil, rfl⟩

def PoliteRequest (r : Running) : Request → Prop
  | .start command ownerAic => ∀ sub, r.service.startSubscription U command ownerAic = .ok sub →
      ∀ old ∈ r.started, old.key ≠ sub.key
  | .delete ownerAic taskId configId => ∀ entry ∈ r.service.store,
      entry ∈ r.service.store.getForOwner ownerAic taskId configId →
        ∀ old ∈ r.started, old.key ≠ entry.key
  | _ => True

variable {U} {r : Running}

theorem startSubscription_live {command : StartCommand} {ownerAic : Option String}
    {sub : NotificationSubscription} (h : r.service.startSubscription U command ownerAic = .ok sub) :
    sub.key ∈ r.service.store.map Entry.key := by
  unfold NotificationService.startSubscription at h
  obtain ⟨-, -, h⟩ := Fallible.bind_eq_ok.mp h
  split at h
  next taskId _ =>
    dsimp only at h
    split at h
    next rawId _ =>
      obtain ⟨configId, -, h⟩ := Fallible.bind_eq_ok.mp h
      split at h
      next entry hentry =>
        obtain ⟨states, -, h⟩ := Fallible.bind_eq_ok.mp h
        obtain rfl := Except.ok.inj h
        rw [requireForOwner_eq] at hentry
        have hkey := Keyed.key_of_find hentry
        refine List.mem_map.mpr ⟨entry, Keyed.mem_of_find hentry, ?_⟩
        rw [hkey]
        have hconfig : entry.configId = configId := congrArg (fun key => key.2.2) hkey
        unfold NotificationSubscription.key
        rw [hconfig]
      next => cases h
    next => cases h
  next => cases h

theorem mem_put_aics {store : ConfigStore} {entry : Entry} {key : String × String × String}
    (h : key ∈ store.map Entry.key) : key ∈ (store.put entry).map Entry.key := by
  obtain ⟨old, hold, rfl⟩ := List.mem_map.mp h
  unfold ConfigStore.put
  split
  · refine List.mem_map.mpr ⟨if old.key = entry.key then entry else old,
      Keyed.mem_modify.mpr ⟨old, hold, rfl⟩, ?_⟩
    split
    next heq => exact heq.symm
    next => rfl
  · exact List.mem_map.mpr ⟨old, List.mem_append_left _ hold, rfl⟩

structure AllLive (r : Running) : Prop where
  kept : Kept r
  live : ∀ sub ∈ r.started, Live r sub
  once : (r.started.map NotificationSubscription.key).Nodup

theorem AllLive.step (h : AllLive r) (request : Request) (hpolite : PoliteRequest U r request) :
    AllLive (r.step U request) := by
  refine ⟨step_kept h.kept request, ?_, ?_⟩
  · cases request with
    | set config ownerAic fresh => exact fun sub hsub => mem_put_aics (h.live sub hsub)
    | get | dispatch => exact h.live
    | delete ownerAic taskId configId =>
      intro sub hsub
      obtain ⟨entry, hentry, hkey⟩ := List.mem_map.mp (h.live sub hsub)
      refine List.mem_map.mpr ⟨entry, List.mem_filter.mpr ⟨hentry, ?_⟩, hkey⟩
      apply decide_eq_true
      intro hremoved
      exact hpolite entry hentry (List.mem_filter.mpr ⟨hentry, decide_eq_true hremoved⟩) sub hsub
        hkey.symm
    | start command ownerAic =>
      unfold Running.step
      dsimp only
      split
      next sub hstart =>
        intro old hold
        rcases List.mem_append.mp hold with hold | hold
        · exact h.live old hold
        · rw [List.mem_singleton.mp hold]
          exact startSubscription_live hstart
      next => exact h.live
  · cases request with
    | set | get | dispatch | delete => exact h.once
    | start command ownerAic =>
      unfold Running.step
      dsimp only
      split
      next sub hstart =>
        rw [List.map_append, List.nodup_append]
        refine ⟨h.once, List.nodup_singleton _, ?_⟩
        intro key hkey other hother
        obtain ⟨old, hold, rfl⟩ := List.mem_map.mp hkey
        rw [List.mem_singleton.mp hother]
        exact hpolite sub hstart old hold
      next => exact h.once

theorem polite_delivered {localAic : Option String} {identityBindingEnabled : Bool}
    {requests : List Request}
    (h : (running U).Meets (PoliteRequest U) (.initial localAic identityBindingEnabled) requests) :
    (running U).Meets (DeliversRequest U) (.initial localAic identityBindingEnabled) requests := by
  apply (running U).meets_of_invariant (I := AllLive) _ _ _ h
  · intro r request t hall hpolite hstep
    obtain rfl : r.step U request = t := Option.some.inj hstep
    exact hall.step request hpolite
  · intro r request hall _
    cases request with
    | dispatch result =>
      intro hgenuine
      apply (delivered_iff hall.kept hgenuine).mpr
      left
      unfold NotificationService.subMatches
      rw [hall.kept.subs]
      constructor
      · exact fun sub hsub => hall.live sub (List.mem_of_mem_filter hsub)
      · exact hall.once.sublist (List.filter_sublist.map _)
    | set | delete | get | start => trivial
  · exact ⟨⟨List.nodup_nil, rfl⟩, fun _ h => absurd h List.not_mem_nil, List.nodup_nil⟩

end Runs

namespace Sample

def partnerAic : String := "1.2.156.3088.1.A.B.C.D.140G"

def leaderA : String := "1.2.156.3088.1.A.B.C.E.1E3K"

def leaderB : String := "1.2.156.3088.1.A.B.C.0.14RC"

def config (id : String) : NotificationConfig :=
  { id := some id, url := "https://leader/callback", token := "token", taskId := "task" }

def startOf (owner id : String) : Request :=
  .start { senderId := owner, taskId := some "task"
           commandParams := some [("notificationConfigId", .str id)] } (some owner)

def oneRemoved : List Request :=
  [.set (config "a") (some leaderA) "", .set (config "b") (some leaderB) "", startOf leaderA "a",
    startOf leaderB "b", .delete (some leaderA) "task" (some "a")]

def result : TaskResult := { senderId := partnerAic, taskId := "task", state := .completed }

end Sample

theorem started_delivered :
    (running Aic.asciiUpperCase).Meets (DeliversRequest Aic.asciiUpperCase)
      (.initial (some Sample.partnerAic) true)
      [.set (Sample.config "a") (some Sample.leaderA) "", Sample.startOf Sample.leaderA "a",
        .dispatch Sample.result] := by
  refine polite_delivered ⟨trivial, fun r hr => ⟨?_, fun _ _ => ⟨trivial, fun _ _ => trivial⟩⟩⟩
  obtain rfl := Option.some.inj hr
  exact fun _ _ _ hold => absurd hold List.not_mem_nil

theorem removed_stops_other :
    ∃ r, (running Aic.asciiUpperCase).exec (.initial (some Sample.partnerAic) true)
        Sample.oneRemoved = some r ∧
      r.service.store.map Entry.key = [(Sample.leaderB, "task", "b")] ∧
      Subscribed r Sample.result (Sample.leaderB, "task", "b") ∧
      Genuine Aic.asciiUpperCase r Sample.result ∧
      posts Aic.asciiUpperCase r Sample.result = [] := by
  refine ⟨_, rfl, by decide +kernel, ?_, fun _ => ⟨Sample.partnerAic, by decide +kernel⟩,
    by decide +kernel⟩
  exact ⟨⟨"task", "b", some Sample.leaderB, none⟩, by decide +kernel, rfl, rfl, rfl⟩

end Acps.Aip.Notifications
