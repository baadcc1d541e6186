import Acps.Lib.Transition
import Acps.Registry.Agent

/-!
Histories of the registry: writes to agents, sequence values lost to rolled back transactions,
and cleanups of the change log.
-/

namespace Acps.Registry

open Dsp Paging

variable {H : Type}

inductive Event where
  | write (now : Timestamp) (w : AgentWrite)
  | burn
  | cleanup (now windowHours maxRecords : ℤ)

section

variable [DecidableEq H] (π : Platform H)

def Tables.handle (t : Tables H) : Event → Tables H
  | .write now w => t.write π now w
  | .burn => ⟨t.agents, (generateNextSeq t.log).2⟩
  | .cleanup now windowHours maxRecords => ⟨t.agents, t.log.cleanup now windowHours maxRecords⟩

def registry : Transition.System (Tables H) Event := ⟨fun t e => some (t.handle π e)⟩

end

def nextEntry (now : Timestamp) (log : LogState) (aic : String) (agent : Agent H)
    (newAcs : Option Payload) : ChangeLog :=
  ⟨log.globalSeq + 1, now, "acs", .upsert, aic, agent.acsVersion + 1, newAcs⟩

def nextLog (now : Timestamp) (log : LogState) (agent : Agent H) (newAcs : Option Payload) :
    LogState :=
  match agent.aic.filter (· ≠ "") with
  | some aic => (generateNextSeq log).2.insert (nextEntry now log aic agent newAcs)
  | none => (generateNextSeq log).2

section Spec

variable [DecidableEq H] {π : Platform H} {now : Timestamp} {log : LogState} {agent : Agent H}
  {newAcs : Option Payload}

theorem updateAgentWithChangelog_unchanged
    (h : (truthy newAcs).map (hashPayload π) = agent.acsHash) :
    updateAgentWithChangelog π now log agent newAcs = (log, { agent with updatedAt := now }) := by
  simp [updateAgentWithChangelog, h]

theorem updateAgentWithChangelog_changed
    (h : (truthy newAcs).map (hashPayload π) ≠ agent.acsHash) :
    updateAgentWithChangelog π now log agent newAcs =
      (nextLog now log agent newAcs,
        { agent with
          acsHash := (truthy newAcs).map (hashPayload π), acsVersion := agent.acsVersion + 1,
          acsLastSeq := some (log.globalSeq + 1), updatedAt := now }) := by
  unfold updateAgentWithChangelog nextLog nextEntry generateNextSeq createChangeLog
  simp only [h, ne_eq, not_false_eq_true, if_true]
  cases agent.aic.filter (· ≠ "") <;> rfl

end Spec

theorem nextLog_of_aic_none (now : Timestamp) (log : LogState) {agent : Agent H}
    (newAcs : Option Payload) (h : agent.aic = none) :
    (nextLog now log agent newAcs).everAppended = log.everAppended := by
  simp [nextLog, h, generateNextSeq]

theorem nextLog_of_aic (now : Timestamp) (log : LogState) {agent : Agent H}
    (newAcs : Option Payload) {x : String} (h : agent.aic = some x) (hx : x ≠ "") :
    (nextLog now log agent newAcs).everAppended =
      log.everAppended ++ [nextEntry now log x agent newAcs] := by
  simp [nextLog, h, hx, Option.filter, LogState.insert, generateNextSeq]

theorem nextLog_globalSeq (now : Timestamp) (log : LogState) (agent : Agent H)
    (newAcs : Option Payload) : (nextLog now log agent newAcs).globalSeq = log.globalSeq + 1 := by
  unfold nextLog
  split <;> rfl

theorem LogState.Valid.nextLog {log : LogState} (h : log.Valid) (now : Timestamp)
    (agent : Agent H) (newAcs : Option Payload) : (nextLog now log agent newAcs).Valid := by
  unfold Registry.nextLog
  split
  · exact h.createChangeLog now "acs" _ (agent.acsVersion + 1) newAcs .upsert
  · exact h.generateNextSeq

def Clean (acs : Option Payload) : Prop := ∀ s, acs = some (.text s) → s = ""

theorem clean_obj (o : JsonObject) : Clean (some (.obj o)) := by simp [Clean]

theorem clean_falsy {acs : Option Payload} (h : truthy acs = none) : Clean acs := by
  rintro s rfl
  by_contra hs
  simp [truthy, Option.filter, hs] at h

theorem Clean.eq_obj {π : Platform H} {acs : Option Payload} (h : Clean acs) {o : JsonObject}
    (ho : loadAgentAcsData π acs = some o) : acs = some (.obj o) := by
  rcases acs with _ | p | s
  · simp [loadAgentAcsData, truthy] at ho
  · rw [loadAgentAcsData_obj] at ho
    split at ho
    · simp at ho
    · rw [Option.some.inj ho]
  · obtain rfl := h s rfl
    exact absurd ho (by simp [loadAgentAcsData, truthy, Option.filter])

theorem Clean.approvedAcs {π : Platform H} {now : Timestamp} {a : Agent H} (h : Clean a.acs)
    (provider : Json) : Clean (approvedAcs π now a provider) := by
  unfold Registry.approvedAcs
  cases verifiedProviderAcs π now a provider with
  | none => exact h
  | some o => exact clean_obj o

inductive Marks (now : Timestamp) (a : Agent H) : Agent H → Prop
  | disabled : Marks now a (markAgentDisabled now a)
  | enabled : Marks now a (markAgentEnabled now a)
  | deleted : Marks now a (markAgentDeleted now a)

theorem Marks.fields {now : Timestamp} {a b : Agent H} (h : Marks now a b) :
    ∃ isActive isDeleted isDisabled deletedAt disabledAt,
      ((a.isDeleted = true → a.isActive = false) → isDeleted = true → isActive = false) ∧
        b = { a with isActive, isDeleted, deletedAt, isDisabled, disabledAt, updatedAt := now } := by
  cases h with
  | disabled => exact ⟨false, a.isDeleted, true, a.deletedAt, some now, fun _ _ => rfl, rfl⟩
  | deleted => exact ⟨false, true, a.isDisabled, some now, a.disabledAt, fun _ _ => rfl, rfl⟩
  | enabled =>
    let b := { a with isDisabled := false, disabledAt := none, updatedAt := now }
    cases hdel : isAgentDeleted b with
    | true => exact ⟨a.isActive, a.isDeleted, false, a.deletedAt, none, id, if_pos hdel⟩
    | false =>
      refine ⟨true, a.isDeleted, false, a.deletedAt, none, fun _ hd => ?_, ?_⟩
      · rw [isAgentDeleted, Bool.or_eq_false_iff] at hdel
        exact absurd hd (ne_true_of_eq_false hdel.1)
      · exact if_neg (c := isAgentDeleted b = true) (ne_true_of_eq_false hdel)

def AgentWrite.SetsFlags : AgentWrite → Prop
  | .disable _ | .enable _ | .delete _ | .disableDerived _ | .enableDerived _
  | .deleteDerived _ => True
  | _ => False

theorem Marks.same {now : Timestamp} {a b : Agent H} (h : Marks now a b) :
    b.id = a.id ∧ b.aic = a.aic ∧ b.acs = a.acs := by
  obtain ⟨_, _, _, _, _, _, rfl⟩ := h.fields
  exact ⟨rfl, rfl, rfl⟩

inductive Edited [DecidableEq H] (π : Platform H) (now : Timestamp) (t : Tables H) (w : AgentWrite)
    (a : Agent H) : LogState × Agent H → Prop
  | drafted (payload : Option (Option Payload × Option H))
      (status : a.approvalStatus = .draft ∨ a.approvalStatus = .rejected)
      (clean : ∀ p ∈ payload, Clean p.1) : Edited π now t w a (syncAgentUpdate π now t a payload)
  | moved (target : ApprovalStatus) (status : a.approvalStatus ≠ .approved)
      (htarget : target ≠ .approved) :
      Edited π now t w a (t.log, { a with approvalStatus := target, updatedAt := now })
  | issued (provider : Json) (newAic : String) (status : a.approvalStatus = .pending)
      (nonempty : newAic ≠ "") (free : aicTaken t newAic = false)
      (hw : w = .approve a.id provider newAic) :
      Edited π now t w a (updateAgentAcsData π now t.log
        { a with
          acs := approvedAcs π now a provider, approvalStatus := .approved, updatedAt := now,
          aic := some newAic })
  | reapproved (provider : Json) (b : Agent H) (status : a.approvalStatus = .pending)
      (aic : a.aic.isSome) (same : b = { a with
        acs := approvedAcs π now a provider, approvalStatus := .approved, updatedAt := now })
      (r : LogState × Agent H)
      (hr : r = (t.log, b) ∨ r = updateAgentWithChangelog π now t.log b b.acs) : Edited π now t w a r
  | marked (b : Agent H) (marks : Marks now a b) (hw : w.SetsFlags) :
      Edited π now t w a (updateAgentAcsData π now t.log b)

section Inversion

variable {π : Platform H} {now : Timestamp} {t u : Tables H} {w : AgentWrite}

theorem getAgent_eq_ok {id : ℕ} {a : Agent H} (h : getAgent t id = .ok a) :
    a ∈ t.agents ∧ a.id = id := by
  unfold getAgent at h
  split at h
  · next b hb =>
    obtain rfl := Except.ok.inj h
    exact ⟨List.mem_of_find?_eq_some hb, by simpa using List.find?_some hb⟩
  · simp at h

theorem insertAgent_eq_ok {log : LogState} {a : Agent H} (h : t.insertAgent log a = .ok u) :
    (∀ b ∈ t.agents, b.id ≠ a.id) ∧ u = ⟨t.agents ++ [a], log⟩ := by
  unfold Tables.insertAgent at h
  split at h
  · simp at h
  · next hany => exact ⟨by simpa using hany, (Except.ok.inj h).symm⟩

theorem guarded_eq_ok {α : Type} {check : Except AgentError α} {x : α}
    (h : guarded check = .ok x) : check = .ok x := by
  cases check with
  | error e => simp [guarded, Except.mapError] at h
  | ok y => simpa [guarded, Except.mapError] using h

theorem bind_eq_ok {ε α β : Type} {x : Except ε α} {f : α → Except ε β} {b : β}
    (h : x >>= f = .ok b) : ∃ a, x = .ok a ∧ f a = .ok b := by
  cases x with
  | error e => simp [bind, Except.bind] at h
  | ok a => exact ⟨a, rfl, h⟩

theorem normalizeAgentAcsPayload_clean {acs : Option Payload} {r : Option Payload × Option H}
    (h : normalizeAgentAcsPayload π acs = .ok r) : Clean r.1 := by
  unfold normalizeAgentAcsPayload at h
  split at h
  · next hfalsy =>
    obtain rfl := Except.ok.inj h
    exact clean_falsy hfalsy
  · split at h
    · simp at h
    · next j _ =>
      cases hv : π.validateAcs j with
      | error e => simp [hv, Except.map] at h
      | ok o =>
        obtain rfl : (some (Payload.obj o), _) = r := by simpa [hv, Except.map] using h
        exact clean_obj o
  · next o _ =>
    cases hv : π.validateAcs (.obj o) with
    | error e => simp [hv, Except.map] at h
    | ok o =>
      obtain rfl : (some (Payload.obj o), _) = r := by simpa [hv, Except.map] using h
      exact clean_obj o

theorem requireStatus_eq_ok {a : Agent H} {allowed : List ApprovalStatus} {errorMsg : String}
    {x : Unit} (h : requireStatus a allowed errorMsg = .ok x) : a.approvalStatus ∈ allowed := by
  unfold requireStatus at h
  split at h
  · assumption
  · simp at h

theorem ensureAgentIsEditable_eq_ok {a : Agent H} {x : Unit}
    (h : ensureAgentIsEditable a = .ok x) :
    a.approvalStatus = .draft ∨ a.approvalStatus = .rejected := by
  obtain ⟨_, _, h⟩ := bind_eq_ok h
  split at h
  · simp at h
  · next hne => cases hs : a.approvalStatus <;> simp_all

variable [DecidableEq H]

theorem moveApproval_edited {action errorMsg : String} {allowed : List ApprovalStatus}
    {target : ApprovalStatus} {id : ℕ} (hallowed : .approved ∉ allowed)
    (htarget : target ≠ .approved) (h : moveApproval now t action errorMsg allowed target id = .ok u) :
    ∃ a ∈ t.agents, ∃ r, Edited π now t w a r ∧ u = t.save r.1 r.2 := by
  obtain ⟨a, ha, h⟩ := bind_eq_ok h
  obtain ⟨_, _, h⟩ := bind_eq_ok h
  obtain ⟨_, hstatus, h⟩ := bind_eq_ok h
  have hmem := requireStatus_eq_ok (guarded_eq_ok hstatus)
  refine ⟨a, (getAgent_eq_ok ha).1, _, .moved target ?_ htarget, (Except.ok.inj h).symm⟩
  rintro he
  exact hallowed (he ▸ hmem)

theorem markAndPublish_edited {check : Agent H → Except AgentError Unit}
    {mark : Agent H → Agent H} {id : ℕ}
    (hmark : ∀ a, check a = .ok () → Marks now a (mark a)) (hw : w.SetsFlags)
    (h : markAndPublish π now t check mark id = .ok u) :
    ∃ a ∈ t.agents, ∃ r, Edited π now t w a r ∧ u = t.save r.1 r.2 := by
  obtain ⟨a, ha, h⟩ := bind_eq_ok h
  obtain ⟨_, hcheck, h⟩ := bind_eq_ok h
  exact ⟨a, (getAgent_eq_ok ha).1, _, .marked _ (hmark a (guarded_eq_ok hcheck)) hw,
    (Except.ok.inj h).symm⟩

theorem updateAgent_edited {id : ℕ} {acs : Option (Option Payload)}
    (h : updateAgent π now t id acs = .ok u) :
    ∃ a ∈ t.agents, ∃ r, Edited π now t w a r ∧ u = t.save r.1 r.2 := by
  obtain ⟨a, ha, h⟩ := bind_eq_ok h
  obtain ⟨_, hedit, h⟩ := bind_eq_ok h
  obtain ⟨payload, hpayload, h⟩ := bind_eq_ok h
  refine ⟨a, (getAgent_eq_ok ha).1, _, .drafted payload
    (ensureAgentIsEditable_eq_ok (guarded_eq_ok hedit)) ?_, (Except.ok.inj h).symm⟩
  have hp := guarded_eq_ok hpayload
  cases acs with
  | none =>
    obtain rfl : none = payload := Except.ok.inj hp
    simp
  | some value =>
    obtain ⟨p, hv, rfl⟩ : ∃ p, normalizeAgentAcsPayload π value = .ok p ∧ some p = payload := by
      obtain ⟨p, hv, hs⟩ := bind_eq_ok hp
      exact ⟨p, hv, Except.ok.inj hs⟩
    rintro q ⟨⟩
    exact normalizeAgentAcsPayload_clean hv

theorem approveAgent_edited {id : ℕ} {provider : Json} {newAic : String}
    (h : approveAgent π now t id provider newAic = .ok u) :
    ∃ a ∈ t.agents, ∃ r, Edited π now t (.approve id provider newAic) a r ∧ u = t.save r.1 r.2 := by
  obtain ⟨a, ha, h⟩ := bind_eq_ok h
  obtain ⟨_, _, h⟩ := bind_eq_ok h
  obtain ⟨_, hstatus, h⟩ := bind_eq_ok h
  have hpending : a.approvalStatus = .pending := by
    simpa using requireStatus_eq_ok (guarded_eq_ok hstatus)
  obtain ⟨hmem, hid⟩ := getAgent_eq_ok ha
  refine ⟨a, hmem, ?_⟩
  dsimp only at h
  split at h
  · split at h
    · simp at h
    · next hfresh =>
      rw [not_or] at hfresh
      exact ⟨_, .issued provider newAic hpending hfresh.1 (by simpa using hfresh.2)
        (by rw [hid]),
        (Except.ok.inj h).symm⟩
  · next x hx =>
    have haic : a.aic.isSome := by
      cases haic : a.aic <;> simp_all
    split at h
    · exact ⟨_, .reapproved provider _ hpending haic rfl _ (.inr rfl), (Except.ok.inj h).symm⟩
    · exact ⟨_, .reapproved provider _ hpending haic rfl _ (.inl rfl), (Except.ok.inj h).symm⟩

theorem perform_cases (h : w.perform π now t = .ok u) :
    (∃ id acs acsHash, (∀ b ∈ t.agents, b.id ≠ id) ∧ Clean acs ∧
      u = ⟨t.agents ++ [draftAgent now id acs acsHash], t.log⟩) ∨
    (∃ id x acs, (∀ b ∈ t.agents, b.id ≠ id) ∧ x ≠ "" ∧ aicTaken t x = false ∧
      u = ⟨t.agents ++ [entityAgent π now id x (entityAcs x acs) (t.log.globalSeq + 1)],
        (generateNextSeq t.log).2.insert
          ⟨t.log.globalSeq + 1, now, "acs", .upsert, x, 1, some (.obj (entityAcs x acs))⟩⟩) ∨
    ∃ a ∈ t.agents, ∃ r, Edited π now t w a r ∧ u = t.save r.1 r.2 := by
  cases w with
  | create id acs =>
    obtain ⟨r, hr, h⟩ := bind_eq_ok h
    obtain ⟨hid, rfl⟩ := insertAgent_eq_ok h
    exact .inl ⟨id, r.1, r.2, hid, normalizeAgentAcsPayload_clean (guarded_eq_ok hr), rfl⟩
  | registerEntity id x acs =>
    refine .inr (.inl ?_)
    simp only [AgentWrite.perform, registerEntity] at h
    split at h
    · simp at h
    · next hfresh =>
      rw [not_or] at hfresh
      obtain ⟨hid, rfl⟩ := insertAgent_eq_ok h
      exact ⟨id, x, acs, hid, hfresh.1, by simpa using hfresh.2, rfl⟩
  | update id acs => exact .inr (.inr (updateAgent_edited h))
  | submit id => exact .inr (.inr (moveApproval_edited (by decide) (by decide) h))
  | cancel id => exact .inr (.inr (moveApproval_edited (by decide) (by decide) h))
  | reject id => exact .inr (.inr (moveApproval_edited (by decide) (by decide) h))
  | approve id provider newAic => exact .inr (.inr (approveAgent_edited h))
  | disable id => exact .inr (.inr (markAndPublish_edited (fun _ _ => .disabled) trivial h))
  | enable id => exact .inr (.inr (markAndPublish_edited (fun _ _ => .enabled) trivial h))
  | delete id => exact .inr (.inr (markAndPublish_edited (fun _ _ => .deleted) trivial h))
  | disableDerived id =>
    exact .inr (.inr (markAndPublish_edited (fun _ _ => .disabled) trivial h))
  | enableDerived id =>
    exact .inr (.inr (markAndPublish_edited (fun _ _ => .enabled) trivial h))
  | deleteDerived id =>
    exact .inr (.inr (markAndPublish_edited (fun _ _ => .deleted) trivial h))

end Inversion

def flags (a : Agent H) : Bool × Bool × Option Timestamp × Bool × Option Timestamp :=
  (a.isActive, a.isDeleted, a.deletedAt, a.isDisabled, a.disabledAt)

structure Renumbers (log : LogState) (a : Agent H) (r : LogState × Agent H) : Prop where
  id : r.2.id = a.id
  aic : r.2.aic = a.aic
  acs : r.2.acs = a.acs ∨ ∃ o, r.2.acs = some (.obj o)
  flags : flags r.2 = flags a
  approvalStatus : r.2.approvalStatus = a.approvalStatus
  version : a.acsVersion ≤ r.2.acsVersion
  log : r.1 = log ∧ r.2.acsLastSeq = a.acsLastSeq ∨
    (∃ now, ∃ b : Agent H, ∃ acs, b.aic = a.aic ∧ r.1 = nextLog now log b acs) ∧
      r.2.acsLastSeq = some (log.globalSeq + 1)

theorem Renumbers.isActive {log : LogState} {a : Agent H} {r : LogState × Agent H}
    (h : Renumbers log a r) : r.2.isActive = a.isActive := congrArg Prod.fst h.flags

theorem Renumbers.isDeleted {log : LogState} {a : Agent H} {r : LogState × Agent H}
    (h : Renumbers log a r) : r.2.isDeleted = a.isDeleted := congrArg (·.2.1) h.flags

theorem Renumbers.refl (log : LogState) (a : Agent H) : Renumbers log a (log, a) :=
  ⟨rfl, rfl, .inl rfl, rfl, rfl, le_rfl, .inl ⟨rfl, rfl⟩⟩

section Invariant

variable [DecidableEq H] {π : Platform H} {now : Timestamp} {t : Tables H} {w : AgentWrite}
  {a : Agent H} {r : LogState × Agent H}

theorem updateAgentWithChangelog_renumbers (π : Platform H) (now : Timestamp) (log : LogState)
    (a : Agent H) (acs : Option Payload) :
    Renumbers log a (updateAgentWithChangelog π now log a acs) := by
  by_cases h : (truthy acs).map (hashPayload π) = a.acsHash
  · rw [updateAgentWithChangelog_unchanged h]
    exact ⟨rfl, rfl, .inl rfl, rfl, rfl, le_rfl, .inl ⟨rfl, rfl⟩⟩
  · rw [updateAgentWithChangelog_changed h]
    exact ⟨rfl, rfl, .inl rfl, rfl, rfl, Int.le_add_one le_rfl,
      .inr ⟨⟨now, a, acs, rfl, rfl⟩, rfl⟩⟩

theorem updateAgentAcsData_renumbers (log : LogState) (a : Agent H) :
    Renumbers log a (updateAgentAcsData π now log a) := by
  unfold updateAgentAcsData
  split
  · exact .refl log a
  · next o _ =>
    have h := updateAgentWithChangelog_renumbers π now log
      { a with acs := some (.obj o) } (some (.obj o))
    exact ⟨h.id, h.aic, .inr (h.acs.elim (fun he => ⟨o, he⟩) id), h.flags,
      h.approvalStatus, h.version, h.log⟩

theorem syncAgentUpdate_aic (t : Tables H) (a : Agent H)
    (payload : Option (Option Payload × Option H)) :
    (syncAgentUpdate π now t a payload).2.aic = a.aic := by
  rcases payload with _ | ⟨acs, _ | hash⟩
  · exact (updateAgentAcsData_renumbers t.log { a with updatedAt := now }).aic
  · exact (updateAgentAcsData_renumbers t.log { a with acs, updatedAt := now }).aic
  · dsimp only [syncAgentUpdate]
    split
    · exact (updateAgentWithChangelog_renumbers π now t.log _ acs).aic
    · exact (updateAgentAcsData_renumbers t.log
        { a with acs, acsHash := some hash, updatedAt := now }).aic

end Invariant

structure Prepares (now : Timestamp) (t : Tables H) (w : AgentWrite) (a b : Agent H) : Prop where
  id : b.id = a.id
  lastSeq : b.acsLastSeq = a.acsLastSeq
  version : b.acsVersion = a.acsVersion
  clean : Clean a.acs → Clean b.acs
  flags : flags b = flags a ∨ w.SetsFlags ∧ Marks now a b
  aic : b.aic = a.aic ∨ ∃ provider x, w = .approve a.id provider x ∧ b.aic = some x ∧
    aicTaken t x = false

theorem Prepares.inactive {now : Timestamp} {t : Tables H} {w : AgentWrite} {a b : Agent H}
    (h : Prepares now t w a b) (ha : a.isDeleted = true → a.isActive = false)
    (hb : b.isDeleted = true) : b.isActive = false := by
  rcases h.flags with hflags | ⟨_, hmarks⟩
  · have hdeleted : b.isDeleted = a.isDeleted := congrArg (·.2.1) hflags
    have hactive : b.isActive = a.isActive := congrArg Prod.fst hflags
    exact hactive.trans (ha (hdeleted.symm.trans hb))
  · obtain ⟨_, _, _, _, _, hinactive, rfl⟩ := hmarks.fields
    exact hinactive ha hb

section Invariant

variable [DecidableEq H] {π : Platform H} {now : Timestamp} {t : Tables H} {w : AgentWrite}
  {a : Agent H} {r : LogState × Agent H}

theorem Edited.renumbers (h : Edited π now t w a r) :
    ∃ b, Prepares now t w a b ∧ Renumbers t.log b r := by
  cases h with
  | drafted payload _ clean =>
    rcases payload with _ | ⟨acs, _ | hash⟩
    · exact ⟨{ a with updatedAt := now }, ⟨rfl, rfl, rfl, id, .inl rfl, .inl rfl⟩,
        updateAgentAcsData_renumbers ..⟩
    · exact ⟨{ a with acs, updatedAt := now },
        ⟨rfl, rfl, rfl, fun _ => clean _ rfl, .inl rfl, .inl rfl⟩, updateAgentAcsData_renumbers ..⟩
    · refine ⟨{ a with acs, acsHash := some hash, updatedAt := now },
        ⟨rfl, rfl, rfl, fun _ => clean _ rfl, .inl rfl, .inl rfl⟩, ?_⟩
      dsimp only [syncAgentUpdate]
      split
      · exact updateAgentWithChangelog_renumbers ..
      · exact updateAgentAcsData_renumbers ..
  | moved target _ _ =>
    exact ⟨{ a with approvalStatus := target, updatedAt := now },
      ⟨rfl, rfl, rfl, id, .inl rfl, .inl rfl⟩, .refl ..⟩
  | issued provider newAic _ _ free hw =>
    exact ⟨{ a with
      acs := approvedAcs π now a provider, approvalStatus := .approved, updatedAt := now,
      aic := some newAic },
      ⟨rfl, rfl, rfl, fun h => h.approvedAcs provider, .inl rfl,
        .inr ⟨provider, newAic, hw, rfl, free⟩⟩,
      updateAgentAcsData_renumbers ..⟩
  | reapproved provider b _ _ same r hr =>
    refine ⟨b, ?_, ?_⟩
    · rw [same]
      exact ⟨rfl, rfl, rfl, fun h => h.approvedAcs provider, .inl rfl, .inl rfl⟩
    · rcases hr with rfl | rfl
      · exact .refl ..
      · exact updateAgentWithChangelog_renumbers ..
  | marked b marks hw =>
    refine ⟨b, ?_, updateAgentAcsData_renumbers ..⟩
    obtain ⟨_, _, _, _, _, _, hb⟩ := marks.fields
    rw [hb] at marks ⊢
    exact ⟨rfl, rfl, rfl, id, .inr ⟨hw, marks⟩, .inl rfl⟩

end Invariant

structure Tables.Consistent (t : Tables H) : Prop where
  ids : (t.agents.map Agent.id).Nodup
  aics : ∀ a ∈ t.agents, ∀ b ∈ t.agents, ∀ x, a.aic = some x → b.aic = some x → a = b
  log : t.log.Valid
  lastSeq : ∀ a ∈ t.agents, ∀ q, a.acsLastSeq = some q → 0 < q ∧ q ≤ t.log.globalSeq
  lastSeqs : ∀ a ∈ t.agents, ∀ b ∈ t.agents, ∀ q, a.acsLastSeq = some q → b.acsLastSeq = some q →
    a = b
  clean : ∀ a ∈ t.agents, Clean a.acs

theorem Tables.mem_save {t : Tables H} {a b c : Agent H} {log : LogState} (ha : a ∈ t.agents)
    (hid : b.id = a.id) :
    c ∈ (t.save log b).agents ↔ c = b ∨ c ∈ t.agents ∧ c.id ≠ a.id := by
  simp only [Tables.save, List.mem_map, hid]
  constructor
  · rintro ⟨d, hd, rfl⟩
    by_cases h : d.id = a.id
    · simp [h]
    · simp [h, hd]
  · rintro (rfl | ⟨hc, hne⟩)
    · exact ⟨a, ha, by simp⟩
    · exact ⟨c, hc, by simp [hne]⟩

theorem aicTaken_eq_false {t : Tables H} {x : String} :
    aicTaken t x = false ↔ ∀ a ∈ t.agents, a.aic ≠ some x := by
  simp [aicTaken]

def SeqFits (t : Tables H) (a : Agent H) (log : LogState) (b : Agent H) : Prop :=
  b.acsLastSeq = a.acsLastSeq ∧ t.log.globalSeq ≤ log.globalSeq ∨
    b.acsLastSeq = some (t.log.globalSeq + 1) ∧ t.log.globalSeq + 1 ≤ log.globalSeq

namespace Tables.Consistent

variable {t : Tables H}

theorem eq_of_id (h : t.Consistent) {a b : Agent H} (ha : a ∈ t.agents) (hb : b ∈ t.agents)
    (hid : a.id = b.id) : a = b := List.inj_on_of_nodup_map h.ids ha hb hid

theorem insertAgent (h : t.Consistent) {b : Agent H} {log : LogState}
    (hid : ∀ a ∈ t.agents, a.id ≠ b.id) (haic : ∀ a ∈ t.agents, ∀ x, b.aic = some x → a.aic ≠ some x)
    (hclean : Clean b.acs) (hlog : log.Valid) (hle : t.log.globalSeq ≤ log.globalSeq)
    (hseq : ∀ q, b.acsLastSeq = some q → t.log.globalSeq < q ∧ q ≤ log.globalSeq) :
    Consistent ⟨t.agents ++ [b], log⟩ where
  ids := by
    rw [List.map_append, List.nodup_append]
    refine ⟨h.ids, by simp, ?_⟩
    simp only [List.map_cons, List.map_nil, List.mem_map, List.mem_singleton]
    rintro _ ⟨a, ha, rfl⟩ _ rfl
    exact hid a ha
  aics a ha c hc x hax hcx := by
    rw [List.mem_append, List.mem_singleton] at ha hc
    rcases ha with ha | rfl <;> rcases hc with hc | rfl
    · exact h.aics a ha c hc x hax hcx
    · exact absurd hax (haic a ha x hcx)
    · exact absurd hcx (haic c hc x hax)
    · rfl
  log := hlog
  lastSeq a ha q hq := by
    rw [List.mem_append, List.mem_singleton] at ha
    rcases ha with ha | rfl
    · have := h.lastSeq a ha q hq
      exact ⟨this.1, this.2.trans hle⟩
    · exact ⟨h.log.nonneg.trans_lt (hseq q hq).1, (hseq q hq).2⟩
  lastSeqs a ha c hc q haq hcq := by
    rw [List.mem_append, List.mem_singleton] at ha hc
    rcases ha with ha | rfl <;> rcases hc with hc | rfl
    · exact h.lastSeqs a ha c hc q haq hcq
    · exact absurd (hseq q hcq).1 (h.lastSeq a ha q haq).2.not_gt
    · exact absurd (hseq q haq).1 (h.lastSeq c hc q hcq).2.not_gt
    · rfl
  clean a ha := by
    rw [List.mem_append, List.mem_singleton] at ha
    rcases ha with ha | rfl
    · exact h.clean a ha
    · exact hclean

theorem save (h : t.Consistent) {a b : Agent H} {log : LogState} (ha : a ∈ t.agents)
    (hid : b.id = a.id)
    (haic : ∀ c ∈ t.agents, c.id ≠ a.id → ∀ x, b.aic = some x → c.aic ≠ some x)
    (hclean : Clean b.acs) (hlog : log.Valid) (hseq : SeqFits t a log b) :
    (t.save log b).Consistent where
  ids := by
    have hids : (t.save log b).agents.map Agent.id = t.agents.map Agent.id := by
      simp only [Tables.save, List.map_map]
      apply List.map_congr_left
      intro c _
      by_cases hc : c.id = b.id <;> simp [hc]
    rw [hids]
    exact h.ids
  aics c hc d hd x hcx hdx := by
    rw [mem_save ha hid] at hc hd
    rcases hc with rfl | ⟨hc, hci⟩ <;> rcases hd with rfl | ⟨hd, hdi⟩
    · rfl
    · exact absurd hdx (haic d hd hdi x hcx)
    · exact absurd hcx (haic c hc hci x hdx)
    · exact h.aics c hc d hd x hcx hdx
  log := hlog
  lastSeq c hc q hq := by
    have hnonneg := h.log.nonneg
    rw [mem_save ha hid] at hc
    dsimp only [Tables.save]
    rcases hc with rfl | ⟨hc, _⟩
    · rcases hseq with ⟨hs, hle⟩ | ⟨hs, hle⟩
      · have := h.lastSeq a ha q (hs ▸ hq)
        omega
      · obtain rfl := Option.some.inj (hs.symm.trans hq)
        omega
    · have := h.lastSeq c hc q hq
      rcases hseq with ⟨_, hle⟩ | ⟨_, hle⟩ <;> omega
  lastSeqs c hc d hd q hcq hdq := by
    have hother {e : Agent H} (he : e ∈ t.agents) (hei : e.id ≠ a.id)
        (hb : b.acsLastSeq = some q) (heq : e.acsLastSeq = some q) : False := by
      rcases hseq with ⟨hs, _⟩ | ⟨hs, _⟩
      · exact hei (congrArg Agent.id (h.lastSeqs e he a ha q heq (hs ▸ hb)))
      · obtain rfl := Option.some.inj (hs.symm.trans hb)
        have := h.lastSeq e he _ heq
        omega
    rw [mem_save ha hid] at hc hd
    rcases hc with rfl | ⟨hc, hci⟩ <;> rcases hd with rfl | ⟨hd, hdi⟩
    · rfl
    · exact (hother hd hdi hcq hdq).elim
    · exact (hother hc hci hdq hcq).elim
    · exact h.lastSeqs c hc d hd q hcq hdq
  clean c hc := by
    rw [mem_save ha hid] at hc
    rcases hc with rfl | ⟨hc, _⟩
    · exact hclean
    · exact h.clean c hc

theorem edited [DecidableEq H] {π : Platform H} {now : Timestamp} {w : AgentWrite} (h : t.Consistent) {a : Agent H}
    {r : LogState × Agent H} (ha : a ∈ t.agents) (hr : Edited π now t w a r) :
    (t.save r.1 r.2).Consistent := by
  obtain ⟨b, ⟨hid, hseq, _, hclean, _, haic⟩, hn⟩ := hr.renumbers
  refine h.save ha (hn.id.trans hid) ?_ ?_ ?_ ?_
  · intro c hc hci x hx hcx
    rw [hn.aic] at hx
    rcases haic with haic | ⟨_, y, _, hy, hfree⟩
    · exact hci (congrArg Agent.id (h.aics c hc a ha x hcx (haic ▸ hx)))
    · obtain rfl := Option.some.inj (hy.symm.trans hx)
      exact aicTaken_eq_false.mp hfree c hc hcx
  · rcases hn.acs with hacs | ⟨o, hacs⟩ <;> rw [hacs]
    · exact hclean (h.clean a ha)
    · exact clean_obj o
  · rcases hn.log with ⟨hlog, _⟩ | ⟨⟨now, c, acs, _, hlog⟩, _⟩ <;> rw [hlog]
    · exact h.log
    · exact h.log.nextLog now c acs
  · rcases hn.log with ⟨hlog, hq⟩ | ⟨⟨now, c, acs, _, hlog⟩, hq⟩ <;> rw [hlog]
    · exact .inl ⟨hq.trans hseq, le_rfl⟩
    · exact .inr ⟨hq, (nextLog_globalSeq ..).ge⟩

theorem write [DecidableEq H] (π : Platform H) (h : t.Consistent) (now : Timestamp)
    (w : AgentWrite) : (t.write π now w).Consistent := by
  unfold Tables.write
  split
  · next u hu =>
    rcases perform_cases hu with ⟨id, acs, acsHash, hid, hclean, rfl⟩ |
      ⟨id, x, acs, hid, _, hfree, rfl⟩ | ⟨a, ha, r, hr, rfl⟩
    · exact h.insertAgent hid (by simp [draftAgent]) hclean h.log le_rfl (by simp [draftAgent])
    · refine h.insertAgent hid ?_ (clean_obj _) (h.log.createChangeLog ..) ?_ ?_
      · rintro a ha _ ⟨⟩
        exact aicTaken_eq_false.mp hfree a ha
      · exact Int.le_add_one le_rfl
      · rintro q ⟨⟩
        exact ⟨Int.lt_succ _, le_rfl⟩
    · exact h.edited ha hr
  · exact h

theorem handle [DecidableEq H] (π : Platform H) (h : t.Consistent) (e : Event) :
    (t.handle π e).Consistent := by
  cases e with
  | write now w => exact h.write π now w
  | burn =>
    refine ⟨h.ids, h.aics, h.log.generateNextSeq, fun a ha q hq => ?_, h.lastSeqs, h.clean⟩
    have := h.lastSeq a ha q hq
    exact ⟨this.1, this.2.trans (Int.le_add_one le_rfl)⟩
  | cleanup now windowHours maxRecords =>
    refine ⟨h.ids, h.aics, h.log.cleanup .., fun a ha q hq => ?_, h.lastSeqs, h.clean⟩
    have := h.lastSeq a ha q hq
    rwa [Tables.handle, LogState.cleanup_globalSeq]

theorem empty : (Tables.empty : Tables H).Consistent where
  ids := List.nodup_nil
  aics a ha := by simp [Tables.empty] at ha
  log := LogState.valid_empty
  lastSeq a ha := by simp [Tables.empty] at ha
  lastSeqs a ha := by simp [Tables.empty] at ha
  clean a ha := by simp [Tables.empty] at ha

theorem reachable [DecidableEq H] (π : Platform H) {es : List Event} {t : Tables H}
    (h : (registry π).exec .empty es = some t) : t.Consistent :=
  (registry π).exec_induction (fun _ e _ hs he => Option.some.inj he ▸ hs.handle π e) empty h

end Tables.Consistent

theorem nextLog_cases (now : Timestamp) (log : LogState) (agent : Agent H)
    (newAcs : Option Payload) :
    nextLog now log agent newAcs = (generateNextSeq log).2 ∨
      ∃ c : ChangeLog, c.seq = log.globalSeq + 1 ∧
        nextLog now log agent newAcs = (generateNextSeq log).2.insert c := by
  unfold nextLog
  split
  · exact .inr ⟨_, rfl, rfl⟩
  · exact .inl rfl

theorem write_log [DecidableEq H] (π : Platform H) (now : Timestamp) (t : Tables H)
    (w : AgentWrite) :
    (t.write π now w).log = t.log ∨ (t.write π now w).log = (generateNextSeq t.log).2 ∨
      ∃ c : ChangeLog, c.seq = t.log.globalSeq + 1 ∧
        (t.write π now w).log = (generateNextSeq t.log).2.insert c := by
  unfold Tables.write
  split
  · next u hu =>
    rcases perform_cases hu with ⟨_, _, _, _, _, rfl⟩ | ⟨_, _, _, _, _, _, rfl⟩ | ⟨a, _, r, hr, rfl⟩
    · exact .inl rfl
    · exact .inr (.inr ⟨_, rfl, rfl⟩)
    · obtain ⟨b, _, hn⟩ := hr.renumbers
      rcases hn.log with ⟨hlog, _⟩ | ⟨⟨now, c, acs, _, hlog⟩, _⟩
      · exact .inl hlog
      · change r.1 = t.log ∨ r.1 = _ ∨ ∃ c : ChangeLog, _ ∧ r.1 = _
        rw [hlog]
        exact .inr (nextLog_cases ..)
  · exact .inl rfl

structure Grows (l l' : LogState) : Prop where
  le : l.globalSeq ≤ l'.globalSeq
  appended : ∃ cs, l'.everAppended = l.everAppended ++ cs ∧ ∀ c ∈ cs, l.globalSeq < c.seq

theorem Grows.refl (l : LogState) : Grows l l := ⟨le_rfl, [], (List.append_nil _).symm, by simp⟩

theorem Grows.trans {l l' l'' : LogState} (h : Grows l l') (h' : Grows l' l'') : Grows l l'' := by
  obtain ⟨cs, hcs, hnew⟩ := h.appended
  obtain ⟨ds, hds, hnew'⟩ := h'.appended
  refine ⟨h.le.trans h'.le, cs ++ ds, by rw [hds, hcs, List.append_assoc], ?_⟩
  intro c hc
  rcases List.mem_append.mp hc with hc | hc
  · exact hnew c hc
  · exact h.le.trans_lt (hnew' c hc)

theorem Grows.mem {l l' : LogState} (h : Grows l l') {c : ChangeLog} (hc : c ∈ l'.everAppended) :
    c ∈ l.everAppended ∨ l.globalSeq < c.seq := by
  obtain ⟨cs, hcs, hnew⟩ := h.appended
  exact (List.mem_append.mp (hcs ▸ hc)).imp_right (hnew c)

theorem Grows.subset {l l' : LogState} (h : Grows l l') {c : ChangeLog}
    (hc : c ∈ l.everAppended) : c ∈ l'.everAppended := by
  obtain ⟨cs, hcs, _⟩ := h.appended
  exact hcs ▸ List.mem_append_left _ hc

theorem grows_generateNextSeq (l : LogState) : Grows l (generateNextSeq l).2 :=
  ⟨Int.le_add_one le_rfl, [], (List.append_nil _).symm, by simp⟩

def Event.Retains : Event → Prop
  | .cleanup .. => False
  | _ => True

section Run

variable [DecidableEq H] (π : Platform H)

theorem handle_grows (t : Tables H) (e : Event) : Grows t.log (t.handle π e).log := by
  cases e with
  | write now w =>
    change Grows t.log (t.write π now w).log
    rcases write_log π now t w with hlog | hlog | ⟨c, hc, hlog⟩ <;> rw [hlog]
    · exact .refl _
    · exact grows_generateNextSeq _
    · refine ⟨Int.le_add_one le_rfl, [c], rfl, ?_⟩
      intro d hd
      rw [List.mem_singleton.mp hd, hc]
      exact Int.lt_succ _
  | burn => exact grows_generateNextSeq _
  | cleanup now windowHours maxRecords =>
    refine ⟨(LogState.cleanup_globalSeq ..).ge, [], ?_, by simp⟩
    rw [List.append_nil]
    unfold Tables.handle LogState.cleanup
    dsimp only
    split <;> rfl

theorem exec_grows {es : List Event} {s t : Tables H} (h : (registry π).exec s es = some t) :
    Grows s.log t.log :=
  (registry π).exec_induction (I := fun u => Grows s.log u.log)
    (fun u e _ hu he => Option.some.inj he ▸ hu.trans (handle_grows π u e)) (.refl _) h

theorem handle_retains {t : Tables H} (h : t.log.changeLog = t.log.everAppended) {e : Event}
    (he : e.Retains) : (t.handle π e).log.changeLog = (t.handle π e).log.everAppended := by
  cases e with
  | write now w =>
    change (t.write π now w).log.changeLog = (t.write π now w).log.everAppended
    rcases write_log π now t w with hlog | hlog | ⟨c, _, hlog⟩ <;> rw [hlog]
    · exact h
    · exact h
    · exact congrArg (· ++ [c]) h
  | burn => exact h
  | cleanup now windowHours maxRecords => exact he.elim

theorem exec_retains {es : List Event} {s t : Tables H} (hs : s.log.changeLog = s.log.everAppended)
    (hes : ∀ e ∈ es, e.Retains) (h : (registry π).exec s es = some t) :
    t.log.changeLog = t.log.everAppended := by
  induction es generalizing s with
  | nil =>
    obtain rfl : s = t := by simpa using h
    exact hs
  | cons e es ih =>
    obtain ⟨u, hu, hrest⟩ := (registry π).exec_cons_eq_some.mp h
    obtain rfl := Option.some.inj hu
    exact ih (handle_retains π hs (hes e (by simp)))
      (fun f hf => hes f (List.mem_cons_of_mem _ hf)) hrest

end Run

end Acps.Registry
