import Acps.Audit.Query
import Acps.Audit.Intact
import Acps.Lib.Fallible

/-!
Integrity verification of audit records: what a synchronous answer reports, and what the chain
functions say of the records that the request selects.
-/

namespace Acps.Audit

open Monitor (AMPFilter Store)

structure VerifyRequest where
  timeRange : Option AMPTimeRange
  filter : Option AMPFilter
  recordIds : List String
  stopOnFirstFailure : Bool
  verifyAnchor : Bool

structure VerifySettings where
  maxEventLag : Time
  verifySyncMaxRecords : ℕ

structure IntegrityFailure where
  auditId : String
  failureType : String
  detail : String
  deriving DecidableEq

structure VerifyResponse where
  checkedAt : Time
  checkedCount : ℕ
  failedCount : ℕ
  failures : List IntegrityFailure
  deriving DecidableEq

inductive VerifyAnswer where
  | accepted (request : VerifyRequest)
  | checked (response : VerifyResponse)

variable (π : Platform) (settings : VerifySettings)

def recordCount (records : List AuditRecord) (request : VerifyRequest) : Except QueryError ℕ :=
  if request.recordIds ≠ [] then .ok request.recordIds.length
  else
    match request.timeRange with
    | none => .ok 0
    | some range =>
      match range.parse π with
      | none => .error .valueError
      | some w => .ok (records.countP fun r => w.Covers r ∧ w.Fences settings.maxEventLag r)

def submitIntegrityVerify (records : List AuditRecord) (now : Time) (request : VerifyRequest) :
    Except QueryError VerifyAnswer := do
  Fallible.require (request.recordIds ≠ [] ∨ request.timeRange.isSome ∨ request.filter.isSome)
    .invalidFilter
  Fallible.require (request.filter.isSome → request.timeRange.isSome) .invalidTimeRange
  let count ← recordCount π settings records request
  return if count > settings.verifySyncMaxRecords then .accepted request
    else .checked { checkedAt := now, checkedCount := count, failedCount := 0, failures := [] }

structure Verifies (records : List AuditRecord) (r : AuditRecord) : Prop where
  rawHashed : computeRawLogHash π r.rawLog = some r.rawLogHash
  hashed : r.recomputedHash π = some r.currentHash
  genesis : r.chainSeq = 0 → r.previousHash = none
  linked : r.chainSeq ≠ 0 → ∃ p ∈ records, p.chainId = r.chainId ∧ p.chainSeq + 1 = r.chainSeq ∧
    r.previousHash = some p.currentHash

def Untampered (records : List AuditRecord) (stored : Option AuditRecord) : Prop :=
  ∃ r, stored = some r ∧ Verifies π records r

def Satisfies (σ : Store) (filter : Option AMPFilter) (r : AuditRecord) : Bool :=
  filter.all fun f => f.sat fun c => c.holds σ columnOf r.row

def selection (σ : Store) (records : List AuditRecord) (request : VerifyRequest) :
    List (String × Option AuditRecord) :=
  if request.recordIds ≠ [] then
    request.recordIds.map fun id => (id, records.find? fun r => π.uuid id = some r.auditId)
  else
    match request.timeRange.bind (AMPTimeRange.parse π) with
    | none => []
    | some w =>
      (records.filter fun r => w.Covers r ∧ Satisfies σ request.filter r).map
        fun r => (r.auditId.str, some r)

structure Accurate (σ : Store) (records : List AuditRecord) (request : VerifyRequest)
    (response : VerifyResponse) : Prop where
  failures : ∀ id, id ∈ response.failures.map IntegrityFailure.auditId ↔
    ∃ stored, (id, stored) ∈ selection π σ records request ∧ ¬ Untampered π records stored
  checkedCount : response.checkedCount = (selection π σ records request).length

variable {π settings} {records : List AuditRecord} {now : Time} {request : VerifyRequest}
  {response : VerifyResponse}

theorem submitIntegrityVerify_checked
    (h : submitIntegrityVerify π settings records now request = .ok (.checked response)) :
    response.failures = [] ∧ recordCount π settings records request = .ok response.checkedCount ∧
      (request.recordIds = [] → request.timeRange.isSome) := by
  unfold submitIntegrityVerify at h
  obtain ⟨_, hgiven, h⟩ := Fallible.bind_eq_ok.mp h
  obtain ⟨_, hrange, h⟩ := Fallible.bind_eq_ok.mp h
  obtain ⟨count, hcount, h⟩ := Fallible.bind_eq_ok.mp h
  have hgiven := Fallible.require_eq_ok.mp hgiven
  have hrange := Fallible.require_eq_ok.mp hrange
  have h := Fallible.pure_eq_ok.mp h
  split at h
  · cases h
  · obtain rfl := VerifyAnswer.checked.inj h
    refine ⟨rfl, hcount, fun hids => ?_⟩
    rcases hgiven with hgiven | hgiven | hgiven
    · exact absurd hids hgiven
    · exact hgiven
    · exact hrange hgiven

theorem recordCount_window (hids : request.recordIds = []) (hrange : request.timeRange.isSome)
    {count : ℕ} (h : recordCount π settings records request = .ok count) :
    ∃ w, request.timeRange.bind (AMPTimeRange.parse π) = some w ∧
      count = records.countP fun r => w.Covers r ∧ w.Fences settings.maxEventLag r := by
  obtain ⟨range, hsome⟩ := Option.isSome_iff_exists.mp hrange
  unfold recordCount at h
  rw [if_neg (not_not.mpr hids), hsome] at h
  cases hparse : range.parse π with
  | none =>
    simp only [hparse] at h
    cases h
  | some w =>
    simp only [hparse] at h
    refine ⟨w, ?_, (Except.ok.inj h).symm⟩
    rw [hsome, Option.bind_some, hparse]

def FenceCounts (π : Platform) (settings : VerifySettings) (σ : Store) (records : List AuditRecord)
    (request : VerifyRequest) : Prop :=
  ∀ w, request.timeRange.bind (AMPTimeRange.parse π) = some w →
    (records.countP fun r => w.Covers r ∧ w.Fences settings.maxEventLag r) =
      records.countP fun r => w.Covers r ∧ Satisfies σ request.filter r

theorem checkedCount_iff {σ : Store}
    (hcount : recordCount π settings records request = .ok response.checkedCount)
    (hrange : request.recordIds = [] → request.timeRange.isSome) :
    response.checkedCount = (selection π σ records request).length ↔
      (request.recordIds = [] → FenceCounts π settings σ records request) := by
  unfold selection
  by_cases hids : request.recordIds = []
  · obtain ⟨w, hw, hwindow⟩ := recordCount_window hids (hrange hids) hcount
    rw [if_neg (not_not.mpr hids), hw, hwindow]
    simp only [List.length_map, ← List.countP_eq_length_filter]
    constructor
    · intro h _ w' hw'
      obtain rfl := Option.some.inj (hw.symm.trans hw')
      exact h
    · exact fun h => h hids w hw
  · rw [if_pos hids, List.length_map]
    unfold recordCount at hcount
    rw [if_pos hids] at hcount
    exact iff_of_true (Except.ok.inj hcount).symm fun h => absurd h hids

theorem verification_accurate_iff (σ : Store)
    (h : submitIntegrityVerify π settings records now request = .ok (.checked response)) :
    Accurate π σ records request response ↔
      (∀ item ∈ selection π σ records request, Untampered π records item.2) ∧
      (request.recordIds = [] → FenceCounts π settings σ records request) := by
  obtain ⟨hfailures, hcount, hrange⟩ := submitIntegrityVerify_checked h
  rw [← checkedCount_iff hcount hrange]
  constructor
  · intro haccurate
    refine ⟨fun item hitem => ?_, haccurate.checkedCount⟩
    by_contra hbad
    have hid := (haccurate.failures item.1).mpr ⟨item.2, hitem, hbad⟩
    rw [hfailures] at hid
    cases hid
  · rintro ⟨hgood, hlength⟩
    refine ⟨fun id => ?_, hlength⟩
    rw [hfailures]
    refine iff_of_false (by simp) ?_
    rintro ⟨stored, hstored, hbad⟩
    exact hbad (hgood (id, stored) hstored)

namespace Sample

def store : Store where
  bind type value :=
    match value with
    | .str s => some (.text s)
    | .num n => if type = "text" then none else some (.num n)
    | .bool b => if type = "text" then none else some (.flag b)
    | _ => none
  textEq s t := s = t
  textLt s t := s < t
  fold := id
  str value :=
    match value with
    | .str s => s
    | _ => ""
  bind_text value := by cases value <;> rfl
  str_text _ := rfl
  fold_fold _ := rfl
  fold_special _ _ _ := Iff.rfl

theorem store_textEq (s t : String) : store.textEq s t = true ↔ s = t := decide_eq_true_iff

def body : BodyColumns :=
  { actorId := "", actorType := "", actorName := none, actorRole := none, actorIp := none
    actorUserAgent := none, actionName := "", actionType := "", actionMethod := none
    targetType := "", targetId := "", targetName := none, targetBefore := none, targetAfter := none
    resultStatus := "", resultReason := none, resultErrorCode := none }

def signature : SignatureColumns :=
  { alg := "", kid := "", value := "", verified := false, checkedAt := 0
    verificationFailureType := some "missing_public_key" }

def genesis (aic currentHash : String) : AuditRecord :=
  { auditId := 7, logId := "m", timestamp := 0, committedAt := 0, aic, tenantId := none
    traceId := none, correlationId := none, chainId := "audit-chain-0", chainSeq := 0, body
    signature, hashVersion := 1, rawLogHash := "0e09", previousHash := none, currentHash
    chainVerified := none, rawLog := message "m" }

def limits : VerifySettings := { maxEventLag := 0, verifySyncMaxRecords := 100 }

def byId : VerifyRequest :=
  { timeRange := none, filter := none, recordIds := ["1234567"], stopOnFirstFailure := false
    verifyAnchor := false }

end Sample

theorem tampering_not_detected :
    (∃ response, submitIntegrityVerify Sample.platform Sample.limits [Sample.genesis "A" "00"] 0
        Sample.byId = .ok (.checked response) ∧
      ¬ Accurate Sample.platform Sample.store [Sample.genesis "A" "00"] Sample.byId response) ∧
    ∃ response, submitIntegrityVerify Sample.platform Sample.limits [] 0 Sample.byId =
        .ok (.checked response) ∧
      ¬ Accurate Sample.platform Sample.store [] Sample.byId response := by
  refine ⟨⟨⟨0, 1, 0, []⟩, rfl, fun h => ?_⟩, ⟨⟨0, 1, 0, []⟩, rfl, fun h => ?_⟩⟩
  · have hid := (h.failures "1234567").mpr
      ⟨some (Sample.genesis "A" "00"), by decide +kernel, ?_⟩
    · cases hid
    · rintro ⟨r, hr, hverifies⟩
      obtain rfl := Option.some.inj hr
      exact absurd hverifies.hashed (by decide +kernel)
  · have hid := (h.failures "1234567").mpr ⟨none, by decide +kernel, ?_⟩
    · cases hid
    · rintro ⟨r, hr, -⟩
      cases hr

theorem intact_record_accurate :
    Accurate Sample.platform Sample.store [Sample.genesis "A" "0107"] Sample.byId ⟨0, 1, 0, []⟩ := by
  have hchecked : submitIntegrityVerify Sample.platform Sample.limits
      [Sample.genesis "A" "0107"] 0 Sample.byId = .ok (.checked ⟨0, 1, 0, []⟩) := rfl
  apply (verification_accurate_iff Sample.store hchecked).mpr
  refine ⟨fun item hitem => ?_, fun h => by cases h⟩
  have hselection : selection Sample.platform Sample.store [Sample.genesis "A" "0107"] Sample.byId =
      [("1234567", some (Sample.genesis "A" "0107"))] := by decide +kernel
  rw [hselection] at hitem
  obtain rfl := List.mem_singleton.mp hitem
  exact ⟨_, rfl, by decide +kernel, by decide +kernel, fun _ => rfl, fun h => absurd rfl h⟩

theorem written_records_verify {initialCount logicalChainCount : ℕ} {acts : List Act} {t : World}
    (h : (writers π logicalChainCount).exec (.migrated initialCount now) acts = some t)
    {r : AuditRecord} (hr : r ∈ t.records.committed) : Verifies π t.records.committed r := by
  have hsound := sound_run h
  have hintact := hsound.toTables.intact
  have hchain : r ∈ t.chain r.chainId := List.mem_filter.mpr ⟨hr, decide_eq_true rfl⟩
  refine ⟨hsound.rawHashed r hr, hsound.hashed r hr, hintact.genesis _ r hchain, fun hseq => ?_⟩
  obtain ⟨p, hp, hnumber, hprevious⟩ := hintact.linked _ r hchain hseq
  obtain ⟨hp, hpchain⟩ := List.mem_filter.mp hp
  exact ⟨p, hp, of_decide_eq_true hpchain, hnumber, hprevious⟩

theorem redelivery_run : ∃ t,
    (writers Sample.platform 2).exec (.migrated 2 0) Sample.redelivery = some t ∧
      t.records.committed.map AuditRecord.auditId = [7, 9] := by
  have hends : ((writers Sample.platform 2).exec (.migrated 2 0) Sample.redelivery).any
      (fun t => t.records.committed.map AuditRecord.auditId = [7, 9]) = true := by decide +kernel
  obtain ⟨t, hexec, hrecords⟩ := Option.any_eq_true .. |>.mp hends
  exact ⟨t, hexec, of_decide_eq_true hrecords⟩

theorem redelivered_records_verify : ∃ t,
    (writers Sample.platform 2).exec (.migrated 2 0) Sample.redelivery = some t ∧
      ∀ r ∈ t.records.committed, Verifies Sample.platform t.records.committed r :=
  redelivery_run.imp fun _ h => ⟨h.1, fun _ hr => written_records_verify h.1 hr⟩

end Acps.Audit
