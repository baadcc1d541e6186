import Acps.Audit.Intact
import Acps.Audit.Query
import Acps.Audit.Verify
import Acps.Lib.Base64
import Acps.Lib.Paging
import Mathlib.Data.Prod.Lex

/-!
The records page by page: following the cursors of a query returns each matching record once, the
newest first.
-/

namespace Acps.Audit

open Base64 Paging
open Monitor (Fragment)

section Text

def encodeUtf8 (s : String) : Bytes := s.toUTF8.data.toList

def decodeUtf8 (bytes : Bytes) : Option String := String.fromUTF8? ⟨bytes.toArray⟩

theorem decodeUtf8_encodeUtf8 (s : String) : decodeUtf8 (encodeUtf8 s) = some s := by
  have hbytes : (⟨(encodeUtf8 s).toArray⟩ : ByteArray) = s.toByteArray := by
    simp [encodeUtf8]
  unfold decodeUtf8 String.fromUTF8?
  rw [dif_pos (hbytes ▸ s.isValidUTF8)]
  exact congrArg some (String.toByteArray_inj.mp hbytes)

end Text

structure RecordPage where
  rows : List AuditRecord
  nextCursor : Option String

section Pages

variable (db : Database) (isoformat : Time → String) (records : List AuditRecord)

def encodeCursor (timestamp auditId : String) : String :=
  String.ofList (urlsafeB64encode (encodeUtf8 (timestamp ++ "|" ++ auditId)))

def realLimit (page : Option AMPPaginationRequest) : ℕ :=
  page.elim 50 AMPPaginationRequest.limit

def queryRecordPage (request : RecordQueryRequest) : Except QueryError RecordPage := do
  let w ← requireTimeRange db request.timeRange
  let cursor ← readCursor db request.page
  let clauses ← (request.filter.elim (.ok []) (filterClauses db))
  Fallible.require (clauses.all (Fragment.accepts db.store)) .valueError
  let selected := records.filter (Selects db w cursor clauses request.keyword)
  let rawRows := (selected.mergeSort newestFirst).take (realLimit request.page + 1)
  return if realLimit request.page < rawRows.length then
      { rows := rawRows.take (realLimit request.page)
        nextCursor := (rawRows.take (realLimit request.page)).getLast?.map fun last =>
          encodeCursor (isoformat last.timestamp) last.auditId.str }
    else { rows := rawRows, nextCursor := none }

theorem realLimit_bounds (page : Option AMPPaginationRequest) :
    1 ≤ realLimit page ∧ realLimit page ≤ 500 := by
  cases page with
  | none => decide
  | some page => exact ⟨page.limit_ge, page.limit_le⟩

def RecordQueryRequest.at (request : RecordQueryRequest) (cursor : String) : RecordQueryRequest :=
  { request with
    page := some
      { limit := realLimit request.page
        limit_ge := (realLimit_bounds request.page).1
        limit_le := (realLimit_bounds request.page).2
        cursor := some cursor } }

def followCursor : ℕ → RecordQueryRequest → Option (Except QueryError (List (List AuditRecord)))
  | 0, _ => none
  | fuel + 1, request =>
    match queryRecordPage db isoformat records request with
    | .error e => some (.error e)
    | .ok page =>
      match page.nextCursor with
      | none => some (.ok [page.rows])
      | some cursor =>
        (followCursor fuel (request.at cursor)).map fun rest => rest.map (page.rows :: ·)

theorem queryRecordPage_rows (request : RecordQueryRequest) :
    (queryRecordPage db isoformat records request).map RecordPage.rows =
      queryRecords db records request := by
  unfold queryRecordPage queryRecords
  cases requireTimeRange db request.timeRange with
  | error e => rfl
  | ok w =>
    cases readCursor db request.page with
    | error e => rfl
    | ok cursor =>
      cases request.filter.elim (.ok []) (filterClauses db) with
      | error e => rfl
      | ok clauses =>
        simp only [Fallible.ok_bind]
        cases Fallible.require (clauses.all (Fragment.accepts db.store) = true)
            QueryError.valueError with
        | error e => rfl
        | ok u =>
          simp only [Fallible.ok_bind]
          change Except.ok (RecordPage.rows _) = Except.ok _
          refine congrArg Except.ok ?_
          split
          · exact List.take_take.trans (by rw [Nat.min_eq_left (Nat.le_succ _)]; rfl)
          · rename_i hfew
            rw [List.length_take] at hfew
            dsimp only
            rw [List.take_of_length_le (by omega)]
            exact (List.take_of_length_le (show _ ≤ realLimit request.page by omega)).symm

end Pages

section Complete

def place (r : AuditRecord) : ℤᵒᵈ ×ₗ ℕᵒᵈ :=
  toLex (OrderDual.toDual r.timestamp, OrderDual.toDual r.auditId.toNat)

variable {db : Database} {isoformat : Time → String} {records : List AuditRecord}
  {request : RecordQueryRequest}

def matching (db : Database) (w : Window) (clauses : List Fragment) (keyword : Option String)
    (records : List AuditRecord) : List AuditRecord :=
  records.filter (Selects db w none clauses keyword)

def pageOf (isoformat : Time → String) (limit : ℕ) (rows : List AuditRecord) : RecordPage :=
  if limit < rows.length then
    { rows := rows.take limit
      nextCursor := (rows.take limit).getLast?.map fun last =>
        encodeCursor (isoformat last.timestamp) last.auditId.str }
  else { rows, nextCursor := none }

section Follow

variable {w : Window} {clauses : List Fragment}

def newest (db : Database) (w : Window) (clauses : List Fragment) (keyword : Option String)
    (records : List AuditRecord) : List AuditRecord :=
  orderBy place (matching db w clauses keyword records)

end Follow

end Complete

namespace Sample

def epoch : String := "1970-01-01T00:00:00+00:00"

def nextSecond : String := "1970-01-01T00:00:01+00:00"

def oneByOne : RecordQueryRequest :=
  { timeRange := some { startAt := epoch, endAt := nextSecond }, filter := none, keyword := none
    page := some { limit := 1, limit_ge := by decide, limit_le := by decide, cursor := none } }

end Sample

section Written

variable {π : Platform} {initialCount logicalChainCount : ℕ} {now : Time} {acts : List Act}
  {s t : World} {a : Act}

structure Paired (s : World) : Prop where
  committed : s.records.committed.map AuditRecord.auditId =
    s.identities.committed.map AuditRecordIdentity.auditId
  pending : s.records.pending.map (fun p => (p.1, p.2.auditId)) =
    s.identities.pending.map fun p => (p.1, p.2.auditId)

theorem map_filter_fst {ρ : Type} (f : ρ → Uuid) (q : ℕ → Bool) (pending : List (ℕ × ρ)) :
    (pending.filter fun p => q p.1).map (fun p => (p.1, f p.2)) =
      (pending.map fun p => (p.1, f p.2)).filter fun p => q p.1 := by
  rw [List.filter_map]
  rfl

theorem map_own {ρ : Type} (f : ρ → Uuid) (rows : Inserts ℕ ρ) (i : ℕ) :
    (rows.own i).map f =
      ((rows.pending.map fun p => (p.1, f p.2)).filter fun p => p.1 = i).map Prod.snd := by
  rw [← map_filter_fst f (fun j => decide (j = i)), List.map_map, Inserts.own, List.map_map]
  rfl

theorem Paired.congr (h : Paired s) (hidentities : t.identities = s.identities)
    (hrecords : t.records = s.records) : Paired t := by
  constructor
  · rw [hidentities, hrecords]
    exact h.committed
  · rw [hidentities, hrecords]
    exact h.pending

theorem Paired.rollback (h : Paired s) (i : ℕ) : Paired (s.rollback i) := by
  refine ⟨h.committed, ?_⟩
  change ((s.records.rollback i).pending.map fun p => (p.1, p.2.auditId)) =
    (s.identities.rollback i).pending.map fun p => (p.1, p.2.auditId)
  unfold Inserts.rollback
  rw [map_filter_fst AuditRecord.auditId (fun j => decide (j ≠ i)), h.pending,
    map_filter_fst AuditRecordIdentity.auditId (fun j => decide (j ≠ i))]

theorem Paired.commit (h : Paired s) (i : ℕ) : Paired (s.commit i) := by
  refine ⟨?_, (h.rollback i).pending⟩
  change (s.records.committed ++ s.records.own i).map AuditRecord.auditId =
    (s.identities.committed ++ s.identities.own i).map AuditRecordIdentity.auditId
  rw [List.map_append, List.map_append, h.committed, map_own, map_own, h.pending]

theorem Paired.insertRows (h : Paired s) (i : ℕ) (row : AuditRecord) (nowUtc : Time) :
    Paired (s.insertRows i (identityRow row nowUtc) row) := by
  refine ⟨h.committed, ?_⟩
  change ((s.records.pending ++ [(i, row)]).map fun p => (p.1, p.2.auditId)) =
    (s.identities.pending ++ [(i, identityRow row nowUtc)]).map fun p => (p.1, p.2.auditId)
  rw [List.map_append, List.map_append, h.pending]
  rfl

theorem paired_step (h : Paired s) (hstep : step π logicalChainCount s a = some t) : Paired t := by
  cases a with
  | handleMessage i rawDict =>
    simp only [step] at hstep
    split at hstep
    · obtain rfl := Option.some.inj hstep
      unfold handleMessage
      split
      · exact h
      · split_ifs
        · exact h
        · split
          · exact h
          · split_ifs
            · exact h
            · exact h.congr rfl rfl
    · cases hstep
  | lockHead i answer =>
    simp only [step] at hstep
    split at hstep
    · unfold lockHead at hstep
      split at hstep
      · exact Option.some.inj hstep ▸ h.rollback i
      · split at hstep
        · exact Option.some.inj hstep ▸ h.rollback i
        · obtain ⟨row', -, rfl⟩ := Option.map_eq_some_iff.mp hstep
          exact h.congr rfl rfl
    · cases hstep
  | flush i auditId committedAt nowUtc =>
    simp only [step] at hstep
    split at hstep
    · split at hstep
      · exact Option.some.inj hstep ▸ h.rollback i
      · unfold flush at hstep
        split at hstep
        · cases hstep
        · exact Option.some.inj hstep ▸ h.rollback i
        · exact Option.some.inj hstep ▸ (h.insertRows i _ nowUtc).congr rfl rfl
    · cases hstep
  | updateHead i =>
    simp only [step] at hstep
    split at hstep
    · unfold updateHead at hstep
      split at hstep
      · exact Option.some.inj hstep ▸ h.rollback i
      · obtain ⟨head', -, rfl⟩ := Option.map_eq_some_iff.mp hstep
        exact h.congr rfl rfl
    · cases hstep
  | commit i =>
    simp only [step] at hstep
    split at hstep
    · exact Option.some.inj hstep ▸ h.commit i
    · cases hstep
  | fail i =>
    simp only [step] at hstep
    split at hstep
    · cases hstep
    · exact Option.some.inj hstep ▸ h.rollback i

theorem written_auditIds_nodup
    (h : (writers π logicalChainCount).exec (.migrated initialCount now) acts = some t) :
    (t.records.committed.map AuditRecord.auditId).Nodup := by
  have hpaired : Paired t :=
    (writers π logicalChainCount).exec_induction (fun _ _ _ hs => paired_step hs)
      (show Paired (.migrated initialCount now) from ⟨rfl, rfl⟩) h
  rw [hpaired.committed]
  apply List.pairwise_map.mpr
  exact (sound_run h).distinct.committed.imp fun hclash heq => hclash (.inl heq)

theorem redelivered_auditIds_nodup : ∃ t,
    (writers Sample.platform 2).exec (.migrated 2 0) Sample.redelivery = some t ∧
      (t.records.committed.map AuditRecord.auditId).Nodup :=
  redelivery_run.imp fun _ h => ⟨h.1, written_auditIds_nodup h.1⟩

end Written

end Acps.Audit
