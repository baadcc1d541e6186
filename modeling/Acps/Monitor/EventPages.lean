import Acps.Access.Filters
import Acps.Audit.Verify
import Acps.Lib.Binary64
import Acps.Lib.Keyset
import Acps.Message.Filters
import Acps.Monitor.Sorts

/-!
The events page by page, in any order that the two interfaces accept: a page begins behind the time
and the log id of the last row of the page before.
-/

namespace Acps.Monitor

section Cursor

def toEpochMs (t : ℕ) : ℕ := ⌊Binary64.round (Binary64.round (t / 1000) * 1000)⌋₊

theorem toEpochMs_le {t : ℕ} (h : t < 2 ^ 51) : toEpochMs t ≤ t := by
  have hseconds : (0 : ℚ) ≤ t / 1000 := by positivity
  have hproduct : 0 ≤ Binary64.round (t / 1000) * 1000 :=
    mul_nonneg (Binary64.round_nonneg hseconds) (by norm_num)
  have hbound : (t : ℚ) < 2 ^ 51 := by exact_mod_cast h
  have hfactor : (0 : ℚ) ≤ 1 + 2 ^ (-53 : ℤ) := by positivity
  have hread : Binary64.round (Binary64.round (t / 1000) * 1000) < ((t + 1 : ℕ) : ℚ) := by
    calc Binary64.round (Binary64.round (t / 1000) * 1000)
        ≤ Binary64.round (t / 1000) * 1000 * (1 + 2 ^ (-53 : ℤ)) := Binary64.round_le hproduct
      _ ≤ t / 1000 * (1 + 2 ^ (-53 : ℤ)) * 1000 * (1 + 2 ^ (-53 : ℤ)) := by
          gcongr
          exact Binary64.round_le hseconds
      _ = t * (1 + 2 ^ (-53 : ℤ)) ^ 2 := by ring
      _ < t + 1 := by
          have hsmall : ((1 : ℚ) + 2 ^ (-53 : ℤ)) ^ 2 ≤ 1 + 2 ^ (-51 : ℤ) := by norm_num
          have hnonneg : (0 : ℚ) ≤ t := by positivity
          have hrest : (t : ℚ) * 2 ^ (-51 : ℤ) < 1 := by
            calc (t : ℚ) * 2 ^ (-51 : ℤ) < 2 ^ 51 * 2 ^ (-51 : ℤ) :=
                  mul_lt_mul_of_pos_right hbound (by positivity)
              _ = 1 := by norm_num
          calc (t : ℚ) * (1 + 2 ^ (-53 : ℤ)) ^ 2 ≤ t * (1 + 2 ^ (-51 : ℤ)) := by gcongr
            _ = t + t * 2 ^ (-51 : ℤ) := by ring
            _ < t + 1 := by linarith
      _ = ((t + 1 : ℕ) : ℚ) := by push_cast; rfl
  exact Nat.lt_succ_iff.mp (Nat.floor_lt' (Nat.succ_ne_zero t) |>.mpr hread)

theorem le_toEpochMs (t : ℕ) : t / 4 ≤ toEpochMs t := by
  have hseconds : (0 : ℚ) ≤ t / 1000 := by positivity
  have hproduct : 0 ≤ Binary64.round (t / 1000) * 1000 :=
    mul_nonneg (Binary64.round_nonneg hseconds) (by norm_num)
  apply Nat.le_floor
  have hquarter : ((t / 4 : ℕ) : ℚ) * 4 ≤ t := by exact_mod_cast Nat.div_mul_le_self t 4
  calc ((t / 4 : ℕ) : ℚ) ≤ t / 4 := by linarith
    _ = t / 1000 / 2 * 1000 / 2 := by ring
    _ ≤ Binary64.round (t / 1000) * 1000 / 2 := by
        gcongr
        exact Binary64.le_round hseconds
    _ ≤ Binary64.round (Binary64.round (t / 1000) * 1000) := Binary64.le_round hproduct

theorem toEpochMs_eq {t : ℕ} (hlo : 2 ^ 40 < t) (hhi : t < 2 ^ 31 * 1000) : toEpochMs t = t := by
  have hlo' : (1099511627777 : ℚ) ≤ t := by exact_mod_cast hlo
  have hhi' : (t : ℚ) < 2147483648000 := by exact_mod_cast hhi
  have hlog : Int.log 2 ((t : ℚ) / 1000) = 30 := by
    apply Binary64.log_eq
    · norm_num only
      linarith
    · norm_num only
      linarith
  have hulp : Binary64.ulp ((t : ℚ) / 1000) = 2 ^ (-22 : ℤ) := by
    rw [Binary64.ulp, hlog]
    rfl
  have hseconds := abs_le.mp (Binary64.round_sub ((t : ℚ) / 1000))
  rw [hulp] at hseconds
  have hnear : |Binary64.round ((t : ℚ) / 1000) * 1000 - t| < 2 ^ (-13 : ℤ) := by
    norm_num at hseconds ⊢
    rw [abs_lt]
    constructor <;> linarith
  have hnear' := abs_lt.mp hnear
  have hlog' : Int.log 2 (Binary64.round ((t : ℚ) / 1000) * 1000) = 40 := by
    apply Binary64.log_eq
    · norm_num only at hnear' ⊢
      linarith
    · norm_num only at hnear' ⊢
      linarith
  have hulp' : Binary64.ulp (Binary64.round ((t : ℚ) / 1000) * 1000) = 2 ^ (-((12 : ℕ) : ℤ)) := by
    rw [Binary64.ulp, hlog']
    rfl
  have hread : Binary64.round (Binary64.round ((t : ℚ) / 1000) * 1000) = ((t : ℤ) : ℚ) := by
    apply Binary64.round_eq_of_near hulp'
    norm_num at hnear ⊢
    exact hnear
  rw [toEpochMs, hread, Int.cast_natCast, Nat.floor_natCast]

end Cursor

section Queries

structure Event where
  timestamp : ℕ
  timestamp_lt : timestamp < 10413792000000
  logId : String
  columns : Row

def Event.row (e : Event) : Row := fun column =>
  if column = "timestamp" then .num e.timestamp
  else if column = "log_id" then .text e.logId
  else e.columns column

abbrev StoredEvent := Event × ℕ

inductive EventService where
  | access
  | message
  deriving DecidableEq

namespace EventService

def compileFilter : EventService → Option AMPFilter → Except FilterError (List Fragment)
  | access => fun f => f.elim (.ok []) (Access.compileFilter "events" Access.eventFilterFields)
  | message => fun f => f.elim (.ok []) (Message.compileFilter "events" Message.eventFilterFields)

def validateSort : EventService → Option (List AMPSortSpec) → Except FilterError (List ResolvedSort)
  | access => Access.validateSort "events"
  | message => Message.validateSort "events"

def orderBy : EventService → List ResolvedSort → List ResolvedSort
  | access => fun sort => Access.buildOrderBy sort (some "log_id")
  | message => fun sort => sort

end EventService

def Event.key (column : String) (e : Event) : SortKey := (e.row column).sortKey

def StoredLe (sort : List ResolvedSort) (a b : StoredEvent) : Prop := SortLe Event.key sort a.1 b.1

abbrev Sorters := ∀ orderBy : List ResolvedSort, Sorter (StoredLe orderBy)

structure EventQuery where
  fromMs : ℕ
  toMs : ℕ
  filter : Option AMPFilter
  sort : Option (List AMPSortSpec)
  limit : ℕ
  limit_ge : 1 ≤ limit
  limit_le : limit ≤ 500

structure EventCursor where
  timestamp : ℕ
  logId : String
  fingerprint : String

inductive EventQueryError where
  | filter (e : FilterError)
  | cursorInvalid
  | readModelLagging

structure EventPage where
  rows : List StoredEvent
  nextCursor : Option EventCursor

def EventCursor.Passed (c : EventCursor) (e : Event) : Prop :=
  e.timestamp < toEpochMs c.timestamp ∨ e.timestamp = toEpochMs c.timestamp ∧ e.logId < c.logId

instance (c : EventCursor) (e : Event) : Decidable (c.Passed e) := inferInstanceAs (Decidable (_ ∨ _))

def decodeCursor (expectedFingerprint : String) :
    Option EventCursor → Except EventQueryError (Option EventCursor)
  | none => .ok none
  | some c => if c.fingerprint = expectedFingerprint then .ok (some c) else .error .cursorInvalid

def EventQuery.Covers (q : EventQuery) (store : Store) (clauses : List Fragment) (e : Event) :
    Prop :=
  q.fromMs ≤ e.timestamp ∧ e.timestamp < q.toMs ∧ ∀ c ∈ clauses, c.eval store e.row

instance (q : EventQuery) (store : Store) (clauses : List Fragment) (e : Event) :
    Decidable (q.Covers store clauses e) := by
  unfold EventQuery.Covers
  infer_instance

variable (store : Store) (D : Sorters) (queryFingerprint : EventQuery → String)
  (service : EventService) (table : List Event) (q : EventQuery)

def matching (clauses : List Fragment) : List StoredEvent :=
  table.zipIdx.filter fun e => q.Covers store clauses e.1

def cursorAt (last : StoredEvent) : EventCursor :=
  { timestamp := last.1.timestamp, logId := last.1.logId, fingerprint := queryFingerprint q }

def pageOf (rows : List StoredEvent) : EventPage :=
  if q.limit < rows.length then
    { rows := rows.take q.limit
      nextCursor := (rows.take q.limit).getLast?.map (cursorAt queryFingerprint q) }
  else { rows, nextCursor := none }

def queryEvents (cursor : Option EventCursor) : Except EventQueryError EventPage := do
  let clauses ← (service.compileFilter q.filter).mapError .filter
  let sort ← (service.validateSort q.sort).mapError .filter
  let state ← decodeCursor (queryFingerprint q) cursor
  Fallible.require (clauses.all (Fragment.accepts store)) .readModelLagging
  let selected := (matching store table q clauses).filter fun e => ∀ c ∈ state, c.Passed e.1
  let rows := ((D (service.orderBy sort)).order selected).take (q.limit + 1)
  return pageOf queryFingerprint q rows

def followCursor : ℕ → Option EventCursor →
    Option (Except EventQueryError (List (List StoredEvent)))
  | 0, _ => none
  | fuel + 1, cursor =>
    match queryEvents store D queryFingerprint service table q cursor with
    | .error e => some (.error e)
    | .ok page =>
      match page.nextCursor with
      | none => some (.ok [page.rows])
      | some next => (followCursor fuel (some next)).map fun rest => rest.map (page.rows :: ·)

/-- Following the cursors from the first page ends, with each matching event once and in the order
asked for. -/
def PagedCompletely (sort : List ResolvedSort) (clauses : List Fragment) : Prop :=
  ∃ fuel pages, followCursor store D queryFingerprint service table q fuel none = some (.ok pages) ∧
    pages.flatten.Perm (matching store table q clauses) ∧
    pages.flatten.Pairwise (StoredLe sort)

structure Accepted (sort : List ResolvedSort) (clauses : List Fragment) : Prop where
  validateSort : service.validateSort q.sort = .ok sort
  compileFilter : service.compileFilter q.filter = .ok clauses
  accepts : clauses.all (Fragment.accepts store) = true

def behind (last e : StoredEvent) : Bool := (cursorAt queryFingerprint q last).Passed e.1

end Queries

section Pages

variable {store : Store} {D : Sorters} {queryFingerprint : EventQuery → String} {service : EventService}
  {table : List Event} {q : EventQuery} {sort : List ResolvedSort} {clauses : List Fragment}

theorem queryEvents_eq (h : Accepted store service q sort clauses) {cursor : Option EventCursor}
    (hcursor : decodeCursor (queryFingerprint q) cursor = .ok cursor) :
    queryEvents store D queryFingerprint service table q cursor =
      .ok (pageOf queryFingerprint q ((D (service.orderBy sort)).order
        ((matching store table q clauses).filter fun e => ∀ c ∈ cursor, c.Passed e.1))) := by
  unfold queryEvents
  rw [h.compileFilter, h.validateSort, hcursor]
  simp only [Except.mapError, Fallible.ok_bind]
  rw [Fallible.require_eq_ok (u := ()) |>.mpr h.accepts, Fallible.ok_bind]
  refine congrArg Except.ok ?_
  unfold pageOf
  rw [List.length_take, List.take_take, Nat.min_eq_left (Nat.le_succ _)]
  split
  · rw [if_pos (by omega)]
  · rw [if_neg (by omega), List.take_of_length_le (by omega)]

theorem decodeCursor_cursorAt (last : StoredEvent) :
    decodeCursor (queryFingerprint q) (some (cursorAt queryFingerprint q last)) =
      .ok (some (cursorAt queryFingerprint q last)) := if_pos rfl

theorem followCursor_eq (h : Accepted store service q sort clauses) {cursor : Option EventCursor}
    (hcursor : decodeCursor (queryFingerprint q) cursor = .ok cursor) (fuel : ℕ) :
    followCursor store D queryFingerprint service table q fuel cursor =
      (Keyset.follow (D (service.orderBy sort)) (behind queryFingerprint q) q.limit
        (matching store table q clauses) fuel
        ((matching store table q clauses).filter fun e => ∀ c ∈ cursor, c.Passed e.1)).map
          .ok := by
  induction fuel generalizing cursor with
  | zero => rfl
  | succ fuel ih =>
    rw [followCursor, queryEvents_eq h hcursor, Keyset.follow]
    generalize (D (service.orderBy sort)).order _ = rows
    unfold pageOf
    by_cases hmore : q.limit < rows.length
    · rw [if_pos hmore, if_pos hmore]
      cases hlast : (rows.take q.limit).getLast? with
      | none => rfl
      | some last =>
        have hselected : ((matching store table q clauses).filter fun e =>
            ∀ c ∈ some (cursorAt queryFingerprint q last), c.Passed e.1) =
            (matching store table q clauses).filter (behind queryFingerprint q last) := by
          refine List.filter_congr fun e _ => ?_
          exact decide_eq_decide.mpr ⟨fun hall => hall _ rfl, fun hpassed c hc => by
            obtain rfl := Option.some.inj hc
            exact hpassed⟩
        rw [Option.map_some]
        dsimp only
        rw [ih (decodeCursor_cursorAt last), hselected, Option.map_map, Option.map_map]
        rfl
    · rw [if_neg hmore, if_neg hmore]
      rfl

theorem pagedCompletely_iff (h : Accepted store service q sort clauses) :
    PagedCompletely store D queryFingerprint service table q sort clauses ↔
      Keyset.Complete (D (service.orderBy sort)) (behind queryFingerprint q) q.limit
        (matching store table q clauses) (StoredLe sort) := by
  have hall : ((matching store table q clauses).filter fun e =>
      ∀ c ∈ (none : Option EventCursor), c.Passed e.1) = matching store table q clauses := by
    refine List.filter_eq_self.mpr fun e _ => decide_eq_true ?_
    intro c hc
    cases hc
  unfold PagedCompletely Keyset.Complete
  refine exists_congr fun fuel => ?_
  rw [followCursor_eq h rfl, hall]
  constructor
  · rintro ⟨pages, hpages, hrest⟩
    obtain ⟨pages', hfollow, heq⟩ := Option.map_eq_some_iff.mp hpages
    exact ⟨pages', hfollow, Except.ok.inj heq ▸ hrest⟩
  · rintro ⟨pages, hpages, hrest⟩
    exact ⟨pages, hpages ▸ rfl, hrest⟩

theorem nodup_matching : (matching store table q clauses).Nodup :=
  ((List.zipIdx_map_snd 0 table ▸ List.nodup_range').of_map _).filter _

theorem behind_trans {a b c : StoredEvent} (hab : behind queryFingerprint q a b)
    (hbc : behind queryFingerprint q b c) : behind queryFingerprint q a c := by
  have hread : toEpochMs b.1.timestamp ≤ b.1.timestamp :=
    toEpochMs_le (b.1.timestamp_lt.trans (by norm_num))
  have hab := of_decide_eq_true hab
  have hbc := of_decide_eq_true hbc
  apply decide_eq_true
  unfold cursorAt EventCursor.Passed at *
  dsimp only at *
  rcases hab with hab | ⟨hab, hid⟩
  · left
    rcases hbc with hbc | ⟨hbc, -⟩ <;> omega
  · rcases hbc with hbc | ⟨hbc, hid'⟩
    · left
      omega
    · rcases (hbc.trans_le hread).lt_or_eq with hlt | heq
      · left
        omega
      · right
        exact ⟨heq.trans hab, hid'.trans hid⟩

instance (orderBy : List ResolvedSort) : Std.Total (StoredLe orderBy) :=
  ⟨fun a b => sortLe_total orderBy a.1 b.1⟩

instance (orderBy : List ResolvedSort) : IsTrans StoredEvent (StoredLe orderBy) :=
  ⟨fun _ _ _ => SortLe.trans⟩

instance (orderBy : List ResolvedSort) : DecidableRel (StoredLe orderBy) := fun a b =>
  inferInstanceAs (Decidable (SortLe Event.key orderBy a.1 b.1))

theorem StoredLe.of_orderBy {a b : StoredEvent} (h : StoredLe (service.orderBy sort) a b) :
    StoredLe sort a b := by
  cases service with
  | access => exact SortLe.of_append h
  | message => exact h

def Sorters.insertion : Sorters := fun orderBy => Sorter.insertion (StoredLe orderBy)

theorem forall_pagedCompletely_iff (h : Accepted store service q sort clauses) :
    (∀ D : Sorters, PagedCompletely store D queryFingerprint service table q sort clauses) ↔
      ∀ L : List StoredEvent, L.Perm (matching store table q clauses) →
        L.Pairwise (StoredLe (service.orderBy sort)) →
        Keyset.Seams (behind queryFingerprint q) q.limit L := by
  have hnodup : (matching store table q clauses).Nodup := nodup_matching
  have htrans : ∀ a b c : StoredEvent, behind queryFingerprint q a b →
      behind queryFingerprint q b c → behind queryFingerprint q a c := fun _ _ _ => behind_trans
  have hle : ∀ a b, StoredLe (service.orderBy sort) a b → StoredLe sort a b :=
    fun _ _ => StoredLe.of_orderBy
  rw [← Keyset.complete_iff hnodup q.limit_ge htrans hle]
  constructor
  · intro hall S
    have hpaged := hall (Function.update Sorters.insertion (service.orderBy sort) S)
    rw [pagedCompletely_iff h, Function.update_self] at hpaged
    exact hpaged
  · intro hall D
    exact (pagedCompletely_iff h).mpr (hall (D (service.orderBy sort)))

end Pages

section Default

variable {store : Store} {queryFingerprint : EventQuery → String} {service : EventService}
  {table : List Event} {q : EventQuery} {sort : List ResolvedSort} {clauses : List Fragment}

theorem default_columns (hsort : service.validateSort none = .ok sort) :
    (service.orderBy sort).map (fun s => (s.columnOrAlias, s.order)) =
      [("timestamp", .desc), ("log_id", .desc)] := by
  cases service with
  | access =>
    obtain rfl := Except.ok.inj hsort
    rfl
  | message =>
    obtain rfl := Except.ok.inj hsort
    rfl

theorem timestamp_lt_of_key {m n : ℕ} (h : toLex (((m : ℤ) : ℚ), "") < toLex (((n : ℤ) : ℚ), "")) :
    m < n := by
  rcases Prod.Lex.toLex_lt_toLex.mp h with h | ⟨-, h⟩
  · have hlt : (m : ℚ) < n := h
    exact Nat.cast_lt.mp hlt
  · exact absurd h (lt_irrefl _)

theorem timestamp_eq_of_key {m n : ℕ}
    (h : toLex (((m : ℤ) : ℚ), "") = toLex (((n : ℤ) : ℚ), "")) : n = m := by
  exact_mod_cast (Prod.mk.inj h).1.symm

theorem logId_lt_of_key {s t : String} (h : toLex ((0 : ℚ), s) < toLex ((0 : ℚ), t)) : s < t := by
  rcases Prod.Lex.toLex_lt_toLex.mp h with h | ⟨-, h⟩
  · exact absurd h (lt_irrefl _)
  · exact h

theorem newest_of_storedLe (hsort : service.validateSort none = .ok sort) {a b : StoredEvent}
    (h : StoredLe (service.orderBy sort) a b) : b.1.timestamp < a.1.timestamp ∨
      b.1.timestamp = a.1.timestamp ∧ (b.1.logId < a.1.logId ∨ b.1.logId = a.1.logId) := by
  have hcolumns := default_columns hsort
  generalize service.orderBy sort = orderBy at h hcolumns
  match orderBy, hcolumns with
  | [⟨_, column, order⟩, ⟨_, column', order'⟩], hcolumns =>
    simp only [List.map_cons, List.map_nil, List.cons.injEq, Prod.mk.injEq, and_true] at hcolumns
    obtain ⟨⟨rfl, rfl⟩, rfl, rfl⟩ := hcolumns
    rcases h with hlt | ⟨htime, hlt | ⟨hid, -⟩⟩
    · exact .inl (timestamp_lt_of_key hlt)
    · exact .inr ⟨timestamp_eq_of_key htime, .inl (logId_lt_of_key hlt)⟩
    · exact .inr ⟨timestamp_eq_of_key htime, .inr (Prod.mk.inj hid).2.symm⟩

theorem default_seams (hsort : service.validateSort none = .ok sort)
    (hread : ∀ e ∈ table, toEpochMs e.timestamp = e.timestamp)
    (hplaces : (table.map fun e => (e.timestamp, e.logId)).Nodup) {L : List StoredEvent}
    (hperm : L.Perm (matching store table q clauses))
    (hL : L.Pairwise (StoredLe (service.orderBy sort))) :
    Keyset.Seams (behind queryFingerprint q) q.limit L := by
  have hplacesL : L.Pairwise fun a b => (a.1.timestamp, a.1.logId) ≠ (b.1.timestamp, b.1.logId) := by
    have hzip : (table.zipIdx.map fun e => (e.1.timestamp, e.1.logId)).Nodup := by
      have hmap : table.zipIdx.map (fun e => (e.1.timestamp, e.1.logId)) =
          (table.zipIdx.map Prod.fst).map fun e => (e.timestamp, e.logId) := by
        rw [List.map_map]
        rfl
      rw [hmap, List.zipIdx_map_fst]
      exact hplaces
    rw [← List.pairwise_map (R := (· ≠ ·)) (f := fun e : StoredEvent => (e.1.timestamp, e.1.logId))]
    exact (hperm.map _).nodup_iff.mpr (hzip.sublist (List.filter_sublist.map _))
  have hstrict : L.Pairwise fun a b => b.1.timestamp < a.1.timestamp ∨
      b.1.timestamp = a.1.timestamp ∧ b.1.logId < a.1.logId := by
    refine (hL.and hplacesL).imp ?_
    rintro a b ⟨hle, hne⟩
    rcases newest_of_storedLe hsort hle with h | ⟨htime, h | hid⟩
    · exact .inl h
    · exact .inr ⟨htime, h⟩
    · exact absurd (by rw [htime, hid]) hne
  intro front last rest hsplit _ _ e he
  have hlast : toEpochMs last.1.timestamp = last.1.timestamp := by
    have hmem : last ∈ matching store table q clauses :=
      hperm.mem_iff.mp (hsplit ▸ List.mem_append_right _ List.mem_cons_self)
    exact hread _ (List.fst_mem_of_mem_zipIdx (List.mem_filter.mp hmem).1)
  rw [hsplit] at hstrict he
  obtain ⟨-, hafter, hcross⟩ := List.pairwise_append.mp hstrict
  have hbehind : behind queryFingerprint q last e = true ↔ e.1.timestamp < last.1.timestamp ∨
      e.1.timestamp = last.1.timestamp ∧ e.1.logId < last.1.logId := by
    rw [behind, decide_eq_true_iff, cursorAt, EventCursor.Passed, hlast]
  rw [hbehind]
  constructor
  · intro hlt
    rcases List.mem_append.mp he with he | he
    · have hgt := hcross e he last List.mem_cons_self
      rcases hlt with hlt | ⟨htime, hid⟩ <;> rcases hgt with hgt | ⟨htime', hid'⟩
      · omega
      · omega
      · omega
      · exact absurd hid' hid.asymm
    · rcases List.mem_cons.mp he with rfl | he
      · rcases hlt with hlt | ⟨-, hid⟩
        · omega
        · exact absurd hid (lt_irrefl _)
      · exact he
  · intro hrest
    exact (List.pairwise_cons.mp hafter).1 e hrest

end Default

theorem event_paging_complete_iff (store : Store) (queryFingerprint : EventQuery → String)
    (service : EventService) (table : List Event) (q : EventQuery) {sort : List ResolvedSort}
    {clauses : List Fragment} (h : Accepted store service q sort clauses) :
    (∀ D : Sorters, PagedCompletely store D queryFingerprint service table q sort clauses) ↔
      ∀ L : List StoredEvent, L.Perm (matching store table q clauses) →
        L.Pairwise (StoredLe (service.orderBy sort)) →
        Keyset.Seams (behind queryFingerprint q) q.limit L :=
  forall_pagedCompletely_iff h

namespace Sample

theorem one_le_smallest : 1 ≤ 1 := le_refl 1

theorem one_le_largest : 1 ≤ 500 := by decide

def event (ms : ℕ) (logId : String) (durationMs : ℤ) (h : ms < 1000) : Event where
  timestamp := 1700000000000 + ms
  timestamp_lt := by omega
  logId := logId
  columns _ := .num durationMs

def events : List Event := [event 1 "a" 9 (by decide), event 2 "b" 5 (by decide)]

def eventQuery (sort : Option (List AMPSortSpec)) : EventQuery where
  fromMs := 0
  toMs := 1800000000000
  filter := none
  sort := sort
  limit := 1
  limit_ge := one_le_smallest
  limit_le := one_le_largest

def slowestFirst : List AMPSortSpec := [{ field := "durationMs", order := .desc }]

end Sample

theorem default_order_paged : PagedCompletely Audit.Sample.store Sorters.insertion (fun _ => "f")
    .access Sample.events (Sample.eventQuery none)
    [{ field := "timestamp", columnOrAlias := "timestamp", order := .desc }] [] := by
  refine (event_paging_complete_iff Audit.Sample.store _ .access _ _ ⟨rfl, rfl, rfl⟩).mpr ?_ _
  intro L hperm hL
  refine default_seams rfl ?_ (by decide) hperm hL
  intro e he
  have htimes : 2 ^ 40 < e.timestamp ∧ e.timestamp < 2 ^ 31 * 1000 := by
    revert e
    decide
  exact toEpochMs_eq htimes.1 htimes.2

theorem slowest_first_loses_event : ¬ ∀ (store : Store) (queryFingerprint : EventQuery → String)
    (service : EventService) (table : List Event) (q : EventQuery) (sort : List ResolvedSort)
    (clauses : List Fragment), Accepted store service q sort clauses → ∀ D : Sorters,
      PagedCompletely store D queryFingerprint service table q sort clauses := by
  intro h
  have haccepted : Accepted Audit.Sample.store .access
      (Sample.eventQuery (some Sample.slowestFirst))
      [{ field := "durationMs", columnOrAlias := "duration_ms", order := .desc }] [] :=
    ⟨rfl, rfl, rfl⟩
  have hseams := (forall_pagedCompletely_iff haccepted).mp
    (h _ (fun _ => "f") _ Sample.events _ _ _ haccepted) Sample.events.zipIdx
  have hmatching : matching Audit.Sample.store Sample.events
      (Sample.eventQuery (some Sample.slowestFirst)) [] = Sample.events.zipIdx := rfl
  have hbehind := (hseams (hmatching ▸ List.Perm.refl _) (by decide) [] _ _ rfl (by decide)
    (List.cons_ne_nil _ _) _ (List.mem_cons_of_mem _ List.mem_cons_self)).mpr List.mem_cons_self
  have hread : toEpochMs 1700000000001 = 1700000000001 := toEpochMs_eq (by decide) (by decide)
  rcases of_decide_eq_true hbehind with hlt | ⟨heq, -⟩
  · have hearlier : 1700000000002 < toEpochMs 1700000000001 := hlt
    omega
  · have hsame : 1700000000002 = toEpochMs 1700000000001 := heq
    omega

/-- Without a sort of the request all pages come out right, if time and log id tell the events apart
and the times come back as they are. -/
theorem default_events_paged {store : Store} {queryFingerprint : EventQuery → String}
    {service : EventService} {table : List Event} {q : EventQuery} {sort : List ResolvedSort}
    {clauses : List Fragment} (h : Accepted store service q sort clauses) (hsort : q.sort = none)
    (htimes : ∀ e ∈ table, 2 ^ 40 < e.timestamp ∧ e.timestamp < 2 ^ 31 * 1000)
    (hplaces : (table.map fun e => (e.timestamp, e.logId)).Nodup) (D : Sorters) :
    PagedCompletely store D queryFingerprint service table q sort clauses := by
  have hdefault : service.validateSort none = .ok sort := hsort ▸ h.validateSort
  refine (forall_pagedCompletely_iff h).mpr ?_ D
  intro L hperm hL
  exact default_seams hdefault (fun e he => toEpochMs_eq (htimes e he).1 (htimes e he).2) hplaces
    hperm hL

theorem default_messages_paged : PagedCompletely Audit.Sample.store Sorters.insertion (fun _ => "f")
    .message Sample.events (Sample.eventQuery none)
    [⟨"timestamp", "timestamp", .desc⟩, ⟨"logId", "log_id", .desc⟩] [] :=
  default_events_paged ⟨rfl, rfl, rfl⟩ rfl (by decide) (by decide) Sorters.insertion

end Acps.Monitor
