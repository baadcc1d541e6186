import Acps.Monitor.Sql
import Mathlib.Algebra.Order.Ring.Rat
import Mathlib.Data.Prod.Lex
import Mathlib.Data.String.Basic

/-!
The orders that the query interfaces accept, and what a database makes of them.
-/

namespace Acps.Monitor

inductive SortOrder where
  | asc
  | desc
  deriving DecidableEq

structure AMPSortSpec where
  field : String
  order : SortOrder
  deriving DecidableEq

structure ResolvedSort where
  field : String
  columnOrAlias : String
  order : SortOrder
  deriving DecidableEq

def resolveSort (allowed : List (String × String)) (default : List ResolvedSort) :
    Option (List AMPSortSpec) → Except FilterError (List ResolvedSort)
  | none => .ok default
  | some sort => sort.mapM fun spec =>
    match allowed.lookup spec.field with
    | none => .error (.unsupportedField spec.field)
    | some column => .ok { field := spec.field, columnOrAlias := column, order := spec.order }

abbrev SortKey := ℚ ×ₗ String

def Cell.sortKey : Cell → SortKey
  | .num n => toLex ((n : ℚ), "")
  | .text s => toLex (0, s)
  | _ => toLex (0, "")

section Order

variable {α : Type} (key : String → α → SortKey)

def ResolvedSort.Before (s : ResolvedSort) (a b : α) : Prop :=
  match s.order with
  | .asc => key s.columnOrAlias a < key s.columnOrAlias b
  | .desc => key s.columnOrAlias b < key s.columnOrAlias a

instance (s : ResolvedSort) (a b : α) : Decidable (s.Before key a b) := by
  unfold ResolvedSort.Before
  split <;> infer_instance

def SortLe : List ResolvedSort → α → α → Prop
  | [], _, _ => True
  | s :: rest, a, b =>
    s.Before key a b ∨ key s.columnOrAlias a = key s.columnOrAlias b ∧ SortLe rest a b

instance decidableSortLe : (sort : List ResolvedSort) → (a b : α) → Decidable (SortLe key sort a b)
  | [], _, _ => isTrue trivial
  | s :: rest, a, b => by
    have := decidableSortLe rest a b
    unfold SortLe
    infer_instance

variable {key} {s : ResolvedSort} {sort : List ResolvedSort} {a b c : α}

theorem ResolvedSort.before_trichotomy (s : ResolvedSort) (a b : α) :
    s.Before key a b ∨ key s.columnOrAlias a = key s.columnOrAlias b ∨ s.Before key b a := by
  unfold Before
  cases s.order with
  | asc => exact lt_trichotomy _ _
  | desc =>
    rcases lt_trichotomy (key s.columnOrAlias a) (key s.columnOrAlias b) with h | h | h
    · exact .inr (.inr h)
    · exact .inr (.inl h)
    · exact .inl h

theorem ResolvedSort.Before.trans (hab : s.Before key a b) (hbc : s.Before key b c) : s.Before key a c := by
  unfold Before at *
  cases hs : s.order with
  | asc =>
    rw [hs] at hab hbc
    exact lt_trans hab hbc
  | desc =>
    rw [hs] at hab hbc
    exact lt_trans hbc hab

theorem ResolvedSort.before_congr (ha : key s.columnOrAlias a = key s.columnOrAlias b) : s.Before key a c ↔ s.Before key b c := by
  unfold Before
  rw [ha]

theorem ResolvedSort.before_congr_right (hb : key s.columnOrAlias b = key s.columnOrAlias c) : s.Before key a b ↔ s.Before key a c := by
  unfold Before
  rw [hb]

theorem sortLe_total (sort : List ResolvedSort) (a b : α) :
    SortLe key sort a b ∨ SortLe key sort b a := by
  induction sort with
  | nil => exact .inl trivial
  | cons s rest ih =>
    rcases s.before_trichotomy a b with h | h | h
    · exact .inl (.inl h)
    · rcases ih with hle | hle
      · exact .inl (.inr ⟨h, hle⟩)
      · exact .inr (.inr ⟨h.symm, hle⟩)
    · exact .inr (.inl h)

theorem SortLe.trans (hab : SortLe key sort a b) (hbc : SortLe key sort b c) : SortLe key sort a c := by
  induction sort with
  | nil => trivial
  | cons s rest ih =>
    rcases hab with hab | ⟨hkey, hab⟩
    · rcases hbc with hbc | ⟨hkey, -⟩
      · exact .inl (hab.trans hbc)
      · exact .inl ((ResolvedSort.before_congr_right hkey).mp hab)
    · rcases hbc with hbc | ⟨hkey', hbc⟩
      · exact .inl ((ResolvedSort.before_congr hkey).mpr hbc)
      · exact .inr ⟨hkey.trans hkey', ih hab hbc⟩

theorem SortLe.of_append {more : List ResolvedSort} (h : SortLe key (sort ++ more) a b) :
    SortLe key sort a b := by
  induction sort with
  | nil => trivial
  | cons s rest ih =>
    rcases h with h | ⟨hkey, h⟩
    · exact .inl h
    · exact .inr ⟨hkey, ih h⟩


end Order

end Acps.Monitor

namespace Acps.Access

open Monitor

def sortFields : List (String × List (String × String)) :=
  [("events", [("timestamp", "timestamp"), ("durationMs", "duration_ms")]),
    ("operations", [("requestCount", "request_count"), ("errorRate", "error_rate"),
      ("avgDurationMs", "avg_duration_ms"), ("p95DurationMs", "p95_duration_ms"),
      ("lastSeenAt", "last_seen_at")])]

def defaultSort : List (String × List ResolvedSort) :=
  [("events", [⟨"timestamp", "timestamp", .desc⟩]),
    ("operations", [⟨"requestCount", "request_count", .desc⟩])]

def validateSort (api : String) : Option (List AMPSortSpec) → Except FilterError (List ResolvedSort) :=
  resolveSort ((sortFields.lookup api).getD [])
    ((defaultSort.lookup api).getD [⟨"timestamp", "timestamp", .desc⟩])

def buildOrderBy (sort : List ResolvedSort) (tiebreak : Option String) : List ResolvedSort :=
  sort ++ tiebreak.toList.map fun column => ⟨column, column, .desc⟩

end Acps.Access

namespace Acps.Message

open Monitor

def sortFieldsByApi : List (String × List (String × String)) :=
  [("events", [("timestamp", "timestamp"), ("logId", "log_id")]),
    ("lifecycles", [("lastSeenAt", "last_seen_at"), ("firstSeenAt", "first_seen_at"),
      ("receiveCount", "receive_count")]),
    ("deadletters", [("deadLetteredAt", "dead_lettered_at"), ("lastSeenAt", "last_seen_at")]),
    ("destinations", [("capturedAt", "captured_at")])]

def defaultSort : List (String × List ResolvedSort) :=
  [("events", [⟨"timestamp", "timestamp", .desc⟩, ⟨"logId", "log_id", .desc⟩]),
    ("lifecycles", [⟨"lastSeenAt", "last_seen_at", .desc⟩,
      ⟨"lifecycleKey", "lifecycle_key", .asc⟩]),
    ("deadletters", [⟨"deadLetteredAt", "dead_lettered_at", .desc⟩,
      ⟨"lifecycleKey", "lifecycle_key", .asc⟩]),
    ("destinations", [⟨"capturedAt", "captured_at", .desc⟩])]

def validateSort (api : String) : Option (List AMPSortSpec) → Except FilterError (List ResolvedSort) :=
  resolveSort ((sortFieldsByApi.lookup api).getD []) ((defaultSort.lookup api).getD [])

end Acps.Message
