import Acps.Audit.RecordPages
import Acps.Heartbeat.ShardNames
import Acps.Lib.JsonText

/-!
The cursor of the list query: where each shard stopped, as base64 of JSON.
-/

namespace Acps.Heartbeat

open Audit (encodeUtf8 decodeUtf8 decodeUtf8_encodeUtf8)
open Base64 (urlsafeB64encode urlsafeB64decode urlsafeB64decode_urlsafeB64encode)
open JsonText (Number Value isNumber isNumberChar skipDigits skipInteger)
open Numerals

section Integers

def intLiteral (z : ℤ) : Text :=
  if z < 0 then '-' :: numeral 10 z.natAbs else numeral 10 z.natAbs

theorem isDigit_upperHexDigit : ∀ d < 10, JsonText.isDigit (upperHexDigit d) = true := by decide

theorem upperHexDigit_eq_zero : ∀ d < 10, upperHexDigit d = '0' → d = 0 := by decide

theorem isDigit_of_mem_numeral {n : ℕ} {c : Char} (h : c ∈ numeral 10 n) :
    JsonText.isDigit c = true := by
  obtain ⟨d, hd, rfl⟩ := mem_numeral (by decide) h
  exact isDigit_upperHexDigit d hd

theorem numeral_leading {n : ℕ} {rest : Text} (h : numeral 10 n = '0' :: rest) : rest = [] := by
  unfold numeral at h
  split at h
  · injection h with _ hrest
    exact hrest.symm
  · next hne =>
    have hdigits : Nat.digits 10 n ≠ [] := Nat.digits_ne_nil_iff_ne_zero.mpr hne
    have hlast := Nat.getLast_digit_ne_zero 10 hne
    have hbound := Nat.digits_lt_base (b := 10) (by decide) (List.getLast_mem hdigits)
    have hsplit := List.dropLast_append_getLast hdigits
    rw [bigEndian, ← hsplit] at h
    rw [List.map_append, List.reverse_append] at h
    injection h with hhead _
    exact absurd (upperHexDigit_eq_zero _ hbound hhead) hlast

theorem skipInteger_numeral (n : ℕ) : skipInteger (numeral 10 n) = some [] := by
  cases htext : numeral 10 n with
  | nil => exact absurd htext numeral_ne_nil
  | cons c rest =>
    have hmem : ∀ d ∈ c :: rest, JsonText.isDigit d = true := fun d hd =>
      isDigit_of_mem_numeral (htext ▸ hd)
    have hdigits : skipDigits (c :: rest) = some [] := by
      have hrest : rest.dropWhile JsonText.isDigit = [] :=
        List.dropWhile_eq_nil_iff.mpr fun d hd => hmem d (List.mem_cons_of_mem c hd)
      rw [skipDigits, if_pos (hmem c List.mem_cons_self), hrest]
    by_cases hzero : c = '0'
    · subst hzero
      rw [numeral_leading htext]
      rfl
    · unfold skipInteger
      split
      · next heq => exact absurd (List.cons.inj heq).1 hzero
      · exact hdigits

theorem isNumber_intLiteral (z : ℤ) : isNumber (intLiteral z) = true := by
  have hchars : ∀ n, (numeral 10 n).all isNumberChar = true := fun n =>
    List.all_eq_true.mpr fun c hc => by
      rw [isNumberChar, isDigit_of_mem_numeral hc]
      rfl
  have hsign : ∀ n, JsonText.skipSign (numeral 10 n) = numeral 10 n := by
    intro n
    cases htext : numeral 10 n with
    | nil => rfl
    | cons c rest =>
      have hdigit := isDigit_of_mem_numeral (htext ▸ List.mem_cons_self : c ∈ numeral 10 n)
      unfold JsonText.skipSign
      split
      · next heq =>
        rw [(List.cons.inj heq).1] at hdigit
        exact absurd hdigit (by decide)
      · rfl
  have hskip : ∀ n, ((skipInteger (numeral 10 n)).bind JsonText.skipFraction).bind
      JsonText.skipExponent = some [] := fun n => by rw [skipInteger_numeral]; rfl
  have hminus : JsonText.skipSign ('-' :: numeral 10 z.natAbs) = numeral 10 z.natAbs := rfl
  unfold intLiteral isNumber
  split
  · rw [List.all_cons, hchars, hminus, Bool.and_eq_true, decide_eq_true_eq]
    exact ⟨rfl, hskip _⟩
  · rw [hchars, hsign, Bool.and_eq_true, decide_eq_true_eq]
    exact ⟨rfl, hskip _⟩

def integer (z : ℤ) : Value := .number ⟨intLiteral z, isNumber_intLiteral z⟩

end Integers

structure ShardPosition where
  lastSeenAtMs : ℤ
  lastAic : String
  deriving DecidableEq

structure LivenessQueryCursor where
  positions : List (Text × ShardPosition)
  fingerprint : String
  deriving DecidableEq

structure JsonLibrary where
  dumps : Value → String
  loads : String → Option Value
  int : Value → Option ℤ
  str : Value → Text

structure JsonLibrary.Lawful (J : JsonLibrary) : Prop where
  loads_dumps : ∀ v, J.loads (J.dumps v) = some v
  loads_empty : J.loads "" = none
  int_integer : ∀ z, J.int (integer z) = some z
  str_string : ∀ text, J.str (.string text) = text

section Codec

def dictGet (members : List (Text × Value)) (key : Text) : Option Value := members.reverse.lookup key

def subscript (v : Value) (key : Text) : Option Value :=
  match v with
  | .object members => dictGet members key
  | _ => none

def dictItems (members : List (Text × Value)) : List (Text × Value) :=
  (members.map Prod.fst).dedup.filterMap fun key => (dictGet members key).map (key, ·)

def positionsKey : Text := "positions".toList

def fingerprintKey : Text := "fingerprint".toList

def lastSeenKey : Text := "last_seen_at_ms".toList

def lastAicKey : Text := "last_aic".toList

def ShardPosition.payload (pos : ShardPosition) : Value :=
  .object [(lastSeenKey, integer pos.lastSeenAtMs), (lastAicKey, .string pos.lastAic.toList)]

def LivenessQueryCursor.payload (c : LivenessQueryCursor) : Value :=
  .object
    [(positionsKey, .object (c.positions.map fun (shard, pos) => (shard, pos.payload))),
      (fingerprintKey, .string c.fingerprint.toList)]

variable (J : JsonLibrary)

def encodeCursor (c : LivenessQueryCursor) : String :=
  String.ofList (urlsafeB64encode (encodeUtf8 (J.dumps c.payload)))

def readPosition (posData : Value) : Option ShardPosition := do
  let lastSeenAtMs ← J.int (← subscript posData lastSeenKey)
  let lastAic ← subscript posData lastAicKey
  return ⟨lastSeenAtMs, String.ofList (J.str lastAic)⟩

def readCursor (data : Value) (expectedFingerprint : String) : Option LivenessQueryCursor := do
  match ← subscript data fingerprintKey, ← subscript data positionsKey with
  | .string fp, .object members =>
    if String.ofList fp = expectedFingerprint then
      let positions ← (dictItems members).mapM fun (shard, posData) =>
        (readPosition J posData).map (shard, ·)
      return ⟨positions, String.ofList fp⟩
    else none
  | _, _ => none

def decodeCursor (raw expectedFingerprint : String) : Option LivenessQueryCursor := do
  let padded := raw.toList ++ List.replicate ((4 - raw.length % 4) % 4) '='
  let data ← J.loads (← decodeUtf8 (← urlsafeB64decode padded))
  readCursor J data expectedFingerprint

end Codec

section RoundTrip

variable {J : JsonLibrary}

theorem dictGet_of_mem {members : List (Text × Value)}
    (hkeys : (members.map Prod.fst).Nodup) {m : Text × Value} (hm : m ∈ members) :
    dictGet members m.1 = some m.2 := by
  unfold dictGet
  induction members with
  | nil => cases hm
  | cons n members ih =>
    rw [List.map_cons, List.nodup_cons] at hkeys
    rw [List.reverse_cons, List.lookup_append]
    rcases List.mem_cons.mp hm with rfl | hm
    · have hnone : members.reverse.lookup m.1 = none := by
        rw [List.lookup_eq_none_iff]
        intro q hq
        have hne : m.1 ≠ q.1 := fun heq =>
          hkeys.1 (heq ▸ List.mem_map.mpr ⟨q, List.mem_reverse.mp hq, rfl⟩)
        simpa using hne
      obtain ⟨key, v⟩ := m
      rw [hnone]
      simp
    · rw [ih hkeys.2 hm]
      rfl

theorem dictItems_of_nodup {members : List (Text × Value)} (hkeys : (members.map Prod.fst).Nodup) :
    dictItems members = members := by
  have hmap : ∀ m ∈ members, (dictGet members m.1).map (m.1, ·) = some m := by
    intro m hm
    rw [dictGet_of_mem hkeys hm]
    rfl
  rw [dictItems, hkeys.dedup, List.filterMap_map]
  have hsome : members.filterMap ((fun key => (dictGet members key).map (key, ·)) ∘ Prod.fst) =
      members.filterMap some := List.filterMap_congr hmap
  rw [hsome, List.filterMap_some]

theorem readPosition_payload (hJ : J.Lawful) (pos : ShardPosition) :
    readPosition J pos.payload = some pos := by
  have hseen : subscript pos.payload lastSeenKey = some (integer pos.lastSeenAtMs) := by rfl
  have haic : subscript pos.payload lastAicKey = some (.string pos.lastAic.toList) := by rfl
  simp only [readPosition, hseen, haic, Option.bind_eq_bind, Option.bind_some, hJ.int_integer,
    hJ.str_string, String.ofList_toList]
  rfl

theorem readCursor_payload (hJ : J.Lawful) {c : LivenessQueryCursor}
    (hkeys : (c.positions.map Prod.fst).Nodup) :
    readCursor J c.payload c.fingerprint = some c := by
  have hfp : subscript c.payload fingerprintKey = some (.string c.fingerprint.toList) := by rfl
  have hpos : subscript c.payload positionsKey =
      some (.object (c.positions.map fun (shard, pos) => (shard, pos.payload))) := by rfl
  have hitems : dictItems (c.positions.map fun (shard, pos) => (shard, pos.payload)) =
      c.positions.map fun (shard, pos) => (shard, pos.payload) := by
    apply dictItems_of_nodup
    rwa [List.map_map]
  have hread : (c.positions.map fun (shard, pos) => (shard, pos.payload)).mapM
      (fun (shard, posData) => (readPosition J posData).map (shard, ·)) = some c.positions := by
    generalize c.positions = positions
    induction positions with
    | nil => rfl
    | cons entry positions ih =>
      rw [List.map_cons, List.mapM_cons, ih]
      simp only [readPosition_payload hJ]
      rfl
  unfold readCursor
  simp only [hfp, hpos, Option.bind_eq_bind, Option.bind_some, String.ofList_toList, if_true, hitems,
    hread]
  rfl

theorem decodeCursor_encodeCursor (hJ : J.Lawful) {c : LivenessQueryCursor}
    (hkeys : (c.positions.map Prod.fst).Nodup) :
    decodeCursor J (encodeCursor J c) c.fingerprint = some c := by
  simp only [decodeCursor, encodeCursor, String.toList_ofList, urlsafeB64decode_urlsafeB64encode,
    Option.bind_eq_bind, Option.bind_some, decodeUtf8_encodeUtf8, hJ.loads_dumps]
  exact readCursor_payload hJ hkeys

theorem encodeCursor_ne (hJ : J.Lawful) (c : LivenessQueryCursor) : encodeCursor J c ≠ "" := by
  intro hempty
  have hread : urlsafeB64decode (encodeCursor J c).toList = some (encodeUtf8 (J.dumps c.payload)) := by
    have h := urlsafeB64decode_urlsafeB64encode (encodeUtf8 (J.dumps c.payload)) 0
    rw [encodeCursor, String.toList_ofList]
    rwa [List.replicate_zero, List.append_nil] at h
  rw [hempty] at hread
  have hnil : encodeUtf8 (J.dumps c.payload) = encodeUtf8 "" := by
    refine (Option.some.inj hread).symm.trans ?_
    rfl
  have htext := congrArg decodeUtf8 hnil
  rw [decodeUtf8_encodeUtf8, decodeUtf8_encodeUtf8] at htext
  have hload := hJ.loads_dumps c.payload
  rw [Option.some.inj htext, hJ.loads_empty] at hload
  cases hload

end RoundTrip

namespace Sample

def digitValue (c : Char) : Option ℕ :=
  if JsonText.isDigit c then some (c.toNat - 48) else none

def intOf (v : Value) : Option ℤ :=
  match v with
  | .number n =>
    match n.literal with
    | '-' :: rest => (positional 10 digitValue rest).map fun k : ℕ => -(k : ℤ)
    | text => (positional 10 digitValue text).map Nat.cast
  | _ => none

def plainJson : JsonLibrary where
  dumps v := String.ofList (JsonText.write v)
  loads s := JsonText.read s.toList
  int := intOf
  str v := match v with
    | .string text => text
    | _ => []

theorem positional_numeral (n : ℕ) : positional 10 digitValue (numeral 10 n) = some n := by
  have hvalue : ∀ d < 10, digitValue (upperHexDigit d) = some d := by decide
  rw [numeral_eq_leftpad]
  exact positional_leftpad (by decide) hvalue 1 n

theorem intOf_integer (z : ℤ) : intOf (integer z) = some z := by
  have hdigit : ∀ {rest : Text}, numeral 10 z.natAbs ≠ '-' :: rest := by
    intro rest heq
    have hminus := isDigit_of_mem_numeral (heq ▸ List.mem_cons_self : '-' ∈ numeral 10 z.natAbs)
    exact absurd hminus (by decide)
  unfold integer intOf intLiteral
  dsimp only
  by_cases hneg : z < 0
  · rw [if_pos hneg]
    change (positional 10 digitValue (numeral 10 z.natAbs)).map _ = _
    rw [positional_numeral, Option.map_some]
    exact congrArg some (by omega)
  · rw [if_neg hneg]
    split
    · next heq => exact absurd heq hdigit
    · rw [positional_numeral, Option.map_some]
      exact congrArg some (by omega)

theorem plainJson_lawful : plainJson.Lawful where
  loads_dumps v := by
    change JsonText.read (String.ofList (JsonText.write v)).toList = some v
    rw [String.toList_ofList, JsonText.read_write]
  loads_empty := by rfl
  int_integer := intOf_integer
  str_string _ := rfl

end Sample

end Acps.Heartbeat
