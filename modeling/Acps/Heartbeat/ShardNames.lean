import Acps.Lib.Numerals

/-!
The names of the shards, as the provider writes them and as the consumer does.
-/

namespace Acps.Heartbeat

open Numerals

abbrev Text := List Char

structure DigitTables where
  isDigit : Char → Bool
  decimal : Char → Option ℕ
  isDigit_decimal : ∀ d < 10, isDigit (upperHexDigit d) = true
  decimal_decimal : ∀ d < 10, decimal (upperHexDigit d) = some d

inductive ShardIdError where
  | notShardId (shard : Text)
  | notNumeric (numericPart : Text)

def shardIdPrefix : Text := "hb-".toList

def shardId (shardIndex shardCount : ℕ) : Text :=
  let width := max 3 (numeral 10 (shardCount - 1)).length
  shardIdPrefix ++ (numeral 10 shardIndex).leftpad width '0'

def shardKey (partition : ℕ) : Text := shardIdPrefix ++ (numeral 10 partition).leftpad 3 '0'

def shardIndexFromId (T : DigitTables) (shard : Text) : Except ShardIdError ℕ :=
  if ¬ shardIdPrefix <+: shard then .error (.notShardId shard)
  else
    let numericPart := shard.drop 3
    if numericPart = [] ∨ ¬ numericPart.all T.isDigit then .error (.notNumeric numericPart)
    else (positional 10 T.decimal numericPart).elim (.error (.notNumeric numericPart)) .ok

theorem shardIndexFromId_shardId (T : DigitTables) (shardIndex shardCount : ℕ) :
    shardIndexFromId T (shardId shardIndex shardCount) = .ok shardIndex := by
  unfold shardIndexFromId shardId
  dsimp only
  generalize max 3 (numeral 10 (shardCount - 1)).length = width
  have hdrop : (shardIdPrefix ++ (numeral 10 shardIndex).leftpad width '0').drop 3 =
      (numeral 10 shardIndex).leftpad width '0' := List.drop_left' rfl
  have hne : (numeral 10 shardIndex).leftpad width '0' ≠ [] := by
    intro hnil
    exact numeral_ne_nil (List.append_eq_nil_iff.mp hnil).2
  have hall : ((numeral 10 shardIndex).leftpad width '0').all T.isDigit = true := by
    rw [List.all_eq_true]
    intro c hc
    rcases mem_leftpad hc with rfl | hc
    · exact T.isDigit_decimal 0 (by decide)
    · obtain ⟨d, hd, rfl⟩ := mem_numeral (by decide) hc
      exact T.isDigit_decimal d hd
  have hread : positional 10 T.decimal ((numeral 10 shardIndex).leftpad width '0') =
      some shardIndex := by
    rw [numeral_eq_leftpad]
    change positional 10 T.decimal
      (((bigEndian 10 upperHexDigit shardIndex).leftpad 1 (upperHexDigit 0)).leftpad width
        (upperHexDigit 0)) = _
    rw [leftpad_leftpad]
    exact positional_leftpad (by decide) T.decimal_decimal _ _
  rw [if_neg (not_not.mpr (List.prefix_append _ _)), hdrop, if_neg, hread]
  · rfl
  · rintro (hnil | hnot)
    · exact hne hnil
    · exact hnot hall

theorem shardKey_eq_iff {shardIndex shardCount : ℕ} (h : shardIndex < shardCount) :
    shardKey shardIndex = shardId shardIndex shardCount ↔ shardCount ≤ 1000 ∨
      (numeral 10 shardIndex).length = (numeral 10 (shardCount - 1)).length := by
  have hwidth : (numeral 10 shardIndex).length ≤ (numeral 10 (shardCount - 1)).length :=
    length_numeral_mono (by decide) (by omega)
  have hthree : (numeral 10 (shardCount - 1)).length ≤ 3 ↔ shardCount - 1 < 1000 :=
    length_numeral_le_iff (by decide) (by decide)
  unfold shardKey shardId
  rw [List.append_cancel_left_eq, leftpad_eq_iff]
  omega

theorem shard_names_agree_iff (T : DigitTables) {shardIndex shardCount : ℕ}
    (h : shardIndex < shardCount) :
    (shardKey shardIndex = shardId shardIndex shardCount ∧
      shardIndexFromId T (shardId shardIndex shardCount) = .ok shardIndex) ↔
      shardCount ≤ 1000 ∨
        (numeral 10 shardIndex).length = (numeral 10 (shardCount - 1)).length := by
  rw [← shardKey_eq_iff h]
  exact and_iff_left (shardIndexFromId_shardId T shardIndex shardCount)

namespace Sample

def asciiDigits : DigitTables where
  isDigit := Char.isDigit
  decimal c := if c.isDigit then some (c.toNat - 48) else none
  isDigit_decimal := by decide
  decimal_decimal := by decide

end Sample

theorem last_of_many_shards_agrees :
    shardKey 1000 = shardId 1000 1001 ∧
      shardIndexFromId Sample.asciiDigits (shardId 1000 1001) = .ok 1000 :=
  (shard_names_agree_iff Sample.asciiDigits (by decide)).mpr (.inr rfl)

theorem first_of_many_shards_renamed : ¬ ∀ (T : DigitTables) (shardCount shardIndex : ℕ),
    1 ≤ shardCount → shardIndex < shardCount →
      shardKey shardIndex = shardId shardIndex shardCount ∧
        shardIndexFromId T (shardId shardIndex shardCount) = .ok shardIndex := by
  intro h
  have hsame := (h Sample.asciiDigits 1001 0 (by decide) (by decide)).1
  rcases (shardKey_eq_iff (by decide)).mp hsame with hfew | hdigits
  · exact absurd hfew (by decide)
  · exact absurd hdigits (by decide)

end Acps.Heartbeat
