import Mathlib.Data.List.DropRight
import Mathlib.Data.List.Induction

/-!
Base64 as the standard library of Python writes and reads it: the decoder skips what is no digit,
stops at a complete padding and does not look at bits that make up no byte.
-/

namespace Acps.Base64

abbrev Bytes := List UInt8

def digit (n : ℕ) : Char :=
  if n < 26 then Char.ofNat (65 + n)
  else if n < 52 then Char.ofNat (71 + n)
  else if n < 62 then Char.ofNat (n - 4)
  else if n = 62 then '+' else '/'

def value (c : Char) : Option ℕ :=
  if 65 ≤ c.toNat ∧ c.toNat ≤ 90 then some (c.toNat - 65)
  else if 97 ≤ c.toNat ∧ c.toNat ≤ 122 then some (c.toNat - 71)
  else if 48 ≤ c.toNat ∧ c.toNat ≤ 57 then some (c.toNat + 4)
  else if c = '+' then some 62
  else if c = '/' then some 63
  else none

def digits : Bytes → List Char
  | [] => []
  | [a] => [digit (a.toNat / 4), digit (a.toNat % 4 * 16)]
  | [a, b] =>
    [digit (a.toNat / 4), digit (a.toNat % 4 * 16 + b.toNat / 16), digit (b.toNat % 16 * 4)]
  | a :: b :: c :: bytes =>
    digit (a.toNat / 4) :: digit (a.toNat % 4 * 16 + b.toNat / 16) ::
      digit (b.toNat % 16 * 4 + c.toNat / 64) :: digit (c.toNat % 64) :: digits bytes

def b64encode (bytes : Bytes) : List Char :=
  digits bytes ++ List.replicate ((3 - bytes.length % 3) % 3) '='

def a2bBase64 : ℕ → ℕ → ℕ → List Char → Option Bytes
  | quadPos, _, _, [] => if quadPos = 0 then some [] else none
  | quadPos, leftchar, pads, ch :: data =>
    if ch = '=' then
      if 2 ≤ quadPos then
        if 4 ≤ quadPos + (pads + 1) then some []
        else a2bBase64 quadPos leftchar (pads + 1) data
      else a2bBase64 quadPos leftchar pads data
    else
      match value ch with
      | none => a2bBase64 quadPos leftchar pads data
      | some v =>
        match quadPos with
        | 0 => a2bBase64 1 v 0 data
        | 1 => (a2bBase64 2 (v % 16) 0 data).map (UInt8.ofNat (leftchar * 4 + v / 16) :: ·)
        | 2 => (a2bBase64 3 (v % 4) 0 data).map (UInt8.ofNat (leftchar * 16 + v / 4) :: ·)
        | _ => (a2bBase64 0 0 0 data).map (UInt8.ofNat (leftchar * 64 + v) :: ·)

def b64decode (data : List Char) : Option Bytes := a2bBase64 0 0 0 data

def toUrlsafe (c : Char) : Char := if c = '+' then '-' else if c = '/' then '_' else c

def fromUrlsafe (c : Char) : Char := if c = '-' then '+' else if c = '_' then '/' else c

def urlsafeB64encode (bytes : Bytes) : List Char := (b64encode bytes).map toUrlsafe

def urlsafeB64decode (data : List Char) : Option Bytes := b64decode (data.map fromUrlsafe)

section Digits

theorem value_digit : ∀ n < 64, value (digit n) = some n := by decide

theorem digit_ne_pad : ∀ n < 64, digit n ≠ '=' := by decide

theorem fromUrlsafe_toUrlsafe_digit :
    ∀ n < 64, fromUrlsafe (toUrlsafe (digit n)) = digit n ∧ toUrlsafe (digit n) ≠ '=' := by decide

theorem exists_digit_of_mem {bytes : Bytes} {c : Char} (h : c ∈ digits bytes) :
    ∃ n < 64, c = digit n := by
  induction bytes using digits.induct with
  | case1 => cases h
  | case2 a =>
    have ha := a.toNat_lt
    simp only [digits, List.mem_cons, List.not_mem_nil, or_false] at h
    rcases h with rfl | rfl <;> exact ⟨_, by omega, rfl⟩
  | case3 a b =>
    have ha := a.toNat_lt
    have hb := b.toNat_lt
    simp only [digits, List.mem_cons, List.not_mem_nil, or_false] at h
    rcases h with rfl | rfl | rfl <;> exact ⟨_, by omega, rfl⟩
  | case4 a b c bytes ih =>
    have ha := a.toNat_lt
    have hb := b.toNat_lt
    have hc := c.toNat_lt
    simp only [digits, List.mem_cons] at h
    rcases h with rfl | rfl | rfl | rfl | h
    · exact ⟨_, by omega, rfl⟩
    · exact ⟨_, by omega, rfl⟩
    · exact ⟨_, by omega, rfl⟩
    · exact ⟨_, by omega, rfl⟩
    · exact ih h

theorem length_digits (bytes : Bytes) :
    (digits bytes).length + (3 - bytes.length % 3) % 3 = 4 * ((bytes.length + 2) / 3) := by
  induction bytes using digits.induct with
  | case1 => rfl
  | case2 a => simp [digits]
  | case3 a b => simp [digits]
  | case4 a b c bytes ih =>
    simp only [digits, List.length_cons]
    omega

end Digits

section Decode

variable {v : ℕ} (leftchar pads : ℕ) (data : List Char)

theorem a2bBase64_first (hv : v < 64) :
    a2bBase64 0 leftchar pads (digit v :: data) = a2bBase64 1 v 0 data := by
  rw [a2bBase64, if_neg (digit_ne_pad v hv), value_digit v hv]
  rfl

theorem a2bBase64_second (hv : v < 64) :
    a2bBase64 1 leftchar pads (digit v :: data) =
      (a2bBase64 2 (v % 16) 0 data).map (UInt8.ofNat (leftchar * 4 + v / 16) :: ·) := by
  rw [a2bBase64, if_neg (digit_ne_pad v hv), value_digit v hv]
  rfl

theorem a2bBase64_third (hv : v < 64) :
    a2bBase64 2 leftchar pads (digit v :: data) =
      (a2bBase64 3 (v % 4) 0 data).map (UInt8.ofNat (leftchar * 16 + v / 4) :: ·) := by
  rw [a2bBase64, if_neg (digit_ne_pad v hv), value_digit v hv]
  rfl

theorem a2bBase64_fourth (hv : v < 64) :
    a2bBase64 3 leftchar pads (digit v :: data) =
      (a2bBase64 0 0 0 data).map (UInt8.ofNat (leftchar * 64 + v) :: ·) := by
  rw [a2bBase64, if_neg (digit_ne_pad v hv), value_digit v hv]
  rfl

theorem a2bBase64_padding (n : ℕ) : a2bBase64 0 leftchar pads (List.replicate n '=') = some [] := by
  induction n with
  | zero => rfl
  | succ n ih =>
    rw [List.replicate_succ, a2bBase64, if_pos rfl, if_neg (by decide)]
    exact ih

theorem byte_eq {a : UInt8} {n : ℕ} (h : n = a.toNat) : UInt8.ofNat n = a := by
  rw [h, UInt8.ofNat_toNat]

theorem a2bBase64_digits (bytes : Bytes) (n : ℕ) :
    a2bBase64 0 leftchar pads (b64encode bytes ++ List.replicate n '=') = some bytes := by
  unfold b64encode
  induction bytes using digits.induct generalizing leftchar pads with
  | case1 =>
    exact a2bBase64_padding leftchar pads n
  | case2 a =>
    have ha := a.toNat_lt
    change a2bBase64 0 leftchar pads (digit (a.toNat / 4) :: digit (a.toNat % 4 * 16) ::
      '=' :: '=' :: List.replicate n '=') = some [a]
    rw [a2bBase64_first _ _ _ (by omega), a2bBase64_second _ _ _ (by omega),
      byte_eq (a := a) (by omega)]
    rfl
  | case3 a b =>
    have ha := a.toNat_lt
    have hb := b.toNat_lt
    change a2bBase64 0 leftchar pads (digit (a.toNat / 4) ::
      digit (a.toNat % 4 * 16 + b.toNat / 16) :: digit (b.toNat % 16 * 4) ::
      '=' :: List.replicate n '=') = some [a, b]
    rw [a2bBase64_first _ _ _ (by omega), a2bBase64_second _ _ _ (by omega),
      a2bBase64_third _ _ _ (by omega), byte_eq (a := a) (by omega), byte_eq (a := b) (by omega)]
    rfl
  | case4 a b c bytes ih =>
    have ha := a.toNat_lt
    have hb := b.toNat_lt
    have hc := c.toNat_lt
    have hpadding : (3 - (a :: b :: c :: bytes).length % 3) % 3 = (3 - bytes.length % 3) % 3 := by
      simp only [List.length_cons]
      omega
    rw [hpadding]
    simp only [digits, List.cons_append]
    rw [a2bBase64_first _ _ _ (by omega), a2bBase64_second _ _ _ (by omega),
      a2bBase64_third _ _ _ (by omega), a2bBase64_fourth _ _ _ (by omega), ih,
      byte_eq (a := a) (by omega), byte_eq (a := b) (by omega), byte_eq (a := c) (by omega)]
    rfl

theorem urlsafeB64decode_urlsafeB64encode (bytes : Bytes) (n : ℕ) :
    urlsafeB64decode (urlsafeB64encode bytes ++ List.replicate n '=') = some bytes := by
  have hback : ∀ c ∈ b64encode bytes, fromUrlsafe (toUrlsafe c) = c := by
    intro c hc
    rcases List.mem_append.mp hc with hc | hc
    · obtain ⟨v, hv, rfl⟩ := exists_digit_of_mem hc
      exact (fromUrlsafe_toUrlsafe_digit v hv).1
    · rw [List.eq_of_mem_replicate hc]
      rfl
  unfold urlsafeB64decode urlsafeB64encode b64decode
  rw [List.map_append, List.map_map, List.map_replicate]
  rw [show (b64encode bytes).map (fromUrlsafe ∘ toUrlsafe) = b64encode bytes from
    (List.map_congr_left hback).trans (List.map_id' _)]
  exact a2bBase64_digits 0 0 bytes n

theorem rstrip_urlsafeB64encode (bytes : Bytes) :
    (urlsafeB64encode bytes).rdropWhile (· = '=') = (digits bytes).map toUrlsafe := by
  have hdigits : ∀ c ∈ (digits bytes).map toUrlsafe, c ≠ '=' := by
    intro c hc
    obtain ⟨d, hd, rfl⟩ := List.mem_map.mp hc
    obtain ⟨v, hv, rfl⟩ := exists_digit_of_mem hd
    exact (fromUrlsafe_toUrlsafe_digit v hv).2
  unfold urlsafeB64encode b64encode
  rw [List.map_append, List.map_replicate, show toUrlsafe '=' = '=' from rfl]
  generalize (3 - bytes.length % 3) % 3 = n
  induction n with
  | zero =>
    rw [List.replicate_zero, List.append_nil, List.rdropWhile_eq_self_iff]
    intro hne hlast
    exact hdigits _ (List.getLast_mem hne) (of_decide_eq_true hlast)
  | succ n ih =>
    rw [List.replicate_succ', ← List.append_assoc, List.rdropWhile_concat_pos _ _ _ (by simp), ih]

end Decode

end Acps.Base64
