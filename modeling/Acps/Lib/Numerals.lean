import Mathlib.Data.Nat.Digits.Lemmas

/-!
Numerals as texts: big-endian digits in a base, of a fixed width, and bytes in hexadecimal.
-/

namespace Acps.Numerals

def bigEndian (base : ℕ) (digit : ℕ → Char) (n : ℕ) : List Char :=
  ((base.digits n).map digit).reverse

theorem length_bigEndian_le {base n k : ℕ} (digit : ℕ → Char) (hbase : 1 < base)
    (hn : n < base ^ k) : (bigEndian base digit n).length ≤ k := by
  rw [bigEndian, List.length_reverse, List.length_map]
  exact (Nat.digits_length_le_iff hbase n).mpr hn

theorem mem_bigEndian {base n : ℕ} {digit : ℕ → Char} {c : Char} (hbase : 1 < base)
    (h : c ∈ bigEndian base digit n) : ∃ d < base, c = digit d := by
  rw [bigEndian, List.mem_reverse, List.mem_map] at h
  obtain ⟨d, hd, rfl⟩ := h
  exact ⟨d, Nat.digits_lt_base hbase hd, rfl⟩

def hexDigit (n : ℕ) : Char := "0123456789abcdef".toList.getD n '0'

def hexValue (c : Char) : Option ℕ :=
  if '0' ≤ c ∧ c ≤ '9' then some (c.toNat - 48)
  else if 'a' ≤ c ∧ c ≤ 'f' then some (c.toNat - 87)
  else if 'A' ≤ c ∧ c ≤ 'F' then some (c.toNat - 55)
  else none

def isAsciiSpace (c : Char) : Bool := c = ' ' ∨ 9 ≤ c.toNat ∧ c.toNat ≤ 13

def toHex : List UInt8 → List Char
  | [] => []
  | b :: bs => hexDigit (b.toNat / 16) :: hexDigit (b.toNat % 16) :: toHex bs

def fromHex : List Char → Option (List UInt8)
  | [] => some []
  | [c] => if isAsciiSpace c then some [] else none
  | c :: d :: cs =>
    if isAsciiSpace c then fromHex (d :: cs)
    else
      match hexValue c, hexValue d with
      | some x, some y => (fromHex cs).map (UInt8.ofNat (16 * x + y) :: ·)
      | _, _ => none

theorem hexValue_hexDigit {n : ℕ} (hn : n < 16) : hexValue (hexDigit n) = some n := by
  revert n
  decide

theorem isAsciiSpace_hexDigit {n : ℕ} (hn : n < 16) : isAsciiSpace (hexDigit n) = false := by
  revert n
  decide

theorem hexDigit_ne_x {n : ℕ} (hn : n < 16) : hexDigit n ≠ 'x' ∧ hexDigit n ≠ 'X' := by
  revert n
  decide

theorem length_toHex (bs : List UInt8) : (toHex bs).length = 2 * bs.length := by
  induction bs with
  | nil => rfl
  | cons b bs ih =>
    simp only [toHex, List.length_cons, ih]
    omega

theorem fromHex_toHex (bs : List UInt8) : fromHex (toHex bs) = some bs := by
  induction bs with
  | nil => rfl
  | cons b bs ih =>
    have hb := b.toNat_lt
    have hhigh : b.toNat / 16 < 16 := by omega
    have hlow : b.toNat % 16 < 16 := by omega
    have hsum : 16 * (b.toNat / 16) + b.toNat % 16 = b.toNat := by omega
    rw [toHex, fromHex, isAsciiSpace_hexDigit hhigh, hexValue_hexDigit hhigh,
      hexValue_hexDigit hlow, ih]
    simp [hsum]

theorem toHex_no_marker (bs rest : List Char) (salt : List UInt8) (h : toHex salt = '0' :: bs) :
    bs ≠ 'x' :: rest ∧ bs ≠ 'X' :: rest := by
  cases salt with
  | nil => simp [toHex] at h
  | cons b salt =>
    obtain ⟨_, hbs⟩ := List.cons.inj h
    obtain ⟨hx, hX⟩ := hexDigit_ne_x (n := b.toNat % 16) (by omega)
    constructor
    · rintro rfl
      exact hx (List.cons.inj hbs).1
    · rintro rfl
      exact hX (List.cons.inj hbs).1

section Reading

def upperHexDigit (n : ℕ) : Char := "0123456789ABCDEF".toList.getD n '0'

def numeral (base n : ℕ) : List Char :=
  if n = 0 then [upperHexDigit 0] else bigEndian base upperHexDigit n

def hexNumber (s : List Char) : ℕ := Nat.ofDigits 16 (s.filterMap hexValue).reverse

theorem hexValue_upperHexDigit {n : ℕ} (hn : n < 16) : hexValue (upperHexDigit n) = some n := by
  revert n
  decide

theorem mem_numeral {base n : ℕ} {c : Char} (hbase : 1 < base) (h : c ∈ numeral base n) :
    ∃ d < base, c = upperHexDigit d := by
  unfold numeral at h
  split at h
  · exact ⟨0, by omega, List.mem_singleton.mp h⟩
  · exact mem_bigEndian hbase h

theorem numeral_ne_nil {base n : ℕ} : numeral base n ≠ [] := by
  unfold numeral
  split
  · exact List.cons_ne_nil _ _
  · rw [bigEndian, ne_eq, List.reverse_eq_nil_iff, List.map_eq_nil_iff, Nat.digits_eq_nil_iff_eq_zero]
    assumption

theorem filterMap_hexValue {ds : List ℕ} (h : ∀ d ∈ ds, d < 16) :
    (ds.map upperHexDigit).filterMap hexValue = ds := by
  induction ds with
  | nil => rfl
  | cons d ds ih =>
    rw [List.map_cons, List.filterMap_cons_some (hexValue_upperHexDigit (h d List.mem_cons_self)),
      ih fun e he => h e (List.mem_cons_of_mem d he)]

theorem hexNumber_numeral {base : ℕ} (hbase : 1 < base) (hle : base ≤ 16) (n : ℕ) :
    hexNumber (numeral base n) = Nat.ofDigits 16 (base.digits n) := by
  unfold hexNumber numeral
  split
  next hzero =>
    subst hzero
    rw [Nat.digits_zero]
    decide
  next =>
    have hdigits : ∀ d ∈ base.digits n, d < 16 := fun d hd => (Nat.digits_lt_base hbase hd).trans_le hle
    rw [bigEndian, List.filterMap_reverse, filterMap_hexValue hdigits, List.reverse_reverse]

theorem hexNumber_upperHex (n : ℕ) : hexNumber (numeral 16 n) = n := by
  rw [hexNumber_numeral (by decide) le_rfl, Nat.ofDigits_digits]

theorem decimal_eq_upperHex {m n : ℕ} :
    numeral 10 n = numeral 16 m ↔ m = Nat.ofDigits 16 (Nat.digits 10 n) := by
  constructor
  · intro h
    rw [← hexNumber_numeral (by decide) (by decide), h, hexNumber_upperHex]
  · rintro rfl
    by_cases hn : n = 0
    · subst hn
      rfl
    · have hdigits : Nat.digits 16 (Nat.ofDigits 16 (Nat.digits 10 n)) = Nat.digits 10 n :=
        Nat.digits_ofDigits 16 (by decide) _
          (fun d hd => (Nat.digits_lt_base (by decide) hd).trans (by decide))
          fun _ => Nat.getLast_digit_ne_zero 10 hn
      have hne : Nat.ofDigits 16 (Nat.digits 10 n) ≠ 0 := by
        intro hzero
        rw [hzero, Nat.digits_zero] at hdigits
        exact hn (Nat.digits_eq_nil_iff_eq_zero.mp hdigits.symm)
      rw [numeral, numeral, if_neg hn, if_neg hne, bigEndian, bigEndian, hdigits]

theorem le_reread {b c : ℕ} (hbc : b ≤ c) (n : ℕ) : n ≤ Nat.ofDigits c (b.digits n) := by
  calc
    n = Nat.ofDigits b (b.digits n) := (Nat.ofDigits_digits b n).symm
    _ ≤ Nat.ofDigits c (b.digits n) := Nat.ofDigits_monotone _ hbc

theorem lt_reread {b c n : ℕ} (hb : 1 < b) (hbc : b < c) (hn : b ≤ n) :
    n < Nat.ofDigits c (b.digits n) := by
  have hquotient : 0 < n / b := Nat.div_pos hn (by omega)
  calc
    n = n % b + b * (n / b) := (Nat.mod_add_div n b).symm
    _ < n % b + c * (n / b) := by gcongr
    _ ≤ n % b + c * Nat.ofDigits c (b.digits (n / b)) := by
      gcongr
      exact le_reread hbc.le _
    _ = Nat.ofDigits c (b.digits n) := by
      have hpos : 0 < n := by omega
      rw [Nat.digits_def' hb hpos, Nat.ofDigits_cons]

theorem reread_of_lt {b c n : ℕ} (hn : n < b) : Nat.ofDigits c (b.digits n) = n := by
  by_cases hzero : n = 0
  · simp [hzero]
  · rw [Nat.digits_of_lt b n hzero hn, Nat.ofDigits_singleton]

end Reading

section Padding

theorem length_numeral_le_iff {base n k : ℕ} (hbase : 1 < base) (hk : 0 < k) :
    (numeral base n).length ≤ k ↔ n < base ^ k := by
  unfold numeral
  split
  next hzero =>
    subst hzero
    exact iff_of_true hk (Nat.pow_pos (by omega))
  next =>
    rw [bigEndian, List.length_reverse, List.length_map]
    exact Nat.digits_length_le_iff hbase n

theorem length_numeral_pos {base n : ℕ} : 0 < (numeral base n).length :=
  List.length_pos_iff.mpr numeral_ne_nil

theorem length_numeral_mono {base m n : ℕ} (hbase : 1 < base) (h : m ≤ n) :
    (numeral base m).length ≤ (numeral base n).length := by
  apply (length_numeral_le_iff hbase length_numeral_pos).mpr
  exact h.trans_lt ((length_numeral_le_iff hbase length_numeral_pos).mp le_rfl)

theorem leftpad_eq_iff {α : Type} {s : List α} {c : α} {m n : ℕ} :
    s.leftpad m c = s.leftpad n c ↔ m - s.length = n - s.length := by
  constructor
  · intro h
    have hlength := congrArg List.length h
    rw [List.length_leftpad, List.length_leftpad] at hlength
    omega
  · intro h
    rw [List.leftpad, List.leftpad, h]

def positional (base : ℕ) (value : Char → Option ℕ) (s : List Char) : Option ℕ :=
  (s.mapM value).map fun ds => ds.foldl (fun n d => base * n + d) 0

variable {base : ℕ} {digit : ℕ → Char} {value : Char → Option ℕ}

theorem mapM_digits (hvalue : ∀ d < base, value (digit d) = some d) {ds : List ℕ}
    (h : ∀ d ∈ ds, d < base) : (ds.map digit).mapM value = some ds := by
  induction ds with
  | nil => rfl
  | cons d ds ih =>
    rw [List.map_cons, List.mapM_cons, hvalue d (h d List.mem_cons_self),
      ih fun e he => h e (List.mem_cons_of_mem d he)]
    rfl

theorem foldl_zeros (base k : ℕ) (ds : List ℕ) :
    (List.replicate k 0 ++ ds).foldl (fun n d => base * n + d) 0 =
      ds.foldl (fun n d => base * n + d) 0 := by
  induction k with
  | zero => rfl
  | succ k ih => rwa [List.replicate_succ, List.cons_append, List.foldl_cons, Nat.mul_zero]

theorem foldl_reverse_digits (base : ℕ) (ds : List ℕ) :
    ds.reverse.foldl (fun n d => base * n + d) 0 = Nat.ofDigits base ds := by
  induction ds with
  | nil => rfl
  | cons d ds ih =>
    rw [List.reverse_cons, List.foldl_append, ih, Nat.ofDigits_cons, List.foldl_cons, List.foldl_nil,
      Nat.add_comm]

theorem positional_leftpad (hbase : 1 < base) (hvalue : ∀ d < base, value (digit d) = some d)
    (width n : ℕ) :
    positional base value ((bigEndian base digit n).leftpad width (digit 0)) = some n := by
  have hpad : (bigEndian base digit n).leftpad width (digit 0) =
      (List.replicate (width - (bigEndian base digit n).length) 0 ++
        (base.digits n).reverse).map digit := by
    rw [List.leftpad, List.map_append, List.map_replicate, List.map_reverse]
    rfl
  have hdigits : ∀ d ∈ List.replicate (width - (bigEndian base digit n).length) 0 ++
      (base.digits n).reverse, d < base := by
    intro d hd
    rcases List.mem_append.mp hd with hd | hd
    · rw [(List.mem_replicate.mp hd).2]
      omega
    · exact Nat.digits_lt_base hbase (List.mem_reverse.mp hd)
  rw [positional, hpad, mapM_digits hvalue hdigits, Option.map_some, foldl_zeros,
    foldl_reverse_digits, Nat.ofDigits_digits]

theorem leftpad_leftpad {α : Type} (s : List α) (c : α) (m n : ℕ) :
    (s.leftpad m c).leftpad n c = s.leftpad (max m n) c := by
  rw [List.leftpad, List.length_leftpad, List.leftpad, List.leftpad, ← List.append_assoc,
    List.replicate_append_replicate]
  congr 2
  omega

theorem numeral_eq_leftpad (n : ℕ) :
    numeral base n = (bigEndian base upperHexDigit n).leftpad 1 (upperHexDigit 0) := by
  unfold numeral
  split
  next hzero =>
    subst hzero
    rw [bigEndian, Nat.digits_zero]
    rfl
  next hne =>
    have hlength : 1 ≤ (bigEndian base upperHexDigit n).length := by
      rw [bigEndian, List.length_reverse, List.length_map]
      exact List.length_pos_iff.mpr (Nat.digits_ne_nil_iff_ne_zero.mpr hne)
    rw [List.leftpad, Nat.sub_eq_zero_of_le hlength]
    rfl

theorem mem_leftpad {α : Type} {s : List α} {c d : α} {width : ℕ} (h : d ∈ s.leftpad width c) :
    d = c ∨ d ∈ s := by
  rcases List.mem_append.mp h with h | h
  · exact .inl (List.mem_replicate.mp h).2
  · exact .inr h

end Padding

end Acps.Numerals
