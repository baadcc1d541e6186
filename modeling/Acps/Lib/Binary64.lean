import Mathlib.Algebra.Order.Floor.Semiring
import Mathlib.Data.Int.Log
import Mathlib.Data.Rat.Floor
import Mathlib.Tactic.Linarith
import Mathlib.Tactic.NormNum
import Mathlib.Tactic.Positivity
import Mathlib.Tactic.Ring

/-!
Rounding to the numbers of double precision, as far as they are in the normal range and not
negative.
-/

namespace Acps.Binary64

def roundEven (x : ℚ) : ℤ :=
  if Int.fract x < 1 / 2 then ⌊x⌋
  else if 1 / 2 < Int.fract x then ⌊x⌋ + 1
  else if ⌊x⌋ % 2 = 0 then ⌊x⌋ else ⌊x⌋ + 1

def ulp (x : ℚ) : ℚ := 2 ^ (Int.log 2 x - 52)

def round (x : ℚ) : ℚ := roundEven (x / ulp x) * ulp x

theorem roundEven_sub (x : ℚ) : |(roundEven x : ℚ) - x| ≤ 1 / 2 := by
  have hsum := Int.floor_add_fract x
  have hnonneg := Int.fract_nonneg x
  have hlt := Int.fract_lt_one x
  rw [abs_le]
  unfold roundEven
  split_ifs <;> push_cast <;> constructor <;> linarith

theorem roundEven_eq {x : ℚ} {n : ℤ} (h : |x - n| < 1 / 2) : roundEven x = n := by
  have hround := roundEven_sub x
  rw [abs_lt] at h
  rw [abs_le] at hround
  have hlt : ((roundEven x : ℚ)) < n + 1 := by linarith
  have hgt : ((n : ℚ)) < roundEven x + 1 := by linarith
  have hlt' : roundEven x < n + 1 := by exact_mod_cast hlt
  have hgt' : n < roundEven x + 1 := by exact_mod_cast hgt
  omega

theorem ulp_pos (x : ℚ) : 0 < ulp x := zpow_pos (by norm_num) _

theorem ulp_le {x : ℚ} (h : 0 < x) : ulp x ≤ x * 2 ^ (-52 : ℤ) := by
  have hlog : ((2 : ℕ) : ℚ) ^ Int.log 2 x ≤ x := Int.zpow_log_le_self (by norm_num) h
  unfold ulp
  rw [sub_eq_add_neg, zpow_add₀ (by norm_num)]
  exact mul_le_mul_of_nonneg_right (by exact_mod_cast hlog) (by positivity)

theorem round_sub (x : ℚ) : |round x - x| ≤ ulp x / 2 := by
  have hpos := ulp_pos x
  have hx : x / ulp x * ulp x = x := div_mul_cancel₀ x hpos.ne'
  calc |round x - x| = |((roundEven (x / ulp x) : ℚ) - x / ulp x) * ulp x| := by
        rw [sub_mul, hx]
        rfl
    _ = |(roundEven (x / ulp x) : ℚ) - x / ulp x| * ulp x := by rw [abs_mul, abs_of_pos hpos]
    _ ≤ 1 / 2 * ulp x := mul_le_mul_of_nonneg_right (roundEven_sub _) hpos.le
    _ = ulp x / 2 := by ring

theorem round_zero : round 0 = 0 := by
  have hzero : roundEven 0 = 0 := roundEven_eq (by norm_num)
  rw [round, zero_div, hzero, Int.cast_zero, zero_mul]

theorem round_le {x : ℚ} (h : 0 ≤ x) : round x ≤ x * (1 + 2 ^ (-53 : ℤ)) := by
  rcases h.eq_or_lt with rfl | hpos
  · rw [round_zero, zero_mul]
  · have hround := (abs_le.mp (round_sub x)).2
    have hulp := ulp_le hpos
    have hhalf : (2 : ℚ) ^ (-53 : ℤ) = 2 ^ (-52 : ℤ) / 2 := by norm_num
    calc round x ≤ x + ulp x / 2 := by linarith
      _ ≤ x + x * 2 ^ (-52 : ℤ) / 2 := by gcongr
      _ = x * (1 + 2 ^ (-53 : ℤ)) := by rw [hhalf]; ring

theorem le_round {x : ℚ} (h : 0 ≤ x) : x / 2 ≤ round x := by
  rcases h.eq_or_lt with rfl | hpos
  · rw [round_zero, zero_div]
  · have hround := (abs_le.mp (round_sub x)).1
    have hulp : ulp x ≤ x := by
      refine (ulp_le hpos).trans (mul_le_of_le_one_right h ?_)
      norm_num
    linarith

theorem round_nonneg {x : ℚ} (h : 0 ≤ x) : 0 ≤ round x := by
  have hquot : 0 ≤ x / ulp x := div_nonneg h (ulp_pos x).le
  have hround := (abs_le.mp (roundEven_sub (x / ulp x))).1
  have hgt : (-1 : ℚ) < roundEven (x / ulp x) := by linarith
  have hge : (-1 : ℤ) < roundEven (x / ulp x) := by exact_mod_cast hgt
  have hnonneg : (0 : ℤ) ≤ roundEven (x / ulp x) := by omega
  exact mul_nonneg (by exact_mod_cast hnonneg) (ulp_pos x).le

theorem log_eq {x : ℚ} {n : ℤ} (hlo : 2 ^ n ≤ x) (hhi : x < 2 ^ (n + 1)) : Int.log 2 x = n := by
  have hpos : 0 < x := lt_of_lt_of_le (zpow_pos (by norm_num) n) hlo
  apply le_antisymm
  · have hlt := (Int.lt_zpow_iff_log_lt (b := 2) (by norm_num) (x := n + 1) hpos).mp
      (by exact_mod_cast hhi)
    omega
  · exact (Int.zpow_le_iff_le_log (b := 2) (by norm_num) hpos).mp (by exact_mod_cast hlo)

theorem round_eq_of_near {x : ℚ} {k : ℕ} {t : ℤ} (hulp : ulp x = 2 ^ (-(k : ℤ)))
    (hnear : |x - t| < 2 ^ (-(k : ℤ)) / 2) : round x = t := by
  have hpow : (2 : ℚ) ^ (-(k : ℤ)) * 2 ^ k = 1 := by
    rw [zpow_neg, zpow_natCast]
    exact inv_mul_cancel₀ (by positivity)
  have hquot : x / ulp x = x * 2 ^ k := by
    have hne : (2 : ℚ) ^ (-(k : ℤ)) ≠ 0 := (zpow_pos (by norm_num) _).ne'
    rw [hulp, div_eq_iff hne, mul_assoc, mul_comm ((2 : ℚ) ^ k), hpow, mul_one]
  have hround : roundEven (x * 2 ^ k) = t * 2 ^ k := by
    apply roundEven_eq
    push_cast
    rw [← sub_mul, abs_mul, abs_of_pos (a := (2 : ℚ) ^ k) (by positivity)]
    calc |x - t| * 2 ^ k < 2 ^ (-(k : ℤ)) / 2 * 2 ^ k :=
          mul_lt_mul_of_pos_right hnear (by positivity)
      _ = 2 ^ (-(k : ℤ)) * 2 ^ k / 2 := by ring
      _ = 1 / 2 := by rw [hpow]
  rw [round, hquot, hround, hulp]
  push_cast
  rw [mul_assoc, mul_comm ((2 : ℚ) ^ k), hpow, mul_one]

theorem roundEven_le {x : ℚ} {n : ℤ} (h : x ≤ n) : roundEven x ≤ n := by
  rcases h.eq_or_lt with rfl | hlt
  · exact (roundEven_eq (by norm_num)).le
  · have hfloor : ⌊x⌋ < n := Int.floor_lt.mpr hlt
    have hle : roundEven x ≤ ⌊x⌋ + 1 := by
      unfold roundEven
      split_ifs <;> omega
    omega

theorem ceil_round_div {n d : ℕ} (hn : n < 2 ^ 53) (hd : 0 < d) :
    ⌈round ((n : ℚ) / d)⌉ = ⌈(n : ℚ) / d⌉ := by
  have hd' : (0 : ℚ) < d := by exact_mod_cast hd
  rcases Nat.eq_zero_or_pos n with rfl | hpos
  · simp [round_zero]
  have hx : (0 : ℚ) < n / d := div_pos (by exact_mod_cast hpos) hd'
  obtain ⟨x, hxdef⟩ : ∃ x : ℚ, x = n / d := ⟨_, rfl⟩
  rw [← hxdef] at hx ⊢
  have hlog : (2 : ℚ) ^ Int.log 2 x ≤ x := by exact_mod_cast Int.zpow_log_le_self (by norm_num) hx
  have hxd : x * d = n := by rw [hxdef, div_mul_cancel₀ _ hd'.ne']
  have hbound : (2 : ℚ) ^ Int.log 2 x * d < 2 ^ (53 : ℤ) := by
    calc (2 : ℚ) ^ Int.log 2 x * d ≤ x * d := mul_le_mul_of_nonneg_right hlog hd'.le
      _ = n := hxd
      _ < 2 ^ (53 : ℤ) := by exact_mod_cast hn
  have hle : Int.log 2 x ≤ 52 := by
    have hone : (1 : ℚ) ≤ d := by exact_mod_cast hd
    have hpow : (2 : ℚ) ^ Int.log 2 x < 2 ^ (53 : ℤ) := by
      refine lt_of_le_of_lt ?_ hbound
      exact le_mul_of_one_le_right (zpow_pos (by norm_num) _).le hone
    have := (zpow_lt_zpow_iff_right₀ (by norm_num)).mp hpow
    omega
  obtain ⟨k, hk⟩ : ∃ k : ℕ, (k : ℤ) = 52 - Int.log 2 x := Int.eq_ofNat_of_zero_le (by omega) |>.imp
    fun _ h => h.symm
  have hulp : ulp x = 2 ^ (-(k : ℤ)) := by rw [ulp, hk]; ring_nf
  have hpow : (2 : ℚ) ^ (-(k : ℤ)) * 2 ^ k = 1 := by
    rw [zpow_neg, zpow_natCast]
    exact inv_mul_cancel₀ (by positivity)
  have hupos := ulp_pos x
  have hscale (z : ℤ) : ((z * 2 ^ k : ℤ) : ℚ) * ulp x = z := by
    rw [hulp]
    push_cast
    rw [mul_assoc, mul_comm ((2 : ℚ) ^ k), hpow, mul_one]
  rw [Int.ceil_eq_iff]
  constructor
  · -- the last step up to the quotient is at least `1 / d`, more than half a unit
    have hstep : (1 : ℚ) ≤ (x - (⌈x⌉ - 1)) * d := by
      have hlt : ((⌈x⌉ : ℚ) - 1) * d < n := by
        rw [← hxd]
        refine mul_lt_mul_of_pos_right ?_ hd'
        linarith [Int.ceil_lt_add_one x]
      have hint : (⌈x⌉ - 1) * (d : ℤ) + 1 ≤ n := by
        apply Int.add_one_le_of_lt
        exact_mod_cast hlt
      have hcast : ((⌈x⌉ : ℚ) - 1) * d + 1 ≤ n := by exact_mod_cast hint
      rw [sub_mul, hxd]
      linarith
    have hunit : ulp x * d < 2 := by
      have hsplit : ulp x = 2 ^ Int.log 2 x * 2 ^ (-52 : ℤ) := by
        rw [ulp, sub_eq_add_neg, zpow_add₀ (by norm_num)]
      rw [hsplit, mul_right_comm]
      calc (2 : ℚ) ^ Int.log 2 x * d * 2 ^ (-52 : ℤ) < 2 ^ (53 : ℤ) * 2 ^ (-52 : ℤ) :=
            mul_lt_mul_of_pos_right hbound (zpow_pos (by norm_num) _)
        _ = 2 := by norm_num
    have hhalf : ulp x / 2 < x - (⌈x⌉ - 1) := by
      refine lt_of_mul_lt_mul_right ?_ hd'.le
      linarith
    have hquot' : ((⌈x⌉ - 1) * 2 ^ k : ℤ) + 1 / 2 < x / ulp x := by
      rw [lt_div_iff₀ hupos, add_mul, hscale]
      push_cast
      linarith
    have hround := (abs_le.mp (roundEven_sub (x / ulp x))).1
    have hlt : (((⌈x⌉ - 1) * 2 ^ k : ℤ) : ℚ) < roundEven (x / ulp x) := by linarith
    have hmul := mul_lt_mul_of_pos_right hlt hupos
    rw [hscale] at hmul
    push_cast at hmul
    exact hmul
  · have hquot' : x / ulp x ≤ ((⌈x⌉ * 2 ^ k : ℤ) : ℚ) := by
      rw [div_le_iff₀ hupos, hscale]
      exact Int.le_ceil x
    have hle' : (roundEven (x / ulp x) : ℚ) ≤ ((⌈x⌉ * 2 ^ k : ℤ) : ℚ) := by
      exact_mod_cast roundEven_le hquot'
    have hmul := mul_le_mul_of_nonneg_right hle' hupos.le
    rw [hscale] at hmul
    exact hmul

end Acps.Binary64
