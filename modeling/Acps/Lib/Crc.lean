import Mathlib.Data.Nat.Bitwise
import Mathlib.Logic.Function.Iterate

/-!
Cyclic redundancy checks, the most significant bit first: a register of `w` bits is fed words of `k`
bits.
-/

namespace Acps.Crc

variable {w : ℕ} (poly : BitVec w)

def step (s : BitVec w) : BitVec w := if s.msb then s <<< 1 ^^^ poly else s <<< 1

def feed (k : ℕ) (s word : BitVec w) : BitVec w := (step poly)^[k] (s ^^^ word <<< (w - k))

def run (k : ℕ) (s : BitVec w) (message : List (BitVec w)) : BitVec w := message.foldl (feed poly k) s

theorem run_append (k : ℕ) (s : BitVec w) (p m : List (BitVec w)) :
    run poly k s (p ++ m) = run poly k (run poly k s p) m := List.foldl_append

section Linear

theorem step_xor (s t : BitVec w) : step poly (s ^^^ t) = step poly s ^^^ step poly t := by
  unfold step
  rw [BitVec.msb_xor, BitVec.shiftLeft_xor_distrib]
  cases s.msb <;> cases t.msb
  · rfl
  · exact BitVec.xor_assoc _ _ _
  · change s <<< 1 ^^^ t <<< 1 ^^^ poly = s <<< 1 ^^^ poly ^^^ t <<< 1
    rw [BitVec.xor_assoc, BitVec.xor_comm (t <<< 1), ← BitVec.xor_assoc]
  · change s <<< 1 ^^^ t <<< 1 = s <<< 1 ^^^ poly ^^^ (t <<< 1 ^^^ poly)
    rw [BitVec.xor_comm (t <<< 1) poly, BitVec.xor_assoc, ← BitVec.xor_assoc poly poly,
      BitVec.xor_self, BitVec.zero_xor]

theorem iterate_xor (n : ℕ) (s t : BitVec w) :
    (step poly)^[n] (s ^^^ t) = (step poly)^[n] s ^^^ (step poly)^[n] t := by
  induction n generalizing s t with
  | zero => rfl
  | succ n ih => rw [Function.iterate_succ_apply, step_xor, ih]; rfl

end Linear

section Injective

variable {poly} (hpoly : poly.getLsbD 0 = true)
include hpoly

theorem getLsbD_step (s : BitVec w) : (step poly s).getLsbD 0 = s.msb := by
  unfold step
  cases s.msb <;> simp [hpoly]

theorem step_injective : Function.Injective (step poly) := by
  intro s t h
  have hmsb : s.msb = t.msb := by rw [← getLsbD_step hpoly s, ← getLsbD_step hpoly t, h]
  have hshift : s <<< 1 = t <<< 1 := by
    unfold step at h
    rw [hmsb] at h
    cases ht : t.msb with
    | false => rwa [ht] at h
    | true =>
      rw [ht] at h
      exact (BitVec.xor_left_inj poly).mp h
  apply BitVec.eq_of_getLsbD_eq
  intro i hi
  by_cases hlast : i + 1 = w
  · rw [BitVec.msb_eq_getLsbD_last, BitVec.msb_eq_getLsbD_last] at hmsb
    rwa [show i = w - 1 by omega]
  · have hbit := congrArg (fun x => x.getLsbD (i + 1)) hshift
    rw [BitVec.getLsbD_shiftLeft, BitVec.getLsbD_shiftLeft, decide_eq_true (by omega : i + 1 < w)] at hbit
    simpa using hbit

theorem feed_injective_left {k : ℕ} {s t word : BitVec w} (h : feed poly k s word = feed poly k t word) :
    s = t := (BitVec.xor_left_inj _).mp ((step_injective hpoly).iterate k h)

theorem run_injective {k : ℕ} {s t : BitVec w} {message : List (BitVec w)}
    (h : run poly k s message = run poly k t message) : s = t := by
  induction message generalizing s t with
  | nil => exact h
  | cons word message ih => exact feed_injective_left hpoly (ih h)

end Injective

section Words

variable {poly} {k : ℕ}

theorem getLsbD_of_lt {word : BitVec w} (hword : word.toNat < 2 ^ k) {i : ℕ} (hi : k ≤ i) :
    word.getLsbD i = false :=
  Nat.testBit_lt_two_pow (hword.trans_le (Nat.pow_le_pow_right (by decide) hi))

theorem toNat_shiftLeft_of_lt {word : BitVec w} {n m : ℕ} (hword : word.toNat < 2 ^ n)
    (hw : n + m ≤ w) : (word <<< m).toNat = word.toNat * 2 ^ m ∧ word.toNat * 2 ^ m < 2 ^ (n + m) := by
  have hlt : word.toNat * 2 ^ m < 2 ^ (n + m) := by
    rw [Nat.pow_add]
    exact Nat.mul_lt_mul_of_pos_right hword (Nat.two_pow_pos m)
  refine ⟨?_, hlt⟩
  rw [BitVec.toNat_shiftLeft, Nat.shiftLeft_eq]
  exact Nat.mod_eq_of_lt (hlt.trans_le (Nat.pow_le_pow_right (by decide) hw))

theorem iterate_of_lt {n : ℕ} {s : BitVec w} (hn : n ≤ w) (hs : s.toNat < 2 ^ (w - n)) :
    (step poly)^[n] s = s <<< n := by
  induction n with
  | zero => rw [BitVec.shiftLeft_zero]; rfl
  | succ n ih =>
    obtain ⟨hshift, hlt⟩ := toNat_shiftLeft_of_lt (m := n) hs (by omega)
    have hmsb : (s <<< n).msb = false := by
      rw [BitVec.msb_eq_decide, hshift]
      exact decide_eq_false (by rw [show w - 1 = w - (n + 1) + n by omega]; exact hlt.not_ge)
    have hsmaller : s.toNat < 2 ^ (w - n) :=
      hs.trans_le (Nat.pow_le_pow_right (by decide) (by omega))
    rw [Function.iterate_succ_apply', ih (by omega) hsmaller, step, hmsb, BitVec.shiftLeft_add]
    rfl

theorem feed_feed {s b c : BitVec w} (hk : 2 * k ≤ w) (hc : c.toNat < 2 ^ k) :
    feed poly k (feed poly k s b) c =
      (step poly)^[k + k] (s ^^^ (b <<< (w - k) ^^^ c <<< (w - 2 * k))) := by
  obtain ⟨hshift, hlt⟩ := toNat_shiftLeft_of_lt (m := w - 2 * k) hc (by omega)
  have hsecond : (step poly)^[k] (c <<< (w - 2 * k)) = c <<< (w - k) := by
    rw [iterate_of_lt (by omega) (by rw [hshift, show w - k = k + (w - 2 * k) by omega]; exact hlt),
      ← BitVec.shiftLeft_add, show w - 2 * k + k = w - k by omega]
  rw [Function.iterate_add_apply, ← BitVec.xor_assoc, iterate_xor poly k (s ^^^ _), hsecond]
  rfl

theorem pair_injective {b c b' c' : BitVec w} (hk : 2 * k ≤ w) (hb : b.toNat < 2 ^ k)
    (hc : c.toNat < 2 ^ k) (hb' : b'.toNat < 2 ^ k) (hc' : c'.toNat < 2 ^ k)
    (h : b <<< (w - k) ^^^ c <<< (w - 2 * k) = b' <<< (w - k) ^^^ c' <<< (w - 2 * k)) :
    b = b' ∧ c = c' := by
  have hfirst : b = b' := by
    apply BitVec.eq_of_getLsbD_eq
    intro i hi
    by_cases hik : i < k
    · have hbit := congrArg (fun x => x.getLsbD (w - k + i)) h
      have hclear {d : BitVec w} (hd : d.toNat < 2 ^ k) :
          (d <<< (w - 2 * k)).getLsbD (w - k + i) = false := by
        rw [BitVec.getLsbD_shiftLeft, getLsbD_of_lt hd (by omega), Bool.and_false]
      have hkept (d : BitVec w) : (d <<< (w - k)).getLsbD (w - k + i) = d.getLsbD i := by
        rw [BitVec.getLsbD_shiftLeft, decide_eq_true (by omega), decide_eq_false (by omega),
          Nat.add_sub_cancel_left]
        rfl
      rwa [BitVec.getLsbD_xor, BitVec.getLsbD_xor, hclear hc, hclear hc', hkept, hkept,
        Bool.xor_false, Bool.xor_false] at hbit
    · rw [getLsbD_of_lt hb (by omega), getLsbD_of_lt hb' (by omega)]
  refine ⟨hfirst, BitVec.eq_of_toNat_eq ?_⟩
  rw [hfirst] at h
  have hsecond := congrArg BitVec.toNat ((BitVec.xor_right_inj _).mp h)
  rw [(toNat_shiftLeft_of_lt hc (by omega)).1, (toNat_shiftLeft_of_lt hc' (by omega)).1] at hsecond
  exact Nat.eq_of_mul_eq_mul_right (Nat.two_pow_pos _) hsecond

end Words

section Detected

variable {poly} (hpoly : poly.getLsbD 0 = true) {k : ℕ} {s : BitVec w} {p m : List (BitVec w)}
include hpoly

theorem run_ne_of_word (hk : 2 * k ≤ w) {b b' : BitVec w} (hb : b.toNat < 2 ^ k)
    (hb' : b'.toNat < 2 ^ k) (hne : b ≠ b') :
    run poly k s (p ++ b :: m) ≠ run poly k s (p ++ b' :: m) := by
  intro h
  rw [run_append, run_append] at h
  have hfed : feed poly k _ b = feed poly k _ b' := run_injective hpoly (s := feed poly k _ b) h
  have hshift := (BitVec.xor_right_inj _).mp ((step_injective hpoly).iterate k hfed)
  have heq := congrArg BitVec.toNat hshift
  rw [(toNat_shiftLeft_of_lt hb (by omega)).1, (toNat_shiftLeft_of_lt hb' (by omega)).1] at heq
  exact hne (BitVec.eq_of_toNat_eq (Nat.eq_of_mul_eq_mul_right (Nat.two_pow_pos _) heq))

theorem run_ne_of_pair (hk : 2 * k ≤ w) {b c b' c' : BitVec w} (hb : b.toNat < 2 ^ k)
    (hc : c.toNat < 2 ^ k) (hb' : b'.toNat < 2 ^ k) (hc' : c'.toNat < 2 ^ k)
    (hne : b ≠ b' ∨ c ≠ c') :
    run poly k s (p ++ b :: c :: m) ≠ run poly k s (p ++ b' :: c' :: m) := by
  intro h
  rw [run_append, run_append] at h
  have hfed : feed poly k (feed poly k _ b) c = feed poly k (feed poly k _ b') c' :=
    run_injective hpoly (s := feed poly k (feed poly k _ b) c) h
  rw [feed_feed hk hc, feed_feed hk hc'] at hfed
  have hpair := (BitVec.xor_right_inj _).mp ((step_injective hpoly).iterate _ hfed)
  obtain ⟨rfl, rfl⟩ := pair_injective hk hb hc hb' hc' hpair
  rcases hne with hne | hne <;> exact hne rfl

end Detected

end Acps.Crc
