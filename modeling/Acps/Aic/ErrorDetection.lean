import Acps.Aic.Issue
import Acps.Lib.Crc

/-!
A code with one character replaced, or two neighbours in a level swapped, is no longer a code that
the registry accepts, whatever the salt is.
-/

namespace Acps.Aic

open Numerals

section Checksum

def ccitt : BitVec 16 := 4129

theorem ccitt_constant : ccitt.getLsbD 0 = true := by decide

theorem crcBit_toNat (s : BitVec 16) : Registry.crcBit s.toNat = (Crc.step ccitt s).toNat := by
  have hmsb : s.toNat &&& 32768 ≠ 0 ↔ s.msb = true := by
    rw [show 32768 = 2 ^ 15 by rfl, Nat.and_two_pow, BitVec.msb_eq_getLsbD_last]
    change (s.getLsbD 15).toNat * 2 ^ 15 ≠ 0 ↔ s.getLsbD 15 = true
    cases s.getLsbD 15 <;> decide
  have hmask (n : ℕ) : n &&& 65535 = n % 2 ^ 16 := Nat.and_two_pow_sub_one_eq_mod n 16
  unfold Registry.crcBit Crc.step
  by_cases h : s.msb = true
  · rw [if_pos (hmsb.mpr h), if_pos h, BitVec.toNat_xor, BitVec.toNat_shiftLeft, hmask,
      Nat.xor_mod_two_pow]
    rfl
  · rw [if_neg (mt hmsb.mp h), if_neg h, BitVec.toNat_shiftLeft, hmask]

theorem crcBit_iterate (n : ℕ) (s : BitVec 16) :
    Registry.crcBit^[n] s.toNat = ((Crc.step ccitt)^[n] s).toNat := by
  induction n generalizing s with
  | zero => rfl
  | succ n ih => rw [Function.iterate_succ_apply, crcBit_toNat, ih]; rfl

def word (b : UInt8) : BitVec 16 := BitVec.ofNat 16 b.toNat

theorem word_toNat (b : UInt8) : (word b).toNat = b.toNat := by
  rw [word, BitVec.toNat_ofNat]
  exact Nat.mod_eq_of_lt (b.toNat_lt.trans (by decide))

theorem word_lt (b : UInt8) : (word b).toNat < 2 ^ 8 := word_toNat b ▸ b.toNat_lt

theorem word_ne {b c : UInt8} (h : b ≠ c) : word b ≠ word c := by
  intro hword
  apply h
  apply UInt8.toNat_inj.mp
  rw [← word_toNat, ← word_toNat, hword]

theorem feed_toNat (s : BitVec 16) (b : UInt8) :
    Registry.crcBit^[8] (s.toNat ^^^ ((b.toNat <<< 8) &&& 0xFFFF)) =
      (Crc.feed ccitt 8 s (word b)).toNat := by
  have hmask : (b.toNat <<< 8) &&& 0xFFFF = (word b <<< 8).toNat := by
    rw [BitVec.toNat_shiftLeft, word_toNat]
    exact Nat.and_two_pow_sub_one_eq_mod _ 16
  rw [hmask, ← BitVec.toNat_xor, crcBit_iterate]
  rfl

theorem foldl_toNat (s : BitVec 16) (data : List UInt8) :
    data.foldl (fun crc b => Registry.crcBit^[8] (crc ^^^ ((b.toNat <<< 8) &&& 0xFFFF))) s.toNat =
      (Crc.run ccitt 8 s (data.map word)).toNat := by
  induction data generalizing s with
  | nil => rfl
  | cons b data ih => rw [List.foldl_cons, feed_toNat, ih]; rfl

theorem crc16_toNat (data salt : List UInt8) :
    Registry.crc16CcittFalseWithSalt data salt =
      (Crc.run ccitt 8 0xFFFF ((data ++ salt).map word)).toNat := by
  have hfold := foldl_toNat 0xFFFF (data ++ salt)
  exact (congrArg (· &&& 0xFFFF) hfold).trans
    (Nat.and_two_pow_sub_one_of_lt_two_pow (BitVec.isLt _))

theorem crc16_ne_of_replaced {pre rest salt : List UInt8} {b b' : UInt8} (h : b ≠ b') :
    Registry.crc16CcittFalseWithSalt (pre ++ b :: rest) salt ≠
      Registry.crc16CcittFalseWithSalt (pre ++ b' :: rest) salt := by
  rw [crc16_toNat, crc16_toNat]
  intro heq
  have hrun := BitVec.eq_of_toNat_eq heq
  simp only [List.append_assoc, List.cons_append, List.map_append, List.map_cons] at hrun
  exact Crc.run_ne_of_word ccitt_constant (by decide) (word_lt b) (word_lt b') (word_ne h) hrun

theorem crc16_ne_of_swapped {pre rest salt : List UInt8} {b c : UInt8} (h : b ≠ c) :
    Registry.crc16CcittFalseWithSalt (pre ++ b :: c :: rest) salt ≠
      Registry.crc16CcittFalseWithSalt (pre ++ c :: b :: rest) salt := by
  rw [crc16_toNat, crc16_toNat]
  intro heq
  have hrun := BitVec.eq_of_toNat_eq heq
  simp only [List.append_assoc, List.cons_append, List.map_append, List.map_cons] at hrun
  exact Crc.run_ne_of_pair ccitt_constant (by decide) (word_lt b) (word_lt c) (word_lt c)
    (word_lt b) (.inl (word_ne h)) hrun

end Checksum

section Encoding

def base36Value (c : Char) : Option ℕ := base36Alphabet.idxOf? c

theorem base36Value_digit : ∀ d < 36, base36Value (base36Alphabet.getD d '0') = some d := by decide

theorem base36Encode_eq_leftpad {n : ℕ} (hn : n < 36 ^ 4) :
    Registry.base36Encode n 4 =
      .ok ((bigEndian 36 (base36Alphabet.getD · '0') n).leftpad 4 '0') := by
  have hlength := length_bigEndian_le (base36Alphabet.getD · '0') (by decide) hn
  unfold Registry.base36Encode
  rw [if_neg (by decide)]
  split
  next hzero =>
    subst hzero
    rw [bigEndian, Nat.digits_zero]
    rfl
  next =>
    dsimp only
    rw [if_neg hlength.not_gt]

theorem base36Encode_injective {m n : ℕ} (hm : m < 36 ^ 4) (hn : n < 36 ^ 4)
    (h : Registry.base36Encode m 4 = Registry.base36Encode n 4) : m = n := by
  rw [base36Encode_eq_leftpad hm, base36Encode_eq_leftpad hn] at h
  have hread (k : ℕ) : positional 36 base36Value
      ((bigEndian 36 (base36Alphabet.getD · '0') k).leftpad 4 '0') = some k :=
    positional_leftpad (by decide) base36Value_digit 4 k
  have hsame := congrArg (positional 36 base36Value) (Except.ok.inj h)
  rw [hread, hread] at hsame
  exact Option.some.inj hsame

end Encoding

section Ascii

theorem isBase36_lt {c : Char} (h : isBase36 c = true) : c.toNat < 128 := by
  have := isBase36_cases h
  omega

def Plain (s : Text) : Prop := ∀ c ∈ s, c = '.' ∨ isBase36 c = true

theorem Plain.lt {s : Text} (h : Plain s) : ∀ c ∈ s, c.toNat < 128 := by
  intro c hc
  rcases h c hc with rfl | hbase
  · decide
  · exact isBase36_lt hbase

def byte (c : Char) : UInt8 := UInt8.ofNat c.toNat

theorem byte_ne {c d : Char} (hc : c.toNat < 128) (hd : d.toNat < 128) (h : c ≠ d) : byte c ≠ byte d := by
  intro hbyte
  apply h
  apply Char.toNat_inj.mp
  have hsame := congrArg UInt8.toNat hbyte
  rw [byte, byte, UInt8.toNat_ofNat', UInt8.toNat_ofNat'] at hsame
  omega

theorem encodeAscii_plain {s : Text} (h : Plain s) : encodeAscii s = .ok (s.map byte) := by
  apply if_pos
  rw [List.all_eq_true]
  intro c hc
  exact decide_eq_true (h.lt c hc)

variable (U : UpperCase) (crcSalt : Text)

theorem normalizeAicText_plain {s : Text} (h : Plain s) : Registry.normalizeAicText U s = s :=
  normalizeAicText_fixed U h

theorem calculateAicChecksum_plain {body : Text} (h : Plain body) :
    Registry.calculateAicChecksum U crcSalt body = Registry.base36Encode
      (Registry.crc16CcittFalseWithSalt (body.map byte) (Registry.saltBytes crcSalt)) 4 := by
  unfold Registry.calculateAicChecksum
  rw [normalizeAicText_plain U h, encodeAscii_plain h]
  rfl

theorem crc16_of_checksum {body body' crc : Text} (h : Plain body) (h' : Plain body')
    (hcrc : Registry.calculateAicChecksum U crcSalt body = .ok crc)
    (hcrc' : Registry.calculateAicChecksum U crcSalt body' = .ok crc) :
    Registry.crc16CcittFalseWithSalt (body.map byte) (Registry.saltBytes crcSalt) =
      Registry.crc16CcittFalseWithSalt (body'.map byte) (Registry.saltBytes crcSalt) := by
  rw [calculateAicChecksum_plain U crcSalt h] at hcrc
  rw [calculateAicChecksum_plain U crcSalt h'] at hcrc'
  exact base36Encode_injective (crc16_lt _ _) (crc16_lt _ _) (hcrc.trans hcrc'.symm)

end Ascii

section Accepted

variable {U : UpperCase} {crcSalt aic expectedPrefix : Text}

theorem reBase36_of_reDigits {p : Text} (h : reDigits p = true) : reBase36 p = true := by
  have hdigits : p ≠ [] ∧ p.all isDigit = true := by simpa [reDigits] using h
  refine reBase36_iff.mpr ⟨hdigits.1, fun c hc => ?_⟩
  have hdigit := List.all_eq_true.mp hdigits.2 c hc
  simp [isBase36, hdigit]

theorem WellFormed.reBase36 {parts : List Text} (h : WellFormed parts expectedPrefix) :
    ∀ p ∈ parts, reBase36 p = true := by
  obtain ⟨h5, h6, h7, h8, h9, h10⟩ := forall_segmentConstraints.mp h.segments
  have hdigits := h.digits
  have hcount := h.count
  match parts, hcount with
  | [p₁, p₂, p₃, p₄, p₅, p₆, p₇, p₈, p₉, p₁₀], _ =>
    simp only [List.forall_mem_cons] at hdigits ⊢
    exact ⟨reBase36_of_reDigits hdigits.1, reBase36_of_reDigits hdigits.2.1,
      reBase36_of_reDigits hdigits.2.2.1, reBase36_of_reDigits hdigits.2.2.2.1, h5.1, h6.1, h7.1,
      h8.1, h9.1, h10.1, fun p hp => absurd hp List.not_mem_nil⟩

structure Checked (U : UpperCase) (crcSalt text body crc : Text) : Prop where
  text_eq : text = body ++ '.' :: crc
  length_crc : crc.length = 4
  plain : Plain body
  checksum : Registry.calculateAicChecksum U crcSalt body = .ok crc

theorem splitAic_eq_splitOn (h : Registry.splitAic U aic ≠ []) :
    Registry.splitAic U aic = (Registry.normalizeAicText U aic).splitOn '.' := by
  unfold Registry.splitAic at h ⊢
  dsimp only at h ⊢
  split_ifs at h ⊢
  · exact absurd rfl h
  · exact absurd rfl h
  · rfl

theorem exists_checked (h : Registry.validateAic U crcSalt aic expectedPrefix = .ok true) :
    ∃ body crc, Checked U crcSalt (Registry.normalizeAicText U aic) body crc := by
  obtain ⟨hwell, hcrc⟩ := (validateAic_eq_true U crcSalt).mp h
  have hcount := hwell.count
  have hbase := hwell.reBase36
  have hsplit := @splitAic_eq_splitOn U aic (by
    intro hnil
    rw [hnil] at hcount
    cases hcount)
  have hjoin : join (Registry.splitAic U aic) = Registry.normalizeAicText U aic := by
    rw [hsplit, join, List.intercalate_splitOn]
  have hlast := (forall_segmentConstraints.mp hwell.segments).2.2.2.2.2.2
  generalize Registry.splitAic U aic = parts at hcrc hcount hbase hjoin hlast
  refine ⟨join (parts.take 9), parts.getD 9 [], ?_, le_antisymm hlast.2 hlast.1, ?_, hcrc⟩
  · have hparts : parts = parts.take 9 ++ [parts.getD 9 []] := by
      have hlt : 9 < parts.length := by omega
      have hdrop : parts.drop 9 = [parts.getD 9 []] := by
        rw [List.drop_eq_getElem_cons hlt, List.getD_eq_getElem _ _ hlt,
          List.drop_eq_nil_of_le (by omega)]
      rw [← hdrop, List.take_append_drop]
    have hne : parts.take 9 ≠ [] := List.ne_nil_of_length_pos (by rw [List.length_take, hcount]; decide)
    rw [← hjoin]
    conv_lhs => rw [hparts]
    rw [join_append hne (List.cons_ne_nil _ _)]
    simp [join]
  · intro c hc
    rcases mem_join hc with hdot | ⟨p, hp, hcp⟩
    · exact .inl hdot
    · exact .inr ((reBase36_iff.mp (hbase p (List.mem_of_mem_take hp))).2 c hcp)

end Accepted

section Bursts

theorem burst_cases {pre u v post body body' crc crc' : Text} (hlength : u.length = v.length)
    (hdot : '.' ∉ u) (hx : pre ++ u ++ post = body ++ '.' :: crc)
    (hy : pre ++ v ++ post = body' ++ '.' :: crc') (hbody : body.length = body'.length) :
    body' = body ∨ ∃ rest, body = pre ++ u ++ rest ∧ body' = pre ++ v ++ rest ∧ crc' = crc := by
  have before {front : Text} (hfront : body = pre ++ u ++ front) (hpost : post = front ++ '.' :: crc) :
      body' = pre ++ v ++ front ∧ crc' = crc := by
    have hsame : pre ++ v ++ front ++ '.' :: crc = body' ++ '.' :: crc' := by
      rw [← hy, hpost, List.append_assoc]
    obtain ⟨hbody', htail⟩ := List.append_inj hsame (by
      rw [← hbody, hfront, List.length_append, List.length_append, List.length_append,
        List.length_append, hlength])
    exact ⟨hbody'.symm, (List.cons.inj htail).2.symm⟩
  rcases List.append_eq_append_iff.mp hx with ⟨front, hfront, hpost⟩ | ⟨back, hback, hcrc⟩
  · exact .inr ⟨front, hfront, before hfront hpost⟩
  · rcases List.append_eq_append_iff.mp hback with ⟨early, hearly, hu⟩ | ⟨late, hlate, hu⟩
    · cases back with
      | nil =>
        rw [List.append_nil] at hu
        have hfront : body = pre ++ u ++ [] := by rw [hearly, hu, List.append_nil]
        exact .inr ⟨[], hfront, before hfront hcrc.symm⟩
      | cons c back =>
        obtain ⟨rfl, -⟩ := List.cons.inj hcrc
        exact absurd (hu ▸ List.mem_append_right _ List.mem_cons_self) hdot
    · left
      have hsame : body ++ (late ++ v ++ post) = body' ++ '.' :: crc' := by
        rw [← hy, hlate]
        simp
      exact (List.append_inj hsame hbody).1.symm

variable {U : UpperCase} {crcSalt x y expectedPrefix expectedPrefix' : Text}

theorem Checked.length_body {text body crc : Text} (h : Checked U crcSalt text body crc) :
    body.length + 5 = text.length := by
  rw [h.text_eq, List.length_append, List.length_cons, h.length_crc]

theorem not_accepted_of_burst {pre u v post : Text}
    (hx : Registry.validateAic U crcSalt x expectedPrefix = .ok true)
    (hxtext : Registry.normalizeAicText U x = pre ++ u ++ post)
    (hytext : Registry.normalizeAicText U y = pre ++ v ++ post) (hlength : u.length = v.length)
    (hne : u ≠ v) (hdot : '.' ∉ u)
    (hdetect : ∀ rest, Plain (pre ++ u ++ rest) → Plain (pre ++ v ++ rest) →
      Registry.crc16CcittFalseWithSalt ((pre ++ u ++ rest).map byte) (Registry.saltBytes crcSalt) ≠
        Registry.crc16CcittFalseWithSalt ((pre ++ v ++ rest).map byte) (Registry.saltBytes crcSalt)) :
    Registry.validateAic U crcSalt y expectedPrefix' ≠ .ok true := by
  intro hy
  obtain ⟨body, crc, hbody⟩ := exists_checked hx
  obtain ⟨body', crc', hbody'⟩ := exists_checked hy
  have hsame : body.length = body'.length := by
    have htexts : (Registry.normalizeAicText U x).length = (Registry.normalizeAicText U y).length := by
      rw [hxtext, hytext]
      simp [hlength]
    have hxlength := hbody.length_body
    have hylength := hbody'.length_body
    omega
  rcases burst_cases hlength hdot (hxtext.symm.trans hbody.text_eq)
    (hytext.symm.trans hbody'.text_eq) hsame with rfl | ⟨rest, rfl, rfl, rfl⟩
  · have hcrc : crc = crc' := Except.ok.inj (hbody.checksum.symm.trans hbody'.checksum)
    have htexts : pre ++ u ++ post = pre ++ v ++ post := by
      rw [← hxtext, ← hytext, hbody.text_eq, hbody'.text_eq, hcrc]
    exact hne ((List.append_right_inj pre).mp ((List.append_left_inj post).mp htexts))
  · exact hdetect rest hbody.plain hbody'.plain
      (crc16_of_checksum U crcSalt hbody.plain hbody'.plain hbody.checksum hbody'.checksum)

end Bursts

section Verdict

variable {U : UpperCase} {crcSalt x y expectedPrefix : Text}

theorem unless_total {c : Prop} [Decidable c] {verdict : Except PyError Bool}
    (h : ¬ c → ∃ b, verdict = .ok b) : ∃ b, (if c then .ok false else verdict) = .ok b := by
  split
  next => exact ⟨false, rfl⟩
  next hc => exact h hc

theorem validateAic_total (U : UpperCase) (crcSalt aic expectedPrefix : Text) :
    ∃ verdict, Registry.validateAic U crcSalt aic expectedPrefix = .ok verdict := by
  unfold Registry.validateAic
  dsimp only
  generalize Registry.splitAic U aic = parts
  refine unless_total fun hcount => unless_total fun _ => unless_total fun hdigits =>
    unless_total fun h5 => unless_total fun h6 => unless_total fun h7 => unless_total fun h8 =>
    unless_total fun h9 => unless_total fun _ => ?_
  rw [not_not] at hcount hdigits h5 h6 h7 h8 h9
  have hplain : Plain (join (parts.take 9)) := by
    intro c hc
    rcases mem_join hc with hdot | ⟨p, hp, hcp⟩
    · exact .inl hdot
    · right
      refine (reBase36_iff.mp ?_).2 c hcp
      have hall := (all_take_four hcount).mp hdigits
      match parts, hcount with
      | [p₁, p₂, p₃, p₄, p₅, p₆, p₇, p₈, p₉, p₁₀], _ =>
        simp only [List.forall_mem_cons] at hall
        have hmembers : ∀ q ∈ [p₁, p₂, p₃, p₄, p₅, p₆, p₇, p₈, p₉], reBase36 q = true := by
          simp only [List.forall_mem_cons]
          exact ⟨reBase36_of_reDigits hall.1, reBase36_of_reDigits hall.2.1,
            reBase36_of_reDigits hall.2.2.1, reBase36_of_reDigits hall.2.2.2.1, h5.1, h6.1, h7.1,
            h8.1, h9.1, fun q hq => absurd hq List.not_mem_nil⟩
        exact hmembers p hp
  rw [calculateAicChecksum_plain U crcSalt hplain, base36Encode_eq_leftpad (crc16_lt _ _)]
  exact ⟨_, rfl⟩

theorem rejected_of_not_accepted (h : Registry.validateAic U crcSalt x expectedPrefix ≠ .ok true) :
    Registry.validateAic U crcSalt x expectedPrefix = .ok false := by
  obtain ⟨verdict, hverdict⟩ := validateAic_total U crcSalt x expectedPrefix
  cases verdict with
  | false => exact hverdict
  | true => exact absurd hverdict h

def Replaced (U : UpperCase) (x y : Text) : Prop :=
  ∃ pre c d e post, x = pre ++ c :: post ∧ y = pre ++ d :: post ∧ c ≠ '.' ∧ '.' ∈ post ∧
    Registry.normalizeAicText U [d] = [e] ∧ e ≠ c

def Swapped (x y : Text) : Prop :=
  ∃ pre c d post, x = pre ++ c :: d :: post ∧ y = pre ++ d :: c :: post ∧ c ≠ '.' ∧ d ≠ '.' ∧ c ≠ d

theorem normalizeAicText_append (U : UpperCase) (s t : Text) :
    Registry.normalizeAicText U (s ++ t) =
      Registry.normalizeAicText U s ++ Registry.normalizeAicText U t := by
  unfold Registry.normalizeAicText
  rw [List.filter_append, List.flatMap_append]

theorem plain_of_accepted (hx : Registry.validateAic U crcSalt x expectedPrefix = .ok true)
    (hnormal : Registry.normalizeAicText U x = x) : Plain x := by
  have hwell := ((validateAic_eq_true U crcSalt).mp hx).1
  have hsplit := @splitAic_eq_splitOn U x (by
    intro hnil
    have hcount := hwell.count
    rw [hnil] at hcount
    cases hcount)
  have hjoin : join (Registry.splitAic U x) = x := by
    rw [hsplit, join, List.intercalate_splitOn, hnormal]
  intro c hc
  rw [← hjoin] at hc
  rcases mem_join hc with hdot | ⟨p, hp, hcp⟩
  · exact .inl hdot
  · exact .inr ((reBase36_iff.mp (hwell.reBase36 p hp)).2 c hcp)

theorem Plain.append {s t : Text} (h : Plain (s ++ t)) : Plain s ∧ Plain t :=
  ⟨fun c hc => h c (List.mem_append_left t hc), fun c hc => h c (List.mem_append_right s hc)⟩

theorem replaced_rejected (hx : Registry.validateAic U crcSalt x expectedPrefix = .ok true)
    (hnormal : Registry.normalizeAicText U x = x) (h : Replaced U x y) (expectedPrefix' : Text) :
    Registry.validateAic U crcSalt y expectedPrefix' = .ok false := by
  obtain ⟨pre, c, d, e, post, rfl, rfl, hc, -, hd, hne⟩ := h
  apply rejected_of_not_accepted
  have hplain := plain_of_accepted hx hnormal
  obtain ⟨hpre, hrest⟩ := hplain.append
  have hpost : Plain post := fun c' hc' => hrest c' (List.mem_cons_of_mem c hc')
  have hytext : Registry.normalizeAicText U (pre ++ d :: post) = pre ++ [e] ++ post := by
    rw [normalizeAicText_append, ← List.singleton_append, normalizeAicText_append, hd,
      normalizeAicText_plain U hpre, normalizeAicText_plain U hpost, List.append_assoc]
  refine not_accepted_of_burst (u := [c]) (v := [e]) hx ?_ hytext rfl ?_ ?_ ?_
  · rw [hnormal]
    simp
  · intro hsame
    exact hne (List.cons.inj hsame).1.symm
  · intro hdot
    exact hc (List.mem_singleton.mp hdot).symm
  · intro rest hu hv
    have hbytes : byte c ≠ byte e :=
      byte_ne (hu.lt c (by simp)) (hv.lt e (by simp)) hne.symm
    rw [List.map_append, List.map_append, List.append_assoc, List.map_append, List.map_append,
      List.append_assoc]
    exact crc16_ne_of_replaced hbytes

theorem swapped_rejected (hx : Registry.validateAic U crcSalt x expectedPrefix = .ok true)
    (hnormal : Registry.normalizeAicText U x = x) (h : Swapped x y) (expectedPrefix' : Text) :
    Registry.validateAic U crcSalt y expectedPrefix' = .ok false := by
  obtain ⟨pre, c, d, post, rfl, rfl, hc, hd, hne⟩ := h
  apply rejected_of_not_accepted
  have hplain := plain_of_accepted hx hnormal
  have hyplain : Plain (pre ++ d :: c :: post) := by
    intro a ha
    apply hplain a
    simp only [List.mem_append, List.mem_cons] at ha ⊢
    tauto
  have hytext : Registry.normalizeAicText U (pre ++ d :: c :: post) = pre ++ [d, c] ++ post := by
    rw [normalizeAicText_plain U hyplain]
    simp
  refine not_accepted_of_burst (u := [c, d]) (v := [d, c]) hx ?_ hytext rfl ?_ ?_ ?_
  · rw [hnormal]
    simp
  · intro hsame
    exact hne (List.cons.inj hsame).1
  · intro hdot
    rcases List.mem_pair.mp hdot with hdot | hdot
    · exact hc hdot.symm
    · exact hd hdot.symm
  · intro rest hu hv
    have hbytes : byte c ≠ byte d := byte_ne (hu.lt c (by simp)) (hu.lt d (by simp)) hne
    rw [List.map_append, List.map_append, List.append_assoc, List.map_append, List.map_append,
      List.append_assoc]
    exact crc16_ne_of_swapped hbytes

theorem changed_code_rejected (U : UpperCase) (crcSalt x y expectedPrefix expectedPrefix' : Text)
    (hx : Registry.validateAic U crcSalt x expectedPrefix = .ok true)
    (hnormal : Registry.normalizeAicText U x = x) (h : Replaced U x y ∨ Swapped x y) :
    Registry.validateAic U crcSalt y expectedPrefix' = .ok false := by
  rcases h with h | h
  · exact replaced_rejected hx hnormal h expectedPrefix'
  · exact swapped_rejected hx hnormal h expectedPrefix'

end Verdict

theorem swapped_vendor_rejected :
    Registry.validateAic asciiUpperCase "1234".toList "1.2.156.3088.1.A.CB.C.0.0UQR".toList
      aicPrefix = .ok false := by
  refine changed_code_rejected asciiUpperCase _ "1.2.156.3088.1.A.BC.C.0.0UQR".toList _ aicPrefix
    aicPrefix ?_ ?_ (.inr ⟨"1.2.156.3088.1.A.".toList, 'B', 'C', ".C.0.0UQR".toList, ?_⟩)
  · repeat rw [String.toList_ofList]
    decide +kernel
  · repeat rw [String.toList_ofList]
    decide +kernel
  · repeat rw [String.toList_ofList]
    decide

end Acps.Aic
