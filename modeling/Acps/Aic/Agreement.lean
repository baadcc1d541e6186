import Acps.Aic.Registry
import Acps.Aic.Sdk

/-!
The SDK and the registry read an agent identity code alike, level by level, and compute the same
checksum. They part only at the code's first four levels, which the parser of the SDK fixes.
-/

namespace Acps.Aic

open Numerals

section Shared

variable (U : UpperCase)

theorem normalize_eq (text : Text) : Sdk.normalize U text = Registry.normalizeAicText U text := by
  unfold Sdk.normalize
  split
  · next h => simp [h, Registry.normalizeAicText]
  · rfl

theorem splitAic_nil : Registry.splitAic U [] = [] := rfl

theorem splitAic_eq (aic : Text) : Sdk.splitAic U aic = Registry.splitAic U aic := by
  unfold Sdk.splitAic Registry.splitAic
  rw [normalize_eq]

end Shared

section Checksum

theorem crc16_eq (data salt : List UInt8) :
    Sdk.crc16CcittFalse (data ++ salt) = Registry.crc16CcittFalseWithSalt data salt := rfl

theorem crc16_lt (data salt : List UInt8) : Registry.crc16CcittFalseWithSalt data salt < 36 ^ 4 :=
  Nat.and_le_right.trans_lt (by decide)

theorem base36Encode_eq {n : ℕ} (hn : n < 36 ^ 4) :
    Registry.base36Encode n 4 = .ok (Sdk.base36Encode n 4) := by
  have hlength := length_bigEndian_le (base36Alphabet.getD · '0') (by decide) hn
  unfold Registry.base36Encode Sdk.base36Encode
  by_cases hzero : n = 0
  · rw [if_neg (by decide), if_pos hzero, if_pos hzero, if_pos (by decide)]
  · dsimp only
    rw [if_neg (by decide), if_neg hzero, if_neg hzero, if_neg hlength.not_gt, if_pos (by decide)]

theorem withoutMarker_toHex (salt : List UInt8) :
    Registry.withoutMarker (toHex salt) = toHex salt := by
  unfold Registry.withoutMarker
  split
  · next rest h => exact absurd rfl (toHex_no_marker _ rest salt h).1
  · next rest h => exact absurd rfl (toHex_no_marker _ rest salt h).2
  · rfl

theorem saltBytes_toHex (salt : List UInt8) : Registry.saltBytes (toHex salt) = salt := by
  have heven : ¬ (toHex salt).length % 2 ≠ 0 := by
    rw [length_toHex]
    omega
  unfold Registry.saltBytes
  rw [withoutMarker_toHex]
  dsimp only
  rw [if_neg heven, fromHex_toHex]
  rfl

theorem calculateChecksum_eq (U : UpperCase) (salt : List UInt8) (body : Text) :
    (Sdk.AICValidator.mk (some salt)).calculateChecksum U body =
      (Registry.calculateAicChecksum U (toHex salt) body).map some := by
  unfold Sdk.AICValidator.calculateChecksum Registry.calculateAicChecksum
  rw [normalize_eq, saltBytes_toHex]
  cases encodeAscii (Registry.normalizeAicText U body) with
  | error e => rfl
  | ok data =>
    change Except.ok (some (Sdk.base36Encode _ 4)) = Except.map some (Registry.base36Encode _ 4)
    rw [base36Encode_eq (crc16_lt data salt), crc16_eq]
    rfl

end Checksum

section Format

structure WellFormed (parts : List Text) (expectedPrefix : Text) : Prop where
  count : parts.length = 10
  oidPrefix : expectedPrefix = [] ∨
    parts.take (expectedPrefix.splitOn '.').length = expectedPrefix.splitOn '.'
  digits : ∀ i ∈ [0, 1, 2, 3], reDigits (parts.getD i []) = true
  segments : ∀ c ∈ Sdk.segmentConstraints, reBase36 (parts.getD (c.1 - 1) []) = true ∧
    c.2.1 ≤ (parts.getD (c.1 - 1) []).length ∧ (parts.getD (c.1 - 1) []).length ≤ c.2.2

variable {parts : List Text} {expectedPrefix : Text}

theorem seq_eq_ok {ε : Type} {x y : Except ε Unit} :
    (x >>= fun _ => y) = .ok () ↔ x = .ok () ∧ y = .ok () := by
  cases x <;> simp [bind, Except.bind]

theorem forM_eq_ok {α ε : Type} {f : α → Except ε Unit} {l : List α} :
    l.forM f = .ok () ↔ ∀ x ∈ l, f x = .ok () := by
  induction l with
  | nil => exact ⟨fun _ x hx => absurd hx List.not_mem_nil, fun _ => rfl⟩
  | cons x l ih =>
    rw [List.forall_mem_cons, ← ih]
    exact seq_eq_ok

theorem checkPrefix_eq_ok : Sdk.checkPrefix parts expectedPrefix = .ok () ↔ expectedPrefix = [] ∨
    parts.take (expectedPrefix.splitOn '.').length = expectedPrefix.splitOn '.' := by
  unfold Sdk.checkPrefix
  split
  · next h => simp [h]
  · next h =>
    dsimp only
    split
    · next hne => simpa [h] using hne
    · next heq => simpa [h] using heq

theorem checkDigits_eq_ok {i : ℕ} :
    Sdk.checkDigits parts i = .ok () ↔ reDigits (parts.getD i []) = true := by
  unfold Sdk.checkDigits
  dsimp only
  split <;> simp_all

theorem checkSegment_eq_ok {c : ℕ × ℕ × ℕ} :
    Sdk.checkSegment parts c = .ok () ↔ reBase36 (parts.getD (c.1 - 1) []) = true ∧
      c.2.1 ≤ (parts.getD (c.1 - 1) []).length ∧
        (parts.getD (c.1 - 1) []).length ≤ c.2.2 := by
  unfold Sdk.checkSegment
  dsimp only
  split
  · next h => exact iff_of_false (by simp) fun hs => h hs.1
  · next h =>
    split
    · next hlength => exact iff_of_false (by simp) fun hs => hlength hs.2
    · next hlength => exact iff_of_true rfl ⟨not_not.mp h, not_not.mp hlength⟩

theorem validateAicFormat_eq_ok (U : UpperCase) {aic : Text} :
    Sdk.validateAicFormat U aic expectedPrefix = .ok () ↔
      WellFormed (Registry.splitAic U aic) expectedPrefix := by
  unfold Sdk.validateAicFormat
  rw [splitAic_eq]
  dsimp only
  split
  · next hempty =>
    subst hempty
    exact iff_of_false (by simp) fun h => absurd h.count (by rw [splitAic_nil]; decide)
  · split
    · next hcount => exact iff_of_false (by simp) fun h => hcount h.count
    · next hcount =>
      simp only [seq_eq_ok, forM_eq_ok, checkPrefix_eq_ok, checkDigits_eq_ok, checkSegment_eq_ok]
      constructor
      · rintro ⟨hpre, hdigits, hsegments⟩
        exact ⟨not_not.mp hcount, hpre, hdigits, hsegments⟩
      · rintro ⟨_, hpre, hdigits, hsegments⟩
        exact ⟨hpre, hdigits, hsegments⟩

end Format

section Verdict

variable (U : UpperCase) {aic expectedPrefix : Text}

theorem unless_eq_true {c : Prop} [Decidable c] {x : Except PyError Bool} :
    (if c then .ok false else x) = .ok true ↔ ¬ c ∧ x = .ok true := by
  split
  · next h => exact iff_of_false (by simp) fun hs => hs.1 h
  · next h => exact (and_iff_right h).symm

theorem map_eq_true {x : Except PyError Text} {expected : Text} :
    x.map (fun y => decide (y = expected)) = .ok true ↔ x = .ok expected := by
  cases x <;> simp [Except.map]

theorem all_take_four {parts : List Text} (h : parts.length = 10) :
    (parts.take 4).all reDigits = true ↔ ∀ i ∈ [0, 1, 2, 3], reDigits (parts.getD i []) = true := by
  match parts, h with
  | [_, _, _, _, _, _, _, _, _, _], _ => simp

theorem forall_segmentConstraints {P : ℕ × ℕ × ℕ → Prop} :
    (∀ c ∈ Sdk.segmentConstraints, P c) ↔ P (5, 1, 1) ∧ P (6, 1, 6) ∧ P (7, 1, 6) ∧
      P (8, 1, 9) ∧ P (9, 1, 9) ∧ P (10, 4, 4) := by
  simp [Sdk.segmentConstraints]

theorem splitOn_choice_ne_nil :
    (if expectedPrefix ≠ [] then expectedPrefix.splitOn '.' else []) ≠ [] ↔
      expectedPrefix ≠ [] := by
  split
  · next h => exact iff_of_true (List.splitOn_ne_nil _ _) h
  · next h => exact iff_of_false (fun hne => hne rfl) h

theorem validateAic_eq_true (crcSalt : Text) :
    Registry.validateAic U crcSalt aic expectedPrefix = .ok true ↔
      WellFormed (Registry.splitAic U aic) expectedPrefix ∧
        Registry.calculateAicChecksum U crcSalt (join ((Registry.splitAic U aic).take 9)) =
          .ok ((Registry.splitAic U aic).getD 9 []) := by
  unfold Registry.validateAic
  dsimp only
  generalize Registry.splitAic U aic = parts
  simp only [unless_eq_true, map_eq_true, not_not, splitOn_choice_ne_nil]
  constructor
  · rintro ⟨hcount, hpre, hdigits, h5, h6, h7, h8, h9, h10, hcrc⟩
    refine ⟨⟨hcount, ?_, (all_take_four hcount).mp hdigits, forall_segmentConstraints.mpr ?_⟩,
      hcrc⟩
    · by_cases hempty : expectedPrefix = []
      · exact .inl hempty
      · rw [if_pos hempty] at hpre
        exact .inr (not_not.mp fun hne => hpre ⟨hempty, hne⟩)
    · exact ⟨⟨h5.1, h5.2.ge, h5.2.le⟩, h6, h7, h8, h9, h10.1, h10.2.ge, h10.2.le⟩
  · rintro ⟨⟨hcount, hpre, hdigits, hsegments⟩, hcrc⟩
    obtain ⟨h5, h6, h7, h8, h9, h10⟩ := forall_segmentConstraints.mp hsegments
    refine ⟨hcount, ?_, (all_take_four hcount).mpr hdigits, ⟨h5.1, le_antisymm h5.2.2 h5.2.1⟩,
      h6, h7, h8, h9, ⟨h10.1, le_antisymm h10.2.2 h10.2.1⟩, hcrc⟩
    rintro ⟨hempty, hne⟩
    rw [if_pos hempty] at hne
    exact hne (hpre.resolve_left hempty)

theorem join_take_segments {parts : List Text} (h : parts.length = 10) :
    join [join (parts.take 4), parts.getD 4 [], parts.getD 5 [], parts.getD 6 [],
      parts.getD 7 [], parts.getD 8 []] = join (parts.take 9) := by
  match parts, h with
  | [_, _, _, _, _, _, _, _, _, _], _ => simp [join, List.intercalate_cons_cons]

theorem isValidAicFormat_iff :
    Sdk.isValidAicFormat U aic expectedPrefix = true ↔
      WellFormed (Registry.splitAic U aic) expectedPrefix := by
  rw [← validateAicFormat_eq_ok]
  unfold Sdk.isValidAicFormat
  cases Sdk.validateAicFormat U aic expectedPrefix <;> simp

theorem parseAic_eq_some {info : Sdk.AICInfo} (h : Sdk.parseAic U aic = some info) :
    info.body = join ((Registry.splitAic U aic).take 9) ∧
      info.checksum = (Registry.splitAic U aic).getD 9 [] := by
  unfold Sdk.parseAic at h
  split at h
  · cases h
  · next hvalid =>
    rw [not_not, isValidAicFormat_iff] at hvalid
    obtain rfl := Option.some.inj h
    rw [splitAic_eq]
    exact ⟨join_take_segments hvalid.count, rfl⟩

theorem parseAic_isSome (h : WellFormed (Registry.splitAic U aic) expectedPrefix) :
    (Sdk.parseAic U aic).isSome = true ↔
      (Registry.splitAic U aic).take 4 = aicPrefix.splitOn '.' := by
  have hvalid : (Sdk.parseAic U aic).isSome = true ↔
      WellFormed (Registry.splitAic U aic) aicPrefix := by
    rw [← isValidAicFormat_iff]
    unfold Sdk.parseAic
    split <;> simp_all
  rw [hvalid]
  constructor
  · intro hwell
    exact hwell.oidPrefix.resolve_left (by decide)
  · intro htake
    exact ⟨h.count, .inr htake, h.digits, h.segments⟩

theorem validate_eq_true (salt : List UInt8) :
    ((Sdk.AICValidator.mk (some salt)).validate U aic expectedPrefix false).map Prod.fst =
        .ok true ↔
      WellFormed (Registry.splitAic U aic) expectedPrefix ∧
        (Registry.splitAic U aic).take 4 = aicPrefix.splitOn '.' ∧
          Registry.calculateAicChecksum U (toHex salt) (join ((Registry.splitAic U aic).take 9)) =
            .ok ((Registry.splitAic U aic).getD 9 []) := by
  unfold Sdk.AICValidator.validate
  cases hformat : Sdk.validateAicFormat U aic expectedPrefix with
  | error e =>
    refine iff_of_false (by simp [Except.map]) fun h => ?_
    rw [(validateAicFormat_eq_ok U).mpr h.1] at hformat
    cases hformat
  | ok u =>
    have hwell := (validateAicFormat_eq_ok U).mp hformat
    rw [and_iff_right hwell, ← parseAic_isSome U hwell]
    dsimp only
    rw [if_neg (by simp)]
    cases hparse : Sdk.parseAic U aic with
    | none => exact iff_of_false (by simp [Except.map]) fun h => by simp at h
    | some info =>
      obtain ⟨hbody, hchecksum⟩ := parseAic_eq_some U hparse
      dsimp only
      rw [calculateChecksum_eq, hbody, hchecksum, and_iff_right Option.isSome_some]
      cases Registry.calculateAicChecksum U (toHex salt) (join ((Registry.splitAic U aic).take 9)) with
      | error e => exact iff_of_false (by simp [Except.map, bind, Except.bind]) (by simp)
      | ok crc =>
        change Except.map Prod.fst (if some crc ≠ some _ then _ else _) = _ ↔ _
        split <;> simp_all [Except.map, pure, Except.pure]

theorem verdicts_agree_iff (aic expectedPrefix : Text) (salt : List UInt8) :
    ((((Sdk.AICValidator.mk (some salt)).validate U aic expectedPrefix false).map Prod.fst =
        .ok true) ↔
      Registry.validateAic U (toHex salt) aic expectedPrefix = .ok true) ↔
    (Sdk.isValidAicFormat U aic expectedPrefix = false ∨
      Registry.calculateAicChecksum U (toHex salt) (join ((Registry.splitAic U aic).take 9)) ≠
        .ok ((Registry.splitAic U aic).getD 9 []) ∨
      (Registry.splitAic U aic).take 4 = aicPrefix.splitOn '.') := by
  rw [validate_eq_true, validateAic_eq_true, ← Bool.not_eq_true, isValidAicFormat_iff]
  tauto

end Verdict

theorem sdk_rejects_named_prefix :
    ¬ ((((Sdk.AICValidator.mk (some [0x12, 0x34])).validate asciiUpperCase
        "1.2.156.9999.1.A.B.C.0.07WV".toList "1.2.156.9999".toList false).map Prod.fst =
          .ok true) ↔
      Registry.validateAic asciiUpperCase (toHex [0x12, 0x34])
        "1.2.156.9999.1.A.B.C.0.07WV".toList "1.2.156.9999".toList = .ok true) := by
  repeat rw [String.toList_ofList]
  decide +kernel

end Acps.Aic
