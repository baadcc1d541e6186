import Acps.Aic.Agreement
import Acps.Lib.Delimited

/-!
What the registry issues: codes in normal form that it accepts, and entities that share the first
eight levels with their ontology.
-/

namespace Acps.Aic

open Numerals

section Joined

theorem join_cons_of_ne_nil (p : Text) {ps : List Text} (h : ps ≠ []) :
    join (p :: ps) = p ++ '.' :: join ps := by
  rw [join, List.intercalate_cons_of_ne_nil h, List.append_assoc]
  rfl

theorem join_append {ps qs : List Text} (hp : ps ≠ []) (hq : qs ≠ []) :
    join (ps ++ qs) = join ps ++ '.' :: join qs := by
  induction ps with
  | nil => exact absurd rfl hp
  | cons p ps ih =>
    by_cases hps : ps = []
    · subst hps
      rw [List.singleton_append, join_cons_of_ne_nil p hq]
      simp [join]
    · rw [List.cons_append, join_cons_of_ne_nil p hps, join_cons_of_ne_nil p (by simp [hps]),
        ih hps, List.append_assoc]
      rfl

theorem join_join_cons {ps : List Text} (hp : ps ≠ []) (qs : List Text) :
    join (join ps :: qs) = join (ps ++ qs) := by
  by_cases hq : qs = []
  · simp [hq, join]
  · rw [join_cons_of_ne_nil _ hq, join_append hp hq]

theorem mem_join {ps : List Text} {c : Char} (h : c ∈ join ps) : c = '.' ∨ ∃ p ∈ ps, c ∈ p :=
  Delimited.mem_intercalate h

theorem join_prefix_iff {ps qs : List Text} (hp : ps ≠ []) (hq : qs ≠ [])
    (hpdot : ∀ p ∈ ps, '.' ∉ p) (hqdot : ∀ q ∈ qs, '.' ∉ q) (hlength : ps.length < qs.length) :
    join ps ++ ['.'] <+: join qs ↔ qs.take ps.length = ps := by
  constructor
  · rintro ⟨rest, hrest⟩
    have hsplit : qs = ps ++ rest.splitOn '.' := by
      calc
        qs = (join qs).splitOn '.' := (List.splitOn_intercalate '.' hqdot hq).symm
        _ = (join ps ++ '.' :: rest).splitOn '.' := by rw [← hrest]; simp
        _ = (join ps).splitOn '.' ++ rest.splitOn '.' := List.splitOn_append_cons_self ..
        _ = ps ++ rest.splitOn '.' := by rw [join, List.splitOn_intercalate '.' hpdot hp]
    rw [hsplit, List.take_left]
  · intro htake
    have hdrop : qs.drop ps.length ≠ [] := by
      rw [← List.length_pos_iff, List.length_drop]
      omega
    refine ⟨join (qs.drop ps.length), ?_⟩
    rw [List.append_assoc]
    change join ps ++ '.' :: join (qs.drop ps.length) = _
    rw [← join_append hp hdrop]
    exact congrArg join ((congrArg (· ++ _) htake.symm).trans (List.take_append_drop ..))

end Joined

section Base36

theorem isBase36_cases {c : Char} (h : isBase36 c = true) :
    48 ≤ c.toNat ∧ c.toNat ≤ 57 ∨ 65 ≤ c.toNat ∧ c.toNat ≤ 90 := by
  simpa [isBase36, isDigit, Char.le_def, UInt32.le_iff_toNat_le] using h

theorem isBase36_mem {c : Char} (h : isBase36 c = true) : c ∈ base36Alphabet := by
  have hlt : c.toNat < 91 := by
    have := isBase36_cases h
    omega
  have hall : ∀ n < 91, isBase36 (Char.ofNat n) = true → Char.ofNat n ∈ base36Alphabet := by decide
  exact Char.ofNat_toNat c ▸ hall c.toNat hlt (by rwa [Char.ofNat_toNat])

theorem isBase36_digit : ∀ d < 36, isBase36 (base36Alphabet.getD d '0') = true := by
  decide +kernel

theorem not_wildcard_of_isBase36 {c : Char} (h : isBase36 c = true) : c ≠ '%' ∧ c ≠ '_' ∧ c ≠ '\\' := by
  have hall : base36Alphabet.all (fun c => c ≠ '%' ∧ c ≠ '_' ∧ c ≠ '\\') = true := by decide
  simpa only [decide_eq_true_eq] using List.all_eq_true.mp hall c (isBase36_mem h)

theorem isSpace_of_isBase36 {c : Char} (h : isBase36 c = true) : isSpace c = false := by
  have hall : base36Alphabet.all (fun c => !isSpace c) = true := by decide
  have hspace := List.all_eq_true.mp hall c (isBase36_mem h)
  simpa only [Bool.not_eq_true'] using hspace

theorem dot_not_mem {p : Text} (h : reBase36 p = true) : '.' ∉ p := by
  intro hdot
  have hall : p.all isBase36 = true := by simpa using (by simpa [reBase36] using h : _ ∧ _).2
  exact absurd (List.all_eq_true.mp hall '.' hdot) (by decide)

theorem reBase36_iff {p : Text} : reBase36 p = true ↔ p ≠ [] ∧ ∀ c ∈ p, isBase36 c = true := by
  simp [reBase36]

variable (U : UpperCase)

theorem normalizeAicText_fixed {s : Text} (h : ∀ c ∈ s, c = '.' ∨ isBase36 c = true) :
    Registry.normalizeAicText U s = s := by
  induction s with
  | nil => rfl
  | cons c s ih =>
    have hs := ih fun d hd => h d (List.mem_cons_of_mem _ hd)
    have hspace : isSpace c = false := by
      rcases h c (by simp) with rfl | hc
      · decide
      · exact isSpace_of_isBase36 hc
    have hupper : U.upper c = [c] := by
      rcases h c (by simp) with rfl | hc
      · exact U.upper_dot
      · exact U.upper_base36 c (isBase36_mem hc)
    unfold Registry.normalizeAicText at hs ⊢
    simp only [List.filter_cons, hspace, Bool.false_eq_true, not_false_eq_true, decide_true,
      if_true, List.flatMap_cons, hupper, List.singleton_append]
    exact congrArg (c :: ·) hs

theorem splitAic_join {ps : List Text} (hp : ps ≠ []) (h : ∀ p ∈ ps, reBase36 p = true) :
    Registry.splitAic U (join ps) = ps := by
  have hfixed : Registry.normalizeAicText U (join ps) = join ps := by
    apply normalizeAicText_fixed
    intro c hc
    rcases mem_join hc with hdot | ⟨p, hmem, hcp⟩
    · exact .inl hdot
    · exact .inr ((reBase36_iff.mp (h p hmem)).2 c hcp)
  have hsplit : (join ps).splitOn '.' = ps :=
    List.splitOn_intercalate '.' (fun p hmem => dot_not_mem (h p hmem)) hp
  have hne : join ps ≠ [] := by
    intro hnil
    rw [hnil, List.splitOn_nil] at hsplit
    exact absurd rfl (reBase36_iff.mp (h [] (hsplit ▸ by simp))).1
  have hany : ¬ ps.any (· = []) = true := by
    rw [List.any_eq_true]
    rintro ⟨p, hp, hnil⟩
    exact (reBase36_iff.mp (h p hp)).1 (of_decide_eq_true hnil)
  unfold Registry.splitAic
  rw [hfixed]
  dsimp only
  rw [if_neg hne, hsplit, if_neg hany]

theorem base36Encode_shape {n : ℕ} (hn : n < 36 ^ 4) :
    reBase36 (Sdk.base36Encode n 4) = true ∧ (Sdk.base36Encode n 4).length = 4 := by
  have hlength : (Sdk.base36Encode n 4).length = 4 := by
    unfold Sdk.base36Encode
    dsimp only
    rw [if_pos (by decide), List.length_leftpad, max_eq_left]
    split
    · decide
    · exact length_bigEndian_le _ (by decide) hn
  refine ⟨reBase36_iff.mpr ⟨?_, ?_⟩, hlength⟩
  · intro hnil
    rw [hnil] at hlength
    cases hlength
  · intro c hc
    unfold Sdk.base36Encode at hc
    dsimp only at hc
    rw [if_pos (by decide), List.leftpad, List.mem_append, List.mem_replicate] at hc
    rcases hc with ⟨_, rfl⟩ | hc
    · decide
    · split at hc
      · rw [List.mem_singleton.mp hc]
        decide
      · obtain ⟨d, hd, rfl⟩ := mem_bigEndian (by decide) hc
        exact isBase36_digit d hd

theorem checksum_shape {crcSalt body crc : Text}
    (h : Registry.calculateAicChecksum U crcSalt body = .ok crc) :
    reBase36 crc = true ∧ crc.length = 4 := by
  unfold Registry.calculateAicChecksum at h
  cases hdata : encodeAscii (Registry.normalizeAicText U body) with
  | error e =>
    rw [hdata] at h
    cases h
  | ok data =>
    rw [hdata] at h
    have hn := crc16_lt data (Registry.saltBytes crcSalt)
    obtain rfl := Except.ok.inj ((base36Encode_eq hn).symm.trans h)
    exact base36Encode_shape hn

end Base36

section Issue

variable (U : UpperCase) (crcSalt : Text)

structure Issued (aic : Text) : Prop where
  valid : Registry.validateAic U crcSalt aic aicPrefix = .ok true
  normal : join (Registry.splitAic U aic) = aic

def levels (aic : Text) : List Text := (Registry.splitAic U aic).take 8

structure Body (parts : List Text) : Prop where
  count : parts.length = 9
  oidPrefix : parts.take 4 = aicPrefix.splitOn '.'
  segments : ∀ c ∈ Sdk.segmentConstraints, c.1 ≤ 9 → reBase36 (parts.getD (c.1 - 1) []) = true ∧
    c.2.1 ≤ (parts.getD (c.1 - 1) []).length ∧ (parts.getD (c.1 - 1) []).length ≤ c.2.2

variable {U crcSalt} {parts : List Text} {crc : Text}

theorem splitOn_aicPrefix :
    aicPrefix.splitOn '.' = [['1'], ['2'], ['1', '5', '6'], ['3', '0', '8', '8']] := by decide

theorem Body.eq_prefix_append (h : Body parts) :
    ∃ ver arsp vendor ontologySerial instanceSerial,
      parts = aicPrefix.splitOn '.' ++ [ver, arsp, vendor, ontologySerial, instanceSerial] := by
  have hcount := h.count
  match parts, hcount with
  | [_, _, _, _, ver, arsp, vendor, ontologySerial, instanceSerial], _ =>
    exact ⟨ver, arsp, vendor, ontologySerial, instanceSerial, by rw [← h.oidPrefix]; rfl⟩

theorem Body.reBase36 (h : Body parts) : ∀ p ∈ parts, reBase36 p = true := by
  obtain ⟨ver, arsp, vendor, ontologySerial, instanceSerial, rfl⟩ := h.eq_prefix_append
  have hseg := fun c hc hle => (h.segments c hc hle).1
  rw [splitOn_aicPrefix] at hseg ⊢
  have h5 : Aic.reBase36 ver = true := hseg (5, 1, 1) (by decide) (by decide)
  have h6 : Aic.reBase36 arsp = true := hseg (6, 1, 6) (by decide) (by decide)
  have h7 : Aic.reBase36 vendor = true := hseg (7, 1, 6) (by decide) (by decide)
  have h8 : Aic.reBase36 ontologySerial = true := hseg (8, 1, 9) (by decide) (by decide)
  have h9 : Aic.reBase36 instanceSerial = true := hseg (9, 1, 9) (by decide) (by decide)
  simp [h5, h6, h7, h8, h9]
  decide

theorem Body.issued (h : Body parts)
    (hcrc : Registry.calculateAicChecksum U crcSalt (join parts) = .ok crc) :
    Issued U crcSalt (join (parts ++ [crc])) ∧
      Registry.splitAic U (join (parts ++ [crc])) = parts ++ [crc] := by
  obtain ⟨hcrcBase, hcrcLength⟩ := checksum_shape U hcrc
  have hsplit : Registry.splitAic U (join (parts ++ [crc])) = parts ++ [crc] := by
    apply splitAic_join U (by simp)
    intro p hp
    rcases List.mem_append.mp hp with hp | hp
    · exact h.reBase36 p hp
    · exact List.mem_singleton.mp hp ▸ hcrcBase
  have hcount := h.count
  have hleft : ∀ i < 9, (parts ++ [crc]).getD i [] = parts.getD i [] := by
    intro i hi
    rw [List.getD_eq_getElem?_getD, List.getElem?_append_left (hcount ▸ hi),
      ← List.getD_eq_getElem?_getD]
  have hlast : (parts ++ [crc]).getD 9 [] = crc := by
    rw [List.getD_eq_getElem?_getD, List.getElem?_append_right hcount.le, hcount]
    rfl
  have hdigits : ∀ i ∈ [0, 1, 2, 3], reDigits (parts.getD i []) = true := by
    obtain ⟨_, _, _, _, _, rfl⟩ := h.eq_prefix_append
    rw [splitOn_aicPrefix]
    simp only [List.forall_mem_cons]
    exact ⟨rfl, rfl, rfl, rfl, by simp⟩
  refine ⟨⟨(validateAic_eq_true U crcSalt).mpr ?_, congrArg join hsplit⟩, hsplit⟩
  rw [hsplit, List.take_left' hcount, hlast]
  refine ⟨⟨by simp [hcount], .inr ?_, ?_, ?_⟩, hcrc⟩
  · rw [← h.oidPrefix, List.length_take, hcount]
    exact List.take_append_of_le_length (by omega)
  · intro i hi
    rw [hleft i (by revert i; decide)]
    exact hdigits i hi
  · intro c hc
    by_cases hle : c.1 ≤ 9
    · rw [hleft (c.1 - 1) (by omega)]
      exact h.segments c hc hle
    · obtain rfl : c = (10, 4, 4) := by
        revert c
        decide
      change Aic.reBase36 ((parts ++ [crc]).getD 9 []) = true ∧
        4 ≤ ((parts ++ [crc]).getD 9 []).length ∧ ((parts ++ [crc]).getD 9 []).length ≤ 4
      rw [hlast]
      exact ⟨hcrcBase, hcrcLength.ge, hcrcLength.le⟩

theorem withChecksum_issued {text : Text} (h : Body parts) (htext : text = join parts) {aic : Text}
    (hok : Registry.withChecksum U crcSalt text = .ok aic) :
    Issued U crcSalt aic ∧ levels U aic = parts.take 8 := by
  subst htext
  unfold Registry.withChecksum at hok
  cases hcrc : Registry.calculateAicChecksum U crcSalt (join parts) with
  | error e =>
    rw [hcrc] at hok
    cases hok
  | ok crc =>
    rw [hcrc] at hok
    have haic : join (parts ++ [crc]) = aic := by
      rw [← Except.ok.inj hok]
      refine (join_join_cons ?_ [crc]).symm
      exact List.ne_nil_of_length_pos (by rw [h.count]; decide)
    obtain ⟨hissued, hsplit⟩ := h.issued hcrc
    rw [← haic]
    refine ⟨hissued, ?_⟩
    rw [levels, hsplit, List.take_append_of_le_length (by rw [h.count]; decide)]

theorem join_aicPrefix_cons (ps : List Text) :
    join (aicPrefix :: ps) = join (aicPrefix.splitOn '.' ++ ps) := by
  rw [← join_join_cons (List.splitOn_ne_nil _ _), join, join, join, List.intercalate_splitOn]

theorem length_pos_of_reBase36 {p : Text} (h : reBase36 p = true) : 1 ≤ p.length :=
  List.length_pos_iff.mpr (reBase36_iff.mp h).1

theorem body_of_levels {ver arsp vendor ontologySerial instanceSerial : Text}
    (hver : reBase36 ver = true ∧ ver.length = 1) (harsp : reBase36 arsp = true ∧ arsp.length ≤ 6)
    (hvendor : reBase36 vendor = true ∧ vendor.length ≤ 6)
    (hontology : reBase36 ontologySerial = true ∧ ontologySerial.length ≤ 9)
    (hinstance : reBase36 instanceSerial = true ∧ instanceSerial.length ≤ 9) :
    Body (aicPrefix.splitOn '.' ++ [ver, arsp, vendor, ontologySerial, instanceSerial]) := by
  rw [splitOn_aicPrefix]
  refine ⟨rfl, rfl, forall_segmentConstraints.mpr ⟨fun _ => ?_, fun _ => ?_, fun _ => ?_,
    fun _ => ?_, fun _ => ?_, fun hle => absurd hle (by decide)⟩⟩
  · exact ⟨hver.1, hver.2.ge, hver.2.le⟩
  · exact ⟨harsp.1, length_pos_of_reBase36 harsp.1, harsp.2⟩
  · exact ⟨hvendor.1, length_pos_of_reBase36 hvendor.1, hvendor.2⟩
  · exact ⟨hontology.1, length_pos_of_reBase36 hontology.1, hontology.2⟩
  · exact ⟨hinstance.1, length_pos_of_reBase36 hinstance.1, hinstance.2⟩

section Generators

variable {ver : Registry.ProtocolVersion} {arsp vendor : Registry.LevelCode}
  {ontologySerial instanceSerial : Registry.Serial} {aic : Text}

theorem protocolVersion_shape (p : Registry.ProtocolVersion) :
    reBase36 p.1 = true ∧ p.1.length = 1 := by
  have h : reBase36 p.1 = true ∧ p.1.length = 1 ∧ p.1 ≠ ['0'] := of_decide_eq_true p.2
  exact ⟨h.1, h.2.1⟩

theorem levelCode_shape (p : Registry.LevelCode) : reBase36 p.1 = true ∧ p.1.length ≤ 6 := by
  have h : reBase36 p.1 = true ∧ p.1.length ≤ 6 ∧ ¬ p.1.all (· = '0') := of_decide_eq_true p.2
  exact ⟨h.1, h.2.1⟩

theorem serial_shape (p : Registry.Serial) : reBase36 p.1 = true ∧ p.1.length ≤ 9 := by
  have h : reBase36 p.1 = true ∧ p.1.length ≤ 9 ∧ ¬ p.1.all (· = '0') := of_decide_eq_true p.2
  exact ⟨h.1, h.2.1⟩

theorem generateAic_issued
    (h : Registry.generateAic U crcSalt ver arsp vendor ontologySerial instanceSerial = .ok aic) :
    Issued U crcSalt aic :=
  (withChecksum_issued (body_of_levels (protocolVersion_shape ver) (levelCode_shape arsp)
    (levelCode_shape vendor) (serial_shape ontologySerial) (serial_shape instanceSerial))
    (join_aicPrefix_cons _) h).1

theorem generateOntologyAic_issued
    (h : Registry.generateOntologyAic U crcSalt ver arsp vendor ontologySerial = .ok aic) :
    Issued U crcSalt aic :=
  (withChecksum_issued (body_of_levels (protocolVersion_shape ver) (levelCode_shape arsp)
    (levelCode_shape vendor) (serial_shape ontologySerial) ⟨by decide, by decide⟩)
    (join_aicPrefix_cons _) h).1

theorem Issued.wellFormed (h : Issued U crcSalt aic) :
    WellFormed (Registry.splitAic U aic) aicPrefix := ((validateAic_eq_true U crcSalt).mp h.valid).1

theorem Issued.body (h : Issued U crcSalt aic) :
    ∃ parts crc, Registry.splitAic U aic = parts ++ [crc] ∧ Body parts ∧
      Registry.calculateAicChecksum U crcSalt (join parts) = .ok crc := by
  obtain ⟨hwell, hcrc⟩ := (validateAic_eq_true U crcSalt).mp h.valid
  generalize Registry.splitAic U aic = all at hwell hcrc
  have hcount := hwell.count
  match all, hcount with
  | [p₁, p₂, p₃, p₄, p₅, p₆, p₇, p₈, p₉, crc], _ =>
    refine ⟨[p₁, p₂, p₃, p₄, p₅, p₆, p₇, p₈, p₉], crc, rfl, ⟨rfl, ?_, ?_⟩, hcrc⟩
    · exact hwell.oidPrefix.resolve_left (by decide)
    · have hseg := forall_segmentConstraints.mp hwell.segments
      exact forall_segmentConstraints.mpr ⟨fun _ => hseg.1, fun _ => hseg.2.1,
        fun _ => hseg.2.2.1, fun _ => hseg.2.2.2.1, fun _ => hseg.2.2.2.2.1,
        fun hle => absurd hle (by decide)⟩

theorem Issued.reBase36 (h : Issued U crcSalt aic) :
    ∀ p ∈ Registry.splitAic U aic, reBase36 p = true := by
  obtain ⟨parts, crc, hsplit, hbody, hcrc⟩ := h.body
  intro p hp
  rcases List.mem_append.mp (hsplit ▸ hp) with hp | hp
  · exact hbody.reBase36 p hp
  · exact List.mem_singleton.mp hp ▸ (checksum_shape U hcrc).1

theorem Body.set_instance (h : Body parts) (serial : Registry.Serial) :
    Body (parts.set 8 serial.1) ∧ (parts.set 8 serial.1).take 8 = parts.take 8 := by
  obtain ⟨ver, arsp, vendor, ontologySerial, instanceSerial, rfl⟩ := h.eq_prefix_append
  have hseg := h.segments
  rw [splitOn_aicPrefix] at hseg
  have h5 := hseg (5, 1, 1) (by decide) (by decide)
  have h6 := hseg (6, 1, 6) (by decide) (by decide)
  have h7 := hseg (7, 1, 6) (by decide) (by decide)
  have h8 := hseg (8, 1, 9) (by decide) (by decide)
  have hbody : Body (aicPrefix.splitOn '.' ++ [ver, arsp, vendor, ontologySerial, serial.1]) :=
    body_of_levels ⟨h5.1, le_antisymm h5.2.2 h5.2.1⟩ ⟨h6.1, h6.2.2⟩ ⟨h7.1, h7.2.2⟩ ⟨h8.1, h8.2.2⟩
      (serial_shape serial)
  rw [splitOn_aicPrefix] at hbody ⊢
  exact ⟨hbody, rfl⟩

theorem Issued.isOntologyAic_ok (h : Issued U crcSalt aic) :
    ∃ b, Registry.isOntologyAic U crcSalt aic = .ok b := by
  unfold Registry.isOntologyAic
  rw [h.valid]
  exact ⟨_, rfl⟩

theorem generateEntityAic_issued {ontologyAic : Text} (hx : Issued U crcSalt ontologyAic)
    (h : Registry.generateEntityAicFromOntology U crcSalt ontologyAic instanceSerial =
      .ok (some aic)) :
    Issued U crcSalt aic ∧ levels U aic = levels U ontologyAic := by
  obtain ⟨parts, crc, hsplit, hbody, _⟩ := hx.body
  obtain ⟨hbody', htake⟩ := hbody.set_instance instanceSerial
  have hset : (parts ++ [crc]).set 8 instanceSerial.1 = parts.set 8 instanceSerial.1 ++ [crc] :=
    List.set_append_left _ _ (by rw [hbody.count]; decide)
  have hset' (crc' : Text) : (parts.set 8 instanceSerial.1 ++ [crc]).set 9 crc' =
      parts.set 8 instanceSerial.1 ++ [crc'] := by
    rw [List.set_append_right _ _ hbody'.count.le, hbody'.count]
    rfl
  unfold Registry.generateEntityAicFromOntology at h
  obtain ⟨b, hb⟩ := hx.isOntologyAic_ok
  rw [hb, hsplit] at h
  cases b with
  | false => cases h
  | true =>
    dsimp only [bind, Except.bind] at h
    rw [if_pos rfl, hset, List.take_left' hbody'.count] at h
    cases hcrc : Registry.calculateAicChecksum U crcSalt
        (join (parts.set 8 instanceSerial.1)) with
    | error e =>
      rw [hcrc] at h
      cases h
    | ok crc' =>
      rw [hcrc] at h
      dsimp only at h
      rw [hset'] at h
      obtain ⟨hissued, hsplit'⟩ := hbody'.issued hcrc
      obtain rfl := Option.some.inj (Except.ok.inj h)
      refine ⟨hissued, ?_⟩
      rw [levels, levels, hsplit', hsplit,
        List.take_append_of_le_length (by rw [hbody'.count]; decide),
        List.take_append_of_le_length (by rw [hbody.count]; decide), htake]

theorem Issued.derivedLikePrefix (h : Issued U crcSalt aic) :
    Registry.getDerivedEntityLikePrefix U crcSalt aic =
      .ok (some (join (levels U aic) ++ ['.'])) := by
  unfold Registry.getDerivedEntityLikePrefix
  rw [h.valid]
  rfl

theorem Issued.length_levels (h : Issued U crcSalt aic) : (levels U aic).length = 8 := by
  rw [levels, List.length_take, h.wellFormed.count]
  rfl

theorem Issued.levels_prefix_iff {other : Text} (h : Issued U crcSalt aic)
    (hother : Issued U crcSalt other) :
    join (levels U aic) ++ ['.'] <+: other ↔ levels U other = levels U aic := by
  have hlength := h.length_levels
  have hcount := hother.wellFormed.count
  have hdot : ∀ p ∈ levels U aic, '.' ∉ p := fun p hp =>
    dot_not_mem (h.reBase36 p (List.mem_of_mem_take hp))
  have hiff := join_prefix_iff (List.ne_nil_of_length_pos (by rw [hlength]; decide))
    (List.ne_nil_of_length_pos (by rw [hcount]; decide)) hdot
    (fun q hq => dot_not_mem (hother.reBase36 q hq)) (by rw [hlength, hcount]; decide)
  rw [hother.normal, hlength] at hiff
  exact hiff

end Generators

end Issue

end Acps.Aic
