import Acps.Aic.ErrorDetection
import Acps.Lib.Fallible
import Acps.Lib.LikePattern

/-!
Codes of ontologies from the codes of managers and providers, codes of entities from those, and the
way back to the ontology.
-/

namespace Acps.Aic.Registry

open Numerals

abbrev SerialLen := { n : ℕ // 1 ≤ n ∧ n ≤ 9 }

structure AicSettings where
  protocolVersion : ProtocolVersion
  ontologySerialLen : SerialLen
  instanceSerialLen : SerialLen

structure SerialSource where
  blake2b : List UInt8 → List UInt8
  msInYear : ℕ

def strip (value : Text) : Text := ((value.dropWhile isSpace).reverse.dropWhile isSpace).reverse

def validateAicSerialLen (value : ℤ) (name : String) : Except PyError SerialLen :=
  if h : 1 ≤ value.toNat ∧ value.toNat ≤ 9 then .ok ⟨value.toNat, h⟩
  else .error (.valueError (name ++ " 必须在 1～9 之间"))

def resolveSerialLen (fallback : SerialLen) (value : Option ℤ) (name : String) :
    Except PyError SerialLen := value.elim (.ok fallback) (validateAicSerialLen · name)

def serialFromMsWithSalt (S : SerialSource) (salt kind : List UInt8) (length : ℕ) :
    Except PyError Text :=
  let msBytes := (List.range 8).map fun i => UInt8.ofNat (S.msInYear / 256 ^ (7 - i))
  let digest := S.blake2b (kind ++ msBytes ++ salt)
  let val := digest.foldl (fun n b => 256 * n + b.toNat) 0
  (base36Encode val length).map fun s36 =>
    if s36.length > length then s36.drop (s36.length - length) else s36

def generateNonzeroBase36 (S : SerialSource) (kind : List UInt8) (length : ℕ) :
    List (List UInt8) → Option (Except PyError Text)
  | [] => none
  | salt :: salts =>
    match serialFromMsWithSalt S salt kind length with
    | .error e => some (.error e)
    | .ok serial =>
      if serial.all (· = '0') then generateNonzeroBase36 S kind length salts else some (.ok serial)

section

variable (U : UpperCase)

def normalizeAicProtocolVersion (value : Text) : Except PyError ProtocolVersion :=
  let normalized := (strip value).flatMap U.upper
  if h : reAicProtocolVersion normalized = true then .ok ⟨normalized, h⟩
  else .error (.valueError "AIC 第5级版本号必须是 1 位 Base36（1-9/A-Z）")

def resolveProtocolVersion (settings : AicSettings) (value : Option Text) :
    Except PyError ProtocolVersion :=
  value.elim (.ok settings.protocolVersion) (normalizeAicProtocolVersion U)

def validateBase36Segment (name : String) (value : Text) (minLen maxLen : ℕ) : Except PyError Text :=
  let v := normalizeAicText U value
  if v = [] then .error (.valueError (name ++ " 不能为空"))
  else if ¬ reBase36 v then .error (.valueError (name ++ " 必须仅包含 0-9 与 A-Z"))
  else if ¬ (minLen ≤ v.length ∧ v.length ≤ maxLen) then
    .error (.valueError (name ++ " 长度必须在 " ++ minLen.repr ++ "~" ++ maxLen.repr ++ " 之间"))
  else .ok v

structure OntologyRequest where
  protocolVersion : Option Text
  managerCode : Text
  providerCode : Text
  ontologySerialLen : Option ℤ
  instanceSerialLen : Option ℤ

def OntologyRequest.check (settings : AicSettings) (request : OntologyRequest) :
    Except PyError (ProtocolVersion × Text × Text × SerialLen) := do
  let ver ← resolveProtocolVersion U settings request.protocolVersion
  let arsp ← validateBase36Segment U "manager_code" request.managerCode 1 6
  let vendor ← validateBase36Segment U "provider_code" request.providerCode 1 6
  let _ ← resolveSerialLen settings.instanceSerialLen request.instanceSerialLen "instance_serial_len"
  let length ← resolveSerialLen settings.ontologySerialLen request.ontologySerialLen
    "ontology_serial_len"
  return (ver, arsp, vendor, length)

def generateOntologyAicFromCodes (crcSalt : Text) (settings : AicSettings) (S : SerialSource)
    (request : OntologyRequest) (salts : List (List UInt8)) : Option (Except PyError Text) :=
  match request.check U settings with
  | .error e => some (.error e)
  | .ok (ver, arsp, vendor, length) =>
    (generateNonzeroBase36 S "ONT".toUTF8.toList length.1 salts).map fun drawn => do
      let ontologySerial ← drawn
      withChecksum U crcSalt (join [aicPrefix, ver.1, arsp, vendor, ontologySerial, ['0']])

def deriveEntityAic (crcSalt : Text) (settings : AicSettings) (S : SerialSource)
    (ontologyAic : Text) (instanceSerialLen : Option ℤ) (salts : List (List UInt8)) :
    Option (Except PyError (Option Text)) :=
  match isOntologyAic U crcSalt ontologyAic with
  | .error e => some (.error e)
  | .ok false => some (.ok none)
  | .ok true =>
    match resolveSerialLen settings.instanceSerialLen instanceSerialLen "instance_serial_len" with
    | .error e => some (.error e)
    | .ok length =>
      (generateNonzeroBase36 S "ENT".toUTF8.toList length.1 salts).map fun drawn => do
        let serial ← drawn
        let parts := (splitAic U ontologyAic).set 8 serial
        let crc ← calculateAicChecksum U crcSalt (join (parts.take 9))
        return some (join (parts.set 9 crc))

def getOntologyAicFromEntity (crcSalt entityAic : Text) : Except PyError (Option Text) := do
  if ← validateAic U crcSalt entityAic aicPrefix then
    let parts := (splitAic U entityAic).set 8 ['0']
    let crc ← calculateAicChecksum U crcSalt (join (parts.take 9))
    return some (join (parts.set 9 crc))
  else return none

end

end Acps.Aic.Registry

namespace Acps.Aic

open Numerals Registry

section Serials

theorem base36Encode_serial {num length : ℕ} {encoded : Text} (hlength : 1 ≤ length)
    (h : base36Encode num length = .ok encoded) :
    (∀ c ∈ encoded, isBase36 c = true) ∧ encoded.length = length := by
  have hpad {s : Text} (hs : ∀ c ∈ s, isBase36 c = true) (hle : s.length ≤ length) :
      (∀ c ∈ s.leftpad length '0', isBase36 c = true) ∧ (s.leftpad length '0').length = length := by
    refine ⟨fun c hc => ?_, by rw [List.length_leftpad, max_eq_left hle]⟩
    rcases mem_leftpad hc with rfl | hc
    · decide
    · exact hs c hc
  unfold base36Encode at h
  rw [if_neg (by omega)] at h
  split at h
  · obtain rfl := Except.ok.inj h
    have hzero : ∀ c ∈ ['0'], isBase36 c = true := by
      intro c hc
      rw [List.mem_singleton.mp hc]
      decide
    exact hpad hzero hlength
  · obtain rfl := Except.ok.inj h
    have hdigits : ∀ c ∈ bigEndian 36 (base36Alphabet.getD · '0') num, isBase36 c = true := by
      intro c hc
      obtain ⟨d, hd, rfl⟩ := mem_bigEndian (by decide) hc
      exact isBase36_digit d hd
    split
    · refine hpad (fun c hc => hdigits c (List.mem_of_mem_drop hc)) ?_
      rw [List.length_drop]
      omega
    · exact hpad hdigits (by omega)

theorem serialFromMsWithSalt_shape {S : SerialSource} {salt kind : List UInt8} {length : ℕ}
    {serial : Text} (hlength : 1 ≤ length)
    (h : serialFromMsWithSalt S salt kind length = .ok serial) :
    (∀ c ∈ serial, isBase36 c = true) ∧ serial.length = length := by
  unfold serialFromMsWithSalt at h
  dsimp only at h
  cases hencoded : base36Encode ((S.blake2b (kind ++ (List.range 8).map
      (fun i => UInt8.ofNat (S.msInYear / 256 ^ (7 - i))) ++ salt)).foldl
      (fun n b => 256 * n + b.toNat) 0) length with
  | error e =>
    rw [hencoded] at h
    cases h
  | ok encoded =>
    rw [hencoded] at h
    obtain ⟨hbase, hlen⟩ := base36Encode_serial hlength hencoded
    obtain rfl := Except.ok.inj h
    dsimp only
    rw [if_neg hlen.le.not_gt]
    exact ⟨hbase, hlen⟩

theorem generateNonzeroBase36_serial {S : SerialSource} {kind : List UInt8} {length : SerialLen}
    {salts : List (List UInt8)} {serial : Text}
    (h : generateNonzeroBase36 S kind length.1 salts = some (.ok serial)) :
    isSerial serial = true := by
  induction salts with
  | nil => cases h
  | cons salt salts ih =>
    rw [generateNonzeroBase36] at h
    cases hdrawn : serialFromMsWithSalt S salt kind length.1 with
    | error e =>
      rw [hdrawn] at h
      cases Option.some.inj h
    | ok drawn =>
      rw [hdrawn] at h
      dsimp only at h
      split at h
      · exact ih h
      next hzero =>
        obtain rfl := Except.ok.inj (Option.some.inj h)
        obtain ⟨hbase, hlength⟩ := serialFromMsWithSalt_shape length.2.1 hdrawn
        have hne : drawn ≠ [] := by
          rintro rfl
          have hpos := length.2.1
          rw [← hlength] at hpos
          cases hpos
        exact decide_eq_true ⟨reBase36_iff.mpr ⟨hne, hbase⟩, hlength ▸ length.2.2, hzero⟩

end Serials

section Segments

theorem validateBase36Segment_shape {U : UpperCase} {name : String} {value v : Text}
    {minLen maxLen : ℕ} (h : validateBase36Segment U name value minLen maxLen = .ok v) :
    reBase36 v = true ∧ v.length ≤ maxLen := by
  unfold validateBase36Segment at h
  dsimp only at h
  split_ifs at h with hnil hbase hlength
  obtain rfl := Except.ok.inj h
  exact ⟨hbase, hlength.2⟩

def ontologyLevels (ver : ProtocolVersion) (arsp vendor ontologySerial : Text) : List Text :=
  aicPrefix.splitOn '.' ++ [ver.1, arsp, vendor, ontologySerial, ['0']]

theorem check_shape {U : UpperCase} {settings : AicSettings} {request : OntologyRequest}
    {ver : ProtocolVersion} {arsp vendor : Text} {length : SerialLen}
    (h : request.check U settings = .ok (ver, arsp, vendor, length)) :
    (reBase36 arsp = true ∧ arsp.length ≤ 6) ∧ reBase36 vendor = true ∧ vendor.length ≤ 6 := by
  unfold OntologyRequest.check at h
  obtain ⟨_, _, h⟩ := Fallible.bind_eq_ok.mp h
  obtain ⟨arsp', harsp, h⟩ := Fallible.bind_eq_ok.mp h
  obtain ⟨vendor', hvendor, h⟩ := Fallible.bind_eq_ok.mp h
  obtain ⟨_, _, h⟩ := Fallible.bind_eq_ok.mp h
  obtain ⟨_, _, h⟩ := Fallible.bind_eq_ok.mp h
  obtain ⟨-, rfl, rfl, -⟩ : _ ∧ arsp' = arsp ∧ vendor' = vendor ∧ _ := by
    have hsame := Fallible.pure_eq_ok.mp h
    simpa only [Prod.mk.injEq] using hsame
  exact ⟨validateBase36Segment_shape harsp, validateBase36Segment_shape hvendor⟩

end Segments

section Derived

variable {U : UpperCase} {crcSalt : Text} {settings : AicSettings} {parts : List Text}
  {crc aic : Text}

theorem withChecksum_eq {text : Text} (hne : parts ≠ []) (htext : text = join parts)
    (h : withChecksum U crcSalt text = .ok aic) :
    ∃ crc, calculateAicChecksum U crcSalt (join parts) = .ok crc ∧ aic = join (parts ++ [crc]) := by
  subst htext
  unfold withChecksum at h
  obtain ⟨crc, hcrc, h⟩ := Fallible.bind_eq_ok.mp h
  exact ⟨crc, hcrc, (Fallible.pure_eq_ok.mp h).symm.trans (join_join_cons hne [crc])⟩

theorem generateOntologyAic_eq {S : SerialSource} {request : OntologyRequest}
    {salts : List (List UInt8)}
    (h : generateOntologyAicFromCodes U crcSalt settings S request salts = some (.ok aic)) :
    ∃ ver arsp vendor ontologySerial crc,
      Body (ontologyLevels ver arsp vendor ontologySerial) ∧
      calculateAicChecksum U crcSalt (join (ontologyLevels ver arsp vendor ontologySerial)) =
        .ok crc ∧ aic = join (ontologyLevels ver arsp vendor ontologySerial ++ [crc]) := by
  unfold generateOntologyAicFromCodes at h
  split at h
  · cases Option.some.inj h
  next ver arsp vendor length hcheck =>
    obtain ⟨drawn, hdrawn, hmade⟩ := Option.map_eq_some_iff.mp h
    obtain ⟨ontologySerial, rfl, hmade⟩ := Fallible.bind_eq_ok.mp hmade
    obtain ⟨harsp, hvendor⟩ := check_shape hcheck
    have hserial := serial_shape ⟨ontologySerial, generateNonzeroBase36_serial hdrawn⟩
    have hbody : Body (ontologyLevels ver arsp vendor ontologySerial) :=
      body_of_levels (protocolVersion_shape ver) harsp hvendor hserial ⟨by decide, by decide⟩
    obtain ⟨crc, hcrc, haic⟩ := withChecksum_eq (List.append_ne_nil_of_right_ne_nil _ (List.cons_ne_nil _ _))
      (join_aicPrefix_cons _) hmade
    exact ⟨ver, arsp, vendor, ontologySerial, crc, hbody, hcrc, haic⟩

theorem set_last_levels {ver : ProtocolVersion} {arsp vendor ontologySerial : Text}
    (serial crc crc' : Text) :
    let parts := ontologyLevels ver arsp vendor ontologySerial
    ((parts ++ [crc]).set 8 serial).take 9 = parts.set 8 serial ∧
      ((parts ++ [crc]).set 8 serial).set 9 crc' = parts.set 8 serial ++ [crc'] ∧
      (parts.set 8 serial).set 8 ['0'] = parts := by
  unfold ontologyLevels
  rw [splitOn_aicPrefix]
  exact ⟨rfl, rfl, rfl⟩

theorem Body.isOntologyAic (hbody : Body parts)
    (hcrc : calculateAicChecksum U crcSalt (join parts) = .ok crc) :
    Registry.isOntologyAic U crcSalt (join (parts ++ [crc])) =
      .ok ((parts.getD 8 []).all (· = '0')) := by
  obtain ⟨hissued, hsplit⟩ := hbody.issued hcrc
  have hbase := (hbody.segments (9, 1, 9) (by decide) (by decide)).1
  have hserial : (parts ++ [crc]).getD 8 [] = parts.getD 8 [] := by
    rw [List.getD_eq_getElem?_getD, List.getElem?_append_left (by rw [hbody.count]; decide),
      ← List.getD_eq_getElem?_getD]
  have hcount : (parts ++ [crc]).length = 10 := by rw [List.length_append, hbody.count]; rfl
  unfold Registry.isOntologyAic getInstanceSerial
  rw [hissued.valid, hsplit]
  dsimp only [bind, Except.bind]
  rw [if_pos rfl, if_neg (not_not.mpr hcount), hserial]
  refine congrArg Except.ok ?_
  have hne : parts.getD 8 [] ≠ [] := (reBase36_iff.mp hbase).1
  rw [Option.any_some, Bool.decide_and, decide_eq_true hne, Bool.true_and, Bool.decide_eq_true]

theorem deriveEntityAic_eq {S : SerialSource} {ver : ProtocolVersion}
    {arsp vendor ontologySerial entity : Text} {instanceSerialLen : Option ℤ}
    {salts : List (List UInt8)} (hbody : Body (ontologyLevels ver arsp vendor ontologySerial))
    (hcrc : calculateAicChecksum U crcSalt (join (ontologyLevels ver arsp vendor ontologySerial)) =
      .ok crc)
    (h : deriveEntityAic U crcSalt settings S
      (join (ontologyLevels ver arsp vendor ontologySerial ++ [crc])) instanceSerialLen salts =
        some (.ok (some entity))) :
    ∃ (serial : Serial) (crc' : Text), calculateAicChecksum U crcSalt
        (join ((ontologyLevels ver arsp vendor ontologySerial).set 8 serial.1)) = .ok crc' ∧
      entity = join ((ontologyLevels ver arsp vendor ontologySerial).set 8 serial.1 ++ [crc']) := by
  have hsplit := (hbody.issued hcrc).2
  unfold deriveEntityAic at h
  split at h
  · cases Option.some.inj h
  · cases Except.ok.inj (Option.some.inj h)
  · split at h
    · cases Option.some.inj h
    · obtain ⟨drawn, hdrawn, hmade⟩ := Option.map_eq_some_iff.mp h
      obtain ⟨serial, rfl, hchecked⟩ := Fallible.bind_eq_ok.mp hmade
      dsimp only at hchecked
      obtain ⟨crc', hcrc', hentity⟩ := Fallible.bind_eq_ok.mp hchecked
      obtain rfl := Option.some.inj (Fallible.pure_eq_ok.mp hentity)
      obtain ⟨htake, hset, -⟩ := @set_last_levels ver arsp _ _ serial crc crc'
      refine ⟨⟨serial, generateNonzeroBase36_serial hdrawn⟩, crc', ?_, ?_⟩
      · rwa [hsplit, htake] at hcrc'
      · rw [hsplit, hset]

theorem Body.getOntologyAicFromEntity (hbody : Body parts)
    (hcrc : calculateAicChecksum U crcSalt (join parts) = .ok crc) {crc' : Text}
    (hcrc' : calculateAicChecksum U crcSalt (join (parts.set 8 ['0'])) = .ok crc') :
    Registry.getOntologyAicFromEntity U crcSalt (join (parts ++ [crc])) =
      .ok (some (join (parts.set 8 ['0'] ++ [crc']))) := by
  obtain ⟨hissued, hsplit⟩ := hbody.issued hcrc
  have hset : (parts ++ [crc]).set 8 ['0'] = parts.set 8 ['0'] ++ [crc] :=
    List.set_append_left _ _ (by rw [hbody.count]; decide)
  have hcount : (parts.set 8 ['0']).length = 9 := by rw [List.length_set, hbody.count]
  have hset' : (parts.set 8 ['0'] ++ [crc]).set 9 crc' = parts.set 8 ['0'] ++ [crc'] := by
    rw [List.set_append_right _ _ hcount.le, hcount]
    rfl
  unfold Registry.getOntologyAicFromEntity
  rw [hissued.valid, hsplit]
  dsimp only [bind, Except.bind]
  rw [if_pos rfl, hset, List.take_left' hcount, hcrc']
  dsimp only
  rw [hset']
  rfl

end Derived

section Pattern

variable {U : UpperCase} {crcSalt ontology other : Text}

def writtenLevels (aic : Text) : List Text := (aic.splitOn '.').take 8

theorem plain_levels (h : Issued U crcSalt ontology) : Plain (join (levels U ontology)) := by
  intro c hc
  rcases mem_join hc with hdot | ⟨p, hp, hcp⟩
  · exact .inl hdot
  · exact .inr ((reBase36_iff.mp (h.reBase36 p (List.mem_of_mem_take hp))).2 c hcp)

theorem not_special_of_base36 {c : Char} (h : c = '.' ∨ isBase36 c = true) :
    c ∉ LikePattern.specials := by
  rcases h with rfl | h
  · decide
  · obtain ⟨hpercent, hunderscore, hbackslash⟩ := not_wildcard_of_isBase36 h
    simp [LikePattern.specials, hpercent, hunderscore, hbackslash]

theorem not_accepted_of_levels (h : Issued U crcSalt ontology) :
    Registry.validateAic U crcSalt (join (levels U ontology)) aicPrefix ≠ .ok true := by
  intro hvalid
  have hcount := ((validateAic_eq_true U crcSalt).mp hvalid).1.count
  have hne : levels U ontology ≠ [] :=
    List.ne_nil_of_length_pos (by rw [h.length_levels]; decide)
  rw [splitAic_join U hne fun p hp => h.reBase36 p (List.mem_of_mem_take hp), h.length_levels] at hcount
  cases hcount

theorem like_levels_iff (h : Issued U crcSalt ontology)
    (hother : Registry.validateAic U crcSalt other aicPrefix = .ok true) :
    LikePattern.like (join (levels U ontology) ++ ['.'] ++ ['%']) other = true ↔
      writtenLevels other = levels U ontology := by
  have hplain : LikePattern.Plain (join (levels U ontology) ++ ['.']) := by
    intro c hc
    apply not_special_of_base36
    rcases List.mem_append.mp hc with hc | hc
    · exact plain_levels h c hc
    · exact .inl (List.mem_singleton.mp hc)
  have hne : levels U ontology ≠ [] :=
    List.ne_nil_of_length_pos (by rw [h.length_levels]; decide)
  have hdots : ∀ p ∈ levels U ontology, '.' ∉ p := fun p hp =>
    dot_not_mem (h.reBase36 p (List.mem_of_mem_take hp))
  have hjoin : join (other.splitOn '.') = other := List.intercalate_splitOn '.'
  rw [LikePattern.like_prefix hplain, writtenLevels]
  constructor
  · rintro ⟨rest, hrest⟩
    have hwritten : other.splitOn '.' = levels U ontology ++ rest.splitOn '.' := by
      rw [← hrest, List.append_assoc, List.singleton_append, List.splitOn_append_cons_self, join,
        List.splitOn_intercalate '.' hdots hne]
    rw [hwritten, List.take_left' h.length_levels]
  · intro htake
    have hlong : 8 < (other.splitOn '.').length := by
      by_contra hshort
      rw [List.take_of_length_le (by omega)] at htake
      rw [← hjoin, htake] at hother
      exact not_accepted_of_levels h hother
    have hdrop : (other.splitOn '.').drop 8 ≠ [] := by
      rw [← List.length_pos_iff, List.length_drop]
      omega
    refine ⟨join ((other.splitOn '.').drop 8), ?_⟩
    rw [List.append_assoc, List.singleton_append, ← join_append hne hdrop, ← htake,
      List.take_append_drop, hjoin]

end Pattern

section Consistent

variable {U : UpperCase} {crcSalt : Text} {settings : AicSettings} {aic : Text}

structure Consistent (U : UpperCase) (crcSalt : Text) (settings : AicSettings) (ontology : Text) :
    Prop where
  accepted : Registry.validateAic U crcSalt ontology aicPrefix = .ok true
  isOntology : Registry.isOntologyAic U crcSalt ontology = .ok true
  entities : ∀ (S : SerialSource) (instanceSerialLen : Option ℤ) (salts : List (List UInt8))
    (entity : Text),
    deriveEntityAic U crcSalt settings S ontology instanceSerialLen salts = some (.ok (some entity)) →
      Registry.validateAic U crcSalt entity aicPrefix = .ok true ∧
        levels U entity = levels U ontology ∧
        Registry.isOntologyAic U crcSalt entity = .ok false ∧
        Registry.getOntologyAicFromEntity U crcSalt entity = .ok (some ontology)
  pattern : ∃ likePrefix,
    Registry.getDerivedEntityLikePrefix U crcSalt ontology = .ok (some likePrefix) ∧
      ∀ other, Registry.validateAic U crcSalt other aicPrefix = .ok true →
        (LikePattern.like (likePrefix ++ ['%']) other = true ↔
          writtenLevels other = writtenLevels ontology)

theorem writtenLevels_of_issued (h : Issued U crcSalt aic) : writtenLevels aic = levels U aic := by
  have hne : Registry.splitAic U aic ≠ [] :=
    List.ne_nil_of_length_pos (by rw [h.wellFormed.count]; decide)
  have hdots : ∀ p ∈ Registry.splitAic U aic, '.' ∉ p := fun p hp => dot_not_mem (h.reBase36 p hp)
  rw [writtenLevels, levels]
  conv_lhs => rw [← h.normal, join, List.splitOn_intercalate '.' hdots hne]

theorem consistent_of_levels {ver : ProtocolVersion} {arsp vendor ontologySerial crc : Text}
    (hbody : Body (ontologyLevels ver arsp vendor ontologySerial))
    (hcrc : calculateAicChecksum U crcSalt (join (ontologyLevels ver arsp vendor ontologySerial)) =
      .ok crc) :
    Consistent U crcSalt settings (join (ontologyLevels ver arsp vendor ontologySerial ++ [crc])) := by
  obtain ⟨hissued, hsplit⟩ := hbody.issued hcrc
  refine ⟨hissued.valid, ?_, ?_, _, hissued.derivedLikePrefix, fun other hother => ?_⟩
  · rw [hbody.isOntologyAic hcrc, ontologyLevels, splitOn_aicPrefix]
    rfl
  · intro S instanceSerialLen salts entity hentity
    obtain ⟨serial, crc', hcrc', rfl⟩ := deriveEntityAic_eq hbody hcrc hentity
    obtain ⟨hbody', htake⟩ := hbody.set_instance serial
    obtain ⟨hissued', hsplit'⟩ := hbody'.issued hcrc'
    refine ⟨hissued'.valid, ?_, ?_, ?_⟩
    · rw [levels, levels, hsplit, hsplit', List.take_append_of_le_length (by rw [hbody'.count]; decide),
        List.take_append_of_le_length (by rw [hbody.count]; decide), htake]
    · have hserial : ((ontologyLevels ver arsp vendor ontologySerial).set 8 serial.1).getD 8 [] =
          serial.1 := by
        rw [ontologyLevels, splitOn_aicPrefix]
        rfl
      have hnonzero : serial.1.all (· = '0') = false := by
        have hshape : Aic.reBase36 serial.1 = true ∧ serial.1.length ≤ 9 ∧ ¬ serial.1.all (· = '0') :=
          of_decide_eq_true serial.2
        exact Bool.eq_false_iff.mpr hshape.2.2
      rw [hbody'.isOntologyAic hcrc', hserial, hnonzero]
    · obtain ⟨-, -, hback⟩ := @set_last_levels ver arsp vendor ontologySerial serial.1 crc crc'
      have hparent : calculateAicChecksum U crcSalt (join (((ontologyLevels ver arsp vendor
          ontologySerial).set 8 serial.1).set 8 ['0'])) = .ok crc := by
        rw [hback]
        exact hcrc
      rw [hbody'.getOntologyAicFromEntity hcrc' hparent, hback]
  · rw [writtenLevels_of_issued hissued]
    exact like_levels_iff hissued hother

theorem generated_ontology_consistent (U : UpperCase) (crcSalt : Text) (settings : AicSettings)
    (S : SerialSource) (request : OntologyRequest) (salts : List (List UInt8)) {ontology : Text}
    (h : generateOntologyAicFromCodes U crcSalt settings S request salts = some (.ok ontology)) :
    Consistent U crcSalt settings ontology := by
  obtain ⟨ver, arsp, vendor, ontologySerial, crc, hbody, hcrc, rfl⟩ := generateOntologyAic_eq h
  exact consistent_of_levels hbody hcrc

end Consistent

namespace Sample

theorem six_serialLen : 1 ≤ 6 ∧ 6 ≤ 9 := by decide

theorem one_version : reAicProtocolVersion ['1'] = true := by decide

def aicSettings : AicSettings where
  protocolVersion := ⟨['1'], one_version⟩
  ontologySerialLen := ⟨6, six_serialLen⟩
  instanceSerialLen := ⟨6, six_serialLen⟩

def serialSource : SerialSource where
  blake2b _ := [158, 245, 74, 131, 100, 183, 123, 226, 42, 12, 20, 254, 175, 255, 98, 203]
  msInYear := 0

def request : OntologyRequest where
  protocolVersion := none
  managerCode := [' ', 'a', '1']
  providerCode := ['0', '7']
  ontologySerialLen := none
  instanceSerialLen := none

end Sample

theorem sample_ontology_consistent :
    Consistent asciiUpperCase "1234".toList Sample.aicSettings
      "1.2.156.3088.1.A1.07.HOAHFV.0.0V9S".toList := by
  refine generated_ontology_consistent asciiUpperCase _ _ Sample.serialSource Sample.request
    [List.replicate 8 0] ?_
  repeat rw [String.toList_ofList]
  decide +kernel

end Acps.Aic
