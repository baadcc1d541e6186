import Acps.Aic.Text

/-!
Agent identity codes as the SDK checks and parses them.
-/

namespace Acps.Aic.Sdk

open Numerals

def base36Encode (num length : ℕ) : Text :=
  let encoded := if num = 0 then ['0'] else bigEndian 36 (base36Alphabet.getD · '0') num
  if length > 0 then encoded.leftpad length '0' else encoded

def crcBit (crc : ℕ) : ℕ :=
  if crc &&& 0x8000 ≠ 0 then ((crc <<< 1) ^^^ 0x1021) &&& 0xFFFF else (crc <<< 1) &&& 0xFFFF

def crc16CcittFalse (data : List UInt8) : ℕ :=
  data.foldl (fun crc b => crcBit^[8] (crc ^^^ ((b.toNat <<< 8) &&& 0xFFFF))) 0xFFFF &&& 0xFFFF

def segmentConstraints : List (ℕ × ℕ × ℕ) :=
  [(5, 1, 1), (6, 1, 6), (7, 1, 6), (8, 1, 9), (9, 1, 9), (10, 4, 4)]

structure AICInfo where
  raw : Text
  normalized : Text
  oidPrefix : Text
  version : Text
  arsp : Text
  vendor : Text
  ontologySerial : Text
  instanceSerial : Text
  checksum : Text

def AICInfo.body (info : AICInfo) : Text :=
  join [info.oidPrefix, info.version, info.arsp, info.vendor, info.ontologySerial,
    info.instanceSerial]

section

variable (U : UpperCase)

def normalize (text : Text) : Text :=
  if text = [] then [] else (text.filter (¬ isSpace ·)).flatMap U.upper

def splitAic (aic : Text) : List Text :=
  let normalized := normalize U aic
  if normalized = [] then []
  else
    let parts := normalized.splitOn '.'
    if parts.any (· = []) then [] else parts

def checkPrefix (parts : List Text) (expectedPrefix : Text) : Except String Unit :=
  if expectedPrefix = [] then .ok ()
  else
    let prefixParts := expectedPrefix.splitOn '.'
    let actualPrefix := parts.take prefixParts.length
    if actualPrefix ≠ prefixParts then
      let expected := String.ofList expectedPrefix
      let actual := String.ofList (join actualPrefix)
      .error s!"前缀不匹配，期望 {expected}，实际 {actual}"
    else .ok ()

def checkDigits (parts : List Text) (i : ℕ) : Except String Unit :=
  let level := i + 1
  let seg := parts.getD i []
  if ¬ reDigits seg then
    let actual := String.ofList seg
    .error s!"第 {level} 级必须为纯数字，实际为 '{actual}'"
  else .ok ()

def checkSegment (parts : List Text) : ℕ × ℕ × ℕ → Except String Unit
  | (level, minLen, maxLen) =>
    let seg := parts.getD (level - 1) []
    if ¬ reBase36 seg then
      let actual := String.ofList seg
      .error s!"第 {level} 级必须为 Base36 字符，实际为 '{actual}'"
    else if ¬ (minLen ≤ seg.length ∧ seg.length ≤ maxLen) then
      let actual := seg.length
      .error s!"第 {level} 级长度必须在 {minLen}-{maxLen} 之间，实际为 {actual}"
    else .ok ()

def validateAicFormat (aic expectedPrefix : Text) : Except String Unit :=
  let parts := splitAic U aic
  let count := parts.length
  if aic = [] then .error "AIC 不能为空"
  else if count ≠ 10 then .error s!"AIC 必须包含 10 段，当前为 {count} 段"
  else do
    checkPrefix parts expectedPrefix
    [0, 1, 2, 3].forM (checkDigits parts)
    segmentConstraints.forM (checkSegment parts)

def isValidAicFormat (aic expectedPrefix : Text) : Bool :=
  match validateAicFormat U aic expectedPrefix with
  | .ok () => true
  | .error _ => false

def parseAic (aic : Text) : Option AICInfo :=
  if ¬ isValidAicFormat U aic aicPrefix then none
  else
    let parts := splitAic U aic
    some {
      raw := aic
      normalized := join parts
      oidPrefix := join (parts.take 4)
      version := parts.getD 4 []
      arsp := parts.getD 5 []
      vendor := parts.getD 6 []
      ontologySerial := parts.getD 7 []
      instanceSerial := parts.getD 8 []
      checksum := parts.getD 9 [] }

structure AICValidator where
  salt : Option (List UInt8)

def AICValidator.calculateChecksum (v : AICValidator) (body : Text) :
    Except PyError (Option Text) :=
  match v.salt with
  | none => .ok none
  | some salt => do
    let data ← encodeAscii (normalize U body)
    return some (base36Encode (crc16CcittFalse (data ++ salt)) 4)

def AICValidator.validate (v : AICValidator) (aic expectedPrefix : Text) (requireCrc : Bool) :
    Except PyError (Bool × Option String) :=
  match validateAicFormat U aic expectedPrefix with
  | .error error => .ok (false, some error)
  | .ok () =>
    if v.salt = none then
      if requireCrc then .ok (false, some "未配置 SALT，无法验证 CRC") else .ok (true, none)
    else
      match parseAic U aic with
      | none => .ok (false, some "解析 AIC 失败")
      | some info => do
        let expectedCrc ← v.calculateChecksum U info.body
        if expectedCrc ≠ some info.checksum then
          let expected := String.ofList (expectedCrc.getD [])
          let actual := String.ofList info.checksum
          return (false, some s!"CRC 校验失败，期望 {expected}，实际 {actual}")
        else return (true, none)

end

end Acps.Aic.Sdk
