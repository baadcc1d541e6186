import Acps.Aic.Text

/-!
Agent identity codes as the registry checks and issues them.
-/

namespace Acps.Aic.Registry

open Numerals

def base36Encode (num length : ℕ) : Except PyError Text :=
  if length = 0 then .error (.valueError "length 必须为正数")
  else if num = 0 then .ok (['0'].leftpad length '0')
  else
    let encoded := bigEndian 36 (base36Alphabet.getD · '0') num
    let encoded :=
      if encoded.length > length then encoded.drop (encoded.length - length) else encoded
    .ok (encoded.leftpad length '0')

def crcBit (crc : ℕ) : ℕ :=
  if crc &&& 32768 ≠ 0 then ((crc <<< 1) ^^^ 4129) &&& 65535 else (crc <<< 1) &&& 65535

def crc16CcittFalseWithSalt (data salt : List UInt8) : ℕ :=
  (data ++ salt).foldl (fun crc b => crcBit^[8] (crc ^^^ ((b.toNat <<< 8) &&& 0xFFFF))) 0xFFFF
    &&& 0xFFFF

def withoutMarker : Text → Text
  | '0' :: 'x' :: rest | '0' :: 'X' :: rest => rest
  | crcSalt => crcSalt

def saltBytes (crcSalt : Text) : List UInt8 :=
  let saltHex := withoutMarker crcSalt
  let saltHex := if saltHex.length % 2 ≠ 0 then '0' :: saltHex else saltHex
  (fromHex saltHex).getD [0xff, 0xff]

def reAicProtocolVersion (p : Text) : Bool := reBase36 p ∧ p.length = 1 ∧ p ≠ ['0']

def reAicLevelCode (p : Text) : Bool := reBase36 p ∧ p.length ≤ 6 ∧ ¬ p.all (· = '0')

def isSerial (p : Text) : Bool := reBase36 p ∧ p.length ≤ 9 ∧ ¬ p.all (· = '0')

abbrev ProtocolVersion := { p : Text // reAicProtocolVersion p = true }

abbrev LevelCode := { p : Text // reAicLevelCode p = true }

abbrev Serial := { p : Text // isSerial p = true }

section

variable (U : UpperCase)

def normalizeAicText (text : Text) : Text := (text.filter (¬ isSpace ·)).flatMap U.upper

def splitAic (aic : Text) : List Text :=
  let aicText := normalizeAicText U aic
  if aicText = [] then []
  else
    let parts := aicText.splitOn '.'
    if parts.any (· = []) then [] else parts

def calculateAicChecksum (crcSalt body : Text) : Except PyError Text := do
  let data ← encodeAscii (normalizeAicText U body)
  base36Encode (crc16CcittFalseWithSalt data (saltBytes crcSalt)) 4

def validateAic (crcSalt aic expectedPrefix : Text) : Except PyError Bool :=
  let parts := splitAic U aic
  let prefixParts := if expectedPrefix ≠ [] then expectedPrefix.splitOn '.' else []
  let seg5 := parts.getD 4 []
  let seg6 := parts.getD 5 []
  let seg7 := parts.getD 6 []
  let seg8 := parts.getD 7 []
  let seg9 := parts.getD 8 []
  let seg10 := parts.getD 9 []
  if parts.length ≠ 10 then .ok false
  else if prefixParts ≠ [] ∧ parts.take prefixParts.length ≠ prefixParts then .ok false
  else if ¬ (parts.take 4).all reDigits then .ok false
  else if ¬ (reBase36 seg5 ∧ seg5.length = 1) then .ok false
  else if ¬ (reBase36 seg6 ∧ 1 ≤ seg6.length ∧ seg6.length ≤ 6) then .ok false
  else if ¬ (reBase36 seg7 ∧ 1 ≤ seg7.length ∧ seg7.length ≤ 6) then .ok false
  else if ¬ (reBase36 seg8 ∧ 1 ≤ seg8.length ∧ seg8.length ≤ 9) then .ok false
  else if ¬ (reBase36 seg9 ∧ 1 ≤ seg9.length ∧ seg9.length ≤ 9) then .ok false
  else if ¬ (reBase36 seg10 ∧ seg10.length = 4) then .ok false
  else (calculateAicChecksum U crcSalt (join (parts.take 9))).map (· = seg10)

def withChecksum (crcSalt body : Text) : Except PyError Text := do
  let crc ← calculateAicChecksum U crcSalt body
  return join [body, crc]

def generateAic (crcSalt : Text) (ver : ProtocolVersion) (arsp vendor : LevelCode)
    (ontologySerial instanceSerial : Serial) : Except PyError Text :=
  withChecksum U crcSalt
    (join [aicPrefix, ver.1, arsp.1, vendor.1, ontologySerial.1, instanceSerial.1])

def generateOntologyAic (crcSalt : Text) (ver : ProtocolVersion) (arsp vendor : LevelCode)
    (ontologySerial : Serial) : Except PyError Text :=
  withChecksum U crcSalt (join [aicPrefix, ver.1, arsp.1, vendor.1, ontologySerial.1, ['0']])

def getInstanceSerial (aic : Text) : Option Text :=
  let parts := splitAic U aic
  if parts.length ≠ 10 then none else some (parts.getD 8 [])

def isOntologyAic (crcSalt aic : Text) : Except PyError Bool := do
  if ← validateAic U crcSalt aic aicPrefix then
    return (getInstanceSerial U aic).any (fun serial => serial ≠ [] ∧ serial.all (· = '0'))
  else return false

def generateEntityAicFromOntology (crcSalt ontologyAic : Text) (serial : Serial) :
    Except PyError (Option Text) := do
  if ← isOntologyAic U crcSalt ontologyAic then
    let parts := (splitAic U ontologyAic).set 8 serial.1
    let crc ← calculateAicChecksum U crcSalt (join (parts.take 9))
    return some (join (parts.set 9 crc))
  else return none

def getDerivedEntityLikePrefix (crcSalt ontologyAic : Text) : Except PyError (Option Text) := do
  if ← validateAic U crcSalt ontologyAic aicPrefix then
    return some (join ((splitAic U ontologyAic).take 8) ++ ['.'])
  else return none

end

end Acps.Aic.Registry
