import Acps.Lib.Numerals

/-!
Texts of agent identity codes as both sides read them: white space goes, letters are put in upper
case, and the levels are what stands between the dots.
-/

namespace Acps.Aic

abbrev Text := List Char

instance : LawfulBEq Text := inferInstance

inductive PyError where
  | valueError (message : String)
  | unicodeEncodeError
  deriving DecidableEq

def base36Alphabet : Text := "0123456789ABCDEFGHIJKLMNOPQRSTUVWXYZ".toList

structure UpperCase where
  upper : Char → Text
  upper_base36 : ∀ c ∈ base36Alphabet, upper c = [c]
  upper_dot : upper '.' = ['.']

def asciiUpperCase : UpperCase where
  upper c := [c.toUpper]
  upper_base36 := by
    have hall : base36Alphabet.all (fun c => [c.toUpper] = [c]) = true := by decide
    simpa only [List.all_eq_true, decide_eq_true_eq] using hall
  upper_dot := rfl

def isSpace (c : Char) : Bool :=
  let n := c.toNat
  (9 ≤ n ∧ n ≤ 13) ∨ (28 ≤ n ∧ n ≤ 32) ∨ n = 0x85 ∨ n = 0xa0 ∨ n = 0x1680 ∨
    (0x2000 ≤ n ∧ n ≤ 0x200a) ∨ n = 0x2028 ∨ n = 0x2029 ∨ n = 0x202f ∨ n = 0x205f ∨ n = 0x3000

def isDigit (c : Char) : Bool := '0' ≤ c ∧ c ≤ '9'

def isBase36 (c : Char) : Bool := isDigit c ∨ 'A' ≤ c ∧ c ≤ 'Z'

def reDigits (p : Text) : Bool := p ≠ [] ∧ p.all isDigit

def reBase36 (p : Text) : Bool := p ≠ [] ∧ p.all isBase36

def join (parts : List Text) : Text := ['.'].intercalate parts

def encodeAscii (s : Text) : Except PyError (List UInt8) :=
  if s.all (fun c => c.toNat < 128) then .ok (s.map fun c => UInt8.ofNat c.toNat)
  else .error .unicodeEncodeError

def aicPrefix : Text := "1.2.156.3088".toList

end Acps.Aic
