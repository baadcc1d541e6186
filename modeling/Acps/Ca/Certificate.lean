import Acps.Aic.Text
import Mathlib.Data.List.Basic

/-!
Certificate records of the certification authority, as the administration and the ACME service
keep them.
-/

namespace Acps.Ca

open Aic (Text)
open Numerals

abbrev Time := ℤ

abbrev SerialText := { s : Text // s ≠ [] ∧ ∀ c ∈ s, (hexValue c).isSome }

def SerialText.toNat (s : SerialText) : ℕ := hexNumber s.1

inductive CertificateStatus where
  | pending
  | valid
  | revoked
  | expired
  deriving DecidableEq

inductive RevocationReason where
  | unspecified
  | keyCompromise
  | caCompromise
  | affiliationChanged
  | superseded
  | cessationOfOperation
  deriving DecidableEq

namespace RevocationReason

def fromAcmeCode : ℤ → RevocationReason
  | 0 => unspecified
  | 1 => keyCompromise
  | 2 => caCompromise
  | 3 => affiliationChanged
  | 4 => superseded
  | 5 => cessationOfOperation
  | _ => unspecified

def toAcmeCode : RevocationReason → ℤ
  | unspecified => 0
  | keyCompromise => 1
  | caCompromise => 2
  | affiliationChanged => 3
  | superseded => 4
  | cessationOfOperation => 5

end RevocationReason

inductive CertificateType where
  | root
  | intermediate
  | user
  | agent
  deriving DecidableEq

structure X509 where
  serialNumber : ℕ
  subject : Text
  deriving DecidableEq

structure Certificate where
  id : ℕ
  certificateType : CertificateType
  serialNumber : SerialText
  subject : Text
  issuer : Text
  status : CertificateStatus
  expiresAt : Time
  revokedAt : Option Time
  revocationReason : Option RevocationReason
  certificatePem : X509
  version : ℕ
  parentCertificateId : Option ℕ
  aic : Option Text
  deriving DecidableEq

inductive CaError where
  | valueError (message : String)
  | integrityError
  | certificateNotFound
  | invalidParentCertificate (message : String)
  | acme (statusCode : ℕ) (errorName errorMsg : String)
  /-- Raised by the language, and answered by no handler of its own. -/
  | uncaught (exception : String)
  deriving DecidableEq

section Serial

theorem upperHex_isSerialText (n : ℕ) :
    numeral 16 n ≠ [] ∧ ∀ c ∈ numeral 16 n, (hexValue c).isSome := by
  refine ⟨numeral_ne_nil, fun c hc => ?_⟩
  obtain ⟨d, hd, rfl⟩ := mem_numeral (by decide) hc
  rw [hexValue_upperHexDigit hd]
  rfl

def upperHex (n : ℕ) : SerialText := ⟨numeral 16 n, upperHex_isSerialText n⟩

theorem upperHex_toNat (n : ℕ) : (upperHex n).toNat = n := hexNumber_upperHex n

theorem upperHex_injective : Function.Injective upperHex :=
  Function.LeftInverse.injective upperHex_toNat

end Serial

end Acps.Ca
