import Acps.Aic.Sdk
import Acps.Lib.Json

/-!
The identities of the parties: the sender that a message names has to be the one that its peer has
authenticated as, and the sender of a result the partner itself.
-/

namespace Acps.Aip

open Aic (Text UpperCase isSpace)

inductive IdentityError where
  | peerAicMissing (text : String)
  | senderMismatch (text : String)
  | invalidPeerCertificate (text : String)
  deriving DecidableEq

def IdentityError.text : IdentityError → String
  | .peerAicMissing text | .senderMismatch text | .invalidPeerCertificate text => text

inductive CheckError where
  | identity (error : IdentityError)
  | value (text : String)
  deriving DecidableEq

section Checks

variable (U : UpperCase)

def stripText (text : Text) : Text :=
  ((text.dropWhile isSpace).reverse.dropWhile isSpace).reverse

def normalizeAic (aic : Option String) : Option String :=
  aic.bind fun aic =>
    let normalized := (stripText aic.toList).flatMap U.upper
    if normalized = [] then none else some (String.ofList normalized)

def validateAicFormat (aic : String) : Except String Unit :=
  Aic.Sdk.validateAicFormat U aic.toList Aic.aicPrefix

def normalizeAndValidateAic (aic : Option String) (fieldName : String) :
    Except CheckError String :=
  match normalizeAic U aic with
  | none => .error (.identity (.senderMismatch s!"{fieldName} is required"))
  | some normalized =>
    match validateAicFormat U normalized with
    | .error error => .error (.identity (.senderMismatch s!"{fieldName} is invalid: {error}"))
    | .ok () => .ok normalized

def normalizeAndValidateExpectedAic (aic : Option String) (fieldName : String) :
    Except CheckError String :=
  match normalizeAic U aic with
  | none => .error (.value s!"{fieldName} is required")
  | some normalized =>
    match validateAicFormat U normalized with
    | .error error => .error (.value s!"{fieldName} is invalid: {error}")
    | .ok () => .ok normalized

def assertSenderMatchesPeer (senderId : String) (peerAic : Option String) :
    Except CheckError String :=
  match normalizeAic U peerAic with
  | none => .error (.identity (.peerAicMissing "peer AIC is required for identity binding"))
  | some peer =>
    match normalizeAndValidateAic U (some senderId) "senderId" with
    | .error error => .error error
    | .ok sender =>
      if sender ≠ peer then
        .error (.identity (.senderMismatch s!"senderId {sender} does not match peer AIC {peer}"))
      else .ok sender

def assertSenderMatchesExpected (senderId : String) (expectedAic : Option String) :
    Except CheckError String :=
  match normalizeAndValidateExpectedAic U expectedAic "expected_aic" with
  | .error error => .error error
  | .ok expected =>
    match normalizeAndValidateAic U (some senderId) "senderId" with
    | .error error => .error error
    | .ok sender =>
      if sender ≠ expected then
        .error (.identity
          (.senderMismatch s!"senderId {sender} does not match expected AIC {expected}"))
      else .ok sender

end Checks

structure JSONRPCError where
  code : ℤ
  message : String
  data : Option Json
  deriving DecidableEq

def identityErrorToJsonrpc : IdentityError → JSONRPCError
  | .peerAicMissing text | .invalidPeerCertificate text =>
    { code := -32008, message := "AuthenticationRequiredError", data := some (.str text) }
  | .senderMismatch text =>
    { code := -32009, message := "AuthorizationFailedError", data := some (.str text) }

theorem assertSenderMatchesPeer_error {U : UpperCase} {senderId : String} {peerAic : Option String}
    {error : CheckError} (h : assertSenderMatchesPeer U senderId peerAic = .error error) :
    ∃ e, error = .identity e := by
  unfold assertSenderMatchesPeer normalizeAndValidateAic at h
  split at h
  · cases h
    exact ⟨_, rfl⟩
  split at h
  next hsender =>
    split at hsender
    · cases hsender
      cases h
      exact ⟨_, rfl⟩
    split at hsender
    · cases hsender
      cases h
      exact ⟨_, rfl⟩
    · cases hsender
  next =>
    split at h
    · cases h
      exact ⟨_, rfl⟩
    · cases h

end Acps.Aip
