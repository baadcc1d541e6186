import Acps.Ca.Certificate
import Acps.Ca.Nonces
import Acps.Lib.Fallible
import Acps.Lib.Json

/-!
Public JSON web keys, brought to one shape for each kind of key, and requests in JWS form: their
header and payload, the nonce they consume and the signature they carry.
-/

namespace Acps.Ca

open Aic (Text)

abbrev Bytes := List UInt8

inductive PublicJwk where
  | rsa (n e : String)
  | ec (crv x y : String)
  | okp (x : String)
  deriving DecidableEq

def requireStringField (jwk : JsonObject) (field : String) : Except CaError String :=
  match jwk.get field with
  | some (.str value) =>
    if value = "" then .error (.acme 400 "MALFORMED" s!"Missing or invalid JWK field: {field}")
    else .ok value
  | _ => .error (.acme 400 "MALFORMED" s!"Missing or invalid JWK field: {field}")

def rejectPrivateJwkMaterial (jwk : JsonObject) (privateFields : List String) :
    Except CaError Unit :=
  Fallible.require (∀ field ∈ privateFields, jwk.get field = none)
    (CaError.acme 400 "MALFORMED" "ACME public JWK must not contain private key material")

def publicJwkProjection (base64urlDecode : Text → Except CaError Bytes) (jwk : JsonObject) :
    Except CaError PublicJwk :=
  if jwk.get "kty" = some (.str "RSA") then do
    rejectPrivateJwkMaterial jwk ["d", "p", "q", "dp", "dq", "qi", "oth"]
    let n ← requireStringField jwk "n"
    let e ← requireStringField jwk "e"
    return .rsa n e
  else if jwk.get "kty" = some (.str "EC") then do
    rejectPrivateJwkMaterial jwk ["d"]
    let crv ← requireStringField jwk "crv"
    Fallible.require (crv ∈ ["P-256", "P-384", "P-521"])
      (CaError.acme 400 "UNSUPPORTED_ALGORITHM" s!"Unsupported curve: {crv}")
    let x ← requireStringField jwk "x"
    let y ← requireStringField jwk "y"
    return .ec crv x y
  else if jwk.get "kty" = some (.str "OKP") then do
    rejectPrivateJwkMaterial jwk ["d"]
    let crv ← requireStringField jwk "crv"
    Fallible.require (crv = "Ed25519")
      (CaError.acme 400 "UNSUPPORTED_ALGORITHM" s!"Unsupported OKP curve: {crv}")
    let x ← requireStringField jwk "x"
    let xBytes ← base64urlDecode x.toList
    Fallible.require (xBytes.length = 32)
      (CaError.acme 400 "MALFORMED" "Invalid Ed25519 public key length")
    return .okp x
  else .error (.acme 400 "UNSUPPORTED_ALGORITHM" "Unsupported key type")

end Acps.Ca

namespace Acps.Ca

open Aic (Text)
open Nonces (AcmeNonce)

/-- The cryptography and the codecs that the service calls: `decode` is the URL-safe base64 decoder
with its padding, `loads` reads UTF-8 and JSON, and `digest` is the encoded SHA-256 of the canonical
JSON of a key. -/
structure Jose where
  decode : Text → Option Bytes
  loads : Bytes → Option Json
  digest : PublicJwk → Text
  verifies : PublicJwk → String → Text → Bytes → Bool
  hmac : Bytes → Bytes → Bytes

structure JWSRequest where
  protectedHeader : Text
  payload : Text
  signature : Text

section Parse

variable (j : Jose)

def base64urlDecode (data : Text) : Except CaError Bytes :=
  match j.decode data with
  | some bytes => .ok bytes
  | none => .error (.acme 400 "MALFORMED" "Invalid base64url encoding")

def computeJwkThumbprint (jwk : JsonObject) : Except CaError Text := do
  let projection ← publicJwkProjection (base64urlDecode j) jwk
  return j.digest projection

def projectPublicJwk : Json → Except CaError PublicJwk
  | .obj jwk => publicJwkProjection (base64urlDecode j) jwk
  | _ => .error (.uncaught "AttributeError")

def parseProtectedHeader (protectedB64 : Text) : Except CaError JsonObject := do
  let protectedData ← base64urlDecode j protectedB64
  match j.loads protectedData with
  | some (.obj protectedHeader) => return protectedHeader
  | some _ => .error (.acme 400 "MALFORMED_REQUEST" "Protected header must be a JSON object")
  | none => .error (.acme 400 "MALFORMED_REQUEST" "Invalid protected header")

def parsePayload (payloadB64 : Text) : Except CaError JsonObject :=
  if payloadB64 = [] then .ok []
  else do
    let payloadData ← base64urlDecode j payloadB64
    match j.loads payloadData with
    | some (.obj payload) => return payload
    | some _ => .error (.acme 400 "MALFORMED_REQUEST" "Payload must be a JSON object")
    | none => .error (.acme 400 "MALFORMED_REQUEST" "Invalid payload")

def loadsPart (part : Text) : Except CaError Json := do
  let bytes ← base64urlDecode j part
  match j.loads bytes with
  | some value => return value
  | none => .error (.acme 400 "MALFORMED" "Invalid JSON in JWS")

def loadsPayload (payloadB64 : Text) : Except CaError Json :=
  if payloadB64 = [] then .ok (.obj []) else loadsPart j payloadB64

def parseJws (jwsData : Text) : Except CaError (Json × Json × Text) :=
  match jwsData.splitOn '.' with
  | [protectedB64, payloadB64, signatureB64] => do
    let protectedHeader ← loadsPart j protectedB64
    let payload ← loadsPayload j payloadB64
    return (protectedHeader, payload, signatureB64)
  | _ => .error (.acme 400 "MALFORMED" "Invalid JWS format")

end Parse

section Verify

variable (j : Jose)

def signatureAlgorithms : List String :=
  ["RS256", "RS384", "RS512", "ES256", "ES384", "ES512", "EdDSA"]

def jwkMatches (left : JsonObject) (right : PublicJwk) : Except CaError Bool := do
  let projection ← publicJwkProjection (base64urlDecode j) left
  return projection = right

def verifyProtectedHeader (protectedHeader : JsonObject) (publicKeyJwk : PublicJwk) :
    Except CaError String :=
  match protectedHeader.get "alg" with
  | none => .error (.acme 400 "MALFORMED" "Missing 'alg' in protected header")
  | some (.str alg) =>
    if alg ∉ signatureAlgorithms then
      .error (.acme 400 "UNSUPPORTED_ALGORITHM" s!"Unsupported algorithm: {alg}")
    else
      match protectedHeader.get "jwk", protectedHeader.get "kid" with
      | some (.obj jwk), _ => do
        let same ← jwkMatches j jwk publicKeyJwk
        Fallible.require (same = true)
          (CaError.acme 400 "MALFORMED" "JWK in protected header does not match account key")
        return alg
      | some _, _ =>
        .error (.acme 400 "MALFORMED" "JWK in protected header does not match account key")
      | none, some _ => .ok alg
      | none, none =>
        .error (.acme 400 "MALFORMED" "Protected header must contain either 'jwk' or 'kid'")
  | some _ => .error (.acme 400 "UNSUPPORTED_ALGORITHM" "Unsupported algorithm")

def verifyCompactJwsSignature (protectedB64 payloadB64 signatureB64 : Text)
    (publicKeyJwk : PublicJwk) (alg : String) : Except CaError Unit := do
  let signature ← base64urlDecode j signatureB64
  let signingInput := protectedB64 ++ '.' :: payloadB64
  Fallible.require (signingInput.all (·.toNat < 128))
    (CaError.uncaught "UnicodeEncodeError")
  Fallible.require (j.verifies publicKeyJwk alg signingInput signature = true)
    (CaError.acme 400 "MALFORMED" "Invalid signature")

def verifyJws (jwsData : Text) (publicKeyJwk : PublicJwk) : Except CaError Unit :=
  match jwsData.splitOn '.' with
  | [protectedB64, payloadB64, signatureB64] => do
    let (protectedHeader, _, _) ← parseJws j jwsData
    match protectedHeader with
    | .obj protectedHeader =>
      let alg ← verifyProtectedHeader j protectedHeader publicKeyJwk
      verifyCompactJwsSignature j protectedB64 payloadB64 signatureB64 publicKeyJwk alg
    | _ => .error (.uncaught "TypeError")
  | _ => .error (.acme 400 "MALFORMED" "Invalid JWS format")

def verifyJwsSignatureWithJwk (requestData : JWSRequest) (publicKeyJwk : PublicJwk)
    (errorMsg : String) : Except CaError Unit :=
  (verifyJws j (requestData.protectedHeader ++ '.' :: requestData.payload ++
    '.' :: requestData.signature) publicKeyJwk).mapError
      fun _ => .acme 400 "BAD_SIGNATURE" errorMsg

end Verify

section Nonce

def validateAndConsumeNonce (nonces : Text → Option AcmeNonce) (nonce : Text) (now : Time) :
    Option (Text → Option AcmeNonce) :=
  match nonces nonce with
  | some row =>
    if Nonces.selects now row then
      some (Function.update nonces nonce (some { row with used := true }))
    else none
  | none => none

def verifyNonce (nonces : Text → Option AcmeNonce) (protectedHeader : JsonObject) (now : Time) :
    Except CaError (Text → Option AcmeNonce) :=
  match protectedHeader.get "nonce" with
  | some (.str nonce) =>
    if nonce = "" then .error (.acme 400 "BAD_NONCE" "Missing nonce in protected header")
    else
      match validateAndConsumeNonce nonces nonce.toList now with
      | some nonces => .ok nonces
      | none => .error (.acme 400 "BAD_NONCE" "Invalid or expired nonce")
  | some value =>
    if value.truthy then .error (.acme 400 "MALFORMED_REQUEST" "Invalid JWS format")
    else .error (.acme 400 "BAD_NONCE" "Missing nonce in protected header")
  | none => .error (.acme 400 "BAD_NONCE" "Missing nonce in protected header")

def parseJwsRequest (j : Jose) (nonces : Text → Option AcmeNonce) (requestData : JWSRequest)
    (expectedUrl : String) (now : Time) :
    Except CaError (JsonObject × JsonObject × (Text → Option AcmeNonce)) := do
  let protectedHeader ← parseProtectedHeader j requestData.protectedHeader
  let payload ← parsePayload j requestData.payload
  let nonces ← verifyNonce nonces protectedHeader now
  Fallible.require (protectedHeader.get "url" = some (.str expectedUrl))
    (CaError.acme 400 "MALFORMED_REQUEST" "URL mismatch")
  return (protectedHeader, payload, nonces)

def generateNonce (nonces : Text → Option AcmeNonce) (nonce : Text) (now : Time) :
    Except CaError (Text → Option AcmeNonce) := do
  Fallible.require ((nonces nonce).isNone = true) CaError.integrityError
  return Function.update nonces nonce (some { used := false, expires := now + 3600000 })

end Nonce

end Acps.Ca
