import Acps.Ca.Accounts
import Acps.Registry.EabCredentials

/-!
New accounts: the external account binding is checked, its credential consumed at the registry, and
the key of the request registered for the agent of the credential.
-/

namespace Acps.Ca.Acme

open Aic (Text)
open Registry (EabCredential EabStore Attempt)

structure EabBinding where
  keyId : Text
  protectedB64 : Text
  payloadB64 : Text
  signatureB64 : Text

section Binding

variable (p : Platform)

def strOf : Json → Text
  | .str value => value.toList
  | value => p.str value

def eabField (eabJws : JsonObject) (field : String) : Except CaError Text :=
  match eabJws.get field with
  | some value => .ok (strOf p value)
  | none => .error (.acme 400 "MALFORMED_REQUEST" s!"Missing EAB JWS field: {field}")

def openEabBinding (eabJws : JsonObject) (accountJwk : PublicJwk) (expectedUrl : Json) :
    Except CaError EabBinding := do
  let protectedB64 ← eabField p eabJws "protected"
  let payloadB64 ← eabField p eabJws "payload"
  let signature ← eabField p eabJws "signature"
  let (protectedHeader, payload, signatureB64) ←
    parseJws p.toJose (protectedB64 ++ '.' :: payloadB64 ++ '.' :: signature)
  match protectedHeader with
  | .obj members => do
    let protectedHeader : JsonObject := members
    Fallible.require (protectedHeader.get "alg" = some (.str "HS256"))
      (CaError.acme 400 "UNSUPPORTED_ALGORITHM" "externalAccountBinding must use HS256")
    Fallible.require (protectedHeader.get "url" = some expectedUrl)
      (CaError.acme 400 "MALFORMED_REQUEST" "externalAccountBinding URL mismatch")
    match protectedHeader.get "kid" with
    | some (.str keyId) => do
      Fallible.require (¬ keyId.toList.all Aic.isSpace)
        (CaError.acme 400 "MALFORMED_REQUEST" "externalAccountBinding missing kid")
      let payloadJwk ← projectPublicJwk p.toJose payload
      Fallible.require (p.digest payloadJwk = p.digest accountJwk)
        (CaError.acme 400 "MALFORMED_REQUEST"
          "externalAccountBinding payload does not match account jwk")
      return {
        keyId := keyId.toList
        protectedB64 := protectedB64
        payloadB64 := payloadB64
        signatureB64 := signatureB64 }
    | _ => .error (.acme 400 "MALFORMED_REQUEST" "externalAccountBinding missing kid")
  | _ => .error (.uncaught "AttributeError")

def closeEabBinding (binding : EabBinding) (consumeResult : Option EabCredential) :
    Except CaError Text :=
  match consumeResult with
  | none => .error (.acme 400 "EXTERNAL_ACCOUNT_REQUIRED"
      "Failed to consume external account binding credential")
  | some credential => do
    let macKeyBytes ← base64urlDecode p.toJose credential.macKey
    let signingInput ← (Aic.encodeAscii (binding.protectedB64 ++ '.' :: binding.payloadB64)).mapError
      fun _ => CaError.uncaught "UnicodeEncodeError"
    let actualSignature ← base64urlDecode p.toJose binding.signatureB64
    Fallible.require (p.hmac macKeyBytes signingInput = actualSignature)
      (CaError.acme 400 "BAD_SIGNATURE" "Invalid externalAccountBinding signature")
    return credential.aic

end Binding

inductive NewAccount where
  | existing (account : AcmeAccount)
  | binding (jwk : PublicJwk) (payload : JsonObject) (binding : EabBinding)

section NewAccount

variable (p : Platform) (db : Db)

def openNewAccount (requestData : JWSRequest) (now : Time) : Except CaError (Db × NewAccount) := do
  let (protectedHeader, payload, db) ← parseRequest p db requestData "/new-account" now
  match protectedHeader.get "jwk" with
  | none => .error (.acme 400 "MALFORMED_REQUEST" "New account request must include jwk")
  | some jwk => do
    let jwk ← projectPublicJwk p.toJose jwk
    if ((payload.get "onlyReturnExisting").getD (.bool false)).truthy then
      match getAccountByKeyId db (p.digest jwk) with
      | none => .error (.acme 404 "ACCOUNT_NOT_FOUND" "Account does not exist")
      | some account => do
        verifyJwsSignature p requestData account
        return (db, .existing account)
    else
      match payload.get "externalAccountBinding" with
      | some (.obj externalAccountBinding) => do
        verifyJwsSignatureWithJwk p.toJose requestData jwk "Invalid signature for new account"
        let url := (protectedHeader.get "url").getD .null
        let expectedEabUrl := if url.truthy then url else .str (p.baseUrl ++ "/new-account")
        let binding ← openEabBinding p externalAccountBinding jwk expectedEabUrl
        return (db, .binding jwk payload binding)
      | _ => .error (.acme 400 "EXTERNAL_ACCOUNT_REQUIRED"
          "externalAccountBinding is required for new account")

def contactValid : Json → Bool
  | .null => true
  | .arr contacts => contacts.all fun c => match c with
    | .str _ => true
    | _ => false
  | _ => false

def accountCreate (jwk : PublicJwk) (payload : JsonObject) (boundAic : Text) :
    Except CaError AccountService.AccountCreate := do
  let contact := (payload.get "contact").getD .null
  Fallible.require (contactValid contact = true) (CaError.uncaught "ValidationError")
  match p.boolean ((payload.get "termsOfServiceAgreed").getD (.bool false)) with
  | none => .error (.uncaught "ValidationError")
  | some termsOfServiceAgreed =>
    return {
      keyId := p.digest jwk
      publicKey := jwk
      contact := contact
      termsOfServiceAgreed := termsOfServiceAgreed
      aic := some boundAic }

def closeNewAccount (jwk : PublicJwk) (payload : JsonObject) (binding : EabBinding)
    (consumeResult : Option EabCredential) (env : Env) : Except CaError (Db × AcmeAccount) := do
  let boundAic ← closeEabBinding p binding consumeResult
  let accountData ← accountCreate p jwk payload boundAic
  let (db, account) ← AccountService.createAccount db accountData env.id
  let db ← createAcmeResponse db env
  return (db, account)

def createAccount (store : EabStore) (requestData : JWSRequest) (attempts : List Attempt)
    (env : Env) : EabStore × Except CaError (Db × AcmeAccount) :=
  match openNewAccount p db requestData env.now with
  | .error e => (store, .error e)
  | .ok (db, .existing account) => (store, do
      let db ← createAcmeResponse db env
      return (db, account))
  | .ok (db, .binding jwk payload binding) =>
    let (store, consumeResult) := EabStore.consumeWithRetry binding.keyId attempts store
    (store, closeNewAccount p db jwk payload binding consumeResult env)

end NewAccount

section Effects

open Fallible (bind_eq_ok pure_eq_ok)

variable {p : Platform} {db db' : Db} {requestData : JWSRequest} {env : Env} {account : AcmeAccount}

def AddsAccount (db db' : Db) : Prop :=
  ∃ account : AcmeAccount, (∀ a ∈ db.accounts, a.id ≠ account.id) ∧
    db'.accounts = db.accounts ++ [account] ∧ db'.orders = db.orders ∧
    db'.authorizations = db.authorizations ∧ db'.tables = db.tables

theorem openNewAccount_asks {now : Time} {opened : NewAccount}
    (h : openNewAccount p db requestData now = .ok (db', opened)) : Asks db db' := by
  obtain ⟨⟨header, payload, db₁⟩, hparse, h⟩ := bind_eq_ok.mp h
  obtain ⟨-, nonces, rfl⟩ := parseRequest_eq_ok hparse
  dsimp only at h
  split at h
  · cases h
  · obtain ⟨jwk, -, h⟩ := bind_eq_ok.mp h
    split at h
    · split at h
      · cases h
      · obtain ⟨_, -, h⟩ := bind_eq_ok.mp h
        obtain ⟨rfl, -⟩ := Prod.mk.inj (pure_eq_ok.mp h)
        exact ⟨rfl, rfl, rfl, rfl⟩
    · split at h
      · obtain ⟨_, -, h⟩ := bind_eq_ok.mp h
        obtain ⟨_, -, h⟩ := bind_eq_ok.mp h
        obtain ⟨rfl, -⟩ := Prod.mk.inj (pure_eq_ok.mp h)
        exact ⟨rfl, rfl, rfl, rfl⟩
      · cases h

theorem closeNewAccount_eq_ok {jwk : PublicJwk} {payload : JsonObject} {binding : EabBinding}
    {consumeResult : Option EabCredential}
    (h : closeNewAccount p db jwk payload binding consumeResult env = .ok (db', account)) :
    AddsAccount db db' ∨ Asks db db' := by
  obtain ⟨_, -, h⟩ := bind_eq_ok.mp h
  obtain ⟨data, -, h⟩ := bind_eq_ok.mp h
  obtain ⟨⟨db₁, account₁⟩, hcreate, h⟩ := bind_eq_ok.mp h
  obtain ⟨db₂, hresponse, h⟩ := bind_eq_ok.mp h
  obtain ⟨rfl, rfl⟩ := Prod.mk.inj (pure_eq_ok.mp h)
  obtain ⟨-, rfl⟩ := createAcmeResponse_eq_ok.mp hresponse
  rcases AccountService.createAccount_eq_ok hcreate with ⟨-, rfl⟩ | ⟨-, -, hid, -, -, hfresh, rfl⟩
  · exact .inr ⟨rfl, rfl, rfl, rfl⟩
  · exact .inl ⟨account₁, hid ▸ hfresh, rfl, rfl, rfl, rfl⟩

theorem createAccount_eq_ok {store : EabStore} {attempts : List Attempt}
    (h : (createAccount p db store requestData attempts env).2 = .ok (db', account)) :
    AddsAccount db db' ∨ Asks db db' := by
  unfold createAccount at h
  split at h
  · cases h
  next db₁ existing hopen =>
    obtain ⟨db₂, hresponse, h⟩ := bind_eq_ok.mp h
    obtain ⟨rfl, -⟩ := Prod.mk.inj (pure_eq_ok.mp h)
    obtain ⟨-, rfl⟩ := createAcmeResponse_eq_ok.mp hresponse
    obtain ⟨ha, ho, hz, ht⟩ := openNewAccount_asks hopen
    exact .inr ⟨ha, ho, hz, ht⟩
  next db₁ jwk payload binding hopen =>
    obtain ⟨ha, ho, hz, ht⟩ := openNewAccount_asks hopen
    have hclose := closeNewAccount_eq_ok h
    unfold AddsAccount Asks at hclose
    rwa [ha, ho, hz, ht] at hclose

end Effects

end Acps.Ca.Acme
