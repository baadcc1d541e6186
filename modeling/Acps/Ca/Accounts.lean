import Acps.Ca.CertificateService
import Acps.Ca.Jws

/-!
The rows of the ACME service, and its accounts: which of them a request speaks for, and what their
own requests change.
-/

namespace Acps.Ca

open Aic (Text)

inductive AccountStatus where
  | valid
  | deactivated
  | revoked
  deriving DecidableEq

inductive OrderStatus where
  | pending
  | ready
  | processing
  | valid
  | invalid
  deriving DecidableEq

inductive AuthorizationStatus where
  | pending
  | valid
  | invalid
  | deactivated
  | expired
  | revoked
  deriving DecidableEq

def OrderStatus.Open (s : OrderStatus) : Prop := s ∈ [.pending, .ready, .processing]

instance (s : OrderStatus) : Decidable s.Open :=
  inferInstanceAs (Decidable (s ∈ [OrderStatus.pending, .ready, .processing]))

def AuthorizationStatus.Deactivatable (s : AuthorizationStatus) : Prop := s ∈ [.pending, .valid]

instance (s : AuthorizationStatus) : Decidable s.Deactivatable :=
  inferInstanceAs (Decidable (s ∈ [AuthorizationStatus.pending, .valid]))

structure AcmeAccount where
  id : ℕ
  keyId : Text
  publicKey : PublicJwk
  status : AccountStatus
  contact : Json
  termsOfServiceAgreed : Bool
  aic : Option Text
  deriving DecidableEq

inductive Usage where
  | clientAuth
  | serverAuth
  deriving DecidableEq

structure Identifier where
  value : Acme.AgentId
  usage : Option Usage
  deriving DecidableEq

structure AcmeOrder where
  id : ℕ
  orderId : Text
  accountId : ℕ
  status : OrderStatus
  identifiers : List Identifier
  authorizations : List Text
  certificate : Option Text
  deriving DecidableEq

structure AcmeAuthorization where
  authzId : Text
  orderId : ℕ
  identifier : Identifier
  status : AuthorizationStatus
  deriving DecidableEq

structure Db where
  accounts : List AcmeAccount
  orders : List AcmeOrder
  authorizations : List AcmeAuthorization
  tables : Tables
  nonces : Text → Option Nonces.AcmeNonce

end Acps.Ca

namespace Acps.Ca.Acme

open Aic (Text)

/-- What the service is deployed with. `int` reads a number and `str` prints a value that is not a
text; `boolean` and `instant` tell what the validation of the models accepts. -/
structure Platform extends Jose where
  baseUrl : String
  int : Text → Option ℤ
  str : Json → Text
  boolean : Json → Option Bool
  instant : Json → Bool
  upperCase : Aic.UpperCase

structure Env where
  now : Time
  nonce : Text
  id : ℕ

section Requests

variable (p : Platform) (db : Db)

def parseRequest (requestData : JWSRequest) (pathSuffix : String) (now : Time) :
    Except CaError (JsonObject × JsonObject × Db) := do
  let (protectedHeader, payload, nonces) ←
    parseJwsRequest p.toJose db.nonces requestData (p.baseUrl ++ pathSuffix) now
  return (protectedHeader, payload, { db with nonces := nonces })

def createAcmeResponse (env : Env) : Except CaError Db := do
  let nonces ← generateNonce db.nonces env.nonce env.now
  return { db with nonces := nonces }

def ensurePostAsGetUsesEmptyPayload (requestData : JWSRequest) : Except CaError Unit :=
  Fallible.require (requestData.payload = [])
    (CaError.acme 400 "MALFORMED_REQUEST" "POST-as-GET requests must use an empty payload")

def getAccountByKeyId (keyId : Text) : Option AcmeAccount :=
  Keyed.find AcmeAccount.keyId db.accounts keyId

def getAccountById (accountId : ℤ) : Option AcmeAccount :=
  db.accounts.find? fun account => account.id = accountId

def ensureAccountIsActive (account : AcmeAccount) : Except CaError Unit :=
  Fallible.require (account.status ≠ .deactivated)
    (CaError.acme 403 "UNAUTHORIZED" "Account is deactivated")

def findAccount (protectedHeader : JsonObject) : Except CaError (Option AcmeAccount) :=
  match protectedHeader.get "kid", protectedHeader.get "jwk" with
  | some (.str accountUrl), _ =>
    match p.int ((accountUrl.toList.splitOn '/').getLastD []) with
    | some accountId => .ok (getAccountById db accountId)
    | none => .error (.uncaught "ValueError")
  | some _, _ => .error (.uncaught "AttributeError")
  | none, some jwk => do
    let projection ← projectPublicJwk p.toJose jwk
    return getAccountByKeyId db (p.digest projection)
  | none, none =>
    .error (.acme 400 "MALFORMED_REQUEST" "Missing kid or jwk in protected header")

def getAccountFromRequest (protectedHeader : JsonObject) : Except CaError AcmeAccount := do
  match ← findAccount p db protectedHeader with
  | none => .error (.acme 404 "ACCOUNT_NOT_FOUND" "Account not found")
  | some account => do
    ensureAccountIsActive account
    return account

def verifyJwsSignature (requestData : JWSRequest) (account : AcmeAccount) : Except CaError Unit :=
  verifyJwsSignatureWithJwk p.toJose requestData account.publicKey "Invalid signature"

def authenticate (requestData : JWSRequest) (pathSuffix : String) (now : Time) :
    Except CaError (AcmeAccount × JsonObject × Db) := do
  let (protectedHeader, payload, db) ← parseRequest p db requestData pathSuffix now
  let account ← getAccountFromRequest p db protectedHeader
  verifyJwsSignature p requestData account
  return (account, payload, db)

end Requests

namespace AccountService

def updateAccount (db : Db) (account : AcmeAccount) : Except CaError Db := do
  Fallible.require (∀ other ∈ db.accounts, other.id ≠ account.id → other.keyId ≠ account.keyId)
    CaError.integrityError
  return { db with
    accounts := Keyed.modify AcmeAccount.id db.accounts account.id fun _ => account }

structure AccountCreate where
  keyId : Text
  publicKey : PublicJwk
  contact : Json
  termsOfServiceAgreed : Bool
  aic : Option Text

def createAccount (db : Db) (accountData : AccountCreate) (id : ℕ) :
    Except CaError (Db × AcmeAccount) :=
  match getAccountByKeyId db accountData.keyId with
  | some existingAccount => .ok (db, existingAccount)
  | none => do
    let account : AcmeAccount :=
      { id := id
        keyId := accountData.keyId
        publicKey := accountData.publicKey
        status := .valid
        contact := accountData.contact
        termsOfServiceAgreed := accountData.termsOfServiceAgreed
        aic := accountData.aic }
    let accounts ← Keyed.insert AcmeAccount.id db.accounts account CaError.integrityError
    return ({ db with accounts := accounts }, account)

def innerField (payload : JsonObject) (field : String) (errorMsg : String) :
    Except CaError Text :=
  match payload.get field with
  | some (.str value) => .ok value.toList
  | _ => .error (.acme 400 "MALFORMED_REQUEST" errorMsg)

def applyKeyChange (p : Platform) (db : Db) (account : AcmeAccount) (payload : JsonObject) :
    Except CaError Db := do
  let innerProtectedB64 ← innerField payload "protected"
    "Inner protected header must be a base64 string"
  let innerPayloadB64 ← innerField payload "payload" "Inner payload must be a base64 string"
  let innerSignatureB64 ← innerField payload "signature" "Inner signature must be a base64 string"
  Fallible.require (innerProtectedB64 ≠ [] ∧ innerPayloadB64 ≠ [] ∧ innerSignatureB64 ≠ [])
    (CaError.acme 400 "MALFORMED_REQUEST" "Invalid inner JWS format")
  let innerProtected ← parseProtectedHeader p.toJose innerProtectedB64
  match innerProtected.get "jwk" with
  | none => .error (.acme 400 "MALFORMED_REQUEST" "New JWK must be provided in inner JWS")
  | some newJwk => do
    let newPublicJwk ← projectPublicJwk p.toJose newJwk
    verifyJwsSignatureWithJwk p.toJose ⟨innerProtectedB64, innerPayloadB64, innerSignatureB64⟩
      newPublicJwk "Invalid signature on inner JWS"
    let innerPayload ← parsePayload p.toJose innerPayloadB64
    let expectedAccountUrl := s!"{p.baseUrl}/acct/{account.id}"
    Fallible.require (innerPayload.get "account" = some (.str expectedAccountUrl))
      (CaError.acme 400 "MALFORMED_REQUEST" "Account URL mismatch in inner payload")
    match innerPayload.get "oldKey" with
    | some (.obj providedOldKey) => do
      let oldKey ← publicJwkProjection (base64urlDecode p.toJose) providedOldKey
      Fallible.require (oldKey = account.publicKey)
        (CaError.acme 400 "MALFORMED_REQUEST" "oldKey does not match current account key")
      let newKeyId := p.digest newPublicJwk
      Fallible.require (∀ existing ∈ getAccountByKeyId db newKeyId, existing.id = account.id)
        (CaError.acme 409 "KEY_IN_USE" "New key is already associated with another account")
      updateAccount db { account with keyId := newKeyId, publicKey := newPublicJwk }
    | _ =>
      .error (.acme 400 "MALFORMED_REQUEST" "oldKey does not match current account key")

end AccountService

def AccountStatus.ofColumn : Json → Except CaError AccountStatus
  | .str status =>
    if status ∈ ["valid", "VALID"] then .ok .valid
    else if status ∈ ["deactivated", "DEACTIVATED"] then .ok .deactivated
    else if status ∈ ["revoked", "REVOKED"] then .ok .revoked
    else .error (.uncaught "DBAPIError")
  | _ => .error (.uncaught "StatementError")

section Handlers

variable (p : Platform) (db : Db)

def updatedAccount (account : AcmeAccount) (payload : JsonObject) : Except CaError AcmeAccount := do
  let contact := (payload.get "contact").getD account.contact
  match payload.get "status" with
  | none => return { account with contact := contact }
  | some value => do
    let status ← AccountStatus.ofColumn value
    return { account with contact := contact, status := status }

def updateAccount (accountId : ℕ) (requestData : JWSRequest) (env : Env) : Except CaError Db := do
  let (protectedHeader, payload, db) ←
    parseRequest p db requestData s!"/acct/{accountId}" env.now
  Fallible.require (payload = [] → requestData.payload = [])
    (CaError.acme 400 "MALFORMED_REQUEST" "POST-as-GET requests must use an empty payload")
  let account ← getAccountFromRequest p db protectedHeader
  verifyJwsSignature p requestData account
  Fallible.require (account.id = accountId)
    (CaError.acme 403 "UNAUTHORIZED" "Account ID mismatch")
  let account ← updatedAccount account payload
  let db ← AccountService.updateAccount db account
  createAcmeResponse db env

def changeKey (requestData : JWSRequest) (env : Env) : Except CaError Db := do
  let (account, payload, db) ← authenticate p db requestData "/key-change" env.now
  Fallible.require (payload ≠ [])
    (CaError.acme 400 "MALFORMED_REQUEST" "Missing payload in key change request")
  let db ← AccountService.applyKeyChange p db account payload
  createAcmeResponse db env

end Handlers

section Effects

open Fallible (bind_eq_ok require_eq_ok pure_eq_ok)

variable {p : Platform} {db db' : Db} {requestData : JWSRequest} {now : Time} {env : Env}

theorem parseRequest_eq_ok {pathSuffix : String} {protectedHeader payload : JsonObject}
    (h : parseRequest p db requestData pathSuffix now = .ok (protectedHeader, payload, db')) :
    parsePayload p.toJose requestData.payload = .ok payload ∧
      ∃ nonces, db' = { db with nonces := nonces } := by
  obtain ⟨⟨header, parsed, nonces⟩, hparse, hdb⟩ := bind_eq_ok.mp h
  obtain ⟨rfl, hrest⟩ := Prod.mk.inj (pure_eq_ok.mp hdb)
  obtain ⟨rfl, rfl⟩ := Prod.mk.inj hrest
  obtain ⟨_, -, hparse⟩ := bind_eq_ok.mp hparse
  obtain ⟨payload', hpayload, hparse⟩ := bind_eq_ok.mp hparse
  obtain ⟨_, -, hparse⟩ := bind_eq_ok.mp hparse
  obtain ⟨_, -, hparse⟩ := bind_eq_ok.mp hparse
  obtain ⟨-, hrest⟩ := Prod.mk.inj (pure_eq_ok.mp hparse)
  obtain ⟨rfl, -⟩ := Prod.mk.inj hrest
  exact ⟨hpayload, nonces, rfl⟩

theorem createAcmeResponse_eq_ok :
    createAcmeResponse db env = .ok db' ↔ db.nonces env.nonce = none ∧
      db' = { db with
        nonces := Function.update db.nonces env.nonce (some ⟨false, env.now + 3600000⟩) } := by
  constructor
  · intro h
    obtain ⟨nonces, hnonces, h⟩ := bind_eq_ok.mp h
    obtain ⟨_, hfresh, hnonces⟩ := bind_eq_ok.mp hnonces
    obtain rfl := pure_eq_ok.mp hnonces
    exact ⟨Option.isNone_iff_eq_none.mp (require_eq_ok.mp hfresh), (pure_eq_ok.mp h).symm⟩
  · rintro ⟨hfresh, rfl⟩
    have hrequire : Fallible.require ((db.nonces env.nonce).isNone = true) CaError.integrityError =
        .ok () := require_eq_ok.mpr (Option.isNone_iff_eq_none.mpr hfresh)
    exact bind_eq_ok.mpr ⟨_, bind_eq_ok.mpr ⟨(), hrequire, rfl⟩, rfl⟩

theorem AccountService.createAccount_eq_ok {data : AccountService.AccountCreate} {id : ℕ}
    {account : AcmeAccount} (h : AccountService.createAccount db data id = .ok (db', account)) :
    (getAccountByKeyId db data.keyId = some account ∧ db' = db) ∨
      getAccountByKeyId db data.keyId = none ∧ account.aic = data.aic ∧
        account.id = id ∧ account.keyId = data.keyId ∧ account.status = .valid ∧
        (∀ a ∈ db.accounts, a.id ≠ id) ∧ db' = { db with accounts := db.accounts ++ [account] } := by
  unfold AccountService.createAccount at h
  split at h
  next existing hfind =>
    obtain ⟨rfl, rfl⟩ := Prod.mk.inj (Except.ok.inj h)
    exact .inl ⟨hfind, rfl⟩
  next hfind =>
    obtain ⟨accounts, hinsert, h⟩ := bind_eq_ok.mp h
    obtain ⟨rfl, rfl⟩ := Prod.mk.inj (pure_eq_ok.mp h)
    obtain ⟨hfresh, rfl⟩ := Keyed.insert_eq_ok.mp hinsert
    exact .inr ⟨hfind, rfl, rfl, rfl, rfl, hfresh, rfl⟩

theorem mem_of_findAccount {protectedHeader : JsonObject} {account : AcmeAccount}
    (h : findAccount p db protectedHeader = .ok (some account)) : account ∈ db.accounts := by
  unfold findAccount at h
  split at h
  · split at h
    · exact List.mem_of_find?_eq_some (Except.ok.inj h)
    · cases h
  · cases h
  · obtain ⟨projection, -, h⟩ := bind_eq_ok.mp h
    exact Keyed.mem_of_find (pure_eq_ok.mp h)
  · cases h

theorem getAccountFromRequest_eq_ok {protectedHeader : JsonObject} {account : AcmeAccount}
    (h : getAccountFromRequest p db protectedHeader = .ok account) :
    account ∈ db.accounts ∧ account.status ≠ .deactivated := by
  obtain ⟨found, hfound, h⟩ := bind_eq_ok.mp h
  cases found with
  | none => cases h
  | some a =>
    obtain ⟨_, hactive, h⟩ := bind_eq_ok.mp h
    obtain rfl := pure_eq_ok.mp h
    exact ⟨mem_of_findAccount hfound, require_eq_ok.mp hactive⟩

theorem authenticate_eq_ok {pathSuffix : String} {account : AcmeAccount} {payload : JsonObject}
    (h : authenticate p db requestData pathSuffix now = .ok (account, payload, db')) :
    account ∈ db.accounts ∧ account.status ≠ .deactivated ∧
      ∃ nonces, db' = { db with nonces := nonces } := by
  obtain ⟨⟨header, parsed, db₁⟩, hparse, h⟩ := bind_eq_ok.mp h
  obtain ⟨found, hfound, h⟩ := bind_eq_ok.mp h
  obtain ⟨_, -, h⟩ := bind_eq_ok.mp h
  obtain ⟨rfl, hrest⟩ := Prod.mk.inj (pure_eq_ok.mp h)
  obtain ⟨-, rfl⟩ := Prod.mk.inj hrest
  obtain ⟨-, nonces, rfl⟩ := parseRequest_eq_ok hparse
  obtain ⟨hmem, hactive⟩ := getAccountFromRequest_eq_ok hfound
  exact ⟨hmem, hactive, nonces, rfl⟩

theorem AccountService.updateAccount_eq_ok {account account' : AcmeAccount}
    (hid : account'.id = account.id) (h : AccountService.updateAccount db account' = .ok db') :
    db' = { db with
      accounts := Keyed.modify AcmeAccount.id db.accounts account.id fun _ => account' } := by
  obtain ⟨_, -, h⟩ := bind_eq_ok.mp h
  rw [← hid]
  exact (pure_eq_ok.mp h).symm

theorem AccountService.applyKeyChange_eq_ok {account : AcmeAccount} {payload : JsonObject}
    (h : AccountService.applyKeyChange p db account payload = .ok db') :
    ∃ account', account'.id = account.id ∧ account'.aic = account.aic ∧ db' = { db with
      accounts := Keyed.modify AcmeAccount.id db.accounts account.id fun _ => account' } := by
  obtain ⟨_, -, h⟩ := bind_eq_ok.mp h
  obtain ⟨_, -, h⟩ := bind_eq_ok.mp h
  obtain ⟨_, -, h⟩ := bind_eq_ok.mp h
  obtain ⟨_, -, h⟩ := bind_eq_ok.mp h
  obtain ⟨_, -, h⟩ := bind_eq_ok.mp h
  split at h
  · cases h
  · obtain ⟨newPublicJwk, -, h⟩ := bind_eq_ok.mp h
    obtain ⟨_, -, h⟩ := bind_eq_ok.mp h
    obtain ⟨_, -, h⟩ := bind_eq_ok.mp h
    obtain ⟨_, -, h⟩ := bind_eq_ok.mp h
    split at h
    · obtain ⟨_, -, h⟩ := bind_eq_ok.mp h
      obtain ⟨_, -, h⟩ := bind_eq_ok.mp h
      obtain ⟨_, -, h⟩ := bind_eq_ok.mp h
      exact ⟨{ account with keyId := p.digest newPublicJwk, publicKey := newPublicJwk }, rfl, rfl,
        AccountService.updateAccount_eq_ok rfl h⟩
    · cases h

theorem updatedAccount_eq_ok {account account' : AcmeAccount} {payload : JsonObject}
    (h : updatedAccount account payload = .ok account') :
    account'.id = account.id ∧ account'.aic = account.aic := by
  unfold updatedAccount at h
  dsimp only at h
  split at h
  · obtain rfl := pure_eq_ok.mp h
    exact ⟨rfl, rfl⟩
  · obtain ⟨_, -, h⟩ := bind_eq_ok.mp h
    obtain rfl := pure_eq_ok.mp h
    exact ⟨rfl, rfl⟩

def Asks (db db' : Db) : Prop :=
  db'.accounts = db.accounts ∧ db'.orders = db.orders ∧
    db'.authorizations = db.authorizations ∧ db'.tables = db.tables

def Rewrites (db db' : Db) : Prop :=
  ∃ account ∈ db.accounts, account.status ≠ .deactivated ∧ ∃ account' : AcmeAccount,
    account'.id = account.id ∧ account'.aic = account.aic ∧
    db'.accounts = Keyed.modify AcmeAccount.id db.accounts account.id (fun _ => account') ∧
    db'.orders = db.orders ∧ db'.authorizations = db.authorizations ∧ db'.tables = db.tables

theorem updateAccount_eq_ok {accountId : ℕ}
    (h : updateAccount p db accountId requestData env = .ok db') : Rewrites db db' := by
  unfold updateAccount at h
  obtain ⟨⟨header, payload, db₁⟩, hparse, h⟩ := bind_eq_ok.mp h
  obtain ⟨-, nonces, rfl⟩ := parseRequest_eq_ok hparse
  obtain ⟨_, -, h⟩ := bind_eq_ok.mp h
  obtain ⟨account, haccount, h⟩ := bind_eq_ok.mp h
  obtain ⟨hmem, hactive⟩ := getAccountFromRequest_eq_ok haccount
  obtain ⟨_, -, h⟩ := bind_eq_ok.mp h
  obtain ⟨_, -, h⟩ := bind_eq_ok.mp h
  obtain ⟨account', hupdated, h⟩ := bind_eq_ok.mp h
  obtain ⟨hid, haic⟩ := updatedAccount_eq_ok hupdated
  obtain ⟨db₂, hupdate, h⟩ := bind_eq_ok.mp h
  obtain rfl := AccountService.updateAccount_eq_ok hid hupdate
  obtain ⟨-, rfl⟩ := createAcmeResponse_eq_ok.mp h
  exact ⟨account, hmem, hactive, account', hid, haic, rfl, rfl, rfl, rfl⟩

theorem changeKey_eq_ok (h : changeKey p db requestData env = .ok db') : Rewrites db db' := by
  obtain ⟨⟨account, payload, db₁⟩, hauth, h⟩ := bind_eq_ok.mp h
  obtain ⟨hmem, hactive, nonces, rfl⟩ := authenticate_eq_ok hauth
  obtain ⟨_, -, h⟩ := bind_eq_ok.mp h
  obtain ⟨db₂, hchange, h⟩ := bind_eq_ok.mp h
  obtain ⟨account', hid, haic, rfl⟩ := AccountService.applyKeyChange_eq_ok hchange
  obtain ⟨-, rfl⟩ := createAcmeResponse_eq_ok.mp h
  exact ⟨account, hmem, hactive, account', hid, haic, rfl, rfl, rfl, rfl⟩

end Effects

end Acps.Ca.Acme
