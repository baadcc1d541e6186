import Acps.Ca.Accounts

/-!
ACME orders: they are made for the agent of the account, finalized with a certificate for each of
their identifiers, and stopped by the deactivation of an authorization.
-/

namespace Acps.Ca.Acme

open Aic (Text)

structure AgentInfo where
  aic : Text
  active : Bool
  certificateRequestedValidity : Option ℤ

structure Csr where
  commonName : Option Text

/-- What issuing needs besides: `decodeDer` is the base64 decoder without its padding check,
`loadCertificate` gives the key of a certificate when it is of a supported kind. -/
structure Issuer extends Platform where
  decodeDer : String → Option Bytes
  loadCsr : Bytes → Option Csr
  loadCertificate : Bytes → Option (X509 × Option PublicJwk)
  agentCommonName : Text → Text
  maxCertificateValidityDays : ℤ

structure OrderEnv extends Env where
  orderId : Text
  authzId : ℕ → Text
  agentInfo : ℕ → Option AgentInfo

structure FinalizeEnv extends Env where
  agentInfo : ℕ → Option AgentInfo
  signed : ℕ → Option X509
  certId : ℕ → Text
  certificateId : ℕ → ℕ

def validateAicAndGetInfo (answer : Option AgentInfo) (aic : Text) : Option AgentInfo :=
  answer.filter fun info => info.aic = aic ∧ info.active

def AgentInfo.getCertificateValidityDays (info : AgentInfo) (maxDays : ℤ) : ℤ :=
  match info.certificateRequestedValidity with
  | some requested => if 0 < requested then min requested maxDays else 49
  | none => 49

def strip (s : Text) : Text :=
  ((s.dropWhile Aic.isSpace).reverse.dropWhile Aic.isSpace).reverse

namespace OrderService

section Identifiers

variable (p : Issuer) (accountAic : AgentId)

def strOf : Json → Text
  | .str value => value.toList
  | value => p.str value

def normalizeUsage : Option Json → Except CaError (Option Usage)
  | none | some .null => .ok none
  | some rawUsage =>
    if strip (strOf p rawUsage) = "clientAuth".toList then .ok (some .clientAuth)
    else if strip (strOf p rawUsage) = "serverAuth".toList then .ok (some .serverAuth)
    else .error (.acme 400 "MALFORMED_REQUEST" "Invalid identifier usage")

def normalizeIdentifier (answer : Option AgentInfo) : Json → Except CaError Identifier
  | .obj members => do
    let identifier : JsonObject := members
    Fallible.require (identifier.get "type" = some (.str "agent"))
      (CaError.acme 400 "UNSUPPORTED_IDENTIFIER" "Unsupported identifier type")
    let rawAic := (identifier.get "value").getD .null
    Fallible.require (rawAic.truthy = true)
      (CaError.acme 400 "MALFORMED_REQUEST" "Missing identifier value")
    let normalizedAic := (strip (strOf p rawAic)).flatMap p.upperCase.upper
    Fallible.require (normalizedAic = accountAic.1)
      (CaError.acme 400 "INVALID_IDENTIFIER" "Order identifier does not match account-bound AIC")
    Fallible.require ((validateAicAndGetInfo answer normalizedAic).isSome = true)
      (CaError.acme 400 "INVALID_IDENTIFIER" "Invalid or inactive agent")
    let usage ← normalizeUsage p (identifier.get "usage")
    return { value := accountAic, usage := usage }
  | _ => .error (.uncaught "AttributeError")

def normalizeIdentifiers (agentInfo : ℕ → Option AgentInfo) :
    ℕ → List Json → Except CaError (List Identifier)
  | _, [] => .ok []
  | n, identifier :: identifiers => do
    let normalized ← normalizeIdentifier p accountAic (agentInfo n) identifier
    let rest ← normalizeIdentifiers agentInfo (n + 1) identifiers
    return normalized :: rest

def normalizeAndValidateAgentIdentifiers (identifiers : Json) (agentInfo : ℕ → Option AgentInfo) :
    Except CaError (List Identifier) :=
  if ¬ identifiers.truthy then .error (.acme 400 "MALFORMED_REQUEST" "Missing identifiers")
  else
    match identifiers with
    | .arr identifiers => normalizeIdentifiers p accountAic agentInfo 0 identifiers
    | _ => .error (.uncaught "AttributeError")

end Identifiers

def createOrder (db : Db) (accountId : ℕ) (identifiers : List Identifier) (id : ℕ)
    (orderId : Text) : Except CaError (Db × AcmeOrder) := do
  let order : AcmeOrder :=
    { id := id
      orderId := orderId
      accountId := accountId
      status := .pending
      identifiers := identifiers
      authorizations := []
      certificate := none }
  let _ ← Keyed.insert AcmeOrder.id db.orders order CaError.integrityError
  let orders ← Keyed.insert AcmeOrder.orderId db.orders order CaError.integrityError
  return ({ db with orders := orders }, order)

def getOrderById (db : Db) (orderId : Text) : Option AcmeOrder :=
  Keyed.find AcmeOrder.orderId db.orders orderId

def updateOrder (db : Db) (order : AcmeOrder) : Db :=
  { db with orders := Keyed.modify AcmeOrder.id db.orders order.id fun _ => order }

end OrderService

namespace AuthorizationService

def createAuthorization (db : Db) (orderId : ℕ) (identifier : Identifier) (authzId : Text) :
    Except CaError Db := do
  let authorizations ← Keyed.insert AcmeAuthorization.authzId db.authorizations
    { authzId := authzId, orderId := orderId, identifier := identifier, status := .pending }
    CaError.integrityError
  return { db with
    authorizations := Keyed.modify AcmeAuthorization.authzId authorizations authzId
      fun authorization => { authorization with status := .valid } }

def createAuthorizations (orderId : ℕ) (authzId : ℕ → Text) :
    ℕ → List Identifier → Db → Except CaError Db
  | _, [], db => .ok db
  | n, identifier :: identifiers, db => do
    let db ← createAuthorization db orderId identifier (authzId n)
    createAuthorizations orderId authzId (n + 1) identifiers db

def authorizationUrl (p : Issuer) (authzId : Text) : Text :=
  (p.baseUrl ++ "/authz/").toList ++ authzId

def deactivateAuthorization (db : Db) (authorization : AcmeAuthorization) (order : AcmeOrder) :
    Except CaError Db :=
  if authorization.status = .deactivated then .ok db
  else if ¬ authorization.status.Deactivatable then
    .error (.acme 400 "MALFORMED_REQUEST"
      "Authorization cannot be deactivated from its current status")
  else
    let authorizations := Keyed.modify AcmeAuthorization.authzId db.authorizations
      authorization.authzId fun authorization => { authorization with status := .deactivated }
    let db := { db with authorizations := authorizations }
    .ok (if order.status.Open then OrderService.updateOrder db { order with status := .invalid }
      else db)

end AuthorizationService

namespace CertificateService

variable (p : Issuer)

def decodeDerPayload (data : Option Json) (missing invalid : String) : Except CaError Bytes :=
  match data with
  | some (.str data) =>
    if data = "" then .error (.acme 400 "MALFORMED_REQUEST" missing)
    else
      match p.decodeDer data with
      | some bytes => .ok bytes
      | none => .error (.acme 400 "MALFORMED_REQUEST" invalid)
  | some value =>
    if value.truthy then .error (.acme 400 "MALFORMED_REQUEST" invalid)
    else .error (.acme 400 "MALFORMED_REQUEST" missing)
  | none => .error (.acme 400 "MALFORMED_REQUEST" missing)

def decodeCsrPayload (csrData : Option Json) : Except CaError Bytes :=
  decodeDerPayload p csrData "Missing CSR" "Invalid CSR encoding"

def decodeRevokeCertificatePayload (certData : Option Json) : Except CaError Bytes :=
  decodeDerPayload p certData "Missing certificate" "Invalid certificate encoding"

def validateOrderAgents (agentInfo : ℕ → Option AgentInfo) :
    ℕ → List Identifier → Except CaError (List AgentInfo)
  | _, [] => .ok []
  | n, identifier :: identifiers =>
    match validateAicAndGetInfo (agentInfo n) identifier.value.1 with
    | none => .error (.acme 400 "INVALID_IDENTIFIER" "Agent is no longer valid")
    | some info => do
      let rest ← validateOrderAgents agentInfo (n + 1) identifiers
      return info :: rest

def verifyCsrIdentifiers (csr : Csr) (identifiers : List Identifier) : Except CaError Unit :=
  match csr.commonName with
  | none | some [] =>
    .error (.acme 400 "INVALID_CERTIFICATE_FORMAT" "CSR must contain Common Name")
  | some cn =>
    Fallible.require (cn ∈ identifiers.map (·.value.1))
      (CaError.acme 400 "INVALID_CERTIFICATE_FORMAT"
        "CSR Common Name does not match any ordered identifiers")

def agentInfoFor (agentInfos : List AgentInfo) (agentId : AgentId) : Option AgentInfo :=
  (agentInfos.find? fun info => info.aic = agentId.1).or agentInfos.head?

def validityDays (agentInfo : Option AgentInfo) : ℤ :=
  match agentInfo with
  | some info => info.getCertificateValidityDays p.maxCertificateValidityDays
  | none => 49

def issueCertificates (orderId : ℕ) (agentInfos : List AgentInfo) (env : FinalizeEnv) :
    ℕ → List AgentId → Tables → Except CaError Tables
  | _, [], tables => .ok tables
  | n, agentId :: agentIds, tables =>
    match env.signed n with
    | none => .error (.acme 500 "SERVER_INTERNAL" "Certificate signing failed")
    | some certPem => do
      let notAfter := env.now + days (validityDays p (agentInfoFor agentInfos agentId))
      let tables ← createCertificate tables (certificateCreate orderId certPem notAfter agentId)
        (env.certId n) (env.certificateId n) ("CN=".toList ++ p.agentCommonName agentId.1)
      issueCertificates orderId agentInfos env (n + 1) agentIds tables

def issueCertificate (tables : Tables) (order : AcmeOrder) (csrDer : Bytes)
    (agentInfos : List AgentInfo) (env : FinalizeEnv) : Except CaError Tables :=
  match p.loadCsr csrDer with
  | none => .error (.uncaught "ValueError")
  | some csr => do
    verifyCsrIdentifiers csr order.identifiers
    let agentIds := order.identifiers.map (·.value)
    Fallible.require (agentIds ≠ [])
      (CaError.acme 400 "INVALID_CERTIFICATE_FORMAT" "No valid agent identifiers found in order")
    issueCertificates p order.id agentInfos env 0 agentIds tables

def revocationReason : Option Json → Except CaError ℤ
  | none | some .null => validateRevocationReason none
  | some (.num reasonCode) => validateRevocationReason (some reasonCode)
  | some (.bool b) => validateRevocationReason (some (if b then 1 else 0))
  | some _ => .error (.acme 400 "MALFORMED_REQUEST" "Invalid revocation reason code")

end CertificateService

section Handlers

variable (p : Issuer) (db : Db)

def createOrder (requestData : JWSRequest) (env : OrderEnv) : Except CaError Db := do
  let (account, payload, db) ← authenticate p.toPlatform db requestData "/new-order" env.now
  match account.aic with
  | none | some [] =>
    .error (.acme 403 "UNAUTHORIZED"
      "Account is not bound to an AIC via external account binding")
  | some (c :: aic) => do
    let identifiers ← OrderService.normalizeAndValidateAgentIdentifiers p
      ⟨c :: aic, List.cons_ne_nil c aic⟩ ((payload.get "identifiers").getD (.arr [])) env.agentInfo
    Fallible.require (p.instant ((payload.get "notBefore").getD .null) = true ∧
        p.instant ((payload.get "notAfter").getD .null) = true)
      (CaError.uncaught "ValidationError")
    let (db, order) ← OrderService.createOrder db account.id identifiers env.id env.orderId
    let db ← AuthorizationService.createAuthorizations order.id env.authzId 0 identifiers db
    let authorizations := (List.range identifiers.length).map fun n =>
      AuthorizationService.authorizationUrl p (env.authzId n)
    let db := OrderService.updateOrder db
      { order with authorizations := authorizations, status := .ready }
    createAcmeResponse db env.toEnv

def getAuthorization (authzId : Text) (requestData : JWSRequest) (env : Env) :
    Except CaError Db := do
  let (account, payload, db) ←
    authenticate p.toPlatform db requestData ("/authz/" ++ String.ofList authzId) env.now
  match Keyed.find AcmeAuthorization.authzId db.authorizations authzId with
  | none => .error (.acme 404 "AUTHORIZATION_NOT_FOUND" "Authorization not found")
  | some authorization =>
    match Keyed.find AcmeOrder.id db.orders authorization.orderId with
    | none => .error (.uncaught "AttributeError")
    | some order => do
      Fallible.require (order.accountId = account.id)
        (CaError.acme 403 "UNAUTHORIZED" "Unauthorized access to authorization")
      if payload ≠ [] then
        Fallible.require (payload = [("status", .str "deactivated")])
          (CaError.acme 400 "MALFORMED_REQUEST"
            "Authorization update payload must be exactly \x7b'status': 'deactivated'\x7d")
        let db ← AuthorizationService.deactivateAuthorization db authorization order
        createAcmeResponse db env
      else
        ensurePostAsGetUsesEmptyPayload requestData
        createAcmeResponse db env

def finalizeOrder (orderId : Text) (requestData : JWSRequest) (env : FinalizeEnv) :
    Except CaError Db := do
  let (account, payload, db) ← authenticate p.toPlatform db requestData
    ("/order/" ++ String.ofList orderId ++ "/finalize") env.now
  match OrderService.getOrderById db orderId with
  | none => .error (.acme 404 "ORDER_NOT_FOUND" "Order not found")
  | some order => do
    Fallible.require (order.accountId = account.id)
      (CaError.acme 404 "ORDER_NOT_FOUND" "Order not found")
    Fallible.require (order.status = .ready)
      (CaError.acme 400 "ORDER_NOT_READY" "Order is not ready for finalization")
    let csrDer ← CertificateService.decodeCsrPayload p (payload.get "csr")
    let agentInfos ← CertificateService.validateOrderAgents env.agentInfo 0 order.identifiers
    let db := OrderService.updateOrder db { order with status := .processing }
    let tables ← CertificateService.issueCertificate p db.tables order csrDer agentInfos env
    let primaryCertUrl := (p.baseUrl ++ "/cert/").toList ++ env.certId 0
    let db := OrderService.updateOrder { db with tables := tables }
      { order with status := .valid, certificate := some primaryCertUrl }
    createAcmeResponse db env.toEnv

def getAccountByJwk (protectedHeader : JsonObject) : Except CaError (Option AcmeAccount) :=
  match protectedHeader.get "jwk" with
  | some (.obj jwk) => do
    let keyId ← computeJwkThumbprint p.toJose jwk
    match getAccountByKeyId db keyId with
    | none => return none
    | some account => do
      ensureAccountIsActive account
      return some account
  | _ => .ok none

def revokingAccount (protectedHeader : JsonObject) : Except CaError (Option AcmeAccount) :=
  match protectedHeader.get "kid", protectedHeader.get "jwk" with
  | some _, _ => do
    let account ← getAccountFromRequest p.toPlatform db protectedHeader
    return some account
  | none, some _ => getAccountByJwk p db protectedHeader
  | none, none =>
    .error (.acme 400 "MALFORMED_REQUEST" "Missing kid or jwk in protected header")

def ownsOrder (account : AcmeAccount) (orderId : ℕ) : Bool :=
  (Keyed.find AcmeOrder.id db.orders orderId).any fun order => order.accountId = account.id

def verifyRevocation (requestData : JWSRequest) (certificateJwk : Option PublicJwk) :
    Option AcmeAccount → Except CaError Unit
  | some _ => .ok ()
  | none =>
    match certificateJwk with
    | none => .error (.acme 400 "UNSUPPORTED_ALGORITHM" "Unsupported certificate key type")
    | some jwk => verifyJwsSignatureWithJwk p.toJose requestData jwk "Invalid signature"

def verifyAccountSignature (requestData : JWSRequest) : Option AcmeAccount → Except CaError Unit
  | some account => verifyJwsSignature p.toPlatform requestData account
  | none => .ok ()

def revokeCertificateRequest (requestData : JWSRequest) (env : Env) : Except CaError Db := do
  let (protectedHeader, payload, db) ←
    parseRequest p.toPlatform db requestData "/revoke-cert" env.now
  let certDer ← CertificateService.decodeRevokeCertificatePayload p (payload.get "certificate")
  let reasonCode ← CertificateService.revocationReason (payload.get "reason")
  let account ← revokingAccount p db protectedHeader
  verifyAccountSignature p requestData account
  match p.loadCertificate certDer with
  | none => .error (.acme 400 "MALFORMED_REQUEST" "Invalid certificate format")
  | some (parsedCertificate, certificateJwk) => do
    let acmeCert ← getRevocableCertificate db.tables parsedCertificate (account.map (ownsOrder db))
    verifyRevocation p requestData certificateJwk account
    let db := { db with tables := revokeCertificate db.tables acmeCert reasonCode env.now }
    createAcmeResponse db env

end Handlers

section Effects

open Fallible (bind_eq_ok require_eq_ok pure_eq_ok)

variable {p : Issuer} {db db' : Db} {requestData : JWSRequest}

theorem OrderService.normalizeIdentifier_value {accountAic : AgentId} {answer : Option AgentInfo}
    {identifier : Json} {normalized : Identifier}
    (h : OrderService.normalizeIdentifier p accountAic answer identifier = .ok normalized) :
    normalized.value = accountAic := by
  unfold OrderService.normalizeIdentifier at h
  split at h
  · obtain ⟨_, -, h⟩ := bind_eq_ok.mp h
    obtain ⟨_, -, h⟩ := bind_eq_ok.mp h
    obtain ⟨_, -, h⟩ := bind_eq_ok.mp h
    obtain ⟨_, -, h⟩ := bind_eq_ok.mp h
    obtain ⟨usage, -, h⟩ := bind_eq_ok.mp h
    obtain rfl := pure_eq_ok.mp h
    rfl
  · cases h

theorem OrderService.normalizeIdentifiers_value {accountAic : AgentId}
    {agentInfo : ℕ → Option AgentInfo} {n : ℕ} {identifiers : List Json}
    {normalized : List Identifier}
    (h : OrderService.normalizeIdentifiers p accountAic agentInfo n identifiers = .ok normalized) :
    ∀ i ∈ normalized, i.value = accountAic := by
  induction identifiers generalizing n normalized with
  | nil =>
    obtain rfl := Except.ok.inj h
    exact List.forall_mem_nil _
  | cons identifier identifiers ih =>
    obtain ⟨first, hfirst, h⟩ := bind_eq_ok.mp h
    obtain ⟨rest, hrest, h⟩ := bind_eq_ok.mp h
    obtain rfl := pure_eq_ok.mp h
    exact List.forall_mem_cons.mpr ⟨OrderService.normalizeIdentifier_value hfirst, ih hrest⟩

theorem OrderService.normalizeAndValidate_value {accountAic : AgentId} {identifiers : Json}
    {agentInfo : ℕ → Option AgentInfo} {normalized : List Identifier}
    (h : OrderService.normalizeAndValidateAgentIdentifiers p accountAic identifiers agentInfo =
      .ok normalized) : ∀ i ∈ normalized, i.value = accountAic := by
  unfold OrderService.normalizeAndValidateAgentIdentifiers at h
  split at h
  · cases h
  · split at h
    · exact OrderService.normalizeIdentifiers_value h
    · cases h

structure Authorizes (orderId : ℕ) (before after : List AcmeAuthorization) : Prop where
  unique : Keyed.Unique AcmeAuthorization.authzId before →
    Keyed.Unique AcmeAuthorization.authzId after
  kept : before ⊆ after
  old_or_new : ∀ z ∈ after, z ∈ before ∨ z.orderId = orderId ∧ z.status = .valid

theorem AuthorizationService.createAuthorization_eq_ok {orderId : ℕ} {identifier : Identifier}
    {authzId : Text}
    (h : AuthorizationService.createAuthorization db orderId identifier authzId = .ok db') :
    ∃ authorizations, Authorizes orderId db.authorizations authorizations ∧
      db' = { db with authorizations := authorizations } := by
  obtain ⟨inserted, hinsert, h⟩ := bind_eq_ok.mp h
  obtain ⟨hfresh, rfl⟩ := Keyed.insert_eq_ok.mp hinsert
  obtain rfl := pure_eq_ok.mp h
  refine ⟨db.authorizations ++ [⟨authzId, orderId, identifier, .valid⟩],
    ⟨fun hunique => Keyed.unique_append hunique hfresh, List.subset_append_left _ _,
      fun z hz => ?_⟩,
    congrArg (fun zs => { db with authorizations := zs }) (Keyed.modify_append hfresh)⟩
  rcases List.mem_append.mp hz with hz | hz
  · exact .inl hz
  · obtain rfl := List.mem_singleton.mp hz
    exact .inr ⟨rfl, rfl⟩

theorem AuthorizationService.createAuthorizations_eq_ok {orderId : ℕ} {authzId : ℕ → Text} {n : ℕ}
    {identifiers : List Identifier}
    (h : AuthorizationService.createAuthorizations orderId authzId n identifiers db = .ok db') :
    ∃ authorizations, Authorizes orderId db.authorizations authorizations ∧
      db' = { db with authorizations := authorizations } := by
  induction identifiers generalizing n db with
  | nil =>
    obtain rfl := Except.ok.inj h
    exact ⟨_, ⟨id, List.Subset.refl _, fun z hz => .inl hz⟩, rfl⟩
  | cons identifier identifiers ih =>
    obtain ⟨db₁, hcreate, h⟩ := bind_eq_ok.mp h
    obtain ⟨first, hfirst, rfl⟩ := AuthorizationService.createAuthorization_eq_ok hcreate
    obtain ⟨rest, hrest, rfl⟩ := ih h
    refine ⟨rest, ⟨fun hunique => hrest.unique (hfirst.unique hunique),
      fun z hz => hrest.kept (hfirst.kept hz), fun z hz => ?_⟩, rfl⟩
    exact (hrest.old_or_new z hz).elim (hfirst.old_or_new z) .inr

def MakesOrder (db db' : Db) : Prop :=
  ∃ account ∈ db.accounts, ∃ order : AcmeOrder, order.accountId = account.id ∧
    order.status = .ready ∧ (∀ i ∈ order.identifiers, account.aic = some i.value.1) ∧
    (∀ o ∈ db.orders, o.id ≠ order.id) ∧ (∀ o ∈ db.orders, o.orderId ≠ order.orderId) ∧
    Authorizes order.id db.authorizations db'.authorizations ∧ db'.accounts = db.accounts ∧
    db'.orders = db.orders ++ [order] ∧ db'.tables = db.tables

theorem createOrder_eq_ok {env : OrderEnv} (h : createOrder p db requestData env = .ok db') :
    MakesOrder db db' := by
  obtain ⟨⟨account, payload, db₁⟩, hauth, h⟩ := bind_eq_ok.mp h
  obtain ⟨hmem, -, nonces, rfl⟩ := authenticate_eq_ok hauth
  dsimp only at h
  split at h
  · cases h
  · cases h
  next c aic haic =>
    obtain ⟨identifiers, hidentifiers, h⟩ := bind_eq_ok.mp h
    obtain ⟨_, -, h⟩ := bind_eq_ok.mp h
    obtain ⟨⟨db₂, order⟩, hcreate, h⟩ := bind_eq_ok.mp h
    obtain ⟨_, hinsert, hcreate⟩ := bind_eq_ok.mp hcreate
    obtain ⟨orders, hinsertOrderId, hcreate⟩ := bind_eq_ok.mp hcreate
    obtain ⟨rfl, rfl⟩ := Prod.mk.inj (pure_eq_ok.mp hcreate)
    obtain ⟨hid, -⟩ := Keyed.insert_eq_ok.mp hinsert
    obtain ⟨horderId, rfl⟩ := Keyed.insert_eq_ok.mp hinsertOrderId
    obtain ⟨db₃, hcreateAll, h⟩ := bind_eq_ok.mp h
    obtain ⟨authorizations, hauthorize, rfl⟩ :=
      AuthorizationService.createAuthorizations_eq_ok hcreateAll
    obtain ⟨-, rfl⟩ := createAcmeResponse_eq_ok.mp h
    let order : AcmeOrder :=
      { id := env.id
        orderId := env.orderId
        accountId := account.id
        status := .ready
        identifiers := identifiers
        authorizations := (List.range identifiers.length).map fun n =>
          AuthorizationService.authorizationUrl p (env.authzId n)
        certificate := none }
    refine ⟨account, hmem, order, rfl, rfl, fun i hi => ?_, hid, horderId, hauthorize, rfl,
      Keyed.modify_append hid, rfl⟩
    rw [haic, OrderService.normalizeAndValidate_value hidentifiers i hi]

def Deactivates (db db' : Db) : Prop :=
  ∃ authorization ∈ db.authorizations, ∃ order ∈ db.orders, order.id = authorization.orderId ∧
    db'.accounts = db.accounts ∧ db'.tables = db.tables ∧
    db'.authorizations = Keyed.modify AcmeAuthorization.authzId db.authorizations
      authorization.authzId (fun authorization => { authorization with status := .deactivated }) ∧
    db'.orders = if order.status.Open then
      Keyed.modify AcmeOrder.id db.orders order.id fun _ => { order with status := .invalid }
      else db.orders

theorem getAuthorization_eq_ok {authzId : Text} {env : Env}
    (h : getAuthorization p db authzId requestData env = .ok db') :
    Deactivates db db' ∨ Asks db db' := by
  obtain ⟨⟨account, payload, db₁⟩, hauth, h⟩ := bind_eq_ok.mp h
  obtain ⟨-, -, nonces, rfl⟩ := authenticate_eq_ok hauth
  dsimp only at h
  split at h
  · cases h
  next authorization hauthorization =>
    split at h
    · cases h
    next order horder =>
      obtain ⟨_, -, h⟩ := bind_eq_ok.mp h
      split at h
      · obtain ⟨_, -, h⟩ := bind_eq_ok.mp h
        obtain ⟨db₂, hdeactivate, h⟩ := bind_eq_ok.mp h
        obtain ⟨-, rfl⟩ := createAcmeResponse_eq_ok.mp h
        unfold AuthorizationService.deactivateAuthorization at hdeactivate
        split_ifs at hdeactivate with hgone hallowed hopen
        · obtain rfl := Except.ok.inj hdeactivate
          exact .inr ⟨rfl, rfl, rfl, rfl⟩
        · obtain rfl := Except.ok.inj hdeactivate
          exact .inl ⟨authorization, Keyed.mem_of_find hauthorization, order,
            Keyed.mem_of_find horder, Keyed.key_of_find horder, rfl, rfl, rfl, (if_pos hopen).symm⟩
        · obtain rfl := Except.ok.inj hdeactivate
          exact .inl ⟨authorization, Keyed.mem_of_find hauthorization, order,
            Keyed.mem_of_find horder, Keyed.key_of_find horder, rfl, rfl, rfl, (if_neg hopen).symm⟩
      · obtain ⟨_, -, h⟩ := bind_eq_ok.mp h
        obtain ⟨-, rfl⟩ := createAcmeResponse_eq_ok.mp h
        exact .inr ⟨rfl, rfl, rfl, rfl⟩

def Issues (orderId : ℕ) (agents : List AgentId) (before after : Tables) : Prop :=
  ∀ c ∈ after.acmeCertificates, c ∈ before.acmeCertificates ∨
    c.orderId = orderId ∧ ∃ agent ∈ agents, agent.1 = c.aic

theorem CertificateService.issueCertificates_eq_ok {orderId : ℕ} {agentInfos : List AgentInfo}
    {env : FinalizeEnv} {n : ℕ} {agentIds : List AgentId} {tables tables' : Tables}
    (h : CertificateService.issueCertificates p orderId agentInfos env n agentIds tables =
      .ok tables') : Issues orderId agentIds tables tables' := by
  induction agentIds generalizing n tables with
  | nil =>
    obtain rfl := Except.ok.inj h
    exact fun c hc => .inl hc
  | cons agentId agentIds ih =>
    unfold CertificateService.issueCertificates at h
    split at h
    · cases h
    · obtain ⟨tables₁, hcreate, h⟩ := bind_eq_ok.mp h
      obtain ⟨tables₂, hacme, hcommon⟩ := bind_eq_ok.mp hcreate
      obtain ⟨_, -, hacme⟩ := bind_eq_ok.mp hacme
      obtain ⟨rows, hinsert, hacme⟩ := bind_eq_ok.mp hacme
      obtain ⟨-, rfl⟩ := Keyed.insert_eq_ok.mp hinsert
      obtain rfl := pure_eq_ok.mp hacme
      obtain ⟨_, -, hcommon⟩ := bind_eq_ok.mp hcommon
      obtain ⟨_, -, hcommon⟩ := bind_eq_ok.mp hcommon
      obtain rfl := pure_eq_ok.mp hcommon
      intro c hc
      rcases ih h c hc with hold | ⟨horder, agent, hagent, haic⟩
      · rcases List.mem_append.mp hold with hold | hnew
        · exact .inl hold
        · obtain rfl := List.mem_singleton.mp hnew
          exact .inr ⟨rfl, agentId, List.mem_cons_self, rfl⟩
      · exact .inr ⟨horder, agent, List.mem_cons_of_mem agentId hagent, haic⟩

def Finalizes (orderId : Text) (db db' : Db) : Prop :=
  ∃ account ∈ db.accounts, account.status ≠ .deactivated ∧
    ∃ order ∈ db.orders, order.orderId = orderId ∧ order.accountId = account.id ∧
      order.status = .ready ∧
      ∃ certificate, db'.orders = Keyed.modify AcmeOrder.id db.orders order.id
          (fun _ => { order with status := .valid, certificate := certificate }) ∧
        Issues order.id (order.identifiers.map (·.value)) db.tables db'.tables ∧
        db'.accounts = db.accounts ∧ db'.authorizations = db.authorizations

theorem finalizeOrder_eq_ok {orderId : Text} {env : FinalizeEnv}
    (h : finalizeOrder p db orderId requestData env = .ok db') : Finalizes orderId db db' := by
  obtain ⟨⟨account, payload, db₁⟩, hauth, h⟩ := bind_eq_ok.mp h
  obtain ⟨hmem, hactive, nonces, rfl⟩ := authenticate_eq_ok hauth
  dsimp only at h
  split at h
  · cases h
  next order horder =>
    obtain ⟨_, howner, h⟩ := bind_eq_ok.mp h
    obtain ⟨_, hready, h⟩ := bind_eq_ok.mp h
    obtain ⟨csrDer, -, h⟩ := bind_eq_ok.mp h
    obtain ⟨agentInfos, -, h⟩ := bind_eq_ok.mp h
    obtain ⟨tables, hissue, h⟩ := bind_eq_ok.mp h
    obtain ⟨-, rfl⟩ := createAcmeResponse_eq_ok.mp h
    refine ⟨account, hmem, hactive, order, Keyed.mem_of_find horder, Keyed.key_of_find horder,
      require_eq_ok.mp howner, require_eq_ok.mp hready, _, Keyed.modify_modify_const rfl, ?_, rfl,
      rfl⟩
    unfold CertificateService.issueCertificate at hissue
    split at hissue
    · cases hissue
    · obtain ⟨_, -, hissue⟩ := bind_eq_ok.mp hissue
      obtain ⟨_, -, hissue⟩ := bind_eq_ok.mp hissue
      exact CertificateService.issueCertificates_eq_ok hissue

def Revokes (db db' : Db) : Prop :=
  (∀ c ∈ db'.tables.acmeCertificates, ∃ old ∈ db.tables.acmeCertificates,
      c.orderId = old.orderId ∧ c.aic = old.aic) ∧
    db'.accounts = db.accounts ∧ db'.orders = db.orders ∧ db'.authorizations = db.authorizations

theorem revokeCertificateRequest_eq_ok {env : Env}
    (h : revokeCertificateRequest p db requestData env = .ok db') : Revokes db db' := by
  obtain ⟨⟨header, payload, db₁⟩, hparse, h⟩ := bind_eq_ok.mp h
  obtain ⟨-, nonces, rfl⟩ := parseRequest_eq_ok hparse
  obtain ⟨_, -, h⟩ := bind_eq_ok.mp h
  obtain ⟨_, -, h⟩ := bind_eq_ok.mp h
  obtain ⟨_, -, h⟩ := bind_eq_ok.mp h
  obtain ⟨_, -, h⟩ := bind_eq_ok.mp h
  split at h
  · cases h
  · obtain ⟨acmeCert, -, h⟩ := bind_eq_ok.mp h
    obtain ⟨_, -, h⟩ := bind_eq_ok.mp h
    obtain ⟨-, rfl⟩ := createAcmeResponse_eq_ok.mp h
    refine ⟨fun c hc => ?_, rfl, rfl, rfl⟩
    obtain ⟨old, hold, rfl⟩ := Keyed.mem_modify.mp hc
    refine ⟨old, hold, ?_⟩
    split
    · exact ⟨rfl, rfl⟩
    · exact ⟨rfl, rfl⟩

end Effects

end Acps.Ca.Acme
