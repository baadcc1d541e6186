import Acps.Ca.Certificate
import Acps.Lib.Fallible
import Acps.Lib.Keyed

/-!
The two tables of certificates, and what the administration and the ACME service do to them.
-/

namespace Acps.Ca

open Aic (Text)

structure AcmeCertificate where
  certId : Text
  orderId : ℕ
  serialNumber : SerialText
  certificatePem : X509
  status : CertificateStatus
  notAfter : Time
  revokedAt : Option Time
  revocationReason : Option RevocationReason
  aic : Text
  deriving DecidableEq

structure Tables where
  acmeCertificates : List AcmeCertificate
  certificates : List Certificate
  deriving DecidableEq

namespace Tables

variable (t : Tables)

def insertCertificate (c : Certificate) : Except CaError Tables := do
  let _ ← Keyed.insert Certificate.id t.certificates c CaError.integrityError
  let certificates ← Keyed.insert Certificate.serialNumber t.certificates c CaError.integrityError
  return { t with certificates := certificates }

def insertAcmeCertificate (a : AcmeCertificate) : Except CaError Tables := do
  let _ ← Keyed.insert AcmeCertificate.certId t.acmeCertificates a CaError.integrityError
  let acmeCertificates ←
    Keyed.insert AcmeCertificate.serialNumber t.acmeCertificates a CaError.integrityError
  return { t with acmeCertificates := acmeCertificates }

def getNextCertificateVersion (aic : Text) : ℕ :=
  if aic = [] then 1
  else ((t.certificates.filter (·.aic = some aic)).map (·.version)).foldr max 0 + 1

end Tables

structure Draws where
  id : ℕ
  pairSerial : SerialText
  serialNumber : SerialText

def days (n : ℤ) : Time := 86400000 * n

section Administration

variable (t : Tables)

def generateCertificatePair (subjectName : Text) (pairSerial : SerialText) : Except CaError X509 := do
  Fallible.require (0 < pairSerial.toNat)
    (CaError.valueError "The serial number should be positive.")
  return { serialNumber := pairSerial.toNat, subject := subjectName }

structure CertificateData where
  certificateType : CertificateType
  subject : Text
  issuer : Text
  status : CertificateStatus
  certificatePem : X509
  parentCertificateId : Option ℕ
  aic : Option Text
  expiresAt : Time

def createCertificate (data : CertificateData) (draws : Draws) : Except CaError Tables :=
  t.insertCertificate
    { id := draws.id
      certificateType := data.certificateType
      serialNumber := draws.serialNumber
      subject := data.subject
      issuer := data.issuer
      status := data.status
      expiresAt := data.expiresAt
      revokedAt := none
      revocationReason := none
      certificatePem := data.certificatePem
      version :=
        match data.aic with
        | some (c :: aic) => t.getNextCertificateVersion (c :: aic)
        | _ => 1
      parentCertificateId := data.parentCertificateId
      aic := data.aic }

def getCertificateById (certificateId : ℕ) : Option Certificate :=
  Keyed.find Certificate.id t.certificates certificateId

def createRootCertificate (subjectName : Text) (validityDays : ℤ) (now : Time) (draws : Draws) :
    Except CaError Tables := do
  let certPem ← generateCertificatePair subjectName draws.pairSerial
  createCertificate t
    { certificateType := .root
      subject := subjectName
      issuer := subjectName
      status := .valid
      certificatePem := certPem
      parentCertificateId := none
      aic := none
      expiresAt := now + days validityDays } draws

def validParent (parentId : ℕ) (message : String) : Except CaError Certificate :=
  match getCertificateById t parentId with
  | none => .error (.invalidParentCertificate message)
  | some parent =>
    if parent.status ≠ .valid then .error (.invalidParentCertificate message) else .ok parent

def createIntermediateCertificate (subjectName : Text) (parentCertificateId : ℕ)
    (validityDays : ℤ) (now : Time) (draws : Draws) : Except CaError Tables := do
  let parentCertificate ← validParent t parentCertificateId ""
  let certPem ← generateCertificatePair subjectName draws.pairSerial
  createCertificate t
    { certificateType := .intermediate
      subject := subjectName
      issuer := parentCertificate.subject
      status := .valid
      certificatePem := certPem
      parentCertificateId := some parentCertificateId
      aic := none
      expiresAt := now + days validityDays } draws

def normalizeRevocationReason (reason : Text) : RevocationReason :=
  if reason = "续期替换".toList then .superseded
  else if reason = "unspecified".toList then .unspecified
  else if reason = "keyCompromise".toList then .keyCompromise
  else if reason = "caCompromise".toList then .caCompromise
  else if reason = "affiliationChanged".toList then .affiliationChanged
  else if reason = "superseded".toList then .superseded
  else if reason = "cessationOfOperation".toList then .cessationOfOperation
  else .unspecified

def markRevoked (now : Time) (reason : RevocationReason) (c : Certificate) : Certificate :=
  { c with status := .revoked, revokedAt := some now, revocationReason := some reason }

def revokeCertificate (certificateId : ℕ) (reason : Text) (now : Time) : Except CaError Tables :=
  match getCertificateById t certificateId with
  | none => .error .certificateNotFound
  | some _ =>
    .ok { t with
      certificates := Keyed.modify Certificate.id t.certificates certificateId
        (markRevoked now (normalizeRevocationReason reason)) }

def defaultValidityDays : CertificateType → ℤ
  | .root => 3650
  | .intermediate => 1825
  | .user | .agent => 365

def resolveRenewalParentCertificate (oldCertificate : Certificate) : Except CaError Unit :=
  match oldCertificate.certificateType, oldCertificate.parentCertificateId with
  | .intermediate, none =>
    .error (.invalidParentCertificate "Intermediate certificate missing parent certificate.")
  | .intermediate, some parentId => do
    let _ ← validParent t parentId ""
  | _, some parentId => do
    let _ ← validParent t parentId "Parent certificate is not valid for renewal."
  | _, none => .ok ()

def renewalReason : Text := "续期替换".toList

def renewCertificate (certificateId : ℕ) (validityDays : Option ℤ) (now : Time) (draws : Draws) :
    Except CaError Tables :=
  match getCertificateById t certificateId with
  | none => .error .certificateNotFound
  | some oldCertificate => do
    let validityDays := validityDays.getD (defaultValidityDays oldCertificate.certificateType)
    resolveRenewalParentCertificate t oldCertificate
    let certPem ← generateCertificatePair oldCertificate.subject draws.pairSerial
    let t ← createCertificate t
      { certificateType := oldCertificate.certificateType
        subject := oldCertificate.subject
        issuer := oldCertificate.issuer
        status := .valid
        certificatePem := certPem
        parentCertificateId := oldCertificate.parentCertificateId
        aic := oldCertificate.aic
        expiresAt := now + days validityDays } draws
    revokeCertificate t certificateId renewalReason now

def validOf (aic : Text) : List Certificate :=
  t.certificates.filter fun c => c.aic = some aic ∧ c.status = .valid

def revokeOne (reason : Text) (now : ℕ → Time) (state : Tables × ℕ) (cert : Certificate) :
    Tables × ℕ :=
  match revokeCertificate state.1 cert.id reason (now cert.id) with
  | .ok t => (t, state.2 + 1)
  | .error _ => state

def revokeCertificatesByAic (aic reason : Text) (now : ℕ → Time) : Tables × ℕ :=
  (validOf t aic).foldl (revokeOne reason now) (t, 0)

def revocationReasonText : ℤ → Text
  | 0 => "unspecified".toList
  | 1 => "keyCompromise".toList
  | 2 => "cACompromise".toList
  | 3 => "affiliationChanged".toList
  | 4 => "superseded".toList
  | 5 => "cessationOfOperation".toList
  | _ => "unspecified".toList

def revokeNotify (aic : Text) (reason : ℤ) (now : ℕ → Time) : Except CaError Tables := do
  Fallible.require (0 ≤ reason ∧ reason ≤ 5)
    (CaError.valueError "Invalid revocation reason code. Must be between 0 and 5.")
  return (revokeCertificatesByAic t aic (revocationReasonText reason) now).1

end Administration

namespace Acme

variable (t : Tables)

abbrev AgentId := { aic : Text // aic ≠ [] }

structure CertificateCreate where
  orderId : ℕ
  serialNumber : SerialText
  certificatePem : X509
  notAfter : Time
  aic : AgentId

def certificateCreate (orderId : ℕ) (certPem : X509) (notAfter : Time) (agentId : AgentId) :
    CertificateCreate :=
  { orderId := orderId
    serialNumber := upperHex certPem.serialNumber
    certificatePem := certPem
    notAfter := notAfter
    aic := agentId }

def createCertificate (certData : CertificateCreate) (certId : Text) (id : ℕ) (subject : Text) :
    Except CaError Tables := do
  let t ← t.insertAcmeCertificate
    { certId := certId
      orderId := certData.orderId
      serialNumber := certData.serialNumber
      certificatePem := certData.certificatePem
      status := .valid
      notAfter := certData.notAfter
      revokedAt := none
      revocationReason := none
      aic := certData.aic.1 }
  t.insertCertificate
    { id := id
      certificateType := .agent
      serialNumber := certData.serialNumber
      subject := subject
      issuer := "Agent Trusted Registration CA".toList
      status := .valid
      expiresAt := certData.notAfter
      revokedAt := none
      revocationReason := none
      certificatePem := certData.certificatePem
      version := t.getNextCertificateVersion certData.aic.1
      parentCertificateId := none
      aic := some certData.aic.1 }

def validateRevocationReason : Option ℤ → Except CaError ℤ
  | none => .ok 0
  | some reasonCode =>
    if reasonCode < 0 ∨ 5 < reasonCode then
      .error (.acme 400 "MALFORMED_REQUEST" "Invalid revocation reason code")
    else .ok reasonCode

def getRevocableCertificate (cert : X509) (owned : Option (ℕ → Bool)) :
    Except CaError AcmeCertificate :=
  match Keyed.find AcmeCertificate.serialNumber t.acmeCertificates (upperHex cert.serialNumber) with
  | none => .error (.acme 404 "CERTIFICATE_NOT_FOUND" "Certificate not found")
  | some acmeCert =>
    if ¬ owned.all (· acmeCert.orderId) then
      .error (.acme 403 "UNAUTHORIZED" "Certificate does not belong to this account")
    else if acmeCert.status = .revoked then
      .error (.acme 400 "ALREADY_REVOKED" "Certificate is already revoked")
    else .ok acmeCert

def markAcmeRevoked (now : Time) (reason : RevocationReason) (a : AcmeCertificate) :
    AcmeCertificate :=
  { a with status := .revoked, revokedAt := some now, revocationReason := some reason }

def revokeCertificate (certificate : AcmeCertificate) (reason : ℤ) (now : Time) : Tables :=
  let revocationReason := RevocationReason.fromAcmeCode reason
  { acmeCertificates := Keyed.modify AcmeCertificate.certId t.acmeCertificates certificate.certId
      (markAcmeRevoked now revocationReason)
    certificates :=
      match Keyed.find Certificate.serialNumber t.certificates certificate.serialNumber with
      | none => t.certificates
      | some common =>
        if common.status ≠ .revoked then
          Keyed.modify Certificate.id t.certificates common.id (markRevoked now revocationReason)
        else t.certificates }

def revokeCert (cert : X509) (owned : Option (ℕ → Bool)) (reason : Option ℤ) (now : Time) :
    Except CaError Tables := do
  let reasonCode ← validateRevocationReason reason
  let acmeCert ← getRevocableCertificate t cert owned
  return revokeCertificate t acmeCert reasonCode now

end Acme

end Acps.Ca
