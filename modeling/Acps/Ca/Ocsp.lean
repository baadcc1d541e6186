import Acps.Ca.Certificate
import Acps.Lib.Keyed

/-!
The OCSP responder: the signed answer to a request, the status of a batch and the status endpoint.
-/

namespace Acps.Ca

open Aic (Text)
open Numerals

inductive OcspResponseStatus where
  | good
  | revoked
  | unknown
  | expired
  deriving DecidableEq

inductive OcspCertStatus where
  | good
  | revoked
  | unknown
  deriving DecidableEq

inductive ReasonFlags where
  | unspecified
  | keyCompromise
  | caCompromise
  | affiliationChanged
  | superseded
  | cessationOfOperation
  deriving DecidableEq

structure CertId where
  hashAlgorithm : Text
  issuerNameHash : Text
  issuerKeyHash : Text
  serialNumber : ℤ
  deriving DecidableEq

structure SingleResponse where
  certId : CertId
  certStatus : OcspCertStatus
  thisUpdate : Time
  nextUpdate : Time
  revocationTime : Option Time
  revocationReason : Option ReasonFlags
  deriving DecidableEq

def decimal (n : ℤ) : Text := if n < 0 then '-' :: numeral 10 n.natAbs else numeral 10 n.natAbs

def hours (n : ℤ) : Time := 3600000 * n

def resolveCertificateStatus :
    Option Certificate → OcspResponseStatus × Option Time × Option RevocationReason
  | none => (.unknown, none, none)
  | some certificate =>
    match certificate.status with
    | .revoked => (.revoked, certificate.revokedAt, certificate.revocationReason)
    | .valid => (.good, none, none)
    | .expired => (.unknown, none, none)
    | .pending => (.unknown, none, none)

def buildResponse (caHashes : Text → Text × Text) (certificate : Option Certificate)
    (resolved : OcspResponseStatus × Option Time × Option RevocationReason) (request : CertId)
    (now : Time) : SingleResponse :=
  let (certStatus, revocationTime, revocationReason) := resolved
  match certificate with
  | none =>
    { certId := request
      certStatus := .unknown
      thisUpdate := now
      nextUpdate := now + hours 24
      revocationTime := none
      revocationReason := none }
  | some certificate =>
    let (nameHash, keyHash) := caHashes request.hashAlgorithm
    { certId :=
        { hashAlgorithm := request.hashAlgorithm
          issuerNameHash := nameHash
          issuerKeyHash := keyHash
          serialNumber := certificate.certificatePem.serialNumber }
      certStatus :=
        match certStatus with
        | .revoked => .revoked
        | .unknown | .expired => .unknown
        | .good => .good
      thisUpdate := now
      nextUpdate := now + hours 24
      revocationTime :=
        if certStatus = .revoked then some (revocationTime.getD now) else none
      revocationReason :=
        if certStatus = .revoked then
          some (if revocationReason = some .keyCompromise then .keyCompromise else .unspecified)
        else none }

def findBySerial (table : List Certificate) (serialNumber : Text) : Option Certificate :=
  Keyed.find (·.serialNumber.1) table serialNumber

def processOcspRequest (caHashes : Text → Text × Text) (table : List Certificate)
    (request : CertId) (now : Time) : SingleResponse :=
  let certificate := findBySerial table (decimal request.serialNumber)
  buildResponse caHashes certificate (resolveCertificateStatus certificate) request now

structure BatchStatus where
  status : OcspResponseStatus
  thisUpdate : Time
  nextUpdate : Time
  revocationTime : Option Time
  revocationReason : Option RevocationReason

def buildBatchStatus (certificate : Option Certificate) (now : Time) : BatchStatus :=
  let answer (status : OcspResponseStatus) (time : Option Time)
      (reason : Option RevocationReason) : BatchStatus :=
    { status := status
      thisUpdate := now
      nextUpdate := now + hours 24
      revocationTime := time
      revocationReason := reason }
  match certificate with
  | none => answer .unknown none none
  | some certificate =>
    match certificate.status with
    | .revoked => answer .revoked certificate.revokedAt certificate.revocationReason
    | .valid => answer .good none none
    | .expired => answer .expired (some certificate.expiresAt) none
    | .pending => answer .unknown none none

def batchCheckCertificates (table : List Certificate) (requests : List (Option Text × Time)) :
    List (Text × BatchStatus) :=
  requests.filterMap fun
    | (none, _) | (some [], _) => none
    | (some serialNumber, now) =>
      some (serialNumber, buildBatchStatus (findBySerial table serialNumber) now)

structure StatusResponse where
  serialNumber : Text
  certificateStatus : OcspResponseStatus
  thisUpdate : Time
  nextUpdate : Time
  revocationTime : Option Time
  revocationReason : Option RevocationReason

def resolveValidCertificateStatus (certificate : Certificate) (currentTime : Time) :
    OcspResponseStatus :=
  if certificate.expiresAt < currentTime then .expired else .good

def getCertificateStatus (table : List Certificate) (serialNumber : Text) (currentTime : Time) :
    StatusResponse :=
  let answer (status : OcspResponseStatus) (time : Option Time)
      (reason : Option RevocationReason) : StatusResponse :=
    { serialNumber := serialNumber
      certificateStatus := status
      thisUpdate := currentTime
      nextUpdate := currentTime + hours 24
      revocationTime := time
      revocationReason := reason }
  match findBySerial table serialNumber with
  | none => answer .unknown none none
  | some certificate =>
    match certificate.status with
    | .revoked => answer .revoked certificate.revokedAt certificate.revocationReason
    | .valid => answer (resolveValidCertificateStatus certificate currentTime) none none
    | .expired => answer .expired none none
    | .pending => answer .unknown none none

end Acps.Ca
