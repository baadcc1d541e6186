import Acps.Ca.Ocsp
import Acps.Lib.Fallible

/-!
Certificate revocation lists: what goes on one and how they are numbered.
-/

namespace Acps.Ca

inductive CrlStatus where
  | current
  | superseded
  | expired
  deriving DecidableEq

structure RevokedCertificate where
  serialNumber : ℕ
  revocationDate : Time
  reason : ReasonFlags
  deriving DecidableEq

structure Crl where
  version : Time
  crlNumber : ℕ
  thisUpdate : Time
  nextUpdate : Time
  status : CrlStatus
  revokedCertificatesCount : ℕ
  revokedCertificates : List RevokedCertificate
  deriving DecidableEq

def mapReasonFlag : ℤ → ReasonFlags
  | 0 => .unspecified
  | 1 => .keyCompromise
  | 2 => .caCompromise
  | 3 => .affiliationChanged
  | 4 => .superseded
  | 5 => .cessationOfOperation
  | _ => .unspecified

def revokedEntry (cert : Certificate) : Option RevokedCertificate :=
  match cert.revokedAt, cert.revocationReason with
  | some revokedAt, some revocationReason =>
    some
      { serialNumber := cert.serialNumber.toNat
        revocationDate := revokedAt
        reason := mapReasonFlag revocationReason.toAcmeCode }
  | _, _ => none

def buildRevokedCertList (revokedCerts : List Certificate) :
    Except CaError (List RevokedCertificate) :=
  let entries := revokedCerts.filterMap revokedEntry
  if ¬ entries.all (fun e => 0 < e.serialNumber) then
    .error (.valueError "The serial number should be positive")
  else if ¬ entries.all (fun e => e.serialNumber < 2 ^ 159) then
    .error (.valueError "The serial number should not be more than 159 bits.")
  else .ok entries

def lastCrlNumber (crls : List Crl) : ℕ := (crls.map (·.crlNumber)).foldr max 0

def generateNewCrl (table : List Certificate) (crls : List Crl) (now : Time)
    (nextUpdateHours : ℤ) : Except CaError (Crl × List Crl) := do
  let revokedCerts := table.filter (·.status = .revoked)
  let revokedCertList ← buildRevokedCertList revokedCerts
  let crlRecord : Crl :=
    { version := now
      crlNumber := lastCrlNumber crls + 1
      thisUpdate := now
      nextUpdate := now + hours nextUpdateHours
      status := .current
      revokedCertificatesCount := revokedCerts.length
      revokedCertificates := revokedCertList }
  let oldCrls := crls.map fun old =>
    if old.status = .current then { old with status := .superseded } else old
  let crls ← Keyed.insert Crl.version oldCrls crlRecord .integrityError
  return (crlRecord, crls)

theorem crlNumber_le_last {crls : List Crl} {crl : Crl} (h : crl ∈ crls) :
    crl.crlNumber ≤ lastCrlNumber crls := by
  induction crls with
  | nil => cases h
  | cons first crls ih =>
    simp only [lastCrlNumber, List.map_cons, List.foldr_cons]
    rcases List.mem_cons.mp h with rfl | h
    · exact le_max_left _ _
    · exact (ih h).trans (le_max_right _ _)

theorem buildRevokedCertList_ok {revokedCerts : List Certificate}
    {entries : List RevokedCertificate} (h : buildRevokedCertList revokedCerts = .ok entries) :
    entries = revokedCerts.filterMap revokedEntry := by
  unfold buildRevokedCertList at h
  dsimp only at h
  split_ifs at h
  exact (Except.ok.inj h).symm

theorem generateNewCrl_ok {table : List Certificate} {crls crls' : List Crl} {now : Time}
    {nextUpdateHours : ℤ} {crl : Crl}
    (h : generateNewCrl table crls now nextUpdateHours = .ok (crl, crls')) :
    crl.crlNumber = lastCrlNumber crls + 1 ∧
      crl.revokedCertificates = (table.filter (·.status = .revoked)).filterMap revokedEntry := by
  obtain ⟨entries, hentries, h⟩ := Fallible.bind_eq_ok.mp h
  obtain ⟨crls'', -, h⟩ := Fallible.bind_eq_ok.mp h
  obtain ⟨rfl, -⟩ := Prod.mk.inj (Fallible.pure_eq_ok.mp h)
  exact ⟨rfl, buildRevokedCertList_ok hentries⟩

end Acps.Ca
