import Acps.Lib.HashChain
import Acps.Lib.Json
import Acps.Lib.Numerals

/-!
Audit records and the hashes that chain them: the hash of a record covers its place in its chain,
the hash of the raw log and the hash of the record before it.
-/

namespace Acps.Audit

open Numerals

abbrev Time := ℤ

abbrev Uuid := BitVec 128

structure Platform where
  canonicalize : Json → Option (List UInt8)
  sha256 : List UInt8 → List UInt8
  b64encode : List UInt8 → List Char
  encode : String → List UInt8
  fromIsoFormat : String → Option Time
  uuid : String → Option Uuid

def padded (width n : ℕ) (ds : List Char) : List Char := List.replicate (width - n) '0' ++ ds

def Uuid.str (u : Uuid) : String :=
  let hex := numeral 16 u.toNat
  let digits := (padded 32 hex.length hex).map Char.toLower
  String.ofList (digits.take 8 ++ '-' :: (digits.drop 8).take 4 ++ '-' :: (digits.drop 12).take 4 ++
    '-' :: (digits.drop 16).take 4 ++ '-' :: digits.drop 20)

section Hashes

variable (π : Platform)

def hexdigest (data : List UInt8) : String := String.ofList (toHex (π.sha256 data))

def computeRawLogHash (rawLog : JsonObject) : Option String :=
  (π.canonicalize (.obj rawLog)).map (hexdigest π)

def computeCurrentHash (auditId logId timestampStr aic chainId : String) (chainSeq : ℤ)
    (rawLogHash : String) (previousHash : Option String) : Option String :=
  let preimage : JsonObject :=
    [("v", .num 1), ("auditId", .str auditId), ("logId", .str logId),
      ("timestamp", .str timestampStr), ("aic", .str aic), ("chainId", .str chainId),
      ("chainSeq", .num chainSeq), ("rawLogHash", .str rawLogHash),
      ("previousHash", previousHash.elim .null .str)]
  (π.canonicalize (.obj preimage)).map (hexdigest π)

def chainName (logicalChainCount index : ℕ) : String :=
  let width := (numeral 10 (logicalChainCount - 1)).length
  let digits := numeral 10 index
  "audit-chain-" ++ String.ofList (padded width digits.length digits)

def fromBytes (bytes : List UInt8) : ℕ := bytes.foldl (fun n b => n * 256 + b.toNat) 0

def computeChainId (aic : String) (logicalChainCount : ℕ) : Option String :=
  if logicalChainCount = 0 then none
  else
    let index := fromBytes ((π.sha256 (π.encode aic)).take 8) % logicalChainCount
    some (chainName logicalChainCount index)

end Hashes

structure BodyColumns where
  actorId : String
  actorType : String
  actorName : Option String
  actorRole : Option String
  actorIp : Option String
  actorUserAgent : Option String
  actionName : String
  actionType : String
  actionMethod : Option String
  targetType : String
  targetId : String
  targetName : Option String
  targetBefore : Option Json
  targetAfter : Option Json
  resultStatus : String
  resultReason : Option String
  resultErrorCode : Option String
  deriving DecidableEq

structure SignatureColumns where
  alg : String
  kid : String
  value : String
  verified : Bool
  checkedAt : Time
  verificationFailureType : Option String
  deriving DecidableEq

structure AuditRecord where
  auditId : Uuid
  logId : String
  timestamp : Time
  committedAt : Time
  aic : String
  tenantId : Option String
  traceId : Option String
  correlationId : Option String
  chainId : String
  chainSeq : ℤ
  body : BodyColumns
  signature : SignatureColumns
  hashVersion : ℤ
  rawLogHash : String
  previousHash : Option String
  currentHash : String
  chainVerified : Option Bool
  rawLog : JsonObject
  deriving DecidableEq

structure AuditRecordIdentity where
  auditId : Uuid
  logId : String
  timestamp : Time
  committedAt : Time
  chainId : String
  chainSeq : ℤ
  createdAt : Time
  deriving DecidableEq

structure AuditChainHead where
  lastAuditId : Option Uuid
  lastChainSeq : ℤ
  lastCurrentHash : Option String
  updatedAt : Time
  deriving DecidableEq

def AuditRecord.recomputedHash (π : Platform) (r : AuditRecord) : Option String :=
  match JsonObject.get r.rawLog "timestamp" with
  | some (.str timestampStr) =>
    computeCurrentHash π r.auditId.str r.logId timestampStr r.aic r.chainId r.chainSeq r.rawLogHash
      r.previousHash
  | _ => none

def chainView : HashChain.View AuditRecord String where
  seq := AuditRecord.chainSeq
  previous := AuditRecord.previousHash
  current := AuditRecord.currentHash

def AuditChainHead.PointsAt (head : AuditChainHead) (last : Option AuditRecord) : Prop :=
  head.lastAuditId = last.map AuditRecord.auditId ∧
  head.lastChainSeq = last.elim (-1) AuditRecord.chainSeq ∧
  head.lastCurrentHash = last.map AuditRecord.currentHash

def chainOf (records : List AuditRecord) (chainId : String) : List AuditRecord :=
  records.filter (·.chainId = chainId)

theorem chainOf_append (records : List AuditRecord) (r : AuditRecord) (chainId : String) :
    chainOf (records ++ [r]) chainId =
      if r.chainId = chainId then chainOf records chainId ++ [r] else chainOf records chainId := by
  unfold chainOf
  rw [List.filter_append]
  split
  next h => simp [h]
  next h => simp [h]

end Acps.Audit
