import Acps.Ca.Jws
import Acps.Lib.Base64
import Mathlib.Data.Nat.Size

/-!
The key behind a JSON web key and the thumbprint of its texts: which spellings of a key share one.
-/

namespace Acps.Ca.KeyIdentity

open Aic (Text)
open Base64

section Integers

def fromBytes (bytes : Bytes) : ℕ := bytes.foldl (fun n b => n * 256 + b.toNat) 0

def toBytes : ℕ → ℕ → Bytes
  | 0, _ => []
  | length + 1, n => toBytes length (n / 256) ++ [UInt8.ofNat n]

def byteLength (n : ℕ) : ℕ := (n.size + 7) / 8

theorem fromBytes_concat (bytes : Bytes) (b : UInt8) :
    fromBytes (bytes ++ [b]) = fromBytes bytes * 256 + b.toNat := by
  simp [fromBytes]

theorem fromBytes_lt (bytes : Bytes) : fromBytes bytes < 256 ^ bytes.length := by
  induction bytes using List.reverseRecOn with
  | nil => decide
  | append_singleton bytes b ih =>
    have hb := b.toNat_lt
    rw [fromBytes_concat, List.length_append, List.length_singleton, Nat.pow_succ]
    omega

theorem length_toBytes (length n : ℕ) : (toBytes length n).length = length := by
  induction length generalizing n with
  | zero => rfl
  | succ length ih => rw [toBytes, List.length_append, ih, List.length_singleton]

theorem fromBytes_toBytes {length n : ℕ} (h : n < 256 ^ length) :
    fromBytes (toBytes length n) = n := by
  induction length generalizing n with
  | zero =>
    have hn : n = 0 := by simpa using h
    rw [hn]
    rfl
  | succ length ih =>
    rw [Nat.pow_succ] at h
    rw [toBytes, fromBytes_concat, ih (by omega), UInt8.toNat_ofNat']
    omega

theorem toBytes_fromBytes (bytes : Bytes) : toBytes bytes.length (fromBytes bytes) = bytes := by
  induction bytes using List.reverseRecOn with
  | nil => rfl
  | append_singleton bytes b ih =>
    have hb := b.toNat_lt
    have hquotient : (fromBytes bytes * 256 + b.toNat) / 256 = fromBytes bytes := by omega
    have hbyte : UInt8.ofNat (fromBytes bytes * 256 + b.toNat) = b := by
      apply UInt8.toNat_inj.mp
      rw [UInt8.toNat_ofNat']
      omega
    rw [fromBytes_concat, List.length_append, List.length_singleton, toBytes, hquotient, ih, hbyte]

theorem fromBytes_cons (b : UInt8) (bytes : Bytes) :
    fromBytes (b :: bytes) = b.toNat * 256 ^ bytes.length + fromBytes bytes := by
  induction bytes using List.reverseRecOn with
  | nil => simp [fromBytes]
  | append_singleton bytes c ih =>
    rw [← List.cons_append, fromBytes_concat, ih, fromBytes_concat, List.length_append,
      List.length_singleton, Nat.pow_succ]
    ring

theorem pow_256 (k : ℕ) : 256 ^ k = 2 ^ (8 * k) := by
  rw [Nat.pow_mul]

theorem byteLength_le_iff {n k : ℕ} : byteLength n ≤ k ↔ n < 256 ^ k := by
  rw [pow_256, ← Nat.size_le, byteLength]
  omega

theorem head_toBytes (n : ℕ) : (toBytes (byteLength n) n).head? ≠ some 0 := by
  intro hzero
  have hn : fromBytes (toBytes (byteLength n) n) = n :=
    fromBytes_toBytes (byteLength_le_iff.mp le_rfl)
  have hlength := length_toBytes (byteLength n) n
  rcases hbytes : toBytes (byteLength n) n with _ | ⟨b, bytes⟩
  · rw [hbytes] at hzero
    cases hzero
  · rw [hbytes] at hzero hn hlength
    obtain rfl : b = 0 := Option.some.inj hzero
    rw [fromBytes_cons, UInt8.toNat_zero, Nat.zero_mul, Nat.zero_add] at hn
    have hlt := fromBytes_lt bytes
    rw [hn] at hlt
    have hle := byteLength_le_iff.mpr hlt
    rw [List.length_cons] at hlength
    omega

theorem byteLength_fromBytes {bytes : Bytes} (h : bytes.head? ≠ some 0) :
    byteLength (fromBytes bytes) = bytes.length := by
  apply Nat.le_antisymm (byteLength_le_iff.mpr (fromBytes_lt bytes))
  rcases bytes with _ | ⟨b, bytes⟩
  · exact Nat.zero_le _
  · have hb : 0 < b.toNat := by
      rcases Nat.eq_zero_or_pos b.toNat with hzero | hpos
      · exact absurd (congrArg some (UInt8.toNat_inj.mp hzero)) h
      · exact hpos
    by_contra hlt
    rw [List.length_cons, not_le, Nat.lt_succ_iff, byteLength_le_iff, fromBytes_cons] at hlt
    have := Nat.le_mul_of_pos_left (256 ^ bytes.length) hb
    omega

end Integers

section Texts

def decodeAscii (data : Text) : Option Bytes :=
  let paddingNeeded := 4 - data.length % 4
  let data := if paddingNeeded ≠ 4 then data ++ List.replicate paddingNeeded '=' else data
  if data.all (·.toNat < 128) then urlsafeB64decode data else none

def base64urlDecode (data : Text) : Except CaError Bytes :=
  match decodeAscii data with
  | some bytes => .ok bytes
  | none => .error (.acme 400 "MALFORMED" "Invalid base64url encoding")

def base64urlEncode (data : Bytes) : Text := (urlsafeB64encode data).rdropWhile (· = '=')

theorem ascii_toUrlsafe_digit : ∀ n < 64, (toUrlsafe (digit n)).toNat < 128 := by decide

theorem decodeAscii_base64urlEncode (bytes : Bytes) :
    decodeAscii (base64urlEncode bytes) = some bytes := by
  have hdigits : base64urlEncode bytes = (digits bytes).map toUrlsafe :=
    rstrip_urlsafeB64encode bytes
  have hlength := length_digits bytes
  have hpadded : (if 4 - (base64urlEncode bytes).length % 4 ≠ 4 then
      base64urlEncode bytes ++
        List.replicate (4 - (base64urlEncode bytes).length % 4) '='
      else base64urlEncode bytes) = urlsafeB64encode bytes := by
    rw [hdigits, List.length_map, urlsafeB64encode, b64encode, List.map_append, List.map_replicate,
      show toUrlsafe '=' = '=' from rfl]
    split
    · rw [show 4 - (digits bytes).length % 4 = (3 - bytes.length % 3) % 3 by omega]
    · rw [show (3 - bytes.length % 3) % 3 = 0 by omega, List.replicate_zero, List.append_nil]
  have hascii : (urlsafeB64encode bytes).all (·.toNat < 128) = true := by
    rw [List.all_eq_true]
    intro c hc
    obtain ⟨d, hd, rfl⟩ := List.mem_map.mp hc
    rcases List.mem_append.mp hd with hd | hd
    · obtain ⟨v, hv, rfl⟩ := exists_digit_of_mem hd
      exact decide_eq_true (ascii_toUrlsafe_digit v hv)
    · rw [List.eq_of_mem_replicate hd]
      rfl
  have hback := urlsafeB64decode_urlsafeB64encode bytes 0
  rw [List.replicate_zero, List.append_nil] at hback
  unfold decodeAscii
  dsimp only
  rw [hpadded, if_pos hascii, hback]

theorem base64urlDecode_eq_ok {data : Text} {bytes : Bytes} :
    base64urlDecode data = .ok bytes ↔ decodeAscii data = some bytes := by
  unfold base64urlDecode
  cases decodeAscii data <;> simp

def spaced (data : Text) : Text := '!' :: '!' :: '!' :: '!' :: data

theorem decodeAscii_spaced (data : Text) : decodeAscii (spaced data) = decodeAscii data := by
  have hlength : (spaced data).length % 4 = data.length % 4 := by
    simp only [spaced, List.length_cons]
    omega
  have hskip (rest : Text) : urlsafeB64decode ('!' :: '!' :: '!' :: '!' :: rest) =
      urlsafeB64decode rest := rfl
  unfold decodeAscii
  rw [hlength]
  dsimp only
  split
  · rw [spaced, List.cons_append, List.cons_append, List.cons_append, List.cons_append, hskip]
    rfl
  · rw [spaced, hskip]
    rfl

theorem base64urlDecode_spaced (data : Text) :
    base64urlDecode (spaced data) = base64urlDecode data := by
  unfold base64urlDecode
  rw [decodeAscii_spaced]

end Texts

section Keys

inductive Curve where
  | secp256r1
  | secp384r1
  | secp521r1
  deriving DecidableEq

def Curve.keySize : Curve → ℕ
  | .secp256r1 => 256
  | .secp384r1 => 384
  | .secp521r1 => 521

def Curve.crv : Curve → String
  | .secp256r1 => "P-256"
  | .secp384r1 => "P-384"
  | .secp521r1 => "P-521"

def Curve.coordinateLength (c : Curve) : ℕ := (c.keySize + 7) / 8

def Curve.named (crv : String) : Curve :=
  if crv = "P-256" then .secp256r1 else if crv = "P-384" then .secp384r1 else .secp521r1

inductive PublicKey where
  | rsa (n e : ℕ)
  | ec (curve : Curve) (x y : ℕ)
  | ed25519 (bytes : Bytes)
  deriving DecidableEq

structure Cryptography where
  rsaNumbers : ℕ → ℕ → Bool
  ecNumbers : Curve → ℕ → ℕ → Bool
  rsaNumbers_pos : ∀ n e, rsaNumbers n e = true → 0 < n ∧ 0 < e
  ecNumbers_lt : ∀ c x y, ecNumbers c x y = true → x < 2 ^ c.keySize ∧ y < 2 ^ c.keySize

variable (κ : Cryptography)

def malformed (message : String) : CaError := .acme 400 "MALFORMED" message

def PublicJwk.toPublicKey : PublicJwk → Except CaError PublicKey
  | .rsa n e =>
    match base64urlDecode n.toList, base64urlDecode e.toList with
    | .ok nBytes, .ok eBytes =>
      if κ.rsaNumbers (fromBytes nBytes) (fromBytes eBytes) then
        .ok (.rsa (fromBytes nBytes) (fromBytes eBytes))
      else .error (malformed "Invalid RSA JWK format")
    | _, _ => .error (malformed "Invalid RSA JWK format")
  | .ec crv x y => do
    let xBytes ← base64urlDecode x.toList
    let yBytes ← base64urlDecode y.toList
    Fallible.require (κ.ecNumbers (Curve.named crv) (fromBytes xBytes) (fromBytes yBytes) = true)
      (malformed "Invalid EC JWK format")
    return .ec (Curve.named crv) (fromBytes xBytes) (fromBytes yBytes)
  | .okp x => do
    let xBytes ← base64urlDecode x.toList
    Fallible.require (xBytes.length = 32) (malformed "Invalid OKP JWK format")
    return .ed25519 xBytes

def jwkToPublicKey (jwk : JsonObject) : Except CaError PublicKey := do
  let projected ← publicJwkProjection base64urlDecode jwk
  PublicJwk.toPublicKey κ projected

def PublicJwk.toJson : PublicJwk → JsonObject
  | .rsa n e => [("kty", .str "RSA"), ("n", .str n), ("e", .str e)]
  | .ec crv x y => [("kty", .str "EC"), ("crv", .str crv), ("x", .str x), ("y", .str y)]
  | .okp x => [("kty", .str "OKP"), ("crv", .str "Ed25519"), ("x", .str x)]

def encoded (bytes : Bytes) : String := String.ofList (base64urlEncode bytes)

def PublicKey.toPublicJwk : PublicKey → PublicJwk
  | .rsa n e => .rsa (encoded (toBytes (byteLength n) n)) (encoded (toBytes (byteLength e) e))
  | .ec curve x y =>
    .ec curve.crv (encoded (toBytes curve.coordinateLength x))
      (encoded (toBytes curve.coordinateLength y))
  | .ed25519 bytes => .okp (encoded bytes)

def publicKeyToJwk (key : PublicKey) : JsonObject := PublicJwk.toJson key.toPublicJwk

def computeJwkThumbprint (digest : PublicJwk → Text) (jwk : JsonObject) : Except CaError Text := do
  let projection ← publicJwkProjection base64urlDecode jwk
  return digest projection

end Keys

section Spellings

variable {κ : Cryptography} {p q : PublicJwk} {key : PublicKey} {jwk : JsonObject}

def WellFormed : PublicJwk → Prop
  | .rsa n e => n ≠ "" ∧ e ≠ ""
  | .ec crv x y => crv ∈ ["P-256", "P-384", "P-521"] ∧ x ≠ "" ∧ y ≠ ""
  | .okp x => x ≠ "" ∧ ∃ bytes, base64urlDecode x.toList = .ok bytes ∧ bytes.length = 32

theorem requireStringField_eq_ok {field value : String} :
    requireStringField jwk field = .ok value ↔ jwk.get field = some (.str value) ∧ value ≠ "" := by
  unfold requireStringField
  split
  · rename_i found hget
    rw [hget]
    split
    · rename_i hempty
      simp [hempty]
    · rename_i hne
      simp only [Except.ok.injEq, Option.some.injEq, Json.str.injEq]
      constructor
      · rintro rfl
        exact ⟨rfl, hne⟩
      · exact And.left
  · rename_i hget
    constructor
    · intro h
      cases h
    · rintro ⟨hstr, -⟩
      exact absurd hstr (hget value)

theorem wellFormed_of_projection (h : publicJwkProjection base64urlDecode jwk = .ok p) :
    WellFormed p := by
  unfold publicJwkProjection at h
  split at h
  · obtain ⟨_, -, h⟩ := Fallible.bind_eq_ok.mp h
    obtain ⟨n, hn, h⟩ := Fallible.bind_eq_ok.mp h
    obtain ⟨e, he, h⟩ := Fallible.bind_eq_ok.mp h
    obtain rfl := Fallible.pure_eq_ok.mp h
    exact ⟨(requireStringField_eq_ok.mp hn).2, (requireStringField_eq_ok.mp he).2⟩
  · split at h
    · obtain ⟨_, -, h⟩ := Fallible.bind_eq_ok.mp h
      obtain ⟨crv, -, h⟩ := Fallible.bind_eq_ok.mp h
      obtain ⟨_, hcrv, h⟩ := Fallible.bind_eq_ok.mp h
      obtain ⟨x, hx, h⟩ := Fallible.bind_eq_ok.mp h
      obtain ⟨y, hy, h⟩ := Fallible.bind_eq_ok.mp h
      obtain rfl := Fallible.pure_eq_ok.mp h
      exact ⟨Fallible.require_eq_ok.mp hcrv, (requireStringField_eq_ok.mp hx).2,
        (requireStringField_eq_ok.mp hy).2⟩
    · split at h
      · obtain ⟨_, -, h⟩ := Fallible.bind_eq_ok.mp h
        obtain ⟨crv, -, h⟩ := Fallible.bind_eq_ok.mp h
        obtain ⟨_, -, h⟩ := Fallible.bind_eq_ok.mp h
        obtain ⟨x, hx, h⟩ := Fallible.bind_eq_ok.mp h
        obtain ⟨bytes, hbytes, h⟩ := Fallible.bind_eq_ok.mp h
        obtain ⟨_, hlength, h⟩ := Fallible.bind_eq_ok.mp h
        obtain rfl := Fallible.pure_eq_ok.mp h
        exact ⟨(requireStringField_eq_ok.mp hx).2, bytes, hbytes, Fallible.require_eq_ok.mp hlength⟩
      · cases h

theorem requireStringField_of_get {field value : String} (hget : jwk.get field = some (.str value))
    (hne : value ≠ "") : requireStringField jwk field = .ok value :=
  requireStringField_eq_ok.mpr ⟨hget, hne⟩

theorem projection_toJson (h : WellFormed p) :
    publicJwkProjection base64urlDecode (PublicJwk.toJson p) = .ok p := by
  cases p with
  | rsa n e =>
    have hn : requireStringField (PublicJwk.toJson (.rsa n e)) "n" = .ok n :=
      requireStringField_of_get rfl h.1
    have he : requireStringField (PublicJwk.toJson (.rsa n e)) "e" = .ok e :=
      requireStringField_of_get rfl h.2
    change (do
      let n ← requireStringField (PublicJwk.toJson (.rsa n e)) "n"
      let e ← requireStringField (PublicJwk.toJson (.rsa n e)) "e"
      return PublicJwk.rsa n e) = _
    rw [hn, Fallible.ok_bind, he]
    rfl
  | ec crv x y =>
    have hcrv : crv ≠ "" := by
      rintro rfl
      exact absurd h.1 (by decide)
    have hrequire : requireStringField (PublicJwk.toJson (.ec crv x y)) "crv" = .ok crv :=
      requireStringField_of_get rfl hcrv
    have hx : requireStringField (PublicJwk.toJson (.ec crv x y)) "x" = .ok x :=
      requireStringField_of_get rfl h.2.1
    have hy : requireStringField (PublicJwk.toJson (.ec crv x y)) "y" = .ok y :=
      requireStringField_of_get rfl h.2.2
    change (do
      let crv ← requireStringField (PublicJwk.toJson (.ec crv x y)) "crv"
      Fallible.require (crv ∈ ["P-256", "P-384", "P-521"])
        (CaError.acme 400 "UNSUPPORTED_ALGORITHM" s!"Unsupported curve: {crv}")
      let x ← requireStringField (PublicJwk.toJson (.ec crv x y)) "x"
      let y ← requireStringField (PublicJwk.toJson (.ec crv x y)) "y"
      return PublicJwk.ec crv x y) = _
    rw [hrequire, Fallible.ok_bind, Fallible.require_eq_ok (u := ()) |>.mpr h.1, Fallible.ok_bind,
      hx, Fallible.ok_bind, hy]
    rfl
  | okp x =>
    obtain ⟨hne, bytes, hbytes, hlength⟩ := h
    have hx : requireStringField (PublicJwk.toJson (.okp x)) "x" = .ok x :=
      requireStringField_of_get rfl hne
    change (do
      let x ← requireStringField (PublicJwk.toJson (.okp x)) "x"
      let xBytes ← base64urlDecode x.toList
      Fallible.require (xBytes.length = 32)
        (CaError.acme 400 "MALFORMED" "Invalid Ed25519 public key length")
      return PublicJwk.okp x) = _
    rw [hx, Fallible.ok_bind, hbytes, Fallible.ok_bind,
      Fallible.require_eq_ok (u := ()) |>.mpr hlength]
    rfl

theorem jwkToPublicKey_toJson (h : WellFormed p) :
    jwkToPublicKey κ (PublicJwk.toJson p) = PublicJwk.toPublicKey κ p := by
  rw [jwkToPublicKey, projection_toJson h]
  rfl

theorem base64urlDecode_encoded (bytes : Bytes) :
    base64urlDecode (encoded bytes).toList = .ok bytes := by
  rw [encoded, String.toList_ofList]
  exact base64urlDecode_eq_ok.mpr (decodeAscii_base64urlEncode bytes)

def MinimalText (s : String) : Prop := ∃ bytes : Bytes, bytes.head? ≠ some 0 ∧ s = encoded bytes

def FixedText (length : ℕ) (s : String) : Prop :=
  ∃ bytes : Bytes, bytes.length = length ∧ s = encoded bytes

/-- A key written as `public_key_to_jwk` would: unpadded base64url of the shortest bytes of RSA
numbers, and of as many bytes as the curve takes for coordinates. -/
def Canonical : PublicJwk → Prop
  | .rsa n e => MinimalText n ∧ MinimalText e
  | .ec crv x y =>
    FixedText (Curve.named crv).coordinateLength x ∧ FixedText (Curve.named crv).coordinateLength y
  | .okp x => ∃ bytes, x = encoded bytes

theorem minimalText_iff {s : String} {bytes : Bytes} (h : base64urlDecode s.toList = .ok bytes) :
    MinimalText s ↔ s = encoded (toBytes (byteLength (fromBytes bytes)) (fromBytes bytes)) := by
  constructor
  · rintro ⟨written, hhead, rfl⟩
    obtain rfl := Except.ok.inj ((base64urlDecode_encoded written).symm.trans h)
    rw [byteLength_fromBytes hhead, toBytes_fromBytes]
  · intro hs
    exact ⟨_, head_toBytes _, hs⟩

theorem fixedText_iff {s : String} {bytes : Bytes} {length : ℕ}
    (h : base64urlDecode s.toList = .ok bytes) :
    FixedText length s ↔ s = encoded (toBytes length (fromBytes bytes)) := by
  constructor
  · rintro ⟨written, rfl, rfl⟩
    obtain rfl := Except.ok.inj ((base64urlDecode_encoded written).symm.trans h)
    rw [toBytes_fromBytes]
  · intro hs
    exact ⟨_, length_toBytes _ _, hs⟩

theorem crv_named {crv : String} (h : crv ∈ ["P-256", "P-384", "P-521"]) :
    (Curve.named crv).crv = crv := by
  simp only [List.mem_cons, List.not_mem_nil, or_false] at h
  rcases h with rfl | rfl | rfl <;> decide

theorem rsa_toPublicKey {n e : String} (h : PublicJwk.toPublicKey κ (.rsa n e) = .ok key) :
    ∃ nBytes eBytes, base64urlDecode n.toList = .ok nBytes ∧ base64urlDecode e.toList = .ok eBytes ∧
      κ.rsaNumbers (fromBytes nBytes) (fromBytes eBytes) = true ∧
      key = .rsa (fromBytes nBytes) (fromBytes eBytes) := by
  change (match base64urlDecode n.toList, base64urlDecode e.toList with
    | .ok nBytes, .ok eBytes =>
      if κ.rsaNumbers (fromBytes nBytes) (fromBytes eBytes) then
        .ok (.rsa (fromBytes nBytes) (fromBytes eBytes))
      else .error (malformed "Invalid RSA JWK format")
    | _, _ => .error (malformed "Invalid RSA JWK format")) = Except.ok key at h
  split at h
  · rename_i nBytes eBytes hn he
    split at h
    · rename_i hvalid
      exact ⟨nBytes, eBytes, hn, he, hvalid, (Except.ok.inj h).symm⟩
    · cases h
  · cases h

theorem ec_toPublicKey {crv x y : String} (h : PublicJwk.toPublicKey κ (.ec crv x y) = .ok key) :
    ∃ xBytes yBytes, base64urlDecode x.toList = .ok xBytes ∧ base64urlDecode y.toList = .ok yBytes ∧
      κ.ecNumbers (Curve.named crv) (fromBytes xBytes) (fromBytes yBytes) = true ∧
      key = .ec (Curve.named crv) (fromBytes xBytes) (fromBytes yBytes) := by
  obtain ⟨xBytes, hx, h⟩ := Fallible.bind_eq_ok.mp h
  obtain ⟨yBytes, hy, h⟩ := Fallible.bind_eq_ok.mp h
  obtain ⟨_, hvalid, h⟩ := Fallible.bind_eq_ok.mp h
  exact ⟨xBytes, yBytes, hx, hy, Fallible.require_eq_ok.mp hvalid, (Fallible.pure_eq_ok.mp h).symm⟩

theorem okp_toPublicKey {x : String} (h : PublicJwk.toPublicKey κ (.okp x) = .ok key) :
    ∃ bytes, base64urlDecode x.toList = .ok bytes ∧ bytes.length = 32 ∧ key = .ed25519 bytes := by
  obtain ⟨bytes, hx, h⟩ := Fallible.bind_eq_ok.mp h
  obtain ⟨_, hlength, h⟩ := Fallible.bind_eq_ok.mp h
  exact ⟨bytes, hx, Fallible.require_eq_ok.mp hlength, (Fallible.pure_eq_ok.mp h).symm⟩

theorem canonical_iff (hp : WellFormed p) (hkey : PublicJwk.toPublicKey κ p = .ok key) :
    Canonical p ↔ p = key.toPublicJwk := by
  cases p with
  | rsa n e =>
    obtain ⟨nBytes, eBytes, hn, he, -, rfl⟩ := rsa_toPublicKey hkey
    rw [Canonical, minimalText_iff hn, minimalText_iff he, PublicKey.toPublicJwk,
      PublicJwk.rsa.injEq]
  | ec crv x y =>
    obtain ⟨xBytes, yBytes, hx, hy, -, rfl⟩ := ec_toPublicKey hkey
    rw [Canonical, fixedText_iff hx, fixedText_iff hy, PublicKey.toPublicJwk, crv_named hp.1,
      PublicJwk.ec.injEq]
    exact (and_iff_right rfl).symm
  | okp x =>
    obtain ⟨bytes, hx, -, rfl⟩ := okp_toPublicKey hkey
    rw [Canonical, PublicKey.toPublicJwk, PublicJwk.okp.injEq]
    constructor
    · rintro ⟨written, rfl⟩
      rw [Except.ok.inj ((base64urlDecode_encoded written).symm.trans hx)]
    · intro hwritten
      exact ⟨bytes, hwritten⟩

theorem encoded_ne_empty {bytes : Bytes} (h : bytes ≠ []) : encoded bytes ≠ "" := by
  intro hempty
  have hdecoded := base64urlDecode_encoded bytes
  rw [hempty] at hdecoded
  exact h (Except.ok.inj hdecoded).symm

theorem toBytes_ne_nil {length : ℕ} (h : length ≠ 0) (n : ℕ) : toBytes length n ≠ [] := by
  intro hnil
  exact h (by rw [← length_toBytes length n, hnil]; rfl)

theorem byteLength_ne_zero {n : ℕ} (h : 0 < n) : byteLength n ≠ 0 := by
  intro hzero
  have hlt := byteLength_le_iff.mp (Nat.le_of_eq hzero)
  omega

theorem fromBytes_coordinate {curve : Curve} {x : ℕ} (h : x < 2 ^ curve.keySize) :
    fromBytes (toBytes curve.coordinateLength x) = x := by
  apply fromBytes_toBytes
  rw [pow_256]
  apply h.trans_le
  apply Nat.pow_le_pow_right (by decide)
  unfold Curve.coordinateLength
  omega

theorem named_crv (curve : Curve) : Curve.named curve.crv = curve := by
  cases curve <;> decide

theorem toPublicJwk_accepted (hkey : PublicJwk.toPublicKey κ p = .ok key) :
    WellFormed key.toPublicJwk ∧ PublicJwk.toPublicKey κ key.toPublicJwk = .ok key := by
  cases p with
  | rsa n e =>
    obtain ⟨nBytes, eBytes, hn, he, hvalid, rfl⟩ := rsa_toPublicKey hkey
    generalize fromBytes nBytes = n at *
    generalize fromBytes eBytes = e at *
    have hpos := κ.rsaNumbers_pos n e hvalid
    refine ⟨⟨?_, ?_⟩, ?_⟩
    · exact encoded_ne_empty (toBytes_ne_nil (byteLength_ne_zero hpos.1) n)
    · exact encoded_ne_empty (toBytes_ne_nil (byteLength_ne_zero hpos.2) e)
    · unfold PublicKey.toPublicJwk PublicJwk.toPublicKey
      dsimp only
      rw [base64urlDecode_encoded, base64urlDecode_encoded]
      dsimp only
      rw [fromBytes_toBytes (byteLength_le_iff.mp le_rfl),
        fromBytes_toBytes (byteLength_le_iff.mp le_rfl), if_pos hvalid]
  | ec crv x y =>
    obtain ⟨xBytes, yBytes, hx, hy, hvalid, rfl⟩ := ec_toPublicKey hkey
    generalize Curve.named crv = curve at *
    generalize fromBytes xBytes = x at *
    generalize fromBytes yBytes = y at *
    have hlt := κ.ecNumbers_lt curve x y hvalid
    have hlength : curve.coordinateLength ≠ 0 := by cases curve <;> decide
    refine ⟨⟨?_, ?_, ?_⟩, ?_⟩
    · cases curve <;> decide
    · exact encoded_ne_empty (toBytes_ne_nil hlength x)
    · exact encoded_ne_empty (toBytes_ne_nil hlength y)
    · unfold PublicKey.toPublicJwk PublicJwk.toPublicKey
      dsimp only
      rw [base64urlDecode_encoded, base64urlDecode_encoded, Fallible.ok_bind, Fallible.ok_bind,
        named_crv, fromBytes_coordinate hlt.1, fromBytes_coordinate hlt.2,
        Fallible.require_eq_ok (u := ()) |>.mpr hvalid]
      rfl
  | okp x =>
    obtain ⟨bytes, hx, hlength, rfl⟩ := okp_toPublicKey hkey
    refine ⟨⟨?_, bytes, base64urlDecode_encoded bytes, hlength⟩, ?_⟩
    · apply encoded_ne_empty
      rintro rfl
      cases hlength
    · unfold PublicKey.toPublicJwk PublicJwk.toPublicKey
      dsimp only
      rw [base64urlDecode_encoded, Fallible.ok_bind,
        Fallible.require_eq_ok (u := ()) |>.mpr hlength]
      rfl

def respelledText (s : String) : String := String.ofList (spaced s.toList)

def respelled : PublicJwk → PublicJwk
  | .rsa n e => .rsa (respelledText n) e
  | .ec crv x y => .ec crv (respelledText x) y
  | .okp x => .okp (respelledText x)

theorem base64urlDecode_respelledText (s : String) :
    base64urlDecode (respelledText s).toList = base64urlDecode s.toList := by
  rw [respelledText, String.toList_ofList, base64urlDecode_spaced]

theorem respelledText_ne (s : String) : respelledText s ≠ s := by
  intro h
  have hlength := congrArg (fun t : String => t.toList.length) h
  simp only [respelledText, spaced, String.toList_ofList, List.length_cons] at hlength
  omega

theorem respelledText_ne_empty (s : String) : respelledText s ≠ "" := by
  intro h
  have hlength := congrArg (fun t : String => t.toList.length) h
  simp [respelledText, spaced] at hlength

theorem toPublicKey_respelled (p : PublicJwk) :
    PublicJwk.toPublicKey κ (respelled p) = PublicJwk.toPublicKey κ p := by
  cases p <;> simp only [respelled, PublicJwk.toPublicKey, base64urlDecode_respelledText]

theorem respelled_ne (p : PublicJwk) : respelled p ≠ p := by
  cases p <;> simp [respelled, respelledText_ne]

theorem WellFormed.respelled (h : WellFormed p) : WellFormed (respelled p) := by
  cases p with
  | rsa n e => exact ⟨respelledText_ne_empty n, h.2⟩
  | ec crv x y => exact ⟨h.1, respelledText_ne_empty x, h.2.2⟩
  | okp x =>
    obtain ⟨-, bytes, hbytes, hlength⟩ := h
    exact ⟨respelledText_ne_empty x, bytes, (base64urlDecode_respelledText x).trans hbytes, hlength⟩

def CanonicalJwk (jwk : JsonObject) : Prop :=
  ∃ p, publicJwkProjection base64urlDecode jwk = .ok p ∧ Canonical p

def OneIdentity (κ : Cryptography) (digest : PublicJwk → Text) (jwk : JsonObject) : Prop :=
  ∀ jwk', CanonicalJwk jwk' → jwkToPublicKey κ jwk' = jwkToPublicKey κ jwk →
    computeJwkThumbprint digest jwk' = computeJwkThumbprint digest jwk

def OnlyIdentity (κ : Cryptography) (digest : PublicJwk → Text) (jwk : JsonObject) : Prop :=
  ∀ jwk', jwkToPublicKey κ jwk' = jwkToPublicKey κ jwk →
    computeJwkThumbprint digest jwk' = computeJwkThumbprint digest jwk

theorem thumbprint_eq {digest : PublicJwk → Text}
    (h : publicJwkProjection base64urlDecode jwk = .ok p) :
    computeJwkThumbprint digest jwk = .ok (digest p) := by
  rw [computeJwkThumbprint, h]
  rfl

theorem projection_eq_of_digests {jwk' : JsonObject}
    (h : publicJwkProjection base64urlDecode jwk = .ok p)
    (h' : publicJwkProjection base64urlDecode jwk' = .ok q)
    (hdigests : ∀ digest, computeJwkThumbprint digest jwk' = computeJwkThumbprint digest jwk) :
    q = p := by
  by_contra hne
  have heq := hdigests fun r => if r = p then ['p'] else []
  rw [thumbprint_eq h, thumbprint_eq h', if_pos rfl, if_neg hne] at heq
  cases heq

theorem key_identity_iff (κ : Cryptography) (jwk : JsonObject) (key : PublicKey)
    (h : jwkToPublicKey κ jwk = .ok key) :
    ((∀ digest, OneIdentity κ digest jwk) ↔ CanonicalJwk jwk) ∧
      (¬ ∀ digest, OnlyIdentity κ digest jwk) ∧
      ∀ jwk', publicJwkProjection base64urlDecode jwk' = publicJwkProjection base64urlDecode jwk →
        jwkToPublicKey κ jwk' = .ok key := by
  obtain ⟨p, hp, hkey⟩ := Fallible.bind_eq_ok.mp h
  have hwell := wellFormed_of_projection hp
  refine ⟨⟨?_, ?_⟩, ?_, ?_⟩
  · intro hone
    obtain ⟨hwell', hkey'⟩ := toPublicJwk_accepted hkey
    have hprojection := projection_toJson hwell'
    have hcanonical : Canonical key.toPublicJwk := (canonical_iff hwell' hkey').mpr rfl
    have heq := projection_eq_of_digests hp hprojection fun digest =>
      hone digest (publicKeyToJwk key) ⟨_, hprojection, hcanonical⟩
        ((jwkToPublicKey_toJson hwell').trans (hkey'.trans h.symm))
    exact ⟨p, hp, (canonical_iff hwell hkey).mpr heq.symm⟩
  · rintro ⟨q, hq, hcanonical⟩ digest jwk' ⟨q', hq', hcanonical'⟩ hsame
    obtain rfl := Except.ok.inj (hq.symm.trans hp)
    obtain ⟨_, hread, hkey'⟩ := Fallible.bind_eq_ok.mp (hsame.trans h)
    obtain rfl := Except.ok.inj (hread.symm.trans hq')
    rw [thumbprint_eq hq, thumbprint_eq hq', (canonical_iff hwell hkey).mp hcanonical,
      (canonical_iff (wellFormed_of_projection hq') hkey').mp hcanonical']
  · intro honly
    have hwell' := hwell.respelled
    apply respelled_ne p
    refine projection_eq_of_digests hp (projection_toJson hwell') fun digest => ?_
    apply honly digest
    rw [jwkToPublicKey_toJson hwell', toPublicKey_respelled, hkey, h]
  · intro jwk' hsame
    rw [jwkToPublicKey, hsame, hp]
    exact hkey

namespace Sample

def cryptography : Cryptography where
  rsaNumbers n e := 3 ≤ e ∧ e < n ∧ e % 2 = 1
  ecNumbers _ _ _ := false
  rsaNumbers_pos n e h := by
    have := of_decide_eq_true h
    omega
  ecNumbers_lt _ _ _ h := by cases h

def okp (last : Char) : PublicJwk := .okp (String.ofList (List.replicate 42 'A' ++ [last]))

def digest (p : PublicJwk) : Text :=
  if p = okp 'A' then "ogRZbCR5KTrPFCAfuYmCMwj0w7Yuk3Lr6YWQWfpkbf0".toList
  else if p = okp 'B' then "YX_qExAwWIGG2shRDNPZ7Wl-SjivhSVULRp3osxWlyQ".toList else []

def zeros : PublicKey := .ed25519 (List.replicate 32 0)

theorem wellFormed_okp {last : Char} (h : base64urlDecode (List.replicate 42 'A' ++ [last]) =
    .ok (List.replicate 32 0)) : WellFormed (okp last) := by
  refine ⟨?_, List.replicate 32 0, ?_, rfl⟩
  · intro hempty
    have hlength := congrArg (fun t : String => t.toList.length) hempty
    simp at hlength
  · rw [String.toList_ofList, h]

theorem okp_read {last : Char} (h : base64urlDecode (List.replicate 42 'A' ++ [last]) =
    .ok (List.replicate 32 0)) :
    jwkToPublicKey cryptography (PublicJwk.toJson (okp last)) = .ok zeros := by
  rw [jwkToPublicKey_toJson (wellFormed_okp h)]
  change (do
    let xBytes ← base64urlDecode (String.ofList (List.replicate 42 'A' ++ [last])).toList
    Fallible.require (xBytes.length = 32) (malformed "Invalid OKP JWK format")
    return PublicKey.ed25519 xBytes) = .ok zeros
  rw [String.toList_ofList, h]
  rfl

end Sample

theorem canonical_key_identity : OneIdentity Sample.cryptography Sample.digest
    (PublicJwk.toJson (Sample.okp 'A')) := by
  have hdecoded : base64urlDecode (List.replicate 42 'A' ++ ['A']) =
      .ok (List.replicate 32 0) := by decide +kernel
  refine (key_identity_iff _ _ Sample.zeros (Sample.okp_read hdecoded)).1.mpr ?_ _
  refine ⟨_, projection_toJson (Sample.wellFormed_okp hdecoded), List.replicate 32 0, ?_⟩
  exact congrArg String.ofList (by decide +kernel)

theorem spellings_differ : ¬ ∀ (jwk jwk' : JsonObject) (key : PublicKey),
    jwkToPublicKey Sample.cryptography jwk = .ok key →
      jwkToPublicKey Sample.cryptography jwk' = .ok key →
        computeJwkThumbprint Sample.digest jwk = computeJwkThumbprint Sample.digest jwk' := by
  intro h
  have hA : base64urlDecode (List.replicate 42 'A' ++ ['A']) =
      .ok (List.replicate 32 0) := by decide +kernel
  have hB : base64urlDecode (List.replicate 42 'A' ++ ['B']) =
      .ok (List.replicate 32 0) := by decide +kernel
  have hne : Sample.okp 'B' ≠ Sample.okp 'A' := by
    intro heq
    have htexts := congrArg String.toList (PublicJwk.okp.inj heq)
    rw [String.toList_ofList, String.toList_ofList] at htexts
    exact absurd htexts (by decide)
  have hsame := h _ _ Sample.zeros (Sample.okp_read hA) (Sample.okp_read hB)
  rw [thumbprint_eq (projection_toJson (Sample.wellFormed_okp hA)),
    thumbprint_eq (projection_toJson (Sample.wellFormed_okp hB)), Sample.digest, Sample.digest,
    if_pos rfl, if_neg hne, if_pos rfl, Except.ok.injEq] at hsame
  exact absurd hsame (by decide)

end Spellings

end Acps.Ca.KeyIdentity
