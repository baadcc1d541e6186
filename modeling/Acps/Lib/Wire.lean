import Acps.Lib.Fallible
import Mathlib.Data.Nat.Bitwise
import Mathlib.Tactic.Ring

/-!
Messages of numbered fields, each behind a tag that tells its number and how its value is written: a
number of seven bits a byte, eight bytes, or bytes behind their length.
-/

namespace Acps.Wire

abbrev Bytes := List UInt8

inductive WireError where
  | indexError
  | structError
  | unicodeDecodeError
  | valueError (message : String)
  deriving DecidableEq

section Varint

def encodeVarint (value : ℕ) : Bytes :=
  let bits := value &&& 0x7f
  if value >>> 7 = 0 then [UInt8.ofNat bits]
  else UInt8.ofNat (bits ||| 0x80) :: encodeVarint (value >>> 7)
termination_by value
decreasing_by
  rw [Nat.shiftRight_eq_div_pow] at *
  omega

def readVarintFrom (result shift : ℕ) : Bytes → Except WireError (ℕ × Bytes)
  | [] => .error .indexError
  | byte :: data =>
    let result := result ||| ((byte.toNat &&& 0x7f) <<< shift)
    if byte.toNat &&& 0x80 = 0 then .ok (result, data) else readVarintFrom result (shift + 7) data

def readVarint (data : Bytes) : Except WireError (ℕ × Bytes) := readVarintFrom 0 0 data

theorem and_low (n : ℕ) : n &&& 0x7f = n % 128 := Nat.and_two_pow_sub_one_eq_mod n 7

theorem or_high {n : ℕ} (h : n < 128) : n ||| 0x80 = n + 128 := by
  have hor := Nat.two_pow_add_eq_or_of_lt (show n < 2 ^ 7 from h) 1
  rw [Nat.or_comm, Nat.add_comm]
  exact hor.symm

theorem and_high {n : ℕ} (h : n < 256) : n &&& 0x80 = 0 ↔ n < 128 := by
  revert n
  decide +kernel

theorem toNat_ofNat {n : ℕ} (h : n < 256) : (UInt8.ofNat n).toNat = n := Nat.mod_eq_of_lt h

theorem or_shifted {result shift n : ℕ} (h : result < 2 ^ shift) :
    result ||| n <<< shift = result + n * 2 ^ shift := by
  rw [Nat.shiftLeft_eq, Nat.or_comm, Nat.mul_comm, ← Nat.two_pow_add_eq_or_of_lt h, Nat.add_comm]

theorem readVarintFrom_encodeVarint (value : ℕ) (data : Bytes) {result shift : ℕ}
    (h : result < 2 ^ shift) :
    readVarintFrom result shift (encodeVarint value ++ data) =
      .ok (result + value * 2 ^ shift, data) := by
  induction value using Nat.strongRecOn generalizing result shift with
  | ind value ih =>
    have hlow : value % 128 < 128 := Nat.mod_lt _ (by decide)
    rw [encodeVarint, and_low, Nat.shiftRight_eq_div_pow]
    split
    next hlast =>
      have hsmall : value % 128 = value := by omega
      rw [List.singleton_append, readVarintFrom, toNat_ofNat (by omega), and_low, hsmall,
        Nat.mod_eq_of_lt (by omega), if_pos ((and_high (by omega)).mpr (by omega)), or_shifted h]
    next hmore =>
      have hmod : (value % 128 + 128) % 128 = value % 128 := by omega
      have hgrown : result + value % 128 * 2 ^ shift < 2 ^ (shift + 7) := by
        rw [Nat.pow_add]
        calc
          result + value % 128 * 2 ^ shift < 2 ^ shift + 127 * 2 ^ shift :=
            Nat.add_lt_add_of_lt_of_le h (Nat.mul_le_mul_right _ (by omega))
          _ = 2 ^ shift * 2 ^ 7 := by ring
      rw [or_high hlow, List.cons_append, readVarintFrom, toNat_ofNat (by omega), and_low, hmod,
        if_neg fun hzero => absurd ((and_high (by omega)).mp hzero) (by omega), or_shifted h,
        ih _ (by omega) hgrown]
      have hsplit : value = value % 128 + 128 * (value / 2 ^ 7) := (Nat.mod_add_div value 128).symm
      congr 2
      calc
        result + value % 128 * 2 ^ shift + value / 2 ^ 7 * 2 ^ (shift + 7)
            = result + (value % 128 + 128 * (value / 2 ^ 7)) * 2 ^ shift := by ring
        _ = result + value * 2 ^ shift := by rw [← hsplit]

theorem readVarint_encodeVarint (value : ℕ) (data : Bytes) :
    readVarint (encodeVarint value ++ data) = .ok (value, data) := by
  rw [readVarint, readVarintFrom_encodeVarint value data Nat.one_pos, Nat.pow_zero, Nat.mul_one,
    Nat.zero_add]

theorem length_of_readVarintFrom {data rest : Bytes} {result shift value : ℕ}
    (h : readVarintFrom result shift data = .ok (value, rest)) : rest.length < data.length := by
  induction data generalizing result shift with
  | nil => cases h
  | cons byte data ih =>
    rw [readVarintFrom] at h
    split at h
    · obtain ⟨-, rfl⟩ := Prod.mk.inj (Except.ok.inj h)
      exact Nat.lt_succ_self _
    · exact (ih h).trans (Nat.lt_succ_self _)

end Varint

section Fixed

def packFixed : ℕ → ℕ → Bytes
  | 0, _ => []
  | width + 1, n => UInt8.ofNat (n % 256) :: packFixed width (n / 256)

def unpackFixed : Bytes → ℕ
  | [] => 0
  | byte :: data => byte.toNat + 256 * unpackFixed data

@[simp] theorem length_packFixed (width n : ℕ) : (packFixed width n).length = width := by
  induction width generalizing n with
  | zero => rfl
  | succ width ih => rw [packFixed, List.length_cons, ih]

theorem unpackFixed_packFixed (width n : ℕ) : unpackFixed (packFixed width n) = n % 256 ^ width := by
  induction width generalizing n with
  | zero => rw [Nat.pow_zero, Nat.mod_one]; rfl
  | succ width ih =>
    rw [packFixed, unpackFixed, ih, toNat_ofNat (Nat.mod_lt _ (by decide)), Nat.pow_succ', Nat.mod_mul]

end Fixed

section Fields

inductive WireValue where
  | int (n : ℕ)
  | float (bits : UInt64)
  | bytes (data : Bytes)

def encodeTag (fieldNumber wireType : ℕ) : Bytes := encodeVarint (fieldNumber <<< 3 ||| wireType)

def encodeBytesField (fieldNumber : ℕ) (data : Bytes) : Bytes :=
  encodeTag fieldNumber 2 ++ encodeVarint data.length ++ data

def encodeStringField (fieldNumber : ℕ) (value : String) : Bytes :=
  encodeBytesField fieldNumber value.toUTF8.data.toList

def encodeDoubleField (fieldNumber : ℕ) (value : UInt64) : Bytes :=
  encodeTag fieldNumber 1 ++ packFixed 8 value.toNat

/-- The loop over the bits of a number that stays negative does not end. -/
def encodeInt64Field (fieldNumber : ℕ) (value : ℤ) : Option Bytes :=
  let value := if value < 0 then value + 2 ^ 64 else value
  if value < 0 then none else some (encodeTag fieldNumber 0 ++ encodeVarint value.toNat)

def decodeUtf8 (data : Bytes) : Except WireError String :=
  match String.fromUTF8? ⟨data.toArray⟩ with
  | some value => .ok value
  | none => .error .unicodeDecodeError

/-- A value that is cut short by the end of the data is taken as it is, but for a float. -/
def readField (data : Bytes) : Except WireError ((ℕ × WireValue) × Bytes) := do
  let (tag, data) ← readVarint data
  match tag &&& 0x7 with
  | 0 =>
    let (value, data) ← readVarint data
    return ((tag >>> 3, .int value), data)
  | 1 =>
    if data.length < 8 then .error .structError
    else return ((tag >>> 3, .float (UInt64.ofNat (unpackFixed (data.take 8)))), data.drop 8)
  | 2 =>
    let (length, data) ← readVarint data
    return ((tag >>> 3, .bytes (data.take length)), data.drop length)
  | wireType => .error (.valueError s!"不支持的 wire type: {wireType}")

theorem length_of_readField {data rest : Bytes} {field : ℕ × WireValue}
    (h : readField data = .ok (field, rest)) : rest.length < data.length := by
  unfold readField at h
  cases htag : readVarint data with
  | error e => rw [htag] at h; cases h
  | ok read =>
    obtain ⟨tag, behind⟩ := read
    have hbehind := length_of_readVarintFrom htag
    rw [htag] at h
    dsimp only [bind, Except.bind] at h
    split at h
    · cases hvalue : readVarint behind with
      | error e => rw [hvalue] at h; cases h
      | ok value =>
        rw [hvalue] at h
        obtain ⟨-, rfl⟩ := Prod.mk.inj (Except.ok.inj h)
        exact (length_of_readVarintFrom hvalue).trans hbehind
    · split at h
      · cases h
      · obtain ⟨-, rfl⟩ := Prod.mk.inj (Except.ok.inj h)
        rw [List.length_drop]
        omega
    · cases hvalue : readVarint behind with
      | error e => rw [hvalue] at h; cases h
      | ok value =>
        rw [hvalue] at h
        obtain ⟨-, rfl⟩ := Prod.mk.inj (Except.ok.inj h)
        have hlength := length_of_readVarintFrom hvalue
        rw [List.length_drop]
        omega
    · cases h

variable {σ : Type} (step : σ → ℕ → WireValue → Except WireError σ)

def foldFields (data : Bytes) (state : σ) : Except WireError σ :=
  if data = [] then .ok state
  else
    match h : readField data with
    | .error e => .error e
    | .ok ((fieldNumber, value), rest) =>
      have := length_of_readField h
      match step state fieldNumber value with
      | .error e => .error e
      | .ok state => foldFields rest state
termination_by data.length

variable {step} {state : σ} {fieldNumber : ℕ} {rest : Bytes}

@[simp] theorem foldFields_nil : foldFields step [] state = .ok state := by
  rw [foldFields, if_pos rfl]

theorem foldFields_of_readField {data : Bytes} {value : WireValue}
    (h : readField data = .ok ((fieldNumber, value), rest)) :
    foldFields step data state =
      (step state fieldNumber value >>= fun state => foldFields step rest state) := by
  have hne : data ≠ [] := by
    rintro rfl
    exact Nat.not_lt_zero _ (length_of_readField h)
  rw [foldFields, if_neg hne]
  split
  next herror => rw [h] at herror; cases herror
  next hread =>
    rw [h] at hread
    obtain ⟨hfield, rfl⟩ := Prod.mk.inj (Except.ok.inj hread)
    obtain ⟨rfl, rfl⟩ := Prod.mk.inj hfield
    cases step state fieldNumber value <;> rfl

theorem tag_eq {wireType : ℕ} (h : wireType < 8) :
    fieldNumber <<< 3 ||| wireType = 8 * fieldNumber + wireType := by
  rw [Nat.shiftLeft_eq, Nat.mul_comm]
  exact (Nat.two_pow_add_eq_or_of_lt (show wireType < 2 ^ 3 from h) fieldNumber).symm

theorem tag_parts {wireType : ℕ} (h : wireType < 8) :
    (8 * fieldNumber + wireType) &&& 0x7 = wireType ∧
      (8 * fieldNumber + wireType) >>> 3 = fieldNumber := by
  rw [Nat.shiftRight_eq_div_pow, Nat.and_two_pow_sub_one_eq_mod _ 3]
  omega

theorem readField_bytes (data : Bytes) :
    readField (encodeBytesField fieldNumber data ++ rest) =
      .ok ((fieldNumber, .bytes data), rest) := by
  obtain ⟨htype, hnumber⟩ := @tag_parts fieldNumber 2 (by decide)
  unfold readField encodeBytesField encodeTag
  rw [List.append_assoc, List.append_assoc, readVarint_encodeVarint, tag_eq (by decide)]
  dsimp only [bind, Except.bind]
  rw [htype, hnumber, readVarint_encodeVarint]
  simp [pure, Except.pure]

theorem readField_double (value : UInt64) :
    readField (encodeDoubleField fieldNumber value ++ rest) =
      .ok ((fieldNumber, .float value), rest) := by
  obtain ⟨htype, hnumber⟩ := @tag_parts fieldNumber 1 (by decide)
  have hlt : value.toNat < 256 ^ 8 := value.toNat_lt
  unfold readField encodeDoubleField encodeTag
  rw [List.append_assoc, readVarint_encodeVarint, tag_eq (by decide)]
  dsimp only [bind, Except.bind]
  rw [htype, hnumber, if_neg (by simp), List.take_left' (length_packFixed 8 _), List.drop_left' (length_packFixed 8 _),
    unpackFixed_packFixed, Nat.mod_eq_of_lt hlt, UInt64.ofNat_toNat]
  rfl

theorem readField_int {value : ℕ} :
    readField (encodeTag fieldNumber 0 ++ encodeVarint value ++ rest) =
      .ok ((fieldNumber, .int value), rest) := by
  obtain ⟨htype, hnumber⟩ := @tag_parts fieldNumber 0 (by decide)
  unfold readField encodeTag
  rw [List.append_assoc, readVarint_encodeVarint, tag_eq (by decide)]
  dsimp only [bind, Except.bind]
  rw [htype, hnumber, readVarint_encodeVarint]
  rfl

theorem foldFields_bytes (data : Bytes) :
    foldFields step (encodeBytesField fieldNumber data ++ rest) state =
      (step state fieldNumber (.bytes data) >>= fun state => foldFields step rest state) :=
  foldFields_of_readField (readField_bytes data)

theorem foldFields_flatten {α : Type} {as : List α} {encoded : α → Bytes} (place : List α → σ)
    (h : ∀ a ∈ as, ∀ done,
      step (place done) fieldNumber (.bytes (encoded a)) = .ok (place (done ++ [a]))) (done : List α) :
    foldFields step ((as.map fun a => encodeBytesField fieldNumber (encoded a)).flatten ++ rest)
      (place done) = foldFields step rest (place (done ++ as)) := by
  induction as generalizing done with
  | nil => rw [List.append_nil]; rfl
  | cons a as ih =>
    rw [List.map_cons, List.flatten_cons, List.append_assoc, foldFields_bytes,
      h a List.mem_cons_self, Fallible.ok_bind, ih fun b hb => h b (List.mem_cons_of_mem a hb),
      List.append_assoc, List.singleton_append]

@[simp] theorem decodeUtf8_toUTF8 (value : String) : decodeUtf8 value.toUTF8.data.toList = .ok value := by
  have hbytes : (⟨value.toUTF8.data.toList.toArray⟩ : ByteArray) = value.toByteArray := rfl
  rw [decodeUtf8, hbytes, String.fromUTF8?, dif_pos value.isValidUTF8]
  rfl

end Fields

end Acps.Wire
