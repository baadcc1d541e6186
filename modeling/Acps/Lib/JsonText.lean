import Mathlib.Data.List.Basic

/-!
JSON text: what a compact writer puts out, and a reader that takes it back.
-/

namespace Acps.JsonText

abbrev Text := List Char

def isDigit (c : Char) : Bool := '0' ≤ c && c ≤ '9'

def isNumberChar (c : Char) : Bool :=
  isDigit c || c = '-' || c = '+' || c = '.' || c = 'e' || c = 'E'

def skipDigits : Text → Option Text
  | c :: rest => if isDigit c then some (rest.dropWhile isDigit) else none
  | [] => none

def skipSign : Text → Text
  | '-' :: rest => rest
  | text => text

def skipInteger : Text → Option Text
  | '0' :: rest => some rest
  | text => skipDigits text

def skipFraction : Text → Option Text
  | '.' :: rest => skipDigits rest
  | text => some text

def skipExponent : Text → Option Text
  | c :: rest =>
    if c = 'e' ∨ c = 'E' then
      match rest with
      | '+' :: rest | '-' :: rest => skipDigits rest
      | rest => skipDigits rest
    else some (c :: rest)
  | [] => some []

def isNumber (text : Text) : Bool :=
  text.all isNumberChar &&
    ((skipInteger (skipSign text)).bind skipFraction).bind skipExponent = some []

structure Number where
  literal : Text
  wf : isNumber literal = true

inductive Value where
  | null
  | bool (b : Bool)
  | number (n : Number)
  | string (text : Text)
  | array (items : List Value)
  | object (members : List (Text × Value))

theorem Value.induct {P : Value → Prop} (null : P .null) (bool : ∀ b, P (.bool b))
    (number : ∀ n, P (.number n)) (string : ∀ text, P (.string text))
    (array : ∀ items, (∀ v ∈ items, P v) → P (.array items))
    (object : ∀ members : List (Text × Value), (∀ m ∈ members, P m.2) → P (.object members))
    (v : Value) : P v := by
  apply @Value.rec P (fun items => ∀ v ∈ items, P v) (fun members => ∀ m ∈ members, P m.2)
    (fun m => P m.2) null bool number string array object
  · intro v hv
    cases hv
  · intro v items hhead htail w hw
    rcases List.mem_cons.mp hw with rfl | hw
    · exact hhead
    · exact htail w hw
  · intro m hm
    cases hm
  · intro m members hhead htail w hw
    rcases List.mem_cons.mp hw with rfl | hw
    · exact hhead
    · exact htail w hw
  · intro key v hv
    exact hv

section Writer

def hexDigit (n : ℕ) : Char := Char.ofNat (if n < 10 then 48 + n else 87 + n)

def shortEscapes : List (Char × Char) :=
  [('"', '"'), ('\\', '\\'), ('b', '\x08'), ('f', '\x0c'), ('n', '\n'), ('r', '\r'), ('t', '\t')]

def escape (c : Char) : Text :=
  match shortEscapes.find? (fun e => e.2 = c) with
  | some e => ['\\', e.1]
  | none =>
    if c.toNat < 0x20 then ['\\', 'u', '0', '0', hexDigit (c.toNat / 16), hexDigit (c.toNat % 16)]
    else [c]

def writeString (text : Text) : Text := '"' :: (text.flatMap escape ++ ['"'])

def separated (close : Char) : List Text → Text
  | [] => [close]
  | [x] => x ++ [close]
  | x :: y :: xs => x ++ ',' :: separated close (y :: xs)

mutual

def write : Value → Text
  | .null => "null".toList
  | .bool true => "true".toList
  | .bool false => "false".toList
  | .number n => n.literal
  | .string text => writeString text
  | .array items => '[' :: separated ']' (writeItems items)
  | .object members => '{' :: separated '}' (writeMembers members)

def writeItems : List Value → List Text
  | [] => []
  | v :: items => write v :: writeItems items

def writeMembers : List (Text × Value) → List Text
  | [] => []
  | (key, v) :: members => (writeString key ++ ':' :: write v) :: writeMembers members

end

def writeMember (m : Text × Value) : Text := writeString m.1 ++ ':' :: write m.2

theorem writeItems_eq (items : List Value) : writeItems items = items.map write := by
  induction items with
  | nil => rfl
  | cons v items ih => rw [writeItems, ih, List.map_cons]

theorem writeMembers_eq (members : List (Text × Value)) :
    writeMembers members = members.map writeMember := by
  induction members with
  | nil => rfl
  | cons m members ih => rw [writeMembers, ih, List.map_cons, writeMember]

end Writer

section Reader

def isSpace (c : Char) : Bool := c = ' ' || c = '\t' || c = '\n' || c = '\r'

def skipSpace (text : Text) : Text := text.dropWhile isSpace

def hexValue (c : Char) : Option ℕ :=
  if isDigit c then some (c.toNat - 48)
  else if 'a' ≤ c && c ≤ 'f' then some (c.toNat - 87)
  else if 'A' ≤ c && c ≤ 'F' then some (c.toNat - 55)
  else none

def readHex : Text → Option (ℕ × Text)
  | a :: b :: c :: d :: rest => do
    let a ← hexValue a
    let b ← hexValue b
    let c ← hexValue c
    let d ← hexValue d
    return (4096 * a + 256 * b + 16 * c + d, rest)
  | _ => none

def readLowSurrogate (high : ℕ) : Text → Option (Char × Text)
  | '\\' :: 'u' :: rest => do
    let (low, rest) ← readHex rest
    if 0xdc00 ≤ low ∧ low < 0xe000 then
      return (Char.ofNat (0x10000 + 1024 * (high - 0xd800) + (low - 0xdc00)), rest)
    else none
  | _ => none

def readUnicode (text : Text) : Option (Char × Text) := do
  let (n, rest) ← readHex text
  if 0xd800 ≤ n ∧ n < 0xdc00 then readLowSurrogate n rest
  else if 0xdc00 ≤ n ∧ n < 0xe000 then none
  else return (Char.ofNat n, rest)

def readEscape : Text → Option (Char × Text)
  | [] => none
  | c :: rest =>
    if c = 'u' then readUnicode rest
    else if c = '/' then some ('/', rest)
    else (shortEscapes.find? (fun e => e.1 = c)).map fun e => (e.2, rest)

def readString : ℕ → Text → Option (Text × Text)
  | 0, _ | _ + 1, [] => none
  | n + 1, c :: rest =>
    if c = '"' then some ([], rest)
    else if c = '\\' then do
      let (c, rest) ← readEscape rest
      let (text, rest) ← readString n rest
      return (c :: text, rest)
    else if c.toNat < 0x20 then none
    else do
      let (text, rest) ← readString n rest
      return (c :: text, rest)

section Sequences

variable {α : Type} (close : Char) (item : Text → Option (α × Text))

def readItems : ℕ → Text → Option (List α × Text)
  | 0, _ => none
  | n + 1, text => do
    let (x, rest) ← item text
    match skipSpace rest with
    | [] => none
    | c :: rest =>
      if c = close then return ([x], rest)
      else if c = ',' then
        let (xs, rest) ← readItems n rest
        return (x :: xs, rest)
      else none

def readSequence (text : Text) : Option (List α × Text) :=
  match skipSpace text with
  | [] => none
  | c :: rest =>
    if c = close then some ([], rest) else readItems close item text.length (c :: rest)

end Sequences

def readMember (value : Text → Option (Value × Text)) (text : Text) :
    Option ((Text × Value) × Text) :=
  match skipSpace text with
  | '"' :: rest => do
    let (key, rest) ← readString rest.length rest
    match skipSpace rest with
    | ':' :: rest =>
      let (v, rest) ← value rest
      return ((key, v), rest)
    | _ => none
  | _ => none

def readWord (text : Text) : Option (Value × Text) :=
  if "null".toList.isPrefixOf text then some (.null, text.drop 4)
  else if "true".toList.isPrefixOf text then some (.bool true, text.drop 4)
  else if "false".toList.isPrefixOf text then some (.bool false, text.drop 5)
  else if h : isNumber (text.takeWhile isNumberChar) = true then
    some (.number ⟨text.takeWhile isNumberChar, h⟩, text.dropWhile isNumberChar)
  else none

def readValue : ℕ → Text → Option (Value × Text)
  | 0, _ => none
  | n + 1, text =>
    match skipSpace text with
    | [] => none
    | c :: rest =>
      if c = '"' then (readString rest.length rest).map fun r => (.string r.1, r.2)
      else if c = '[' then
        (readSequence ']' (readValue n) rest).map fun r => (.array r.1, r.2)
      else if c = '{' then
        (readSequence '}' (readMember (readValue n)) rest).map fun r => (.object r.1, r.2)
      else readWord (c :: rest)

def read (text : Text) : Option Value :=
  match readValue (text.length + 1) text with
  | some (v, rest) => if skipSpace rest = [] then some v else none
  | none => none

end Reader

section RoundTrip

theorem readEscape_short {e : Char × Char} (he : e ∈ shortEscapes) (rest : Text) :
    readEscape (e.1 :: rest) = some (e.2, rest) := by
  have hall : shortEscapes.all (fun e => e.1 ≠ 'u' ∧ e.1 ≠ '/' ∧
      shortEscapes.find? (fun d => d.1 = e.1) = some e) = true := by decide
  obtain ⟨hu, hslash, hfind⟩ := of_decide_eq_true (List.all_eq_true.mp hall e he)
  unfold readEscape
  simp only
  rw [if_neg hu, if_neg hslash, hfind]
  rfl

theorem hexValue_hexDigit {n : ℕ} (h : n < 16) : hexValue (hexDigit n) = some n := by
  have hall : (List.range 16).all (fun n => hexValue (hexDigit n) = some n) = true := by decide
  exact of_decide_eq_true (List.all_eq_true.mp hall n (List.mem_range.mpr h))

theorem readUnicode_control {c : Char} (h : c.toNat < 0x20) (rest : Text) :
    readUnicode ('0' :: '0' :: hexDigit (c.toNat / 16) :: hexDigit (c.toNat % 16) :: rest) =
      some (c, rest) := by
  have hzero : hexValue '0' = some 0 := by decide
  have hhigh : hexValue (hexDigit (c.toNat / 16)) = some (c.toNat / 16) :=
    hexValue_hexDigit (by omega)
  have hlow : hexValue (hexDigit (c.toNat % 16)) = some (c.toNat % 16) :=
    hexValue_hexDigit (by omega)
  have hsum : 4096 * 0 + 256 * 0 + 16 * (c.toNat / 16) + c.toNat % 16 = c.toNat := by omega
  have hread : readHex ('0' :: '0' :: hexDigit (c.toNat / 16) :: hexDigit (c.toNat % 16) :: rest) =
      some (c.toNat, rest) := by
    simp only [readHex, hzero, hhigh, hlow, Option.bind_eq_bind, Option.bind_some]
    rw [hsum]
    rfl
  unfold readUnicode
  rw [hread]
  simp only [Option.bind_eq_bind, Option.bind_some]
  rw [if_neg (by omega), if_neg (by omega), Char.ofNat_toNat]
  rfl

theorem readString_escape (n : ℕ) (c : Char) (rest : Text) :
    readString (n + 1) (escape c ++ rest) =
      (readString n rest).map fun r => (c :: r.1, r.2) := by
  unfold escape
  split
  · rename_i e he
    have hmem := List.mem_of_find?_eq_some he
    obtain rfl : e.2 = c := by simpa using List.find?_some he
    change readString (n + 1) ('\\' :: e.1 :: rest) = _
    rw [readString, if_neg (by decide), if_pos rfl, readEscape_short hmem]
    simp only [Option.bind_eq_bind, Option.bind_some]
    cases readString n rest <;> rfl
  · rename_i hnone
    have hne : ∀ e ∈ shortEscapes, e.2 ≠ c := by
      intro e he heq
      have hfalse := List.find?_eq_none.mp hnone e he
      simp [heq] at hfalse
    split
    · rename_i hcontrol
      change readString (n + 1) ('\\' :: 'u' :: '0' :: '0' :: hexDigit (c.toNat / 16) ::
        hexDigit (c.toNat % 16) :: rest) = _
      rw [readString, if_neg (by decide), if_pos rfl, readEscape, if_pos rfl,
        readUnicode_control hcontrol]
      simp only [Option.bind_eq_bind, Option.bind_some]
      cases readString n rest <;> rfl
    · rename_i hplain
      have hquote : c ≠ '"' := (hne ('"', '"') (by simp [shortEscapes])).symm
      have hbackslash : c ≠ '\\' := (hne ('\\', '\\') (by simp [shortEscapes])).symm
      change readString (n + 1) (c :: rest) = _
      rw [readString, if_neg hquote, if_neg hbackslash, if_neg hplain]
      cases readString n rest <;> rfl

theorem readString_flatMap (text : Text) {n : ℕ} (h : text.length < n) (rest : Text) :
    readString n (text.flatMap escape ++ '"' :: rest) = some (text, rest) := by
  induction text generalizing n with
  | nil =>
    cases n with
    | zero => cases h
    | succ n =>
      rw [List.flatMap_nil, List.nil_append, readString, if_pos rfl]
  | cons c text ih =>
    cases n with
    | zero => cases h
    | succ n =>
      rw [List.flatMap_cons, List.append_assoc, readString_escape, ih (Nat.lt_of_succ_lt_succ h)]
      rfl

theorem length_le_flatMap_escape (text : Text) : text.length ≤ (text.flatMap escape).length := by
  induction text with
  | nil => exact Nat.le_refl 0
  | cons c text ih =>
    have hone : 1 ≤ (escape c).length := by
      unfold escape
      split
      · exact Nat.le_add_left 1 1
      · split
        · exact Nat.le_add_left 1 5
        · exact Nat.le_refl 1
    rw [List.flatMap_cons, List.length_append, List.length_cons]
    omega

theorem readString_writeString (text rest : Text) :
    readString (text.flatMap escape ++ '"' :: rest).length (text.flatMap escape ++ '"' :: rest) =
      some (text, rest) := by
  apply readString_flatMap
  rw [List.length_append, List.length_cons]
  have hle := length_le_flatMap_escape text
  omega

section Sequences

variable {α : Type} {close : Char} {item : Text → Option (α × Text)} {w : α → Text}

theorem skipSpace_cons {c : Char} (h : isSpace c = false) (rest : Text) :
    skipSpace (c :: rest) = c :: rest := by
  unfold skipSpace
  rw [List.dropWhile_cons_of_neg (by simp [h])]

theorem readItems_separated (hclose : isSpace close = false) (hcomma : ',' ≠ close) {xs : List α}
    (hne : xs ≠ []) {n : ℕ} (hlength : xs.length ≤ n)
    (hitem : ∀ x ∈ xs, ∀ c rest, c = close ∨ c = ',' → item (w x ++ c :: rest) = some (x, c :: rest))
    (rest : Text) : readItems close item n (separated close (xs.map w) ++ rest) = some (xs, rest) := by
  induction xs generalizing n with
  | nil => exact absurd rfl hne
  | cons x xs ih =>
    cases n with
    | zero => cases hlength
    | succ n =>
      cases xs with
      | nil =>
        change readItems close item (n + 1) (w x ++ [close] ++ rest) = _
        have hx := hitem x List.mem_cons_self close rest (.inl rfl)
        rw [List.append_assoc, List.singleton_append, readItems, hx]
        simp only [Option.bind_eq_bind, Option.bind_some]
        rw [skipSpace_cons hclose]
        simp
      | cons y ys =>
        change readItems close item (n + 1)
          (w x ++ ',' :: separated close ((y :: ys).map w) ++ rest) = _
        have hx := hitem x List.mem_cons_self ','
          (separated close ((y :: ys).map w) ++ rest) (.inr rfl)
        have hrest := ih (List.cons_ne_nil y ys) (Nat.le_of_succ_le_succ hlength)
          fun z hz => hitem z (List.mem_cons_of_mem x hz)
        rw [List.append_assoc, List.cons_append, readItems, hx]
        simp only [Option.bind_eq_bind, Option.bind_some]
        rw [skipSpace_cons (by decide)]
        simp only
        rw [if_neg hcomma, if_pos trivial, hrest]
        rfl

theorem length_le_separated (close : Char) (xs : List Text) :
    xs.length ≤ (separated close xs).length := by
  induction xs with
  | nil => exact Nat.zero_le _
  | cons x xs ih =>
    cases xs with
    | nil => simp [separated]
    | cons y ys =>
      rw [separated, List.length_append, List.length_cons, List.length_cons (a := ',')]
      omega

theorem length_lt_separated {c : Char} {xs : List Text} {x : Text} (h : x ∈ xs) :
    x.length < (separated c xs).length := by
  induction xs with
  | nil => cases h
  | cons y xs ih =>
    cases xs with
    | nil =>
      obtain rfl := List.mem_singleton.mp h
      simp [separated]
    | cons z zs =>
      rw [separated, List.length_append, List.length_cons]
      rcases List.mem_cons.mp h with rfl | h
      · omega
      · have hlt := ih h
        omega

theorem readSequence_separated (hclose : isSpace close = false) (hcomma : ',' ≠ close) {xs : List α}
    (hitem : ∀ x ∈ xs, ∀ c rest, c = close ∨ c = ',' → item (w x ++ c :: rest) = some (x, c :: rest))
    (hhead : ∀ x ∈ xs, ∃ c rest, w x = c :: rest ∧ isSpace c = false ∧ c ≠ close) (rest : Text) :
    readSequence close item (separated close (xs.map w) ++ rest) = some (xs, rest) := by
  cases xs with
  | nil =>
    change readSequence close item (close :: rest) = _
    unfold readSequence
    rw [skipSpace_cons hclose]
    simp
  | cons x xs =>
    obtain ⟨c, tail, hx, hspace, hne⟩ := hhead x List.mem_cons_self
    have hstart : ∃ more, separated close ((x :: xs).map w) ++ rest = c :: more := by
      cases xs with
      | nil => exact ⟨tail ++ [close] ++ rest, by simp [separated, hx]⟩
      | cons y ys =>
        exact ⟨tail ++ ',' :: separated close ((y :: ys).map w) ++ rest, by simp [separated, hx]⟩
    obtain ⟨more, hmore⟩ := hstart
    have hlength : (x :: xs).length ≤ (separated close ((x :: xs).map w) ++ rest).length := by
      have hle := length_le_separated close ((x :: xs).map w)
      rw [List.length_map] at hle
      rw [List.length_append]
      omega
    have hitems := readItems_separated hclose hcomma (List.cons_ne_nil x xs) hlength hitem rest
    unfold readSequence
    rw [hmore] at hitems ⊢
    rw [skipSpace_cons hspace]
    simp only
    rw [if_neg hne]
    exact hitems

end Sequences

def startsValue (c : Char) : Bool :=
  c = 'n' || c = 't' || c = 'f' || c = '"' || c = '[' || c = '{' || isNumberChar c

theorem number_ne_nil (n : Number) : n.literal ≠ [] := by
  intro hnil
  have hwf := n.wf
  rw [hnil] at hwf
  exact absurd hwf (by decide)

theorem number_chars {n : Number} {c : Char} (h : c ∈ n.literal) : isNumberChar c = true :=
  List.all_eq_true.mp (Bool.and_eq_true_iff.mp n.wf).1 c h

theorem write_head (v : Value) : ∃ c rest, write v = c :: rest ∧ startsValue c = true := by
  cases v with
  | null => exact ⟨'n', _, rfl, by decide⟩
  | bool b =>
    cases b with
    | true => exact ⟨'t', _, rfl, by decide⟩
    | false => exact ⟨'f', _, rfl, by decide⟩
  | number n =>
    cases hn : n.literal with
    | nil => exact absurd hn (number_ne_nil n)
    | cons c rest =>
      have hc : isNumberChar c = true := number_chars (hn ▸ List.mem_cons_self)
      exact ⟨c, rest, hn, by simp [startsValue, hc]⟩
  | string text => exact ⟨'"', _, rfl, by decide⟩
  | array items => exact ⟨'[', _, rfl, by decide⟩
  | object members => exact ⟨'{', _, rfl, by decide⟩

theorem startsValue_spec {c : Char} (h : startsValue c = true) :
    isSpace c = false ∧ c ≠ ']' ∧ c ≠ '}' := by
  refine ⟨?_, ?_, ?_⟩
  · cases hspace : isSpace c with
    | false => rfl
    | true =>
      exfalso
      simp only [isSpace, Bool.or_eq_true, decide_eq_true_eq] at hspace
      rcases hspace with ((rfl | rfl) | rfl) | rfl <;> exact absurd h (by decide)
  · rintro rfl
    exact absurd h (by decide)
  · rintro rfl
    exact absurd h (by decide)

def Stops (rest : Text) : Prop := ∀ c ∈ rest.head?, isNumberChar c = false

theorem readWord_number (n : Number) {rest : Text} (h : Stops rest) :
    readWord (n.literal ++ rest) = some (.number n, rest) := by
  cases hn : n.literal with
  | nil => exact absurd hn (number_ne_nil n)
  | cons c tail =>
    have hc : isNumberChar c = true := number_chars (hn ▸ List.mem_cons_self)
    have hhead : ∀ (d : Char) (word : Text), isNumberChar d = false →
        (d :: word).isPrefixOf (c :: tail ++ rest) = false := by
      intro d word hd
      have hdc : d ≠ c := by
        rintro rfl
        rw [hc] at hd
        cases hd
      simp [List.isPrefixOf, hdc]
    have htake : (c :: tail ++ rest).takeWhile isNumberChar = n.literal := by
      rw [← hn, List.takeWhile_append_of_pos fun d hd => number_chars hd]
      have hnil : rest.takeWhile isNumberChar = [] := by
        cases rest with
        | nil => rfl
        | cons d rest => exact List.takeWhile_cons_of_neg (by simp [h d rfl])
      rw [hnil, List.append_nil]
    have hdrop : (c :: tail ++ rest).dropWhile isNumberChar = rest := by
      rw [← hn, List.dropWhile_append_of_pos fun d hd => number_chars hd]
      cases rest with
      | nil => rfl
      | cons d rest => exact List.dropWhile_cons_of_neg (by simp [h d rfl])
    have hnumber : ∀ (literal : Text) (hwf : isNumber literal = true), literal = n.literal →
        (⟨literal, hwf⟩ : Number) = n := by
      rintro _ _ rfl
      rfl
    unfold readWord
    have hnull : "null".toList.isPrefixOf (c :: tail ++ rest) = false := hhead 'n' _ (by decide)
    have htrue : "true".toList.isPrefixOf (c :: tail ++ rest) = false := hhead 't' _ (by decide)
    have hfalse : "false".toList.isPrefixOf (c :: tail ++ rest) = false := hhead 'f' _ (by decide)
    rw [hnull, htrue, hfalse]
    simp only [Bool.false_eq_true, if_false]
    rw [hdrop, dif_pos (by rw [htake]; exact n.wf), hnumber _ _ htake]

theorem readValue_cons (n : ℕ) {c : Char} (h : isSpace c = false) (rest : Text) :
    readValue (n + 1) (c :: rest) =
      if c = '"' then (readString rest.length rest).map fun r => (.string r.1, r.2)
      else if c = '[' then
        (readSequence ']' (readValue n) rest).map fun r => (.array r.1, r.2)
      else if c = '{' then
        (readSequence '}' (readMember (readValue n)) rest).map fun r => (.object r.1, r.2)
      else readWord (c :: rest) := by
  rw [readValue, skipSpace_cons h]

theorem readMember_writeMember {value : Text → Option (Value × Text)} {m : Text × Value}
    {rest : Text} (hvalue : value (write m.2 ++ rest) = some (m.2, rest)) :
    readMember value (writeMember m ++ rest) = some (m, rest) := by
  have heq : writeMember m ++ rest =
      '"' :: (m.1.flatMap escape ++ '"' :: ':' :: (write m.2 ++ rest)) := by
    simp [writeMember, writeString]
  rw [heq, readMember, skipSpace_cons (by decide)]
  simp only
  rw [readString_writeString]
  simp only [Option.bind_eq_bind, Option.bind_some]
  rw [skipSpace_cons (by decide)]
  simp only
  rw [hvalue]
  rfl

theorem stops_of_separator {close c : Char} (hclose : isNumberChar close = false)
    (hc : c = close ∨ c = ',') (rest : Text) : Stops (c :: rest) := by
  intro d hd
  obtain rfl : c = d := Option.some.inj hd
  rcases hc with rfl | rfl
  · exact hclose
  · decide

theorem readValue_write (v : Value) {n : ℕ} (hn : (write v).length < n) {rest : Text}
    (hrest : Stops rest) : readValue n (write v ++ rest) = some (v, rest) := by
  induction v using Value.induct generalizing n rest with
  | null =>
    cases n with
    | zero => cases hn
    | succ n => exact readValue_cons n (c := 'n') (by decide) _
  | bool b =>
    cases n with
    | zero => cases hn
    | succ n =>
      cases b with
      | true => exact readValue_cons n (c := 't') (by decide) _
      | false => exact readValue_cons n (c := 'f') (by decide) _
  | number m =>
    cases n with
    | zero => cases hn
    | succ n =>
      have hword := readWord_number m hrest
      cases hm : m.literal with
      | nil => exact absurd hm (number_ne_nil m)
      | cons c tail =>
        have hc : isNumberChar c = true := number_chars (hm ▸ List.mem_cons_self)
        have hspace := (startsValue_spec (c := c) (by simp [startsValue, hc])).1
        have hne : c ≠ '"' ∧ c ≠ '[' ∧ c ≠ '{' := by
          refine ⟨?_, ?_, ?_⟩ <;> rintro rfl <;> exact absurd hc (by decide)
        change readValue (n + 1) (m.literal ++ rest) = _
        rw [hm] at hword ⊢
        rw [List.cons_append, readValue_cons n hspace, if_neg hne.1, if_neg hne.2.1,
          if_neg hne.2.2]
        exact hword
  | string text =>
    cases n with
    | zero => cases hn
    | succ n =>
      have heq : write (.string text) ++ rest = '"' :: (text.flatMap escape ++ '"' :: rest) := by
        simp [write, writeString]
      rw [heq, readValue_cons n (by decide), if_pos rfl, readString_writeString]
      rfl
  | array items ih =>
    cases n with
    | zero => cases hn
    | succ n =>
      have heq : write (.array items) ++ rest = '[' :: (separated ']' (items.map write) ++ rest) := by
        rw [write, writeItems_eq, List.cons_append]
      have hlength : (separated ']' (items.map write)).length < n := by
        rw [write, writeItems_eq, List.length_cons] at hn
        omega
      have hitems : readSequence ']' (readValue n) (separated ']' (items.map write) ++ rest) =
          some (items, rest) := by
        refine readSequence_separated (by decide) (by decide) (fun v hv c rest hc => ?_)
          (fun v _ => ?_) rest
        · have hlt := length_lt_separated (c := ']') (List.mem_map_of_mem (f := write) hv)
          exact ih v hv (Nat.lt_trans hlt hlength) (stops_of_separator (by decide) hc rest)
        · obtain ⟨c, tail, hwrite, hstart⟩ := write_head v
          have hspec := startsValue_spec hstart
          exact ⟨c, tail, hwrite, hspec.1, hspec.2.1⟩
      rw [heq, readValue_cons n (by decide), if_neg (by decide), if_pos rfl, hitems]
      rfl
  | object members ih =>
    cases n with
    | zero => cases hn
    | succ n =>
      have heq : write (.object members) ++ rest =
          '{' :: (separated '}' (members.map writeMember) ++ rest) := by
        rw [write, writeMembers_eq, List.cons_append]
      have hlength : (separated '}' (members.map writeMember)).length < n := by
        rw [write, writeMembers_eq, List.length_cons] at hn
        omega
      have hitems : readSequence '}' (readMember (readValue n))
          (separated '}' (members.map writeMember) ++ rest) = some (members, rest) := by
        refine readSequence_separated (by decide) (by decide) (fun m hm c rest hc => ?_)
          (fun m _ => ⟨'"', _, rfl, by decide, by decide⟩) rest
        have hlt := length_lt_separated (c := '}') (List.mem_map_of_mem (f := writeMember) hm)
        have hvalue : (write m.2).length < (writeMember m).length := by
          rw [writeMember, List.length_append, List.length_cons]
          omega
        exact readMember_writeMember (ih m hm (Nat.lt_trans hvalue (Nat.lt_trans hlt hlength))
          (stops_of_separator (by decide) hc rest))
      rw [heq, readValue_cons n (by decide), if_neg (by decide), if_neg (by decide), if_pos rfl,
        hitems]
      rfl

theorem read_write (v : Value) : read (write v) = some v := by
  have hstops : Stops [] := fun c hc => by cases hc
  have hread := readValue_write v (Nat.lt_succ_self (write v).length) hstops
  rw [List.append_nil] at hread
  unfold read
  rw [hread]
  simp [skipSpace]

end RoundTrip

end Acps.JsonText

namespace Acps.JsonText

mutual

def Value.all (p : Char → Bool) : Value → Bool
  | .string text => text.all p
  | .array items => allItems p items
  | .object members => allMembers p members
  | .null | .bool _ | .number _ => true

def allItems (p : Char → Bool) : List Value → Bool
  | [] => true
  | v :: items => v.all p && allItems p items

def allMembers (p : Char → Bool) : List (Text × Value) → Bool
  | [] => true
  | (key, v) :: members => key.all p && v.all p && allMembers p members

end

variable {p : Char → Bool}

theorem allItems_iff {items : List Value} :
    allItems p items = true ↔ ∀ v ∈ items, v.all p = true := by
  induction items with
  | nil => simp [allItems]
  | cons v items ih => simp [allItems, ih]

theorem allMembers_iff {members : List (Text × Value)} :
    allMembers p members = true ↔ ∀ m ∈ members, m.1.all p = true ∧ m.2.all p = true := by
  induction members with
  | nil => simp [allMembers]
  | cons m members ih => simp [allMembers, ih, and_assoc]

inductive Escaped : Text → Prop where
  | nil : Escaped []
  | plain {c : Char} {rest : Text} : c ≠ '\\' → Escaped rest → Escaped (c :: rest)
  | short {e : Char × Char} {rest : Text} : e ∈ shortEscapes → Escaped rest →
      Escaped ('\\' :: e.1 :: rest)
  | control {high low : ℕ} {rest : Text} : high < 2 → low < 16 → Escaped rest →
      Escaped ('\\' :: 'u' :: '0' :: '0' :: hexDigit high :: hexDigit low :: rest)

section Writer

theorem Escaped.append {t u : Text} (ht : Escaped t) (hu : Escaped u) : Escaped (t ++ u) := by
  induction ht with
  | nil => exact hu
  | plain hc _ ih => exact .plain hc ih
  | short he _ ih => exact .short he ih
  | control hhigh hlow _ ih => exact .control hhigh hlow ih

theorem escaped_of_notMem {t : Text} (h : '\\' ∉ t) : Escaped t := by
  induction t with
  | nil => exact .nil
  | cons c t ih =>
    exact .plain (fun heq => h (heq ▸ List.mem_cons_self)) (ih fun hmem => h (List.mem_cons_of_mem c hmem))

theorem escaped_escape (c : Char) : Escaped (escape c) := by
  unfold escape
  split
  · rename_i e he
    exact .short (List.mem_of_find?_eq_some he) .nil
  · rename_i hnone
    split
    · exact .control (by omega) (by omega) .nil
    · have hne : c ≠ '\\' := by
        rintro rfl
        exact absurd hnone (by decide)
      exact .plain hne .nil

theorem escaped_flatMap_escape (text : Text) : Escaped (text.flatMap escape) := by
  induction text with
  | nil => exact .nil
  | cons c text ih =>
    rw [List.flatMap_cons]
    exact (escaped_escape c).append ih

theorem escaped_writeString (text : Text) : Escaped (writeString text) :=
  .plain (by decide) ((escaped_flatMap_escape text).append (.plain (by decide) .nil))

theorem escaped_separated {close : Char} (hclose : close ≠ '\\') {xs : List Text}
    (h : ∀ x ∈ xs, Escaped x) : Escaped (separated close xs) := by
  induction xs with
  | nil => exact .plain hclose .nil
  | cons x xs ih =>
    have hx := h x List.mem_cons_self
    cases xs with
    | nil => exact hx.append (.plain hclose .nil)
    | cons y ys =>
      exact hx.append (.plain (by decide) (ih fun z hz => h z (List.mem_cons_of_mem x hz)))

theorem number_printable {c : Char} (h : isNumberChar c = true) :
    0x20 ≤ c.toNat ∧ c.toNat < 0x80 := by
  simp only [isNumberChar, isDigit, Bool.or_eq_true, Bool.and_eq_true, decide_eq_true_eq] at h
  rcases h with ((((⟨hlow, hhigh⟩ | rfl) | rfl) | rfl) | rfl) | rfl
  · have hle : '0'.toNat ≤ c.toNat := hlow
    have hge : c.toNat ≤ '9'.toNat := hhigh
    exact ⟨Nat.le_trans (by decide) hle, Nat.lt_of_le_of_lt hge (by decide)⟩
  all_goals decide

theorem escaped_write (v : Value) : Escaped (write v) := by
  induction v using Value.induct with
  | null => exact escaped_of_notMem (by decide)
  | bool b => cases b <;> exact escaped_of_notMem (by decide)
  | number n =>
    refine escaped_of_notMem fun hmem => absurd (number_chars hmem) ?_
    decide
  | string text => exact escaped_writeString text
  | array items ih =>
    rw [write, writeItems_eq]
    refine .plain (by decide) (escaped_separated (by decide) fun x hx => ?_)
    obtain ⟨v, hv, rfl⟩ := List.mem_map.mp hx
    exact ih v hv
  | object members ih =>
    rw [write, writeMembers_eq]
    refine .plain (by decide) (escaped_separated (by decide) fun x hx => ?_)
    obtain ⟨m, hm, rfl⟩ := List.mem_map.mp hx
    exact (escaped_writeString m.1).append (.plain (by decide) (ih m hm))

end Writer

section Characters

theorem hexDigit_printable {n : ℕ} (h : n < 16) :
    0x20 ≤ (hexDigit n).toNat ∧ (hexDigit n).toNat < 0x80 := by
  have hall : (List.range 16).all (fun n => 0x20 ≤ (hexDigit n).toNat ∧
      (hexDigit n).toNat < 0x80) = true := by decide
  exact of_decide_eq_true (List.all_eq_true.mp hall n (List.mem_range.mpr h))

variable (hp : ∀ c : Char, 0x20 ≤ c.toNat → c.toNat < 0x80 → p c = true)
include hp

theorem all_escape {c : Char} (h : c.toNat < 0x20 ∨ p c = true) : (escape c).all p = true := by
  have hbackslash : p '\\' = true := hp _ (by decide) (by decide)
  unfold escape
  split
  · rename_i e he
    have hshort : shortEscapes.all (fun e => 0x20 ≤ e.1.toNat ∧ e.1.toNat < 0x80) = true := by decide
    have hprintable := of_decide_eq_true
      (List.all_eq_true.mp hshort e (List.mem_of_find?_eq_some he))
    have hone := hp e.1 hprintable.1 hprintable.2
    simp [hbackslash, hone]
  · split
    · have hu : p 'u' = true := hp _ (by decide) (by decide)
      have hzero : p '0' = true := hp _ (by decide) (by decide)
      have hdigit : ∀ n, n < 16 → p (hexDigit n) = true := fun n hn =>
        hp _ (hexDigit_printable hn).1 (hexDigit_printable hn).2
      have hhigh := hdigit (c.toNat / 16) (by omega)
      have hlow := hdigit (c.toNat % 16) (by omega)
      simp [hbackslash, hu, hzero, hhigh, hlow]
    · rename_i hplain
      simp [h.resolve_left hplain]

theorem all_writeString {text : Text} (h : ∀ c ∈ text, c.toNat < 0x20 ∨ p c = true) :
    (writeString text).all p = true := by
  have hquote : p '"' = true := hp _ (by decide) (by decide)
  have hescaped : (text.flatMap escape).all p = true := by
    rw [List.all_flatMap, List.all_eq_true]
    exact fun c hc => all_escape hp (h c hc)
  rw [writeString, List.all_cons, List.all_append, hquote, hescaped]
  simp [hquote]

theorem all_separated {close : Char} (hclose : p close = true) {xs : List Text}
    (h : ∀ x ∈ xs, x.all p = true) : (separated close xs).all p = true := by
  have hcomma : p ',' = true := hp _ (by decide) (by decide)
  induction xs with
  | nil => simp [separated, hclose]
  | cons x xs ih =>
    have hx := h x List.mem_cons_self
    cases xs with
    | nil => rw [separated, List.all_append, hx]; simp [hclose]
    | cons y ys =>
      have hrest := ih fun z hz => h z (List.mem_cons_of_mem x hz)
      rw [separated, List.all_append, hx, List.all_cons, hcomma, hrest]
      rfl

theorem all_write (v : Value) (h : v.all (fun c => c.toNat < 0x20 || p c) = true) :
    (write v).all p = true := by
  have hstring : ∀ text : Text, text.all (fun c => c.toNat < 0x20 || p c) = true →
      (writeString text).all p = true := by
    intro text htext
    refine all_writeString hp fun c hc => ?_
    simpa using List.all_eq_true.mp htext c hc
  have hword : ∀ word : Text, word.all (fun c => 0x20 ≤ c.toNat && c.toNat < 0x80) = true →
      word.all p = true := by
    intro word hw
    refine List.all_eq_true.mpr fun c hc => ?_
    have hprintable := List.all_eq_true.mp hw c hc
    simp only [Bool.and_eq_true, decide_eq_true_eq] at hprintable
    exact hp c hprintable.1 hprintable.2
  have hopen : p '[' = true ∧ p '{' = true ∧ p ']' = true ∧ p '}' = true ∧ p ':' = true := by
    refine ⟨?_, ?_, ?_, ?_, ?_⟩ <;> exact hp _ (by decide) (by decide)
  induction v using Value.induct with
  | null => exact hword _ (by decide)
  | bool b => cases b <;> exact hword _ (by decide)
  | number n =>
    refine List.all_eq_true.mpr fun c hc => ?_
    exact hp c (number_printable (number_chars hc)).1 (number_printable (number_chars hc)).2
  | string text => exact hstring text h
  | array items ih =>
    rw [write, writeItems_eq, List.all_cons, hopen.1, Bool.true_and]
    refine all_separated hp hopen.2.2.1 fun x hx => ?_
    obtain ⟨v, hv, rfl⟩ := List.mem_map.mp hx
    exact ih v hv (allItems_iff.mp h v hv)
  | object members ih =>
    rw [write, writeMembers_eq, List.all_cons, hopen.2.1, Bool.true_and]
    refine all_separated hp hopen.2.2.2.1 fun x hx => ?_
    obtain ⟨m, hm, rfl⟩ := List.mem_map.mp hx
    have hboth := allMembers_iff.mp h m hm
    rw [writeMember, List.all_append, hstring m.1 hboth.1, List.all_cons, hopen.2.2.2.2,
      ih m hm hboth.2]
    rfl

end Characters

section Reader

structure Tame (p : Char → Bool) (text : Text) : Prop where
  escaped : Escaped text
  all : text.all p = true

variable {text rest : Text}

theorem Tame.tail {c : Char} (h : Tame p (c :: rest)) (hc : c ≠ '\\') : Tame p rest := by
  refine ⟨?_, (Bool.and_eq_true_iff.mp h.all).2⟩
  cases h.escaped with
  | plain _ hrest => exact hrest
  | short _ _ => exact absurd rfl hc
  | control _ _ _ => exact absurd rfl hc

theorem Tame.append {u : Text} (ht : Tame p text) (hu : Tame p u) : Tame p (text ++ u) :=
  ⟨ht.escaped.append hu.escaped, by rw [List.all_append, ht.all, hu.all]; rfl⟩

theorem Tame.dropWhile (h : Tame p text) {q : Char → Bool} (hq : q '\\' = false) :
    Tame p (text.dropWhile q) := by
  induction text with
  | nil => exact h
  | cons c text ih =>
    cases hc : q c with
    | false => rwa [List.dropWhile_cons_of_neg (by simp [hc])]
    | true =>
      rw [List.dropWhile_cons_of_pos hc]
      refine ih (h.tail ?_)
      rintro rfl
      rw [hq] at hc
      cases hc

theorem Tame.skipSpace (h : Tame p text) : Tame p (skipSpace text) := h.dropWhile (by decide)

theorem Tame.drop_word (h : Tame p text) {w : Text} (hword : '\\' ∉ w)
    (hinit : w.isPrefixOf text = true) : Tame p (text.drop w.length) := by
  obtain ⟨rest, rfl⟩ := List.isPrefixOf_iff_prefix.mp hinit
  induction w with
  | nil => exact h
  | cons c w ih =>
    have hc : c ≠ '\\' := fun heq => hword (heq ▸ List.mem_cons_self)
    exact ih (fun hmem => hword (List.mem_cons_of_mem c hmem)) (h.tail hc)
      (List.isPrefixOf_iff_prefix.mpr (List.prefix_append w rest))

section Sequences

variable {α : Type} {close : Char} {item : Text → Option (α × Text)} {Q : α → Prop}

theorem readItems_tame (hclose : close ≠ '\\')
    (hitem : ∀ {text x rest}, Tame p text → item text = some (x, rest) → Q x ∧ Tame p rest) {n : ℕ}
    (h : Tame p text) {xs : List α} (hread : readItems close item n text = some (xs, rest)) :
    (∀ x ∈ xs, Q x) ∧ Tame p rest := by
  induction n generalizing text xs with
  | zero => cases hread
  | succ n ih =>
    obtain ⟨⟨x, more⟩, hx, hread⟩ := Option.bind_eq_some_iff.mp hread
    have hfirst := hitem h hx
    have hspace := hfirst.2.skipSpace
    simp only at hread
    split at hread
    · cases hread
    · rename_i c tail hmore
      rw [hmore] at hspace
      split at hread
      · rename_i hc
        obtain ⟨rfl, rfl⟩ := Prod.mk.inj (Option.some.inj hread)
        refine ⟨fun y hy => ?_, hspace.tail (hc ▸ hclose)⟩
        obtain rfl := List.mem_singleton.mp hy
        exact hfirst.1
      · split at hread
        · rename_i hc
          obtain ⟨⟨ys, last⟩, hys, hread⟩ := Option.bind_eq_some_iff.mp hread
          obtain ⟨rfl, rfl⟩ := Prod.mk.inj (Option.some.inj hread)
          have hrest := ih (hspace.tail (by rw [hc]; decide)) hys
          refine ⟨fun y hy => ?_, hrest.2⟩
          rcases List.mem_cons.mp hy with rfl | hy
          · exact hfirst.1
          · exact hrest.1 y hy
        · cases hread

theorem readSequence_tame (hclose : close ≠ '\\')
    (hitem : ∀ {text x rest}, Tame p text → item text = some (x, rest) → Q x ∧ Tame p rest)
    (h : Tame p text) {xs : List α} (hread : readSequence close item text = some (xs, rest)) :
    (∀ x ∈ xs, Q x) ∧ Tame p rest := by
  have hspace := h.skipSpace
  unfold readSequence at hread
  split at hread
  · cases hread
  · rename_i c tail hskip
    rw [hskip] at hspace
    split at hread
    · rename_i hc
      obtain ⟨rfl, rfl⟩ := Prod.mk.inj (Option.some.inj hread)
      exact ⟨(fun x hx => by cases hx), hspace.tail (hc ▸ hclose)⟩
    · exact readItems_tame hclose hitem hspace hread

end Sequences

theorem readWord_tame (h : Tame p text) {v : Value} (hread : readWord text = some (v, rest)) :
    v.all p = true ∧ Tame p rest := by
  unfold readWord at hread
  split at hread
  · rename_i hinit
    obtain ⟨rfl, rfl⟩ := Prod.mk.inj (Option.some.inj hread)
    exact ⟨rfl, h.drop_word (w := "null".toList) (by decide) hinit⟩
  · split at hread
    · rename_i hinit
      obtain ⟨rfl, rfl⟩ := Prod.mk.inj (Option.some.inj hread)
      exact ⟨rfl, h.drop_word (w := "true".toList) (by decide) hinit⟩
    · split at hread
      · rename_i hinit
        obtain ⟨rfl, rfl⟩ := Prod.mk.inj (Option.some.inj hread)
        exact ⟨rfl, h.drop_word (w := "false".toList) (by decide) hinit⟩
      · split at hread
        · obtain ⟨rfl, rfl⟩ := Prod.mk.inj (Option.some.inj hread)
          exact ⟨rfl, h.dropWhile (by decide)⟩
        · cases hread

variable (hp : ∀ c : Char, c.toNat < 0x80 → p c = true)
include hp

theorem readEscape_tame (h : Tame p ('\\' :: text)) {c : Char}
    (hread : readEscape text = some (c, rest)) : p c = true ∧ Tame p rest := by
  have hall := h.all
  have hescaped := h.escaped
  generalize hwhole : '\\' :: text = whole at hescaped
  cases hescaped with
  | nil => cases hwhole
  | plain hc _ =>
    obtain ⟨rfl, -⟩ := List.cons.inj hwhole
    exact absurd rfl hc
  | @short e tail he htail =>
    obtain ⟨-, rfl⟩ := List.cons.inj hwhole
    rw [readEscape_short he] at hread
    obtain ⟨rfl, rfl⟩ := Prod.mk.inj (Option.some.inj hread)
    have hascii : shortEscapes.all (fun e => e.2.toNat < 0x80) = true := by decide
    refine ⟨hp e.2 (of_decide_eq_true (List.all_eq_true.mp hascii e he)), htail, ?_⟩
    simp only [List.all_cons, Bool.and_eq_true] at hall
    exact hall.2.2
  | @control high low tail hhigh hlow htail =>
    obtain ⟨-, rfl⟩ := List.cons.inj hwhole
    have hdigits : readHex ('0' :: '0' :: hexDigit high :: hexDigit low :: tail) =
        some (16 * high + low, tail) := by
      have hzero : hexValue '0' = some 0 := by decide
      simp [readHex, hzero, hexValue_hexDigit (show high < 16 by omega), hexValue_hexDigit hlow]
    rw [readEscape, if_pos rfl, readUnicode, hdigits] at hread
    simp only [Option.bind_eq_bind, Option.bind_some] at hread
    rw [if_neg (by omega), if_neg (by omega)] at hread
    obtain ⟨rfl, rfl⟩ := Prod.mk.inj (Option.some.inj hread)
    refine ⟨hp _ ?_, htail, ?_⟩
    · have hcontrol : (List.range 32).all (fun n => (Char.ofNat n).toNat < 0x80) = true := by decide
      exact of_decide_eq_true (List.all_eq_true.mp hcontrol _ (List.mem_range.mpr (by omega)))
    · simp only [List.all_cons, Bool.and_eq_true] at hall
      exact hall.2.2.2.2.2.2

theorem readString_tame {n : ℕ} (h : Tame p text) {read : Text}
    (hread : readString n text = some (read, rest)) : read.all p = true ∧ Tame p rest := by
  induction n generalizing text read with
  | zero => cases hread
  | succ n ih =>
    cases text with
    | nil => cases hread
    | cons c text =>
      rw [readString] at hread
      split at hread
      · rename_i hc
        obtain ⟨rfl, rfl⟩ := Prod.mk.inj (Option.some.inj hread)
        exact ⟨rfl, h.tail (by rw [hc]; decide)⟩
      · split at hread
        · rename_i hc
          obtain ⟨⟨d, more⟩, hescape, hread⟩ := Option.bind_eq_some_iff.mp hread
          obtain ⟨⟨tail, last⟩, htail, hread⟩ := Option.bind_eq_some_iff.mp hread
          obtain ⟨rfl, rfl⟩ := Prod.mk.inj (Option.some.inj hread)
          have hd := readEscape_tame hp (hc ▸ h) hescape
          have hrest := ih hd.2 htail
          exact ⟨by rw [List.all_cons, hd.1, hrest.1]; rfl, hrest.2⟩
        · split at hread
          · cases hread
          · rename_i hc _
            obtain ⟨⟨tail, last⟩, htail, hread⟩ := Option.bind_eq_some_iff.mp hread
            obtain ⟨rfl, rfl⟩ := Prod.mk.inj (Option.some.inj hread)
            have hrest := ih (h.tail hc) htail
            have hfirst := (Bool.and_eq_true_iff.mp h.all).1
            exact ⟨by rw [List.all_cons, hfirst, hrest.1]; rfl, hrest.2⟩

theorem readMember_tame {value : Text → Option (Value × Text)}
    (hvalue : ∀ {text v rest}, Tame p text → value text = some (v, rest) →
      v.all p = true ∧ Tame p rest)
    (h : Tame p text) {m : Text × Value} (hread : readMember value text = some (m, rest)) :
    (m.1.all p = true ∧ m.2.all p = true) ∧ Tame p rest := by
  have hspace := h.skipSpace
  unfold readMember at hread
  split at hread
  · rename_i tail hskip
    rw [hskip] at hspace
    obtain ⟨⟨key, more⟩, hkey, hread⟩ := Option.bind_eq_some_iff.mp hread
    have hname := readString_tame hp (hspace.tail (by decide)) hkey
    have hcolon := hname.2.skipSpace
    simp only at hread
    split at hread
    · rename_i last hlast
      rw [hlast] at hcolon
      obtain ⟨⟨v, tail'⟩, hv, hread⟩ := Option.bind_eq_some_iff.mp hread
      obtain ⟨rfl, rfl⟩ := Prod.mk.inj (Option.some.inj hread)
      have hrest := hvalue (hcolon.tail (by decide)) hv
      exact ⟨⟨hname.1, hrest.1⟩, hrest.2⟩
    · cases hread
  · cases hread

theorem readValue_tame {n : ℕ} (h : Tame p text) {v : Value}
    (hread : readValue n text = some (v, rest)) : v.all p = true ∧ Tame p rest := by
  induction n generalizing text v rest with
  | zero => cases hread
  | succ n ih =>
    have hspace := h.skipSpace
    rw [readValue] at hread
    split at hread
    · cases hread
    · rename_i c tail hskip
      rw [hskip] at hspace
      split at hread
      · rename_i hc
        obtain ⟨r, hr, heq⟩ := Option.map_eq_some_iff.mp hread
        obtain ⟨rfl, rfl⟩ := Prod.mk.inj heq
        exact readString_tame hp (hspace.tail (by rw [hc]; decide)) hr
      · split at hread
        · rename_i hc
          obtain ⟨r, hr, heq⟩ := Option.map_eq_some_iff.mp hread
          obtain ⟨rfl, rfl⟩ := Prod.mk.inj heq
          have hitems := readSequence_tame (Q := fun v => v.all p = true) (by decide)
            (fun ht hv => ih ht hv) (hspace.tail (by rw [hc]; decide)) hr
          exact ⟨allItems_iff.mpr hitems.1, hitems.2⟩
        · split at hread
          · rename_i hc
            obtain ⟨r, hr, heq⟩ := Option.map_eq_some_iff.mp hread
            obtain ⟨rfl, rfl⟩ := Prod.mk.inj heq
            have hitems := readSequence_tame
              (Q := fun m : Text × Value => m.1.all p = true ∧ m.2.all p = true) (by decide)
              (fun ht hm => readMember_tame hp (fun ht hv => ih ht hv) ht hm)
              (hspace.tail (by rw [hc]; decide)) hr
            exact ⟨allMembers_iff.mpr hitems.1, hitems.2⟩
          · exact readWord_tame hspace hread

theorem read_tame (h : Tame p text) {v : Value} (hread : read text = some v) : v.all p = true := by
  unfold read at hread
  split at hread
  · rename_i w rest hw
    split at hread
    · obtain rfl := Option.some.inj hread
      exact (readValue_tame hp h hw).1
    · cases hread
  · cases hread

end Reader

end Acps.JsonText
