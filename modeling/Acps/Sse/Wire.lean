import Mathlib.Data.Int.Notation
import Acps.Lib.JsonText

/-!
Stream responses on the wire: the frames that the server writes, and the loop in which the client
takes the lines of a response apart.
-/

namespace Acps.Sse

open JsonText

structure ResponseModel (ρ : Type) where
  dump : ρ → Value
  validate : Value → Option ρ
  eventSeq : ρ → Option ℤ
  accepts : ρ → Bool

structure ResponseModel.Lawful {ρ : Type} (M : ResponseModel ρ) : Prop where
  validate_dump : ∀ r, M.validate (M.dump r) = some r
  texts : ∀ (p : Char → Bool), (∀ c : Char, c.toNat < 0x80 → p c = true) → ∀ v r, v.all p = true →
    M.validate v = some r → (M.dump r).all p = true

section Server

variable {ρ : Type} (M : ResponseModel ρ)

def formatSse (response : ρ) : Text :=
  "data: ".toList ++ write (M.dump response) ++ ['\n', '\n']

end Server

section Lines

def isLineBoundary (c : Char) : Bool :=
  c = '\n' || c = '\r' || c = '\x0b' || c = '\x0c' || c = '\x1c' || c = '\x1d' || c = '\x1e' ||
    c = '\u0085' || c = '\u2028' || c = '\u2029'

def splitlinesFrom : Bool → Text → Text → List Text
  | _, line, [] => if line = [] then [] else [line]
  | afterReturn, line, c :: rest =>
    if afterReturn = true ∧ c = '\n' then splitlinesFrom false line rest
    else if isLineBoundary c then line :: splitlinesFrom (c = '\r') [] rest
    else splitlinesFrom false (line ++ [c]) rest

def splitlines (text : Text) : List Text := splitlinesFrom false [] text

def joinLines : List Text → Text
  | [] => []
  | [x] => x
  | x :: y :: xs => x ++ '\n' :: joinLines (y :: xs)

end Lines

structure LineLoop (ρ : Type) where
  dataParts : List Text
  lastEventSeq : Option ℤ
  yielded : List ρ
  raised : Bool

def LineLoop.initial {ρ : Type} (lastEventSeq : Option ℤ) : LineLoop ρ :=
  { dataParts := [], lastEventSeq, yielded := [], raised := false }

section Client

variable {ρ : Type} (M : ResponseModel ρ)

def emitAccumulated (dataParts : List Text) : Option ρ :=
  if dataParts = [] then none else (read (joinLines dataParts)).bind M.validate

def yieldParsed (s : LineLoop ρ) : Option ρ → LineLoop ρ
  | none => s
  | some response =>
    if M.accepts response then
      { s with
        lastEventSeq := (M.eventSeq response).or s.lastEventSeq
        yielded := s.yielded ++ [response] }
    else { s with raised := true }

def fieldValue (line : Text) : Text :=
  match line.drop 5 with
  | ' ' :: value => value
  | value => value

def takeLine (s : LineLoop ρ) (line : Text) : LineLoop ρ :=
  if s.raised then s
  else if "data:".toList.isPrefixOf line then
    { s with dataParts := s.dataParts ++ [fieldValue line] }
  else if line = [] then
    yieldParsed M { s with dataParts := [] } (emitAccumulated M s.dataParts)
  else s

def stream (lastEventSeq : Option ℤ) (lines : List Text) : LineLoop ρ :=
  let s := lines.foldl (takeLine M) (.initial lastEventSeq)
  if s.raised then s else yieldParsed M s (emitAccumulated M s.dataParts)

end Client

def staysInLine (c : Char) : Bool := c.toNat < 0x20 || !isLineBoundary c

section Boundaries

theorem not_isLineBoundary {c : Char} (hlow : 0x20 ≤ c.toNat) (hhigh : c.toNat < 0x80) :
    isLineBoundary c = false := by
  cases h : isLineBoundary c with
  | false => rfl
  | true =>
    exfalso
    simp only [isLineBoundary, Bool.or_eq_true, decide_eq_true_eq] at h
    rcases h with ((((((((rfl | rfl) | rfl) | rfl) | rfl) | rfl) | rfl) | rfl) | rfl) | rfl
    all_goals first
      | exact absurd hlow (by decide)
      | exact absurd hhigh (by decide)

theorem staysInLine_of_ascii {c : Char} (h : c.toNat < 0x80) : staysInLine c = true := by
  unfold staysInLine
  by_cases hlow : c.toNat < 0x20
  · simp [hlow]
  · simp [not_isLineBoundary (Nat.le_of_not_lt hlow) h]

theorem splitlinesFrom_append {u : Text} (hu : u.all (fun c => !isLineBoundary c) = true)
    (hne : u ≠ []) (afterReturn : Bool) (line rest : Text) :
    splitlinesFrom afterReturn line (u ++ rest) = splitlinesFrom false (line ++ u) rest := by
  induction u generalizing afterReturn line with
  | nil => exact absurd rfl hne
  | cons c u ih =>
    obtain ⟨hc, hu⟩ := Bool.and_eq_true_iff.mp hu
    have hplain : isLineBoundary c = false := by simpa using hc
    have hfeed : c ≠ '\n' := by
      rintro rfl
      exact absurd hplain (by decide)
    have hstep : splitlinesFrom afterReturn line (c :: u ++ rest) =
        splitlinesFrom false (line ++ [c]) (u ++ rest) := by
      rw [List.cons_append, splitlinesFrom, if_neg (fun h => hfeed h.2), hplain]
      rfl
    cases u with
    | nil => exact hstep
    | cons d u =>
      rw [hstep, ih hu (List.cons_ne_nil d u), List.append_assoc]
      rfl

theorem splitlinesFrom_lineFeed (line rest : Text) :
    splitlinesFrom false line ('\n' :: rest) = line :: splitlinesFrom false [] rest := by
  have hfeed : isLineBoundary '\n' = true := by decide
  rw [splitlinesFrom, hfeed]
  rfl

theorem splitlinesFrom_span (line text : Text) :
    splitlinesFrom false line text =
      match text.dropWhile fun c => !isLineBoundary c with
      | [] => splitlinesFrom false (line ++ text.takeWhile fun c => !isLineBoundary c) []
      | c :: rest => (line ++ text.takeWhile fun c => !isLineBoundary c) ::
          splitlinesFrom (c = '\r') [] rest := by
  induction text generalizing line with
  | nil => simp
  | cons c text ih =>
    conv_lhs => rw [splitlinesFrom, if_neg (by simp)]
    rw [List.dropWhile_cons, List.takeWhile_cons]
    cases hc : isLineBoundary c with
    | true => simp
    | false => simp [ih]

theorem tame_of_mem_splitlinesFrom {text line : Text} (htext : Escaped text)
    (hline : Tame (fun c => !isLineBoundary c) line) {afterReturn : Bool} {l : Text}
    (hl : l ∈ splitlinesFrom afterReturn line text) : Tame (fun c => !isLineBoundary c) l := by
  have hprintable : ∀ c : Char, 0x20 ≤ c.toNat → c.toNat < 0x80 → (!isLineBoundary c) = true :=
    fun c hlow hhigh => by rw [not_isLineBoundary hlow hhigh]; rfl
  induction htext generalizing line afterReturn with
  | nil =>
    rw [splitlinesFrom] at hl
    split at hl
    · cases hl
    · obtain rfl := List.mem_singleton.mp hl
      exact hline
  | @plain c rest hc _ ih =>
    rw [splitlinesFrom] at hl
    split at hl
    · exact ih hline hl
    · split at hl
      · rcases List.mem_cons.mp hl with rfl | hl
        · exact hline
        · exact ih ⟨.nil, rfl⟩ hl
      · rename_i hplain
        exact ih (hline.append ⟨.plain hc .nil, by simp [hplain]⟩) hl
  | @short e rest he _ ih =>
    have hunit : Tame (fun c => !isLineBoundary c) ['\\', e.1] := by
      refine ⟨.short he .nil, ?_⟩
      have hall : shortEscapes.all (fun e => 0x20 ≤ e.1.toNat ∧ e.1.toNat < 0x80) = true := by decide
      have hchar := of_decide_eq_true (List.all_eq_true.mp hall e he)
      have hone := hprintable e.1 hchar.1 hchar.2
      have hbackslash := hprintable '\\' (by decide) (by decide)
      rw [List.all_cons, List.all_cons, hbackslash, hone]
      rfl
    change l ∈ splitlinesFrom afterReturn line (['\\', e.1] ++ rest) at hl
    rw [splitlinesFrom_append hunit.all (by simp)] at hl
    exact ih (hline.append hunit) hl
  | @control high low rest hhigh hlow _ ih =>
    have hunit : Tame (fun c => !isLineBoundary c)
        ['\\', 'u', '0', '0', hexDigit high, hexDigit low] := by
      refine ⟨.control hhigh hlow .nil, ?_⟩
      have hdigit : ∀ n, n < 16 → (!isLineBoundary (hexDigit n)) = true := fun n hn =>
        hprintable _ (hexDigit_printable hn).1 (hexDigit_printable hn).2
      have hfirst : ['\\', 'u', '0', '0'].all (fun c => !isLineBoundary c) = true := by decide
      change (['\\', 'u', '0', '0'] ++ [hexDigit high, hexDigit low]).all _ = true
      rw [List.all_append, hfirst, List.all_cons, List.all_cons, hdigit high (by omega),
        hdigit low hlow]
      rfl
    change l ∈ splitlinesFrom afterReturn line
      (['\\', 'u', '0', '0', hexDigit high, hexDigit low] ++ rest) at hl
    rw [splitlinesFrom_append hunit.all (by simp)] at hl
    exact ih (hline.append hunit) hl

theorem tame_joinLines {p : Char → Bool} (hfeed : p '\n' = true) {parts : List Text}
    (h : ∀ x ∈ parts, Tame p x) : Tame p (joinLines parts) := by
  induction parts with
  | nil => exact ⟨.nil, rfl⟩
  | cons x parts ih =>
    have hx := h x List.mem_cons_self
    cases parts with
    | nil => exact hx
    | cons y ys =>
      have hrest := ih fun z hz => h z (List.mem_cons_of_mem x hz)
      refine hx.append ⟨.plain (by decide) hrest.escaped, ?_⟩
      rw [List.all_cons, hfeed, hrest.all]
      rfl

theorem tame_fieldValue {p : Char → Bool} {line : Text} (h : Tame p line)
    (hinit : "data:".toList.isPrefixOf line = true) : Tame p (fieldValue line) := by
  have hdrop : Tame p (line.drop 5) := h.drop_word (w := "data:".toList) (by decide) hinit
  unfold fieldValue
  split
  · rename_i value heq
    rw [heq] at hdrop
    exact hdrop.tail (by decide)
  · exact hdrop

end Boundaries

section RoundTrip

variable {ρ : Type} {M : ResponseModel ρ}

structure LoopInv (M : ResponseModel ρ) (s : LineLoop ρ) : Prop where
  parts : ∀ x ∈ s.dataParts, Tame staysInLine x
  yielded : ∀ r ∈ s.yielded, (M.dump r).all staysInLine = true ∧ M.accepts r = true

theorem LoopInv.yieldParsed {s : LineLoop ρ} (h : LoopInv M s) {parsed : Option ρ}
    (hparsed : ∀ r ∈ parsed, (M.dump r).all staysInLine = true) :
    LoopInv M (yieldParsed M s parsed) := by
  cases parsed with
  | none => exact h
  | some r =>
    unfold Sse.yieldParsed
    simp only
    split
    · rename_i haccepts
      refine ⟨h.parts, fun r' hr' => ?_⟩
      rcases List.mem_append.mp hr' with hr' | hr'
      · exact h.yielded r' hr'
      · obtain rfl := List.mem_singleton.mp hr'
        exact ⟨hparsed r' rfl, haccepts⟩
    · exact ⟨h.parts, h.yielded⟩

theorem emitAccumulated_tame (hM : M.Lawful) {parts : List Text}
    (h : ∀ x ∈ parts, Tame staysInLine x) :
    ∀ r ∈ emitAccumulated M parts, (M.dump r).all staysInLine = true := by
  intro r hr
  unfold emitAccumulated at hr
  split at hr
  · cases hr
  · obtain ⟨v, hv, hr⟩ := Option.bind_eq_some_iff.mp hr
    have htame := tame_joinLines (p := staysInLine) (by decide) h
    exact hM.texts staysInLine (fun c => staysInLine_of_ascii) v r
      (read_tame (fun c => staysInLine_of_ascii) htame hv) hr

theorem LoopInv.takeLine (hM : M.Lawful) {s : LineLoop ρ} (h : LoopInv M s) {line : Text}
    (hline : Tame staysInLine line) : LoopInv M (takeLine M s line) := by
  unfold Sse.takeLine
  split
  · exact h
  · split
    · rename_i hinit
      refine ⟨fun x hx => ?_, h.yielded⟩
      rcases List.mem_append.mp hx with hx | hx
      · exact h.parts x hx
      · obtain rfl := List.mem_singleton.mp hx
        exact tame_fieldValue hline hinit
    · split
      · have hempty : LoopInv M { s with dataParts := [] } :=
          ⟨(fun x hx => by cases hx), h.yielded⟩
        exact hempty.yieldParsed (emitAccumulated_tame hM h.parts)
      · exact h

theorem loopInv_foldl (hM : M.Lawful) {lines : List Text}
    (hlines : ∀ l ∈ lines, Tame staysInLine l) {s : LineLoop ρ} (h : LoopInv M s) :
    LoopInv M (lines.foldl (takeLine M) s) := by
  induction lines generalizing s with
  | nil => exact h
  | cons l lines ih =>
    exact ih (fun m hm => hlines m (List.mem_cons_of_mem l hm))
      (h.takeLine hM (hlines l List.mem_cons_self))

theorem escaped_formatSse (rs : List ρ) : Escaped (rs.flatMap (formatSse M)) := by
  induction rs with
  | nil => exact .nil
  | cons r rs ih =>
    have hinit : Escaped "data: ".toList := escaped_of_notMem (by decide)
    have hend : Escaped ['\n', '\n'] := escaped_of_notMem (by decide)
    have hframe : Escaped (formatSse M r) := (hinit.append (escaped_write _)).append hend
    rw [List.flatMap_cons]
    exact hframe.append ih

theorem yielded_tame (hM : M.Lawful) {rs : List ρ} {last : Option ℤ} :
    ∀ r ∈ (stream M last (splitlines (rs.flatMap (formatSse M)))).yielded,
      (M.dump r).all staysInLine = true ∧ M.accepts r = true := by
  have hlines : ∀ l ∈ splitlines (rs.flatMap (formatSse M)), Tame staysInLine l := by
    intro l hl
    have htame := tame_of_mem_splitlinesFrom (escaped_formatSse rs) ⟨.nil, rfl⟩ hl
    refine ⟨htame.escaped, List.all_eq_true.mpr fun c hc => ?_⟩
    have hc := List.all_eq_true.mp htame.all c hc
    simp only [staysInLine, Bool.or_eq_true]
    exact .inr hc
  have hfold := loopInv_foldl hM hlines (s := .initial last)
    ⟨(fun x hx => by cases hx), (fun r hr => by cases hr)⟩
  unfold stream
  simp only
  split
  · exact hfold.yielded
  · exact (hfold.yieldParsed (emitAccumulated_tame hM hfold.parts)).yielded

theorem splitlines_formatSse {r : ρ} (h : (M.dump r).all staysInLine = true) (rest : Text) :
    splitlines (formatSse M r ++ rest) =
      ("data: ".toList ++ write (M.dump r)) :: [] :: splitlines rest := by
  have hprintable : ∀ c : Char, 0x20 ≤ c.toNat → c.toNat < 0x80 → (!isLineBoundary c) = true :=
    fun c hlow hhigh => by rw [not_isLineBoundary hlow hhigh]; rfl
  have hjson : (write (M.dump r)).all (fun c => !isLineBoundary c) = true := all_write hprintable _ h
  have hinit : "data: ".toList.all (fun c => !isLineBoundary c) = true := by decide
  have hline : ("data: ".toList ++ write (M.dump r)).all (fun c => !isLineBoundary c) = true := by
    rw [List.all_append, hinit, hjson]
    rfl
  have heq : formatSse M r ++ rest =
      ("data: ".toList ++ write (M.dump r)) ++ '\n' :: '\n' :: rest :=
    List.append_assoc _ ['\n', '\n'] rest
  unfold splitlines
  rw [heq, splitlinesFrom_append hline (by simp), List.nil_append, splitlinesFrom_lineFeed,
    splitlinesFrom_lineFeed]

theorem takeLine_formatSse (hM : M.Lawful) {r : ρ} (haccepts : M.accepts r = true) {s : LineLoop ρ}
    (hparts : s.dataParts = []) (hraised : s.raised = false) :
    takeLine M (takeLine M s ("data: ".toList ++ write (M.dump r))) [] =
      { s with
        lastEventSeq := (M.eventSeq r).or s.lastEventSeq
        yielded := s.yielded ++ [r] } := by
  have hvalue : fieldValue ("data: ".toList ++ write (M.dump r)) = write (M.dump r) := rfl
  have hinit : "data:".toList.isPrefixOf ("data: ".toList ++ write (M.dump r)) = true := rfl
  have hempty : "data:".toList.isPrefixOf ([] : Text) = false := by decide
  have hdata : takeLine M s ("data: ".toList ++ write (M.dump r)) =
      { s with dataParts := [write (M.dump r)] } := by
    unfold takeLine
    rw [hraised, hinit, hvalue, hparts]
    rfl
  have hemit : emitAccumulated M [write (M.dump r)] = some r := by
    unfold emitAccumulated
    rw [if_neg (by simp), joinLines, read_write, Option.bind_some, hM.validate_dump]
  have hyield : yieldParsed M { s with dataParts := [] } (some r) =
      { s with
        lastEventSeq := (M.eventSeq r).or s.lastEventSeq
        yielded := s.yielded ++ [r] } := by
    unfold yieldParsed
    simp only [haccepts, if_true]
    rw [← hparts]
  rw [hdata, ← hyield, ← hemit]
  unfold takeLine
  simp only [hraised, hempty, Bool.false_eq_true, if_false, if_true]

theorem foldl_flatMap_formatSse (hM : M.Lawful) {rs : List ρ}
    (hrs : ∀ r ∈ rs, (M.dump r).all staysInLine = true ∧ M.accepts r = true) {s : LineLoop ρ}
    (hparts : s.dataParts = []) (hraised : s.raised = false) :
    let t := (splitlines (rs.flatMap (formatSse M))).foldl (takeLine M) s
    t.dataParts = [] ∧ t.raised = false ∧ t.yielded = s.yielded ++ rs := by
  induction rs generalizing s with
  | nil => exact ⟨hparts, hraised, (List.append_nil _).symm⟩
  | cons r rs ih =>
    obtain ⟨hr, haccepts⟩ := hrs r List.mem_cons_self
    have hrest := ih (fun r' hr' => hrs r' (List.mem_cons_of_mem r hr')) (s := { s with
      lastEventSeq := (M.eventSeq r).or s.lastEventSeq
      yielded := s.yielded ++ [r] }) hparts hraised
    rw [List.flatMap_cons, splitlines_formatSse hr, List.foldl_cons, List.foldl_cons,
      takeLine_formatSse hM haccepts hparts hraised]
    rw [List.append_assoc] at hrest
    exact hrest

end RoundTrip

theorem wire_round_trip_iff {ρ : Type} {M : ResponseModel ρ} (hM : M.Lawful) (last : Option ℤ)
    (rs : List ρ) :
    ((stream M last (splitlines (rs.flatMap (formatSse M)))).yielded = rs ∧
      (stream M last (splitlines (rs.flatMap (formatSse M)))).raised = false) ↔
    ∀ r ∈ rs, (M.dump r).all staysInLine = true ∧ M.accepts r = true := by
  constructor
  · rintro ⟨hyielded, -⟩ r hr
    exact yielded_tame hM r (by rw [hyielded]; exact hr)
  · intro hrs
    obtain ⟨hparts, hraised, hyielded⟩ := foldl_flatMap_formatSse hM hrs (s := .initial last) rfl rfl
    have hend : stream M last (splitlines (rs.flatMap (formatSse M))) =
        (splitlines (rs.flatMap (formatSse M))).foldl (takeLine M) (.initial last) := by
      unfold stream
      simp only [hraised, hparts, emitAccumulated, yieldParsed, Bool.false_eq_true, if_false, if_true]
    rw [hend]
    exact ⟨hyielded, hraised⟩

section Chunks

def text (s : String) : Value := .string s.toList

def member (name : String) (v : Value) : Text × Value := (name.toList, v)

def chunkDump (t : Text) : Value :=
  .object [member "jsonrpc" (text "2.0"), member "id" (text "1"), member "result" (.object [
    member "eventSeq" (.number ⟨"1".toList, by decide⟩), member "eventData" (.object [
      member "type" (text "product-chunk"), member "id" (text "m"), member "sentAt" (text "t"),
      member "senderRole" (text "partner"), member "senderId" (text "p"),
      member "taskId" (text "task"), member "product" (.object [
        member "id" (text "x"), member "dataItems" (.array [.object [
          member "type" (text "text"), member "text" (.string t)]])]),
      member "append" (.bool false), member "lastChunk" (.bool true)])])]

def chunkValidate : Value → Option Text
  | .object [_, _, (_, .object [_, (_, .object [_, _, _, _, _, _, (_, .object [_, (_, .array [
      .object [_, (_, .string t)]])]), _, _])])] => some t
  | _ => none

def chunkModel : ResponseModel Text :=
  { dump := chunkDump, validate := chunkValidate, eventSeq := fun _ => some 1
    accepts := fun _ => true }

theorem chunkModel_lawful : chunkModel.Lawful := by
  refine ⟨fun t => rfl, fun p hp v t hv ht => ?_⟩
  have hascii : ∀ t : Text, t.all (fun c => c.toNat < 0x80) = true → t.all p = true := fun t ht =>
    List.all_eq_true.mpr fun c hc => hp c (of_decide_eq_true (List.all_eq_true.mp ht c hc))
  have htext : t.all p = true := by
    change chunkValidate v = some t at ht
    unfold chunkValidate at ht
    split at ht
    · obtain rfl := Option.some.inj ht
      simp only [Value.all, allMembers, allItems, Bool.and_eq_true] at hv
      exact hv.2.2.1.2.2.1.2.2.2.2.2.2.2.1.2.2.1.2.1.2.1.2
    · cases ht
  simp (disch := decide) only [chunkModel, chunkDump, member, text, Value.all, allMembers, allItems,
    hascii, htext, Bool.and_self]

theorem chunk_lost :
    (stream chunkModel none (splitlines (["a\u2028b".toList].flatMap (formatSse chunkModel)))).yielded =
      [] ∧ ¬ ∀ (rs : List Text), (stream chunkModel none
        (splitlines (rs.flatMap (formatSse chunkModel)))).yielded = rs := by
  have hlost : (stream chunkModel none
      (splitlines (["a\u2028b".toList].flatMap (formatSse chunkModel)))).yielded = [] := by
    rw [splitlines, splitlinesFrom_span]
    decide +kernel
  refine ⟨hlost, fun h => ?_⟩
  rw [h ["a\u2028b".toList]] at hlost
  cases hlost

theorem chunk_round_trip :
    (stream chunkModel none
        (splitlines (["a\nb".toList, "é".toList].flatMap (formatSse chunkModel)))).yielded =
      ["a\nb".toList, "é".toList] := by
  refine ((wire_round_trip_iff chunkModel_lawful none _).mpr fun r hr => ?_).1
  have hall : ["a\nb".toList, "é".toList].all (fun r =>
    (chunkModel.dump r).all staysInLine && chunkModel.accepts r) = true := by decide +kernel
  exact Bool.and_eq_true_iff.mp (List.all_eq_true.mp hall r hr)

end Chunks

end Acps.Sse
