import Acps.Aic.Text
import Acps.Lib.Delimited

/-!
Names on the message broker: an agent's inbox, the exchange of a group and the queue of a member
in a group, and how the authorization service reads them.
-/

namespace Acps.Mq

open Aic (Text reDigits reBase36 isDigit)

def aicPrefix : List Text := ["1".toList, "2".toList, "156".toList, "3088".toList]

def segmentConstraints : List (ℕ × ℕ × ℕ) :=
  [(5, 1, 1), (6, 1, 6), (7, 1, 6), (8, 1, 9), (9, 1, 9), (10, 4, 4)]

def segmentValid (parts : List Text) : ℕ × ℕ × ℕ → Bool
  | (level, minLen, maxLen) =>
    let segment := parts.getD (level - 1) []
    reBase36 segment ∧ minLen ≤ segment.length ∧ segment.length ≤ maxLen

def validateAicFormat (aic : Text) (expectedPrefix : List Text) : Bool :=
  let parts := aic.splitOn '.'
  if aic = [] then false
  else if parts.length ≠ 10 then false
  else if expectedPrefix ≠ [] ∧ parts.take expectedPrefix.length ≠ expectedPrefix then false
  else if ¬ (parts.take 4).all reDigits then false
  else segmentConstraints.all (segmentValid parts)

def isGroupIdChar (c : Char) : Bool :=
  'a' ≤ c ∧ c ≤ 'z' ∨ 'A' ≤ c ∧ c ≤ 'Z' ∨ isDigit c ∨ c = '-'

def utf8Length (s : Text) : ℕ := (s.map Char.utf8Size).sum

def validateGroupIdFormat (groupId : Text) : Bool :=
  if groupId = [] then false
  else if ¬ groupId.all isGroupIdChar then false
  else utf8Length groupId ≤ 128

abbrev IsAic (aic : Text) : Prop := validateAicFormat aic aicPrefix = true

abbrev IsGroupId (groupId : Text) : Prop := validateGroupIdFormat groupId = true

structure GroupExchangeName where
  leaderAic : Text
  groupId : Text
  deriving DecidableEq

structure GroupQueueName where
  leaderAic : Text
  groupId : Text
  memberAic : Text
  deriving DecidableEq

def inboxMarker : Text := "inbox_".toList

def groupMarker : Text := "group".toList

def parseInboxQueue (name : Text) : Option Text :=
  if ¬ inboxMarker.isPrefixOf name then none
  else
    let targetAic := name.drop inboxMarker.length
    if validateAicFormat targetAic aicPrefix then some targetAic else none

def parseGroupExchange (name : Text) : Option GroupExchangeName :=
  match name.splitOn '_' with
  | [marker, leaderAic, groupId] =>
    if marker ≠ groupMarker then none
    else if ¬ validateAicFormat leaderAic aicPrefix then none
    else if ¬ validateGroupIdFormat groupId then none
    else some { leaderAic := leaderAic, groupId := groupId }
  | _ => none

def parseGroupQueue (name : Text) : Option GroupQueueName :=
  match name.splitOn '_' with
  | [marker, leaderAic, groupId, memberAic] =>
    if marker ≠ groupMarker then none
    else if ¬ validateAicFormat leaderAic aicPrefix then none
    else if ¬ validateGroupIdFormat groupId then none
    else if ¬ validateAicFormat memberAic aicPrefix then none
    else some { leaderAic := leaderAic, groupId := groupId, memberAic := memberAic }
  | _ => none

inductive Reading where
  | inbox (targetAic : Text)
  | exchange (g : GroupExchangeName)
  | queue (q : GroupQueueName)
  deriving DecidableEq

def Reading.text : Reading → Text
  | .inbox targetAic => inboxMarker ++ targetAic
  | .exchange g => ['_'].intercalate [groupMarker, g.leaderAic, g.groupId]
  | .queue q => ['_'].intercalate [groupMarker, q.leaderAic, q.groupId, q.memberAic]

def Reading.Valid : Reading → Prop
  | .inbox targetAic => IsAic targetAic
  | .exchange g => IsAic g.leaderAic ∧ IsGroupId g.groupId
  | .queue q => IsAic q.leaderAic ∧ IsGroupId q.groupId ∧ IsAic q.memberAic

section Grammar

theorem segment_of_level {parts : List Text} {i : ℕ}
    (h : segmentConstraints.all (segmentValid parts) = true) (hlow : 4 ≤ i) (hhigh : i < 10) :
    reBase36 (parts.getD i []) = true := by
  have hlevels : ∀ j < 10, 4 ≤ j → ∃ c ∈ segmentConstraints, c.1 - 1 = j := by decide
  obtain ⟨⟨level, minLen, maxLen⟩, hc, rfl⟩ := hlevels i hhigh hlow
  have hvalid := List.all_eq_true.mp h _ hc
  simp only [segmentValid, Bool.decide_and, Bool.and_eq_true, decide_eq_true_eq] at hvalid
  exact hvalid.1

theorem isAic_iff {aic : Text} : IsAic aic ↔
    (aic.splitOn '.').length = 10 ∧ (aic.splitOn '.').take 4 = aicPrefix ∧
      segmentConstraints.all (segmentValid (aic.splitOn '.')) = true := by
  have hlength : aicPrefix.length = 4 := rfl
  have hdigits : aicPrefix.all reDigits = true := by decide
  have hprefix : aicPrefix ≠ [] := by decide
  have hnil : (aic.splitOn '.').length = 10 → aic ≠ [] := by
    rintro h rfl
    cases h
  unfold IsAic validateAicFormat
  rw [hlength]
  by_cases hcount : (aic.splitOn '.').length = 10
  · by_cases htake : (aic.splitOn '.').take 4 = aicPrefix
    · simp [hnil hcount, hcount, htake, hdigits]
    · simp [hcount, htake, hprefix]
  · simp [hcount]

theorem IsAic.mem {aic : Text} (h : IsAic aic) {c : Char} (hc : c ∈ aic) :
    c = '.' ∨ Aic.isBase36 c = true := by
  obtain ⟨hcount, htake, hsegments⟩ := isAic_iff.mp h
  apply (Delimited.mem_splitOn hc).imp_right
  rintro ⟨p, hp, hcp⟩
  have hpart : p.all Aic.isBase36 = true := by
    obtain ⟨i, hi, rfl⟩ := List.mem_iff_getElem.mp hp
    by_cases hlow : i < 4
    · have hdigits : ∀ q ∈ aicPrefix, q.all Aic.isBase36 = true := by decide
      apply hdigits
      rw [← htake]
      exact List.mem_take_iff_getElem.mpr ⟨i, by omega, rfl⟩
    · have hsegment := segment_of_level hsegments (not_lt.mp hlow) (hcount ▸ hi)
      rw [List.getD_eq_getElem?_getD, List.getElem?_eq_getElem hi, Option.getD_some] at hsegment
      simp only [reBase36, Bool.decide_and, Bool.and_eq_true] at hsegment
      simpa using hsegment.2
  exact List.all_eq_true.mp hpart c hcp

theorem IsAic.no_underscore {aic : Text} (h : IsAic aic) : '_' ∉ aic := by
  intro hc
  rcases h.mem hc with hdot | hbase
  · cases hdot
  · exact absurd hbase (by decide)

theorem IsGroupId.no_underscore {groupId : Text} (h : IsGroupId groupId) : '_' ∉ groupId := by
  intro hc
  unfold IsGroupId validateGroupIdFormat at h
  by_cases hchars : groupId.all isGroupIdChar = true
  · exact absurd (List.all_eq_true.mp hchars '_' hc) (by decide)
  · simp [hchars] at h

end Grammar

section Parse

def Reading.parts : Reading → List Text
  | .inbox targetAic => ["inbox".toList, targetAic]
  | .exchange g => [groupMarker, g.leaderAic, g.groupId]
  | .queue q => [groupMarker, q.leaderAic, q.groupId, q.memberAic]

theorem Reading.text_eq (r : Reading) : r.text = ['_'].intercalate r.parts := by
  cases r with
  | inbox targetAic => simp [text, parts, inboxMarker, List.intercalate]
  | exchange g => rfl
  | queue q => rfl

theorem Reading.parts_no_underscore {r : Reading} (h : r.Valid) : ∀ p ∈ r.parts, '_' ∉ p := by
  have hinbox : '_' ∉ "inbox".toList := by decide
  have hgroup : '_' ∉ groupMarker := by decide
  cases r with
  | inbox targetAic =>
    have haic : IsAic targetAic := h
    simp only [parts, List.forall_mem_cons]
    exact ⟨hinbox, haic.no_underscore, fun _ hp => absurd hp List.not_mem_nil⟩
  | exchange g =>
    simp only [parts, List.forall_mem_cons]
    exact ⟨hgroup, h.1.no_underscore, h.2.no_underscore, fun _ hp => absurd hp List.not_mem_nil⟩
  | queue q =>
    simp only [parts, List.forall_mem_cons]
    exact ⟨hgroup, h.1.no_underscore, h.2.1.no_underscore, h.2.2.no_underscore,
      fun _ hp => absurd hp List.not_mem_nil⟩

theorem Reading.parts_ne_nil (r : Reading) : r.parts ≠ [] := by
  cases r <;> exact List.cons_ne_nil _ _

theorem Reading.splitOn_text {r : Reading} (h : r.Valid) : r.text.splitOn '_' = r.parts := by
  rw [text_eq]
  exact List.splitOn_intercalate '_' (parts_no_underscore h) r.parts_ne_nil

theorem Reading.text_inj {r s : Reading} (hr : r.Valid) (hs : s.Valid) (h : r.text = s.text) :
    r = s := by
  have hparts : r.parts = s.parts := by rw [← splitOn_text hr, h, splitOn_text hs]
  cases r <;> cases s <;>
    simp only [parts, List.cons.injEq, reduceCtorEq, and_false, and_true] at hparts
  case inbox.inbox => rw [hparts.2]
  case exchange.exchange g g' =>
    obtain ⟨-, hleader, hgroup⟩ := hparts
    exact congrArg exchange (by cases g; cases g'; exact congr (congrArg _ hleader) hgroup)
  case queue.queue q q' =>
    obtain ⟨-, hleader, hgroup, hmember⟩ := hparts
    apply congrArg queue
    cases q; cases q'
    exact congr (congr (congrArg _ hleader) hgroup) hmember

theorem parseInboxQueue_eq_some {name aic : Text} :
    parseInboxQueue name = some aic ↔
      (Reading.inbox aic).Valid ∧ name = (Reading.inbox aic).text := by
  unfold parseInboxQueue Reading.text
  constructor
  · intro h
    by_cases hmarker : inboxMarker.isPrefixOf name = true
    · obtain ⟨target, rfl⟩ := List.isPrefixOf_iff_prefix.mp hmarker
      rw [if_neg (by simp [hmarker]), List.drop_left] at h
      dsimp only at h
      split at h
      next hvalid =>
        obtain rfl := Option.some.inj h
        exact ⟨hvalid, rfl⟩
      next => cases h
    · simp [hmarker] at h
  · rintro ⟨hvalid, rfl⟩
    have hmarker : inboxMarker.isPrefixOf (inboxMarker ++ aic) = true :=
      List.isPrefixOf_iff_prefix.mpr (List.prefix_append ..)
    rw [if_neg (by simp [hmarker]), List.drop_left]
    exact if_pos hvalid

theorem parseGroupExchange_eq_some {name : Text} {g : GroupExchangeName} :
    parseGroupExchange name = some g ↔
      (Reading.exchange g).Valid ∧ name = (Reading.exchange g).text := by
  unfold parseGroupExchange
  constructor
  · intro h
    split at h
    next marker leaderAic groupId hsplit =>
      split_ifs at h with hmarker hleader hgroup
      obtain rfl := Option.some.inj h
      refine ⟨⟨hleader, hgroup⟩, ?_⟩
      rw [Reading.text, ← not_not.mp hmarker, ← hsplit, List.intercalate_splitOn]
    next => cases h
  · rintro ⟨hvalid, rfl⟩
    rw [Reading.splitOn_text hvalid]
    simp only [Reading.parts]
    rw [if_neg (not_not.mpr rfl), if_neg (not_not.mpr hvalid.1), if_neg (not_not.mpr hvalid.2)]

theorem parseGroupQueue_eq_some {name : Text} {q : GroupQueueName} :
    parseGroupQueue name = some q ↔ (Reading.queue q).Valid ∧ name = (Reading.queue q).text := by
  unfold parseGroupQueue
  constructor
  · intro h
    split at h
    next marker leaderAic groupId memberAic hsplit =>
      split_ifs at h with hmarker hleader hgroup hmember
      obtain rfl := Option.some.inj h
      refine ⟨⟨hleader, hgroup, hmember⟩, ?_⟩
      rw [Reading.text, ← not_not.mp hmarker, ← hsplit, List.intercalate_splitOn]
    next => cases h
  · rintro ⟨hvalid, rfl⟩
    rw [Reading.splitOn_text hvalid]
    simp only [Reading.parts]
    rw [if_neg (not_not.mpr rfl), if_neg (not_not.mpr hvalid.1), if_neg (not_not.mpr hvalid.2.1),
      if_neg (not_not.mpr hvalid.2.2)]

def readings (name : Text) : List Reading :=
  (parseInboxQueue name).toList.map .inbox ++ (parseGroupExchange name).toList.map .exchange ++
    (parseGroupQueue name).toList.map .queue

theorem mem_readings {name : Text} {r : Reading} :
    r ∈ readings name ↔ r.Valid ∧ name = r.text := by
  simp only [readings, List.mem_append, List.mem_map, Option.mem_toList]
  cases r with
  | inbox targetAic => simp [parseInboxQueue_eq_some]
  | exchange g => simp [parseGroupExchange_eq_some]
  | queue q => simp [parseGroupQueue_eq_some]

theorem readings_unique {name : Text} {r s : Reading} (hr : r ∈ readings name)
    (hs : s ∈ readings name) : r = s := by
  obtain ⟨hr, hname⟩ := mem_readings.mp hr
  obtain ⟨hs, hname'⟩ := mem_readings.mp hs
  exact Reading.text_inj hr hs (hname.symm.trans hname')

theorem parseGroupQueue_of_inbox {name inboxOwner : Text}
    (h : parseInboxQueue name = some inboxOwner) : parseGroupQueue name = none := by
  by_contra hsome
  obtain ⟨q, hq⟩ := Option.ne_none_iff_exists'.mp hsome
  have hinbox : Reading.inbox inboxOwner ∈ readings name :=
    mem_readings.mpr (parseInboxQueue_eq_some.mp h)
  have hqueue : Reading.queue q ∈ readings name := mem_readings.mpr (parseGroupQueue_eq_some.mp hq)
  cases readings_unique hinbox hqueue

end Parse

end Acps.Mq
