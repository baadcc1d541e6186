import Mathlib.Data.List.DropRight
import Acps.Lib.Slots

/-!
The channel that the events of a task go through: numbered events, a buffer of the latest of them
for those that come back, and a queue for each subscriber.
-/

namespace Acps.Sse

open Slots

structure BufferedStreamEvent (π : Type) where
  eventSeq : ℕ
  payload : π
  isTerminal : Bool
  deriving DecidableEq

structure TaskStreamChannel (π : Type) where
  maxBuffer : ℕ
  buffer : List (BufferedStreamEvent π)
  nextSeq : ℕ
  closed : Bool
  queues : ℕ → Option (List (Option (BufferedStreamEvent π)))
  nextQueue : ℕ
  published : List (BufferedStreamEvent π)

namespace TaskStreamChannel

variable {π : Type}

def empty (maxBuffer : ℕ) : TaskStreamChannel π :=
  { maxBuffer, buffer := [], nextSeq := 1, closed := false, queues := fun _ => none
    nextQueue := 0, published := [] }

variable (c : TaskStreamChannel π)

def oldestBufferedSeq : ℕ := (c.buffer.head?.map BufferedStreamEvent.eventSeq).getD 1

def put (item : Option (BufferedStreamEvent π)) : TaskStreamChannel π :=
  { c with queues := fun q => (c.queues q).map (· ++ [item]) }

def close : TaskStreamChannel π := if c.closed then c else { c.put none with closed := true }

def append (event : BufferedStreamEvent π) : TaskStreamChannel π :=
  { c.put (some event) with
    nextSeq := c.nextSeq + 1
    buffer := (c.buffer ++ [event]).rtake c.maxBuffer
    published := c.published ++ [event] }

def publish (payload : π) (isTerminal : Bool) : TaskStreamChannel π :=
  let c := c.append { eventSeq := c.nextSeq, payload, isTerminal }
  if isTerminal then c.close else c

def replay (lastEventSeq : Option ℕ) : List (BufferedStreamEvent π) :=
  match lastEventSeq with
  | none => c.buffer
  | some last => c.buffer.filter fun e => last < e.eventSeq

def canResume (lastEventSeq : Option ℕ) : Bool :=
  match lastEventSeq with
  | none => true
  | some last => c.buffer = [] ∨ c.oldestBufferedSeq ≤ last + 1

def subscribe : TaskStreamChannel π :=
  { c with
    queues := fun q => if q = c.nextQueue then some [] else c.queues q
    nextQueue := c.nextQueue + 1 }

def setQueue (q : ℕ) (items : Option (List (Option (BufferedStreamEvent π)))) :
    TaskStreamChannel π :=
  { c with queues := fun q' => if q' = q then items else c.queues q' }

structure Wf : Prop where
  nextSeq : c.nextSeq = c.published.length + 1
  numbered : ∀ (i : ℕ) (e : BufferedStreamEvent π), c.published[i]? = some e → e.eventSeq = i + 1
  buffer : c.buffer = c.published.rtake c.maxBuffer
  fresh : ∀ q, c.nextQueue ≤ q → c.queues q = none

variable {c}

theorem wf_empty (maxBuffer : ℕ) : (empty maxBuffer : TaskStreamChannel π).Wf where
  nextSeq := rfl
  numbered := fun i e h => by cases h
  buffer := (List.rtake_nil _).symm
  fresh := fun _ _ => rfl

theorem rtake_rtake_concat {α : Type} (l : List α) (x : α) (n : ℕ) :
    (l.rtake n ++ [x]).rtake n = (l ++ [x]).rtake n := by
  cases n with
  | zero => rw [List.rtake_zero, List.rtake_zero]
  | succ n =>
    rw [List.rtake_concat_succ, List.rtake_concat_succ]
    congr 1
    unfold List.rtake
    rw [List.drop_drop, List.length_drop]
    congr 1
    omega

section Queues

theorem published_close : c.close.published = c.published := by
  unfold close
  split <;> rfl

theorem published_publish (payload : π) (isTerminal : Bool) :
    (c.publish payload isTerminal).published =
      c.published ++ [{ eventSeq := c.nextSeq, payload, isTerminal }] := by
  unfold publish
  simp only
  split
  · rw [published_close]
    rfl
  · rfl

theorem Wf.put (h : c.Wf) (item : Option (BufferedStreamEvent π)) : (c.put item).Wf :=
  ⟨h.nextSeq, h.numbered, h.buffer, fun q hq => by simp [TaskStreamChannel.put, h.fresh q hq]⟩

theorem Wf.close (h : c.Wf) : c.close.Wf := by
  unfold TaskStreamChannel.close
  split
  · exact h
  · exact ⟨h.nextSeq, h.numbered, h.buffer, (h.put none).fresh⟩

theorem Wf.append (h : c.Wf) {event : BufferedStreamEvent π} (hseq : event.eventSeq = c.nextSeq) :
    (c.append event).Wf := by
  refine ⟨?_, fun i e he => ?_, ?_, (h.put (some event)).fresh⟩
  · change c.nextSeq + 1 = (c.published ++ [event]).length + 1
    rw [h.nextSeq, List.length_append]
    rfl
  · rcases getElem?_concat_eq_some.mp he with he | ⟨rfl, rfl⟩
    · exact h.numbered i e he
    · exact hseq.trans h.nextSeq
  · change (c.buffer ++ [event]).rtake c.maxBuffer = (c.published ++ [event]).rtake c.maxBuffer
    rw [h.buffer, rtake_rtake_concat]

theorem Wf.publish (h : c.Wf) (payload : π) (isTerminal : Bool) :
    (c.publish payload isTerminal).Wf := by
  unfold TaskStreamChannel.publish
  simp only
  split
  · exact (h.append rfl).close
  · exact h.append rfl

theorem Wf.subscribe (h : c.Wf) : c.subscribe.Wf := by
  refine ⟨h.nextSeq, h.numbered, h.buffer, fun q hq => ?_⟩
  have hlt : c.nextQueue < q := hq
  exact (if_neg (Nat.ne_of_gt hlt)).trans (h.fresh q (Nat.le_of_lt hlt))

theorem Wf.setQueue (h : c.Wf) {q : ℕ} (hq : (c.queues q).isSome)
    (items : Option (List (Option (BufferedStreamEvent π)))) : (c.setQueue q items).Wf := by
  refine ⟨h.nextSeq, h.numbered, h.buffer, fun q' hq' => ?_⟩
  have hnone := h.fresh q' hq'
  have hne : q' ≠ q := by
    rintro rfl
    rw [hnone] at hq
    cases hq
  exact (if_neg hne).trans hnone

end Queues

section Replay

variable {n : ℕ}

def evicted (c : TaskStreamChannel π) : ℕ := c.published.length - c.buffer.length

theorem Wf.buffer_eq (h : c.Wf) : c.buffer = c.published.drop c.evicted := by
  have hlength : c.buffer.length = c.published.length - (c.published.length - c.maxBuffer) := by
    rw [h.buffer, List.rtake, List.length_drop]
  have hevicted : c.evicted = c.published.length - c.maxBuffer := by
    unfold evicted
    omega
  rw [hevicted, h.buffer, List.rtake]

theorem filter_numbered {l : List (BufferedStreamEvent π)}
    (h : ∀ (i : ℕ) (e : BufferedStreamEvent π), l[i]? = some e → e.eventSeq = i + 1) {m : ℕ}
    (hm : m ≤ n) : (l.drop m).filter (fun e => n < e.eventSeq) = l.drop n := by
  have hsplit : l.drop m = (l.drop m).take (n - m) ++ l.drop n := by
    have hdrop : l.drop n = (l.drop m).drop (n - m) := by
      rw [List.drop_drop]
      congr 1
      omega
    rw [hdrop, List.take_append_drop]
  rw [hsplit, List.filter_append]
  have hold : ((l.drop m).take (n - m)).filter (fun e => n < e.eventSeq) = [] := by
    apply List.filter_eq_nil_iff.mpr
    intro e he
    obtain ⟨i, hi, hget⟩ := List.mem_take_iff_getElem.mp he
    have hfound : (l.drop m)[i]? = some e :=
      List.getElem?_eq_some_iff.mpr ⟨(Nat.lt_min.mp hi).2, hget⟩
    rw [List.getElem?_drop] at hfound
    have hseq := h (m + i) e hfound
    simp only [decide_eq_true_eq]
    omega
  have hnew : (l.drop n).filter (fun e => n < e.eventSeq) = l.drop n := by
    apply List.filter_eq_self.mpr
    intro e he
    obtain ⟨i, hfound⟩ := List.mem_iff_getElem?.mp he
    rw [List.getElem?_drop] at hfound
    have hseq := h (n + i) e hfound
    simp only [decide_eq_true_eq]
    omega
  rw [hold, hnew, List.nil_append]

theorem Wf.replay_some (h : c.Wf) (hn : c.evicted ≤ n) :
    c.replay (some n) = c.published.drop n := by
  unfold replay
  simp only
  rw [h.buffer_eq]
  exact filter_numbered h.numbered hn

theorem Wf.replay_none (h : c.Wf) (hn : c.evicted = 0) : c.replay none = c.published := by
  unfold replay
  simp only
  rw [h.buffer_eq, hn, List.drop_zero]

end Replay

end TaskStreamChannel

end Acps.Sse
