import Acps.Sse.Channel

/-!
The hub, which knows the channel of each task. A channel that was removed lives on for those that
hold it, so that channels are named by their place among all that were ever made.
-/

namespace Acps.Sse

open Slots

structure StreamHub (π : Type) where
  maxBuffer : ℕ
  objects : List (TaskStreamChannel π)
  channels : String → Option ℕ

namespace StreamHub

variable {π : Type}

def empty (maxBuffer : ℕ) : StreamHub π := { maxBuffer, objects := [], channels := fun _ => none }

variable (h : StreamHub π) (taskId : String)

def getOrCreateChannel : StreamHub π × ℕ :=
  match h.channels taskId with
  | some i => (h, i)
  | none =>
    ({ h with
        objects := h.objects ++ [TaskStreamChannel.empty h.maxBuffer]
        channels := fun t => if t = taskId then some h.objects.length else h.channels t },
      h.objects.length)

def removeChannel : StreamHub π :=
  { h with channels := fun t => if t = taskId then none else h.channels t }

def modify (i : ℕ) (f : TaskStreamChannel π → TaskStreamChannel π) : StreamHub π :=
  { h with objects := h.objects.modify i f }

def publish (payload : π) (isTerminal : Bool) : StreamHub π :=
  let (h, i) := h.getOrCreateChannel taskId
  h.modify i fun c => c.publish payload isTerminal

def closeStream : StreamHub π :=
  match h.channels taskId with
  | none => h
  | some i => (h.removeChannel taskId).modify i TaskStreamChannel.close

end StreamHub

def live {π : Type} : List (Option (BufferedStreamEvent π)) → List (BufferedStreamEvent π)
  | some e :: rest => e :: live rest
  | _ => []

section Live

variable {π : Type} {items more : List (Option (BufferedStreamEvent π))}

theorem live_append_of_mem (h : none ∈ items) : live (items ++ more) = live items := by
  induction items with
  | nil => cases h
  | cons item items ih =>
    cases item with
    | none => rfl
    | some e =>
      rw [List.cons_append, live, live, ih]
      exact (List.mem_cons.mp h).resolve_left (by simp)

theorem live_append_of_notMem (h : none ∉ items) :
    live (items ++ more) = live items ++ live more := by
  induction items with
  | nil => rfl
  | cons item items ih =>
    cases item with
    | none => exact absurd List.mem_cons_self h
    | some e =>
      rw [List.cons_append, live, live, ih fun hmem => h (List.mem_cons_of_mem _ hmem),
        List.cons_append]

end Live

structure Grows {π : Type} (c c' : TaskStreamChannel π) : Prop where
  wf : c.Wf → c'.Wf
  grows : ∃ events tail, c'.published = c.published ++ events ∧
    (∀ q items, c.queues q = some items → c'.queues q = some (items ++ tail)) ∧
    live tail = events

section Grows

variable {π : Type} {c c' c'' : TaskStreamChannel π}

theorem Grows.refl (c : TaskStreamChannel π) : Grows c c :=
  ⟨fun h => h, [], [], (List.append_nil _).symm, fun q items h => by rw [h, List.append_nil], rfl⟩

theorem queues_put {item : Option (BufferedStreamEvent π)} {q : ℕ}
    {items : List (Option (BufferedStreamEvent π))} (h : c.queues q = some items) :
    (c.put item).queues q = some (items ++ [item]) := by
  change (c.queues q).map (· ++ [item]) = _
  rw [h]
  rfl

theorem queues_close {q : ℕ} {items : List (Option (BufferedStreamEvent π))}
    (h : c.queues q = some items) :
    c.close.queues q = some (items ++ if c.closed then [] else [none]) := by
  unfold TaskStreamChannel.close
  split
  · rw [List.append_nil, h]
  · exact queues_put h

theorem grows_close (c : TaskStreamChannel π) : Grows c c.close := by
  refine ⟨fun h => h.close, [], if c.closed then [] else [none], ?_, fun q items h => ?_, ?_⟩
  · rw [TaskStreamChannel.published_close, List.append_nil]
  · exact queues_close h
  · split <;> rfl

theorem grows_publish (c : TaskStreamChannel π) (payload : π) (isTerminal : Bool) :
    Grows c (c.publish payload isTerminal) := by
  refine ⟨fun h => h.publish payload isTerminal,
    [{ eventSeq := c.nextSeq, payload, isTerminal }],
    some { eventSeq := c.nextSeq, payload, isTerminal } ::
      (if isTerminal ∧ ¬ c.closed then [none] else []), ?_, fun q items h => ?_, ?_⟩
  · exact TaskStreamChannel.published_publish payload isTerminal
  · have hput : (c.append { eventSeq := c.nextSeq, payload, isTerminal }).queues q =
        some (items ++ [some { eventSeq := c.nextSeq, payload, isTerminal }]) := queues_put h
    unfold TaskStreamChannel.publish
    cases isTerminal with
    | false => exact hput
    | true =>
      have hclose := queues_close hput
      rw [List.append_assoc] at hclose
      exact hclose.trans (by cases hc : c.closed <;> simp [TaskStreamChannel.append,
        TaskStreamChannel.put, hc])
  · rw [live]
    split <;> rfl

end Grows

section HubGrows

structure HubGrows {π : Type} (h h' : StreamHub π) : Prop where
  kept : ∀ (i : ℕ) (c : TaskStreamChannel π), h.objects[i]? = some c →
    ∃ c', h'.objects[i]? = some c' ∧ Grows c c'
  added : ∀ (i : ℕ) (c : TaskStreamChannel π), h.objects[i]? = none → h'.objects[i]? = some c → c.Wf

variable {π : Type} {h : StreamHub π}

theorem hubGrows_of_objects {h' : StreamHub π} (heq : h'.objects = h.objects) : HubGrows h h' := by
  refine ⟨fun i c hc => ⟨c, ?_, Grows.refl c⟩, fun i c hnone hc => ?_⟩
  · rw [heq, hc]
  · rw [heq, hnone] at hc
    cases hc

theorem hubGrows_modify {f : TaskStreamChannel π → TaskStreamChannel π} (hf : ∀ c, Grows c (f c))
    {k : ℕ} {new : List (TaskStreamChannel π)} (hnew : ∀ c ∈ new, c.Wf) {h' : StreamHub π}
    (heq : h'.objects = (h.objects ++ new).modify k f) : HubGrows h h' := by
  refine ⟨fun i c hc => ?_, fun i c hnone hc => ?_⟩
  · have hold : (h.objects ++ new)[i]? = some c := by
      rw [List.getElem?_append_left (List.getElem?_eq_some_iff.mp hc).1, hc]
    rw [heq]
    by_cases hk : k = i
    · exact ⟨f c, getElem?_modify_eq_some.mpr (.inl ⟨hk, c, hold, rfl⟩), hf c⟩
    · exact ⟨c, getElem?_modify_eq_some.mpr (.inr ⟨hk, hold⟩), Grows.refl c⟩
  · have hmem : ∀ {y}, (h.objects ++ new)[i]? = some y → y.Wf := by
      intro y hy
      rw [List.getElem?_append_right (List.getElem?_eq_none_iff.mp hnone)] at hy
      exact hnew y (List.mem_of_getElem? hy)
    rw [heq] at hc
    obtain ⟨-, y, hy, rfl⟩ | ⟨-, hy⟩ := getElem?_modify_eq_some.mp hc
    · exact (hf y).wf (hmem hy)
    · exact hmem hy

theorem getOrCreateChannel_objects (h : StreamHub π) (taskId : String) :
    ∃ new : List (TaskStreamChannel π), (∀ c ∈ new, c = TaskStreamChannel.empty h.maxBuffer) ∧
      (h.getOrCreateChannel taskId).1.objects = h.objects ++ new := by
  unfold StreamHub.getOrCreateChannel
  split
  · exact ⟨[], by simp, (List.append_nil _).symm⟩
  · exact ⟨[.empty h.maxBuffer], by simp, rfl⟩

theorem hubGrows_getOrCreateChannel (h : StreamHub π) (taskId : String) :
    HubGrows h (h.getOrCreateChannel taskId).1 := by
  obtain ⟨new, hnew, heq⟩ := getOrCreateChannel_objects h taskId
  have hmodify : (h.getOrCreateChannel taskId).1.objects = (h.objects ++ new).modify 0 id := by
    rw [heq, List.modify_id]
  apply hubGrows_modify (fun c => Grows.refl c) (fun c hc => ?_) hmodify
  rw [hnew c hc]
  exact TaskStreamChannel.wf_empty _

theorem hubGrows_publish (h : StreamHub π) (taskId : String) (payload : π) (isTerminal : Bool) :
    HubGrows h (h.publish taskId payload isTerminal) := by
  obtain ⟨new, hnew, heq⟩ := getOrCreateChannel_objects h taskId
  have hmodify : (h.publish taskId payload isTerminal).objects = (h.objects ++ new).modify
      (h.getOrCreateChannel taskId).2 (fun c => c.publish payload isTerminal) := by
    rw [← heq]
    rfl
  apply hubGrows_modify (fun c => grows_publish c payload isTerminal) (fun c hc => ?_) hmodify
  rw [hnew c hc]
  exact TaskStreamChannel.wf_empty _

theorem hubGrows_closeStream (h : StreamHub π) (taskId : String) :
    HubGrows h (h.closeStream taskId) := by
  unfold StreamHub.closeStream
  split
  · exact hubGrows_of_objects rfl
  · rename_i i _
    have hmodify : ((h.removeChannel taskId).modify i TaskStreamChannel.close).objects =
        (h.objects ++ []).modify i TaskStreamChannel.close := by
      rw [List.append_nil]
      rfl
    exact hubGrows_modify grows_close (fun c hc => by cases hc) hmodify

end HubGrows

end Acps.Sse
