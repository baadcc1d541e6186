import Acps.Sse.Hub

/-!
How channels end. Where every terminal event goes through the hub and its channel is removed then,
nothing follows a terminal event, and whoever waits at a channel that is closed is told so.
-/

namespace Acps.Sse

open Slots

variable {π : Type}

structure Ends (c : TaskStreamChannel π) : Prop where
  wf : c.Wf
  terminal : ∀ (k : ℕ) (e : BufferedStreamEvent π), c.published[k]? = some e → e.isTerminal = true →
    k + 1 = c.published.length ∧ c.closed = true
  closed : c.closed = true → (∃ e ∈ c.published.getLast?, e.isTerminal = true) ∧
    ∀ q items, c.queues q = some items → none ∈ items
  queued : ∀ q items, c.queues q = some items → ∀ e, some e ∈ items → e ∈ c.published

section Channel

variable {c : TaskStreamChannel π}

theorem ends_empty (maxBuffer : ℕ) : Ends (.empty maxBuffer : TaskStreamChannel π) where
  wf := TaskStreamChannel.wf_empty maxBuffer
  terminal := fun k e he => by cases he
  closed := fun h => by cases h
  queued := fun q items h => by cases h

theorem queues_append {event : BufferedStreamEvent π} {q : ℕ}
    {items : List (Option (BufferedStreamEvent π))} (h : (c.append event).queues q = some items) :
    ∃ old, c.queues q = some old ∧ items = old ++ [some event] := by
  obtain ⟨old, hold, rfl⟩ := Option.map_eq_some_iff.mp h
  exact ⟨old, hold, rfl⟩

theorem Ends.append_queued (h : Ends c) {event : BufferedStreamEvent π} {q : ℕ}
    {items : List (Option (BufferedStreamEvent π))} (hq : (c.append event).queues q = some items)
    {e : BufferedStreamEvent π} (he : some e ∈ items) : e ∈ (c.append event).published := by
  obtain ⟨old, hold, rfl⟩ := queues_append hq
  rcases List.mem_append.mp he with he | he
  · exact List.mem_append_left _ (h.queued q old hold e he)
  · obtain rfl := Option.some.inj (List.mem_singleton.mp he)
    exact List.mem_append_right _ List.mem_cons_self

theorem Ends.publish (h : Ends c) (hopen : c.closed = false) (payload : π) (isTerminal : Bool) :
    Ends (c.publish payload isTerminal) := by
  have hnone : ∀ (k : ℕ) (e : BufferedStreamEvent π), c.published[k]? = some e →
      e.isTerminal = false := by
    intro k e he
    by_contra hterminal
    have hclosed := (h.terminal k e he (by simpa using hterminal)).2
    rw [hopen] at hclosed
    cases hclosed
  have hpublished := TaskStreamChannel.published_publish (c := c) payload isTerminal
  have hwf := h.wf.publish payload isTerminal
  set event : BufferedStreamEvent π := { eventSeq := c.nextSeq, payload, isTerminal } with hevent
  have hlast : (k : ℕ) → (e : BufferedStreamEvent π) →
      (c.publish payload isTerminal).published[k]? = some e → e.isTerminal = true →
      k + 1 = (c.publish payload isTerminal).published.length ∧ isTerminal = true := by
    intro k e he hterminal
    rw [hpublished] at he ⊢
    rcases getElem?_concat_eq_some.mp he with he | ⟨rfl, rfl⟩
    · rw [hnone k e he] at hterminal
      cases hterminal
    · exact ⟨by rw [List.length_append]; rfl, hterminal⟩
  cases isTerminal with
  | false =>
    have heq : c.publish payload false = c.append event := rfl
    refine ⟨hwf, fun k e he hterminal => ?_, fun hclosed => ?_, fun q items hq e he => ?_⟩
    · cases (hlast k e he hterminal).2
    · have hclosed' : c.closed = true := hclosed
      rw [hopen] at hclosed'
      cases hclosed'
    · rw [heq] at hq ⊢
      exact h.append_queued hq he
  | true =>
    have hopen' : (c.append event).closed = false := hopen
    have heq : c.publish payload true = { (c.append event).put none with closed := true } := by
      change (c.append event).close = _
      unfold TaskStreamChannel.close
      rw [hopen']
      rfl
    have hitems : ∀ q items, (c.publish payload true).queues q = some items →
        ∃ old, (c.append event).queues q = some old ∧ items = old ++ [none] := by
      intro q items hq
      rw [heq] at hq
      obtain ⟨old, hold, rfl⟩ := Option.map_eq_some_iff.mp hq
      exact ⟨old, hold, rfl⟩
    refine ⟨hwf, fun k e he hterminal => ?_, fun _ => ⟨⟨event, ?_, rfl⟩, fun q items hq => ?_⟩,
      fun q items hq e he => ?_⟩
    · exact ⟨(hlast k e he hterminal).1, by rw [heq]⟩
    · rw [hpublished]
      exact List.getLast?_concat
    · obtain ⟨old, -, rfl⟩ := hitems q items hq
      exact List.mem_append_right _ List.mem_cons_self
    · obtain ⟨old, hold, rfl⟩ := hitems q items hq
      rcases List.mem_append.mp he with he | he
      · rw [hpublished]
        exact h.append_queued hold he
      · cases List.mem_singleton.mp he

theorem Ends.subscribe (h : Ends c) (hopen : c.closed = false) : Ends c.subscribe := by
  refine ⟨h.wf.subscribe, h.terminal, fun hclosed => ?_, fun q items hq e he => ?_⟩
  · have hclosed' : c.closed = true := hclosed
    rw [hopen] at hclosed'
    cases hclosed'
  · change (if q = c.nextQueue then some [] else c.queues q) = some items at hq
    split at hq
    · obtain rfl := Option.some.inj hq
      cases he
    · exact h.queued q items hq e he

theorem Ends.setQueue (h : Ends c) {q : ℕ} {items : List (Option (BufferedStreamEvent π))}
    {item : Option (BufferedStreamEvent π)} (hq : c.queues q = some (item :: items))
    {rest : Option (List (Option (BufferedStreamEvent π)))}
    (hrest : ∀ r ∈ rest, r = items ∧ item ≠ none) : Ends (c.setQueue q rest) := by
  refine ⟨h.wf.setQueue (by rw [hq]; rfl) rest, h.terminal, fun hclosed => ?_, ?_⟩
  · have hold := h.closed hclosed
    refine ⟨hold.1, fun q' items' hq' => ?_⟩
    change (if q' = q then rest else c.queues q') = some items' at hq'
    split at hq'
    · obtain ⟨rfl, hitem⟩ := hrest items' hq'
      exact (List.mem_cons.mp (hold.2 q _ hq)).resolve_left (Ne.symm hitem)
    · exact hold.2 q' items' hq'
  · intro q' items' hq' e he
    change (if q' = q then rest else c.queues q') = some items' at hq'
    split at hq'
    · obtain ⟨rfl, -⟩ := hrest items' hq'
      exact h.queued q _ hq e (List.mem_cons_of_mem item he)
    · exact h.queued q' items' hq' e he

end Channel

structure Owned (hub : StreamHub π) (owners : List String) : Prop where
  ends : ∀ (i : ℕ) (c : TaskStreamChannel π), hub.objects[i]? = some c → Ends c
  length : owners.length = hub.objects.length
  mapped : ∀ taskId i, hub.channels taskId = some i → owners[i]? = some taskId ∧
    ∃ c, hub.objects[i]? = some c ∧ c.closed = false
  opened : ∀ (i : ℕ) (taskId : String) (c : TaskStreamChannel π), owners[i]? = some taskId →
    hub.objects[i]? = some c → c.closed = true ∨ hub.channels taskId = some i

section Hub

variable {hub : StreamHub π} {owners : List String} {taskId : String} {i : ℕ}

theorem channels_getOrCreateChannel (hub : StreamHub π) (taskId t : String) :
    (hub.getOrCreateChannel taskId).1.channels t =
      if t = taskId then some (hub.getOrCreateChannel taskId).2 else hub.channels t := by
  unfold StreamHub.getOrCreateChannel
  split
  · rename_i i hi
    split
    · rename_i ht
      rw [ht, hi]
    · rfl
  · rfl

theorem Owned.getOrCreateChannel (h : Owned hub owners) (taskId : String) :
    Owned (hub.getOrCreateChannel taskId).1
      (if (hub.channels taskId).isSome then owners else owners ++ [taskId]) := by
  unfold StreamHub.getOrCreateChannel
  cases hi : hub.channels taskId with
  | some i => exact h
  | none =>
    refine ⟨fun i c hc => ?_, ?_, fun t i ht => ?_, fun i t c ht hc => ?_⟩
    · rcases getElem?_concat_eq_some.mp hc with hc | ⟨-, rfl⟩
      · exact h.ends i c hc
      · exact ends_empty hub.maxBuffer
    · simp [h.length]
    · change (if t = taskId then some hub.objects.length else hub.channels t) = some i at ht
      simp only [Option.isSome_none, Bool.false_eq_true, if_false]
      split at ht
      · rename_i heq
        obtain rfl := Option.some.inj ht
        refine ⟨getElem?_concat_eq_some.mpr (.inr ⟨h.length.symm, heq.symm⟩), _,
          getElem?_concat_eq_some.mpr (.inr ⟨rfl, rfl⟩), rfl⟩
      · obtain ⟨howner, c, hc, hopen⟩ := h.mapped t i ht
        exact ⟨getElem?_concat_eq_some.mpr (.inl howner), c,
          getElem?_concat_eq_some.mpr (.inl hc), hopen⟩
    · simp only [Option.isSome_none, Bool.false_eq_true, if_false] at ht
      change c.closed = true ∨
        (if t = taskId then some hub.objects.length else hub.channels t) = some i
      rcases getElem?_concat_eq_some.mp hc with hc | ⟨rfl, rfl⟩
      · rcases getElem?_concat_eq_some.mp ht with ht | ⟨rfl, -⟩
        · rcases h.opened i t c ht hc with hclosed | hmapped
          · exact .inl hclosed
          · have hne : t ≠ taskId := by
              rintro rfl
              rw [hi] at hmapped
              cases hmapped
            exact .inr ((if_neg hne).trans hmapped)
        · rw [h.length, List.getElem?_eq_none (Nat.le_refl _)] at hc
          cases hc
      · rcases getElem?_concat_eq_some.mp ht with ht | ⟨-, rfl⟩
        · rw [List.getElem?_eq_none (Nat.le_of_eq h.length)] at ht
          cases ht
        · exact .inr (if_pos rfl)

theorem Owned.modify (h : Owned hub owners) {f : TaskStreamChannel π → TaskStreamChannel π}
    (hf : ∀ c, hub.objects[i]? = some c → Ends (f c) ∧ (f c).closed = c.closed) :
    Owned (hub.modify i f) owners := by
  refine ⟨fun j c hc => ?_, by rw [h.length]; exact (List.length_modify ..).symm,
    fun t j ht => ?_, fun j t c ht hc => ?_⟩
  · rcases getElem?_modify_eq_some.mp hc with ⟨rfl, y, hy, rfl⟩ | ⟨-, hc⟩
    · exact (hf y hy).1
    · exact h.ends j c hc
  · obtain ⟨howner, c, hc, hopen⟩ := h.mapped t j ht
    by_cases hij : i = j
    · subst hij
      exact ⟨howner, f c, getElem?_modify_eq_some.mpr (.inl ⟨rfl, c, hc, rfl⟩),
        (hf c hc).2.trans hopen⟩
    · exact ⟨howner, c, getElem?_modify_eq_some.mpr (.inr ⟨hij, hc⟩), hopen⟩
  · rcases getElem?_modify_eq_some.mp hc with ⟨rfl, y, hy, rfl⟩ | ⟨-, hc⟩
    · rw [(hf y hy).2]
      exact h.opened i t y ht hy
    · exact h.opened j t c ht hc

theorem publish_eq_modify (hi : hub.channels taskId = some i) (payload : π) (isTerminal : Bool) :
    hub.publish taskId payload isTerminal =
      hub.modify i fun c => c.publish payload isTerminal := by
  unfold StreamHub.publish StreamHub.getOrCreateChannel
  rw [hi]

theorem closed_publish {c : TaskStreamChannel π} (payload : π) :
    (c.publish payload false).closed = c.closed := rfl

theorem closed_publish_terminal (c : TaskStreamChannel π) (payload : π) :
    (c.publish payload true).closed = true := by
  change (c.append _).close.closed = true
  unfold TaskStreamChannel.close
  split
  · rename_i h
    exact h
  · rfl

theorem Owned.publish (h : Owned hub owners) (hi : hub.channels taskId = some i) (payload : π) :
    Owned (hub.publish taskId payload false) owners := by
  obtain ⟨-, c, hc, hopen⟩ := h.mapped taskId i hi
  rw [publish_eq_modify hi]
  refine h.modify fun y hy => ?_
  obtain rfl : y = c := Option.some.inj (hy.symm.trans hc)
  exact ⟨(h.ends i y hy).publish hopen payload false, closed_publish payload⟩

theorem closeStream_publish (h : Owned hub owners) (hi : hub.channels taskId = some i) (payload : π) :
    (hub.publish taskId payload true).closeStream taskId =
      (hub.removeChannel taskId).modify i fun c => c.publish payload true := by
  rw [publish_eq_modify hi]
  unfold StreamHub.closeStream
  have hi' : (hub.modify i fun c => c.publish payload true).channels taskId = some i := hi
  rw [hi']
  obtain ⟨-, c, hc, -⟩ := h.mapped taskId i hi
  have hlt := (List.getElem?_eq_some_iff.mp hc).1
  change StreamHub.mk _ ((hub.objects.modify i _).modify i _) _ = StreamHub.mk _ _ _
  congr 1
  rw [List.modify_modify_eq]
  congr 1
  funext c
  change (c.publish payload true).close = c.publish payload true
  unfold TaskStreamChannel.close
  rw [if_pos (closed_publish_terminal c payload)]

theorem Owned.closeStream (h : Owned hub owners) (hi : hub.channels taskId = some i) (payload : π) :
    Owned ((hub.publish taskId payload true).closeStream taskId) owners := by
  obtain ⟨howner, c, hc, hopen⟩ := h.mapped taskId i hi
  rw [closeStream_publish h hi]
  refine ⟨fun j d hd => ?_, by rw [h.length]; exact (List.length_modify ..).symm,
    fun t j ht => ?_, fun j t d ht hd => ?_⟩
  · rcases getElem?_modify_eq_some.mp hd with ⟨rfl, y, hy, rfl⟩ | ⟨-, hd⟩
    · obtain rfl : y = c := Option.some.inj (hy.symm.trans hc)
      exact (h.ends i y hy).publish hopen payload true
    · exact h.ends j d hd
  · change (if t = taskId then none else hub.channels t) = some j at ht
    split at ht
    · cases ht
    · rename_i hne
      obtain ⟨howner', d, hd, hopen'⟩ := h.mapped t j ht
      have hij : i ≠ j := by
        rintro rfl
        exact hne (Option.some.inj (howner'.symm.trans howner))
      exact ⟨howner', d, getElem?_modify_eq_some.mpr (.inr ⟨hij, hd⟩), hopen'⟩
  · rcases getElem?_modify_eq_some.mp hd with ⟨rfl, y, -, rfl⟩ | ⟨hij, hd⟩
    · exact .inl (closed_publish_terminal y payload)
    · rcases h.opened j t d ht hd with hclosed | hmapped
      · exact .inl hclosed
      · have hne : t ≠ taskId := by
          rintro rfl
          exact hij (Option.some.inj (hi.symm.trans hmapped))
        exact .inr ((if_neg hne).trans hmapped)

end Hub

structure Carries (hub hub' : StreamHub π) (new : π → Prop) : Prop where
  kept : ∀ (i : ℕ) (c : TaskStreamChannel π), hub.objects[i]? = some c →
    ∃ c', hub'.objects[i]? = some c' ∧ ∀ e ∈ c.published, e ∈ c'.published
  origin : ∀ (i : ℕ) (c' : TaskStreamChannel π), hub'.objects[i]? = some c' → ∀ e ∈ c'.published,
    new e.payload ∨ ∃ c, hub.objects[i]? = some c ∧ e ∈ c.published

section Carries

variable {hub hub' hub'' : StreamHub π} {new : π → Prop} {i : ℕ}

theorem Carries.trans (h : Carries hub hub' new) (h' : Carries hub' hub'' new) :
    Carries hub hub'' new := by
  refine ⟨fun j c hc => ?_, fun j c'' hc'' e he => ?_⟩
  · obtain ⟨c', hc', hkept⟩ := h.kept j c hc
    obtain ⟨c'', hc'', hkept'⟩ := h'.kept j c' hc'
    exact ⟨c'', hc'', fun e he => hkept' e (hkept e he)⟩
  · rcases h'.origin j c'' hc'' e he with hnew | ⟨c', hc', he'⟩
    · exact .inl hnew
    · exact h.origin j c' hc' e he'

theorem carries_modify {f : TaskStreamChannel π → TaskStreamChannel π}
    (hf : ∀ c, (∀ e ∈ c.published, e ∈ (f c).published) ∧
      ∀ e ∈ (f c).published, new e.payload ∨ e ∈ c.published) :
    Carries hub (hub.modify i f) new := by
  refine ⟨fun j c hc => ?_, fun j c' hc' e he => ?_⟩
  · by_cases hij : i = j
    · exact ⟨f c, getElem?_modify_eq_some.mpr (.inl ⟨hij, c, hc, rfl⟩), (hf c).1⟩
    · exact ⟨c, getElem?_modify_eq_some.mpr (.inr ⟨hij, hc⟩), fun _ he => he⟩
  · rcases getElem?_modify_eq_some.mp hc' with ⟨-, c, hc, rfl⟩ | ⟨-, hc⟩
    · exact ((hf c).2 e he).imp_right fun he => ⟨c, hc, he⟩
    · exact .inr ⟨c', hc, he⟩

theorem carries_getOrCreateChannel (hub : StreamHub π) (taskId : String) :
    Carries hub (hub.getOrCreateChannel taskId).1 new := by
  unfold StreamHub.getOrCreateChannel
  split
  · exact ⟨fun j c hc => ⟨c, hc, fun _ he => he⟩, fun j c hc e he => .inr ⟨c, hc, he⟩⟩
  · refine ⟨fun j c hc => ⟨c, getElem?_concat_eq_some.mpr (.inl hc), fun _ he => he⟩,
      fun j c hc e he => ?_⟩
    rcases getElem?_concat_eq_some.mp hc with hc | ⟨-, rfl⟩
    · exact .inr ⟨c, hc, he⟩
    · cases he

theorem carries_publish {payload : π} (hnew : new payload) (isTerminal : Bool) :
    Carries hub (hub.modify i fun c => c.publish payload isTerminal) new := by
  refine carries_modify fun c => ?_
  rw [TaskStreamChannel.published_publish]
  refine ⟨fun e he => List.mem_append_left _ he, fun e he => ?_⟩
  rcases List.mem_append.mp he with he | he
  · exact .inr he
  · obtain rfl := List.mem_singleton.mp he
    exact .inl hnew

end Carries

end Acps.Sse
