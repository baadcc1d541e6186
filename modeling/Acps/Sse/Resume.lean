import Acps.Sse.Reconnect

/-!
Resuming is free of gaps and duplicates in every run whose generators continue where the client is.
-/

namespace Acps.Sse

open Slots Transition

variable {π : Type}

section Invariant

variable (s : World π)

def Connected : Connection π → Prop
  | .closed | .opened .finished _ => True
  | .requested _ lastEventSeq => s.yielded ≠ [] → lastEventSeq = some s.yielded.length
  | .opened (.created lastEventSeq) inFlight =>
    inFlight = [] ∧ (s.yielded ≠ [] → lastEventSeq = some s.yielded.length)
  | .opened (.running i _ none) _ => s.flow <+: s.history i
  | .opened (.running i _ (some q)) _ => s.flow <+: s.history i ∧
    ∃ (c : TaskStreamChannel π) (items : List (Option (BufferedStreamEvent π))),
      s.hub.objects[i]? = some c ∧ c.queues q = some items ∧
        (none ∉ items → s.flow = s.history i)

structure Inv : Prop where
  wf : ∀ (i : ℕ) (c : TaskStreamChannel π), s.hub.objects[i]? = some c → c.Wf
  along : ∃ i, s.flow <+: s.history i
  unused : s.status = .unused → s.yielded = [] ∧ s.connection = .closed
  remembered : s.yielded ≠ [] → s.lastEventSeq = some s.yielded.length
  connected : Connected s s.connection

end Invariant

section History

variable {s t : World π} {i : ℕ} {c : TaskStreamChannel π}

theorem history_eq (h : s.hub.objects[i]? = some c) :
    s.history i = c.published.map (Prod.mk i) := by
  unfold World.history
  rw [h]
  rfl

theorem history_none (h : s.hub.objects[i]? = none) : s.history i = [] := by
  unfold World.history
  rw [h]
  rfl

theorem numbered_of_init (hwf : ∀ (i : ℕ) (c : TaskStreamChannel π), s.hub.objects[i]? = some c → c.Wf)
    {l : List (ℕ × BufferedStreamEvent π)} (h : l <+: s.history i) {k : ℕ}
    {y : ℕ × BufferedStreamEvent π} (hy : l[k]? = some y) : y.1 = i ∧ y.2.eventSeq = k + 1 := by
  have hget : (s.history i)[k]? = some y := by
    obtain ⟨hlt, rfl⟩ := List.getElem?_eq_some_iff.mp hy
    exact (List.IsPrefix.getElem h hlt) ▸ List.getElem?_eq_getElem _
  cases hc : s.hub.objects[i]? with
  | none =>
    rw [history_none hc] at hget
    cases hget
  | some c =>
    rw [history_eq hc, List.getElem?_map] at hget
    obtain ⟨e, he, rfl⟩ := Option.map_eq_some_iff.mp hget
    exact ⟨rfl, (hwf i c hc).numbered k e he⟩

theorem Inv.yielded_prefix (h : Inv s) : ∃ i, s.yielded <+: s.history i := by
  obtain ⟨i, hi⟩ := h.along
  exact ⟨i, (List.prefix_append _ _).trans hi⟩

end History

theorem hubGrows_hubStep (h : StreamHub π) (a : HubAct π) : HubGrows h (hubStep h a) := by
  cases a with
  | getOrCreateChannel taskId => exact hubGrows_getOrCreateChannel h taskId
  | publish taskId payload isTerminal => exact hubGrows_publish h taskId payload isTerminal
  | closeStream taskId => exact hubGrows_closeStream h taskId
  | removeChannel taskId => exact hubGrows_of_objects rfl

section Steps

variable {s : World π} {hub : StreamHub π} {i : ℕ}

theorem history_prefix_of_hubGrows (hg : HubGrows s.hub hub) (i : ℕ) :
    s.history i <+: World.history { s with hub } i := by
  cases hc : s.hub.objects[i]? with
  | none =>
    rw [history_none hc]
    exact List.nil_prefix
  | some c =>
    obtain ⟨c', hc', hgrows⟩ := hg.kept i c hc
    obtain ⟨events, _, hpublished, -, -⟩ := hgrows.grows
    rw [history_eq hc, history_eq (s := { s with hub }) hc', hpublished, List.map_append]
    exact List.prefix_append _ _

theorem wf_of_hubGrows
    (hwf : ∀ (i : ℕ) (c : TaskStreamChannel π), s.hub.objects[i]? = some c → c.Wf)
    (hg : HubGrows s.hub hub) (i : ℕ) (c : TaskStreamChannel π) (hc : hub.objects[i]? = some c) :
    c.Wf := by
  cases hold : s.hub.objects[i]? with
  | none => exact hg.added i c hold hc
  | some old =>
    obtain ⟨c', hc', hgrows⟩ := hg.kept i old hold
    obtain rfl : c' = c := Option.some.inj (hc'.symm.trans hc)
    exact hgrows.wf (hwf i old hold)

theorem flow_of_hubGrows (hg : HubGrows s.hub hub)
    {replayed : List (BufferedStreamEvent π)} {q : ℕ} {inFlight : List (Frame π)}
    (hconnection : s.connection = .opened (.running i replayed (some q)) inFlight)
    {c : TaskStreamChannel π} {items : List (Option (BufferedStreamEvent π))}
    (hc : s.hub.objects[i]? = some c) (hq : c.queues q = some items)
    (hinit : s.flow <+: s.history i) (hall : none ∉ items → s.flow = s.history i) :
    World.flow { s with hub } <+: World.history { s with hub } i ∧
      ∃ (c : TaskStreamChannel π) (items : List (Option (BufferedStreamEvent π))),
        hub.objects[i]? = some c ∧ c.queues q = some items ∧
          (none ∉ items → World.flow { s with hub } = World.history { s with hub } i) := by
  obtain ⟨c', hc', hgrows⟩ := hg.kept i c hc
  obtain ⟨events, tail, hpublished, hqueues, hlive⟩ := hgrows.grows
  have hq' := hqueues q items hq
  have hflow : s.flow = s.yielded ++ (inFlight.filterMap Frame.payload ++
      (replayed ++ live items).map (Prod.mk i)) := by
    simp [World.flow, hconnection, Connection.upcoming, Generator.upcoming, hc, hq]
  have hflow' : World.flow { s with hub } = s.yielded ++ (inFlight.filterMap Frame.payload ++
      (replayed ++ live (items ++ tail)).map (Prod.mk i)) := by
    simp [World.flow, hconnection, Connection.upcoming, Generator.upcoming, hc', hq']
  by_cases hmem : none ∈ items
  · rw [live_append_of_mem hmem, ← hflow] at hflow'
    refine ⟨?_, c', _, hc', hq', fun hnot => absurd (List.mem_append_left _ hmem) hnot⟩
    rw [hflow']
    exact hinit.trans (history_prefix_of_hubGrows hg i)
  · have heq : World.flow { s with hub } = World.history { s with hub } i := by
      have hhistory : World.history { s with hub } i = s.flow ++ events.map (Prod.mk i) := by
        rw [history_eq (s := { s with hub }) hc', hpublished, List.map_append, hall hmem,
          history_eq hc]
      rw [hflow', hhistory, hflow, live_append_of_notMem hmem, hlive]
      simp only [List.map_append, List.append_assoc]
    exact ⟨heq ▸ List.prefix_rfl, c', _, hc', hq', fun _ => heq⟩

theorem Inv.hubGrows (h : Inv s) (hg : HubGrows s.hub hub) : Inv { s with hub } := by
  have hinit := history_prefix_of_hubGrows hg
  have hconnected := h.connected
  have hsame : World.flow { s with hub } = s.flow →
      ∃ i, World.flow { s with hub } <+: World.history { s with hub } i := by
    intro heq
    obtain ⟨i, hi⟩ := h.along
    exact ⟨i, heq ▸ hi.trans (hinit i)⟩
  suffices hboth : ∀ connection, s.connection = connection →
      (∃ i, World.flow { s with hub } <+: World.history { s with hub } i) ∧
        Connected { s with hub } connection from
    ⟨wf_of_hubGrows h.wf hg, (hboth _ rfl).1, h.unused, h.remembered, (hboth _ rfl).2⟩
  intro connection hconnection
  cases connection with
  | closed => exact ⟨hsame (by simp [World.flow, hconnection, Connection.upcoming]), trivial⟩
  | requested restream lastEventSeq =>
    rw [hconnection] at hconnected
    exact ⟨hsame (by simp [World.flow, hconnection, Connection.upcoming]), hconnected⟩
  | opened generator inFlight =>
    rw [hconnection] at hconnected
    cases generator with
    | created lastEventSeq =>
      exact ⟨hsame (by simp [World.flow, hconnection, Connection.upcoming, Generator.upcoming]),
        hconnected⟩
    | finished =>
      exact ⟨hsame (by simp [World.flow, hconnection, Connection.upcoming, Generator.upcoming]),
        trivial⟩
    | running i replayed queue =>
      cases queue with
      | none =>
        have heq : World.flow { s with hub } = s.flow := by
          simp [World.flow, hconnection, Connection.upcoming, Generator.upcoming]
        refine ⟨hsame heq, ?_⟩
        change World.flow { s with hub } <+: World.history { s with hub } i
        rw [heq]
        exact hconnected.trans (hinit i)
      | some q =>
        obtain ⟨hflow, c, items, hc, hq, hall⟩ := hconnected
        have hafter := flow_of_hubGrows hg hconnection hc hq hflow hall
        exact ⟨⟨i, hafter.1⟩, hafter⟩

theorem Inv.lost (h : Inv s) {status : Status} (hstatus : status ≠ .unused) (reconnectCount : ℕ) :
    Inv { s with status, reconnectCount, connection := .closed } := by
  refine ⟨h.wf, ?_, fun hunused => absurd hunused hstatus, h.remembered, trivial⟩
  obtain ⟨i, hi⟩ := h.yielded_prefix
  refine ⟨i, ?_⟩
  change s.yielded ++ [] <+: _
  rw [List.append_nil]
  exact hi

theorem Inv.opened (h : Inv s) {generator : Generator π} {inFlight : List (Frame π)}
    (hconnection : s.connection = .opened generator inFlight) : s.status ≠ .unused := by
  intro hunused
  have hclosed := (h.unused hunused).2
  rw [hconnection] at hclosed
  cases hclosed

theorem Inv.waiting (h : Inv s) {status : Status} (hstatus : status ≠ .unused)
    {connection : Connection π} (hnone : connection.upcoming s.hub = [])
    (hconnected : Connected { s with status, connection } connection) :
    Inv { s with status, connection } := by
  refine ⟨h.wf, ?_, fun hunused => absurd hunused hstatus, h.remembered, hconnected⟩
  obtain ⟨i, hi⟩ := h.yielded_prefix
  refine ⟨i, ?_⟩
  change s.yielded ++ connection.upcoming s.hub <+: _
  rw [hnone, List.append_nil]
  exact hi

theorem Inv.continues (h : Inv s) {c : TaskStreamChannel π} (hc : s.hub.objects[i]? = some c)
    {lastEventSeq : Option ℕ} (hlast : s.yielded ≠ [] → lastEventSeq = some s.yielded.length)
    (hcontinues : Continues s.yielded lastEventSeq i c) :
    s.yielded ++ (c.replay lastEventSeq).map (Prod.mk i) = s.history i := by
  obtain ⟨hevicted, hchannel⟩ := hcontinues
  have hwf := h.wf i c hc
  rw [history_eq hc]
  cases hy : s.yielded.getLast? with
  | none =>
    have hnil : s.yielded = [] := List.getLast?_eq_none_iff.mp hy
    rw [hy] at hchannel
    rw [hnil, List.length_nil] at hevicted
    have hzero : c.evicted = 0 := Nat.le_zero.mp hevicted
    rw [hnil, List.nil_append]
    congr 1
    rcases hchannel with rfl | hempty
    · exact hwf.replay_none hzero
    · have hbuffer : c.buffer = [] := by rw [hwf.buffer_eq, hempty, List.drop_nil]
      unfold TaskStreamChannel.replay
      cases lastEventSeq <;> simp [hbuffer, hempty]
  | some y =>
    rw [hy] at hchannel
    obtain rfl : y.1 = i := hchannel
    have hne : s.yielded ≠ [] := by
      intro hnil
      rw [hnil] at hy
      cases hy
    obtain ⟨j, hj⟩ := h.yielded_prefix
    rw [List.getLast?_eq_getElem?] at hy
    obtain rfl := (numbered_of_init h.wf hj hy).1
    rw [history_eq hc] at hj
    rw [hlast hne, hwf.replay_some hevicted, List.map_drop]
    nth_rewrite 1 [List.prefix_iff_eq_take.mp hj]
    exact List.take_append_drop _ _

theorem history_modify {f : TaskStreamChannel π → TaskStreamChannel π} {k : ℕ}
    (hf : ∀ c, (f c).published = c.published) {t : World π} (ht : t.hub = s.hub.modify k f) (i : ℕ) :
    t.history i = s.history i := by
  unfold World.history
  rw [ht]
  congr 2
  change (s.hub.objects.modify k f)[i]?.map TaskStreamChannel.published = _
  rw [List.getElem?_modify]
  cases s.hub.objects[i]? with
  | none => rfl
  | some c =>
    by_cases hk : k = i
    · simp [hk, hf c]
    · simp [hk]

theorem wf_modify {f : TaskStreamChannel π → TaskStreamChannel π} {k : ℕ}
    (hwf : ∀ (i : ℕ) (c : TaskStreamChannel π), s.hub.objects[i]? = some c → c.Wf)
    (hf : ∀ c, s.hub.objects[k]? = some c → (f c).Wf) (i : ℕ) (c : TaskStreamChannel π)
    (hc : (s.hub.modify k f).objects[i]? = some c) : c.Wf := by
  obtain ⟨rfl, y, hy, rfl⟩ | ⟨-, hy⟩ := getElem?_modify_eq_some.mp hc
  · exact hf y hy
  · exact hwf i c hy

theorem Inv.handle (h : Inv s) {settings : StreamSettings} {found : Option ℕ} {t : World π}
    (hstep : handleStreamRequest settings s found = some t) : Inv t := by
  unfold handleStreamRequest at hstep
  split at hstep
  · rename_i lastEventSeq hconnection
    have hlast := h.connected
    rw [hconnection] at hlast
    obtain rfl := Option.some.inj hstep
    have hgrows := h.hubGrows (hubGrows_getOrCreateChannel s.hub settings.taskId)
    have hstatus : s.status ≠ .unused := fun hunused => by
      rw [(h.unused hunused).2] at hconnection
      cases hconnection
    exact hgrows.waiting hstatus rfl ⟨rfl, hlast⟩
  · rename_i lastEventSeq hconnection
    have hlast := h.connected
    rw [hconnection] at hlast
    have hstatus : s.status ≠ .unused := fun hunused => by
      rw [(h.unused hunused).2] at hconnection
      cases hconnection
    split at hstep
    · split at hstep
      · obtain rfl := Option.some.inj hstep
        exact h.lost (by decide) _
      · split at hstep
        · obtain rfl := Option.some.inj hstep
          exact h.waiting hstatus rfl ⟨rfl, hlast⟩
        · obtain rfl := Option.some.inj hstep
          exact h.waiting hstatus rfl trivial
    · cases hstep
  · cases hstep

theorem Inv.replayed (h : Inv s) {replayed : List (BufferedStreamEvent π)}
    (hwhole : s.yielded ++ replayed.map (Prod.mk i) = s.history i) (hstatus : s.status ≠ .unused) :
    Inv { s with connection := .opened (.running i replayed none) [] } := by
  set t : World π := { s with connection := .opened (.running i replayed none) [] } with ht
  have hflow : t.flow = t.history i := by
    change _ = s.history i
    rw [← hwhole]
    simp [ht, World.flow, Connection.upcoming, Generator.upcoming, live]
  have hinit : t.flow <+: t.history i := hflow ▸ List.prefix_rfl
  exact ⟨h.wf, ⟨i, hinit⟩, fun hunused => absurd hunused hstatus, h.remembered, hinit⟩

theorem Inv.subscribed (h : Inv s) {c : TaskStreamChannel π} (hc : s.hub.objects[i]? = some c)
    {replayed : List (BufferedStreamEvent π)}
    (hwhole : s.yielded ++ replayed.map (Prod.mk i) = s.history i) (hstatus : s.status ≠ .unused) :
    Inv { s with
      hub := s.hub.modify i TaskStreamChannel.subscribe
      connection := .opened (.running i replayed (some c.nextQueue)) [] } := by
  have hc' : (s.hub.modify i TaskStreamChannel.subscribe).objects[i]? = some c.subscribe :=
    getElem?_modify_eq_some.mpr (.inl ⟨rfl, c, hc, rfl⟩)
  have hq : c.subscribe.queues c.nextQueue = some [] := if_pos rfl
  set t : World π := { s with
    hub := s.hub.modify i TaskStreamChannel.subscribe
    connection := .opened (.running i replayed (some c.nextQueue)) [] } with ht
  have hflow : t.flow = t.history i := by
    rw [history_modify (f := TaskStreamChannel.subscribe) (s := s) (fun c => rfl) rfl i, ← hwhole]
    simp [ht, World.flow, Connection.upcoming, Generator.upcoming, hc', hq, live]
  have hinit : t.flow <+: t.history i := hflow ▸ List.prefix_rfl
  exact ⟨wf_modify h.wf fun c hc => (h.wf i c hc).subscribe, ⟨i, hinit⟩,
    fun hunused => absurd hunused hstatus, h.remembered,
    hinit, c.subscribe, [], hc', hq, fun _ => hflow⟩

theorem Inv.begin (h : Inv s) {settings : StreamSettings} (hcareful : Careful settings s .beginGenerator)
    {t : World π} (hstep : beginGenerator settings s = some t) : Inv t := by
  unfold beginGenerator at hstep
  split at hstep
  · rename_i lastEventSeq inFlight hconnection
    have hconnected := h.connected
    rw [hconnection] at hconnected
    obtain ⟨rfl, hlast⟩ := hconnected
    have hstatus := h.opened hconnection
    split at hstep
    · obtain rfl := Option.some.inj hstep
      exact h.waiting hstatus rfl trivial
    · rename_i i hi
      split at hstep
      · cases hstep
      · rename_i c hc
        have hcontinues := hcareful i hi c hc
        rw [hconnection] at hcontinues
        have hwhole := h.continues hc hlast hcontinues
        split at hstep
        · obtain rfl := Option.some.inj hstep
          exact h.replayed hwhole hstatus
        · obtain rfl := Option.some.inj hstep
          exact h.subscribed hc hwhole hstatus
  · cases hstep

theorem Inv.running (h : Inv s) {t : World π} (hflow : t.flow = s.flow)
    (hhistory : ∀ i, t.history i = s.history i)
    (hwf : ∀ (i : ℕ) (c : TaskStreamChannel π), t.hub.objects[i]? = some c → c.Wf)
    (hstatus : t.status ≠ .unused)
    (hremembered : t.yielded ≠ [] → t.lastEventSeq = some t.yielded.length)
    (hconnected : Connected t t.connection) : Inv t := by
  refine ⟨hwf, ?_, fun hunused => absurd hunused hstatus, hremembered, hconnected⟩
  obtain ⟨i, hi⟩ := h.along
  exact ⟨i, by rwa [hflow, hhistory]⟩

theorem Inv.emit (h : Inv s) {t : World π} (hstep : emit s = some t) : Inv t := by
  unfold Sse.emit at hstep
  split at hstep
  · rename_i i e replayed queue inFlight hconnection
    have hconnected := h.connected
    rw [hconnection] at hconnected
    obtain rfl := Option.some.inj hstep
    set t : World π := { s with
      connection := .opened (.running i replayed queue) (inFlight ++ [.event i e]) } with ht
    have hflow : t.flow = s.flow := by
      simp [ht, World.flow, hconnection, Connection.upcoming, Generator.upcoming, Frame.payload]
    apply h.running hflow (fun _ => rfl) h.wf (h.opened hconnection) h.remembered
    cases queue with
    | none =>
      change t.flow <+: t.history i
      rw [hflow]
      exact hconnected
    | some q =>
      change t.flow <+: t.history i ∧ _
      rw [hflow]
      exact hconnected
  · rename_i i inFlight hconnection
    obtain rfl := Option.some.inj hstep
    refine h.running ?_ (fun _ => rfl) h.wf (h.opened hconnection) h.remembered trivial
    simp [World.flow, hconnection, Connection.upcoming, Generator.upcoming, live]
  · rename_i i q inFlight hconnection
    have hconnected := h.connected
    rw [hconnection] at hconnected
    obtain ⟨hinit, c, items, hc, hq, hall⟩ := hconnected
    have hfound : (s.hub.objects[i]?).bind (·.queues q) = some items := by rw [hc, Option.bind_some, hq]
    have hwf : ∀ rest (j : ℕ) (c : TaskStreamChannel π),
        (s.hub.modify i fun c => c.setQueue q rest).objects[j]? = some c → c.Wf := by
      intro rest
      refine wf_modify h.wf fun y hy => ?_
      obtain rfl : y = c := Option.some.inj (hy.symm.trans hc)
      exact (h.wf i y hy).setQueue (by rw [hq]; rfl) rest
    have hc' : ∀ rest, (s.hub.modify i fun c => c.setQueue q rest).objects[i]? =
        some (c.setQueue q rest) :=
      fun rest => getElem?_modify_eq_some.mpr (.inl ⟨rfl, c, hc, rfl⟩)
    have hq' : ∀ rest, (c.setQueue q rest).queues q = rest := fun rest => if_pos rfl
    rw [hfound] at hstep
    split at hstep
    · rename_i e rest heq
      obtain rfl := Option.some.inj heq
      obtain rfl := Option.some.inj hstep
      set t : World π := { s with
        hub := s.hub.modify i fun c => c.setQueue q (some rest)
        connection := .opened (.running i [] (some q)) (inFlight ++ [.event i e]) } with ht
      have hhistory : ∀ j, t.history j = s.history j :=
        history_modify (f := fun c => c.setQueue q (some rest)) (fun c => rfl) rfl
      have hflow : t.flow = s.flow := by
        simp [ht, World.flow, hconnection, Connection.upcoming, Generator.upcoming, Frame.payload,
          hc, hq, hc', hq', live]
      refine h.running hflow hhistory (hwf _) (h.opened hconnection) h.remembered ?_
      refine ⟨?_, _, rest, hc' _, hq' _, fun hnone => ?_⟩
      · rw [hflow, hhistory]
        exact hinit
      · rw [hflow, hhistory]
        exact hall (by simpa using hnone)
    · rename_i rest heq
      obtain rfl := Option.some.inj heq
      obtain rfl := Option.some.inj hstep
      refine h.running ?_ (history_modify (f := fun c => c.setQueue q none) (fun c => rfl) rfl)
        (hwf _) (h.opened hconnection) h.remembered trivial
      simp [World.flow, hconnection, Connection.upcoming, Generator.upcoming, hc, hq, live]
    · cases hstep
  · cases hstep

theorem Inv.receive (h : Inv s) {t : World π} (hstep : receive s = some t) : Inv t := by
  unfold Sse.receive at hstep
  split at hstep
  · rename_i generator i e inFlight hconnection
    have hconnected := h.connected
    rw [hconnection] at hconnected
    obtain rfl := Option.some.inj hstep
    set t : World π := { s with
      lastEventSeq := some e.eventSeq
      yielded := s.yielded ++ [(i, e)]
      connection := .opened generator inFlight } with ht
    have hflow : t.flow = s.flow := by
      simp [ht, World.flow, hconnection, Connection.upcoming, Frame.payload]
    have hseq : e.eventSeq = s.yielded.length + 1 := by
      obtain ⟨j, hj⟩ := h.along
      refine (numbered_of_init h.wf hj (k := s.yielded.length) (y := (i, e)) ?_).2
      simp [World.flow, hconnection, Connection.upcoming, Frame.payload]
    have hremembered : some e.eventSeq = some (s.yielded ++ [(i, e)]).length := by
      rw [hseq, List.length_append]
      rfl
    apply h.running hflow (fun _ => rfl) h.wf (h.opened hconnection) (fun _ => hremembered)
    cases generator with
    | created lastEventSeq => cases hconnected.1
    | finished => trivial
    | running k replayed queue =>
      cases queue with
      | none =>
        change t.flow <+: t.history k
        rw [hflow]
        exact hconnected
      | some q =>
        change t.flow <+: t.history k ∧ _
        rw [hflow]
        exact hconnected
  · obtain rfl := Option.some.inj hstep
    exact h.lost (by decide) _
  · cases hstep

theorem Inv.step (h : Inv s) {settings : StreamSettings} {a : Act π} (hcareful : Careful settings s a)
    {t : World π} (hstep : (streaming settings).step s a = some t) : Inv t := by
  cases a with
  | hub a =>
    obtain rfl := Option.some.inj hstep
    exact h.hubGrows (hubGrows_hubStep s.hub a)
  | streamWithReconnect =>
    change (if s.status = .unused then _ else none) = some t at hstep
    split at hstep
    · rename_i hunused
      obtain rfl := Option.some.inj hstep
      exact h.waiting (by decide) rfl fun hne => absurd (h.unused hunused).1 hne
    · cases hstep
  | handleStreamRequest found => exact h.handle hstep
  | beginGenerator => exact h.begin hcareful hstep
  | emit => exact h.emit hstep
  | receive => exact h.receive hstep
  | endOfStream =>
    change Sse.endOfStream s = some t at hstep
    unfold Sse.endOfStream at hstep
    split at hstep
    · obtain rfl := Option.some.inj hstep
      exact h.lost (by decide) _
    · cases hstep
  | disconnect =>
    change Sse.disconnect settings s = some t at hstep
    obtain ⟨hrunning, hstep⟩ := Option.ite_none_right_eq_some.mp hstep
    split at hstep
    · obtain rfl := Option.some.inj hstep
      exact h.lost (by decide) _
    · obtain rfl := Option.some.inj hstep
      exact h.lost (hrunning.1 ▸ by decide) _
  | reStream =>
    change Sse.reStream s = some t at hstep
    unfold Sse.reStream at hstep
    split at hstep
    · rename_i hstatus _
      obtain rfl := Option.some.inj hstep
      exact h.waiting (hstatus ▸ by decide) rfl h.remembered
    · cases hstep
  | raise =>
    change (if s.status = .running then _ else none) = some t at hstep
    split at hstep
    · obtain rfl := Option.some.inj hstep
      exact h.lost (by decide) _
    · cases hstep

theorem inv_initial (maxBuffer : ℕ) (lastEventSeq : Option ℕ) :
    Inv (World.initial maxBuffer lastEventSeq : World π) where
  wf := fun i c hc => by cases hc
  along := ⟨0, List.nil_prefix⟩
  unused := fun _ => ⟨rfl, rfl⟩
  remembered := fun hne => absurd rfl hne
  connected := trivial

end Steps

section Runs

end Runs

end Acps.Sse
