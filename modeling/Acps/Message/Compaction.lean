import Acps.Lib.Transition
import Acps.Message.Lifecycle

/-!
The lifecycle compaction: each round recomputes the keys of the events that were observed since the
watermark, less an overlap, and then moves the watermark to the latest of them.
-/

namespace Acps.Message

open Transition

structure Stamp where
  logAppendTime : Option Time
  observedTimestamp : Option String
  now : Time

structure CompactionSettings where
  fromIsoFormat : String → Option Time
  overlapSeconds : ℕ

variable (settings : CompactionSettings)

def extractObservedAt (stamp : Stamp) : Time :=
  match stamp.logAppendTime.filter (· ≠ 0) with
  | some ts => ts
  | none =>
    ((stamp.observedTimestamp.filter (· ≠ "")).bind settings.fromIsoFormat).getD stamp.now

def computeRebuildFrom (watermark : Option Time) : Time :=
  match watermark with
  | none => 0
  | some w => max 0 (w - settings.overlapSeconds * 1000)

def setCompactionWatermark (watermark : Option Time) (w : Time) : Option Time :=
  some (max (watermark.getD 0) w)

def affected (rebuildFrom : Time) (events : List EventRow) : List EventRow :=
  events.filter fun e => e.key.lifecycleKey ≠ "" ∧ rebuildFrom ≤ e.observedAt

inductive Phase where
  | idle
  | fetched (roundStart : ℕ) (keys : List LifecycleKey) (maxObserved : Time)

structure World where
  events : List EventRow
  rows : List LifecycleRow
  watermark : Option Time
  phase : Phase
  completed : ℕ

def World.initial : World :=
  { events := [], rows := [], watermark := none, phase := .idle, completed := 0 }

inductive RecomputeOutcome where
  | done
  | failed (written : List LifecycleKey)

inductive Act where
  | insert (e : EventRow) (stamp : Stamp)
  | fetchAffectedLifecycleKeys
  | recomputeLifecycles (compactedAt : Time) (outcome : RecomputeOutcome)

def observed (e : EventRow) (stamp : Stamp) : EventRow :=
  { e with observedAt := extractObservedAt settings stamp }

def fetchAffectedLifecycleKeys (s : World) : Option World :=
  match s.phase with
  | .idle =>
    let es := affected (computeRebuildFrom settings s.watermark) s.events
    match (es.map EventRow.observedAt).max? with
    | none => some { s with completed := s.events.length }
    | some maxObserved =>
      some { s with phase := .fetched s.events.length (es.map EventRow.key).dedup maxObserved }
  | .fetched _ _ _ => none

def recomputed (compactedAt : Time) (events : List EventRow) (keys : List LifecycleKey) :
    List LifecycleRow :=
  keys.filterMap fun key => recompute key compactedAt events

def recomputeLifecycles (compactedAt : Time) (outcome : RecomputeOutcome) (s : World) :
    Option World :=
  match s.phase, outcome with
  | .fetched roundStart keys maxObserved, .done => some { s with
      rows := s.rows ++ recomputed compactedAt s.events keys
      watermark := setCompactionWatermark s.watermark maxObserved
      phase := .idle
      completed := roundStart }
  | .fetched _ keys _, .failed written => some { s with
      rows := s.rows ++ recomputed compactedAt s.events (keys.filter (· ∈ written))
      phase := .idle }
  | .idle, _ => none

def step (s : World) : Act → Option World
  | .insert e stamp => some { s with events := s.events ++ [observed settings e stamp] }
  | .fetchAffectedLifecycleKeys => fetchAffectedLifecycleKeys settings s
  | .recomputeLifecycles compactedAt outcome => recomputeLifecycles compactedAt outcome s

def compactor : System World Act := ⟨step settings⟩

def UpTo (s : World) (key : LifecycleKey) (n : ℕ) : Prop :=
  ∃ m compactedAt, n ≤ m ∧ m ≤ s.events.length ∧
    newest key s.rows = recompute key compactedAt (s.events.take m)

/-- After a round each row is the one that the events from before the round make up, and maybe some
that came during it. -/
def Complete (s : World) : Prop := ∀ key, key.lifecycleKey ≠ "" → UpTo s key s.completed

def Current (s : World) (key : LifecycleKey) : Prop :=
  ∃ compactedAt, newest key s.rows = recompute key compactedAt s.events

def Due (rebuildFrom : Time) (events : List EventRow) (key : LifecycleKey) : Prop :=
  ∃ e ∈ events, e.key = key ∧ rebuildFrom ≤ e.observedAt

instance (a : Time) (events : List EventRow) (key : LifecycleKey) : Decidable (Due a events key) :=
  inferInstanceAs (Decidable (∃ e ∈ events, e.key = key ∧ a ≤ e.observedAt))

def Found (watermark : Option Time) (events : List EventRow) (key : LifecycleKey) : Phase → Prop
  | .idle => Due (computeRebuildFrom settings watermark) events key
  | .fetched _ keys maxObserved => key ∉ keys →
    Due (computeRebuildFrom settings (setCompactionWatermark watermark maxObserved)) events key

instance (watermark : Option Time) (events : List EventRow) (key : LifecycleKey) :
    (phase : Phase) → Decidable (Found settings watermark events key phase)
  | .idle => inferInstanceAs (Decidable (Due _ _ _))
  | .fetched _ keys _ => inferInstanceAs (Decidable (key ∉ keys → Due _ _ _))

def Newer (rows : List LifecycleRow) (compactedAt : Time) : Phase → Prop
  | .idle => True
  | .fetched _ keys _ => ∀ r ∈ rows, r.key ∈ keys → r.compactedAt < compactedAt

instance (rows : List LifecycleRow) (compactedAt : Time) :
    (phase : Phase) → Decidable (Newer rows compactedAt phase)
  | .idle => inferInstanceAs (Decidable True)
  | .fetched _ keys _ =>
    inferInstanceAs (Decidable (∀ r ∈ rows, r.key ∈ keys → r.compactedAt < compactedAt))

def Careful (s : World) : Act → Prop
  | .insert e stamp => e.key.lifecycleKey ≠ "" →
    Found settings s.watermark (s.events ++ [observed settings e stamp]) e.key s.phase
  | .recomputeLifecycles compactedAt _ => Newer s.rows compactedAt s.phase
  | .fetchAffectedLifecycleKeys => True

instance (s : World) : (a : Act) → Decidable (Careful settings s a)
  | .insert e stamp => inferInstanceAs (Decidable (e.key.lifecycleKey ≠ "" →
      Found settings s.watermark (s.events ++ [observed settings e stamp]) e.key s.phase))
  | .recomputeLifecycles compactedAt _ =>
    inferInstanceAs (Decidable (Newer s.rows compactedAt s.phase))
  | .fetchAffectedLifecycleKeys => inferInstanceAs (Decidable True)

section Tracking

theorem recomputed_key {compactedAt : Time} {events : List EventRow} {keys : List LifecycleKey} :
    ∀ r ∈ recomputed compactedAt events keys, r.key ∈ keys := by
  intro r hr
  obtain ⟨key, hkey, hrow⟩ := List.mem_filterMap.mp hr
  rw [(recompute_eq_some hrow).1]
  exact hkey

theorem newest_recomputed {rows : List LifecycleRow} {compactedAt : Time} {events : List EventRow}
    {keys : List LifecycleKey} {key : LifecycleKey} (hkey : key ∈ keys)
    (hevents : ∃ e ∈ events, e.key = key)
    (hrows : ∀ r ∈ rows, r.key = key → r.compactedAt < compactedAt) :
    newest key (rows ++ recomputed compactedAt events keys) = recompute key compactedAt events := by
  cases hrow : recompute key compactedAt events with
  | none =>
    obtain ⟨e, he, hekey⟩ := hevents
    exact absurd hekey (under_eq_nil.mp (recompute_eq_none.mp hrow) e he)
  | some row =>
    obtain ⟨hrowkey, hat⟩ := recompute_eq_some hrow
    apply newest_append_later
    · rwa [hat]
    · intro r hr hrkey
      obtain ⟨key', -, hr'⟩ := List.mem_filterMap.mp hr
      obtain rfl : key' = key := (recompute_eq_some hr').1.symm.trans hrkey
      exact Option.some.inj (hr'.symm.trans hrow)
    · exact List.mem_filterMap.mpr ⟨key, hkey, hrow⟩
    · exact hrowkey

theorem newest_recomputed_of_notMem {rows : List LifecycleRow} {compactedAt : Time}
    {events : List EventRow} {keys : List LifecycleKey} {key : LifecycleKey} (hkey : key ∉ keys) :
    newest key (rows ++ recomputed compactedAt events keys) = newest key rows := by
  apply newest_append_of_ne
  rintro r hr rfl
  exact hkey (recomputed_key r hr)

theorem computeRebuildFrom_le (watermark : Option Time) (w : Time) :
    computeRebuildFrom settings watermark ≤
      computeRebuildFrom settings (setCompactionWatermark watermark w) := by
  cases watermark with
  | none => exact Int.le_max_left _ _
  | some v =>
    have hv : v ≤ max v w := Int.le_max_left v w
    have hsub := Int.sub_le_sub_right hv (settings.overlapSeconds * 1000)
    exact Int.max_le.mpr ⟨Int.le_max_left _ _, Int.le_trans hsub (Int.le_max_right _ _)⟩

theorem Due.of_le {a b : Time} {events : List EventRow} {key : LifecycleKey} (h : Due b events key)
    (hab : a ≤ b) : Due a events key := by
  obtain ⟨e, he, hkey, hb⟩ := h
  exact ⟨e, he, hkey, Int.le_trans hab hb⟩

theorem Due.append {a : Time} {events : List EventRow} {key : LifecycleKey} (h : Due a events key)
    (more : List EventRow) : Due a (events ++ more) key := by
  obtain ⟨e, he, hkey, ha⟩ := h
  exact ⟨e, List.mem_append_left more he, hkey, ha⟩

theorem Due.exists_event {a : Time} {events : List EventRow} {key : LifecycleKey}
    (h : Due a events key) : ∃ e ∈ events, e.key = key := by
  obtain ⟨e, he, hkey, -⟩ := h
  exact ⟨e, he, hkey⟩

theorem mem_affected_keys {a : Time} {events : List EventRow} {key : LifecycleKey}
    (hkey : key.lifecycleKey ≠ "") :
    (∃ e ∈ affected a events, e.key = key) ↔ Due a events key := by
  constructor
  · rintro ⟨e, he, rfl⟩
    obtain ⟨hmem, hcond⟩ := List.mem_filter.mp he
    exact ⟨e, hmem, rfl, (of_decide_eq_true hcond).2⟩
  · rintro ⟨e, he, rfl, ha⟩
    exact ⟨e, List.mem_filter.mpr ⟨he, decide_eq_true ⟨hkey, ha⟩⟩, rfl⟩

theorem fetchAffectedLifecycleKeys_eq_some {s t : World}
    (h : fetchAffectedLifecycleKeys settings s = some t) :
    s.phase = .idle ∧
      (affected (computeRebuildFrom settings s.watermark) s.events = [] ∧
          t = { s with completed := s.events.length } ∨
        ∃ maxObserved, t = { s with
          phase := .fetched s.events.length
            ((affected (computeRebuildFrom settings s.watermark) s.events).map EventRow.key).dedup
            maxObserved }) := by
  unfold fetchAffectedLifecycleKeys at h
  cases hphase : s.phase with
  | fetched n keys maxObserved => simp [hphase] at h
  | idle =>
    simp only [hphase] at h
    refine ⟨rfl, ?_⟩
    cases hmax : ((affected (computeRebuildFrom settings s.watermark) s.events).map
        EventRow.observedAt).max? with
    | none =>
      rw [hmax] at h
      have hnone := List.map_eq_nil_iff.mp (List.max?_eq_none_iff.mp hmax)
      exact .inl ⟨hnone, (Option.some.inj h).symm⟩
    | some maxObserved =>
      rw [hmax] at h
      exact .inr ⟨maxObserved, (Option.some.inj h).symm⟩

theorem Current.upTo {s : World} {key : LifecycleKey} (h : Current s key) {n : ℕ}
    (hn : n ≤ s.events.length) : UpTo s key n := by
  obtain ⟨compactedAt, hrow⟩ := h
  refine ⟨s.events.length, compactedAt, hn, Nat.le_refl _, ?_⟩
  rw [hrow, List.take_length]

end Tracking

/-- The round under way began with the first events. The keys that it did not find will be found by
the next round, unless their rows are those of all events. -/
structure Round (s : World) (n : ℕ) (keys : List LifecycleKey) (maxObserved : Time) : Prop where
  began : n ≤ s.events.length
  found : ∀ key ∈ keys, Due (computeRebuildFrom settings s.watermark) s.events key
  other : ∀ key, key.lifecycleKey ≠ "" → key ∉ keys → UpTo s key n ∧ (Current s key ∨
    Due (computeRebuildFrom settings (setCompactionWatermark s.watermark maxObserved)) s.events key)

structure Inv (s : World) : Prop where
  completed : s.completed ≤ s.events.length
  complete : Complete s
  tracked : ∀ key, key.lifecycleKey ≠ "" →
    Current s key ∨ Due (computeRebuildFrom settings s.watermark) s.events key
  round : ∀ n keys maxObserved, s.phase = .fetched n keys maxObserved →
    Round settings s n keys maxObserved

section Steps

variable {settings} {s : World}

theorem inv_initial : Inv settings World.initial := by
  have hcurrent (key : LifecycleKey) : Current World.initial key := ⟨0, rfl⟩
  exact {
    completed := Nat.le_refl 0
    complete := fun key _ => (hcurrent key).upTo (Nat.le_refl 0)
    tracked := fun key _ => .inl (hcurrent key)
    round := by
      intro n keys maxObserved h
      cases h }

section Insert

variable (e : EventRow)

theorem UpTo.insert {key : LifecycleKey} {n : ℕ} (h : UpTo s key n) :
    UpTo { s with events := s.events ++ [e] } key n := by
  obtain ⟨m, compactedAt, hn, hm, hrow⟩ := h
  have hlength : m ≤ (s.events ++ [e]).length := by
    rw [List.length_append]
    exact Nat.le_add_right_of_le hm
  refine ⟨m, compactedAt, hn, hlength, ?_⟩
  rw [hrow, List.take_append_of_le_length hm]

theorem Current.insert {key : LifecycleKey} (h : Current s key) (hkey : e.key ≠ key) :
    Current { s with events := s.events ++ [e] } key := by
  obtain ⟨compactedAt, hrow⟩ := h
  refine ⟨compactedAt, hrow.trans (recompute_congr ?_)⟩
  have hnone : under key [e] = [] := by simpa [under] using hkey
  rw [under_append, hnone, List.append_nil]

theorem tracked_insert {a : Time} {key : LifecycleKey} (h : Current s key ∨ Due a s.events key)
    (hdue : e.key = key → Due a (s.events ++ [e]) key) :
    Current { s with events := s.events ++ [e] } key ∨ Due a (s.events ++ [e]) key := by
  by_cases hkey : e.key = key
  · exact .inr (hdue hkey)
  · exact h.imp (fun hcurrent => hcurrent.insert e hkey) fun hdue => hdue.append [e]

theorem Inv.insert (h : Inv settings s) (stamp : Stamp)
    (hC : Careful settings s (.insert e stamp)) :
    Inv settings { s with events := s.events ++ [observed settings e stamp] } := by
  have hlength {n : ℕ} (hn : n ≤ s.events.length) :
      n ≤ (s.events ++ [observed settings e stamp]).length := by
    rw [List.length_append]
    exact Nat.le_add_right_of_le hn
  have hround : ∀ n keys maxObserved, s.phase = .fetched n keys maxObserved →
      Round settings { s with events := s.events ++ [observed settings e stamp] } n keys
        maxObserved := by
    intro n keys maxObserved hphase
    have hr := h.round n keys maxObserved hphase
    refine ⟨hlength hr.began, fun key hkey => (hr.found key hkey).append _, ?_⟩
    intro key hkey hnot
    obtain ⟨hupTo, htracked⟩ := hr.other key hkey hnot
    refine ⟨hupTo.insert _, tracked_insert _ htracked ?_⟩
    rintro rfl
    have hfound := hC hkey
    rw [hphase] at hfound
    exact hfound hnot
  refine ⟨hlength h.completed, fun key hkey => (h.complete key hkey).insert _, ?_, hround⟩
  intro key hkey
  apply tracked_insert _ (h.tracked key hkey)
  rintro rfl
  have hfound := hC hkey
  cases hphase : s.phase with
  | idle =>
    rw [hphase] at hfound
    exact hfound
  | fetched n keys maxObserved =>
    rw [hphase] at hfound
    by_cases hmem : e.key ∈ keys
    · exact ((h.round n keys maxObserved hphase).found _ hmem).append _
    · exact (hfound hmem).of_le (computeRebuildFrom_le settings s.watermark maxObserved)

end Insert

theorem Inv.fetched_none (h : Inv settings s)
    (hnone : affected (computeRebuildFrom settings s.watermark) s.events = [])
    (hphase : s.phase = .idle) : Inv settings { s with completed := s.events.length } := by
  refine ⟨Nat.le_refl _, fun key hkey => ?_, h.tracked, ?_⟩
  · rcases h.tracked key hkey with hcurrent | hdue
    · exact hcurrent.upTo (Nat.le_refl _)
    · obtain ⟨e, he, -⟩ := (mem_affected_keys hkey).mpr hdue
      rw [hnone] at he
      cases he
  · intro n keys maxObserved hfetched
    cases hphase.symm.trans hfetched

theorem Inv.fetched_some (h : Inv settings s) (maxObserved : Time) :
    Inv settings { s with
      phase := .fetched s.events.length
        ((affected (computeRebuildFrom settings s.watermark) s.events).map EventRow.key).dedup
        maxObserved } := by
  refine ⟨h.completed, h.complete, h.tracked, ?_⟩
  rintro n keys maxObserved' ⟨⟩
  refine ⟨Nat.le_refl _, fun key hkey => ?_, fun key hkey hnot => ?_⟩
  · obtain ⟨e, he, rfl⟩ := List.mem_map.mp (List.mem_dedup.mp hkey)
    obtain ⟨hmem, hcond⟩ := List.mem_filter.mp he
    exact ⟨e, hmem, rfl, (of_decide_eq_true hcond).2⟩
  · have hcurrent : Current s key := by
      apply (h.tracked key hkey).resolve_right
      intro hdue
      obtain ⟨e, he, hekey⟩ := (mem_affected_keys hkey).mpr hdue
      exact hnot (List.mem_dedup.mpr (List.mem_map.mpr ⟨e, he, hekey⟩))
    exact ⟨hcurrent.upTo (Nat.le_refl _), .inl hcurrent⟩

section Recompute

variable {n : ℕ} {keys : List LifecycleKey} {maxObserved compactedAt : Time}

theorem UpTo.recomputed {t : World} {key : LifecycleKey} {m : ℕ} (h : UpTo s key m)
    (hevents : t.events = s.events)
    (hrows : t.rows = s.rows ++ Message.recomputed compactedAt s.events keys)
    (hkey : key ∉ keys) : UpTo t key m := by
  obtain ⟨k, writtenAt, hm, hk, hrow⟩ := h
  refine ⟨k, writtenAt, hm, by rwa [hevents], ?_⟩
  rw [hrows, hevents, newest_recomputed_of_notMem hkey, hrow]

theorem Current.recomputed {t : World} {key : LifecycleKey} (h : Current s key)
    (hevents : t.events = s.events)
    (hrows : t.rows = s.rows ++ Message.recomputed compactedAt s.events keys)
    (hkey : key ∉ keys) : Current t key := by
  obtain ⟨writtenAt, hrow⟩ := h
  refine ⟨writtenAt, ?_⟩
  rw [hrows, hevents, newest_recomputed_of_notMem hkey, hrow]

theorem Round.newest (h : Round settings s n keys maxObserved) {written : List LifecycleKey}
    {key : LifecycleKey} (hclock : ∀ r ∈ s.rows, r.key ∈ keys → r.compactedAt < compactedAt)
    (hkey : key ∈ keys) (hwritten : key ∈ written) :
    Message.newest key (s.rows ++ Message.recomputed compactedAt s.events written) =
      recompute key compactedAt s.events := by
  apply newest_recomputed hwritten (h.found key hkey).exists_event
  rintro r hr rfl
  exact hclock r hr hkey

theorem Inv.done (h : Inv settings s) (hphase : s.phase = .fetched n keys maxObserved)
    (hclock : ∀ r ∈ s.rows, r.key ∈ keys → r.compactedAt < compactedAt) :
    Inv settings { s with
      rows := s.rows ++ recomputed compactedAt s.events keys
      watermark := setCompactionWatermark s.watermark maxObserved
      phase := .idle
      completed := n } := by
  have hr := h.round n keys maxObserved hphase
  refine ⟨hr.began, fun key hkey => ?_, fun key hkey => ?_, fun _ _ _ hidle => by cases hidle⟩
  · by_cases hmem : key ∈ keys
    · exact Current.upTo ⟨compactedAt, hr.newest hclock hmem hmem⟩ hr.began
    · exact (hr.other key hkey hmem).1.recomputed rfl rfl hmem
  · by_cases hmem : key ∈ keys
    · exact .inl ⟨compactedAt, hr.newest hclock hmem hmem⟩
    · exact (hr.other key hkey hmem).2.imp_left fun hcurrent => hcurrent.recomputed rfl rfl hmem

theorem Inv.failed (h : Inv settings s) (hphase : s.phase = .fetched n keys maxObserved)
    (hclock : ∀ r ∈ s.rows, r.key ∈ keys → r.compactedAt < compactedAt)
    (written : List LifecycleKey) :
    Inv settings { s with
      rows := s.rows ++ recomputed compactedAt s.events (keys.filter (· ∈ written))
      phase := .idle } := by
  have hr := h.round n keys maxObserved hphase
  refine ⟨h.completed, fun key hkey => ?_, fun key hkey => ?_, fun _ _ _ hidle => by cases hidle⟩
  · by_cases hmem : key ∈ keys.filter (· ∈ written)
    · have hkeys := (List.mem_filter.mp hmem).1
      exact Current.upTo ⟨compactedAt, hr.newest hclock hkeys hmem⟩ h.completed
    · exact (h.complete key hkey).recomputed rfl rfl hmem
  · by_cases hmem : key ∈ keys.filter (· ∈ written)
    · have hkeys := (List.mem_filter.mp hmem).1
      exact .inl ⟨compactedAt, hr.newest hclock hkeys hmem⟩
    · exact (h.tracked key hkey).imp_left fun hcurrent => hcurrent.recomputed rfl rfl hmem

end Recompute

theorem inv_step (s : World) (a : Act) (t : World) (h : Inv settings s)
    (hC : Careful settings s a) (ht : step settings s a = some t) : Inv settings t := by
  cases a with
  | insert e stamp =>
    obtain rfl := Option.some.inj ht
    exact h.insert e stamp hC
  | fetchAffectedLifecycleKeys =>
    obtain ⟨hphase, ⟨hnone, rfl⟩ | ⟨maxObserved, rfl⟩⟩ :=
      fetchAffectedLifecycleKeys_eq_some settings ht
    · exact h.fetched_none hnone hphase
    · exact h.fetched_some maxObserved
  | recomputeLifecycles compactedAt outcome =>
    simp only [step, recomputeLifecycles] at ht
    cases hphase : s.phase with
    | idle =>
      rw [hphase] at ht
      cases ht
    | fetched n keys maxObserved =>
      rw [hphase] at ht
      have hnewer : Newer s.rows compactedAt s.phase := hC
      rw [hphase] at hnewer
      cases outcome with
      | done =>
        obtain rfl := Option.some.inj ht
        exact h.done hphase hnewer
      | failed written =>
        obtain rfl := Option.some.inj ht
        exact h.failed hphase hnewer written

theorem compaction_complete {schedule : List Act} {t : World}
    (hrun : (compactor settings).exec World.initial schedule = some t)
    (hmeets : (compactor settings).Meets (Careful settings) World.initial schedule) :
    Complete t :=
  ((compactor settings).exec_invariant inv_step inv_initial hmeets hrun).complete

end Steps

namespace Sample

def sampleSettings : CompactionSettings :=
  { fromIsoFormat := fun text => if text = "2020-01-01T00:00:00Z" then some 1577836800000 else none
    overlapSeconds := 300 }

def sampleKey (lifecycleKey : String) : LifecycleKey :=
  { system := "rabbitmq", destinationName := "inbox", destinationKind := "queue"
    virtualHost := "", lifecycleKey }

def sampleEvent (logId lifecycleKey : String) : EventRow :=
  { logId, timestamp := 1000, observedAt := 0, aic := "a", traceId := "", correlationId := ""
    eventType := "send", key := sampleKey lifecycleKey, subscriptionName := ""
    consumerGroupName := "", messageId := "m", deliveryAttempt := none, settlementReason := "" }

def stamped (observedTimestamp : Option String) (now : Time) : Stamp :=
  { logAppendTime := none, observedTimestamp, now }

def round (compactedAt : Time) : List Act :=
  [.fetchAffectedLifecycleKeys, .recomputeLifecycles compactedAt .done]

def backdated : List Act :=
  .insert (sampleEvent "e" "k") (stamped none 1700000000000) :: round 1700000001000 ++
    .insert (sampleEvent "f" "l") (stamped (some "2020-01-01T00:00:00Z") 1700000002000) ::
      round 1700000003000

def overtaken : List Act :=
  [.insert (sampleEvent "e" "k") (stamped none 1700000000000), .fetchAffectedLifecycleKeys,
    .insert (sampleEvent "f" "l") (stamped none 1700000001000),
    .recomputeLifecycles 1700000002000 (.failed [])] ++ round 1700000003000

end Sample

theorem backdated_event_missed :
    ∃ t, (compactor Sample.sampleSettings).exec World.initial Sample.backdated = some t ∧
      ¬ Complete t := by
  have hends : ((compactor Sample.sampleSettings).exec World.initial Sample.backdated).any
      (fun t => t.completed = 2 ∧ t.events.length = 2 ∧
        newest (Sample.sampleKey "l") t.rows = none ∧
        under (Sample.sampleKey "l") t.events ≠ []) = true := by decide +kernel
  obtain ⟨t, ht, hend⟩ := (Option.any_eq_true _ _).mp hends
  obtain ⟨hcompleted, hlength, hnewest, hunder⟩ := of_decide_eq_true hend
  refine ⟨t, ht, fun hcomplete => hunder ?_⟩
  obtain ⟨m, compactedAt, hm, hle, hrow⟩ := hcomplete (Sample.sampleKey "l") (by decide)
  have hall : t.events.take m = t.events :=
    List.take_of_length_le (by rw [hlength, ← hcompleted]; exact hm)
  rw [hnewest, hall] at hrow
  exact recompute_eq_none.mp hrow.symm

theorem overtaken_complete :
    ∃ t, (compactor Sample.sampleSettings).exec World.initial Sample.overtaken = some t ∧
      t.completed = 2 ∧ Complete t := by
  have hends : ((compactor Sample.sampleSettings).exec World.initial Sample.overtaken).any
      (fun t => t.completed = 2) = true := by decide +kernel
  obtain ⟨t, ht, hend⟩ := (Option.any_eq_true _ _).mp hends
  refine ⟨t, ht, of_decide_eq_true hend, compaction_complete ht ?_⟩
  exact (compactor Sample.sampleSettings).meets_of_check (fun _ _ h => of_decide_eq_true h)
    (show (compactor Sample.sampleSettings).check
      (fun s a => decide (Careful Sample.sampleSettings s a)) World.initial Sample.overtaken = true
      by decide +kernel)

end Acps.Message
