import Acps.Metrics.Writer

/-!
Below a committed offset the samples of every message have been accepted, so long as no batch claims
an identifier that an ended run has left claimed.
-/

namespace Acps.Metrics

open Transition

variable {P Sample : Type} (C : Codec Sample) (s t : World P Sample)

def Valid (p : P) (i : ℕ) (r : PreparedRecord Sample) : Prop :=
  ∃ message, (s.log p)[i]? = some message ∧ C.parse message = .record r

def Written (r : PreparedRecord Sample) : Prop := ∀ x ∈ r.samples, x ∈ s.accepted

def KeyWritten (logId : String) : Prop := ∃ p i r, Valid C s p i r ∧ r.logId = logId ∧ Written s r

def Same : Prop := ∀ p i r q j old, Valid C s p i r → Valid C s q j old → old.logId = r.logId →
  old.samples = r.samples

def PhaseOk : Prop :=
  match s.phase with
  | .polling | .released => True
  | .claimed kept => (∀ r ∈ kept, r ∈ s.pending) ∧ ∀ r ∈ s.pending, r ∈ kept ∨ Written s r
  | .refused kept applied =>
    (∀ r ∈ kept, r ∈ s.pending) ∧ (applied = true → ∀ r ∈ kept, Written s r)
  | .written _ | .cached => ∀ r ∈ s.pending, Written s r

structure Tracked : Prop where
  same : Same C s
  taken : ∀ p i r, i < s.position p → Valid C s p i r → Written s r ∨ r ∈ s.pending
  committed : ∀ p c, s.committed p = some c → ∀ i < c, ∀ r, Valid C s p i r → Written s r
  origin : ∀ r ∈ s.pending, ∃ p i, Valid C s p i r
  keys : ∀ k ∈ s.keys, k ∈ s.orphans ∨ k ∈ inFlight s ∨ KeyWritten C s k
  position : ∀ p, s.position p ≤ (s.log p).length
  bound : ∀ p c, s.committed p = some c → c ≤ (s.log p).length
  phase : PhaseOk s

def Careful (s : World P Sample) : Act P → Prop
  | .append _ message => ∀ r, C.parse message = .record r →
    ∀ q i old, Valid C s q i old → old.logId = r.logId → old.samples = r.samples
  | .claimLogIds => ∀ r ∈ s.pending, r.logId ∉ s.orphans
  | _ => True

variable {C s t}

theorem Written.grow {r : PreparedRecord Sample} (h : Written s r)
    (haccepted : ∀ x ∈ s.accepted, x ∈ t.accepted) : Written t r :=
  fun x hx => haccepted x (h x hx)

theorem KeyWritten.grow {k : String} (h : KeyWritten C s k) (hlog : t.log = s.log)
    (haccepted : ∀ x ∈ s.accepted, x ∈ t.accepted) : KeyWritten C t k := by
  obtain ⟨p, i, r, hvalid, hkey, hwritten⟩ := h
  refine ⟨p, i, r, ?_, hkey, hwritten.grow haccepted⟩
  unfold Valid
  rw [hlog]
  exact hvalid

theorem mem_logIds {records : List (PreparedRecord Sample)} {k : String} :
    k ∈ logIds records ↔ ∃ r ∈ records, r.logId = k := List.mem_map

theorem written_of_keyWritten (hsame : Same C s) {p : P} {i : ℕ} {r : PreparedRecord Sample}
    (hr : Valid C s p i r) (h : KeyWritten C s r.logId) : Written s r := by
  obtain ⟨q, j, old, hold, hkey, hwritten⟩ := h
  intro x hx
  apply hwritten
  rw [hsame p i r q j old hr hold hkey]
  exact hx

structure Restarted (s t : World P Sample) : Prop where
  log : t.log = s.log
  committed : t.committed = s.committed
  position : ∀ p, t.position p = (s.committed p).getD 0
  pending : t.pending = []
  phase : t.phase = .polling
  accepted : ∀ x ∈ s.accepted, x ∈ t.accepted

theorem Tracked.restart (h : Tracked C s) (hrestarted : Restarted s t)
    (hkeys : ∀ k ∈ t.keys, k ∈ t.orphans ∨ KeyWritten C t k) : Tracked C t := by
  have hvalid {p : P} {i : ℕ} {r : PreparedRecord Sample} : Valid C t p i r ↔ Valid C s p i r := by
    unfold Valid
    rw [hrestarted.log]
  have hcommitted : ∀ p c, t.committed p = some c → ∀ i < c, ∀ r, Valid C t p i r →
      Written t r := by
    intro p c hc i hi r hr
    rw [hrestarted.committed] at hc
    exact (h.committed p c hc i hi r (hvalid.mp hr)).grow hrestarted.accepted
  refine ⟨?_, ?_, hcommitted, ?_, ?_, ?_, ?_, ?_⟩
  · intro p i r q j old hr hold
    exact h.same p i r q j old (hvalid.mp hr) (hvalid.mp hold)
  · intro p i r hi hr
    left
    rw [hrestarted.position] at hi
    cases hc : s.committed p with
    | none =>
      rw [hc] at hi
      exact (Nat.not_lt_zero i hi).elim
    | some c =>
      rw [hc] at hi
      exact hcommitted p c (by rw [hrestarted.committed, hc]) i hi r hr
  · intro r hr
    rw [hrestarted.pending] at hr
    cases hr
  · intro k hk
    rcases hkeys k hk with horphan | hwritten
    · exact .inl horphan
    · exact .inr (.inr hwritten)
  · intro p
    rw [hrestarted.position, hrestarted.log]
    cases hc : s.committed p with
    | none => exact Nat.zero_le _
    | some c => exact h.bound p c hc
  · intro p c hc
    rw [hrestarted.committed] at hc
    rw [hrestarted.log]
    exact h.bound p c hc
  · unfold PhaseOk
    rw [hrestarted.phase]
    trivial

theorem keyWritten_of_mem (h : Tracked C s) {kept : List (PreparedRecord Sample)}
    (hkept : ∀ r ∈ kept, r ∈ s.pending) (hlog : t.log = s.log) (hwritten : ∀ r ∈ kept, Written t r)
    {k : String} (hk : k ∈ logIds kept) : KeyWritten C t k := by
  obtain ⟨r, hr, rfl⟩ := mem_logIds.mp hk
  obtain ⟨p, i, message, hmessage, hparse⟩ := h.origin r (hkept r hr)
  refine ⟨p, i, r, ⟨message, ?_, hparse⟩, rfl, hwritten r hr⟩
  rw [hlog]
  exact hmessage

theorem written_allSamples {kept : List (PreparedRecord Sample)} {accepted : List Sample}
    (haccepted : t.accepted = accepted ++ allSamples kept) {r : PreparedRecord Sample}
    (hr : r ∈ kept) : Written t r := by
  intro x hx
  rw [haccepted]
  exact List.mem_append_right _ (List.mem_flatMap.mpr ⟨r, hr, hx⟩)

theorem mem_unclaimed {records : List (PreparedRecord Sample)} {r : PreparedRecord Sample} :
    r ∈ unclaimed s records ↔ r ∈ records ∧ r.logId ∉ s.keys := by
  unfold unclaimed
  rw [List.mem_filter, decide_eq_true_eq]

theorem tracked_claimLogIds (h : Tracked C s) (hcareful : Careful C s .claimLogIds)
    (hstep : claimLogIds s = some t) : Tracked C t := by
  unfold claimLogIds at hstep
  split at hstep
  next hphase hpending =>
    obtain rfl := Option.some.inj hstep
    have hkept : ∀ r ∈ unclaimed s s.pending, r ∈ s.pending := fun r hr => (mem_unclaimed.mp hr).1
    have hnoFlight : inFlight s = [] := by
      unfold inFlight
      rw [hphase]
    -- What was claimed before is written, as no run has left it claimed.
    have hskipped : ∀ r ∈ s.pending, r ∈ unclaimed s s.pending ∨ Written s r := by
      intro r hr
      by_cases hkey : r.logId ∈ s.keys
      · right
        obtain ⟨p, i, hvalid⟩ := h.origin r hr
        rcases h.keys _ hkey with horphan | hflight | hwritten
        · exact (hcareful r hr horphan).elim
        · rw [hnoFlight] at hflight
          cases hflight
        · exact written_of_keyWritten h.same hvalid hwritten
      · exact .inl (mem_unclaimed.mpr ⟨hr, hkey⟩)
    refine ⟨h.same, h.taken, h.committed, h.origin, ?_, h.position, h.bound, ?_⟩
    · intro k hk
      rcases List.mem_append.mp hk with hk | hk
      · rcases h.keys k hk with horphan | hflight | hwritten
        · exact .inl horphan
        · rw [hnoFlight] at hflight
          cases hflight
        · exact .inr (.inr hwritten)
      · right
        left
        obtain ⟨r, hr, -⟩ := mem_logIds.mp hk
        have hsome : unclaimed s s.pending ≠ [] := List.ne_nil_of_mem hr
        unfold inFlight
        dsimp only
        rw [if_neg hsome]
        exact hk
    · unfold PhaseOk
      dsimp only
      by_cases hnil : unclaimed s s.pending = []
      · rw [if_pos hnil]
        intro r hr
        rcases hskipped r hr with hr | hwritten
        · rw [hnil] at hr
          cases hr
        · exact hwritten
      · rw [if_neg hnil]
        exact ⟨hkept, hskipped⟩
  next => cases hstep

theorem tracked_claimRaises (h : Tracked C s) {done : ℕ}
    (hstep : claimRaises s done = some t) : Tracked C t := by
  unfold claimRaises at hstep
  split at hstep
  next hphase =>
    obtain rfl := Option.some.inj hstep
    refine h.restart ?_ ?_
    · exact ⟨rfl, rfl, fun _ => rfl, rfl, rfl, fun _ hx => hx⟩
    intro k hk
    rcases List.mem_append.mp hk with hk | hk
    · rcases h.keys k hk with horphan | hflight | hwritten
      · exact .inl (List.mem_append_left _ horphan)
      · unfold inFlight at hflight
        rw [hphase] at hflight
        cases hflight
      · exact .inr hwritten
    · exact .inl (List.mem_append_right _ hk)
  next => cases hstep

theorem tracked_remoteWrite (h : Tracked C s) {outcome : WriteOutcome}
    (hstep : remoteWrite s outcome = some t) : Tracked C t := by
  unfold remoteWrite at hstep
  split at hstep
  next kept hphase =>
    have hok := h.phase
    unfold PhaseOk at hok
    rw [hphase] at hok
    obtain ⟨hkept, hpending⟩ := hok
    have hflight : inFlight s = logIds kept := by
      unfold inFlight
      rw [hphase]
    have hgrow : ∀ x ∈ s.accepted, x ∈ s.accepted ++ allSamples kept :=
      fun x hx => List.mem_append_left _ hx
    -- Accepted, the claimed identifiers are those of written messages.
    have haccepted {u : World P Sample} (hlog : u.log = s.log) (horphans : u.orphans = s.orphans)
        (hu : u.accepted = s.accepted ++ allSamples kept) (k : String) (hk : k ∈ s.keys) :
        k ∈ u.orphans ∨ KeyWritten C u k := by
      have hsub : ∀ x ∈ s.accepted, x ∈ u.accepted := by
        rw [hu]
        exact hgrow
      rcases h.keys k hk with horphan | hmem | hwritten
      · rw [horphans]
        exact .inl horphan
      · rw [hflight] at hmem
        exact .inr (keyWritten_of_mem h hkept hlog (fun r hr => written_allSamples hu hr) hmem)
      · exact .inr (hwritten.grow hlog hsub)
    cases outcome with
    | accepted =>
      have ht := Option.some.inj hstep
      have hkeys : ∀ k ∈ s.keys, k ∈ t.orphans ∨ KeyWritten C t k := fun k hk =>
        haccepted (by rw [← ht]) (by rw [← ht]) (by rw [← ht]) k hk
      subst ht
      refine ⟨h.same, ?_, ?_, h.origin, ?_, h.position, h.bound, ?_⟩
      · exact fun p i r hi hr => (h.taken p i r hi hr).imp_left fun hw => hw.grow hgrow
      · exact fun p c hc i hi r hr => (h.committed p c hc i hi r hr).grow hgrow
      · exact fun k hk => (hkeys k hk).imp_right .inr
      · intro r hr
        rcases hpending r hr with hmem | hwritten
        · exact written_allSamples rfl hmem
        · exact hwritten.grow hgrow
    | refused applied =>
      cases applied with
      | true =>
        have ht := Option.some.inj hstep
        have hkeys : ∀ k ∈ s.keys, k ∈ t.orphans ∨ KeyWritten C t k := fun k hk =>
          haccepted (by rw [← ht]) (by rw [← ht]) (by rw [← ht]; rfl) k hk
        subst ht
        refine ⟨h.same, ?_, ?_, h.origin, ?_, h.position, h.bound, ?_⟩
        · exact fun p i r hi hr => (h.taken p i r hi hr).imp_left fun hw => hw.grow hgrow
        · exact fun p c hc i hi r hr => (h.committed p c hc i hi r hr).grow hgrow
        · exact fun k hk => (hkeys k hk).imp_right .inr
        · exact ⟨hkept, fun _ r hr => written_allSamples rfl hr⟩
      | false =>
        obtain rfl := Option.some.inj hstep
        refine ⟨h.same, h.taken, h.committed, h.origin, ?_, h.position, h.bound, ?_⟩
        · intro k hk
          rcases h.keys k hk with horphan | hmem | hwritten
          · exact .inl horphan
          · rw [hflight] at hmem
            exact .inr (.inl hmem)
          · exact .inr (.inr hwritten)
        · exact ⟨hkept, fun happlied => by cases happlied⟩
    | raised applied =>
      obtain rfl := Option.some.inj hstep
      cases applied with
      | true =>
        refine h.restart ?_ ?_
        · exact ⟨rfl, rfl, fun _ => rfl, rfl, rfl, hgrow⟩
        · exact haccepted rfl (List.append_nil _) rfl
      | false =>
        refine h.restart ?_ ?_
        · exact ⟨rfl, rfl, fun _ => rfl, rfl, rfl, fun _ hx => hx⟩
        intro k hk
        rcases h.keys k hk with horphan | hmem | hwritten
        · exact .inl (List.mem_append_left _ horphan)
        · rw [hflight] at hmem
          exact .inl (List.mem_append_right _ hmem)
        · exact .inr hwritten
  next => cases hstep

theorem keys_of_idle (h : Tracked C s) (hidle : inFlight s = []) {k : String} (hk : k ∈ s.keys) :
    k ∈ s.orphans ∨ KeyWritten C s k := by
  rcases h.keys k hk with horphan | hflight | hwritten
  · exact .inl horphan
  · rw [hidle] at hflight
    cases hflight
  · exact .inr hwritten

theorem inFlight_of_refused {kept : List (PreparedRecord Sample)} {applied : Bool}
    (hphase : s.phase = .refused kept applied) :
    inFlight s = if applied then [] else logIds kept := by
  unfold inFlight
  rw [hphase]
  cases applied <;> rfl

theorem tracked_releaseLogIds (h : Tracked C s) (hstep : releaseLogIds s = some t) :
    Tracked C t := by
  unfold releaseLogIds at hstep
  split at hstep
  next kept applied hphase =>
    obtain rfl := Option.some.inj hstep
    refine ⟨h.same, h.taken, h.committed, h.origin, ?_, h.position, h.bound, trivial⟩
    intro k hk
    obtain ⟨hk, hfree⟩ := List.mem_filter.mp hk
    rcases h.keys k hk with horphan | hflight | hwritten
    · exact .inl horphan
    · rw [inFlight_of_refused hphase] at hflight
      cases applied with
      | true => cases hflight
      | false => exact absurd hflight (of_decide_eq_true hfree)
    · exact .inr (.inr hwritten)
  next => cases hstep

theorem tracked_releaseRaises (h : Tracked C s) {done : ℕ} (hstep : releaseRaises s done = some t) :
    Tracked C t := by
  unfold releaseRaises at hstep
  split at hstep
  next kept applied hphase =>
    obtain rfl := Option.some.inj hstep
    refine h.restart ?_ ?_
    · exact ⟨rfl, rfl, fun _ => rfl, rfl, rfl, fun _ hx => hx⟩
    intro k hk
    obtain ⟨hk, hfree⟩ := List.mem_filter.mp hk
    rcases h.keys k hk with horphan | hflight | hwritten
    · exact .inl (List.mem_append_left _ horphan)
    · rw [inFlight_of_refused hphase] at hflight
      cases applied with
      | true => cases hflight
      | false => exact .inl (List.mem_append_right _ (List.mem_filter.mpr ⟨hflight, hfree⟩))
    · exact .inr hwritten
  next => cases hstep

theorem tracked_seekToCommitted (h : Tracked C s) (hphase : s.phase = .released) :
    Tracked C (seekToCommitted s) := by
  refine h.restart ?_ ?_
  · exact ⟨rfl, rfl, fun _ => rfl, rfl, rfl, fun _ hx => hx⟩
  · intro k hk
    apply keys_of_idle h _ hk
    unfold inFlight
    rw [hphase]

theorem tracked_crash (h : Tracked C s) : Tracked C (restart s (inFlight s)) := by
  refine h.restart ?_ ?_
  · exact ⟨rfl, rfl, fun _ => rfl, rfl, rfl, fun _ hx => hx⟩
  · intro k hk
    rcases h.keys k hk with horphan | hflight | hwritten
    · exact .inl (List.mem_append_left _ horphan)
    · exact .inl (List.mem_append_right _ hflight)
    · exact .inr hwritten

theorem tracked_updateCache (h : Tracked C s) (hstep : updateCache s = some t) : Tracked C t := by
  unfold updateCache at hstep
  split at hstep
  next kept hphase =>
    obtain rfl := Option.some.inj hstep
    have hok := h.phase
    unfold PhaseOk at hok
    rw [hphase] at hok
    have hidle : inFlight s = [] := by
      unfold inFlight
      rw [hphase]
    refine ⟨h.same, h.taken, h.committed, h.origin, ?_, h.position, h.bound, hok⟩
    exact fun k hk => (keys_of_idle h hidle hk).imp_right .inr
  next => cases hstep

theorem tracked_commit (h : Tracked C s) (hstep : commit s = some t) : Tracked C t := by
  unfold commit at hstep
  split at hstep
  next hphase =>
    obtain rfl := Option.some.inj hstep
    have hok := h.phase
    unfold PhaseOk at hok
    rw [hphase] at hok
    have hidle : inFlight s = [] := by
      unfold inFlight
      rw [hphase]
    have hwritten (p : P) (i : ℕ) (r : PreparedRecord Sample) (hi : i < s.position p)
        (hr : Valid C s p i r) : Written s r := (h.taken p i r hi hr).elim id (hok r)
    refine ⟨h.same, fun p i r hi hr => .inl (hwritten p i r hi hr), ?_, ?_, ?_, h.position, ?_,
      trivial⟩
    · intro p c hc i hi r hr
      obtain rfl := Option.some.inj hc
      exact hwritten p i r hi hr
    · exact fun r hr => absurd hr List.not_mem_nil
    · exact fun k hk => (keys_of_idle h hidle hk).imp_right .inr
    · intro p c hc
      obtain rfl := Option.some.inj hc
      exact h.position p
  next => cases hstep

theorem tracked_expire (h : Tracked C s) (logId : String) :
    Tracked C { s with
      keys := s.keys.filter (· ≠ logId), orphans := s.orphans.filter (· ≠ logId) } := by
  refine ⟨h.same, h.taken, h.committed, h.origin, ?_, h.position, h.bound, h.phase⟩
  intro k hk
  obtain ⟨hk, hne⟩ := List.mem_filter.mp hk
  exact (h.keys k hk).imp_left fun horphan => List.mem_filter.mpr ⟨horphan, hne⟩

theorem tracked_initial : Tracked C (.initial : World P Sample) := by
  have hempty {p : P} {i : ℕ} {r : PreparedRecord Sample}
      (hr : Valid C (.initial : World P Sample) p i r) : False := by
    obtain ⟨message, hmessage, -⟩ := hr
    cases hmessage
  refine ⟨?_, ?_, ?_, ?_, ?_, ?_, ?_, trivial⟩
  · exact fun p i r q j old hr _ _ => (hempty hr).elim
  · exact fun p i r _ hr => (hempty hr).elim
  · exact fun p c hc => by cases hc
  · exact fun r hr => absurd hr List.not_mem_nil
  · exact fun k hk => absurd hk List.not_mem_nil
  · exact fun p => Nat.le_refl _
  · exact fun p c hc => by cases hc

section Steps

variable [DecidableEq P]

theorem tracked_append (h : Tracked C s) {p : P} {message : Message}
    (hcareful : Careful C s (.append p message)) :
    Tracked C { s with log := Function.update s.log p (s.log p ++ [message]) } := by
  set t : World P Sample := { s with log := Function.update s.log p (s.log p ++ [message]) } with ht
  have hgrow {q : P} {i : ℕ} {r : PreparedRecord Sample} (hr : Valid C s q i r) :
      Valid C t q i r := by
    obtain ⟨m, hm, hparse⟩ := hr
    refine ⟨m, ?_, hparse⟩
    by_cases hq : q = p
    · have hlog : t.log q = s.log p ++ [message] := by rw [hq]; exact Function.update_self ..
      rw [hq] at hm
      rw [hlog, List.getElem?_append_left (List.getElem?_eq_some_iff.mp hm).1, hm]
    · have hlog : t.log q = s.log q := Function.update_of_ne hq ..
      rw [hlog, hm]
  have hold {q : P} {i : ℕ} {r : PreparedRecord Sample} (hr : Valid C t q i r) :
      Valid C s q i r ∨ q = p ∧ i = (s.log p).length ∧ C.parse message = .record r := by
    obtain ⟨m, hm, hparse⟩ := hr
    by_cases hq : q = p
    · have hlog : t.log q = s.log p ++ [message] := by rw [hq]; exact Function.update_self ..
      rw [hlog] at hm
      rcases Nat.lt_or_ge i (s.log p).length with hi | hi
      · left
        rw [List.getElem?_append_left hi] at hm
        rw [hq]
        exact ⟨m, hm, hparse⟩
      · right
        obtain ⟨hlength, hget⟩ := List.getElem?_eq_some_iff.mp hm
        rw [List.length_append, List.length_singleton] at hlength
        have hi' : i = (s.log p).length := by omega
        refine ⟨hq, hi', ?_⟩
        rw [hi', List.getElem?_concat_length] at hm
        rw [Option.some.inj hm]
        exact hparse
    · left
      have hlog : t.log q = s.log q := Function.update_of_ne hq ..
      rw [hlog] at hm
      exact ⟨m, hm, hparse⟩
  have hlength (q : P) : (s.log q).length ≤ (t.log q).length := by
    by_cases hq : q = p
    · have hlog : t.log q = s.log p ++ [message] := by rw [hq]; exact Function.update_self ..
      rw [hlog, hq, List.length_append]
      exact Nat.le_add_right _ _
    · have hlog : t.log q = s.log q := Function.update_of_ne hq ..
      exact Nat.le_of_eq (congrArg List.length hlog).symm
  refine ⟨?_, ?_, ?_, ?_, ?_, ?_, ?_, h.phase⟩
  · intro q i r q' j old hr hr' hkey
    rcases hold hr with hr | ⟨-, -, hr⟩
    · rcases hold hr' with hr' | ⟨-, -, hr'⟩
      · exact h.same q i r q' j old hr hr' hkey
      · exact (hcareful old hr' q i r hr hkey.symm).symm
    · rcases hold hr' with hr' | ⟨-, -, hr'⟩
      · exact hcareful r hr q' j old hr' hkey
      · rw [hr] at hr'
        rw [Parsed.record.inj hr']
  · intro q i r hi hr
    rcases hold hr with hr | ⟨hq, hlast, -⟩
    · exact h.taken q i r hi hr
    · have hposition := h.position q
      change i < s.position q at hi
      rw [hq] at hi hposition
      omega
  · intro q c hc i hi r hr
    rcases hold hr with hr | ⟨hq, hlast, -⟩
    · exact h.committed q c hc i hi r hr
    · have hbound := h.bound q c hc
      rw [hq] at hbound
      omega
  · intro r hr
    obtain ⟨q, i, hvalid⟩ := h.origin r hr
    exact ⟨q, i, hgrow hvalid⟩
  · intro k hk
    rcases h.keys k hk with horphan | hflight | ⟨q, i, r, hr, hkey, hwritten⟩
    · exact .inl horphan
    · exact .inr (.inl hflight)
    · exact .inr (.inr ⟨q, i, r, hgrow hr, hkey, hwritten⟩)
  · exact fun q => Nat.le_trans (h.position q) (hlength q)
  · exact fun q c hc => Nat.le_trans (h.bound q c hc) (hlength q)

theorem tracked_consume (h : Tracked C s) {p : P} {dlqUp : Bool}
    (hstep : consume C s p dlqUp = some t) : Tracked C t := by
  unfold consume at hstep
  split at hstep
  next message hphase hmessage =>
    obtain ⟨hlt, -⟩ := List.getElem?_eq_some_iff.mp hmessage
    have hposition : ∀ q, Function.update s.position p (s.position p + 1) q ≤ (s.log q).length := by
      intro q
      by_cases hq : q = p
      · rw [hq, Function.update_self]
        exact hlt
      · rw [Function.update_of_ne hq]
        exact h.position q
    have htaken (q : P) (i : ℕ) (hi : i < Function.update s.position p (s.position p + 1) q) :
        i < s.position q ∨ q = p ∧ i = s.position p := by
      by_cases hq : q = p
      · rw [hq, Function.update_self] at hi
        rw [hq]
        exact (Nat.lt_succ_iff_lt_or_eq.mp hi).imp_right fun hlast => ⟨rfl, hlast⟩
      · rw [Function.update_of_ne hq] at hi
        exact .inl hi
    have hphaseOk {u : World P Sample} (hu : u.phase = s.phase) : PhaseOk u := by
      unfold PhaseOk
      rw [hu, hphase]
      trivial
    dsimp only at hstep
    -- A message without samples needs no place in the buffer.
    have hnone (hparse : ∀ r, C.parse message ≠ .record r) (q : P) (i : ℕ)
        (r : PreparedRecord Sample)
        (hi : i < Function.update s.position p (s.position p + 1) q) (hr : Valid C s q i r) :
        Written s r ∨ r ∈ s.pending := by
      rcases htaken q i hi with hi | ⟨rfl, rfl⟩
      · exact h.taken q i r hi hr
      · obtain ⟨m, hm, hrecord⟩ := hr
        rw [hmessage] at hm
        rw [← Option.some.inj hm] at hrecord
        exact (hparse r hrecord).elim
    split at hstep
    next hparse =>
      obtain rfl := Option.some.inj hstep
      exact ⟨h.same, hnone (by rw [hparse]; intro r hr; cases hr), h.committed, h.origin, h.keys,
        hposition, h.bound, hphaseOk rfl⟩
    next hparse =>
      obtain rfl := Option.some.inj hstep
      have hinvalid := hnone (by rw [hparse]; intro r hr; cases hr)
      cases dlqUp with
      | false => exact ⟨h.same, hinvalid, h.committed, h.origin, h.keys, hposition, h.bound,
          hphaseOk rfl⟩
      | true => exact ⟨h.same, hinvalid, h.committed, h.origin, h.keys, hposition, h.bound,
          hphaseOk rfl⟩
    next record hparse =>
      obtain rfl := Option.some.inj hstep
      refine ⟨h.same, ?_, h.committed, ?_, h.keys, hposition, h.bound, hphaseOk rfl⟩
      · intro q i r hi hr
        rcases htaken q i hi with hi | ⟨rfl, rfl⟩
        · exact (h.taken q i r hi hr).imp_right fun hmem => List.mem_append_left _ hmem
        · right
          obtain ⟨m, hm, hrecord⟩ := hr
          have hsame : message = m := Option.some.inj (hmessage.symm.trans hm)
          rw [← hsame, hparse] at hrecord
          rw [← Parsed.record.inj hrecord]
          exact List.mem_append_right _ (List.mem_singleton_self _)
      · intro r hr
        rcases List.mem_append.mp hr with hr | hr
        · exact h.origin r hr
        · rw [List.mem_singleton.mp hr]
          exact ⟨p, s.position p, message, hmessage, hparse⟩
  next => cases hstep

theorem tracked_step (h : Tracked C s) {a : Act P} (hcareful : Careful C s a)
    (hstep : (writer C).step s a = some t) : Tracked C t := by
  cases a with
  | append p message =>
    obtain rfl := Option.some.inj hstep
    exact tracked_append h hcareful
  | consume p dlqUp => exact tracked_consume h hstep
  | claimLogIds => exact tracked_claimLogIds h hcareful hstep
  | claimRaises done => exact tracked_claimRaises h hstep
  | remoteWrite outcome => exact tracked_remoteWrite h hstep
  | releaseLogIds => exact tracked_releaseLogIds h hstep
  | releaseRaises done => exact tracked_releaseRaises h hstep
  | seekToCommitted =>
    simp only [writer, step] at hstep
    split at hstep
    next hphase =>
      obtain rfl := Option.some.inj hstep
      exact tracked_seekToCommitted h hphase
    next => cases hstep
  | updateCache => exact tracked_updateCache h hstep
  | commit => exact tracked_commit h hstep
  | crash =>
    obtain rfl := Option.some.inj hstep
    exact tracked_crash h
  | expire logId =>
    obtain rfl := Option.some.inj hstep
    exact tracked_expire h logId

theorem committed_written {acts : List (Act P)}
    (hcareful : (writer C).Meets (Careful C) .initial acts)
    (hexec : (writer C).exec .initial acts = some s) :
    ∀ p c, s.committed p = some c → ∀ i < c, ∀ r, Valid C s p i r → Written s r :=
  ((writer C).exec_invariant (fun _ _ _ h hC hstep => tracked_step h hC hstep) tracked_initial
    hcareful hexec).committed

end Steps

namespace OneMessage

def codec : Codec UInt8 where
  loads value := some (.str (String.ofList (value.map fun byte => Char.ofNat byte.toNat)))
  logRecord
    | .str text => some
      { aic := "aic", logType := "metrics", logId := some text, observedTimestamp := none
        body := some [("bytes", .str text)], resource := none }
    | _ => none
  logIdFallback _ := ""
  isoMs _ := none
  expandMetricsBody _ body _ _ :=
    match JsonObject.get body "bytes" with
    | some (.str text) => some (text.toList.map fun c => UInt8.ofNat c.toNat)
    | _ => none

def message : Message := { value := [97], timestamp := some 1, timestampType := some 1 }

def refusedThenCrash : List (Act Unit) :=
  [.append () message, .consume () true, .claimLogIds, .remoteWrite (.refused false), .releaseLogIds,
    .seekToCommitted, .consume () true, .claimLogIds, .remoteWrite .accepted, .crash,
    .consume () true, .claimLogIds, .commit]

def crashAfterClaim : List (Act Unit) :=
  [.append () message, .consume () true, .claimLogIds, .crash, .consume () true, .claimLogIds,
    .commit]

end OneMessage

theorem refused_then_written :
    ∃ s, (writer OneMessage.codec).exec (.initial : World Unit UInt8) OneMessage.refusedThenCrash = some s ∧
      s.committed () = some 1 ∧ ∀ r, Valid OneMessage.codec s () 0 r → Written s r := by
  obtain ⟨s, hexec⟩ : ∃ s, (writer OneMessage.codec).exec (.initial : World Unit UInt8)
      OneMessage.refusedThenCrash = some s := ⟨_, rfl⟩
  have hcommitted : s.committed () = some 1 := by
    have hrun : ((writer OneMessage.codec).exec (.initial : World Unit UInt8)
        OneMessage.refusedThenCrash).map (fun s => s.committed ()) = some (some 1) := rfl
    rw [hexec] at hrun
    exact Option.some.inj hrun
  refine ⟨s, hexec, hcommitted, committed_written ?_ hexec () 1 hcommitted 0 (by decide)⟩
  refine (writer OneMessage.codec).meets_of_check (c := fun s a => match a with
    | .append _ _ => s.log () = []
    | .claimLogIds => ∀ r ∈ s.pending, r.logId ∉ s.orphans
    | _ => true) ?_ (by decide +kernel)
  intro s a hcheck
  cases a with
  | append p message =>
    intro r _ q i old hold
    obtain ⟨m, hm, -⟩ := hold
    rw [of_decide_eq_true hcheck] at hm
    cases hm
  | claimLogIds =>
    have hfree : ∀ r ∈ s.pending, r.logId ∉ s.orphans := of_decide_eq_true hcheck
    exact hfree
  | _ => trivial

theorem claimed_message_lost :
    ∃ s, (writer OneMessage.codec).exec (.initial : World Unit UInt8) OneMessage.crashAfterClaim = some s ∧
      s.committed () = some 1 ∧ ∃ r, Valid OneMessage.codec s () 0 r ∧ ¬ Written s r := by
  refine ⟨_, rfl, rfl, ⟨"a", 1, [97]⟩, ⟨OneMessage.message, rfl, rfl⟩, ?_⟩
  intro h
  exact absurd (h 97 (List.mem_singleton_self _)) List.not_mem_nil

end Acps.Metrics
