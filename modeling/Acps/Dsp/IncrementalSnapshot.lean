import Acps.Dsp.Sync

/-!
An incremental snapshot against a full one: a replica that held the active agents of an earlier
seq, brought up to date by the rows that changed since.
-/

namespace Acps.Dsp

open Registry Paging Discovery

variable {H : Type}

section Model

variable [DecidableEq H] (π : Platform H)

def registryAt (s : ℤ) : Tables H → List Event → Tables H
  | t, [] => t
  | t, e :: es =>
    if (t.handle π e).log.globalSeq ≤ s then registryAt s (t.handle π e) es else t

end Model

def SameActiveLocally (agents agents' : Database) : Prop :=
  ∀ x v o, ActiveLocally agents x v o ↔ ActiveLocally agents' x v o

structure Refreshable (π : Platform H) (before t : Tables H) (s : ℤ) (agents : Database) : Prop where
  staysActive : ∀ x v o, ActiveInRegistry π before x v o → ∃ v' o', ActiveInRegistry π t x v' o'
  notAhead : ∀ a ∈ t.agents, ∀ x o q, ActiveInRegistry π t x a.acsVersion o → a.aic = some x →
    a.acsLastSeq = some q → s < q → ∀ row, agents.lookup x = some row → row.version < a.acsVersion

structure Since (π : Platform H) (before t : Tables H) (s : ℤ) : Prop where
  published : before.Published π
  after : t.Published π
  log : ∀ c, c ∈ before.log.everAppended ↔ c ∈ t.log.everAppended ∧ c.seq ≤ s

section History

variable [DecidableEq H] {π : Platform H}

theorem handle_globalSeq_le (t : Tables H) (e : Event) :
    (t.handle π e).log.globalSeq ≤ t.log.globalSeq + 1 := by
  cases e with
  | write now w =>
    change (t.write π now w).log.globalSeq ≤ _
    rcases write_log π now t w with hlog | hlog | ⟨c, _, hlog⟩ <;> rw [hlog]
    · exact Int.le_add_one le_rfl
    · exact le_rfl
    · exact le_rfl
  | burn => exact le_rfl
  | cleanup now windowHours maxRecords =>
    exact (LogState.cleanup_globalSeq ..).le.trans (Int.le_add_one le_rfl)

theorem registryAt_split (s : ℤ) {t u : Tables H} {es : List Event}
    (hu : (registry π).exec t es = some u) (ht : t.Consistent)
    (hs : ∀ c ∈ t.log.everAppended, c.seq ≤ s) : ∃ es₁ es₂, es = es₁ ++ es₂ ∧
      (registry π).exec t es₁ = some (registryAt π s t es) ∧
      (registry π).exec (registryAt π s t es) es₂ = some u ∧
      ∀ c, c ∈ (registryAt π s t es).log.everAppended ↔ c ∈ u.log.everAppended ∧ c.seq ≤ s := by
  induction es generalizing t with
  | nil =>
    obtain rfl : t = u := by simpa using hu
    exact ⟨[], [], rfl, rfl, rfl, fun c => ⟨fun hc => ⟨hc, hs c hc⟩, And.left⟩⟩
  | cons e es ih =>
    obtain ⟨v, hv, hrest⟩ := (registry π).exec_cons_eq_some.mp hu
    obtain rfl := Option.some.inj hv
    by_cases hle : (t.handle π e).log.globalSeq ≤ s
    · have hcons := ht.handle π e
      obtain ⟨es₁, es₂, rfl, h₁, h₂, hlog⟩ := ih hrest hcons
        fun c hc => (hcons.log.bounded c hc).2.trans hle
      rw [registryAt, if_pos hle]
      exact ⟨e :: es₁, es₂, rfl, (registry π).exec_cons_eq_some.mpr ⟨_, rfl, h₁⟩, h₂, hlog⟩
    · rw [registryAt, if_neg hle]
      refine ⟨[], e :: es, rfl, rfl, hu, fun c => ⟨fun hc => ⟨(exec_grows π hu).subset hc, hs c hc⟩, ?_⟩⟩
      rintro ⟨hc, hcs⟩
      have hstep := handle_globalSeq_le (π := π) t e
      rcases (exec_grows π hu).mem hc with hmem | hlt
      · exact hmem
      · omega

theorem since_registryAt (hinj : Function.Injective π.acsHash) {es : List Event} {t : Tables H}
    (hfresh : (registry π).Meets (Fresh π) .empty es) (ht : (registry π).exec .empty es = some t)
    (s : ℤ) : Since π (registryAt π s .empty es) t s := by
  obtain ⟨es₁, es₂, hes, h₁, _, hlog⟩ := registryAt_split s ht .empty
    (by simp [Tables.empty, LogState.empty])
  refine ⟨Tables.Published.reachable hinj ?_ h₁, .reachable hinj hfresh ht, hlog⟩
  exact ((registry π).meets_append (hes ▸ hfresh) h₁).1

end History

section Refresh

variable {π : Platform H} {before t : Tables H} {s : ℤ} {x : String} {c : ChangeLog}

theorem Since.newest_before (h : Since π before t s) (hc : NewestEntry t.log x c)
    (hle : c.seq ≤ s) : NewestEntry before.log x c :=
  ⟨(h.log c).mpr ⟨hc.mem, hle⟩, hc.id, fun d hd => hc.newest d ((h.log d).mp hd).1⟩

theorem Since.version_lt (h : Since π before t s) {v : ℤ} {o : JsonObject}
    (hold : ActiveInRegistry π before x v o) {a : Agent H} (ha : a ∈ t.agents)
    (hx : a.aic = some x) {q : ℤ} (hq : a.acsLastSeq = some q) (hlt : s < q) :
    v < a.acsVersion := by
  obtain ⟨c, hc, rfl, _⟩ := (activeInRegistry_iff h.published).mp hold
  obtain ⟨hmem, hle⟩ := (h.log c).mp hc.mem
  obtain ⟨d, hd⟩ := exists_newestEntry h.after hmem hc.id
  obtain ⟨b, hb, _, hbx, _, hseq, hver, _⟩ := agent_of_newestEntry h.after hd
  obtain rfl := h.after.consistent.aics a ha b hb x hx hbx
  have hdq : d.seq = q := Option.some.inj (hseq.symm.trans hq)
  rw [← hver]
  exact h.after.versions c hmem d hd.mem (hc.id.trans hd.id.symm) (by omega)

variable {inc : List Envelope} {r : Replica}

theorem lookup_refreshed (h : Since π before t s)
    (hinc : buildEnvelopes π.loads (snapshotTable t ["acs"] (some s)) = .ok inc) (hr : r.Tracked)
    {a : Agent H} {e : Envelope} (he : e ∈ inc) (ha : Sent t (some s) a e)
    (hrow : ∀ row, r.agents.lookup e.id = some row → row.version < e.version) :
    (r.applyAll inc).agents.lookup e.id = some (envelopeRow e) := by
  refine hr.lookup_applyAll_newest he ha.type ha.upsert (ha.version ▸ h.after.version a ha.agent)
    hrow fun d hd _ hid => .inl ?_
  obtain ⟨b, hb⟩ := exists_sent h.after.consistent π.loads_empty hinc hd
  exact hb.unique h.after.consistent hinc hd he ha hid

theorem lookup_kept (h : Since π before t s)
    (hinc : buildEnvelopes π.loads (snapshotTable t ["acs"] (some s)) = .ok inc) (hr : r.Tracked)
    {row : AgentRow} (hrow : r.agents.lookup x = some row)
    (hstale : ∀ a e, Sent t (some s) a e → e.id = x → e.version ≤ row.version) :
    (r.applyAll inc).agents.lookup x = some row := by
  refine hr.lookup_applyAll_stale hrow fun e he _ hid => ?_
  obtain ⟨a, ha⟩ := exists_sent h.after.consistent π.loads_empty hinc he
  exact hstale a e ha hid

theorem exists_sent_of_changed (hretained : t.log.changeLog = t.log.everAppended)
    (h : t.Published π)
    (hinc : buildEnvelopes π.loads (snapshotTable t ["acs"] (some s)) = .ok inc)
    {a : Agent H} (ha : a ∈ t.agents) (hact : a.isActive = true) (hdel : a.isDeleted = false)
    (hx : a.aic = some x) {o : JsonObject} (ho : loadAgentAcsData π a.acs = some o)
    (hseq : a.acsLastSeq = some c.seq) (hc : c ∈ t.log.everAppended) (hlt : s < c.seq) :
    ∃ e ∈ inc, Sent t (some s) a e ∧ e.id = x ∧ e.version = a.acsVersion ∧ e.payload = some o := by
  have hmem := sent_of_agent hinc ha hact hdel hx hseq (fun _ hs => Option.some.inj hs ▸ hlt)
    (le_getCurrentMaxSeq_of_mem h.consistent (hretained ▸ hc))
    ((load_eq_some (h.consistent.clean a ha)).mp ho).1
  obtain ⟨b, hb⟩ := exists_sent h.consistent π.loads_empty hinc hmem
  obtain rfl := h.consistent.aics a ha b hb.agent x hx hb.aic
  exact ⟨_, hmem, hb, rfl, rfl, rfl⟩

theorem Sent.active_of_before (h : Since π before t s) {a : Agent H} {e : Envelope}
    (ha : Sent t (some s) a e) {v : ℤ} {o : JsonObject}
    (hold : ActiveInRegistry π before e.id v o) : ∃ o', ActiveInRegistry π t e.id e.version o' := by
  obtain ⟨c, hc, _⟩ := (activeInRegistry_iff h.published).mp hold
  obtain ⟨b, hb, howned⟩ := h.after.owned c ((h.log c).mp hc.mem).1
  obtain rfl := h.after.consistent.aics a ha.agent b hb e.id ha.aic (hc.id ▸ howned.aic)
  obtain ⟨p, hp⟩ := Option.isSome_iff_exists.mp howned.acs
  exact ⟨p, a, hb, ha.active, ha.deleted, ha.aic, hp, ha.version.symm⟩

theorem sameActive_of_refreshable (h : Since π before t s)
    (hretained : t.log.changeLog = t.log.everAppended)
    (hinc : buildEnvelopes π.loads (snapshotTable t ["acs"] (some s)) = .ok inc) (hr : r.Tracked)
    (hsame : SameActive π before r.agents) (href : Refreshable π before t s r.agents) :
    SameActive π t (r.applyAll inc).agents := by
  intro x v o
  constructor
  · rintro ⟨row, hrow, rfl, hacs, hact⟩
    by_cases hx : ∃ e ∈ inc, e.id = x
    · obtain ⟨e, he, rfl⟩ := hx
      obtain ⟨a, ha⟩ := exists_sent h.after.consistent π.loads_empty hinc he
      by_cases hold : ∀ row, r.agents.lookup e.id = some row → row.version < e.version
      · rw [lookup_refreshed h hinc hr he ha hold] at hrow
        obtain rfl := Option.some.inj hrow
        exact ha.activeInRegistry hacs hact
      · -- the row was there before, so the agent was in service and has changed since
        push Not at hold
        obtain ⟨row', hrow', hle⟩ := hold
        have hkept := lookup_kept h hinc hr hrow' fun b d hb hid => by
          obtain rfl := h.after.consistent.aics a ha.agent b hb.agent e.id ha.aic (hid ▸ hb.aic)
          rw [hb.version, ← ha.version]
          exact hle
        obtain rfl := Option.some.inj (hkept.symm.trans hrow)
        have hlt := h.version_lt ((hsame _ _ _).mp ⟨row', hrow', rfl, hacs, hact⟩) ha.agent ha.aic
          ha.lastSeq (ha.after s rfl)
        rw [← ha.version] at hlt
        exact absurd hlt hle.not_gt
    · rw [hr.lookup_applyAll_absent fun e he _ hid => hx ⟨e, he, hid⟩] at hrow
      have hold := (hsame _ _ _).mp ⟨row, hrow, rfl, hacs, hact⟩
      obtain ⟨v', o', a, ha, hactive, hdel, hax, ho, rfl⟩ := href.staysActive x _ o hold
      obtain ⟨c, hc, hseq, hver, hpay⟩ := newestEntry_of_agent h.after ha hax ho
      by_cases hlt : s < c.seq
      · obtain ⟨e, he, _, hid, _⟩ := exists_sent_of_changed hretained h.after hinc ha hactive hdel
          hax ho hseq hc.mem hlt
        exact absurd ⟨e, he, hid⟩ hx
      · obtain ⟨d, hd, hdv, hdp, _⟩ := (activeInRegistry_iff h.published).mp hold
        obtain rfl := hd.unique h.published (h.newest_before hc (not_lt.mp hlt))
        exact (activeInRegistry_iff h.after).mpr ⟨d, hc, hdv, hdp, hact⟩
  · rintro ⟨a, ha, hactive, hdel, hax, ho, rfl⟩
    obtain ⟨c, hc, hseq, hver, hpay⟩ := newestEntry_of_agent h.after ha hax ho
    have hnow : ActiveInRegistry π t x a.acsVersion o := ⟨a, ha, hactive, hdel, hax, ho, rfl⟩
    have hact : o.get "active" = some (.bool true) := by
      have hreflects := (h.after.current a ha x o hax ho).reflects.active
      rw [hactive] at hreflects
      exact getOrNone_active.mp hreflects
    by_cases hlt : s < c.seq
    · obtain ⟨e, he, hsent, rfl, hev, hep⟩ := exists_sent_of_changed hretained h.after hinc ha
        hactive hdel hax ho hseq hc.mem hlt
      refine ⟨_, lookup_refreshed h hinc hr he hsent fun row hrow => ?_, hev, hep, hact⟩
      rw [hev]
      exact href.notAhead a ha e.id o c.seq hnow hax hseq hlt row hrow
    · have hold : ActiveInRegistry π before x a.acsVersion o := (activeInRegistry_iff h.published).mpr
        ⟨c, h.newest_before hc (not_lt.mp hlt), hver, hpay, hact⟩
      obtain ⟨row, hrow, hrv, hracs, _⟩ := (hsame _ _ _).mpr hold
      refine ⟨row, ?_, hrv, hracs, hact⟩
      rw [hr.lookup_applyAll_absent, hrow]
      rintro e he _ rfl
      obtain ⟨b, hb⟩ := exists_sent h.after.consistent π.loads_empty hinc he
      obtain rfl := h.after.consistent.aics a ha b hb.agent e.id hax hb.aic
      have hce : c.seq = e.seq := Option.some.inj (hseq.symm.trans hb.lastSeq)
      exact hlt (hce ▸ hb.after s rfl)

theorem refreshable_of_sameActive (h : Since π before t s)
    (hinc : buildEnvelopes π.loads (snapshotTable t ["acs"] (some s)) = .ok inc) (hr : r.Tracked)
    (hsame : SameActive π before r.agents)
    (hall : SameActive π t (r.applyAll inc).agents) : Refreshable π before t s r.agents where
  staysActive x v o hold := by
    by_cases hx : ∃ e ∈ inc, e.id = x
    · obtain ⟨e, he, rfl⟩ := hx
      obtain ⟨a, ha⟩ := exists_sent h.after.consistent π.loads_empty hinc he
      obtain ⟨o', ho'⟩ := ha.active_of_before h hold
      exact ⟨_, o', ho'⟩
    · obtain ⟨row, hrow, hrest⟩ := (hsame x v o).mpr hold
      refine ⟨v, o, (hall x v o).mp ⟨row, ?_, hrest⟩⟩
      rw [hr.lookup_applyAll_absent fun e he _ hid => hx ⟨e, he, hid⟩, hrow]
  notAhead a ha x o q hnow hax hq hlt row hrow := by
    by_contra hle
    rw [not_lt] at hle
    -- the row stays, so it is what shows the agent as active
    have hkept := lookup_kept h hinc hr hrow fun b d hb hid => by
      obtain rfl := h.after.consistent.aics a ha b hb.agent x hax (hid ▸ hb.aic)
      rw [hb.version]
      exact hle
    obtain ⟨row', hrow', hrest⟩ := (hall x _ o).mpr hnow
    obtain rfl := Option.some.inj (hkept.symm.trans hrow')
    have hold := (hsame x _ o).mp ⟨row, hrow, hrest⟩
    exact absurd (h.version_lt hold ha hax hq hlt) (lt_irrefl _)

end Refresh

variable [DecidableEq H]

theorem incremental_matches_full_iff {π : Platform H} (hinj : Function.Injective π.acsHash)
    {es : List Event} {t : Tables H} (hfresh : (registry π).Meets (Fresh π) .empty es)
    (ht : (registry π).exec .empty es = some t) (hretains : ∀ e ∈ es, e.Retains) {limit : ℤ}
    (hlimit : 0 < limit) (s : ℤ) {r : Replica} (hr : r.Tracked)
    (hsame : SameActive π (registryAt π s .empty es) r.agents) :
    ∃ snapshot inc snapshot' full,
      sendSnapshot π.loads t limit (some s) = .ok (snapshot, inc) ∧
      sendSnapshot π.loads t limit none = .ok (snapshot', full) ∧
      (SameActiveLocally (r.applyAll inc).agents (Replica.empty.applyAll full).agents ↔
        Refreshable π (registryAt π s .empty es) t s r.agents) := by
  have hsince := since_registryAt hinj hfresh ht s
  have hretained := exec_retains π rfl hretains ht
  obtain ⟨snapshot, inc, hinc, hbuild⟩ := sendSnapshot_ok hsince.after.consistent π.loads_empty
    hlimit (some s)
  obtain ⟨snapshot', full, hfull, hbuild'⟩ := sendSnapshot_ok hsince.after.consistent π.loads_empty
    hlimit none
  have hall := sameActive_of_full hsince.after hretained hbuild' tracked_empty rfl
  refine ⟨snapshot, inc, snapshot', full, hinc, hfull, fun hloc => ?_, fun href x v o => ?_⟩
  · exact refreshable_of_sameActive hsince hbuild hr hsame fun x v o =>
      (hloc x v o).trans (hall x v o)
  · exact (sameActive_of_refreshable hsince hretained hbuild hr hsame href x v o).trans
      (hall x v o).symm

def entityReplica : Replica :=
  Replica.empty.applyAll [⟨1, some 0, some .upsert, "acs", "A", 1, some (entityAcs "A" [])⟩]

theorem sameActive_entityReplica : SameActive plainPlatform
    ((Tables.empty : Tables Payload).handle plainPlatform (.write 0 (.registerEntity 1 "A" [])))
    entityReplica.agents :=
  sameActive_of_full (Tables.Published.empty.handle (fun _ _ h => Payload.obj.inj h) trivial) rfl rfl
    tracked_empty rfl

theorem incremental_matches_full_iff_two : ∃ t,
    (registry plainPlatform).exec .empty [.write 0 (.registerEntity 1 "A" []),
      .write 5 (.registerEntity 2 "B" [])] = some t ∧
    ∃ snapshot inc snapshot' full,
      sendSnapshot plainPlatform.loads t 10 (some 1) = .ok (snapshot, inc) ∧
      sendSnapshot plainPlatform.loads t 10 none = .ok (snapshot', full) ∧
      (SameActiveLocally (entityReplica.applyAll inc).agents
          (Replica.empty.applyAll full).agents ↔
        Refreshable plainPlatform (registryAt plainPlatform 1 .empty
          [.write 0 (.registerEntity 1 "A" []), .write 5 (.registerEntity 2 "B" [])]) t 1
          entityReplica.agents) := by
  obtain ⟨t, ht⟩ : ∃ t, (registry plainPlatform).exec .empty [.write 0 (.registerEntity 1 "A" []),
      .write 5 (.registerEntity 2 "B" [])] = some t := ⟨_, rfl⟩
  have hfresh : (registry plainPlatform).Meets (Fresh plainPlatform) .empty
      [.write 0 (.registerEntity 1 "A" []), .write 5 (.registerEntity 2 "B" [])] :=
    ⟨trivial, fun _ _ => ⟨trivial, fun _ _ => trivial⟩⟩
  exact ⟨t, ht, incremental_matches_full_iff (fun _ _ h => Payload.obj.inj h) hfresh ht
    (by simp [Event.Retains]) (by decide) 1 (tracked_empty.applyAll _) sameActive_entityReplica⟩

theorem disabled_agent_stays_active : ∃ t snapshot snapshot',
    (registry plainPlatform).exec .empty [.write 0 (.registerEntity 1 "A" []),
      .write 5 (.disable 1)] = some t ∧
    SameActive plainPlatform (registryAt plainPlatform 1 .empty
      [.write 0 (.registerEntity 1 "A" []), .write 5 (.disable 1)]) entityReplica.agents ∧
    sendSnapshot plainPlatform.loads t 10 (some 1) = .ok (snapshot, []) ∧
    sendSnapshot plainPlatform.loads t 10 none = .ok (snapshot', []) ∧
    ¬ SameActiveLocally (entityReplica.applyAll []).agents (Replica.empty.applyAll []).agents := by
  refine ⟨_, _, _, rfl, sameActive_entityReplica, rfl, rfl, fun hall => ?_⟩
  obtain ⟨row, hrow, _⟩ := (hall "A" 1 (entityAcs "A" [])).mp ⟨⟨1, 1, entityAcs "A" []⟩, rfl, rfl, rfl, rfl⟩
  exact absurd hrow (by simp [Replica.empty])

end Acps.Dsp
