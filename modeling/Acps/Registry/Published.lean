import Acps.Registry.History

/-!
What the log says about the agents that have an AIC: the newest entry of each carries its current
ACS, version and seq, and the versions of its entries grow with their seqs.
-/

namespace Acps.Registry

open Dsp Paging

variable {H : Type}

theorem getOrNone_set_self (o : JsonObject) (k : String) (v : Json) :
    getOrNone (o.set k v) k = if v = .null then none else some v := by
  by_cases h : v = .null <;> simp [getOrNone, Option.filter, h]

theorem getOrNone_set_ne (o : JsonObject) {j k : String} (h : j ≠ k) (v : Json) :
    getOrNone (o.set k v) j = getOrNone o j := by
  rw [getOrNone, getOrNone, JsonObject.get_set_ne o h]

structure Reflects (o : JsonObject) (a : Agent H) : Prop where
  aic : getOrNone o "aic" = a.aic.map .str
  active : getOrNone o "active" = some (.bool a.isActive)

theorem Reflects.set {o : JsonObject} {a : Agent H} (h : Reflects o a) {k : String}
    (haic : "aic" ≠ k) (hactive : "active" ≠ k) (v : Json) : Reflects (o.set k v) a :=
  ⟨(getOrNone_set_ne o haic v).trans h.aic, (getOrNone_set_ne o hactive v).trans h.active⟩

theorem Reflects.replaced {o o' : JsonObject} {a : Agent H} (h : Reflects o a)
    {aic : Option String} (ho : replaceAgentAicPlaceholders o aic = some o') : Reflects o' a := by
  unfold replaceAgentAicPlaceholders at ho
  split at ho
  · split at ho
    · obtain rfl := Option.some.inj ho
      exact h.set (by decide) (by decide) _
    · simp at ho
  · simp at ho

section Prepare

variable {π : Platform H} {now : Timestamp} {a : Agent H}

theorem reflects_synced (o : JsonObject) (a : Agent H) :
    Reflects
      (let acs := if getOrNone o "aic" ≠ a.aic.map .str then o.set "aic" (a.aic.elim .null .str)
        else o
      if getOrNone acs "active" ≠ some (.bool a.isActive) then
        acs.set "active" (.bool a.isActive) else acs) a := by
  have haic : ∀ o : JsonObject, getOrNone (o.set "aic" (a.aic.elim .null .str)) "aic" =
      a.aic.map .str := by
    intro o
    rw [getOrNone_set_self]
    cases a.aic <;> simp
  have hactive : ∀ o : JsonObject, getOrNone (o.set "active" (.bool a.isActive)) "active" =
      some (.bool a.isActive) := fun o => by simp [getOrNone_set_self]
  dsimp only
  split <;> split
  · exact ⟨(getOrNone_set_ne _ (by decide) _).trans (haic o), hactive _⟩
  · next h => exact ⟨haic o, not_not.mp h⟩
  · next h _ => exact ⟨(getOrNone_set_ne _ (by decide) _).trans (not_not.mp h), hactive _⟩
  · next h h' => exact ⟨not_not.mp h, not_not.mp h'⟩

theorem ite_some_cases {α : Type} {c P : Prop} [Decidable c] {x : α} {Q : α → Prop}
    (hpos : c → Q x) (hneg : ¬ c → P) :
    (if c then some x else none) = none ∧ P ∨ ∃ y, (if c then some x else none) = some y ∧ Q y := by
  split
  · next h => exact .inr ⟨x, rfl, hpos h⟩
  · next h => exact .inl ⟨rfl, hneg h⟩

theorem prepareAgentAcsUpdate_reflects (now : Timestamp) {o : JsonObject} (ho : loadAgentAcsData π a.acs = some o) :
    prepareAgentAcsUpdate π now a = none ∧ Reflects o a ∨
      ∃ o', prepareAgentAcsUpdate π now a = some o' ∧ o' ≠ [] ∧ Reflects o' a := by
  have hsync := reflects_synced o a
  simp only [prepareAgentAcsUpdate, ho, Option.bind_some]
  refine ite_some_cases (fun _ => ⟨JsonObject.set_ne_nil _ _ _, ?_⟩) fun h => ?_
  · refine Reflects.set ?_ (by decide) (by decide) _
    cases hr : replaceAgentAicPlaceholders _ a.aic with
    | none => exact hsync
    | some o' => exact hsync.replaced hr
  · rw [not_or, not_or] at h
    simp only [if_neg h.1] at hsync h
    rwa [if_neg h.2.1] at hsync

theorem prepareAgentAcsUpdate_none (h : loadAgentAcsData π a.acs = none) :
    prepareAgentAcsUpdate π now a = none := by
  simp [prepareAgentAcsUpdate, h]

end Prepare

section Outcome

variable [DecidableEq H] {π : Platform H} {now : Timestamp} {a : Agent H}

theorem updateAgentAcsData_none (log : LogState) (h : loadAgentAcsData π a.acs = none) :
    updateAgentAcsData π now log a = (log, a) := by
  simp [updateAgentAcsData, prepareAgentAcsUpdate_none h]

theorem updateAgentAcsData_cases (log : LogState) {o : JsonObject}
    (ho : loadAgentAcsData π a.acs = some o) :
    updateAgentAcsData π now log a = (log, a) ∧ Reflects o a ∨
      ∃ o', o' ≠ [] ∧ Reflects o' a ∧
        (a.acsHash = some (π.acsHash o') ∧ updateAgentAcsData π now log a =
            (log, { a with acs := some (.obj o'), updatedAt := now }) ∨
          updateAgentAcsData π now log a = (nextLog now log a (some (.obj o')),
            { a with
              acs := some (.obj o'), acsHash := some (π.acsHash o'),
              acsVersion := a.acsVersion + 1, acsLastSeq := some (log.globalSeq + 1),
              updatedAt := now })) := by
  rcases prepareAgentAcsUpdate_reflects now ho with ⟨hnone, hr⟩ | ⟨o', hsome, hne, hr⟩
  · exact .inl ⟨by simp [updateAgentAcsData, hnone], hr⟩
  · refine .inr ⟨o', hne, hr, ?_⟩
    have hhash : (truthy (some (Payload.obj o'))).map (hashPayload π) = some (π.acsHash o') := by
      rw [truthy_obj, if_neg hne]; rfl
    simp only [updateAgentAcsData, hsome]
    by_cases hh : some (π.acsHash o') = a.acsHash
    · exact .inl ⟨hh.symm, updateAgentWithChangelog_unchanged (hhash.trans hh)⟩
    · right
      have hne : (truthy (some (Payload.obj o'))).map (hashPayload π) ≠
          ({ a with acs := some (.obj o') } : Agent H).acsHash := fun he => hh (hhash.symm.trans he)
      rw [updateAgentWithChangelog_changed hne, hhash]
      rfl

end Outcome

structure Current (π : Platform H) (log : LogState) (a : Agent H) (x : String) (o : JsonObject) :
    Prop where
  reflects : Reflects o a
  hash : a.acsHash = some (π.acsHash o)
  newest : ∃ c ∈ log.everAppended, c.id = x ∧ a.acsLastSeq = some c.seq ∧
    c.version = a.acsVersion ∧ c.payload = some (.obj o) ∧
      ∀ d ∈ log.everAppended, d.id = x → d.seq ≤ c.seq

structure Owned (π : Platform H) (a : Agent H) (c : ChangeLog) : Prop where
  aic : a.aic = some c.id
  acs : (loadAgentAcsData π a.acs).isSome
  type : c.type = "acs"
  op : c.op = .upsert
  pos : 0 < c.version
  le : c.version ≤ a.acsVersion
  payload : ∃ o, c.payload = some (.obj o)

structure Tables.Published (π : Platform H) (t : Tables H) : Prop where
  consistent : t.Consistent
  approved : ∀ a ∈ t.agents, ∀ x, a.aic = some x → a.approvalStatus = .approved ∧ x ≠ ""
  inactive : ∀ a ∈ t.agents, a.isDeleted = true → a.isActive = false
  version : ∀ a ∈ t.agents, 0 < a.acsVersion
  current : ∀ a ∈ t.agents, ∀ x o, a.aic = some x → loadAgentAcsData π a.acs = some o →
    Current π t.log a x o
  owned : ∀ c ∈ t.log.everAppended, ∃ a ∈ t.agents, Owned π a c
  versions : ∀ c ∈ t.log.everAppended, ∀ d ∈ t.log.everAppended, c.id = d.id → c.seq < d.seq →
    c.version < d.version

def Fresh (π : Platform H) (t : Tables H) : Event → Prop
  | .write _ (.approve id _ newAic) => ∀ a ∈ t.agents, a.id = id → ∀ o,
      loadAgentAcsData π a.acs = some o ∨ a.acsHash = some (π.acsHash o) →
        getOrNone o "aic" ≠ some (.str newAic)
  | _ => True

namespace Tables.Published

variable {π : Platform H} {t u : Tables H}

theorem empty : (Tables.empty : Tables H).Published π where
  consistent := .empty
  approved a ha := by simp [Tables.empty] at ha
  inactive a ha := by simp [Tables.empty] at ha
  version a ha := by simp [Tables.empty] at ha
  current a ha := by simp [Tables.empty] at ha
  owned c hc := by simp [Tables.empty, LogState.empty] at hc
  versions c hc := by simp [Tables.empty, LogState.empty] at hc

theorem put (h : t.Published π) (hu : u.Consistent) (b : Agent H) (cs : List ChangeLog)
    (hmem : ∀ e, e ∈ u.agents ↔ e = b ∨ e ∈ t.agents ∧ e.id ≠ b.id)
    (happroved : ∀ x, b.aic = some x → b.approvalStatus = .approved ∧ x ≠ "")
    (hinactive : b.isDeleted = true → b.isActive = false) (hversion : 0 < b.acsVersion)
    (hcurrent : ∀ x o, b.aic = some x → loadAgentAcsData π b.acs = some o → Current π u.log b x o)
    (hkeep : ∀ a ∈ t.agents, a.id = b.id → a.aic.isSome → b.aic = a.aic ∧
      ((loadAgentAcsData π a.acs).isSome → (loadAgentAcsData π b.acs).isSome) ∧
        a.acsVersion ≤ b.acsVersion)
    (hlog : u.log.everAppended = t.log.everAppended ++ cs) (hone : cs.length ≤ 1)
    (hnew : ∀ c ∈ cs, Owned π b c ∧ ∀ d ∈ t.log.everAppended,
      d.seq < c.seq ∧ (d.id = c.id → d.version < c.version)) : u.Published π where
  consistent := hu
  approved a ha := by
    rcases (hmem a).mp ha with rfl | ⟨ha, _⟩
    · exact happroved
    · exact h.approved a ha
  inactive a ha := by
    rcases (hmem a).mp ha with rfl | ⟨ha, _⟩
    · exact hinactive
    · exact h.inactive a ha
  version a ha := by
    rcases (hmem a).mp ha with rfl | ⟨ha, _⟩
    · exact hversion
    · exact h.version a ha
  current a ha x o hx ho := by
    rcases (hmem a).mp ha with rfl | ⟨hat, hne⟩
    · exact hcurrent x o hx ho
    · obtain ⟨hr, hh, c, hc, hid, hseq, hver, hpay, hmax⟩ := h.current a hat x o hx ho
      refine ⟨hr, hh, c, hlog ▸ List.mem_append_left _ hc, hid, hseq, hver, hpay, ?_⟩
      intro d hd hdx
      rcases List.mem_append.mp (hlog ▸ hd) with hd | hd
      · exact hmax d hd hdx
      · have hb := (hnew d hd).1.aic
        have hba := hu.aics b ((hmem b).mpr (.inl rfl)) a ha x (hdx ▸ hb) hx
        exact absurd (congrArg Agent.id hba).symm hne
  owned c hc := by
    rcases List.mem_append.mp (hlog ▸ hc) with hc | hc
    · obtain ⟨a, ha, ho⟩ := h.owned c hc
      by_cases hid : a.id = b.id
      · obtain ⟨haic, hacs, hver⟩ := hkeep a ha hid (by rw [ho.aic]; rfl)
        exact ⟨b, (hmem b).mpr (.inl rfl), haic.trans ho.aic, hacs ho.acs, ho.type, ho.op, ho.pos,
          ho.le.trans hver, ho.payload⟩
      · exact ⟨a, (hmem a).mpr (.inr ⟨ha, hid⟩), ho⟩
    · exact ⟨b, (hmem b).mpr (.inl rfl), (hnew c hc).1⟩
  versions c hc d hd hid hlt := by
    rcases List.mem_append.mp (hlog ▸ hc) with hc | hc <;>
      rcases List.mem_append.mp (hlog ▸ hd) with hd | hd
    · exact h.versions c hc d hd hid hlt
    · exact ((hnew d hd).2 c hc).2 hid
    · exact absurd ((hnew c hc).2 d hd).1 hlt.not_gt
    · match cs, hone with
      | [e], _ =>
        obtain rfl := List.mem_singleton.mp hc
        obtain rfl := List.mem_singleton.mp hd
        exact absurd hlt (lt_irrefl _)

section Edit

variable [DecidableEq H] {now : Timestamp} {a b : Agent H} {r : LogState × Agent H}

omit [DecidableEq H] in
theorem unlisted (h : t.Published π) (ha : a ∈ t.agents) (hu : (t.save r.1 r.2).Consistent)
    (hb : Prepares now t w a b) (hn : Renumbers t.log b r) (hnone : r.2.aic = none)
    (haic : a.aic = none) : (t.save r.1 r.2).Published π := by
  have hrid : r.2.id = a.id := hn.id.trans hb.id
  refine h.put hu r.2 [] ?_ (by simp [hnone]) ?_ ?_ (by simp [hnone]) ?_ ?_ (by simp) (by simp)
  · intro e
    rw [mem_save ha hrid, hrid]
  · rw [hn.isDeleted, hn.isActive]
    exact hb.inactive (h.inactive a ha)
  · have := h.version a ha
    have := hn.version
    have := hb.version
    omega
  · intro c hc hci hsome
    rw [h.consistent.eq_of_id hc ha (hci.trans hrid), haic] at hsome
    simp at hsome
  · rw [List.append_nil]
    rcases hn.log with ⟨hlog, _⟩ | ⟨⟨now, c, acs, hcb, hlog⟩, _⟩
    · exact congrArg LogState.everAppended hlog
    · change r.1.everAppended = _
      rw [hlog, nextLog_of_aic_none now t.log acs (hcb.trans (hn.aic.symm.trans hnone))]

theorem listed (h : t.Published π) (ha : a ∈ t.agents)
    (hu : (t.save (updateAgentAcsData π now t.log b).1
      (updateAgentAcsData π now t.log b).2).Consistent)
    (hid : b.id = a.id) (hversion : b.acsVersion = a.acsVersion) {x : String} {o : JsonObject}
    (hx : b.aic = some x) (ho : loadAgentAcsData π b.acs = some o)
    (happroved : b.approvalStatus = .approved ∧ x ≠ "")
    (hinactive : b.isDeleted = true → b.isActive = false)
    (hkeep : a.aic = none ∨ a.aic = some x)
    (hold : ∀ d ∈ t.log.everAppended, d.id = x → d.version ≤ a.acsVersion)
    (hquiet : ∀ o', o' = o ∨ b.acsHash = some (π.acsHash o') → Reflects o' b →
      Current π t.log b x o') :
    (t.save (updateAgentAcsData π now t.log b).1
      (updateAgentAcsData π now t.log b).2).Published π := by
  have hkept (c : Agent H) (hcx : c.aic = some x) (hci : c.id = b.id)
      (hload : (loadAgentAcsData π c.acs).isSome) (hle : a.acsVersion ≤ c.acsVersion) :
      ∀ e ∈ t.agents, e.id = c.id → e.aic.isSome → c.aic = e.aic ∧
        ((loadAgentAcsData π e.acs).isSome → (loadAgentAcsData π c.acs).isSome) ∧
          e.acsVersion ≤ c.acsVersion := by
    intro e he hei hsome
    obtain rfl := h.consistent.eq_of_id he ha (hei.trans (hci.trans hid))
    rcases hkeep with hnone | hkeep
    · simp [hnone] at hsome
    · exact ⟨hcx.trans hkeep.symm, fun _ => hload, hle⟩
  have hpos := h.version a ha
  have hmem (log : LogState) (c : Agent H) (hc : c.id = b.id) (e : Agent H) :
      e ∈ (t.save log c).agents ↔ e = c ∨ e ∈ t.agents ∧ e.id ≠ c.id := by
    rw [mem_save ha (hc.trans hid), hc, hid]
  have happ : ∀ y, b.aic = some y → b.approvalStatus = .approved ∧ y ≠ "" := by
    intro y hy
    obtain rfl := Option.some.inj (hx.symm.trans hy)
    exact happroved
  rcases updateAgentAcsData_cases (π := π) t.log ho with
    ⟨hr, hreflects⟩ | ⟨o', hne, hreflects, ⟨hhash, hr⟩ | hr⟩ <;> rw [hr] at hu ⊢
  · refine h.put hu b [] (hmem _ b rfl) happ hinactive (by omega) ?_
      (hkept b hx rfl (by rw [ho]; rfl) hversion.ge) (List.append_nil _).symm (by simp) (by simp)
    intro y p hy hp
    obtain rfl := Option.some.inj (hx.symm.trans hy)
    obtain rfl := Option.some.inj (ho.symm.trans hp)
    exact hquiet o (.inl rfl) hreflects
  · have hload : loadAgentAcsData π (some (.obj o')) = some o' := by
      rw [loadAgentAcsData_obj, if_neg hne]
    let c : Agent H := { b with acs := some (.obj o'), updatedAt := now }
    have hcload : (loadAgentAcsData π c.acs).isSome := by rw [hload]; rfl
    refine h.put hu c [] (hmem _ c rfl) happ hinactive (hversion ▸ hpos) ?_
      (hkept c hx rfl hcload hversion.ge) (List.append_nil _).symm (by simp) (by simp)
    intro y p hy hp
    obtain rfl := Option.some.inj (hx.symm.trans hy)
    obtain rfl := Option.some.inj (hload.symm.trans hp)
    obtain ⟨hr, hh, hn⟩ := hquiet o' (.inr hhash) hreflects
    exact ⟨⟨hr.aic, hr.active⟩, hh, hn⟩
  · have hload : loadAgentAcsData π (some (.obj o')) = some o' := by
      rw [loadAgentAcsData_obj, if_neg hne]
    let c : Agent H := { b with
      acs := some (.obj o'), acsHash := some (π.acsHash o'), acsVersion := b.acsVersion + 1,
      acsLastSeq := some (t.log.globalSeq + 1), updatedAt := now }
    let entry := nextEntry now t.log x b (some (.obj o'))
    have hcload : (loadAgentAcsData π c.acs).isSome := by rw [hload]; rfl
    have hcversion : c.acsVersion = a.acsVersion + 1 := congrArg (· + 1) hversion
    have hentry : entry.version = a.acsVersion + 1 := congrArg (· + 1) hversion
    have hlog : (nextLog now t.log b (some (.obj o'))).everAppended = t.log.everAppended ++ [entry] :=
      nextLog_of_aic now t.log _ hx happroved.2
    have hbound (d : ChangeLog) (hd : d ∈ t.log.everAppended) : d.seq < t.log.globalSeq + 1 :=
      Int.lt_add_one_of_le (h.consistent.log.bounded d hd).2
    refine h.put hu c [entry] (hmem _ c rfl) happ hinactive (by omega) ?_
      (hkept c hx rfl hcload (by omega)) hlog (by simp) ?_
    · intro y p hy hp
      obtain rfl := Option.some.inj (hx.symm.trans hy)
      obtain rfl := Option.some.inj (hload.symm.trans hp)
      refine ⟨⟨hreflects.aic, hreflects.active⟩, rfl, entry, hlog ▸ List.mem_append_right _ (by simp),
        rfl, rfl, rfl, rfl, ?_⟩
      intro d hd _
      rcases List.mem_append.mp (hlog ▸ hd) with hd | hd
      · exact (hbound d hd).le
      · exact (congrArg ChangeLog.seq (List.mem_singleton.mp hd)).le
    · intro d hd
      obtain rfl := List.mem_singleton.mp hd
      refine ⟨⟨hx, hcload, rfl, rfl, by omega, by omega, o', rfl⟩, fun d hd => ⟨hbound d hd, fun hdx => ?_⟩⟩
      have := hold d hd hdx
      omega

omit [DecidableEq H] in
theorem withoutAcs (h : t.Published π) (ha : a ∈ t.agents) (hu : (t.save t.log b).Consistent)
    (hid : b.id = a.id) (hversion : b.acsVersion = a.acsVersion) {x : String} (hx : b.aic = some x)
    (happroved : b.approvalStatus = .approved ∧ x ≠ "")
    (hinactive : b.isDeleted = true → b.isActive = false)
    (hkeep : a.aic = none ∨ a.aic = some x ∧ loadAgentAcsData π a.acs = none)
    (hnone : loadAgentAcsData π b.acs = none) : (t.save t.log b).Published π := by
  refine h.put hu b [] ?_ ?_ hinactive (hversion ▸ h.version a ha) (by simp [hnone]) ?_
    (List.append_nil _).symm (by simp) (by simp)
  · intro e
    rw [mem_save ha hid, hid]
  · intro y hy
    obtain rfl := Option.some.inj (hx.symm.trans hy)
    exact happroved
  · intro e he hei hsome
    obtain rfl := h.consistent.eq_of_id he ha (hei.trans hid)
    rcases hkeep with haic | ⟨haic, hload⟩
    · simp [haic] at hsome
    · exact ⟨hx.trans haic.symm, by simp [hload], hversion.ge⟩

omit [DecidableEq H] in
theorem aic_none_of_status (h : t.Published π) (ha : a ∈ t.agents)
    (hstatus : a.approvalStatus ≠ .approved) : a.aic = none := by
  cases hx : a.aic with
  | none => rfl
  | some x => exact absurd (h.approved a ha x hx).1 hstatus

omit [DecidableEq H] in
theorem approvedAcs_aic {provider : Json} {o : JsonObject}
    (ho : loadAgentAcsData π (approvedAcs π now a provider) = some o) :
    ∃ p, loadAgentAcsData π a.acs = some p ∧ getOrNone o "aic" = getOrNone p "aic" := by
  unfold approvedAcs verifiedProviderAcs at ho
  cases hp : loadAgentAcsData π a.acs with
  | none =>
    rw [hp] at ho
    exact absurd (hp.symm.trans ho) (by simp)
  | some p =>
    refine ⟨p, rfl, ?_⟩
    rw [hp, Option.bind_some] at ho
    split at ho
    · exact congrArg (getOrNone · "aic") (Option.some.inj (ho.symm.trans hp))
    · have hload := ho
      simp only [Option.map_some, Option.orElse_some] at hload
      rw [loadAgentAcsData_obj, if_neg (JsonObject.set_ne_nil _ _ _)] at hload
      rw [← Option.some.inj hload, getOrNone_set_ne _ (by decide), getOrNone_set_ne _ (by decide)]

theorem issued (h : t.Published π) (ha : a ∈ t.agents) (hid : b.id = a.id)
    (hversion : b.acsVersion = a.acsVersion) (hnone : a.aic = none) {x : String} (hx : b.aic = some x)
    (happroved : b.approvalStatus = .approved ∧ x ≠ "") (hfree : aicTaken t x = false)
    (hinactive : b.isDeleted = true → b.isActive = false)
    (hfresh : ∀ o, loadAgentAcsData π b.acs = some o ∨ b.acsHash = some (π.acsHash o) →
      getOrNone o "aic" ≠ some (.str x))
    (hu : (t.save (updateAgentAcsData π now t.log b).1
      (updateAgentAcsData π now t.log b).2).Consistent) :
    (t.save (updateAgentAcsData π now t.log b).1
      (updateAgentAcsData π now t.log b).2).Published π := by
  cases hload : loadAgentAcsData π b.acs with
  | none =>
    rw [updateAgentAcsData_none t.log hload] at hu ⊢
    exact h.withoutAcs ha hu hid hversion hx happroved hinactive (.inl hnone) hload
  | some o =>
    refine h.listed ha hu hid hversion hx hload happroved hinactive (.inl hnone) ?_ ?_
    · intro d hd hdx
      obtain ⟨e, he, howned⟩ := h.owned d hd
      exact absurd (hdx ▸ howned.aic) (aicTaken_eq_false.mp hfree e he)
    · intro o' ho' hreflects
      refine absurd (hreflects.aic.trans (by rw [hx]; rfl)) (hfresh o' ?_)
      rcases ho' with rfl | hhash
      · exact .inl hload
      · exact .inr hhash

theorem marked (h : t.Published π) (hinj : Function.Injective π.acsHash) (ha : a ∈ t.agents)
    {x : String} (hx : a.aic = some x) (isActive isDeleted isDisabled : Bool)
    (deletedAt disabledAt : Option Timestamp) (hinactive : isDeleted = true → isActive = false)
    (hb : b = { a with isActive, isDeleted, deletedAt, isDisabled, disabledAt, updatedAt := now })
    (hu : (t.save (updateAgentAcsData π now t.log b).1
      (updateAgentAcsData π now t.log b).2).Consistent) :
    (t.save (updateAgentAcsData π now t.log b).1
      (updateAgentAcsData π now t.log b).2).Published π := by
  subst hb
  have happroved := h.approved a ha x hx
  cases hload : loadAgentAcsData π a.acs with
  | none =>
    have hr : updateAgentAcsData π now t.log
        { a with isActive, isDeleted, deletedAt, isDisabled, disabledAt, updatedAt := now } =
          (t.log, _) := updateAgentAcsData_none t.log hload
    rw [hr] at hu ⊢
    exact h.withoutAcs ha hu rfl rfl hx happroved hinactive (.inr ⟨hx, hload⟩) hload
  | some o =>
    obtain ⟨_, hhash, hnewest⟩ := h.current a ha x o hx hload
    refine h.listed ha hu rfl rfl hx hload happroved hinactive (.inr hx) ?_ ?_
    · intro d hd hdx
      obtain ⟨e, he, howned⟩ := h.owned d hd
      obtain rfl := h.consistent.aics e he a ha x (hdx ▸ howned.aic) hx
      exact howned.le
    · intro o' ho' hreflects
      have hoo : o' = o := ho'.elim id fun hh => hinj (Option.some.inj (hh.symm.trans hhash))
      subst hoo
      exact ⟨hreflects, hhash, hnewest⟩

theorem edited (h : t.Published π) (hinj : Function.Injective π.acsHash) {w : AgentWrite}
    (ha : a ∈ t.agents) (hr : Edited π now t w a r) (hfresh : Fresh π t (.write now w)) :
    (t.save r.1 r.2).Published π := by
  have hu := h.consistent.edited ha hr
  obtain ⟨b, hb, hn⟩ := hr.renumbers
  cases hr with
  | drafted payload hstatus clean =>
    have haic : a.aic = none := h.aic_none_of_status ha (by rcases hstatus with hs | hs <;> simp [hs])
    exact h.unlisted ha hu hb hn ((syncAgentUpdate_aic t a payload).trans haic) haic
  | moved target hstatus htarget =>
    have haic := h.aic_none_of_status ha hstatus
    exact h.unlisted ha hu hb hn haic haic
  | reapproved provider b hstatus hsome same r hr =>
    have haic : a.aic = none := h.aic_none_of_status ha (by simp [hstatus])
    simp [haic] at hsome
  | issued provider newAic hstatus hne free hw =>
    subst hw
    refine h.issued ha rfl rfl (h.aic_none_of_status ha (by simp [hstatus])) rfl ⟨rfl, hne⟩ free
      (h.inactive a ha) ?_ hu
    rintro o (ho | hhash)
    · obtain ⟨p, hp, haic⟩ := approvedAcs_aic ho
      exact haic ▸ hfresh a ha rfl p (.inl hp)
    · exact hfresh a ha rfl o (.inr hhash)
  | marked b marks _ =>
    by_cases hx : a.aic = none
    · have haic : (updateAgentAcsData π now t.log b).2.aic = none :=
        (updateAgentAcsData_renumbers t.log b).aic.trans (marks.same.2.1.trans hx)
      exact h.unlisted ha hu hb hn haic hx
    · obtain ⟨x, hx⟩ := Option.ne_none_iff_exists'.mp hx
      obtain ⟨isActive, isDeleted, isDisabled, deletedAt, disabledAt, inactive, rfl⟩ := marks.fields
      exact h.marked hinj ha hx isActive isDeleted isDisabled deletedAt disabledAt
        (inactive (h.inactive a ha)) rfl hu

theorem write (h : t.Published π) (hinj : Function.Injective π.acsHash) {w : AgentWrite}
    (hfresh : Fresh π t (.write now w)) : (t.write π now w).Published π := by
  have hcons := h.consistent.write π now w
  cases hu : w.perform π now t with
  | error e =>
    have hw : t.write π now w = t := by simp [Tables.write, hu]
    rwa [hw]
  | ok u =>
    have hw : t.write π now w = u := by simp [Tables.write, hu]
    rw [hw] at hcons ⊢
    rcases perform_cases hu with ⟨id, acs, acsHash, hid, hclean, rfl⟩ |
      ⟨id, x, acs, hid, hne, hfree, rfl⟩ | ⟨a, ha, r, hr, rfl⟩
    · refine h.put hcons (draftAgent now id acs acsHash) [] ?_ (by simp [draftAgent])
        (by simp [draftAgent]) Int.one_pos (by simp [draftAgent]) ?_ (List.append_nil _).symm
        (by simp) (by simp)
      · intro e
        rw [List.mem_append, List.mem_singleton, or_comm]
        exact or_congr_right ⟨fun he => ⟨he, hid e he⟩, And.left⟩
      · intro e he hei
        exact absurd hei (hid e he)
    · let b := entityAgent π now id x (entityAcs x acs) (t.log.globalSeq + 1)
      let entry : ChangeLog :=
        ⟨t.log.globalSeq + 1, now, "acs", .upsert, x, 1, some (.obj (entityAcs x acs))⟩
      have hload : loadAgentAcsData π b.acs = some (entityAcs x acs) := by
        change loadAgentAcsData π (some (.obj (entityAcs x acs))) = _
        rw [loadAgentAcsData_obj, if_neg (by simp [entityAcs])]
      have hbound (d : ChangeLog) (hd : d ∈ t.log.everAppended) : d.seq < t.log.globalSeq + 1 :=
        Int.lt_add_one_of_le (h.consistent.log.bounded d hd).2
      refine h.put hcons b [entry] ?_ ?_ (by simp [b, entityAgent]) Int.one_pos ?_ ?_ rfl (by simp) ?_
      · intro e
        rw [List.mem_append, List.mem_singleton, or_comm]
        exact or_congr_right ⟨fun he => ⟨he, hid e he⟩, And.left⟩
      · rintro y ⟨⟩
        exact ⟨rfl, hne⟩
      · rintro y p ⟨⟩ hp
        obtain rfl := Option.some.inj (hload.symm.trans hp)
        refine ⟨⟨rfl, rfl⟩, rfl, entry, List.mem_append_right _ (List.mem_singleton.mpr rfl), rfl,
          rfl, rfl, rfl, ?_⟩
        intro d hd _
        rcases List.mem_append.mp hd with hd | hd
        · exact (hbound d hd).le
        · exact (congrArg ChangeLog.seq (List.mem_singleton.mp hd)).le
      · intro e he hei
        exact absurd hei (hid e he)
      · intro d hd
        obtain rfl := List.mem_singleton.mp hd
        refine ⟨⟨rfl, by rw [hload]; rfl, rfl, rfl, Int.one_pos, le_rfl, _, rfl⟩, fun c hc => ⟨hbound c hc, ?_⟩⟩
        intro hcx
        obtain ⟨e, he, howned⟩ := h.owned c hc
        exact absurd (howned.aic.trans (congrArg some hcx)) (aicTaken_eq_false.mp hfree e he)
    · exact h.edited hinj ha hr hfresh

end Edit

theorem congr (h : t.Published π) (hu : u.Consistent) (hagents : u.agents = t.agents)
    (hlog : u.log.everAppended = t.log.everAppended) : u.Published π where
  consistent := hu
  approved a ha := h.approved a (hagents ▸ ha)
  inactive a ha := h.inactive a (hagents ▸ ha)
  version a ha := h.version a (hagents ▸ ha)
  current a ha x o hx ho := by
    obtain ⟨hr, hh, hn⟩ := h.current a (hagents ▸ ha) x o hx ho
    exact ⟨hr, hh, hlog ▸ hn⟩
  owned c hc := by
    obtain ⟨a, ha, ho⟩ := h.owned c (hlog ▸ hc)
    exact ⟨a, hagents ▸ ha, ho⟩
  versions c hc d hd := h.versions c (hlog ▸ hc) d (hlog ▸ hd)

variable [DecidableEq H]

theorem handle (h : t.Published π) (hinj : Function.Injective π.acsHash) {e : Event}
    (hfresh : Fresh π t e) : (t.handle π e).Published π := by
  have hcons := h.consistent.handle π e
  cases e with
  | write now w => exact h.write hinj hfresh
  | burn => exact h.congr hcons rfl rfl
  | cleanup now windowHours maxRecords =>
    refine h.congr hcons rfl ?_
    unfold Tables.handle LogState.cleanup
    dsimp only
    split <;> rfl

theorem reachable (hinj : Function.Injective π.acsHash) {es : List Event}
    (hfresh : (registry π).Meets (Fresh π) .empty es) (ht : (registry π).exec .empty es = some t) :
    t.Published π :=
  (registry π).exec_invariant (fun _ _ _ hs hC he => Option.some.inj he ▸ hs.handle hinj hC) empty
    hfresh ht

end Tables.Published

end Acps.Registry
