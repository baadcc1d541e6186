import Acps.Registry.Commands

/-!
Every run of commands is a history of writes, and along it each agent with an AIC and an ACS is
announced by the newest entry of the change log on it.
-/

namespace Acps.Registry

open Dsp

variable {H : Type}

structure Flagged (a : Agent H) : Prop where
  active : a.isActive = (!a.isDeleted && !a.isDisabled)
  deletedAt : a.deletedAt.isSome = a.isDeleted
  disabledAt : a.disabledAt.isSome = a.isDisabled

theorem Flagged.of_flags {a b : Agent H} (h : Flagged a) (hflags : flags b = flags a) :
    Flagged b := by
  obtain ⟨h₁, h₂, h₃, h₄, h₅⟩ : b.isActive = a.isActive ∧ b.isDeleted = a.isDeleted ∧
      b.deletedAt = a.deletedAt ∧ b.isDisabled = a.isDisabled ∧ b.disabledAt = a.disabledAt := by
    simpa [flags] using hflags
  constructor
  · rw [h₁, h₂, h₄]
    exact h.active
  · rw [h₂, h₃]
    exact h.deletedAt
  · rw [h₄, h₅]
    exact h.disabledAt

theorem Flagged.of_marks {now : Timestamp} {a b : Agent H} (h : Flagged a) (hm : Marks now a b) :
    Flagged b := by
  cases hm with
  | disabled => exact ⟨(Bool.and_false _).symm, h.deletedAt, rfl⟩
  | deleted => exact ⟨rfl, rfl, h.disabledAt⟩
  | enabled =>
    unfold markAgentEnabled
    dsimp only
    split
    · next hdel =>
      have hdeleted : a.isDeleted = true := by
        simpa [isAgentDeleted, h.deletedAt] using hdel
      exact ⟨h.active.trans (by simp [hdeleted]), h.deletedAt, rfl⟩
    · next hdel =>
      have hdeleted : a.isDeleted = false := by
        simpa [isAgentDeleted, h.deletedAt] using hdel
      exact ⟨by simp [hdeleted], h.deletedAt, rfl⟩

section

variable [DecidableEq H] (π : Platform H) (S : AicSettings)

theorem write_flagged {now : Timestamp} {t : Tables H} (h : ∀ a ∈ t.agents, Flagged a)
    (w : AgentWrite) : ∀ a ∈ (t.write π now w).agents, Flagged a := by
  unfold Tables.write
  cases hu : w.perform π now t with
  | error e => exact h
  | ok u =>
    intro a ha
    rcases perform_cases hu with ⟨id, acs, acsHash, _, _, rfl⟩ | ⟨id, x, acs, _, _, _, rfl⟩ |
      ⟨b, hb, r, hr, rfl⟩
    · rcases List.mem_append.mp ha with ha | ha
      · exact h a ha
      · obtain rfl := List.mem_singleton.mp ha
        exact ⟨rfl, rfl, rfl⟩
    · rcases List.mem_append.mp ha with ha | ha
      · exact h a ha
      · obtain rfl := List.mem_singleton.mp ha
        exact ⟨rfl, rfl, rfl⟩
    · obtain ⟨c, hc, hn⟩ := hr.renumbers
      rcases (Tables.mem_save hb (hn.id.trans hc.id)).mp ha with rfl | ⟨ha, _⟩
      · refine Flagged.of_flags ?_ hn.flags
        rcases hc.flags with hflags | ⟨_, hmarks⟩
        · exact (h b hb).of_flags hflags
        · exact (h b hb).of_marks hmarks
      · exact h a ha

def AgentWrite.Issues : AgentWrite → Prop
  | .approve .. => True
  | _ => False

def ApprovalMeets (C : Tables H → Event → Prop) (r : Database H) : Timestamp × Command → Prop
  | (now, .approve id provider providerCode ontologySerial instanceSerial) =>
    ∀ newAic, issueAgentAic S (r.isOntology id) providerCode ontologySerial instanceSerial =
        .ok newAic →
      C r.tables (.write now (.approve id provider (String.ofList newAic)))
  | _ => True

def Unguessed : Database H → Timestamp × Command → Prop := ApprovalMeets S (Fresh π)

def Written (C : Tables H → Event → Prop) (t u : Tables H) : Prop :=
  ∃ es : List Event, (∀ e ∈ es, e.Retains) ∧ (registry π).Meets C t es ∧
    (registry π).exec t es = some u

variable {π S} {C : Tables H → Event → Prop}

theorem Written.refl (t : Tables H) : Written π C t t := ⟨[], by simp, trivial, rfl⟩

theorem Written.trans {t u v : Tables H} (h : Written π C t u) (h' : Written π C u v) :
    Written π C t v := by
  obtain ⟨es, hes, hmeets, hexec⟩ := h
  obtain ⟨es', hes', hmeets', hexec'⟩ := h'
  refine ⟨es ++ es', ?_, (registry π).meets_append_of_exec hmeets hexec hmeets', ?_⟩
  · intro e he
    rcases List.mem_append.mp he with he | he
    · exact hes e he
    · exact hes' e he
  · rw [(registry π).exec_append, hexec]
    exact hexec'

variable {now : Timestamp} {r r' : Database H}

theorem mapError_eq_ok {ε ε' α : Type} {f : ε → ε'} {x : Except ε α} {y : α}
    (h : x.mapError f = .ok y) : x = .ok y := by
  cases x with
  | error e => cases h
  | ok z => exact congrArg Except.ok (Except.ok.inj h)

theorem write_eq_ok {w : AgentWrite} (h : r.write π now w = .ok r') :
    w.perform π now r.tables = .ok r'.tables ∧ r'.ontologies = r.ontologies := by
  unfold Database.write at h
  cases hw : w.perform π now r.tables with
  | error e =>
    rw [hw] at h
    cases h
  | ok t =>
    rw [hw] at h
    obtain rfl := Except.ok.inj h
    exact ⟨rfl, rfl⟩

theorem written_of_write {w : AgentWrite} (h : r.write π now w = .ok r')
    (hC : C r.tables (.write now w)) : Written π C r.tables r'.tables := by
  refine ⟨[.write now w], by simp [Event.Retains], ⟨hC, fun _ _ => trivial⟩, ?_⟩
  simp [Transition.System.exec, registry, Tables.handle, Tables.write, (write_eq_ok h).1]

theorem written_of_writes {w : ℕ → AgentWrite} (hC : ∀ id t, C t (.write now (w id)))
    {ids : List ℕ} (h : ids.foldlM (fun r id => r.write π now (w id)) r = .ok r') :
    Written π C r.tables r'.tables := by
  induction ids generalizing r with
  | nil =>
    obtain rfl := Except.ok.inj h
    exact .refl _
  | cons id ids ih =>
    obtain ⟨u, hu, hrest⟩ := bind_eq_ok h
    exact (written_of_write hu (hC id _)).trans (ih hrest)

theorem written_of_cascade (own : AgentWrite) (derived : ℕ → AgentWrite)
    {selected : Agent H → Bool} {id : ℕ} {order : RowOrder}
    (hown : ∀ t, C t (.write now own)) (hderived : ∀ id t, C t (.write now (derived id)))
    (h : r.cascade S π now own derived selected id order = .ok r') :
    Written π C r.tables r'.tables := by
  obtain ⟨u, hu, h⟩ := bind_eq_ok h
  obtain ⟨a, _, h⟩ := bind_eq_ok h
  obtain ⟨rows, _, h⟩ := bind_eq_ok h
  exact (written_of_write hu (hown _)).trans (written_of_writes hderived h)

theorem written_of_perform (hplain : ∀ t w, ¬ w.Issues → C t (.write now w)) {c : Command}
    (hC : ApprovalMeets S C r (now, c)) (h : r.perform S π now c = .ok r') :
    Written π C r.tables r'.tables := by
  cases c with
  | create id isOntology acs =>
    obtain ⟨u, hu, h⟩ := bind_eq_ok h
    obtain rfl := Except.ok.inj h
    have hw : Written π C r.tables u.tables := written_of_write hu (hplain _ _ not_false)
    exact hw
  | update id acs => exact written_of_write h (hplain _ _ not_false)
  | submit id => exact written_of_write h (hplain _ _ not_false)
  | cancel id => exact written_of_write h (hplain _ _ not_false)
  | reject id => exact written_of_write h (hplain _ _ not_false)
  | approve id provider providerCode ontologySerial instanceSerial =>
    obtain ⟨newAic, hissue, h⟩ := bind_eq_ok h
    exact written_of_write h (hC newAic (mapError_eq_ok hissue))
  | registerEntity id ontologyAic instanceSerial acs =>
    obtain ⟨a, _, h⟩ := bind_eq_ok h
    obtain ⟨entityAic, _, h⟩ := bind_eq_ok h
    obtain ⟨_, _, h⟩ := bind_eq_ok h
    exact written_of_write h (hplain _ _ not_false)
  | disable id order =>
    exact written_of_cascade (.disable id) .disableDerived (fun _ => hplain _ _ not_false)
      (fun _ _ => hplain _ _ not_false) h
  | enable id order =>
    exact written_of_cascade (.enable id) .enableDerived (fun _ => hplain _ _ not_false)
      (fun _ _ => hplain _ _ not_false) h
  | delete id order =>
    exact written_of_cascade (.delete id) .deleteDerived (fun _ => hplain _ _ not_false)
      (fun _ _ => hplain _ _ not_false) h

omit [DecidableEq H] in
theorem fresh_of_not_issues {t : Tables H} {w : AgentWrite} (h : ¬ w.Issues) :
    Fresh π t (.write now w) := by
  cases w with
  | approve id provider newAic => exact absurd trivial h
  | _ => trivial

theorem written_of_handle {e : Timestamp × Command} (hC : Unguessed π S r e) :
    Written π (Fresh π) r.tables (r.handle S π e.1 e.2).tables := by
  unfold Database.handle
  cases hp : r.perform S π e.1 e.2 with
  | error _ => exact .refl _
  | ok r' => exact written_of_perform (fun _ _ => fresh_of_not_issues) hC hp

theorem written_of_commands {cs : List (Timestamp × Command)}
    (hC : (commands S π).Meets (Unguessed π S) .empty cs)
    (h : (commands S π).exec .empty cs = some r) : Written π (Fresh π) .empty r.tables :=
  (commands S π).exec_invariant (I := fun r => Written π (Fresh π) .empty r.tables)
    (fun _ _ _ hs hC he => Option.some.inj he ▸ hs.trans (written_of_handle hC)) (.refl _) hC h

theorem Written.flagged {t u : Tables H} (h : Written π C t u) (ht : ∀ a ∈ t.agents, Flagged a) :
    ∀ a ∈ u.agents, Flagged a := by
  obtain ⟨es, hes, _, hexec⟩ := h
  refine (registry π).exec_induction (I := fun v : Tables H => ∀ a ∈ v.agents, Flagged a) ?_ ht hexec
  intro v e v' hv he
  obtain rfl := Option.some.inj he
  cases e with
  | write now w => exact write_flagged π hv w
  | burn => exact hv
  | cleanup now windowHours maxRecords => exact hv

theorem Written.consistent {t u : Tables H} (h : Written π C t u) (ht : t.Consistent) :
    u.Consistent := by
  obtain ⟨es, _, _, hexec⟩ := h
  exact (registry π).exec_induction (I := Tables.Consistent)
    (fun _ e _ hs he => Option.some.inj he ▸ hs.handle π e) ht hexec

structure Announced (log : LogState) (a : Agent H) (x : String) (o : JsonObject) : Prop where
  aic : o.get "aic" = some (.str x)
  active : o.get "active" = some (.bool a.isActive)
  newest : ∃ c ∈ log.changeLog, c.id = x ∧ (∀ d ∈ log.changeLog, d.id = x → d.seq ≤ c.seq) ∧
    a.acsLastSeq = some c.seq ∧ c.version = a.acsVersion ∧ c.payload = a.acs

theorem get_of_getOrNone {o : JsonObject} {k : String} {v : Json} (h : getOrNone o k = some v) :
    o.get k = some v := (Option.filter_eq_some_iff.mp h).1

theorem agents_announced (hinj : Function.Injective π.acsHash) {cs : List (Timestamp × Command)}
    (hC : (commands S π).Meets (Unguessed π S) .empty cs)
    (h : (commands S π).exec .empty cs = some r) :
    ∀ a ∈ r.tables.agents, a.isActive = (!a.isDeleted && !a.isDisabled) ∧
      ∀ x o, a.aic = some x → loadAgentAcsData π a.acs = some o →
        Announced r.tables.log a x o := by
  have hwritten := written_of_commands hC h
  have hflagged := hwritten.flagged (by simp [Tables.empty])
  obtain ⟨es, hes, hfresh, hexec⟩ := hwritten
  have hpub := Tables.Published.reachable hinj hfresh hexec
  have hlog := exec_retains π rfl hes hexec
  intro a ha
  refine ⟨(hflagged a ha).active, fun x o hx ho => ?_⟩
  obtain ⟨hreflects, _, c, hc, hid, hseq, hversion, hpayload, hnewest⟩ :=
    hpub.current a ha x o hx ho
  have haic := hreflects.aic
  rw [hx] at haic
  refine ⟨get_of_getOrNone haic, get_of_getOrNone hreflects.active, c, hlog ▸ hc, hid, ?_, hseq,
    hversion, hpayload.trans ((hpub.consistent.clean a ha).eq_obj ho).symm⟩
  intro d hd hdx
  exact hnewest d (hlog ▸ hd) hdx

end

def approval : Timestamp × Command :=
  (3, .approve 1 .null ⟨['B'], by decide⟩ ⟨['C'], by decide⟩ ⟨['D'], by decide⟩)

def approvalRun (aic : String) : List (Timestamp × Command) :=
  [(1, .create 1 false (some (.obj [("aic", .str aic), ("active", .bool true)]))), (2, .submit 1),
    approval]

theorem approvalRun_unguessed :
    (commands plainSettings plainPlatform).Meets (Unguessed plainPlatform plainSettings) .empty
      (approvalRun "") := by
  refine ⟨trivial, fun s hs => ⟨trivial, fun t ht => ⟨?_, fun _ _ => trivial⟩⟩⟩
  obtain rfl := Option.some.inj hs
  obtain rfl := Option.some.inj ht
  intro newAic hissue a ha
  have haic : newAic = "1.2.156.3088.1.A.B.C.D.140G".toList := by
    have hplain : issueAgentAic plainSettings false ⟨['B'], by decide⟩ ⟨['C'], by decide⟩
        ⟨['D'], by decide⟩ = .ok "1.2.156.3088.1.A.B.C.D.140G".toList := by decide +kernel
    exact Except.ok.inj (hissue.symm.trans hplain)
  have hacs : a.acs = some (.obj [("aic", .str ""), ("active", .bool true)]) ∧
      a.acsHash = some (.obj [("aic", .str ""), ("active", .bool true)]) := by
    revert a
    decide +kernel
  intro _ o ho
  have hobj : o = [("aic", .str ""), ("active", .bool true)] := by
    rcases ho with ho | ho
    · rw [hacs.1, loadAgentAcsData_obj] at ho
      exact (Option.some.inj ho).symm
    · rw [hacs.2] at ho
      exact (Payload.obj.inj (Option.some.inj ho)).symm
  subst haic hobj
  decide +kernel

theorem agents_announced_approved :
    ∃ r, (commands plainSettings plainPlatform).exec .empty (approvalRun "") = some r ∧
      r.tables.agents ≠ [] ∧
      ∀ a ∈ r.tables.agents, a.isActive = (!a.isDeleted && !a.isDisabled) ∧
        ∀ x o, a.aic = some x → loadAgentAcsData plainPlatform a.acs = some o →
          Announced r.tables.log a x o := by
  have hrun : ((commands plainSettings plainPlatform).exec .empty (approvalRun "")).map
      (fun r => r.tables.agents.length) = some 1 := by decide +kernel
  obtain ⟨r, hr, hagents⟩ := Option.map_eq_some_iff.mp hrun
  have hinj : Function.Injective plainPlatform.acsHash := fun _ _ he => Payload.obj.inj he
  exact ⟨r, hr, List.ne_nil_of_length_pos (by omega),
    agents_announced hinj approvalRun_unguessed hr⟩

theorem guessed_aic_unannounced :
    ¬ ∀ r, (commands plainSettings plainPlatform).exec .empty
        (approvalRun "1.2.156.3088.1.A.B.C.D.140G") = some r →
      ∀ a ∈ r.tables.agents, ∀ x o, a.aic = some x → loadAgentAcsData plainPlatform a.acs = some o →
        Announced r.tables.log a x o := by
  intro h
  have hrun : ((commands plainSettings plainPlatform).exec .empty
      (approvalRun "1.2.156.3088.1.A.B.C.D.140G")).map (fun r => (r.tables.log.changeLog,
        r.tables.agents.map fun a => (a.aic, (loadAgentAcsData plainPlatform a.acs).isSome))) =
      some ([], [(some "1.2.156.3088.1.A.B.C.D.140G", true)]) := by decide +kernel
  obtain ⟨r, hr, hview⟩ := Option.map_eq_some_iff.mp hrun
  obtain ⟨hlog, hagents⟩ := Prod.mk.inj hview
  obtain ⟨a, ha, haic⟩ := List.mem_map.mp (hagents ▸ List.mem_singleton_self _)
  obtain ⟨hx, hload⟩ := Prod.mk.inj haic
  obtain ⟨o, ho⟩ := Option.isSome_iff_exists.mp hload
  obtain ⟨c, hc, _⟩ := (h r hr a ha _ o hx ho).newest
  rw [hlog] at hc
  exact List.not_mem_nil hc

end Acps.Registry
