import Acps.Dsp.Sync

/-!
A client that crashes in the middle of a full snapshot, restarts from its table and synchronizes
with the registry as it is by then.
-/

namespace Acps.Dsp

open Registry Paging Discovery

variable {H : Type}

section Changes

variable {loads : String → Option Json} {t : Tables H}

end Changes

section Snapshot

variable {π : Platform H} {t : Tables H} {r : Replica}

end Snapshot

structure Resumed (π : Platform H) (t u : Tables H) (es : List Envelope) (k : ℕ) (q : ℤ)
    (r : Replica) (ds : List Envelope) : Prop where
  before : t.Published π
  after : u.Published π
  grows : Grows t.log u.log
  bare : ∀ a ∈ t.agents, ∀ x, a.aic = some x → loadAgentAcsData π a.acs = none →
    ∃ b ∈ u.agents, b.aic = some x ∧ loadAgentAcsData π b.acs = none
  retained : u.log.changeLog = u.log.everAppended
  sent : buildEnvelopes π.loads (snapshotTable t ["acs"] none) = .ok es
  tracked : r.Tracked
  rows : ∀ x row, r.agents.lookup x = some row ↔ ∃ e ∈ es.take k, e.id = x ∧ envelopeRow e = row
  reached : ∃ d ∈ es.take k, d.seq = q
  covered : ∀ d ∈ es.take k, d.seq ≤ q
  feed : List.Forall₂ (Decodes π.loads) (u.log.changeLog.filter (wanted q (some ["acs"]))) ds

namespace Resumed

variable {π : Platform H} {t u : Tables H} {es ds : List Envelope} {k : ℕ} {q : ℤ} {r : Replica}
  {x : String} {c : ChangeLog}

theorem exists_sent (h : Resumed π t u es k q r ds) {e : Envelope} (he : e ∈ es.take k) :
    ∃ a, Sent t none a e :=
  Dsp.exists_sent h.before.consistent π.loads_empty h.sent (List.mem_of_mem_take he)

theorem version_lt (h : Resumed π t u es k q r ds) {e : Envelope} (he : e ∈ es.take k)
    (hc : c ∈ u.log.everAppended) (hid : e.id = c.id) (hlt : q < c.seq) :
    e.version < c.version := by
  obtain ⟨a, ha⟩ := h.exists_sent he
  obtain ⟨b, hb, howned⟩ := h.after.owned c hc
  cases ho : loadAgentAcsData π a.acs with
  | none =>
    obtain ⟨b', hb', hx, hnone⟩ := h.bare a ha.agent e.id ha.aic ho
    obtain rfl := h.after.consistent.aics b hb b' hb' c.id howned.aic (hid ▸ hx)
    exact absurd howned.acs (by simp [hnone])
  | some o =>
    obtain ⟨d, hd, hseq, hver, _⟩ := newestEntry_of_agent h.before ha.agent ha.aic ho
    have hde : d.seq = e.seq := Option.some.inj (hseq.symm.trans ha.lastSeq)
    have hcov := h.covered e he
    rw [ha.version, ← hver]
    exact h.after.versions d (h.grows.subset hd.mem) c hc (hd.id.trans hid) (by omega)

end Resumed

section Restart

variable {π : Platform H} {t u : Tables H}

end Restart

variable [DecidableEq H]

end Acps.Dsp
