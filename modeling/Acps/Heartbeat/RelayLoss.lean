import Acps.Heartbeat.Relay

/-!
Where the entries of the outbox are: still in the stream and not delivered, pending with a consumer,
or in Kafka.
-/

namespace Acps.Heartbeat

variable {N : Type}

namespace Backend

def Sent (b : Backend N) (p : ℕ) : Prop := ∃ d, b.outbox.added[p]? = some d ∧ d ∈ b.topic

def Pends (b : Backend N) (p : ℕ) : Prop := ∃ g, b.group = some g ∧ g.Pends p

def Undelivered (b : Backend N) (p : ℕ) : Prop :=
  b.outbox.trimmed ≤ p ∧ ∀ g, b.group = some g → g.lastDelivered ≤ p

def NeverDropped (b : Backend N) : Prop :=
  ∀ p, p < b.outbox.added.length →
    p ∈ b.truncated ∨ b.Undelivered p ∨ b.Pends p ∨ b.Sent p

structure Accounted (b : Backend N) : Prop where
  held : ∀ p, p < b.outbox.added.length → p ∈ b.truncated ∨ b.Sent p ∨
    (b.outbox.trimmed ≤ p ∧ ∀ g, b.group = some g → g.lastDelivered ≤ p ∨ g.Pends p)
  delivered : ∀ g, b.group = some g → g.lastDelivered ≤ b.outbox.added.length

structure Grows (b b' : Backend N) : Prop where
  added : b.outbox.added <+: b'.outbox.added
  topic : ∀ d ∈ b.topic, d ∈ b'.topic

end Backend

structure NodeSound (b : Backend N) (n : RelayNode) : Prop where
  known : ∀ x ∈ n.point.inHand, b.outbox.added[x.2]? = some x.1
  published : ∀ x, n.point.published = some x → x.1 ∈ b.topic

open Backend RelayNode

variable {b b' : Backend N} {n n' : RelayNode} {p : ℕ}

namespace Backend

theorem Accounted.neverDropped (h : b.Accounted) : b.NeverDropped := by
  intro p hp
  rcases h.held p hp with hcut | hsent | ⟨htrim, hgroup⟩
  · exact .inl hcut
  · exact .inr (.inr (.inr hsent))
  · cases hg : b.group with
    | none => exact .inr (.inl ⟨htrim, fun g h => by rw [hg] at h; cases h⟩)
    | some g =>
      cases hgroup g hg with
      | inl hle =>
        refine .inr (.inl ⟨htrim, fun g' hg' => ?_⟩)
        obtain rfl : g = g' := Option.some.inj (hg.symm.trans hg')
        exact hle
      | inr hpend => exact .inr (.inr (.inl ⟨g, hg, hpend⟩))

theorem Grows.refl (b : Backend N) : b.Grows b := ⟨List.prefix_rfl, fun _ h => h⟩

theorem Grows.getElem? (h : b.Grows b') {d : Delta} (hd : b.outbox.added[p]? = some d) :
    b'.outbox.added[p]? = some d := by
  obtain ⟨ds, hds⟩ := h.added
  rw [← hds, List.getElem?_append_left (List.getElem?_eq_some_iff.mp hd).1]
  exact hd

theorem Grows.sent (h : b.Grows b') (hp : b.Sent p) : b'.Sent p := by
  obtain ⟨d, hd, hmem⟩ := hp
  exact ⟨d, h.getElem? hd, h.topic d hmem⟩

theorem grows_publish (b : Backend N) (d : Delta) : b.Grows (b.publish d) :=
  ⟨List.prefix_rfl, fun _ h => List.mem_append_left _ h⟩

theorem grows_setGroup (b : Backend N) (g : Option (Group N)) : b.Grows (b.setGroup g) :=
  ⟨List.prefix_rfl, fun _ h => h⟩

theorem grows_hbRelayCommit (b : Backend N) (epoch seq : ℕ) :
    b.Grows (b.hbRelayCommit epoch seq) := by
  unfold hbRelayCommit
  split
  · exact ⟨List.prefix_rfl, fun _ h => h⟩
  · exact .refl b

theorem grows_hbRelayAck (b : Backend N) (epoch i : ℕ) : b.Grows (b.hbRelayAck epoch i) := by
  unfold hbRelayAck
  split
  · exact grows_setGroup b _
  · exact .refl b

theorem grows_hbRelayTrim (b : Backend N) (epoch i : ℕ) : b.Grows (b.hbRelayTrim epoch i) := by
  unfold hbRelayTrim
  split
  · exact ⟨List.prefix_rfl, fun _ h => h⟩
  · exact .refl b

theorem grows_fcall (b : Backend N) (c : Call) : b.Grows (b.fcall c) := by
  refine ⟨?_, fun _ h => h⟩
  cases (moves_fcall b.shard c).added with
  | inl h => exact h ▸ List.prefix_rfl
  | inr h =>
    obtain ⟨d, hd⟩ := h
    exact hd ▸ List.prefix_append _ _

theorem sent_publish {d : Delta} (h : b.outbox.added[p]? = some d) : (b.publish d).Sent p :=
  ⟨d, h, List.mem_append_right _ (List.mem_singleton_self d)⟩

theorem Accounted.congr (h : b.Accounted) (hshard : b'.shard = b.shard) (hgroup : b'.group = b.group)
    (htopic : b'.topic = b.topic) (hcut : b'.truncated = b.truncated) : b'.Accounted := by
  obtain ⟨held, delivered⟩ := h
  unfold Sent outbox at held
  unfold outbox at delivered
  constructor
  · unfold Sent outbox
    rw [hshard, hgroup, htopic, hcut]
    exact held
  · unfold outbox
    rw [hshard, hgroup]
    exact delivered

theorem Accounted.publish (h : b.Accounted) (d : Delta) : (b.publish d).Accounted where
  held p hp := (h.held p hp).imp_right (Or.imp_left (grows_publish b d).sent)
  delivered := h.delivered

theorem Accounted.setGroup_none (h : b.Accounted) : (b.setGroup none).Accounted where
  held p hp := by
    rcases h.held p hp with hcut | hsent | ⟨htrim, _⟩
    · exact .inl hcut
    · exact .inr (.inl hsent)
    · exact .inr (.inr ⟨htrim, fun _ h => by cases h⟩)
  delivered _ h := by cases h

theorem Accounted.setGroup_create (h : b.Accounted) : (b.setGroup (some .create)).Accounted where
  held p hp := by
    rcases h.held p hp with hcut | hsent | ⟨htrim, _⟩
    · exact .inl hcut
    · exact .inr (.inl hsent)
    · refine .inr (.inr ⟨htrim, ?_⟩)
      rintro _ ⟨⟩
      exact .inl (Nat.zero_le p)
  delivered := by
    rintro _ ⟨⟩
    exact Nat.zero_le _

theorem Accounted.regroup (h : b.Accounted) {g g' : Group N} (hg : b.group = some g)
    (hle : g'.lastDelivered ≤ b.outbox.added.length)
    (hkeep : ∀ p, p < b.outbox.added.length → b.outbox.trimmed ≤ p →
      g.lastDelivered ≤ p ∨ g.Pends p →
      p ∈ b.truncated ∨ b.Sent p ∨ g'.lastDelivered ≤ p ∨ g'.Pends p) :
    (b.setGroup (some g')).Accounted where
  held p hp := by
    rcases h.held p hp with hcut | hsent | ⟨htrim, hgroup⟩
    · exact .inl hcut
    · exact .inr (.inl hsent)
    · rcases hkeep p hp htrim (hgroup g hg) with hcut | hsent | hgroup'
      · exact .inl hcut
      · exact .inr (.inl hsent)
      · refine .inr (.inr ⟨htrim, ?_⟩)
        rintro _ ⟨⟩
        exact hgroup'
  delivered := by
    rintro _ ⟨⟩
    exact hle

theorem Accounted.hbRelayAck (h : b.Accounted) (epoch : ℕ) (hsent : b.Sent p) :
    (b.hbRelayAck epoch p).Accounted := by
  unfold Backend.hbRelayAck
  split
  · cases hg : b.group with
    | none => exact h.setGroup_none
    | some g =>
      refine h.regroup hg (show (g.xack p).lastDelivered ≤ _ from h.delivered g hg) ?_
      intro q _ _ hq
      cases hq with
      | inl hle => exact .inr (.inr (.inl hle))
      | inr hpend =>
        by_cases heq : q = p
        · exact .inr (.inl (heq ▸ hsent))
        · exact .inr (.inr (.inr (Group.pends_xack.mpr ⟨hpend, heq⟩)))
  · exact h

theorem Accounted.xautoclaim (h : b.Accounted) {g : Group N} (hg : b.group = some g) (i : N)
    (count : ℕ) : (b.setGroup (some (g.xautoclaim b.outbox i count).group)).Accounted := by
  refine h.regroup hg
    (show (g.xautoclaim b.outbox i count).group.lastDelivered ≤ _ from h.delivered g hg) ?_
  intro p hp htrim hq
  refine .inr (.inr (hq.imp_right fun hpend => ?_))
  exact Group.pends_xautoclaim hpend
    (Stream.get?_eq_some.mpr ⟨htrim, List.getElem?_eq_getElem hp⟩)

theorem Accounted.xreadgroup (h : b.Accounted) {g : Group N} (hg : b.group = some g) (i : N)
    (count : ℕ) : (b.setGroup (some (g.xreadgroup b.outbox i count).2)).Accounted := by
  apply h.regroup hg (Group.lastDelivered_xreadgroup_le (h.delivered g hg) i count)
  intro p hp htrim hq
  refine .inr (.inr ?_)
  cases hq with
  | inr hpend => exact .inr (Group.pends_xreadgroup.mpr (.inl hpend))
  | inl hle =>
    apply or_iff_not_imp_left.mpr
    intro hlt
    rcases Group.of_lt_lastDelivered_xreadgroup (not_le.mp hlt) with hlt | hlt | hmem
    · exact absurd hlt (not_lt.mpr hle)
    · exact absurd hlt (not_lt.mpr htrim)
    · exact Group.pends_xreadgroup.mpr (.inr hmem)

theorem Accounted.hbRelayTrim (h : b.Accounted) {epoch i : ℕ}
    (hsent : epoch = b.relayEpoch → ∀ q, q < i → b.outbox.trimmed ≤ q →
      q ∈ b.truncated ∨ b.Sent q) : (b.hbRelayTrim epoch i).Accounted := by
  unfold Backend.hbRelayTrim
  split
  · next hepoch =>
    refine ⟨fun p hp => ?_, h.delivered⟩
    rcases h.held p hp with hcut | hs | ⟨htrim, hgroup⟩
    · exact .inl hcut
    · exact .inr (.inl hs)
    · by_cases hlt : p < i
      · exact (hsent hepoch.symm p hlt htrim).imp_right .inl
      · exact .inr (.inr ⟨max_le htrim ((min_le_left _ _).trans (not_lt.mp hlt)), hgroup⟩)
  · exact h

theorem Accounted.delconsumer [DecidableEq N] (h : b.Accounted) {c : N}
    (hsent : ∀ g, b.group = some g → ∀ p, (p, c) ∈ g.pending → p ∈ b.truncated ∨ b.Sent p) :
    (b.delconsumer c).Accounted := by
  unfold Backend.delconsumer
  cases hg : b.group with
  | none => exact h.setGroup_none
  | some g =>
    refine h.regroup hg (show (g.delconsumer c).lastDelivered ≤ _ from h.delivered g hg) ?_
    intro p _ _ hq
    cases hq with
    | inl hle => exact .inr (.inr (.inl hle))
    | inr hpend =>
      by_cases hc : (p, c) ∈ g.pending
      · exact (hsent g hg p hc).imp_right .inl
      · exact .inr (.inr (.inr (Group.pends_delconsumer hpend hc)))

theorem Accounted.fcall (h : b.Accounted) (c : Call) : (b.fcall c).Accounted := by
  have hmoves := moves_fcall b.shard c
  have hgrows := grows_fcall b c
  have htrim : b.outbox.trimmed ≤ (b.fcall c).outbox.trimmed := hmoves.trimmed_le
  constructor
  · intro p hp
    by_cases hcut : b.outbox.trimmed ≤ p ∧ p < (b.fcall c).outbox.trimmed
    · refine .inl (List.mem_append_right _ (List.mem_range'_1.mpr ⟨hcut.1, ?_⟩))
      have hlt := hcut.2
      change p < b.outbox.trimmed + ((b.fcall c).outbox.trimmed - b.outbox.trimmed)
      omega
    · by_cases hold : p < b.outbox.added.length
      · rcases h.held p hold with hc | hs | ⟨ht, hgroup⟩
        · exact .inl (List.mem_append_left _ hc)
        · exact .inr (.inl (hgrows.sent hs))
        · exact .inr (.inr ⟨by omega, hgroup⟩)
      · refine .inr (.inr ⟨?_, fun g hg => .inl ((h.delivered g hg).trans (not_lt.mp hold))⟩)
        have := b.outbox.trimmed_le
        omega
  · intro g hg
    exact (h.delivered g hg).trans hgrows.added.length_le

end Backend

section Nodes

theorem NodeSound.grows (h : NodeSound b n) (hb : b.Grows b') : NodeSound b' n where
  known x hx := hb.getElem? (h.known x hx)
  published x hx := hb.topic _ (h.published x hx)

theorem NodeSound.idle {p : RelayPoint} (hin : p.inHand = []) (hpub : p.published = none) :
    NodeSound b (n.at p) where
  known x hx := by
    have hmem : x ∈ p.inHand := hx
    rw [hin] at hmem
    cases hmem
  published x hx := by
    have hsome : p.published = some x := hx
    rw [hpub] at hsome
    cases hsome

theorem NodeSound.raised : NodeSound b n.raised := .idle rfl rfl

theorem NodeSound.recovering {rest : List Entry} (h : ∀ x ∈ rest, b.outbox.added[x.2]? = some x.1)
    (epoch : ℕ) (more : Bool) : NodeSound b (n.recovering epoch more rest) := by
  cases rest with
  | nil => cases more <;> exact .idle rfl rfl
  | cons e rest => exact ⟨h, fun _ hx => by cases hx⟩

theorem NodeSound.afterBatch (epoch : ℕ) : NodeSound b (n.afterBatch epoch) := by
  unfold RelayNode.afterBatch
  split
  · exact .idle rfl rfl
  · exact .idle rfl rfl

theorem NodeSound.sending {rest : List Entry} (h : ∀ x ∈ rest, b.outbox.added[x.2]? = some x.1)
    (epoch k : ℕ) : NodeSound b (n.sending epoch k rest) := by
  cases rest with
  | nil => exact .afterBatch epoch
  | cons e rest => exact ⟨h, fun _ hx => by cases hx⟩

theorem NodeSound.acked {rest : List Entry} (h : ∀ x ∈ rest, b.outbox.added[x.2]? = some x.1)
    (batchSize epoch : ℕ) (e : Entry) (k : ℕ) : NodeSound b (n.acked batchSize epoch e rest k) := by
  unfold RelayNode.acked
  dsimp only
  split
  · exact ⟨h, fun _ hx => by cases hx⟩
  · exact .sending h epoch (k + 1)

variable {i : N}

theorem Effect.grows (h : Effect b i n b') : b.Grows b' := by
  cases h with
  | keep hshard _ htopic _ =>
    have hadded : b.outbox.added = b'.outbox.added := by simp only [outbox, hshard]
    exact ⟨hadded ▸ List.prefix_rfl, fun _ h => htopic ▸ h⟩
  | create => exact grows_setGroup b _
  | destroy => exact grows_setGroup b _
  | claim _ => exact grows_setGroup b _
  | @publish e _ => exact grows_publish b e.1
  | @ack epoch e _ _ => exact grows_hbRelayAck b epoch e.2
  | read _ _ => exact grows_setGroup b _
  | @trim epoch _ => exact grows_hbRelayTrim b epoch _

def TrimsSent (b : Backend N) (n : RelayNode) : Prop :=
  ∀ j, n.lastAckedEntry = some j → n.point = .trim b.relayEpoch →
    ∀ q, q < j → b.outbox.trimmed ≤ q → q ∈ b.truncated ∨ b.Sent q

theorem NodeSound.sent (hn : NodeSound b n) {e : Entry} (he : n.point.published = some e)
    (hin : e ∈ n.point.inHand) : b.Sent e.2 :=
  ⟨e.1, hn.known e hin, hn.published e he⟩

theorem Effect.accounted (h : Effect b i n b') (hb : b.Accounted) (hn : NodeSound b n)
    (htrim : TrimsSent b n) : b'.Accounted := by
  cases h with
  | keep hshard hgroup htopic hcut => exact hb.congr hshard hgroup htopic hcut
  | create =>
    cases hg : b.group with
    | none => exact hb.setGroup_create
    | some g => exact hb.congr rfl hg.symm rfl rfl
  | destroy => exact hb.setGroup_none
  | claim hg => exact hb.xautoclaim hg i _
  | @publish e _ => exact hb.publish e.1
  | ack he hin => exact hb.hbRelayAck _ (hn.sent he hin)
  | read _ hg => exact hb.xreadgroup hg i _
  | trim hp =>
    apply hb.hbRelayTrim
    rintro rfl q hq htrimmed
    cases hj : n.lastAckedEntry with
    | none =>
      rw [hj] at hq
      exact absurd hq (Nat.not_lt_zero q)
    | some j =>
      rw [hj] at hq
      exact htrim j hj hp q hq htrimmed

variable {o : Outcome N}

theorem take_grows (h : b.Grows o.backend) (reply : Reply) : b.Grows (o.take b reply).1 := by
  cases reply with
  | ok => exact h
  | lost => exact h
  | failed => exact .refl b

theorem take_sound (hgrows : b.Grows o.backend) (hok : NodeSound o.backend o.ok)
    (herror : NodeSound b o.error) (reply : Reply) :
    NodeSound (o.take b reply).1 (o.take b reply).2 := by
  cases reply with
  | ok => exact hok
  | lost => exact herror.grows hgrows
  | failed => exact herror

variable [DecidableEq N] {batchSize : ℕ}

theorem run_sound (hn : NodeSound b n) (h : run batchSize b i n = some o) :
    NodeSound o.backend o.ok ∧ NodeSound b o.error := by
  have hgrows := (run_effect h).grows
  have hknown := hn.known
  cases hp : n.point <;> rw [run, hp] at h <;> rw [hp] at hknown
  case fresh | down | lag => cases h
  all_goals obtain rfl := Option.some.inj h
  case create => exact ⟨.idle rfl rfl, .idle rfl rfl⟩
  case lock =>
    unfold runLock
    cases b.relayLock <;> exact ⟨.idle rfl rfl, .idle rfl rfl⟩
  case incr => exact ⟨.idle rfl rfl, .idle rfl rfl⟩
  case prune => exact ⟨.idle rfl rfl, .idle rfl rfl⟩
  case claim epoch =>
    unfold runClaim
    cases hg : b.group with
    | none => exact ⟨.raised, .raised⟩
    | some g => exact ⟨.recovering (fun x hx => Group.mem_claimed hx) epoch _, .raised⟩
  case republish epoch e rest more =>
    refine ⟨⟨hknown, ?_⟩, .recovering (fun x hx => hknown x (List.mem_cons_of_mem e hx)) epoch more⟩
    rintro x ⟨⟩
    exact List.mem_append_right _ (List.mem_singleton_self _)
  case republishAck epoch e rest more =>
    have hrest : ∀ x ∈ rest, (b.hbRelayAck epoch e.2).outbox.added[x.2]? = some x.1 :=
      fun x hx => hgrows.getElem? (hknown x (List.mem_cons_of_mem e hx))
    refine ⟨?_, .raised⟩
    unfold runRepublishAck
    dsimp only
    split
    · exact .recovering hrest epoch more
    · exact .idle rfl rfl
  case xpending epoch =>
    refine ⟨?_, .idle rfl rfl⟩
    unfold runXpending
    dsimp only
    split <;> exact .idle rfl rfl
  case xrangePending epoch j =>
    refine ⟨?_, .idle rfl rfl⟩
    unfold runXrangePending
    dsimp only
    split <;> exact .idle rfl rfl
  case commitPending => exact ⟨.idle rfl rfl, .idle rfl rfl⟩
  case xinfoGroups epoch =>
    refine ⟨?_, .idle rfl rfl⟩
    unfold runXinfoGroups
    dsimp only
    split <;> exact .idle rfl rfl
  case xrangeDelivered epoch j =>
    refine ⟨?_, .idle rfl rfl⟩
    unfold runXrangeDelivered
    dsimp only
    split <;> exact .idle rfl rfl
  case commitDelivered => exact ⟨.idle rfl rfl, .idle rfl rfl⟩
  case read epoch =>
    unfold runRead
    cases hg : b.group with
    | none => exact ⟨.raised, .raised⟩
    | some g =>
      refine ⟨?_, .raised⟩
      dsimp only
      split
      · exact .idle rfl rfl
      · exact .sending (fun x hx => Group.mem_xreadgroup hx) epoch 0
  case send epoch e rest k =>
    refine ⟨⟨hknown, ?_⟩, .raised⟩
    rintro x ⟨⟩
    exact List.mem_append_right _ (List.mem_singleton_self _)
  case ack epoch e rest k =>
    have hrest : ∀ x ∈ rest, (b.hbRelayAck epoch e.2).outbox.added[x.2]? = some x.1 :=
      fun x hx => hgrows.getElem? (hknown x (List.mem_cons_of_mem e hx))
    refine ⟨?_, .raised⟩
    unfold runAck
    dsimp only
    split
    · exact .acked hrest batchSize epoch e k
    · exact .raised
  case commit epoch seq rest k =>
    have hrest : ∀ x ∈ rest, (b.hbRelayCommit epoch seq).outbox.added[x.2]? = some x.1 :=
      fun x hx => hgrows.getElem? (hknown x hx)
    refine ⟨?_, .raised⟩
    unfold runCommit
    dsimp only
    split
    · exact .sending hrest epoch k
    · exact .raised
  case trim epoch =>
    refine ⟨?_, .raised⟩
    unfold runTrim
    dsimp only
    split
    · exact .idle rfl rfl
    · exact .raised
  case destroy => exact ⟨.idle rfl rfl, .idle rfl rfl⟩
  case recreate epoch =>
    unfold runRecreate
    cases b.group with
    | none => exact ⟨.idle rfl rfl, .raised⟩
    | some g => exact ⟨.raised, .raised⟩
  case renew epoch =>
    refine ⟨?_, .raised⟩
    dsimp only
    split
    · exact .idle rfl rfl
    · exact .raised
  case release =>
    refine ⟨?_, .idle rfl rfl⟩
    unfold runRelease
    dsimp only
    split <;> exact .idle rfl rfl
  case unlock => exact ⟨.idle rfl rfl, .idle rfl rfl⟩

end Nodes

namespace Relays

variable [DecidableEq N] {batchSize : ℕ} {w w' : Relays N} {i : N}

structure Sound (w : Relays N) : Prop where
  accounted : w.backend.Accounted
  nodes : ∀ i, NodeSound w.backend (w.nodes i)

theorem Sound.set (h : w.Sound) {r : Backend N × RelayNode} (hgrows : w.backend.Grows r.1)
    (hacc : r.1.Accounted) (hnode : NodeSound r.1 r.2) : (w.set i r).Sound where
  accounted := hacc
  nodes j := by
    by_cases hj : j = i
    · subst hj
      rw [nodes_set_self]
      exact hnode
    · rw [nodes_set_of_ne hj]
      exact (h.nodes j).grows hgrows

omit [DecidableEq N] in
theorem sound_empty : (empty : Relays N).Sound where
  accounted := ⟨fun _ hp => absurd hp (Nat.not_lt_zero _), fun _ h => by cases h⟩
  nodes _ := .idle (n := .fresh) rfl rfl

end Relays

def KeepsUnsent (w : Relays N) : RelayAct N → Prop
  | .delconsumer _ c reply => reply ≠ .failed → ∀ g, w.backend.group = some g →
    ∀ p, (p, c) ∈ g.pending → p ∈ w.backend.truncated ∨ w.backend.Sent p
  | .resume i reply => reply ≠ .failed → TrimsSent w.backend (w.nodes i)
  | _ => True

theorem maybeHeal_sound (n : RelayNode) (epoch : ℕ) (exceeded : Bool) :
    NodeSound b (maybeHeal n epoch exceeded) := by
  unfold maybeHeal
  split
  · dsimp only
    split <;> exact .idle rfl rfl
  · exact .idle rfl rfl

namespace Relays

variable [DecidableEq N] {batchSize : ℕ} {w w' : Relays N} {i : N}

theorem Sound.resume (h : w.Sound) {o : Outcome N}
    (ho : run batchSize w.backend i (w.nodes i) = some o) {reply : Reply}
    (hC : KeepsUnsent w (.resume i reply)) : (w.set i (o.take w.backend reply)).Sound := by
  have heffect := run_effect ho
  obtain ⟨hok, herror⟩ := run_sound (h.nodes i) ho
  apply h.set (take_grows heffect.grows reply) ?_ (take_sound heffect.grows hok herror reply)
  cases reply with
  | ok => exact heffect.accounted h.accounted (h.nodes i) (hC (by decide))
  | lost => exact heffect.accounted h.accounted (h.nodes i) (hC (by decide))
  | failed => exact h.accounted

theorem Sound.delconsumer (h : w.Sound) {c : N} {reply : Reply}
    (hC : KeepsUnsent w (.delconsumer i c reply)) :
    (w.set i (Outcome.take w.backend
      ⟨w.backend.delconsumer c, w.nodes i, w.nodes i⟩ reply)).Sound := by
  have hgrows : w.backend.Grows (w.backend.delconsumer c) := Backend.grows_setGroup _ _
  apply h.set (take_grows hgrows reply)
  · cases reply with
    | ok => exact h.accounted.delconsumer (hC (by decide))
    | lost => exact h.accounted.delconsumer (hC (by decide))
    | failed => exact h.accounted
  · exact take_sound hgrows ((h.nodes i).grows hgrows) (h.nodes i) reply

theorem Sound.step (h : w.Sound) {a : RelayAct N} (hC : KeepsUnsent w a)
    (ha : w.step batchSize a = some w') : w'.Sound := by
  cases a with
  | call c =>
    obtain rfl := Option.some.inj ha
    exact ⟨h.accounted.fcall c, fun j => (h.nodes j).grows (Backend.grows_fcall _ c)⟩
  | expire =>
    obtain rfl := Option.some.inj ha
    exact ⟨h.accounted.congr rfl rfl rfl rfl, fun j =>
      (h.nodes j).grows ⟨List.prefix_rfl, fun _ hd => hd⟩⟩
  | start i =>
    simp only [Relays.step] at ha
    split at ha
    · obtain rfl := Option.some.inj ha
      exact h.set (.refl _) h.accounted (.idle rfl rfl)
    · cases ha
  | crash i =>
    obtain rfl := Option.some.inj ha
    exact h.set (.refl _) h.accounted (.idle rfl rfl)
  | delconsumer i c reply =>
    simp only [Relays.step] at ha
    split at ha
    · split at ha
      · cases ha
      · obtain rfl := Option.some.inj ha
        exact h.delconsumer hC
    · cases ha
  | lag i exceeded =>
    simp only [Relays.step] at ha
    split at ha
    · obtain rfl := Option.some.inj ha
      exact h.set (.refl _) h.accounted (maybeHeal_sound _ _ exceeded)
    · cases ha
  | resume i reply =>
    obtain ⟨o, ho, rfl⟩ := Option.map_eq_some_iff.mp ha
    exact h.resume ho hC

theorem sound_exec {acts : List (RelayAct N)}
    (hC : (relays batchSize).Meets KeepsUnsent empty acts)
    (h : (relays batchSize).exec empty acts = some w) : w.Sound :=
  (relays batchSize).exec_invariant (I := Sound) (fun _ _ _ hs hc ha => hs.step hc ha)
    sound_empty hC h

end Relays

theorem relay_never_drops {N : Type} [DecidableEq N] {batchSize : ℕ} {w : Relays N}
    {acts : List (RelayAct N)} (h : (relays batchSize).exec .empty acts = some w)
    (hC : (relays batchSize).Meets KeepsUnsent .empty acts) : w.backend.NeverDropped :=
  (Relays.sound_exec hC h).accounted.neverDropped

def takeoverRun : List (RelayAct ℕ) :=
  [.call (.applyHeartbeat "a" 0 "1970-01-01T00:00:00+00:00" none 30000 ⟨1000000, 0⟩), .start 0] ++
    List.replicate 8 (.resume 0 .ok) ++ [.crash 0, .expire, .start 1] ++
    List.replicate 3 (.resume 1 .ok)

def discardsNothing (w : Relays ℕ) : RelayAct ℕ → Bool
  | .delconsumer .. => false
  | .resume i _ => match (w.nodes i).point with
    | .trim _ => false
    | _ => true
  | _ => true

theorem keepsUnsent_of_discardsNothing (w : Relays ℕ) (a : RelayAct ℕ)
    (h : discardsNothing w a = true) : KeepsUnsent w a := by
  cases a with
  | delconsumer => cases h
  | resume i reply =>
    intro _ _ _ hp
    rw [discardsNothing, hp] at h
    cases h
  | _ => trivial

theorem relay_never_drops_takeover :
    ∃ w, (relays 100).exec .empty (takeoverRun ++ List.replicate 4 (.resume 1 .ok)) = some w ∧
      w.backend.topic.length = 1 ∧ w.backend.NeverDropped := by
  have hrun : ((relays 100).exec .empty (takeoverRun ++ List.replicate 4 (.resume 1 .ok))).any
      (fun w => w.backend.topic.length = 1) = true := by decide +kernel
  have hcheck : (relays 100).check discardsNothing .empty
      (takeoverRun ++ List.replicate 4 (.resume 1 .ok)) = true := by decide +kernel
  obtain ⟨w, hw, htopic⟩ := (Option.any_eq_true _ _).mp hrun
  refine ⟨w, hw, of_decide_eq_true htopic, relay_never_drops hw ?_⟩
  exact (relays 100).meets_of_check keepsUnsent_of_discardsNothing hcheck

theorem pruned_consumer_drops_entry :
    ∃ w, (relays 100).exec .empty (takeoverRun ++ [.delconsumer 1 0 .ok]) = some w ∧
      ¬ w.backend.NeverDropped := by
  have hrun : ((relays 100).exec .empty (takeoverRun ++ [.delconsumer 1 0 .ok])).any (fun w =>
      w.backend.outbox.added.length = 1 ∧ w.backend.truncated = [] ∧ w.backend.topic = [] ∧
        w.backend.group.map Group.lastDelivered = some 1 ∧
        w.backend.group.map Group.pending = some []) = true := by decide +kernel
  obtain ⟨w, hw, hfacts⟩ := (Option.any_eq_true _ _).mp hrun
  obtain ⟨hlen, hcut, htopic, hdel, hpend⟩ := of_decide_eq_true hfacts
  refine ⟨w, hw, fun hnever => ?_⟩
  rcases hnever 0 (by omega) with h | ⟨_, h⟩ | ⟨g, hg, c, h⟩ | ⟨d, _, h⟩
  · rw [hcut] at h
    cases h
  · obtain ⟨g, hg, hd⟩ := Option.map_eq_some_iff.mp hdel
    have := h g hg
    omega
  · rw [hg, Option.map_some, Option.some.injEq] at hpend
    rw [hpend] at h
    cases h
  · rw [htopic] at h
    cases h

end Acps.Heartbeat
