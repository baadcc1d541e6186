import Acps.Heartbeat.RelayLoss

/-!
The published seq as a low-water mark.
-/

namespace Acps.Heartbeat

variable {N : Type}

namespace RelayPoint

def session : RelayPoint → Option ℕ
  | .prune e | .claim e | .republish e _ _ _ | .republishAck e _ _ _ => some e
  | .xpending e | .xrangePending e _ | .commitPending e _ | .xinfoGroups e => some e
  | .xrangeDelivered e _ | .commitDelivered e _ | .read e | .send e _ _ _ => some e
  | .ack e _ _ _ | .commit e _ _ _ | .trim e | .lag e => some e
  | .destroy e | .recreate e | .renew e => some e
  | _ => none

def recovered : RelayPoint → Bool
  | .republish _ _ _ more | .republishAck _ _ _ more => !more
  | .prune _ | .claim _ => false
  | p => p.session.isSome

def toSend : RelayPoint → List Entry
  | .republish _ e rest _ => e :: rest
  | .republishAck _ _ rest _ => rest
  | .send _ e rest _ => e :: rest
  | .ack _ _ rest _ => rest
  | .commit _ _ rest _ => rest
  | _ => []

def mark : RelayPoint → Option ℕ
  | .xrangePending _ i => some i
  | .commitPending _ seq => some seq
  | .xrangeDelivered _ i => some (i + 1)
  | .commitDelivered _ seq => some seq
  | .ack _ e _ _ => some (e.2 + 1)
  | .commit _ seq _ _ => some seq
  | _ => none

def batch : RelayPoint → List Entry
  | .send _ e rest _ => e :: rest
  | .ack _ _ rest _ => rest
  | .commit _ _ rest _ => rest
  | _ => []

end RelayPoint

namespace Backend

structure SentBelow (b : Backend N) (m : ℕ) : Prop where
  le : m ≤ b.outbox.added.length
  sent : ∀ p, p < m → b.Sent p

def LowWater (b : Backend N) : Prop :=
  ∀ d ∈ b.outbox.added, d.seq ≤ b.publishedSeq → d ∈ b.topic

def Settled (b : Backend N) (l : List Entry) : Prop :=
  ∀ p, b.Pends p → b.Sent p ∨ p ∈ l.map Prod.snd

structure Covered (b : Backend N) (l : List Entry) : Prop where
  ascending : l.Pairwise (fun x y => x.2 < y.2)
  before : ∀ x ∈ l, ∀ p, p < x.2 → b.Sent p ∨ p ∈ l.map Prod.snd

structure Marked (b : Backend N) : Prop where
  accounted : b.Accounted
  cut : ∀ p ∈ b.truncated, b.Sent p
  pending : ∀ g, b.group = some g → ∀ p, g.Pends p → p < g.lastDelivered
  seqs : b.outbox.added.map Delta.seq = List.range' 1 b.shard.deltaSeq
  mark : b.SentBelow b.publishedSeq

end Backend

open Backend RelayNode

structure Holds (b : Backend N) (p : RelayPoint) : Prop where
  settled : p.recovered = true → b.Settled p.toSend
  mark : ∀ m, p.mark = some m → b.SentBelow m
  covered : b.Covered p.batch

def NodeMarked (b : Backend N) (n : RelayNode) : Prop :=
  n.point.session = some b.relayEpoch → Holds b n.point

variable {b b' : Backend N} {n : RelayNode} {p m : ℕ} {l : List Entry}

namespace Backend

theorem Grows.sentBelow (h : b.Grows b') (hm : b.SentBelow m) : b'.SentBelow m :=
  ⟨hm.le.trans h.added.length_le, fun p hp => h.sent (hm.sent p hp)⟩

theorem covered_nil : b.Covered [] := ⟨.nil, fun _ h => (by cases h)⟩

theorem Grows.covered (h : b.Grows b') (hl : b.Covered l) : b'.Covered l :=
  ⟨hl.ascending, fun x hx p hp => (hl.before x hx p hp).imp_left h.sent⟩

theorem Settled.mono (h : b.Settled l) (hgrows : b.Grows b')
    (hpends : ∀ p, b'.Pends p → b.Pends p) : b'.Settled l :=
  fun p hp => (h p (hpends p hp)).imp_left hgrows.sent

theorem settled_of_no_group (h : b.group = none) (l : List Entry) : b.Settled l := by
  rintro p ⟨g, hg, _⟩
  rw [h] at hg
  cases hg

theorem seq_of_getElem? (hseqs : b.outbox.added.map Delta.seq = List.range' 1 b.shard.deltaSeq)
    {d : Delta} (hd : b.outbox.added[p]? = some d) : d.seq = p + 1 := by
  have hmap : (b.outbox.added.map Delta.seq)[p]? = some d.seq := by
    rw [List.getElem?_map, hd, Option.map_some]
  rw [hseqs, List.getElem?_eq_some_iff] at hmap
  obtain ⟨hlt, hget⟩ := hmap
  rw [List.getElem_range'] at hget
  omega

theorem Marked.lowWater (h : b.Marked) : b.LowWater := by
  intro d hd hle
  obtain ⟨p, hp⟩ := List.getElem?_of_mem hd
  rw [seq_of_getElem? h.seqs hp] at hle
  obtain ⟨d', hd', hmem⟩ := h.mark.sent p (by omega)
  obtain rfl : d = d' := Option.some.inj (hp.symm.trans hd')
  exact hmem

theorem Marked.sent_of_delivered (h : b.Marked) (hsettled : b.Settled []) {g : Group N}
    (hg : b.group = some g) (hp : p < g.lastDelivered) : b.Sent p := by
  have hlen := hp.trans_le (h.accounted.delivered g hg)
  rcases h.accounted.held p hlen with hcut | hsent | ⟨_, hgroup⟩
  · exact h.cut p hcut
  · exact hsent
  · cases hgroup g hg with
    | inl hle => exact absurd hp (not_lt.mpr hle)
    | inr hpend => exact (hsettled p ⟨g, hg, hpend⟩).resolve_right List.not_mem_nil

theorem Marked.sentBelow_of_delivered (h : b.Marked) (hsettled : b.Settled []) {g : Group N}
    (hg : b.group = some g) (hm : m ≤ g.lastDelivered) : b.SentBelow m where
  le := hm.trans (h.accounted.delivered g hg)
  sent _ hp := h.sent_of_delivered hsettled hg (hp.trans_le hm)

theorem Marked.sent_of_trimmed (h : b.Marked) (hp : p < b.outbox.trimmed) : b.Sent p := by
  have hlen := hp.trans_le b.outbox.trimmed_le
  rcases h.accounted.held p hlen with hcut | hsent | ⟨htrim, _⟩
  · exact h.cut p hcut
  · exact hsent
  · exact absurd hp (not_lt.mpr htrim)

theorem Settled.drop {e : Entry} (h : b.Settled (e :: l)) (he : b.Sent e.2) : b.Settled l := by
  intro p hp
  cases h p hp with
  | inl hsent => exact .inl hsent
  | inr hmem =>
    cases List.mem_cons.mp hmem with
    | inl heq => exact .inl (heq ▸ he)
    | inr hmem => exact .inr hmem

theorem Settled.publish {e : Entry} (h : b.Settled (e :: l))
    (he : b.outbox.added[e.2]? = some e.1) : (b.publish e.1).Settled l :=
  (h.mono (grows_publish b e.1) fun _ hp => hp).drop (sent_publish he)

theorem Covered.tail {e : Entry} (h : b.Covered (e :: l)) (hgrows : b.Grows b')
    (he : b'.Sent e.2) : b'.Covered l where
  ascending := (List.pairwise_cons.mp h.ascending).2
  before x hx p hp := by
    cases h.before x (List.mem_cons_of_mem e hx) p hp with
    | inl hsent => exact .inl (hgrows.sent hsent)
    | inr hmem =>
      cases List.mem_cons.mp hmem with
      | inl heq => exact .inl (heq ▸ he)
      | inr hmem => exact .inr hmem

theorem Covered.sentBelow {e : Entry} (h : b.Covered (e :: l)) (hgrows : b.Grows b')
    (he : b'.Sent e.2) (hlt : e.2 < b'.outbox.added.length) : b'.SentBelow (e.2 + 1) where
  le := hlt
  sent p hp := by
    by_cases heq : p = e.2
    · exact heq ▸ he
    · have hlt : p < e.2 := by omega
      cases h.before e List.mem_cons_self p hlt with
      | inl hsent => exact hgrows.sent hsent
      | inr hmem =>
        obtain ⟨x, hx, hxp⟩ := List.mem_map.mp hmem
        cases List.mem_cons.mp hx with
        | inl hxe => exact absurd (hxe ▸ hxp) (Ne.symm heq)
        | inr hx =>
          have := (List.pairwise_cons.mp h.ascending).1 x hx
          omega

theorem Marked.covered_xreadgroup (h : b.Marked) (hsettled : b.Settled []) {g : Group N}
    (hg : b.group = some g) (i : N) (count : ℕ) :
    b.Covered (g.xreadgroup b.outbox i count).1 where
  ascending := by
    rw [← List.pairwise_map (f := Prod.snd) (R := (· < ·)), Group.map_snd_xreadgroup]
    exact List.pairwise_lt_range'
  before x hx p hp := by
    have hmem : x.2 ∈ (g.xreadgroup b.outbox i count).1.map Prod.snd := List.mem_map_of_mem hx
    rw [Group.map_snd_xreadgroup, List.mem_range'_1] at hmem ⊢
    by_cases hdel : p < g.lastDelivered
    · exact .inl (h.sent_of_delivered hsettled hg hdel)
    · by_cases htrim : p < b.outbox.trimmed
      · exact .inl (h.sent_of_trimmed htrim)
      · right
        omega

theorem settled_xreadgroup {g : Group N} (hsettled : b.Settled []) (hg : b.group = some g) (i : N)
    (count : ℕ) : (b.setGroup (some (g.xreadgroup b.outbox i count).2)).Settled
      (g.xreadgroup b.outbox i count).1 := by
  rintro p ⟨g', ⟨⟩, hp⟩
  cases Group.pends_xreadgroup.mp hp with
  | inl hold =>
    have hsent := (hsettled p ⟨g, hg, hold⟩).resolve_right List.not_mem_nil
    exact .inl ((grows_setGroup b _).sent hsent)
  | inr hmem => exact .inr hmem

theorem settled_xautoclaim {g : Group N} {i : N} {count : ℕ}
    (hmore : (g.xautoclaim b.outbox i count).more = false) :
    (b.setGroup (some (g.xautoclaim b.outbox i count).group)).Settled
      (g.xautoclaim b.outbox i count).claimed := by
  rintro p ⟨g', ⟨⟩, hp⟩
  exact .inr (Group.mem_claimed_of_pends hmore hp)

theorem pends_hbRelayAck {epoch i : ℕ} (h : (b.hbRelayAck epoch i).Pends p) : b.Pends p := by
  unfold hbRelayAck at h
  split at h
  · obtain ⟨g', hg', hp⟩ := h
    obtain ⟨g, hg, rfl⟩ := Option.map_eq_some_iff.mp hg'
    exact ⟨g, hg, (Group.pends_xack.mp hp).1⟩
  · exact h

theorem pends_hbRelayTrim {epoch i : ℕ} (h : (b.hbRelayTrim epoch i).Pends p) : b.Pends p := by
  unfold hbRelayTrim at h
  split at h <;> exact h

theorem pends_hbRelayCommit {epoch seq : ℕ} (h : (b.hbRelayCommit epoch seq).Pends p) :
    b.Pends p := by
  unfold hbRelayCommit at h
  split at h <;> exact h

end Backend

namespace Holds

theorem idle {p : RelayPoint} (hrec : p.recovered = false) (hmark : p.mark = none)
    (hbatch : p.batch = []) : Holds b p where
  settled h := by
    rw [hrec] at h
    cases h
  mark m h := by
    rw [hmark] at h
    cases h
  covered := hbatch ▸ covered_nil

theorem quiet {p : RelayPoint} (h : b.Settled []) (hsend : p.toSend = []) (hmark : p.mark = none)
    (hbatch : p.batch = []) : Holds b p where
  settled _ := hsend ▸ h
  mark m h := by
    rw [hmark] at h
    cases h
  covered := hbatch ▸ covered_nil

theorem marking {p : RelayPoint} (h : b.Settled []) (hm : b.SentBelow m) (hsend : p.toSend = [])
    (hmark : p.mark = some m) (hbatch : p.batch = []) : Holds b p where
  settled _ := hsend ▸ h
  mark m' h := by
    rw [hmark] at h
    exact Option.some.inj h ▸ hm
  covered := hbatch ▸ covered_nil

theorem mono {p : RelayPoint} (h : Holds b p) (hgrows : b.Grows b')
    (hpends : ∀ q, b'.Pends q → b.Pends q) : Holds b' p where
  settled hrec := (h.settled hrec).mono hgrows hpends
  mark m hm := hgrows.sentBelow (h.mark m hm)
  covered := hgrows.covered h.covered

theorem recovering {more : Bool} {epoch : ℕ} (h : more = false → b.Settled l) :
    Holds b (n.recovering epoch more l).point := by
  cases l with
  | nil =>
    cases more with
    | true => exact idle rfl rfl rfl
    | false => exact quiet (h rfl) rfl rfl rfl
  | cons e rest =>
    refine ⟨fun hrec => h ?_, fun _ hm => (by cases hm), covered_nil⟩
    have hnot : (!more) = true := hrec
    simpa using hnot

theorem sending {epoch k : ℕ} (h : b.Settled l) (hl : b.Covered l) :
    Holds b (n.sending epoch k l).point := by
  cases l with
  | nil =>
    unfold RelayNode.sending RelayNode.afterBatch
    dsimp only [RelayNode.at]
    split <;> exact quiet h rfl rfl rfl
  | cons e rest => exact ⟨fun _ => h, fun _ hm => (by cases hm), hl⟩

theorem acked {batchSize epoch k : ℕ} {e : Entry} (h : b.Settled l) (hl : b.Covered l)
    (hm : b.SentBelow e.1.seq) : Holds b (n.acked batchSize epoch e l k).point := by
  unfold RelayNode.acked
  dsimp only
  split
  · refine ⟨fun _ => h, fun m hm' => ?_, hl⟩
    exact Option.some.inj hm' ▸ hm
  · exact sending h hl

end Holds

theorem session_recovering (n : RelayNode) (epoch : ℕ) (more : Bool) (l : List Entry) :
    (n.recovering epoch more l).point.session = some epoch := by
  cases l with
  | nil => cases more <;> rfl
  | cons e rest => rfl

theorem session_sending (n : RelayNode) (epoch k : ℕ) (l : List Entry) :
    (n.sending epoch k l).point.session = some epoch := by
  cases l with
  | nil =>
    unfold RelayNode.sending RelayNode.afterBatch
    dsimp only [RelayNode.at]
    split <;> rfl
  | cons e rest => rfl

theorem session_acked (n : RelayNode) (batchSize epoch k : ℕ) (e : Entry) (l : List Entry) :
    (n.acked batchSize epoch e l k).point.session = some epoch := by
  unfold RelayNode.acked
  dsimp only
  split
  · rfl
  · exact session_sending ..

theorem relayEpoch_hbRelayAck (b : Backend N) (epoch j : ℕ) :
    (b.hbRelayAck epoch j).relayEpoch = b.relayEpoch := by
  unfold hbRelayAck
  split <;> rfl

theorem relayEpoch_hbRelayCommit (b : Backend N) (epoch seq : ℕ) :
    (b.hbRelayCommit epoch seq).relayEpoch = b.relayEpoch := by
  unfold hbRelayCommit
  split <;> rfl

theorem relayEpoch_hbRelayTrim (b : Backend N) (epoch j : ℕ) :
    (b.hbRelayTrim epoch j).relayEpoch = b.relayEpoch := by
  unfold hbRelayTrim
  split <;> rfl

theorem publishedSeq_hbRelayAck (b : Backend N) (epoch j : ℕ) :
    (b.hbRelayAck epoch j).publishedSeq = b.publishedSeq := by
  unfold hbRelayAck
  split <;> rfl

theorem publishedSeq_hbRelayTrim (b : Backend N) (epoch j : ℕ) :
    (b.hbRelayTrim epoch j).publishedSeq = b.publishedSeq := by
  unfold hbRelayTrim
  split <;> rfl

theorem publishedSeq_hbRelayCommit (b : Backend N) (epoch seq : ℕ) :
    (b.hbRelayCommit epoch seq).publishedSeq = b.publishedSeq ∨
      (b.relayEpoch = epoch ∧ (b.hbRelayCommit epoch seq).publishedSeq = seq) := by
  unfold hbRelayCommit
  split
  · next h => exact .inr ⟨h, rfl⟩
  · exact .inl rfl

section Steps

variable [DecidableEq N] {batchSize : ℕ} {i : N} {o : Outcome N}

theorem run_session (h : run batchSize b i n = some o) :
    (o.backend.relayEpoch = b.relayEpoch ∧
      (∀ e, o.ok.point.session = some e → n.point.session = some e) ∧
      ∀ e, o.error.point.session = some e → n.point.session = some e) ∨
    (o.backend.relayEpoch = b.relayEpoch + 1 ∧ o.ok.point = .prune (b.relayEpoch + 1) ∧
      o.error.point.session = none) := by
  cases hp : n.point <;> rw [run, hp] at h
  case fresh | down | lag => cases h
  all_goals obtain rfl := Option.some.inj h
  case incr => exact .inr ⟨rfl, rfl, rfl⟩
  all_goals left
  case create => exact ⟨rfl, fun _ h => (by cases h), fun _ h => (by cases h)⟩
  case lock =>
    unfold runLock
    cases b.relayLock <;> exact ⟨rfl, fun _ h => (by cases h), fun _ h => (by cases h)⟩
  case prune => exact ⟨rfl, fun _ h => h, fun _ h => h⟩
  case claim epoch =>
    unfold runClaim
    cases b.group with
    | none => exact ⟨rfl, fun _ h => (by cases h), fun _ h => (by cases h)⟩
    | some g => exact ⟨rfl, fun _ h => (session_recovering ..).symm.trans h, fun _ h => (by cases h)⟩
  case republish => exact ⟨rfl, fun _ h => h, fun _ h => (session_recovering ..).symm.trans h⟩
  case republishAck epoch e rest more =>
    refine ⟨relayEpoch_hbRelayAck .., fun _ h => ?_, fun _ h => (by cases h)⟩
    unfold runRepublishAck at h
    dsimp only at h
    split at h
    · exact (session_recovering ..).symm.trans h
    · exact h
  case xpending =>
    refine ⟨rfl, fun _ h => ?_, fun _ h => h⟩
    unfold runXpending at h
    dsimp only at h
    split at h <;> exact h
  case xrangePending =>
    refine ⟨rfl, fun _ h => ?_, fun _ h => h⟩
    unfold runXrangePending at h
    dsimp only at h
    split at h <;> exact h
  case commitPending => exact ⟨relayEpoch_hbRelayCommit .., fun _ h => h, fun _ h => h⟩
  case xinfoGroups =>
    refine ⟨rfl, fun _ h => ?_, fun _ h => h⟩
    unfold runXinfoGroups at h
    dsimp only at h
    split at h <;> exact h
  case xrangeDelivered =>
    refine ⟨rfl, fun _ h => ?_, fun _ h => h⟩
    unfold runXrangeDelivered at h
    dsimp only at h
    split at h <;> exact h
  case commitDelivered => exact ⟨relayEpoch_hbRelayCommit .., fun _ h => h, fun _ h => h⟩
  case read =>
    unfold runRead
    cases b.group with
    | none => exact ⟨rfl, fun _ h => (by cases h), fun _ h => (by cases h)⟩
    | some g =>
      refine ⟨rfl, fun _ h => ?_, fun _ h => (by cases h)⟩
      dsimp only at h
      split at h
      · exact h
      · exact (session_sending ..).symm.trans h
  case send => exact ⟨rfl, fun _ h => h, fun _ h => (by cases h)⟩
  case ack =>
    refine ⟨relayEpoch_hbRelayAck .., fun _ h => ?_, fun _ h => (by cases h)⟩
    unfold runAck at h
    dsimp only at h
    split at h
    · exact (session_acked ..).symm.trans h
    · cases h
  case commit =>
    refine ⟨relayEpoch_hbRelayCommit .., fun _ h => ?_, fun _ h => (by cases h)⟩
    unfold runCommit at h
    dsimp only at h
    split at h
    · exact (session_sending ..).symm.trans h
    · cases h
  case trim =>
    refine ⟨relayEpoch_hbRelayTrim .., fun _ h => ?_, fun _ h => (by cases h)⟩
    unfold runTrim at h
    dsimp only at h
    split at h
    · exact h
    · cases h
  case destroy => exact ⟨rfl, fun _ h => h, fun _ h => h⟩
  case recreate =>
    unfold runRecreate
    cases b.group with
    | none => exact ⟨rfl, fun _ h => h, fun _ h => (by cases h)⟩
    | some g => exact ⟨rfl, fun _ h => (by cases h), fun _ h => (by cases h)⟩
  case renew =>
    refine ⟨rfl, fun _ h => ?_, fun _ h => (by cases h)⟩
    dsimp only at h
    split at h
    · exact h
    · cases h
  case release =>
    refine ⟨rfl, fun _ h => ?_, fun _ h => (by cases h)⟩
    unfold runRelease at h
    dsimp only at h
    split at h <;> cases h
  case unlock => exact ⟨rfl, fun _ h => (by cases h), fun _ h => (by cases h)⟩

theorem run_publishedSeq (h : run batchSize b i n = some o) :
    o.backend.publishedSeq = b.publishedSeq ∨
      (n.point.session = some b.relayEpoch ∧ n.point.mark = some o.backend.publishedSeq) := by
  cases hp : n.point <;> rw [run, hp] at h
  case fresh | down | lag => cases h
  all_goals obtain rfl := Option.some.inj h
  case commitPending epoch seq | commitDelivered epoch seq | commit epoch seq _ _ =>
    cases publishedSeq_hbRelayCommit b epoch seq with
    | inl hkeep => exact .inl hkeep
    | inr hset => exact .inr ⟨congrArg some hset.1.symm, congrArg some hset.2.symm⟩
  all_goals left
  case lock =>
    unfold runLock
    cases b.relayLock <;> rfl
  case claim =>
    unfold runClaim
    cases b.group <;> rfl
  case republishAck => exact publishedSeq_hbRelayAck ..
  case read =>
    unfold runRead
    cases b.group <;> rfl
  case ack => exact publishedSeq_hbRelayAck ..
  case trim => exact publishedSeq_hbRelayTrim ..
  case recreate =>
    unfold runRecreate
    cases b.group <;> rfl
  all_goals rfl

theorem run_holds (hb : b.Marked) (hs : NodeSound b n) (hn : Holds b n.point)
    (hsession : n.point.session = some b.relayEpoch) (h : run batchSize b i n = some o) :
    Holds o.backend o.ok.point ∧ Holds o.backend o.error.point ∧
      ((∀ e x rest more, n.point = .republish e x rest more → b.Sent x.2) →
        Holds b o.error.point) := by
  have hknown := hs.known
  have hpublished := hs.published
  cases hp : n.point <;> rw [run, hp] at h <;> rw [hp] at hsession hn hknown hpublished
  case fresh | down | lag => cases h
  all_goals obtain rfl := Option.some.inj h
  case create | lock | incr | release | unlock => cases hsession
  all_goals obtain rfl := Option.some.inj hsession
  case prune =>
    exact ⟨.idle rfl rfl rfl, .idle rfl rfl rfl, fun _ => .idle rfl rfl rfl⟩
  case claim =>
    unfold runClaim
    cases hg : b.group with
    | none => exact ⟨.idle rfl rfl rfl, .idle rfl rfl rfl, fun _ => .idle rfl rfl rfl⟩
    | some g =>
      exact ⟨.recovering settled_xautoclaim, .idle rfl rfl rfl, fun _ => .idle rfl rfl rfl⟩
  case republish e rest more =>
    have hrest : more = false → b.Settled (e :: rest) := by
      rintro rfl
      exact hn.settled rfl
    have hpublish : more = false → (b.publish e.1).Settled rest :=
      fun hm => (hrest hm).publish (hknown e List.mem_cons_self)
    refine ⟨⟨fun hrec => hpublish ?_, fun _ hm => (by cases hm), covered_nil⟩,
      .recovering hpublish, fun hsent => .recovering fun hm => ?_⟩
    · have hnot : (!more) = true := hrec
      simpa using hnot
    · exact (hrest hm).drop (hsent _ e rest more rfl)
  case republishAck e rest more =>
    have hrest : more = false → (b.hbRelayAck b.relayEpoch e.2).Settled rest := by
      rintro rfl
      exact (hn.settled rfl).mono (grows_hbRelayAck b _ _) fun _ => pends_hbRelayAck
    refine ⟨?_, .idle rfl rfl rfl, fun _ => .idle rfl rfl rfl⟩
    unfold runRepublishAck
    dsimp only
    rw [if_pos rfl]
    exact .recovering hrest
  case xpending =>
    have hsettled : b.Settled [] := hn.settled rfl
    refine ⟨?_, .quiet hsettled rfl rfl rfl, fun _ => .quiet hsettled rfl rfl rfl⟩
    unfold runXpending
    dsimp only
    cases hmin : b.group.bind Group.xpendingFirst with
    | none => exact .quiet hsettled rfl rfl rfl
    | some j =>
      obtain ⟨g, hg, hj⟩ := Option.bind_eq_some_iff.mp hmin
      have hlt := hb.pending g hg j (Group.pends_of_xpendingFirst hj)
      exact .marking hsettled (hb.sentBelow_of_delivered hsettled hg hlt.le) rfl rfl rfl
  case xrangePending j =>
    have hsettled : b.Settled [] := hn.settled rfl
    refine ⟨?_, .quiet hsettled rfl rfl rfl, fun _ => .quiet hsettled rfl rfl rfl⟩
    unfold runXrangePending
    dsimp only
    cases hget : b.outbox.get? j with
    | none => exact .quiet hsettled rfl rfl rfl
    | some d =>
      have hseq := seq_of_getElem? hb.seqs (Stream.get?_eq_some.mp hget).2
      have hm : b.SentBelow (d.seq - 1) := by
        rw [hseq]
        exact hn.mark j rfl
      exact .marking hsettled hm rfl rfl rfl
  case commitPending seq =>
    have hsettled : b.Settled [] := hn.settled rfl
    have hsettled' : (b.hbRelayCommit b.relayEpoch seq).Settled [] :=
      hsettled.mono (grows_hbRelayCommit b _ _) fun _ => pends_hbRelayCommit
    exact ⟨.quiet hsettled' rfl rfl rfl, .quiet hsettled' rfl rfl rfl,
      fun _ => .quiet hsettled rfl rfl rfl⟩
  case xinfoGroups =>
    have hsettled : b.Settled [] := hn.settled rfl
    refine ⟨?_, .quiet hsettled rfl rfl rfl, fun _ => .quiet hsettled rfl rfl rfl⟩
    unfold runXinfoGroups
    dsimp only
    split
    · next j hj =>
      obtain ⟨g, hg, hdel⟩ := Option.map_eq_some_iff.mp hj
      exact .marking hsettled (hb.sentBelow_of_delivered hsettled hg hdel.ge) rfl rfl rfl
    · exact .quiet hsettled rfl rfl rfl
  case xrangeDelivered j =>
    have hsettled : b.Settled [] := hn.settled rfl
    refine ⟨?_, .quiet hsettled rfl rfl rfl, fun _ => .quiet hsettled rfl rfl rfl⟩
    unfold runXrangeDelivered
    dsimp only
    cases hget : b.outbox.get? j with
    | none => exact .quiet hsettled rfl rfl rfl
    | some d =>
      have hseq := seq_of_getElem? hb.seqs (Stream.get?_eq_some.mp hget).2
      have hm : b.SentBelow d.seq := by
        rw [hseq]
        exact hn.mark (j + 1) rfl
      exact .marking hsettled hm rfl rfl rfl
  case commitDelivered seq =>
    have hsettled : b.Settled [] := hn.settled rfl
    have hsettled' : (b.hbRelayCommit b.relayEpoch seq).Settled [] :=
      hsettled.mono (grows_hbRelayCommit b _ _) fun _ => pends_hbRelayCommit
    exact ⟨.quiet hsettled' rfl rfl rfl, .quiet hsettled' rfl rfl rfl,
      fun _ => .quiet hsettled rfl rfl rfl⟩
  case read =>
    have hsettled : b.Settled [] := hn.settled rfl
    unfold runRead
    cases hg : b.group with
    | none => exact ⟨.idle rfl rfl rfl, .idle rfl rfl rfl, fun _ => .idle rfl rfl rfl⟩
    | some g =>
      refine ⟨?_, .idle rfl rfl rfl, fun _ => .idle rfl rfl rfl⟩
      have hbatch := settled_xreadgroup hsettled hg i xreadgroupCount
      dsimp only
      split
      · next hnil =>
        rw [hnil] at hbatch
        exact .quiet hbatch rfl rfl rfl
      · exact .sending hbatch ((grows_setGroup b _).covered
          (hb.covered_xreadgroup hsettled hg i xreadgroupCount))
  case send e rest k =>
    have he := hknown e List.mem_cons_self
    have hsent := sent_publish he
    have hlt : e.2 < (b.publish e.1).outbox.added.length := (List.getElem?_eq_some_iff.mp he).1
    refine ⟨⟨fun _ => (hn.settled rfl).publish he, fun m hm => ?_,
      hn.covered.tail (grows_publish b e.1) hsent⟩, .idle rfl rfl rfl, fun _ => .idle rfl rfl rfl⟩
    exact Option.some.inj hm ▸ hn.covered.sentBelow (grows_publish b e.1) hsent hlt
  case ack e rest k =>
    have hgrows := grows_hbRelayAck b b.relayEpoch e.2
    have hseq := seq_of_getElem? hb.seqs (hknown e List.mem_cons_self)
    have hm : (b.hbRelayAck b.relayEpoch e.2).SentBelow e.1.seq := by
      rw [hseq]
      exact hgrows.sentBelow (hn.mark (e.2 + 1) rfl)
    refine ⟨?_, .idle rfl rfl rfl, fun _ => .idle rfl rfl rfl⟩
    unfold runAck
    dsimp only
    rw [if_pos rfl]
    exact .acked ((hn.settled rfl).mono hgrows fun _ => pends_hbRelayAck)
      (hgrows.covered hn.covered) hm
  case commit seq rest k =>
    have hgrows := grows_hbRelayCommit b b.relayEpoch seq
    refine ⟨?_, .idle rfl rfl rfl, fun _ => .idle rfl rfl rfl⟩
    unfold runCommit
    dsimp only
    rw [if_pos rfl]
    exact .sending ((hn.settled rfl).mono hgrows fun _ => pends_hbRelayCommit)
      (hgrows.covered hn.covered)
  case trim =>
    refine ⟨?_, .idle rfl rfl rfl, fun _ => .idle rfl rfl rfl⟩
    unfold runTrim
    dsimp only
    rw [if_pos rfl]
    exact .quiet ((hn.settled rfl).mono (grows_hbRelayTrim b _ _) fun _ => pends_hbRelayTrim)
      rfl rfl rfl
  case destroy =>
    have hsettled : b.Settled [] := hn.settled rfl
    exact ⟨.quiet (settled_of_no_group rfl _) rfl rfl rfl,
      .quiet (settled_of_no_group rfl _) rfl rfl rfl, fun _ => .quiet hsettled rfl rfl rfl⟩
  case recreate =>
    unfold runRecreate
    cases b.group with
    | none =>
      refine ⟨.quiet ?_ rfl rfl rfl, .idle rfl rfl rfl, fun _ => .idle rfl rfl rfl⟩
      rintro p ⟨g, ⟨⟩, c, hc⟩
      cases hc
    | some g => exact ⟨.idle rfl rfl rfl, .idle rfl rfl rfl, fun _ => .idle rfl rfl rfl⟩
  case renew =>
    have hsettled : b.Settled [] := hn.settled rfl
    refine ⟨?_, .idle rfl rfl rfl, fun _ => .idle rfl rfl rfl⟩
    dsimp only
    split
    · exact .quiet hsettled rfl rfl rfl
    · exact .idle rfl rfl rfl

omit [DecidableEq N] in
theorem Effect.pends (h : Effect b i n b') (hread : ∀ e g, n.point = .read e → b.group = some g →
    g.undelivered b.outbox = []) (hp : b'.Pends p) : b.Pends p := by
  cases h with
  | keep _ hgroup _ _ =>
    obtain ⟨g, hg, hpend⟩ := hp
    exact ⟨g, hgroup ▸ hg, hpend⟩
  | create =>
    obtain ⟨g, hg, c, hc⟩ := hp
    obtain rfl := Option.some.inj hg
    cases hgroup : b.group with
    | none =>
      rw [hgroup] at hc
      cases hc
    | some g =>
      rw [hgroup] at hc
      exact ⟨g, hgroup, c, hc⟩
  | destroy =>
    obtain ⟨g, hg, _⟩ := hp
    cases hg
  | claim hg =>
    obtain ⟨_, ⟨⟩, hpend⟩ := hp
    exact ⟨_, hg, Group.pends_of_xautoclaim hpend⟩
  | publish _ => exact hp
  | ack _ _ => exact pends_hbRelayAck hp
  | read hpoint hg =>
    obtain ⟨_, ⟨⟩, hpend⟩ := hp
    cases Group.pends_xreadgroup.mp hpend with
    | inl hold => exact ⟨_, hg, hold⟩
    | inr hmem =>
      unfold Group.xreadgroup at hmem
      rw [hread _ _ hpoint hg] at hmem
      cases hmem
  | trim _ => exact pends_hbRelayTrim hp

omit [DecidableEq N] in
theorem Effect.pending (h : Effect b i n b')
    (hb : ∀ g, b.group = some g → ∀ p, g.Pends p → p < g.lastDelivered) :
    ∀ g, b'.group = some g → ∀ p, g.Pends p → p < g.lastDelivered := by
  intro g' hg' p hp
  cases h with
  | keep _ hgroup _ _ => exact hb g' (hgroup ▸ hg') p hp
  | create =>
    obtain rfl := Option.some.inj hg'
    cases hgroup : b.group with
    | none =>
      rw [hgroup] at hp
      obtain ⟨c, hc⟩ := hp
      cases hc
    | some g =>
      rw [hgroup] at hp
      exact hb g hgroup p hp
  | destroy => cases hg'
  | claim hg =>
    obtain rfl := Option.some.inj hg'
    exact hb _ hg p (Group.pends_of_xautoclaim hp)
  | publish _ => exact hb g' hg' p hp
  | ack _ _ =>
    unfold hbRelayAck at hg'
    split at hg'
    · obtain ⟨g, hg, rfl⟩ := Option.map_eq_some_iff.mp hg'
      exact hb g hg p (Group.pends_xack.mp hp).1
    · exact hb g' hg' p hp
  | read _ hg =>
    obtain rfl := Option.some.inj hg'
    cases Group.pends_xreadgroup.mp hp with
    | inl hold => exact (hb _ hg p hold).trans_le (Group.lastDelivered_le_xreadgroup ..)
    | inr hmem => exact Group.lt_lastDelivered_of_mem_xreadgroup hmem
  | trim _ =>
    unfold hbRelayTrim at hg'
    split at hg' <;> exact hb g' hg' p hp

omit [DecidableEq N] in
theorem Effect.truncated (h : Effect b i n b') : b'.truncated = b.truncated := by
  cases h with
  | keep _ _ _ hcut => exact hcut
  | ack _ _ =>
    unfold hbRelayAck
    split <;> rfl
  | trim _ =>
    unfold hbRelayTrim
    split <;> rfl
  | _ => rfl

omit [DecidableEq N] in
theorem Effect.seqs (h : Effect b i n b')
    (hb : b.outbox.added.map Delta.seq = List.range' 1 b.shard.deltaSeq) :
    b'.outbox.added.map Delta.seq = List.range' 1 b'.shard.deltaSeq := by
  cases h with
  | keep hshard _ _ _ =>
    unfold outbox
    rw [hshard]
    exact hb
  | ack _ _ =>
    unfold hbRelayAck
    split <;> exact hb
  | trim _ =>
    unfold hbRelayTrim
    split <;> exact hb
  | _ => exact hb

theorem run_marked (hb : b.Marked) (hs : NodeSound b n) (hn : NodeMarked b n)
    (htrim : TrimsSent b n) (h : run batchSize b i n = some o) : o.backend.Marked where
  accounted := (run_effect h).accounted hb.accounted hs htrim
  cut p hp := (run_effect h).grows.sent (hb.cut p ((run_effect h).truncated ▸ hp))
  pending := (run_effect h).pending hb.pending
  seqs := (run_effect h).seqs hb.seqs
  mark := by
    cases run_publishedSeq h with
    | inl hkeep => exact hkeep ▸ (run_effect h).grows.sentBelow hb.mark
    | inr hset => exact (run_effect h).grows.sentBelow ((hn hset.1).mark _ hset.2)

end Steps

def CutsSent (w : Relays N) (a : RelayAct N) : Prop :=
  ∀ c, a = .call c → ∀ p, w.backend.outbox.trimmed ≤ p →
    p < (w.backend.fcall c).outbox.trimmed → w.backend.Sent p

def FencedRead (w : Relays N) (a : RelayAct N) : Prop :=
  ∀ i reply e g, a = .resume i reply → reply ≠ .failed → (w.nodes i).point = .read e →
    e ≠ w.backend.relayEpoch → w.backend.group = some g → g.undelivered w.backend.outbox = []

def Republishes (w : Relays N) (a : RelayAct N) : Prop :=
  ∀ i x rest more, a = .resume i .failed →
    (w.nodes i).point = .republish w.backend.relayEpoch x rest more → w.backend.Sent x.2

structure KeepsMark (w : Relays N) (a : RelayAct N) : Prop where
  unsent : KeepsUnsent w a
  cuts : CutsSent w a
  reads : FencedRead w a
  republishes : Republishes w a

namespace Relays

variable {w w' : Relays N} {i : N}

structure Marked (w : Relays N) : Prop where
  sound : w.Sound
  backend : w.backend.Marked
  nodes : ∀ i, NodeMarked w.backend (w.nodes i)
  epochs : ∀ i e, (w.nodes i).point.session = some e → e ≤ w.backend.relayEpoch
  unique : ∀ i j e, (w.nodes i).point.session = some e → (w.nodes j).point.session = some e → i = j

theorem Marked.rebase (h : w.Marked) {b : Backend N} (hsound : (⟨b, w.nodes⟩ : Relays N).Sound)
    (hb : b.Marked) (hepoch : b.relayEpoch = w.backend.relayEpoch)
    (hgrows : w.backend.Grows b) (hpends : ∀ p, b.Pends p → w.backend.Pends p) :
    (⟨b, w.nodes⟩ : Relays N).Marked where
  sound := hsound
  backend := hb
  nodes i hi := (h.nodes i (hi.trans (congrArg some hepoch))).mono hgrows hpends
  epochs i e he := (h.epochs i e he).trans hepoch.ge
  unique := h.unique

variable [DecidableEq N] {batchSize : ℕ}

theorem Marked.set (h : w.Marked) {r : Backend N × RelayNode} (hsound : (w.set i r).Sound)
    (hb : r.1.Marked) (hgrows : w.backend.Grows r.1)
    (hepoch : r.1.relayEpoch = w.backend.relayEpoch)
    (hsession : ∀ e, r.2.point.session = some e → (w.nodes i).point.session = some e)
    (hn : NodeMarked r.1 r.2)
    (hpends : (w.nodes i).point.session ≠ some w.backend.relayEpoch →
      ∀ p, r.1.Pends p → w.backend.Pends p) : (w.set i r).Marked where
  sound := hsound
  backend := hb
  nodes j := by
    by_cases hj : j = i
    · subst hj
      rw [nodes_set_self]
      exact hn
    · rw [nodes_set_of_ne hj]
      intro hcurrent
      have hcurrent : (w.nodes j).point.session = some w.backend.relayEpoch :=
        hcurrent.trans (congrArg some hepoch)
      exact (h.nodes j hcurrent).mono hgrows
        (hpends fun hi => hj (h.unique j i _ hcurrent hi))
  epochs j e he := by
    refine le_trans ?_ hepoch.ge
    by_cases hj : j = i
    · subst hj
      rw [nodes_set_self] at he
      exact h.epochs j e (hsession e he)
    · rw [nodes_set_of_ne hj] at he
      exact h.epochs j e he
  unique := by
    have hold : ∀ j e, ((w.set i r).nodes j).point.session = some e →
        (w.nodes j).point.session = some e := by
      intro j e he
      by_cases hj : j = i
      · subst hj
        rw [nodes_set_self] at he
        exact hsession e he
      · rwa [nodes_set_of_ne hj] at he
    exact fun j k e hj hk => h.unique j k e (hold j e hj) (hold k e hk)

theorem Marked.raise (h : w.Marked) {r : Backend N × RelayNode} (hsound : (w.set i r).Sound)
    (hb : r.1.Marked) (hepoch : r.1.relayEpoch = w.backend.relayEpoch + 1)
    (hsession : ∀ e, r.2.point.session = some e → e = w.backend.relayEpoch + 1)
    (hn : NodeMarked r.1 r.2) : (w.set i r).Marked where
  sound := hsound
  backend := hb
  nodes j := by
    by_cases hj : j = i
    · subst hj
      rw [nodes_set_self]
      exact hn
    · rw [nodes_set_of_ne hj]
      intro hcurrent
      have hle := h.epochs j _ hcurrent
      have hnext : (w.set i r).backend.relayEpoch = w.backend.relayEpoch + 1 := hepoch
      omega
  epochs j e he := by
    have hnext : (w.set i r).backend.relayEpoch = w.backend.relayEpoch + 1 := hepoch
    rw [hnext]
    by_cases hj : j = i
    · subst hj
      rw [nodes_set_self] at he
      exact (hsession e he).le
    · rw [nodes_set_of_ne hj] at he
      exact (h.epochs j e he).trans (Nat.le_succ _)
  unique j k e hj hk := by
    by_cases hji : j = i
    · by_cases hki : k = i
      · exact hji.trans hki.symm
      · subst hji
        rw [nodes_set_self] at hj
        rw [nodes_set_of_ne hki] at hk
        have := h.epochs k e hk
        have := hsession e hj
        omega
    · by_cases hki : k = i
      · subst hki
        rw [nodes_set_self] at hk
        rw [nodes_set_of_ne hji] at hj
        have := h.epochs j e hj
        have := hsession e hk
        omega
      · rw [nodes_set_of_ne hji] at hj
        rw [nodes_set_of_ne hki] at hk
        exact h.unique j k e hj hk

theorem Marked.resume (h : w.Marked) {o : Outcome N}
    (ho : run batchSize w.backend i (w.nodes i) = some o) {reply : Reply}
    (hC : KeepsMark w (.resume i reply)) : (w.set i (o.take w.backend reply)).Marked := by
  have hsound := h.sound.resume ho hC.unsent
  have hgrows := (run_effect ho).grows
  have htake := take_grows hgrows reply
  have hb : (o.take w.backend reply).1.Marked := by
    cases reply with
    | ok => exact run_marked h.backend (h.sound.nodes i) (h.nodes i) (hC.unsent (by decide)) ho
    | lost => exact run_marked h.backend (h.sound.nodes i) (h.nodes i) (hC.unsent (by decide)) ho
    | failed => exact h.backend
  cases run_session ho with
  | inl hkeep =>
    obtain ⟨hepoch, hok, herror⟩ := hkeep
    have hholds : (w.nodes i).point.session = some w.backend.relayEpoch →
        Holds (o.take w.backend reply).1 (o.take w.backend reply).2.point := by
      intro hcurrent
      obtain ⟨hok, hlost, hfailed⟩ :=
        run_holds h.backend (h.sound.nodes i) (h.nodes i hcurrent) hcurrent ho
      cases reply with
      | ok => exact hok
      | lost => exact hlost
      | failed =>
        refine hfailed fun e x rest more hp => hC.republishes i x rest more rfl ?_
        rw [hp] at hcurrent
        rw [hp, Option.some.inj hcurrent]
    have hepoch' : (o.take w.backend reply).1.relayEpoch = w.backend.relayEpoch := by
      cases reply with
      | ok => exact hepoch
      | lost => exact hepoch
      | failed => rfl
    have hsession : ∀ e, (o.take w.backend reply).2.point.session = some e →
        (w.nodes i).point.session = some e := by
      cases reply with
      | ok => exact hok
      | lost => exact herror
      | failed => exact herror
    refine h.set hsound hb htake hepoch' hsession ?_ ?_
    · intro hcurrent
      rw [hepoch'] at hcurrent
      exact hholds (hsession _ hcurrent)
    · intro hstale p hp
      cases reply with
      | failed => exact hp
      | ok =>
        refine (run_effect ho).pends (fun e g hread hg => ?_) hp
        refine hC.reads i .ok e g rfl (by decide) hread ?_ hg
        rintro rfl
        exact hstale (hread ▸ rfl)
      | lost =>
        refine (run_effect ho).pends (fun e g hread hg => ?_) hp
        refine hC.reads i .lost e g rfl (by decide) hread ?_ hg
        rintro rfl
        exact hstale (hread ▸ rfl)
  | inr hraise =>
    obtain ⟨hepoch, hok, herror⟩ := hraise
    cases reply with
    | ok =>
      have hsession : o.ok.point.session = some (w.backend.relayEpoch + 1) := hok ▸ rfl
      refine h.raise hsound hb hepoch (fun e he => ?_) fun _ => ?_
      · exact (Option.some.inj (hsession.symm.trans he)).symm
      · have hidle : Holds o.backend (.prune (w.backend.relayEpoch + 1)) := .idle rfl rfl rfl
        exact hok ▸ hidle
    | lost =>
      refine h.raise hsound hb hepoch (fun e he => ?_) fun he => ?_
      · cases herror.symm.trans he
      · cases herror.symm.trans he
    | failed =>
      refine h.set hsound hb htake rfl (fun e he => ?_) (fun he => ?_) fun _ _ hp => hp
      · cases herror.symm.trans he
      · cases herror.symm.trans he

omit [DecidableEq N] in
theorem marked_fcall (h : w.Marked) {c : Call} (hC : CutsSent w (.call c)) :
    (w.backend.fcall c).Marked where
  accounted := h.backend.accounted.fcall c
  cut p hp := by
    have hgrows := grows_fcall w.backend c
    cases List.mem_append.mp hp with
    | inl hold => exact hgrows.sent (h.backend.cut p hold)
    | inr hnew =>
      obtain ⟨hle, hlt⟩ := List.mem_range'_1.mp hnew
      refine hgrows.sent (hC c rfl p hle ?_)
      have htrim : w.backend.outbox.trimmed ≤ (w.backend.fcall c).outbox.trimmed :=
        (moves_fcall w.backend.shard c).trimmed_le
      change p < w.backend.outbox.trimmed +
        ((w.backend.fcall c).outbox.trimmed - w.backend.outbox.trimmed) at hlt
      omega
  pending := h.backend.pending
  seqs := (moves_fcall w.backend.shard c).seqs h.backend.seqs
  mark := (grows_fcall w.backend c).sentBelow h.backend.mark

theorem marked_delconsumer (h : w.Marked) {c : N} {reply : Reply}
    (hC : KeepsUnsent w (.delconsumer i c reply)) (hreply : reply ≠ .failed) :
    (w.backend.delconsumer c).Marked where
  accounted := h.backend.accounted.delconsumer (hC hreply)
  cut := h.backend.cut
  pending g hg p hp := by
    obtain ⟨g', hg', rfl⟩ := Option.map_eq_some_iff.mp hg
    exact h.backend.pending g' hg' p (Group.pends_of_delconsumer hp)
  seqs := h.backend.seqs
  mark := (grows_setGroup w.backend _).sentBelow h.backend.mark

theorem pends_delconsumer {b : Backend N} {c : N} {p : ℕ} (h : (b.delconsumer c).Pends p) :
    b.Pends p := by
  obtain ⟨g', hg', hp⟩ := h
  obtain ⟨g, hg, rfl⟩ := Option.map_eq_some_iff.mp hg'
  exact ⟨g, hg, Group.pends_of_delconsumer hp⟩

theorem Marked.delconsumer (h : w.Marked) {c : N} {reply : Reply}
    (hC : KeepsUnsent w (.delconsumer i c reply)) :
    (w.set i (Outcome.take w.backend
      ⟨w.backend.delconsumer c, w.nodes i, w.nodes i⟩ reply)).Marked := by
  have hsound := h.sound.delconsumer hC
  have hgrows : w.backend.Grows (w.backend.delconsumer c) := grows_setGroup _ _
  cases reply with
  | ok =>
    exact h.set hsound (marked_delconsumer h hC (by decide)) hgrows rfl (fun _ he => he)
      (fun he => (h.nodes i he).mono hgrows fun _ => pends_delconsumer) fun _ _ => pends_delconsumer
  | lost =>
    exact h.set hsound (marked_delconsumer h hC (by decide)) hgrows rfl (fun _ he => he)
      (fun he => (h.nodes i he).mono hgrows fun _ => pends_delconsumer) fun _ _ => pends_delconsumer
  | failed =>
    exact h.set hsound h.backend (.refl _) rfl (fun _ he => he) (h.nodes i) fun _ _ hp => hp

omit [DecidableEq N] in
theorem holds_maybeHeal {b : Backend N} {n : RelayNode} {epoch : ℕ} (h : b.Settled [])
    (exceeded : Bool) : Holds b (maybeHeal n epoch exceeded).point := by
  unfold maybeHeal
  split
  · dsimp only [RelayNode.at]
    split <;> exact .quiet h rfl rfl rfl
  · exact .quiet h rfl rfl rfl

theorem session_maybeHeal (n : RelayNode) (epoch : ℕ) (exceeded : Bool) :
    (maybeHeal n epoch exceeded).point.session = some epoch := by
  unfold maybeHeal
  split
  · dsimp only [RelayNode.at]
    split <;> rfl
  · rfl

theorem Marked.step (h : w.Marked) {a : RelayAct N} (hC : KeepsMark w a)
    (ha : w.step batchSize a = some w') : w'.Marked := by
  have hsound := h.sound.step hC.unsent ha
  cases a with
  | call c =>
    obtain rfl := Option.some.inj ha
    exact h.rebase hsound (marked_fcall h hC.cuts) rfl (grows_fcall _ c) fun _ hp => hp
  | expire =>
    obtain rfl := Option.some.inj ha
    have hgrows : w.backend.Grows { w.backend with relayLock := none } :=
      ⟨List.prefix_rfl, fun _ hd => hd⟩
    refine h.rebase hsound ?_ rfl hgrows fun _ hp => hp
    exact ⟨hsound.accounted, h.backend.cut, h.backend.pending, h.backend.seqs,
      hgrows.sentBelow h.backend.mark⟩
  | start i =>
    simp only [Relays.step] at ha
    split at ha
    · obtain rfl := Option.some.inj ha
      exact h.set hsound h.backend (.refl _) rfl (fun _ he => by cases he) (fun he => by cases he)
        fun _ _ hp => hp
    · cases ha
  | crash i =>
    obtain rfl := Option.some.inj ha
    exact h.set hsound h.backend (.refl _) rfl (fun _ he => by cases he) (fun he => by cases he)
      fun _ _ hp => hp
  | delconsumer i c reply =>
    simp only [Relays.step] at ha
    split at ha
    · split at ha
      · cases ha
      · obtain rfl := Option.some.inj ha
        exact h.delconsumer hC.unsent
    · cases ha
  | lag i exceeded =>
    simp only [Relays.step] at ha
    split at ha
    · next epoch hp =>
      obtain rfl := Option.some.inj ha
      have hsession : (w.nodes i).point.session = some epoch := hp ▸ rfl
      refine h.set hsound h.backend (.refl _) rfl (fun e he => ?_) (fun he => ?_) fun _ _ hp => hp
      · exact hsession.trans ((session_maybeHeal ..).symm.trans he)
      · have hcurrent := hsession.trans ((session_maybeHeal ..).symm.trans he)
        have hholds := h.nodes i hcurrent
        rw [hp] at hholds
        exact holds_maybeHeal (hholds.settled rfl) exceeded
    · cases ha
  | resume i reply =>
    obtain ⟨o, ho, rfl⟩ := Option.map_eq_some_iff.mp ha
    exact h.resume ho hC

omit [DecidableEq N] in
theorem marked_empty : (empty : Relays N).Marked where
  sound := sound_empty
  backend :=
    { accounted := sound_empty.accounted
      cut := fun _ hp => by cases hp
      pending := fun _ hg => by cases hg
      seqs := rfl
      mark := ⟨le_rfl, fun _ hp => absurd hp (Nat.not_lt_zero _)⟩ }
  nodes _ h := by cases h
  epochs _ _ h := by cases h
  unique _ _ _ h := by cases h

theorem marked_exec {acts : List (RelayAct N)}
    (hC : (relays batchSize).Meets KeepsMark empty acts)
    (h : (relays batchSize).exec empty acts = some w) : w.Marked :=
  (relays batchSize).exec_invariant (I := Marked) (fun _ _ _ hs hc ha => hs.step hc ha)
    marked_empty hC h

end Relays

theorem published_seq_low_water [DecidableEq N] {batchSize : ℕ} {w : Relays N}
    {acts : List (RelayAct N)} (h : (relays batchSize).exec .empty acts = some w)
    (hC : (relays batchSize).Meets KeepsMark .empty acts) : w.backend.LowWater :=
  (Relays.marked_exec hC h).backend.lowWater

def orderly (w : Relays ℕ) (a : RelayAct ℕ) : Bool :=
  discardsNothing w a && match a with
    | .call c => (w.backend.fcall c).outbox.trimmed == w.backend.outbox.trimmed
    | .resume i reply => reply != .failed && match (w.nodes i).point with
      | .read e => e == w.backend.relayEpoch
      | _ => true
    | _ => true

theorem keepsMark_of_orderly (w : Relays ℕ) (a : RelayAct ℕ) (h : orderly w a = true) :
    KeepsMark w a := by
  obtain ⟨hdiscard, hrest⟩ := Bool.and_eq_true_iff.mp h
  refine ⟨keepsUnsent_of_discardsNothing w a hdiscard, ?_, ?_, ?_⟩
  · rintro c rfl p hle hlt
    have heq : (w.backend.fcall c).outbox.trimmed = w.backend.outbox.trimmed := by simpa using hrest
    omega
  · rintro i reply e g rfl _ hp hne _
    simp only [hp, Bool.and_eq_true, beq_iff_eq] at hrest
    exact absurd hrest.2 hne
  · rintro i x rest more rfl _
    simp at hrest

def recoveredRun : List (RelayAct ℕ) := takeoverRun ++ List.replicate 8 (.resume 1 .ok)

theorem published_seq_low_water_recovered :
    ∃ w, (relays 100).exec .empty recoveredRun = some w ∧ w.backend.publishedSeq = 1 ∧
      w.backend.LowWater := by
  have hrun : ((relays 100).exec .empty recoveredRun).any
      (fun w => w.backend.publishedSeq = 1) = true := by decide +kernel
  have hcheck : (relays 100).check orderly .empty recoveredRun = true := by decide +kernel
  obtain ⟨w, hw, hseq⟩ := (Option.any_eq_true _ _).mp hrun
  refine ⟨w, hw, of_decide_eq_true hseq, published_seq_low_water hw ?_⟩
  exact (relays 100).meets_of_check keepsMark_of_orderly hcheck

def staleReadRun : List (RelayAct ℕ) :=
  .start 0 :: List.replicate 7 (.resume 0 .ok) ++ [.expire, .start 1] ++
    List.replicate 7 (.resume 1 .ok) ++
    [.call (.applyHeartbeat "a" 0 "1970-01-01T00:00:00+00:00" none 30000 ⟨1000000, 0⟩),
      .resume 0 .ok, .crash 0,
      .call (.applyHeartbeat "b" 1 "1970-01-01T00:00:00.001+00:00" none 30000 ⟨1000000, 0⟩)] ++
    List.replicate 4 (.resume 1 .ok)

theorem stale_read_breaks_mark :
    ∃ w, (relays 100).exec .empty staleReadRun = some w ∧ ¬ w.backend.LowWater := by
  have hrun : ((relays 100).exec .empty staleReadRun).any (fun w =>
      w.backend.outbox.added.any (fun d => d.seq ≤ w.backend.publishedSeq ∧ d ∉ w.backend.topic)) =
        true := by decide +kernel
  obtain ⟨w, hw, hany⟩ := (Option.any_eq_true _ _).mp hrun
  obtain ⟨d, hd, hfacts⟩ := List.any_eq_true.mp hany
  obtain ⟨hle, hnot⟩ := of_decide_eq_true hfacts
  exact ⟨w, hw, fun hlow => hnot (hlow d hd hle)⟩

end Acps.Heartbeat
