import Acps.Heartbeat.Liveness

/-!
Relay nodes that publish the outbox of one shard to its Kafka partition. A node is a process
stopped before its next command; every command may also fail, or run and lose its reply.
-/

namespace Acps.Heartbeat

abbrev Entry := Delta × ℕ

inductive RelayPoint where
  | fresh
  | down
  | create
  | lock
  | incr
  | prune (epoch : ℕ)
  | claim (epoch : ℕ)
  | republish (epoch : ℕ) (e : Entry) (rest : List Entry) (more : Bool)
  | republishAck (epoch : ℕ) (e : Entry) (rest : List Entry) (more : Bool)
  | xpending (epoch : ℕ)
  | xrangePending (epoch : ℕ) (i : ℕ)
  | commitPending (epoch seq : ℕ)
  | xinfoGroups (epoch : ℕ)
  | xrangeDelivered (epoch : ℕ) (i : ℕ)
  | commitDelivered (epoch seq : ℕ)
  | read (epoch : ℕ)
  | send (epoch : ℕ) (e : Entry) (rest : List Entry) (publishedInBatch : ℕ)
  | ack (epoch : ℕ) (e : Entry) (rest : List Entry) (publishedInBatch : ℕ)
  | commit (epoch seq : ℕ) (rest : List Entry) (publishedInBatch : ℕ)
  | trim (epoch : ℕ)
  | lag (epoch : ℕ)
  | destroy (epoch : ℕ)
  | recreate (epoch : ℕ)
  | renew (epoch : ℕ)
  | release
  | unlock
  deriving DecidableEq

structure RelayNode where
  point : RelayPoint
  lastAckedEntry : Option ℕ
  ackedSinceTrim : ℕ
  emptyLagPolls : ℕ

def RelayNode.fresh : RelayNode := ⟨.fresh, none, 0, 0⟩

def RelayNode.at (n : RelayNode) (p : RelayPoint) : RelayNode := { n with point := p }

structure Backend (N : Type) where
  shard : Shard
  group : Option (Group N)
  relayLock : Option N
  relayEpoch : ℕ
  publishedSeq : ℕ
  topic : List Delta
  truncated : List ℕ

inductive Reply where
  | ok
  | lost
  | failed
  deriving DecidableEq

def xreadgroupCount : ℕ := 100

def xautoclaimCount : ℕ := 100

def trimInterval : ℕ := 500

def healEmptyPolls : ℕ := 10

section Operations

variable {N : Type} [DecidableEq N] (batchSize : ℕ)

structure Outcome (N : Type) where
  backend : Backend N
  ok : RelayNode
  error : RelayNode

namespace Backend

def outbox (b : Backend N) : Stream Delta := b.shard.deltaOutbox

def empty : Backend N := ⟨.empty, none, none, 0, 0, [], []⟩

def fcall (b : Backend N) (c : Call) : Backend N :=
  let shard := b.shard.fcall c
  { b with
    shard := shard
    truncated := b.truncated ++
      List.range' b.outbox.trimmed (shard.deltaOutbox.trimmed - b.outbox.trimmed) }

def setGroup (b : Backend N) (g : Option (Group N)) : Backend N := { b with group := g }

def publish (b : Backend N) (d : Delta) : Backend N := { b with topic := b.topic ++ [d] }

def hbRelayCommit (b : Backend N) (epoch seq : ℕ) : Backend N :=
  if b.relayEpoch = epoch then { b with publishedSeq := seq } else b

def hbRelayAck (b : Backend N) (epoch : ℕ) (i : ℕ) : Backend N :=
  if b.relayEpoch = epoch then b.setGroup (b.group.map (·.xack i)) else b

def hbRelayTrim (b : Backend N) (epoch : ℕ) (i : ℕ) : Backend N :=
  if b.relayEpoch = epoch then
    { b with shard := { b.shard with deltaOutbox := b.outbox.xtrim i } }
  else b

def delconsumer (b : Backend N) (consumer : N) : Backend N :=
  b.setGroup (b.group.map (·.delconsumer consumer))

end Backend

namespace RelayNode

def raised (n : RelayNode) : RelayNode := n.at .release

def recovering (n : RelayNode) (epoch : ℕ) (more : Bool) : List Entry → RelayNode
  | [] => n.at (if more then .claim epoch else .xpending epoch)
  | e :: rest => n.at (.republish epoch e rest more)

def afterBatch (n : RelayNode) (epoch : ℕ) : RelayNode :=
  n.at (if n.lastAckedEntry.isSome ∧ trimInterval ≤ n.ackedSinceTrim then .trim epoch
    else .renew epoch)

def sending (n : RelayNode) (epoch publishedInBatch : ℕ) : List Entry → RelayNode
  | [] => n.afterBatch epoch
  | e :: rest => n.at (.send epoch e rest publishedInBatch)

/-- One more entry of the batch is acknowledged: a commit when a round of entries is full, and
one after the last entry unless it just filled a round. -/
def acked (n : RelayNode) (epoch : ℕ) (e : Entry) (rest : List Entry) (publishedInBatch : ℕ) :
    RelayNode :=
  let n := { n with lastAckedEntry := some e.2, ackedSinceTrim := n.ackedSinceTrim + 1 }
  if (publishedInBatch + 1) % batchSize = 0 ∨ rest = [] then
    n.at (.commit epoch e.1.seq rest (publishedInBatch + 1))
  else n.sending epoch (publishedInBatch + 1) rest

end RelayNode

open RelayNode

def runCreate (b : Backend N) (n : RelayNode) : Outcome N where
  backend := b.setGroup (some (b.group.getD .create))
  ok := n.at .lock
  error := n.at .down

def runLock (b : Backend N) (i : N) (n : RelayNode) : Outcome N :=
  match b.relayLock with
  | none => ⟨{ b with relayLock := some i }, n.at .incr, n.at .down⟩
  | some _ => ⟨b, n.at .lock, n.at .down⟩

def runIncr (b : Backend N) (n : RelayNode) : Outcome N where
  backend := { b with relayEpoch := b.relayEpoch + 1 }
  ok := n.at (.prune (b.relayEpoch + 1))
  error := n.at .down

def runClaim (b : Backend N) (i : N) (n : RelayNode) (epoch : ℕ) : Outcome N :=
  match b.group with
  | none => ⟨b, n.raised, n.raised⟩
  | some g =>
    let claim := g.xautoclaim b.outbox i xautoclaimCount
    ⟨b.setGroup (some claim.group), n.recovering epoch claim.more claim.claimed, n.raised⟩

def runRepublish (b : Backend N) (n : RelayNode) (epoch : ℕ) (e : Entry) (rest : List Entry)
    (more : Bool) : Outcome N where
  backend := b.publish e.1
  ok := n.at (.republishAck epoch e rest more)
  error := n.recovering epoch more rest

def runRepublishAck (b : Backend N) (n : RelayNode) (epoch : ℕ) (e : Entry) (rest : List Entry)
    (more : Bool) : Outcome N where
  backend := b.hbRelayAck epoch e.2
  ok := if b.relayEpoch = epoch then n.recovering epoch more rest else n.at (.xpending epoch)
  error := n.raised

def runXpending (b : Backend N) (n : RelayNode) (epoch : ℕ) : Outcome N where
  backend := b
  ok := match b.group.bind Group.xpendingFirst with
    | some i => n.at (.xrangePending epoch i)
    | none => n.at (.xinfoGroups epoch)
  error := n.at (.xinfoGroups epoch)

def runXrangePending (b : Backend N) (n : RelayNode) (epoch i : ℕ) : Outcome N where
  backend := b
  ok := match b.outbox.get? i with
    | some d => n.at (.commitPending epoch (d.seq - 1))
    | none => n.at (.read epoch)
  error := n.at (.xinfoGroups epoch)

def runXinfoGroups (b : Backend N) (n : RelayNode) (epoch : ℕ) : Outcome N where
  backend := b
  ok := match b.group.map Group.lastDelivered with
    | some (i + 1) => n.at (.xrangeDelivered epoch i)
    | _ => n.at (.read epoch)
  error := n.at (.read epoch)

def runXrangeDelivered (b : Backend N) (n : RelayNode) (epoch i : ℕ) : Outcome N where
  backend := b
  ok := match b.outbox.get? i with
    | some d => n.at (.commitDelivered epoch d.seq)
    | none => n.at (.read epoch)
  error := n.at (.read epoch)

def runRead (b : Backend N) (i : N) (n : RelayNode) (epoch : ℕ) : Outcome N :=
  match b.group with
  | none => ⟨b, n.raised, n.raised⟩
  | some g =>
    let (batch, g') := g.xreadgroup b.outbox i xreadgroupCount
    ⟨b.setGroup (some g'),
      match batch with
      | [] => n.at (.lag epoch)
      | _ => { n with emptyLagPolls := 0 }.sending epoch 0 batch,
      n.raised⟩

def runSend (b : Backend N) (n : RelayNode) (epoch : ℕ) (e : Entry) (rest : List Entry)
    (publishedInBatch : ℕ) : Outcome N where
  backend := b.publish e.1
  ok := n.at (.ack epoch e rest publishedInBatch)
  error := n.raised

def runAck (b : Backend N) (n : RelayNode) (epoch : ℕ) (e : Entry) (rest : List Entry)
    (publishedInBatch : ℕ) : Outcome N where
  backend := b.hbRelayAck epoch e.2
  ok := if b.relayEpoch = epoch then n.acked batchSize epoch e rest publishedInBatch else n.raised
  error := n.raised

def runCommit (b : Backend N) (n : RelayNode) (epoch seq : ℕ) (rest : List Entry)
    (publishedInBatch : ℕ) : Outcome N where
  backend := b.hbRelayCommit epoch seq
  ok := if b.relayEpoch = epoch then n.sending epoch publishedInBatch rest else n.raised
  error := n.raised

def runTrim (b : Backend N) (n : RelayNode) (epoch : ℕ) : Outcome N where
  backend := b.hbRelayTrim epoch (n.lastAckedEntry.getD 0)
  ok := if b.relayEpoch = epoch then { n with ackedSinceTrim := 0 }.at (.renew epoch)
    else n.raised
  error := n.raised

def runRecreate (b : Backend N) (n : RelayNode) (epoch : ℕ) : Outcome N :=
  match b.group with
  | some _ => ⟨b, n.raised, n.raised⟩
  | none => ⟨b.setGroup (some .create), { n with emptyLagPolls := 0 }.at (.renew epoch), n.raised⟩

def runRelease (b : Backend N) (i : N) (n : RelayNode) : Outcome N where
  backend := b
  ok := n.at (if b.relayLock = some i then .unlock else .lock)
  error := n.at .lock

def run (b : Backend N) (i : N) (n : RelayNode) : Option (Outcome N) :=
  match n.point with
  | .fresh | .down | .lag _ => none
  | .create => some (runCreate b n)
  | .lock => some (runLock b i n)
  | .incr => some (runIncr b n)
  | .prune epoch => some ⟨b, n.at (.claim epoch), n.at (.claim epoch)⟩
  | .claim epoch => some (runClaim b i n epoch)
  | .republish epoch e rest more => some (runRepublish b n epoch e rest more)
  | .republishAck epoch e rest more => some (runRepublishAck b n epoch e rest more)
  | .xpending epoch => some (runXpending b n epoch)
  | .xrangePending epoch j => some (runXrangePending b n epoch j)
  | .commitPending epoch seq =>
    some ⟨b.hbRelayCommit epoch seq, n.at (.read epoch), n.at (.xinfoGroups epoch)⟩
  | .xinfoGroups epoch => some (runXinfoGroups b n epoch)
  | .xrangeDelivered epoch j => some (runXrangeDelivered b n epoch j)
  | .commitDelivered epoch seq =>
    some ⟨b.hbRelayCommit epoch seq, n.at (.read epoch), n.at (.read epoch)⟩
  | .read epoch => some (runRead b i n epoch)
  | .send epoch e rest k => some (runSend b n epoch e rest k)
  | .ack epoch e rest k => some (runAck batchSize b n epoch e rest k)
  | .commit epoch seq rest k => some (runCommit b n epoch seq rest k)
  | .trim epoch => some (runTrim b n epoch)
  | .destroy epoch => some ⟨b.setGroup none, n.at (.recreate epoch), n.at (.recreate epoch)⟩
  | .recreate epoch => some (runRecreate b n epoch)
  | .renew epoch =>
    some ⟨b, if b.relayLock = some i then n.at (.read epoch) else n.raised, n.raised⟩
  | .release => some (runRelease b i n)
  | .unlock => some ⟨{ b with relayLock := none }, n.at .lock, n.at .lock⟩

def Outcome.take (b : Backend N) (o : Outcome N) : Reply → Backend N × RelayNode
  | .ok => (o.backend, o.ok)
  | .lost => (o.backend, o.error)
  | .failed => (b, o.error)

def maybeHeal (n : RelayNode) (epoch : ℕ) (exceeded : Bool) : RelayNode :=
  if exceeded then
    let n := { n with emptyLagPolls := n.emptyLagPolls + 1 }
    n.at (if n.emptyLagPolls < healEmptyPolls then .renew epoch else .destroy epoch)
  else { n with emptyLagPolls := 0 }.at (.renew epoch)

end Operations

structure Relays (N : Type) where
  backend : Backend N
  nodes : N → RelayNode

inductive RelayAct (N : Type) where
  | call (c : Call)
  | expire
  | start (i : N)
  | crash (i : N)
  | delconsumer (i consumer : N) (reply : Reply)
  | lag (i : N) (exceeded : Bool)
  | resume (i : N) (reply : Reply)

namespace Relays

variable {N : Type} [DecidableEq N] (batchSize : ℕ)

def empty : Relays N := ⟨.empty, fun _ => .fresh⟩

def set (w : Relays N) (i : N) (r : Backend N × RelayNode) : Relays N :=
  ⟨r.1, Function.update w.nodes i r.2⟩

@[simp] theorem nodes_set_self (w : Relays N) (i : N) (r : Backend N × RelayNode) :
    (w.set i r).nodes i = r.2 := Function.update_self ..

theorem nodes_set_of_ne {i j : N} (h : j ≠ i) (w : Relays N) (r : Backend N × RelayNode) :
    (w.set i r).nodes j = w.nodes j := Function.update_of_ne h ..

def step (w : Relays N) : RelayAct N → Option (Relays N)
  | .call c => some { w with backend := w.backend.fcall c }
  | .expire => some { w with backend := { w.backend with relayLock := none } }
  | .start i =>
    match (w.nodes i).point with
    | .fresh => some (w.set i (w.backend, (w.nodes i).at .create))
    | _ => none
  | .crash i => some (w.set i (w.backend, (w.nodes i).at .down))
  | .delconsumer i consumer reply =>
    match (w.nodes i).point with
    | .prune _ =>
      if consumer = i then none
      else some (w.set i (Outcome.take w.backend
        ⟨w.backend.delconsumer consumer, w.nodes i, w.nodes i⟩ reply))
    | _ => none
  | .lag i exceeded =>
    match (w.nodes i).point with
    | .lag epoch => some (w.set i (w.backend, maybeHeal (w.nodes i) epoch exceeded))
    | _ => none
  | .resume i reply =>
    (run batchSize w.backend i (w.nodes i)).map fun o => w.set i (o.take w.backend reply)

end Relays

def relays {N : Type} [DecidableEq N] (batchSize : ℕ) :
    Transition.System (Relays N) (RelayAct N) := ⟨Relays.step batchSize⟩

namespace RelayPoint

def inHand : RelayPoint → List Entry
  | .republish _ e rest _ => e :: rest
  | .republishAck _ e rest _ => e :: rest
  | .send _ e rest _ => e :: rest
  | .ack _ e rest _ => e :: rest
  | .commit _ _ rest _ => rest
  | _ => []

def published : RelayPoint → Option Entry
  | .republishAck _ e _ _ => some e
  | .ack _ e _ _ => some e
  | _ => none

end RelayPoint

variable {N : Type} {b : Backend N} {i : N} {n : RelayNode}

inductive Effect (b : Backend N) (i : N) (n : RelayNode) : Backend N → Prop where
  | keep {b'} (hshard : b'.shard = b.shard) (hgroup : b'.group = b.group)
      (htopic : b'.topic = b.topic) (hcut : b'.truncated = b.truncated) : Effect b i n b'
  | create : Effect b i n (b.setGroup (some (b.group.getD .create)))
  | destroy : Effect b i n (b.setGroup none)
  | claim {g} (hg : b.group = some g) :
    Effect b i n (b.setGroup (some (g.xautoclaim b.outbox i xautoclaimCount).group))
  | publish {e} (he : e ∈ n.point.inHand) : Effect b i n (b.publish e.1)
  | ack {epoch e} (he : n.point.published = some e) (hin : e ∈ n.point.inHand) :
    Effect b i n (b.hbRelayAck epoch e.2)
  | read {epoch g} (hp : n.point = .read epoch) (hg : b.group = some g) :
    Effect b i n (b.setGroup (some (g.xreadgroup b.outbox i xreadgroupCount).2))
  | trim {epoch} (hp : n.point = .trim epoch) :
    Effect b i n (b.hbRelayTrim epoch (n.lastAckedEntry.getD 0))

theorem Effect.refl : Effect b i n b := .keep rfl rfl rfl rfl

theorem Effect.commit (epoch seq : ℕ) : Effect b i n (b.hbRelayCommit epoch seq) := by
  unfold Backend.hbRelayCommit
  split
  · exact .keep rfl rfl rfl rfl
  · exact .refl

theorem run_effect [DecidableEq N] {batchSize : ℕ} {o : Outcome N}
    (h : run batchSize b i n = some o) : Effect b i n o.backend := by
  cases hp : n.point <;> rw [run, hp] at h
  case fresh | down | lag => cases h
  all_goals obtain rfl := Option.some.inj h
  case create => exact .create
  case lock =>
    unfold runLock
    cases b.relayLock with
    | none => exact .keep rfl rfl rfl rfl
    | some j => exact .refl
  case incr => exact .keep rfl rfl rfl rfl
  case prune => exact .refl
  case claim =>
    unfold runClaim
    cases hg : b.group with
    | none => exact .refl
    | some g => exact .claim hg
  case republish =>
    apply Effect.publish
    rw [hp]
    exact List.mem_cons_self
  case republishAck =>
    apply Effect.ack
    · rw [hp]; rfl
    · rw [hp]; exact List.mem_cons_self
  case xpending => exact .refl
  case xrangePending => exact .refl
  case commitPending epoch seq => exact .commit epoch seq
  case xinfoGroups => exact .refl
  case xrangeDelivered => exact .refl
  case commitDelivered epoch seq => exact .commit epoch seq
  case read =>
    unfold runRead
    cases hg : b.group with
    | none => exact .refl
    | some g => exact .read hp hg
  case send =>
    apply Effect.publish
    rw [hp]
    exact List.mem_cons_self
  case ack =>
    apply Effect.ack
    · rw [hp]; rfl
    · rw [hp]; exact List.mem_cons_self
  case commit epoch seq _ _ => exact .commit epoch seq
  case trim => exact .trim hp
  case destroy => exact .destroy
  case recreate =>
    unfold runRecreate
    cases hg : b.group with
    | none =>
      have hcreate := Effect.create (b := b) (i := i) (n := n)
      rwa [hg] at hcreate
    | some g => exact .refl
  case renew => exact .refl
  case release => exact .refl
  case unlock => exact .keep rfl rfl rfl rfl

end Acps.Heartbeat
