import Acps.Discovery.ApplyOrder
import Acps.Lib.ReadCommitted
import Acps.Registry.Feed
import Acps.Registry.Published

/-!
Transactions that read one agent, publish new versions of it and commit, under read committed
isolation and without a row lock, and the client that applies what they commit.
-/

namespace Acps.Dsp.AgentTransactions

open Registry Paging Discovery UnitOfWork

variable {H : Type}

structure Tx (H : Type) where
  read : Agent H
  work : Agent H
  entries : List ChangeLog

structure World (H : Type) where
  globalSeq : ℤ
  agent : Agent H
  log : List ChangeLog
  opened : ℕ → Option (Tx H)

inductive Act where
  | read (w : ℕ)
  | update (w : ℕ) (now : Timestamp) (acs : JsonObject)
  | commit (w : ℕ)
  | rollback (w : ℕ)
  /-- A transaction about another agent takes a seq. -/
  | elsewhere

section Step

variable [DecidableEq H]

def flush (current read work : Agent H) : Agent H :=
  { current with
    acs := flushed current.acs read.acs work.acs
    acsHash := flushed current.acsHash read.acsHash work.acsHash
    acsVersion := flushed current.acsVersion read.acsVersion work.acsVersion
    acsLastSeq := flushed current.acsLastSeq read.acsLastSeq work.acsLastSeq
    updatedAt := flushed current.updatedAt read.updatedAt work.updatedAt }

def World.close (s : World H) (w : ℕ) : World H :=
  { s with opened := Function.update s.opened w none }

variable (π : Platform H)

def Tx.publish (tx : Tx H) (globalSeq : ℤ) (now : Timestamp) (acs : JsonObject) :
    LogState × Agent H :=
  updateAgentWithChangelog π now ⟨globalSeq, tx.entries, []⟩
    { tx.work with acs := some (.obj acs) } (some (.obj acs))

def step (s : World H) : Act → Option (World H)
  | .read w =>
    match s.opened w with
    | none => some { s with opened := Function.update s.opened w (some ⟨s.agent, s.agent, []⟩) }
    | some _ => none
  | .update w now acs => (s.opened w).map fun tx =>
    let r := tx.publish π s.globalSeq now acs
    { s with
      globalSeq := r.1.globalSeq
      opened := Function.update s.opened w (some ⟨tx.read, r.2, r.1.changeLog⟩) }
  | .commit w => (s.opened w).map fun tx =>
    { s with
      agent := flush s.agent tx.read tx.work
      log := s.log ++ tx.entries
      opened := Function.update s.opened w none }
  | .rollback w => some (s.close w)
  | .elsewhere => some { s with globalSeq := s.globalSeq + 1 }

def system : Transition.System (World H) Act := ⟨step π⟩

end Step

def ReadCurrent (s : World H) : Act → Prop
  | .commit w => ∀ tx, s.opened w = some tx → tx.entries ≠ [] →
      tx.read.acsVersion = s.agent.acsVersion
  | _ => True

def World.start (t : Tables H) (a : Agent H) (x : String) : World H :=
  ⟨t.log.globalSeq, a, t.log.everAppended.filter (·.id = x), fun _ => none⟩

/-- Versions grow with seqs, and a client that starts empty and applies the entries in the order of
their seqs ends with the ACS and the version that are committed. -/
structure World.Converged (π : Platform H) (x : String) (s : World H) : Prop where
  versions : ∀ c ∈ s.log, ∀ d ∈ s.log, c.seq < d.seq → c.version < d.version
  client : ∃ es row o, buildEnvelopes π.loads (orderBy ChangeLog.seq s.log) = .ok es ∧
    (Replica.empty.applyAll es).agents.lookup x = some row ∧ row.version = s.agent.acsVersion ∧
      row.acs = some o ∧ s.agent.acs = some (.obj o)

structure Agrees (a b : Agent H) : Prop where
  acs : a.acs = b.acs
  hash : a.acsHash = b.acsHash
  version : a.acsVersion = b.acsVersion
  lastSeq : a.acsLastSeq = b.acsLastSeq

theorem Agrees.refl (a : Agent H) : Agrees a a := ⟨rfl, rfl, rfl, rfl⟩

structure Entry (x : String) (c : ChangeLog) : Prop where
  id : c.id = x
  type : c.type = "acs"
  op : c.op = .upsert
  pos : 0 < c.version
  payload : ∃ o, c.payload = some (.obj o)

structure Chain (π : Platform H) (x : String) (a : Agent H) (log : List ChangeLog) : Prop where
  entries : ∀ c ∈ log, Entry x c
  ascending : log.Pairwise fun c d => c.seq < d.seq ∧ c.version < d.version
  hash : a.acsHash = (truthy a.acs).map (hashPayload π)
  last : ∃ pre c, log = pre ++ [c] ∧ c.version = a.acsVersion ∧ a.acsLastSeq = some c.seq ∧
    c.payload = a.acs

theorem Chain.congr {π : Platform H} {x : String} {a b : Agent H} {log : List ChangeLog}
    (h : Chain π x a log) (hab : Agrees a b) : Chain π x b log where
  entries := h.entries
  ascending := h.ascending
  hash := by rw [← hab.hash, ← hab.acs]; exact h.hash
  last := by rw [← hab.version, ← hab.lastSeq, ← hab.acs]; exact h.last

structure Tx.Ok (π : Platform H) (x : String) (s : World H) (tx : Tx H) (base : List ChangeLog) :
    Prop where
  aic : tx.work.aic = some x
  read : Chain π x tx.read base
  work : Chain π x tx.work (base ++ tx.entries)
  bounded : ∀ c ∈ base ++ tx.entries, c.seq ≤ s.globalSeq
  le : tx.read.acsVersion ≤ s.agent.acsVersion
  quiet : tx.entries = [] → Agrees tx.read tx.work
  current : tx.read.acsVersion = s.agent.acsVersion → s.log = base ∧ Agrees tx.read s.agent

structure World.Inv (π : Platform H) (x : String) (s : World H) : Prop where
  aic : s.agent.aic = some x ∧ x ≠ ""
  chain : Chain π x s.agent s.log
  bounded : ∀ c ∈ s.log, c.seq ≤ s.globalSeq
  opened : ∀ w tx, s.opened w = some tx → ∃ base, tx.Ok π x s base

section Start

variable {π : Platform H} {t : Tables H} {a : Agent H} {x : String} {o : JsonObject}

theorem chain_start (h : t.Published π) (ha : a ∈ t.agents) (hx : a.aic = some x)
    (ho : loadAgentAcsData π a.acs = some o) :
    Chain π x a (t.log.everAppended.filter (·.id = x)) := by
  have hmem {c : ChangeLog} : c ∈ t.log.everAppended.filter (·.id = x) ↔
      c ∈ t.log.everAppended ∧ c.id = x := by simp [List.mem_filter]
  have hacs : a.acs = some (.obj o) := (h.consistent.clean a ha).eq_obj ho
  have hne : o ≠ [] := by
    rintro rfl
    rw [hacs, loadAgentAcsData_obj, if_pos rfl] at ho
    simp at ho
  obtain ⟨_, hhash, c, hc, hcx, hseq, hver, hpay, hmax⟩ := h.current a ha x o hx ho
  have hasc : Ascending ChangeLog.seq (t.log.everAppended.filter (·.id = x)) :=
    h.consistent.log.ascending.filter _
  refine ⟨?_, ?_, ?_, ?_⟩
  · intro d hd
    obtain ⟨hd, hdx⟩ := hmem.mp hd
    obtain ⟨b, _, howned⟩ := h.owned d hd
    exact ⟨hdx, howned.type, howned.op, howned.pos, howned.payload⟩
  · refine hasc.imp_of_mem fun hd he hlt => ⟨hlt, ?_⟩
    obtain ⟨hd, hdx⟩ := hmem.mp hd
    obtain ⟨he, hex⟩ := hmem.mp he
    exact h.versions _ hd _ he (hdx.trans hex.symm) hlt
  · rw [hhash, hacs, truthy_obj, if_neg hne]
    rfl
  · have hcmem := hmem.mpr ⟨hc, hcx⟩
    -- the entry with the largest seq is the last one
    cases hl : t.log.everAppended.filter (·.id = x) using List.reverseRec with
    | nil => rw [hl] at hcmem; simp at hcmem
    | append_singleton pre d =>
      have hdmem : d ∈ t.log.everAppended.filter (·.id = x) := by rw [hl]; simp
      have hle : c.seq ≤ d.seq := by
        have := mem_le_cursorAfter hasc 0 hcmem
        rwa [hl, cursorAfter_append_singleton] at this
      have hdc : d = c := hasc.eq_of_key hdmem hcmem
        ((hmax d (hmem.mp hdmem).1 (hmem.mp hdmem).2).antisymm hle)
      subst hdc
      exact ⟨pre, d, rfl, hver, hseq, hpay.trans hacs.symm⟩

theorem inv_start (h : t.Published π) (ha : a ∈ t.agents) (hx : a.aic = some x)
    (ho : loadAgentAcsData π a.acs = some o) : (World.start t a x).Inv π x where
  aic := ⟨hx, (h.approved a ha x hx).2⟩
  chain := chain_start h ha hx ho
  bounded c hc := (h.consistent.log.bounded c (List.mem_of_mem_filter hc)).2
  opened w tx htx := by simp [World.start] at htx

end Start

section Step

variable {π : Platform H} {x : String} {s t : World H} {tx : Tx H} {base : List ChangeLog}

theorem Tx.Ok.mono (h : tx.Ok π x s base) (hle : s.globalSeq ≤ t.globalSeq)
    (hagent : t.agent = s.agent) (hlog : t.log = s.log) : tx.Ok π x t base where
  aic := h.aic
  read := h.read
  work := h.work
  bounded c hc := (h.bounded c hc).trans hle
  le := hagent ▸ h.le
  quiet := h.quiet
  current := by rw [hagent, hlog]; exact h.current

theorem hash_injective (hinj : Function.Injective π.acsHash) {o p : JsonObject}
    (h : (truthy (some (.obj o))).map (hashPayload π) = (truthy (some (.obj p))).map (hashPayload π)) :
    o = p := by
  rw [truthy_obj, truthy_obj] at h
  by_cases ho : o = [] <;> by_cases hp : p = []
  · rw [ho, hp]
  · simp [ho, hp] at h
  · simp [ho, hp] at h
  · simp only [ho, hp, if_false, Option.map_some, Option.some.injEq] at h
    exact hinj h

theorem Chain.append {a b : Agent H} {log : List ChangeLog} (h : Chain π x a log) {c : ChangeLog}
    (hc : Entry x c) (hseq : ∀ d ∈ log, d.seq < c.seq) (hver : c.version = a.acsVersion + 1)
    (hb : c.version = b.acsVersion ∧ b.acsLastSeq = some c.seq ∧ c.payload = b.acs)
    (hhash : b.acsHash = (truthy b.acs).map (hashPayload π)) : Chain π x b (log ++ [c]) where
  entries d hd := by
    rcases List.mem_append.mp hd with hd | hd
    · exact h.entries d hd
    · exact List.mem_singleton.mp hd ▸ hc
  ascending := by
    refine List.pairwise_append.mpr ⟨h.ascending, List.pairwise_singleton _ _, ?_⟩
    intro d hd e he
    obtain rfl := List.mem_singleton.mp he
    refine ⟨hseq d hd, ?_⟩
    obtain ⟨pre, last, hlog, hlast, _, _⟩ := h.last
    have hle : d.version ≤ last.version := by
      have hp := h.ascending
      rw [hlog] at hp hd
      rcases List.mem_append.mp hd with hd | hd
      · exact ((List.pairwise_append.mp hp).2.2 d hd last (by simp)).2.le
      · exact (congrArg ChangeLog.version (List.mem_singleton.mp hd)).le
    omega
  hash := hhash
  last := ⟨log, c, rfl, hb.1, hb.2⟩

variable [DecidableEq H]

theorem Tx.Ok.update (h : tx.Ok π x s base) (hinj : Function.Injective π.acsHash) (hx : x ≠ "")
    (now : Timestamp) (acs : JsonObject) {r : LogState × Agent H}
    (hr : r = tx.publish π s.globalSeq now acs)
    (hseq : t.globalSeq = r.1.globalSeq) (hagent : t.agent = s.agent) (hlog : t.log = s.log) :
    s.globalSeq ≤ t.globalSeq ∧ Tx.Ok π x t ⟨tx.read, r.2, r.1.changeLog⟩ base := by
  obtain ⟨b, hb⟩ : ∃ b : Agent H, b = { tx.work with acs := some (.obj acs) } := ⟨_, rfl⟩
  rw [Tx.publish, ← hb] at hr
  have hbaic : b.aic = some x := by rw [hb]; exact h.aic
  have hbacs : b.acs = some (.obj acs) := by rw [hb]
  have hbhash : b.acsHash = tx.work.acsHash := by rw [hb]
  have hbver : b.acsVersion = tx.work.acsVersion := by rw [hb]
  have hbseq : b.acsLastSeq = tx.work.acsLastSeq := by rw [hb]
  obtain ⟨pre, last, hpre, hver, hlast, hpay⟩ := h.work.last
  have hmem : last ∈ base ++ tx.entries := by rw [hpre]; simp
  by_cases hh : (truthy (some (Payload.obj acs))).map (hashPayload π) = b.acsHash
  · rw [updateAgentWithChangelog_unchanged hh] at hr
    subst hr
    have hacs : tx.work.acs = some (.obj acs) := by
      obtain ⟨o, ho⟩ := (h.work.entries last hmem).payload
      have hwork := h.work.hash
      rw [← hpay, ho] at hwork ⊢
      rw [hash_injective hinj (hh.trans (hbhash.trans hwork))]
    have hagree : Agrees tx.work { b with updatedAt := now } :=
      ⟨hacs.trans hbacs.symm, hbhash.symm, hbver.symm, hbseq.symm⟩
    refine ⟨hseq.ge, hbaic, h.read, h.work.congr hagree, ?_, hagent ▸ h.le, ?_, ?_⟩
    · rw [hseq]
      exact h.bounded
    · intro hnil
      have := h.quiet hnil
      exact ⟨this.acs.trans hagree.acs, this.hash.trans hagree.hash,
        this.version.trans hagree.version, this.lastSeq.trans hagree.lastSeq⟩
    · rw [hagent, hlog]
      exact h.current
  · rw [updateAgentWithChangelog_changed hh] at hr
    subst hr
    have hentries : (nextLog now ⟨s.globalSeq, tx.entries, []⟩ b (some (.obj acs))).changeLog =
        tx.entries ++ [nextEntry now ⟨s.globalSeq, tx.entries, []⟩ x b (some (.obj acs))] := by
      simp [nextLog, hbaic, hx, Option.filter, generateNextSeq, LogState.insert]
    have hnew : t.globalSeq = s.globalSeq + 1 := hseq.trans (nextLog_globalSeq ..)
    have hbound (c : ChangeLog) (hc : c ∈ base ++ tx.entries) : c.seq < s.globalSeq + 1 :=
      Int.lt_add_one_of_le (h.bounded c hc)
    have hpos : 0 < tx.work.acsVersion := hver ▸ (h.work.entries last hmem).pos
    refine ⟨by omega, hbaic, h.read, ?_, ?_, hagent ▸ h.le, ?_, ?_⟩
    · dsimp only
      rw [hentries, ← List.append_assoc]
      refine h.work.append ⟨rfl, rfl, rfl, ?_, acs, rfl⟩ hbound (congrArg (· + 1) hbver)
        ⟨rfl, rfl, hbacs.symm⟩ (by rw [hbacs])
      dsimp only [nextEntry]
      omega
    · dsimp only
      intro c hc
      rw [hentries, ← List.append_assoc, List.mem_append, List.mem_singleton] at hc
      rcases hc with hc | rfl
      · have := hbound c hc
        omega
      · exact hnew.ge
    · dsimp only
      rw [hentries]
      simp
    · rw [hagent, hlog]
      exact h.current

omit [DecidableEq H] in
theorem Tx.Ok.version_lt (h : tx.Ok π x s base) (hne : tx.entries ≠ []) :
    tx.read.acsVersion < tx.work.acsVersion := by
  obtain ⟨pre, c, hbase, hc, _⟩ := h.read.last
  obtain ⟨pre', d, hall, hd, _⟩ := h.work.last
  have hdmem : d ∈ tx.entries := by
    have hlast := congrArg List.getLast? hall
    rw [List.getLast?_append_of_ne_nil _ hne, List.getLast?_concat] at hlast
    exact List.mem_of_getLast? hlast
  have hcmem : c ∈ base := by rw [hbase]; simp
  have := ((List.pairwise_append.mp h.work.ascending).2.2 c hcmem d hdmem).2
  omega

theorem flush_of_quiet (current : Agent H) {read work : Agent H} (h : Agrees read work) :
    Agrees current (flush current read work) := by
  constructor <;> simp only [flush, h.acs, h.hash, h.version, h.lastSeq, flushed_unchanged]

theorem flush_of_current {current read : Agent H} (work : Agent H) (h : Agrees read current) :
    Agrees work (flush current read work) := by
  constructor <;> simp only [flush, h.acs, h.hash, h.version, h.lastSeq, flushed_self]

theorem World.Inv.commit (h : s.Inv π x) {w : ℕ} (htx : s.opened w = some tx)
    (hC : tx.entries ≠ [] → tx.read.acsVersion = s.agent.acsVersion) :
    World.Inv π x { s with
      agent := flush s.agent tx.read tx.work
      log := s.log ++ tx.entries
      opened := Function.update s.opened w none } := by
  obtain ⟨base, hok⟩ := h.opened w tx htx
  have hother {v : ℕ} {tx' : Tx H} (hv : Function.update s.opened w none v = some tx') :
      s.opened v = some tx' := by
    by_cases hvw : v = w
    · subst hvw; simp at hv
    · rwa [Function.update_of_ne hvw] at hv
  by_cases hne : tx.entries = []
  · have hagree := flush_of_quiet s.agent (hok.quiet hne)
    refine ⟨h.aic, ?_, ?_, fun v tx' hv => ?_⟩
    · rw [hne, List.append_nil]
      exact h.chain.congr hagree
    · rw [hne, List.append_nil]
      exact h.bounded
    · obtain ⟨base', hok'⟩ := h.opened v tx' (hother hv)
      refine ⟨base', hok'.aic, hok'.read, hok'.work, hok'.bounded, hagree.version ▸ hok'.le,
        hok'.quiet, fun hcur => ?_⟩
      obtain ⟨hlog, hsame⟩ := hok'.current (hcur.trans hagree.version.symm)
      rw [hne, List.append_nil]
      exact ⟨hlog, hsame.acs.trans hagree.acs, hsame.hash.trans hagree.hash,
        hsame.version.trans hagree.version, hsame.lastSeq.trans hagree.lastSeq⟩
  · obtain ⟨hlog, hsame⟩ := hok.current (hC hne)
    have hagree := flush_of_current tx.work hsame
    have hlt := hok.version_lt hne
    refine ⟨h.aic, ?_, ?_, fun v tx' hv => ?_⟩
    · rw [hlog]
      exact hok.work.congr hagree
    · rw [hlog]
      exact hok.bounded
    · -- a transaction that is still open has read an older version
      obtain ⟨base', hok'⟩ := h.opened v tx' (hother hv)
      have hold : tx'.read.acsVersion < tx.work.acsVersion := by
        have := hok'.le
        have := hC hne
        omega
      exact ⟨base', hok'.aic, hok'.read, hok'.work, hok'.bounded, hagree.version ▸ hold.le,
        hok'.quiet, fun hcur => absurd (hcur.trans hagree.version.symm) hold.ne⟩

theorem World.Inv.step (hinj : Function.Injective π.acsHash) (h : s.Inv π x) {a : Act}
    (hC : ReadCurrent s a) (ht : step π s a = some t) : t.Inv π x := by
  cases a with
  | read w =>
    simp only [AgentTransactions.step] at ht
    split at ht
    · obtain rfl := Option.some.inj ht
      refine ⟨h.aic, h.chain, h.bounded, fun v tx hv => ?_⟩
      by_cases hvw : v = w
      · subst hvw
        dsimp only at hv
        rw [Function.update_self] at hv
        obtain rfl := Option.some.inj hv
        refine ⟨s.log, h.aic.1, h.chain, ?_, ?_, le_rfl, fun _ => .refl _, fun _ => ⟨rfl, .refl _⟩⟩
        · rw [List.append_nil]
          exact h.chain
        · rw [List.append_nil]
          exact h.bounded
      · dsimp only at hv
        rw [Function.update_of_ne hvw] at hv
        obtain ⟨base, hok⟩ := h.opened v tx hv
        exact ⟨base, hok.mono le_rfl rfl rfl⟩
    · simp at ht
  | update w now acs =>
    obtain ⟨tx, htx, rfl⟩ := Option.map_eq_some_iff.mp ht
    obtain ⟨base, hok⟩ := h.opened w tx htx
    obtain ⟨r, hr⟩ : ∃ r, r = tx.publish π s.globalSeq now acs := ⟨_, rfl⟩
    rw [← hr]
    obtain ⟨hle, hok'⟩ := hok.update (t := ⟨r.1.globalSeq, s.agent, s.log,
      Function.update s.opened w (some ⟨tx.read, r.2, r.1.changeLog⟩)⟩) hinj h.aic.2 now acs hr
      rfl rfl rfl
    refine ⟨h.aic, h.chain, fun c hc => (h.bounded c hc).trans hle, fun v tx' hv => ?_⟩
    by_cases hvw : v = w
    · subst hvw
      dsimp only at hv
      rw [Function.update_self] at hv
      obtain rfl := Option.some.inj hv
      exact ⟨base, hok'⟩
    · dsimp only at hv
      rw [Function.update_of_ne hvw] at hv
      obtain ⟨base', hother⟩ := h.opened v tx' hv
      exact ⟨base', hother.mono hle rfl rfl⟩
  | commit w =>
    obtain ⟨tx, htx, rfl⟩ := Option.map_eq_some_iff.mp ht
    exact h.commit htx (hC tx htx)
  | rollback w =>
    obtain rfl := Option.some.inj ht
    refine ⟨h.aic, h.chain, h.bounded, fun v tx hv => ?_⟩
    by_cases hvw : v = w
    · subst hvw
      simp [World.close] at hv
    · simp only [World.close, Function.update_of_ne hvw] at hv
      obtain ⟨base, hok⟩ := h.opened v tx hv
      exact ⟨base, hok.mono le_rfl rfl rfl⟩
  | elsewhere =>
    obtain rfl := Option.some.inj ht
    refine ⟨h.aic, h.chain, fun c hc => (h.bounded c hc).trans (Int.le_add_one le_rfl),
      fun v tx hv => ?_⟩
    obtain ⟨base, hok⟩ := h.opened v tx hv
    exact ⟨base, hok.mono (Int.le_add_one le_rfl) rfl rfl⟩

end Step

section Client

variable {π : Platform H} {x : String}

theorem Entry.decodes {c : ChangeLog} (h : Entry x c) {o : JsonObject}
    (ho : c.payload = some (.obj o)) :
    Decodes π.loads c ⟨c.seq, some c.ts, some .upsert, "acs", x, c.version, some o⟩ := by
  rw [Decodes, buildEnvelope, ho, h.id, h.type, h.op]

theorem World.Inv.converged {s : World H} (h : s.Inv π x) : s.Converged π x := by
  have hasc : Ascending ChangeLog.seq s.log := h.chain.ascending.imp And.left
  constructor
  · intro c hc d hd
    exact List.Pairwise.forall_of_forall_of_flip (R := fun c d => c.seq < d.seq →
      c.version < d.version) (fun _ _ hlt => absurd hlt (lt_irrefl _))
      (h.chain.ascending.imp fun hcd _ => hcd.2)
      (h.chain.ascending.imp fun hcd hlt => absurd hcd.1 hlt.not_gt) hc hd
  · obtain ⟨pre, c, hlog, hver, -, hpay⟩ := h.chain.last
    have hc : c ∈ s.log := by rw [hlog]; simp
    obtain ⟨o, ho⟩ := (h.chain.entries c hc).payload
    have hdecodes : ∀ d ∈ s.log, ∃ e, Decodes π.loads d e := by
      intro d hd
      obtain ⟨p, hp⟩ := (h.chain.entries d hd).payload
      exact ⟨_, (h.chain.entries d hd).decodes hp⟩
    obtain ⟨es, hes, hbuild⟩ := buildEnvelopes_complete hdecodes
    have hdec := (h.chain.entries c hc).decodes (π := π) ho
    obtain ⟨e, he, hce⟩ := exists_of_forall₂ hes hc
    obtain rfl := decodes_unique hdec hce
    refine ⟨es, ⟨c.version, c.seq, some o⟩, o, ?_, lookup_applyAll.mpr (LastWriter.run_newest_put
      ?_ ?_ (mem_acsWrites.mpr ⟨_, he, ⟨rfl, rfl⟩, rfl⟩) ?_), hver, rfl, hpay ▸ ho⟩
    · rwa [orderBy_of_ascending hasc]
    · exact (h.chain.entries c hc).pos
    · exact (h.chain.entries c hc).pos
    · -- the entries before the last one are older
      intro w hw
      obtain ⟨d', hd', -, rfl⟩ := mem_acsWrites.mp hw
      obtain ⟨d, hd, hdd⟩ := exists_of_forall₂ hes.flip hd'
      obtain ⟨p, hp⟩ := (h.chain.entries d hd).payload
      obtain rfl := decodes_unique ((h.chain.entries d hd).decodes (π := π) hp) hdd
      rw [hlog] at hd
      rcases List.mem_append.mp hd with hd | hd
      · have hasc := h.chain.ascending
        rw [hlog] at hasc
        exact .inr ((List.pairwise_append.mp hasc).2.2 d hd c (by simp)).2
      · obtain rfl := List.mem_singleton.mp hd
        obtain rfl : p = o := by simpa [hp] using ho
        exact .inl rfl

end Client

variable [DecidableEq H]

theorem concurrent_updates_converge {π : Platform H} (hinj : Function.Injective π.acsHash)
    {es : List Event} {t : Tables H} (hfresh : (registry π).Meets (Fresh π) .empty es)
    (ht : (registry π).exec .empty es = some t) {a : Agent H} (ha : a ∈ t.agents) {x : String}
    (hx : a.aic = some x) {o : JsonObject} (ho : loadAgentAcsData π a.acs = some o)
    {acts : List Act} {s : World H} (hs : (system π).exec (World.start t a x) acts = some s)
    (hC : (system π).Meets ReadCurrent (World.start t a x) acts) : s.Converged π x := by
  have hpub := Tables.Published.reachable hinj hfresh ht
  exact ((system π).exec_invariant (I := World.Inv π x) (fun _ _ _ hI hC ht => hI.step hinj hC ht)
    (inv_start hpub ha hx ho) hC hs).converged

def oneEntity : Tables Payload :=
  (Tables.empty : Tables Payload).handle plainPlatform (.write 0 (.registerEntity 1 "A" []))

def entity : Agent Payload := entityAgent plainPlatform 0 1 "A" (entityAcs "A" []) 1

theorem concurrent_updates_converge_in_turn : ∃ s,
    (system plainPlatform).exec (World.start oneEntity entity "A")
      [.read 0, .update 0 5 [("name", .str "x")], .read 1, .commit 0, .rollback 1, .read 1,
        .update 1 6 [("name", .str "y")], .commit 1] = some s ∧ s.Converged plainPlatform "A" := by
  obtain ⟨s, hs⟩ : ∃ s, (system plainPlatform).exec (World.start oneEntity entity "A")
      [.read 0, .update 0 5 [("name", .str "x")], .read 1, .commit 0, .rollback 1, .read 1,
        .update 1 6 [("name", .str "y")], .commit 1] = some s := ⟨_, rfl⟩
  have hone : (registry plainPlatform).exec .empty [.write 0 (.registerEntity 1 "A" [])] =
      some oneEntity := rfl
  have hfresh : (registry plainPlatform).Meets (Fresh plainPlatform) .empty
      [.write 0 (.registerEntity 1 "A" [])] := ⟨trivial, fun _ _ => trivial⟩
  refine ⟨s, hs, concurrent_updates_converge (fun _ _ h => Payload.obj.inj h) hfresh hone (a := entity)
    (List.mem_singleton.mpr rfl) rfl rfl hs ?_⟩
  have hcommit {t : World Payload} {w : ℕ} {tx : Tx Payload} (htx : t.opened w = some tx)
      (hv : tx.read.acsVersion = t.agent.acsVersion) : ReadCurrent t (.commit w) := by
    intro tx' htx' _
    obtain rfl := Option.some.inj (htx.symm.trans htx')
    exact hv
  iterate 3 refine Transition.System.meets_cons _ trivial rfl ?_
  refine Transition.System.meets_cons _ (hcommit rfl rfl) rfl ?_
  iterate 3 refine Transition.System.meets_cons _ trivial rfl ?_
  exact Transition.System.meets_cons _ (hcommit rfl rfl) rfl trivial

theorem lost_update : ∃ s,
    (system plainPlatform).exec (World.start oneEntity entity "A")
      [.read 0, .read 1, .update 0 5 [("name", .str "x")], .update 1 6 [("name", .str "y")],
        .commit 0, .commit 1] = some s ∧
      (registry plainPlatform).exec .empty [.write 0 (.registerEntity 1 "A" [])] =
        some oneEntity ∧ entity ∈ oneEntity.agents ∧ ¬ s.Converged plainPlatform "A" := by
  refine ⟨_, rfl, rfl, List.mem_singleton.mpr rfl, fun h => ?_⟩
  have hlt := h.versions ⟨2, 5, "acs", .upsert, "A", 2, some (.obj [("name", .str "x")])⟩ (by decide)
    ⟨3, 6, "acs", .upsert, "A", 2, some (.obj [("name", .str "y")])⟩ (by decide) (by decide)
  exact absurd hlt (by decide)

end Acps.Dsp.AgentTransactions
