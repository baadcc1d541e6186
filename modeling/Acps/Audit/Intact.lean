import Acps.Audit.Writer

/-!
The chains under any number of writers: whatever is committed, each chain is numbered without a gap,
linked by its hashes and shown by its head.
-/

namespace Acps.Audit

theorem LogRecord.timestamp_of_validated {o : JsonObject} {record : LogRecord}
    (h : LogRecord.modelValidate o = some record) : o.get "timestamp" = some (.str record.timestamp) := by
  unfold LogRecord.modelValidate at h
  obtain ⟨_, _, h⟩ := Option.bind_eq_some_iff.mp h
  obtain ⟨timestamp, htimestamp, h⟩ := Option.bind_eq_some_iff.mp h
  obtain ⟨aic, _, h⟩ := Option.bind_eq_some_iff.mp h
  obtain ⟨logType, _, h⟩ := Option.bind_eq_some_iff.mp h
  obtain ⟨logId, _, h⟩ := Option.bind_eq_some_iff.mp h
  obtain ⟨traceId, _, h⟩ := Option.bind_eq_some_iff.mp h
  obtain ⟨correlationId, _, h⟩ := Option.bind_eq_some_iff.mp h
  obtain ⟨body, _, h⟩ := Option.bind_eq_some_iff.mp h
  obtain ⟨integrity, _, h⟩ := Option.bind_eq_some_iff.mp h
  obtain ⟨_, _, h⟩ := Option.bind_eq_some_iff.mp h
  obtain rfl := Option.some.inj h
  unfold requiredText at htimestamp
  split at htimestamp
  next hget => rw [hget, Option.some.inj htimestamp]
  next => cases htimestamp

variable (π : Platform)

structure AuditChainHead.Precedes (head : AuditChainHead) (row : AuditRecord) : Prop where
  seq : row.chainSeq = head.lastChainSeq + 1
  previous : row.previousHash = if row.chainSeq > 0 then head.lastCurrentHash else none
  hashed : row.recomputedHash π = some row.currentHash
  rawHashed : computeRawLogHash π row.rawLog = some row.rawLogHash

theorem auditRow_eq_some {m : Unseen} {answer : KeyAnswer} {chainId : String}
    {head : AuditChainHead} {auditId : Uuid} {committedAt nowUtc : Time} {row : AuditRecord}
    (h : auditRow π m answer chainId head auditId committedAt nowUtc = some row) :
    row.chainId = chainId ∧ head.Precedes π row := by
  obtain ⟨rawLogHash, hraw, h⟩ := Option.bind_eq_some_iff.mp h
  obtain ⟨currentHash, hcurrent, h⟩ := Option.bind_eq_some_iff.mp h
  obtain ⟨body, _, h⟩ := Option.bind_eq_some_iff.mp h
  obtain ⟨timestamp, _, h⟩ := Option.bind_eq_some_iff.mp h
  obtain rfl := Option.some.inj h
  refine ⟨rfl, rfl, rfl, ?_, hraw⟩
  unfold AuditRecord.recomputedHash
  rw [LogRecord.timestamp_of_validated m.validated]
  exact hcurrent

namespace World

section Views

variable (s : World)

def chain (c : String) : List AuditRecord := chainOf s.records.committed c

def head (c : String) : Option AuditChainHead := (s.heads c).map (·.committed)

def draft (c : String) (i : ℕ) : Option AuditChainHead := (s.heads c).bind (·.draft i)

end Views

structure Intact (s : World) : Prop where
  numbered : ∀ c, (s.chain c).map AuditRecord.chainSeq = (List.range (s.chain c).length).map (↑·)
  genesis : ∀ c, ∀ r ∈ s.chain c, r.chainSeq = 0 → r.previousHash = none
  linked : ∀ c, ∀ r ∈ s.chain c, r.chainSeq ≠ 0 →
    ∃ p ∈ s.chain c, p.chainSeq + 1 = r.chainSeq ∧ r.previousHash = some p.currentHash
  hashed : ∀ r ∈ s.records.committed, r.recomputedHash π = some r.currentHash
  headed : ∀ c, s.chain c ≠ [] → (s.head c).isSome
  pointed : ∀ c head, s.head c = some head → head.PointsAt (s.chain c).getLast?
  logIds : (s.records.committed.map AuditRecord.logId).Nodup

structure Tables (s : World) : Prop where
  distinct : s.identities.Distinct AuditRecordIdentity.Clash
  paired : s.records.committed.map AuditRecord.logId =
    s.identities.committed.map AuditRecordIdentity.logId
  hashed : ∀ r ∈ s.records.committed, r.recomputedHash π = some r.currentHash
  rawHashed : ∀ r ∈ s.records.committed, computeRawLogHash π r.rawLog = some r.rawLogHash
  chained : ∀ c, HashChain.Chained chainView (s.chain c)
  headed : ∀ c, s.chain c ≠ [] → (s.head c).isSome
  pointed : ∀ c head, s.head c = some head → head.PointsAt (s.chain c).getLast?

structure Owns (s : World) (i : ℕ) (drafts : String → Option AuditChainHead)
    (rows : List AuditRecord) : Prop where
  drafts : ∀ c, s.draft c i = drafts c
  records : s.records.own i = rows
  identities : (s.identities.own i).map AuditRecordIdentity.logId = rows.map AuditRecord.logId

def only (c : String) (head : AuditChainHead) : String → Option AuditChainHead :=
  fun c' => if c' = c then some head else none

def Stands (s : World) (i : ℕ) : Phase → Prop
  | .idle | .unseen _ => s.Owns i (fun _ => none) []
  | .locked _ _ c head => s.Owns i (only c head) [] ∧ s.head c = some head
  | .flushed row _ => ∃ head, s.Owns i (only row.chainId head) [row] ∧
      s.head row.chainId = some head ∧ head.Precedes π row
  | .advanced row => ∃ head nowUtc, s.Owns i (only row.chainId (headAfter row nowUtc)) [row] ∧
      s.head row.chainId = some head ∧ head.Precedes π row

structure Sound (s : World) : Prop extends Tables π s where
  stands : ∀ i, s.Stands π i (s.phase i)

variable {π} {s t : World} {i j : ℕ}

theorem Tables.intact (h : s.Tables π) : s.Intact π where
  numbered c := (h.chained c).map_seq
  genesis c _ hr hseq := (h.chained c).previous_genesis hr hseq
  linked c _ hr hseq := (h.chained c).previous_later hr hseq
  hashed := h.hashed
  headed := h.headed
  pointed := h.pointed
  logIds := by
    rw [h.paired]
    apply List.pairwise_map.mpr
    exact h.distinct.committed.imp fun hclash heq => hclash (.inr (.inl heq))

theorem Tables.congr (h : s.Tables π) (hdistinct : t.identities.Distinct AuditRecordIdentity.Clash)
    (hidentities : t.identities.committed = s.identities.committed)
    (hrecords : t.records.committed = s.records.committed) (hhead : ∀ c, t.head c = s.head c) :
    t.Tables π := by
  have hchain (c : String) : t.chain c = s.chain c := by rw [chain, chain, hrecords]
  refine ⟨hdistinct, ?_, ?_, ?_, fun c => ?_, fun c hne => ?_, fun c head hc => ?_⟩
  · rw [hrecords, hidentities]
    exact h.paired
  · rw [hrecords]
    exact h.hashed
  · rw [hrecords]
    exact h.rawHashed
  · rw [hchain]
    exact h.chained c
  · rw [hhead]
    exact h.headed c (hchain c ▸ hne)
  · rw [hchain]
    exact h.pointed c head (hhead c ▸ hc)

theorem Owns.frame {drafts : String → Option AuditChainHead} {rows : List AuditRecord}
    (h : s.Owns j drafts rows) (hdrafts : ∀ c, t.draft c j = s.draft c j)
    (hrecords : t.records.own j = s.records.own j)
    (hidentities : t.identities.own j = s.identities.own j) : t.Owns j drafts rows := by
  refine ⟨fun c => (hdrafts c).trans (h.drafts c), hrecords.trans h.records, ?_⟩
  rw [hidentities]
  exact h.identities

theorem Stands.frame {p : Phase} (h : s.Stands π j p) (hdrafts : ∀ c, t.draft c j = s.draft c j)
    (hhead : ∀ c, (s.draft c j).isSome → t.head c = s.head c)
    (hrecords : t.records.own j = s.records.own j)
    (hidentities : t.identities.own j = s.identities.own j) : t.Stands π j p := by
  have hheld {c : String} {head : AuditChainHead} {rows : List AuditRecord}
      (howns : s.Owns j (only c head) rows) : t.head c = s.head c := by
    apply hhead
    rw [howns.drafts, only, if_pos rfl]
    rfl
  cases p with
  | idle => exact Owns.frame h hdrafts hrecords hidentities
  | unseen m => exact Owns.frame h hdrafts hrecords hidentities
  | locked m answer c head =>
    exact ⟨h.1.frame hdrafts hrecords hidentities, (hheld h.1).trans h.2⟩
  | flushed row nowUtc =>
    obtain ⟨head, howns, hcommitted, hprecedes⟩ := h
    exact ⟨head, howns.frame hdrafts hrecords hidentities, (hheld howns).trans hcommitted, hprecedes⟩
  | advanced row =>
    obtain ⟨head, nowUtc, howns, hcommitted, hprecedes⟩ := h
    exact ⟨head, nowUtc, howns.frame hdrafts hrecords hidentities, (hheld howns).trans hcommitted,
      hprecedes⟩

theorem stands_update {phase : ℕ → Phase} {p : Phase} (hp : s.Stands π i p)
    (h : ∀ j, j ≠ i → s.Stands π j (phase j)) (j : ℕ) :
    s.Stands π j (Function.update phase i p j) := by
  by_cases hj : j = i
  · subst hj
    rwa [Function.update_self]
  · rw [Function.update_of_ne hj]
    exact h j hj

theorem Tables.setPhase {p : Phase} (ht : s.Tables π) (hp : s.Stands π i p)
    (h : ∀ j, j ≠ i → s.Stands π j (s.phase j)) : (s.setPhase i p).Sound π := by
  have hframe {j : ℕ} {q : Phase} (hq : s.Stands π j q) : (s.setPhase i p).Stands π j q :=
    hq.frame (fun _ => rfl) (fun _ _ => rfl) rfl rfl
  refine ⟨ht.congr ht.distinct rfl rfl fun _ => rfl, ?_⟩
  exact stands_update (hframe hp) fun j hj => hframe (h j hj)

section SetHead

variable {c : String} {row row' : LockedRow ℕ AuditChainHead} {v : AuditChainHead}

theorem heads_setHead (s : World) (c : String) (row : LockedRow ℕ AuditChainHead) (c' : String) :
    (s.setHead c row).heads c' = if c' = c then some row else s.heads c' :=
  Function.update_apply ..

theorem head_setHead (hrow : s.heads c = some row) (hw : row.write i v = some row') (c' : String) :
    (s.setHead c row').head c' = s.head c' := by
  unfold head
  rw [heads_setHead]
  split
  next h => rw [h, hrow, Option.map_some, Option.map_some, LockedRow.committed_write hw]
  next => rfl

theorem draft_setHead (hrow : s.heads c = some row) (hw : row.write i v = some row') (c' : String)
    (j : ℕ) : (s.setHead c row').draft c' j = if c' = c ∧ j = i then some v else s.draft c' j := by
  unfold draft
  rw [heads_setHead]
  split
  next h =>
    rw [h, hrow, Option.bind_some, Option.bind_some, LockedRow.draft_write hw]
    simp
  next h => rw [if_neg fun h' => h h'.1]

theorem Sound.setHead {p : Phase} (hs : s.Sound π) (hrow : s.heads c = some row)
    (hw : row.write i v = some row') (hp : (s.setHead c row').Stands π i p) :
    ((s.setHead c row').setPhase i p).Sound π := by
  have ht := hs.toTables.congr (t := s.setHead c row') hs.distinct rfl rfl (head_setHead hrow hw)
  apply ht.setPhase hp
  intro j hj
  apply (hs.stands j).frame
  · intro c'
    rw [draft_setHead hrow hw, if_neg fun h => hj h.2]
  · exact fun c' _ => head_setHead hrow hw c'
  · rfl
  · rfl

end SetHead

section Rollback

theorem head_rollback (s : World) (i : ℕ) (c : String) : (s.rollback i).head c = s.head c := by
  unfold head rollback
  cases hc : s.heads c with
  | none => simp [hc]
  | some row => simp [hc, LockedRow.committed_rollback]

theorem draft_rollback (s : World) (i j : ℕ) (c : String) :
    (s.rollback i).draft c j = if j = i then none else s.draft c j := by
  unfold draft rollback
  cases hc : s.heads c with
  | none => simp [hc]
  | some row => simp [hc, LockedRow.draft_rollback]

theorem Sound.rollback (hs : s.Sound π) (i : ℕ) : (s.rollback i).Sound π := by
  have hend : (s.rollback i).Owns i (fun _ => none) [] := by
    refine ⟨fun c => ?_, ?_, ?_⟩
    · rw [draft_rollback, if_pos rfl]
    · exact (s.records.own_rollback i i).trans (if_pos rfl)
    · rw [show (s.rollback i).identities.own i = [] from
        (s.identities.own_rollback i i).trans (if_pos rfl)]
      rfl
  refine ⟨hs.toTables.congr (Inserts.distinct_rollback hs.distinct) rfl rfl (head_rollback s i), ?_⟩
  refine stands_update hend fun j hj => ?_
  apply (hs.stands j).frame
  · intro c
    rw [draft_rollback, if_neg hj]
  · exact fun c _ => head_rollback s i c
  · exact (s.records.own_rollback i j).trans (if_neg hj)
  · exact (s.identities.own_rollback i j).trans (if_neg hj)

end Rollback

section InsertRows

variable {identity : AuditRecordIdentity} {row : AuditRecord}

theorem Sound.insertRows {p : Phase} (hs : s.Sound π)
    (hdistinct : (s.identities.push i identity).Distinct AuditRecordIdentity.Clash)
    (hp : (s.insertRows i identity row).Stands π i p) :
    ((s.insertRows i identity row).setPhase i p).Sound π := by
  have ht := hs.toTables.congr (t := s.insertRows i identity row) hdistinct rfl rfl fun _ => rfl
  apply ht.setPhase hp
  intro j hj
  apply (hs.stands j).frame
  · exact fun _ => rfl
  · exact fun _ _ => rfl
  · exact (s.records.own_push i j row).trans (if_neg hj)
  · exact (s.identities.own_push i j identity).trans (if_neg hj)

end InsertRows

section Commit

theorem head_commit (s : World) (i : ℕ) (c : String) :
    (s.commit i).head c = (s.head c).map fun head => (s.draft c i).getD head := by
  unfold head draft commit
  cases hc : s.heads c with
  | none => simp [hc]
  | some row => simp [hc, LockedRow.committed_commit]

theorem draft_commit (s : World) (i j : ℕ) (c : String) :
    (s.commit i).draft c j = if j = i then none else s.draft c j := by
  unfold draft commit
  cases hc : s.heads c with
  | none => simp [hc]
  | some row => simp [hc, LockedRow.draft_commit]

theorem draft_unique {c : String} (hi : (s.draft c i).isSome) (hj : (s.draft c j).isSome) :
    i = j := by
  unfold draft at hi hj
  cases hc : s.heads c with
  | none =>
    rw [hc] at hi
    cases hi
  | some row =>
    rw [hc, Option.bind_some] at hi hj
    by_contra hne
    rcases row.held_or_not i with ⟨v, hv⟩ | hnot
    · rw [LockedRow.draft_of_not_held (hv.not_held_of_ne (Ne.symm hne))] at hj
      cases hj
    · rw [LockedRow.draft_of_not_held hnot] at hi
      cases hi

variable {row : AuditRecord} {head : AuditChainHead} {nowUtc : Time}

theorem follows_of_precedes {rs : List AuditRecord} (hchained : HashChain.Chained chainView rs)
    (hpoints : head.PointsAt rs.getLast?) (h : head.Precedes π row) :
    HashChain.Follows chainView rs.getLast? row := by
  obtain ⟨-, hseq, hhash⟩ := hpoints
  have hrow : row.chainSeq = rs.getLast?.elim (-1) AuditRecord.chainSeq + 1 := by rw [h.seq, hseq]
  refine ⟨hrow, h.previous.trans ?_⟩
  cases hlast : rs.getLast? with
  | none =>
    rw [hlast] at hrow
    exact if_neg (by rw [hrow]; simp)
  | some p =>
    have hp : 0 ≤ p.chainSeq := hchained.last_nonneg (Option.mem_def.mpr hlast)
    rw [hlast, Option.elim_some] at hrow
    rw [if_pos (by omega), hhash, hlast]
    rfl

theorem Tables.commit (hs : s.Tables π) (howns : s.Owns i (only row.chainId (headAfter row nowUtc)) [row])
    (hhead : s.head row.chainId = some head) (hprecedes : head.Precedes π row) :
    (s.commit i).Tables π := by
  have hrecords : (s.commit i).records.committed = s.records.committed ++ [row] := by
    rw [← howns.records]
    rfl
  have hchain (c : String) : (s.commit i).chain c =
      if row.chainId = c then s.chain c ++ [row] else s.chain c := by
    rw [chain, hrecords, chainOf_append]
    rfl
  have hcommitted (c : String) : (s.commit i).head c =
      if row.chainId = c then some (headAfter row nowUtc) else s.head c := by
    rw [head_commit, howns.drafts, only]
    by_cases h : row.chainId = c
    · subst h
      rw [if_pos rfl, if_pos rfl, hhead]
      rfl
    · rw [if_neg (Ne.symm h), if_neg h]
      exact Option.map_id' ..
  have hnew {P : AuditRecord → Prop} (hold : ∀ r ∈ s.records.committed, P r) (hrow : P row) :
      ∀ r ∈ (s.commit i).records.committed, P r := by
    intro r hr
    rw [hrecords] at hr
    rcases List.mem_append.mp hr with hr | hr
    · exact hold r hr
    · exact List.mem_singleton.mp hr ▸ hrow
  refine ⟨?_, ?_, hnew hs.hashed hprecedes.hashed, hnew hs.rawHashed hprecedes.rawHashed,
    fun c => ?_, fun c hne => ?_, fun c h hc => ?_⟩
  · apply Inserts.distinct_commit _ hs.distinct
    rintro a b (h | h | ⟨h, h'⟩)
    · exact .inl h.symm
    · exact .inr (.inl h.symm)
    · exact .inr (.inr ⟨h.symm, h'.symm⟩)
  · have hidentities : (s.commit i).identities.committed =
        s.identities.committed ++ s.identities.own i := rfl
    rw [hrecords, hidentities, List.map_append, List.map_append, hs.paired, howns.identities]
  · rw [hchain]
    split
    next hc =>
      subst hc
      apply (hs.chained _).snoc
      exact follows_of_precedes (hs.chained _) (hs.pointed _ _ hhead) hprecedes
    next => exact hs.chained c
  · rw [hcommitted]
    rw [hchain] at hne
    split
    · rfl
    next hc => exact hs.headed c (by rwa [if_neg hc] at hne)
  · rw [hcommitted] at hc
    rw [hchain]
    split
    next hchainId =>
      rw [if_pos hchainId] at hc
      obtain rfl := Option.some.inj hc
      rw [List.getLast?_concat]
      exact ⟨rfl, rfl, rfl⟩
    next hchainId =>
      rw [if_neg hchainId] at hc
      exact hs.pointed c h hc

theorem Sound.commit (hs : s.Sound π) (hphase : s.phase i = .advanced row) :
    (s.commit i).Sound π := by
  have hi := hs.stands i
  rw [hphase] at hi
  obtain ⟨head, nowUtc, howns, hhead, hprecedes⟩ := hi
  have hend : (s.commit i).Owns i (fun _ => none) [] := by
    refine ⟨fun c => ?_, ?_, ?_⟩
    · rw [draft_commit, if_pos rfl]
    · exact (s.records.own_commit i i).trans (if_pos rfl)
    · rw [show (s.commit i).identities.own i = [] from
        (s.identities.own_commit i i).trans (if_pos rfl)]
      rfl
  refine ⟨hs.toTables.commit howns hhead hprecedes, ?_⟩
  refine stands_update hend fun j hj => ?_
  apply (hs.stands j).frame
  · intro c
    rw [draft_commit, if_neg hj]
  · intro c hc
    -- the head that the other writer holds is not the one that is committed
    have hother : s.draft c i = none := by
      apply Option.not_isSome_iff_eq_none.mp
      exact fun hheld => hj (draft_unique hc hheld)
    rw [head_commit, hother]
    exact Option.map_id' ..
  · exact (s.records.own_commit i j).trans (if_neg hj)
  · exact (s.identities.own_commit i j).trans (if_neg hj)

end Commit

section Steps

variable {logicalChainCount : ℕ}

theorem sound_handleMessage (hs : s.Sound π) (hphase : s.phase i = .idle) (rawDict : JsonObject) :
    (handleMessage π s i rawDict).Sound π := by
  have hidle := hs.stands i
  rw [hphase] at hidle
  unfold handleMessage
  split
  · exact hs
  · split
    · exact hs
    · split
      · exact hs
      · split
        · exact hs
        · exact hs.toTables.setPhase hidle fun j _ => hs.stands j

theorem sound_lockHead {m : Unseen} {answer : KeyAnswer} (hs : s.Sound π)
    (hphase : s.phase i = .unseen m) (h : lockHead π logicalChainCount s i m answer = some t) :
    t.Sound π := by
  have howns : s.Owns i (fun _ => none) [] := by
    have hi := hs.stands i
    rwa [hphase] at hi
  unfold lockHead at h
  split at h
  · exact Option.some.inj h ▸ hs.rollback i
  next c _ =>
    split at h
    · exact Option.some.inj h ▸ hs.rollback i
    next row hrow =>
      obtain ⟨row', hw, rfl⟩ := Option.map_eq_some_iff.mp h
      -- the writer held nothing, so what it reads under the lock is the committed head
      have hread : row.read i = row.committed := by
        have hdraft := howns.drafts c
        rw [draft, hrow, Option.bind_some] at hdraft
        rw [row.read_eq_draft, hdraft]
        rfl
      apply hs.setHead hrow hw
      refine ⟨⟨fun c' => ?_, howns.records, howns.identities⟩, ?_⟩
      · rw [draft_setHead hrow hw, howns.drafts, only]
        simp
      · rw [head_setHead hrow hw, head, hrow, hread]
        rfl

theorem sound_flush {m : Unseen} {answer : KeyAnswer} {c : String} {head : AuditChainHead}
    {row : AuditRecord} {nowUtc : Time} (hs : s.Sound π)
    (hphase : s.phase i = .locked m answer c head) (hc : row.chainId = c)
    (hprecedes : head.Precedes π row) (h : flush s i row nowUtc = some t) : t.Sound π := by
  have hi := hs.stands i
  rw [hphase] at hi
  obtain ⟨howns, hhead⟩ := hi
  subst hc
  unfold flush at h
  split at h
  · cases h
  · exact Option.some.inj h ▸ hs.rollback i
  next _ hinsert =>
    obtain rfl := Option.some.inj h
    obtain ⟨rfl, hdistinct⟩ := Inserts.distinct_push hs.distinct hinsert
    apply hs.insertRows hdistinct
    refine ⟨head, ⟨howns.drafts, ?_, ?_⟩, hhead, hprecedes⟩
    · refine ((s.records.own_push i i row).trans (if_pos rfl)).trans ?_
      rw [howns.records]
      rfl
    · have hown := (s.identities.own_push i i (identityRow row nowUtc)).trans (if_pos rfl)
      refine (congrArg (List.map AuditRecordIdentity.logId) hown).trans ?_
      rw [List.map_append, howns.identities]
      rfl

theorem sound_updateHead {row : AuditRecord} {nowUtc : Time} (hs : s.Sound π)
    (hphase : s.phase i = .flushed row nowUtc) (h : updateHead s i row nowUtc = some t) :
    t.Sound π := by
  have hi := hs.stands i
  rw [hphase] at hi
  obtain ⟨head, howns, hhead, hprecedes⟩ := hi
  unfold updateHead at h
  split at h
  · exact Option.some.inj h ▸ hs.rollback i
  next locked hlocked =>
    obtain ⟨locked', hw, rfl⟩ := Option.map_eq_some_iff.mp h
    apply hs.setHead hlocked hw
    refine ⟨head, nowUtc, ⟨fun c' => ?_, howns.records, howns.identities⟩, ?_, hprecedes⟩
    · rw [draft_setHead hlocked hw, howns.drafts, only, only]
      by_cases hc : c' = row.chainId <;> simp [hc]
    · rw [head_setHead hlocked hw]
      exact hhead

theorem sound_step {a : Act} (hs : s.Sound π) (h : step π logicalChainCount s a = some t) :
    t.Sound π := by
  cases a with
  | handleMessage i rawDict =>
    cases hphase : s.phase i with
    | idle =>
      simp only [step, hphase] at h
      exact Option.some.inj h ▸ sound_handleMessage hs hphase rawDict
    | _ => simp [step, hphase] at h
  | lockHead i answer =>
    cases hphase : s.phase i with
    | unseen m =>
      simp only [step, hphase] at h
      exact sound_lockHead hs hphase h
    | _ => simp [step, hphase] at h
  | flush i auditId committedAt nowUtc =>
    cases hphase : s.phase i with
    | locked m answer c head =>
      simp only [step, hphase] at h
      split at h
      · exact Option.some.inj h ▸ hs.rollback i
      next row hrow =>
        obtain ⟨hc, hprecedes⟩ := auditRow_eq_some π hrow
        exact sound_flush hs hphase hc hprecedes h
    | _ => simp [step, hphase] at h
  | updateHead i =>
    cases hphase : s.phase i with
    | flushed row nowUtc =>
      simp only [step, hphase] at h
      exact sound_updateHead hs hphase h
    | _ => simp [step, hphase] at h
  | commit i =>
    cases hphase : s.phase i with
    | advanced row =>
      simp only [step, hphase] at h
      exact Option.some.inj h ▸ hs.commit hphase
    | _ => simp [step, hphase] at h
  | fail i =>
    cases hphase : s.phase i with
    | idle => simp [step, hphase] at h
    | _ =>
      simp only [step, hphase] at h
      exact Option.some.inj h ▸ hs.rollback i

theorem sound_migrated (now : Time) : (migrated logicalChainCount now).Sound π := by
  have hheads (c : String) : (migrated logicalChainCount now).heads c = none ∨
      (migrated logicalChainCount now).heads c = some (.clean
        { lastAuditId := none, lastChainSeq := -1, lastCurrentHash := none, updatedAt := now }) := by
    by_cases hc : c ∈ (List.range logicalChainCount).map (chainName logicalChainCount)
    · exact .inr (if_pos hc)
    · exact .inl (if_neg hc)
  refine ⟨⟨List.Pairwise.nil, rfl, fun r hr => ?_, fun r hr => ?_, fun c => .nil,
    fun c hne => absurd rfl hne, fun c head hc => ?_⟩, fun i => ⟨fun c => ?_, rfl, rfl⟩⟩
  · cases hr
  · cases hr
  · rw [World.head] at hc
    rcases hheads c with h | h
    · rw [h] at hc
      cases hc
    · rw [h] at hc
      obtain rfl := Option.some.inj hc
      exact ⟨rfl, rfl, rfl⟩
  · rw [World.draft]
    rcases hheads c with h | h
    · rw [h]
      rfl
    · rw [h]
      rfl

end Steps

end World

section Runs

variable {π : Platform} {initialCount logicalChainCount : ℕ} {now : Time} {acts : List Act}
  {t : World}

theorem sound_run
    (h : (writers π logicalChainCount).exec (.migrated initialCount now) acts = some t) :
    t.Sound π :=
  (writers π logicalChainCount).exec_induction (fun _ _ _ hs => World.sound_step hs)
    (World.sound_migrated now) h

theorem audit_chains_intact
    (h : (writers π logicalChainCount).exec (.migrated initialCount now) acts = some t) :
    t.Intact π := (sound_run h).toTables.intact

end Runs

namespace Sample

def platform : Platform where
  canonicalize
    | .obj members => some (members.map fun m => UInt8.ofNat m.1.length)
    | _ => none
  sha256 data := data.take 2
  b64encode data := data.map fun b => Char.ofNat b.toNat
  encode text := text.toList.map fun c => UInt8.ofNat c.toNat
  fromIsoFormat _ := some 0
  uuid text := some (BitVec.ofNat 128 text.length)

def message (logId : String) : JsonObject :=
  [("schema_version", .str "1"), ("timestamp", .str "t"), ("aic", .str "A"),
    ("log_type", .str "audit"), ("log_id", .str logId)]

def writes (i : ℕ) (auditId : Uuid) : List Act :=
  [.lockHead i .notFound, .flush i auditId 0 0, .updateHead i, .commit i]

def redelivery : List Act :=
  [.handleMessage 0 (message "m"), .handleMessage 1 (message "m")] ++ writes 0 7 ++
    [.lockHead 1 .notFound, .flush 1 8 0 0, .handleMessage 1 (message "n")] ++ writes 1 9

end Sample

theorem redelivered_chain_intact :
    ∃ t, (writers Sample.platform 2).exec (.migrated 2 0) Sample.redelivery = some t ∧
      t.records.committed.map AuditRecord.auditId = [7, 9] ∧ t.Intact Sample.platform := by
  have hends : ((writers Sample.platform 2).exec (.migrated 2 0) Sample.redelivery).any
      (fun t => t.records.committed.map AuditRecord.auditId = [7, 9]) = true := by decide +kernel
  obtain ⟨t, hexec, hrecords⟩ := Option.any_eq_true .. |>.mp hends
  exact ⟨t, hexec, of_decide_eq_true hrecords, audit_chains_intact hexec⟩

end Acps.Audit
