import Acps.Lib.Transition
import Acps.Registry.Feed

/-!
Transactions that take their seqs before they commit, under read committed isolation, and the
calls of readers of the feed. A call makes two queries, and each sees what is committed by then.
-/

namespace Acps.Registry.ReadCommitted

open Dsp Paging

structure Request where
  seq : Option ℤ
  limit : ℤ
  types : Option (List String)
  deriving DecidableEq

namespace Request

def cursor (r : Request) : ℤ := r.seq.getD 0

def selects (r : Request) (c : ChangeLog) : Bool :=
  r.seq.all (· < c.seq) ∧ matchesTypes r.types c

end Request

structure Call where
  request : Request
  visible : List ChangeLog
  page : List Envelope
  nextSeq : ℤ

structure World where
  globalSeq : ℤ
  committed : List ChangeLog
  reserved : ℕ → List ℤ
  inserted : ℕ → List ChangeLog
  checked : List Request
  calls : List Call

def World.empty : World := ⟨0, [], fun _ => [], fun _ => [], [], []⟩

inductive Act where
  | nextval (w : ℕ)
  | create (w : ℕ) (now : Timestamp) (dataType objectId : String) (version : ℤ)
      (payload : Option Payload) (op : OperationType) (seq : ℤ)
  | commit (w : ℕ)
  | rollback (w : ℕ)
  | check (r : Request)
  | page (r : Request)

def World.session (s : World) (w : ℕ) : LogState := ⟨s.globalSeq, s.inserted w, []⟩

def World.close (s : World) (w : ℕ) : World :=
  { s with
    reserved := Function.update s.reserved w [], inserted := Function.update s.inserted w [] }

variable (loads : String → Option Json)

def step (s : World) : Act → Option World
  | .nextval w =>
    let (q, st) := generateNextSeq (s.session w)
    some { s with
      globalSeq := st.globalSeq, reserved := Function.update s.reserved w (s.reserved w ++ [q]) }
  | .create w now dataType objectId version payload op seq =>
    -- the seq is the primary key
    if seq ∈ s.reserved w ∧ ∀ c ∈ s.inserted w, c.seq ≠ seq then
      let st := (createChangeLog (s.session w) now dataType objectId version payload op
        (some seq)).2
      some { s with inserted := Function.update s.inserted w st.changeLog }
    else none
  | .commit w => some ({ s with committed := s.committed ++ s.inserted w }.close w)
  | .rollback w => some (s.close w)
  | .check r =>
    if (r.seq.bind (isTooOld s.committed)).isSome then some s
    else some { s with checked := r :: s.checked }
  | .page r =>
    if r ∈ s.checked then
      match changesPage loads s.committed r.seq r.limit r.types with
      | .ok (page, nextSeq) => some { s with
          checked := s.checked.erase r, calls := s.calls ++ [⟨r, s.committed, page, nextSeq⟩] }
      | .error _ => some { s with checked := s.checked.erase r }
    else none

def system : Transition.System World Act := ⟨step loads⟩

/-- The second query of a call finds no open transaction whose seq the call would pass: not with
its cursor, and not with a row that is committed already and fits on its page. -/
def PassesNone (s : World) : Act → Prop
  | .page r => r.cursor ≤ s.globalSeq ∧ ∀ w, ∀ q ∈ s.reserved w, r.cursor < q ∧
      ∀ c ∈ s.committed, r.selects c → (∃ e, Decodes loads c e) → q < c.seq →
        r.limit.toNat ≤ (s.committed.filter fun d => r.selects d ∧ d.seq < c.seq).length
  | _ => True

structure World.Sound (s : World) : Prop where
  nonneg : 0 ≤ s.globalSeq
  committed : ∀ c ∈ s.committed, 0 < c.seq ∧ c.seq ≤ s.globalSeq
  nodup : (s.committed.map ChangeLog.seq).Nodup
  reserved : ∀ w, ∀ q ∈ s.reserved w, 0 < q ∧ q ≤ s.globalSeq ∧ ∀ c ∈ s.committed, c.seq ≠ q
  disjoint : ∀ v w q, q ∈ s.reserved v → q ∈ s.reserved w → v = w
  inserted : ∀ w, ∀ c ∈ s.inserted w, c.seq ∈ s.reserved w
  insertedNodup : ∀ w, ((s.inserted w).map ChangeLog.seq).Nodup

structure World.Ahead (s : World) (k : Call) : Prop where
  le : k.nextSeq ≤ s.globalSeq
  committed : ∀ c ∈ s.committed, c.seq ≤ k.nextSeq → c ∈ k.visible
  reserved : ∀ w, ∀ q ∈ s.reserved w, k.nextSeq < q

def Call.Complete (k : Call) : Prop :=
  ∀ c ∈ k.visible, k.request.cursor < c.seq → c.seq ≤ k.nextSeq →
    matchesTypes k.request.types c → ∀ e, Decodes loads c e → e ∈ k.page

theorem World.sound_empty : World.empty.Sound where
  nonneg := le_rfl
  committed := by simp [World.empty]
  nodup := List.nodup_nil
  reserved := by simp [World.empty]
  disjoint := by simp [World.empty]
  inserted := by simp [World.empty]
  insertedNodup := by simp [World.empty]

variable {loads} {s t : World}

theorem World.mem_close_reserved {w v : ℕ} {q : ℤ} :
    q ∈ (s.close w).reserved v ↔ v ≠ w ∧ q ∈ s.reserved v := by
  by_cases h : v = w
  · subst h; simp [World.close]
  · simp [World.close, h]

theorem World.mem_close_inserted {w v : ℕ} {c : ChangeLog} :
    c ∈ (s.close w).inserted v ↔ v ≠ w ∧ c ∈ s.inserted v := by
  by_cases h : v = w
  · subst h; simp [World.close]
  · simp [World.close, h]

theorem World.Sound.close (h : s.Sound) (w : ℕ) : (s.close w).Sound where
  nonneg := h.nonneg
  committed := h.committed
  nodup := h.nodup
  reserved v q hq := h.reserved v q (mem_close_reserved.mp hq).2
  disjoint v u q hv hu := h.disjoint v u q (mem_close_reserved.mp hv).2 (mem_close_reserved.mp hu).2
  inserted v c hc := by
    rw [mem_close_inserted] at hc
    exact mem_close_reserved.mpr ⟨hc.1, h.inserted v c hc.2⟩
  insertedNodup v := by
    by_cases hv : v = w
    · subst hv; simp [World.close]
    · simpa [World.close, hv] using h.insertedNodup v

theorem World.Sound.commit (h : s.Sound) (w : ℕ) :
    ({ s with committed := s.committed ++ s.inserted w }.close w).Sound where
  nonneg := h.nonneg
  committed c hc := by
    rcases List.mem_append.mp hc with hc | hc
    · exact h.committed c hc
    · have := h.reserved w _ (h.inserted w c hc)
      exact ⟨this.1, this.2.1⟩
  nodup := by
    change ((s.committed ++ s.inserted w).map ChangeLog.seq).Nodup
    rw [List.map_append]
    refine h.nodup.append (h.insertedNodup w) ?_
    intro q hq hqw
    obtain ⟨c, hc, rfl⟩ := List.mem_map.mp hq
    obtain ⟨d, hd, hdc⟩ := List.mem_map.mp hqw
    exact (h.reserved w _ (h.inserted w d hd)).2.2 c hc hdc.symm
  reserved v q hq := by
    rw [mem_close_reserved] at hq
    have hv := h.reserved v q hq.2
    refine ⟨hv.1, hv.2.1, fun c hc => ?_⟩
    rcases List.mem_append.mp hc with hc | hc
    · exact hv.2.2 c hc
    · rintro rfl
      exact hq.1 (h.disjoint v w _ hq.2 (h.inserted w c hc))
  disjoint := (h.close w).disjoint
  inserted := (h.close w).inserted
  insertedNodup := (h.close w).insertedNodup

theorem World.Sound.nextval (h : s.Sound) (w : ℕ) :
    World.Sound { s with
      globalSeq := s.globalSeq + 1,
      reserved := Function.update s.reserved w (s.reserved w ++ [s.globalSeq + 1]) } := by
  have hmem {v : ℕ} {q : ℤ}
      (hq : q ∈ Function.update s.reserved w (s.reserved w ++ [s.globalSeq + 1]) v) :
      q ∈ s.reserved v ∨ v = w ∧ q = s.globalSeq + 1 := by
    by_cases hv : v = w
    · subst hv
      simpa using hq
    · rw [Function.update_of_ne hv] at hq
      exact .inl hq
  have hle (v : ℕ) (q : ℤ) (hq : q ∈ s.reserved v) : q ≠ s.globalSeq + 1 := by
    have := (h.reserved v q hq).2.1
    omega
  have hnonneg := h.nonneg
  refine ⟨by dsimp only; omega, ?_, h.nodup, ?_, ?_, ?_, h.insertedNodup⟩
  · intro c hc
    have := h.committed c hc
    exact ⟨this.1, this.2.trans (Int.le_add_one le_rfl)⟩
  · intro v q hq
    rcases hmem hq with hq | ⟨_, rfl⟩
    · have := h.reserved v q hq
      exact ⟨this.1, this.2.1.trans (Int.le_add_one le_rfl), this.2.2⟩
    · refine ⟨by omega, le_rfl, fun c hc => ?_⟩
      have := (h.committed c hc).2
      omega
  · intro v u q hv hu
    rcases hmem hv with hold | ⟨hvw, hq⟩ <;> rcases hmem hu with hold' | ⟨huw, hq'⟩
    · exact h.disjoint v u q hold hold'
    · exact absurd hq' (hle v q hold)
    · exact absurd hq (hle u q hold')
    · rw [hvw, huw]
  · intro v c hc
    have := h.inserted v c hc
    dsimp only
    by_cases hv : v = w
    · subst hv
      simp [this]
    · rwa [Function.update_of_ne hv]

theorem World.Sound.create (h : s.Sound) {w : ℕ} {c : ChangeLog} (hq : c.seq ∈ s.reserved w)
    (hnew : ∀ d ∈ s.inserted w, d.seq ≠ c.seq) :
    World.Sound { s with inserted := Function.update s.inserted w (s.inserted w ++ [c]) } where
  nonneg := h.nonneg
  committed := h.committed
  nodup := h.nodup
  reserved := h.reserved
  disjoint := h.disjoint
  inserted v d hd := by
    dsimp only at hd ⊢
    by_cases hv : v = w
    · subst hv
      rw [Function.update_self, List.mem_append, List.mem_singleton] at hd
      rcases hd with hd | rfl
      · exact h.inserted v d hd
      · exact hq
    · rw [Function.update_of_ne hv] at hd
      exact h.inserted v d hd
  insertedNodup v := by
    dsimp only
    by_cases hv : v = w
    · subst hv
      rw [Function.update_self, List.map_append]
      refine (h.insertedNodup v).append (List.nodup_singleton _) ?_
      intro q hq hqc
      obtain ⟨d, hd, rfl⟩ := List.mem_map.mp hq
      exact hnew d hd (List.mem_singleton.mp hqc)
    · rw [Function.update_of_ne hv]
      exact h.insertedNodup v

theorem World.Sound.step {a : Act} (h : s.Sound) (ht : step loads s a = some t) : t.Sound := by
  cases a with
  | nextval w => exact Option.some.inj ht ▸ h.nextval w
  | create w now dataType objectId version payload op seq =>
    simp only [ReadCommitted.step] at ht
    split at ht
    · next hok => exact Option.some.inj ht ▸ h.create (c := ⟨seq, _, _, _, _, _, _⟩) hok.1 hok.2
    · simp at ht
  | commit w => exact Option.some.inj ht ▸ h.commit w
  | rollback w => exact Option.some.inj ht ▸ h.close w
  | check r =>
    simp only [ReadCommitted.step] at ht
    split at ht <;> obtain rfl := Option.some.inj ht
    · exact h
    · exact ⟨h.nonneg, h.committed, h.nodup, h.reserved, h.disjoint, h.inserted, h.insertedNodup⟩
  | page r =>
    simp only [ReadCommitted.step] at ht
    split at ht
    · split at ht <;> obtain rfl := Option.some.inj ht <;>
        exact ⟨h.nonneg, h.committed, h.nodup, h.reserved, h.disjoint, h.inserted, h.insertedNodup⟩
    · simp at ht

theorem changesPage_eq_ok {table : List ChangeLog} {r : Request} {page : List Envelope}
    {nextSeq : ℤ} (h : changesPage loads table r.seq r.limit r.types = .ok (page, nextSeq)) :
    buildChangesResult loads ((orderBy ChangeLog.seq (table.filter r.selects)).take r.limit.toNat)
      r.cursor = .ok (page, nextSeq) := by
  unfold changesPage at h
  split at h
  · simp at h
  · exact h

theorem World.Sound.page (h : s.Sound) {r : Request} (hpass : PassesNone loads s (.page r))
    {page : List Envelope} {nextSeq : ℤ}
    (hok : changesPage loads s.committed r.seq r.limit r.types = .ok (page, nextSeq)) :
    s.Ahead ⟨r, s.committed, page, nextSeq⟩ ∧
      Call.Complete loads ⟨r, s.committed, page, nextSeq⟩ := by
  set rows := orderBy ChangeLog.seq (s.committed.filter r.selects) with hrows
  have hmem {c : ChangeLog} : c ∈ rows ↔ c ∈ s.committed ∧ r.selects c := by
    rw [hrows, mem_orderBy, List.mem_filter]
  have hasc : Ascending ChangeLog.seq rows :=
    ascending_orderBy (h.nodup.sublist (List.filter_sublist.map _))
  have hbuild := changesPage_eq_ok hok
  rw [← hrows] at hbuild
  have hnext := buildChangesResult_nextSeq hbuild
  have hlater : ∀ w, ∀ q ∈ s.reserved w, nextSeq < q := by
    intro w q hq
    obtain ⟨hcursor, hrow⟩ := hpass.2 w q hq
    rcases hnext with rfl | ⟨c, hc, hdec, rfl⟩
    · exact hcursor
    · by_contra hle
      obtain ⟨hcs, hsel⟩ := hmem.mp (List.mem_of_mem_take hc)
      have hne := (h.reserved w q hq).2.2 c hcs
      have hcount := hrow c hcs hsel hdec (by omega)
      have hlen : (s.committed.filter fun d => r.selects d ∧ d.seq < c.seq).length =
          (rows.filter fun d => d.seq < c.seq).length := by
        rw [hrows, ((orderBy_perm _).filter _).length_eq, List.filter_filter]
        congr 2
        funext d
        simp [Bool.and_comm]
      have := length_before_lt hasc hc
      omega
  refine ⟨⟨?_, fun c hc _ => hc, hlater⟩, ?_⟩
  · rcases hnext with rfl | ⟨c, hc, _, rfl⟩
    · exact hpass.1
    · exact (h.committed c (hmem.mp (List.mem_of_mem_take hc)).1).2
  · intro c hc hlt hle htypes e he
    have hrow : c ∈ rows := by
      refine hmem.mpr ⟨hc, ?_⟩
      cases hseq : r.seq <;> simp_all [Request.selects, Request.cursor]
    by_cases htake : c ∈ rows.take r.limit.toNat
    · exact mem_buildChangesResult hbuild htake he
    · rcases hnext with rfl | ⟨d, hd, _, rfl⟩
      · exact absurd hlt hle.not_gt
      · exact absurd hle (lt_of_not_mem_take hasc hrow htake hd).not_ge

theorem World.Ahead.step {k : Call} {a : Act} (hs : s.Sound) (h : s.Ahead k)
    (ht : step loads s a = some t) : t.Ahead k := by
  cases a with
  | nextval w =>
    obtain rfl := Option.some.inj ht
    refine ⟨h.le.trans (Int.le_add_one le_rfl), h.committed, fun v q hq => ?_⟩
    dsimp only at hq
    by_cases hv : v = w
    · subst hv
      rw [Function.update_self, List.mem_append, List.mem_singleton] at hq
      rcases hq with hq | rfl
      · exact h.reserved v q hq
      · exact Int.lt_add_one_of_le h.le
    · rw [Function.update_of_ne hv] at hq
      exact h.reserved v q hq
  | create w now dataType objectId version payload op seq =>
    simp only [ReadCommitted.step] at ht
    split at ht
    · exact Option.some.inj ht ▸ ⟨h.le, h.committed, h.reserved⟩
    · simp at ht
  | commit w =>
    obtain rfl := Option.some.inj ht
    refine ⟨h.le, fun c hc hle => ?_, fun v q hq =>
      h.reserved v q (World.mem_close_reserved.mp hq).2⟩
    rcases List.mem_append.mp hc with hc | hc
    · exact h.committed c hc hle
    · exact absurd hle (h.reserved w _ (hs.inserted w c hc)).not_ge
  | rollback w =>
    obtain rfl := Option.some.inj ht
    exact ⟨h.le, h.committed, fun v q hq => h.reserved v q (World.mem_close_reserved.mp hq).2⟩
  | check r =>
    simp only [ReadCommitted.step] at ht
    split at ht <;> exact Option.some.inj ht ▸ ⟨h.le, h.committed, h.reserved⟩
  | page r =>
    simp only [ReadCommitted.step] at ht
    split at ht
    · split at ht <;> exact Option.some.inj ht ▸ ⟨h.le, h.committed, h.reserved⟩
    · simp at ht

theorem mem_calls_step {a : Act} {k : Call} (ht : step loads s a = some t) (hk : k ∈ t.calls) :
    k ∈ s.calls ∨ ∃ r page nextSeq, a = .page r ∧ k = ⟨r, s.committed, page, nextSeq⟩ ∧
      changesPage loads s.committed r.seq r.limit r.types = .ok (page, nextSeq) := by
  cases a with
  | nextval w => obtain rfl := Option.some.inj ht; exact .inl hk
  | create w now dataType objectId version payload op seq =>
    simp only [ReadCommitted.step] at ht
    split at ht
    · obtain rfl := Option.some.inj ht; exact .inl hk
    · simp at ht
  | commit w => obtain rfl := Option.some.inj ht; exact .inl hk
  | rollback w => obtain rfl := Option.some.inj ht; exact .inl hk
  | check r =>
    simp only [ReadCommitted.step] at ht
    split at ht <;> obtain rfl := Option.some.inj ht <;> exact .inl hk
  | page r =>
    simp only [ReadCommitted.step] at ht
    split at ht
    · split at ht <;> obtain rfl := Option.some.inj ht
      · next page nextSeq hok =>
        rcases List.mem_append.mp hk with hk | hk
        · exact .inl hk
        · exact .inr ⟨r, page, nextSeq, rfl, List.mem_singleton.mp hk, hok⟩
      · exact .inl hk
    · simp at ht

variable (loads) in
structure World.Inv (s : World) : Prop where
  sound : s.Sound
  ahead : ∀ k ∈ s.calls, s.Ahead k
  complete : ∀ k ∈ s.calls, k.Complete loads

theorem World.Inv.step {a : Act} (h : s.Inv loads) (hC : PassesNone loads s a)
    (ht : step loads s a = some t) : t.Inv loads := by
  have hkeep : ∀ k, s.Ahead k → t.Ahead k := fun k hk => hk.step h.sound ht
  refine ⟨h.sound.step ht, fun k hk => ?_, fun k hk => ?_⟩
  · rcases mem_calls_step ht hk with hk | ⟨r, page, nextSeq, rfl, rfl, hok⟩
    · exact hkeep k (h.ahead k hk)
    · exact hkeep _ (h.sound.page hC hok).1
  · rcases mem_calls_step ht hk with hk | ⟨r, page, nextSeq, rfl, rfl, hok⟩
    · exact h.complete k hk
    · exact (h.sound.page hC hok).2

theorem World.inv_empty : World.empty.Inv loads :=
  ⟨sound_empty, by simp [World.empty], by simp [World.empty]⟩

def Chained (types : Option (List String)) : ℤ → List Call → Prop
  | _, [] => True
  | n, k :: ks => k.request.cursor = n ∧ k.request.types = types ∧ Chained types k.nextSeq ks

def lastCursor (n : ℤ) (ks : List Call) : ℤ := ks.foldl (fun _ k => k.nextSeq) n

theorem World.Inv.chained (h : s.Inv loads) {types : Option (List String)} {n : ℤ}
    {ks : List Call} (hks : ∀ k ∈ ks, k ∈ s.calls) (hchain : Chained types n ks) {c : ChangeLog}
    (hc : c ∈ s.committed) (hlt : n < c.seq) (hle : c.seq ≤ lastCursor n ks)
    (htypes : matchesTypes types c) {e : Envelope} (he : Decodes loads c e) :
    ∃ k ∈ ks, e ∈ k.page := by
  induction ks generalizing n with
  | nil => exact absurd hlt hle.not_gt
  | cons k ks ih =>
    obtain ⟨hcursor, hktypes, hrest⟩ := hchain
    have hk := hks k (by simp)
    by_cases hseen : c.seq ≤ k.nextSeq
    · refine ⟨k, by simp, ?_⟩
      exact h.complete k hk c ((h.ahead k hk).committed c hc hseen) (hcursor ▸ hlt) hseen
        (hktypes ▸ htypes) e he
    · obtain ⟨k', hk', hpage⟩ := ih (fun k' hk' => hks k' (List.mem_cons_of_mem _ hk')) hrest
        (not_le.mp hseen) hle
      exact ⟨k', List.mem_cons_of_mem _ hk', hpage⟩

/-- What is committed up to the seq of a call was visible to it, and a reader that goes on from
the seqs it is given has been handed every committed entry between the first and the last. -/
def NothingBehind (loads : String → Option Json) (s : World) : Prop :=
  (∀ k ∈ s.calls, ∀ c ∈ s.committed, c.seq ≤ k.nextSeq → c ∈ k.visible) ∧
    ∀ types n ks, (∀ k ∈ ks, k ∈ s.calls) → Chained types n ks → ∀ c ∈ s.committed,
      n < c.seq → c.seq ≤ lastCursor n ks → matchesTypes types c → ∀ e, Decodes loads c e →
        ∃ k ∈ ks, e ∈ k.page

theorem changes_nothing_behind {as : List Act} (hrun : (system loads).exec .empty as = some s)
    (hpass : (system loads).Meets (PassesNone loads) .empty as) : NothingBehind loads s := by
  have h : s.Inv loads := (system loads).exec_invariant
    (fun _ _ _ hs hC ht => World.Inv.step hs hC ht) World.inv_empty hpass hrun
  refine ⟨fun k hk => (h.ahead k hk).committed, ?_⟩
  intro types n ks hks hchain c hc hlt hle htypes e he
  exact h.chained hks hchain hc hlt hle htypes he

def pageBeforeLateCommit : List Act :=
  [.nextval 0, .nextval 1, .create 0 0 "acs" "A" 1 none .upsert 1, .commit 0,
    .check ⟨none, 1, none⟩, .page ⟨none, 1, none⟩, .create 1 0 "acs" "B" 1 none .upsert 2, .commit 1]

theorem changes_nothing_behind_two_writers :
    ∃ s, (system fun _ => none).exec .empty pageBeforeLateCommit = some s ∧
      NothingBehind (fun _ => none) s := by
  obtain ⟨s, hs⟩ : ∃ s, (system fun _ => none).exec .empty pageBeforeLateCommit = some s := ⟨_, rfl⟩
  refine ⟨s, hs, changes_nothing_behind hs ?_⟩
  refine Transition.System.meets_cons _ trivial rfl ?_
  refine Transition.System.meets_cons _ trivial rfl ?_
  refine Transition.System.meets_cons _ trivial rfl ?_
  refine Transition.System.meets_cons _ trivial rfl ?_
  refine Transition.System.meets_cons _ trivial rfl ?_
  refine Transition.System.meets_cons _ ⟨by decide, ?_⟩ rfl
    (Transition.System.meets_cons _ trivial rfl
      (Transition.System.meets_cons _ trivial rfl trivial))
  intro w q hq
  by_cases h0 : w = 0
  · subst h0
    exact absurd hq List.not_mem_nil
  · by_cases h1 : w = 1
    · subst h1
      obtain rfl : q = 2 := List.mem_singleton.mp hq
      refine ⟨by decide, fun c hc _ _ hlt => ?_⟩
      obtain rfl := List.mem_singleton.mp hc
      exact absurd hlt (by decide)
    · rw [World.mem_close_reserved] at hq
      simp [World.empty, h0, h1] at hq

theorem late_commit_behind_cursor :
    ∃ s, (system fun _ => none).exec .empty
        [.nextval 2, .create 2 0 "acs" "A" 1 none .upsert 1, .commit 2, .nextval 0, .nextval 1,
          .create 1 0 "acs" "C" 1 none .upsert 3, .commit 1,
          .check ⟨some 1, 10, none⟩, .page ⟨some 1, 10, none⟩,
          .create 0 0 "acs" "B" 1 none .upsert 2, .commit 0] = some s ∧
      ¬ NothingBehind (fun _ => none) s := by
  refine ⟨_, rfl, ?_⟩
  rintro ⟨hvisible, _⟩
  have := hvisible _ (List.mem_singleton.mpr rfl) ⟨2, 0, "acs", .upsert, "B", 1, none⟩ (by decide)
    (by decide)
  exact absurd this (by decide)

end Acps.Registry.ReadCommitted
