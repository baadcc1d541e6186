import Acps.Registry.ChangeLog

/-!
Catching up through the incremental feed: a client asks again from the seq it was given
until a page is empty.
-/

namespace Acps.Registry

open Dsp Paging

structure ChangesLimits where
  maxLimit : ℤ
  defaultLimit : ℤ
  maxLimit_pos : 0 < maxLimit
  defaultLimit_pos : 0 < defaultLimit

def normalizeChangesLimit (limits : ChangesLimits) (limit : ℤ) : ℤ :=
  if limit > limits.maxLimit then limits.maxLimit
  else if limit ≤ 0 then limits.defaultLimit
  else limit

theorem normalizeChangesLimit_pos (limits : ChangesLimits) (limit : ℤ) :
    0 < normalizeChangesLimit limits limit := by
  unfold normalizeChangesLimit
  split
  · exact limits.maxLimit_pos
  · split
    · exact limits.defaultLimit_pos
    · omega

variable (loads : String → Option Json)

def drainChanges (table : List ChangeLog) (limit : ℤ) (types : Option (List String)) :
    ℕ → ℤ → Option (Except Failure (List Envelope))
  | 0, _ => none
  | fuel + 1, seq =>
    match getChanges loads table (some seq) limit types with
    | .error e => some (.error e)
    | .ok ([], _) => some (.ok [])
    | .ok (e :: es, nextSeq) =>
      (drainChanges table limit types fuel nextSeq).map (fun rest => rest.map (e :: es ++ ·))

def wanted (seq : ℤ) (types : Option (List String)) (c : ChangeLog) : Bool :=
  seq < c.seq ∧ matchesTypes types c

def Decodes (c : ChangeLog) (e : Envelope) : Prop := buildEnvelope loads c = .ok (some e)

def FeedComplete (st : LogState) (limit : ℤ) (types : Option (List String)) (seq : ℤ) : Prop :=
  isGone (getChanges loads st.changeLog (some seq) limit types) ∨
    ∃ fuel es, drainChanges loads st.changeLog limit types fuel seq = some (.ok es) ∧
      List.Forall₂ (Decodes loads) (st.everAppended.filter (wanted seq types)) es ∧
      Ascending Envelope.seq es

/-- The cursor lies before everything the log still holds, or nothing beyond it was purged and
every row beyond it still decodes. -/
def WindowCovers (st : LogState) (types : Option (List String)) (seq : ℤ) : Prop :=
  (st.changeLog ≠ [] ∧ ∀ c ∈ st.changeLog, seq < c.seq) ∨
    ∀ c ∈ st.everAppended, wanted seq types c → c ∈ st.changeLog ∧ ∃ e, Decodes loads c e

variable {loads}

theorem oldestSeq_eq_none {table : List ChangeLog} : oldestSeq table = none ↔ table = [] := by
  simp [oldestSeq]

theorem isTooOld_isSome_iff {table : List ChangeLog} (hpos : ∀ c ∈ table, 0 < c.seq) (seq : ℤ) :
    (isTooOld table seq).isSome ↔ table ≠ [] ∧ ∀ c ∈ table, seq < c.seq := by
  unfold isTooOld
  cases hmin : oldestSeq table with
  | none => simp [oldestSeq_eq_none.mp hmin]
  | some m =>
    obtain ⟨hmem, hle⟩ := List.min?_eq_some_iff.mp hmin
    obtain ⟨c, hc, rfl⟩ := List.mem_map.mp hmem
    have hne : table ≠ [] := List.ne_nil_of_mem hc
    have h0 : c.seq ≠ 0 := (hpos c hc).ne'
    simp only [List.mem_map, forall_exists_index, and_imp, forall_apply_eq_imp_iff₂] at hle
    simp only [Option.isSome_filter, Option.any_some, decide_eq_true_eq, ne_eq, h0, hne,
      not_false_eq_true, true_and]
    exact ⟨fun hlt d hd => hlt.trans_le (hle d hd), fun h => h c hc⟩

theorem buildChangesResult_cons (c : ChangeLog) (cs : List ChangeLog) (seq : ℤ) :
    buildChangesResult loads (c :: cs) seq =
      match buildEnvelope loads c with
      | .error f => .error f
      | .ok none => buildChangesResult loads cs seq
      | .ok (some e) => (buildChangesResult loads cs e.seq).map (fun r => (e :: r.1, r.2)) := by
  rw [buildChangesResult]
  rcases buildEnvelope loads c with f | _ | e
  · rfl
  · rfl
  · cases h : buildChangesResult loads cs e.seq <;> simp [h, bind, Except.bind, Except.map, pure,
      Except.pure]

theorem buildChangesResult_cons_ok {c : ChangeLog} {cs : List ChangeLog} {seq nextSeq : ℤ}
    {es : List Envelope} (h : buildChangesResult loads (c :: cs) seq = .ok (es, nextSeq)) :
    (buildEnvelope loads c = .ok none ∧ buildChangesResult loads cs seq = .ok (es, nextSeq)) ∨
      ∃ e rest, Decodes loads c e ∧ es = e :: rest ∧
        buildChangesResult loads cs e.seq = .ok (rest, nextSeq) := by
  rw [buildChangesResult_cons] at h
  split at h
  · simp at h
  · next hc => exact .inl ⟨hc, h⟩
  · next e hc =>
    cases hcs : buildChangesResult loads cs e.seq with
    | error f => simp [hcs, Except.map] at h
    | ok r =>
      obtain ⟨rfl, rfl⟩ : e :: r.1 = es ∧ r.2 = nextSeq := by simpa [hcs, Except.map] using h
      exact .inr ⟨e, r.1, hc, rfl, hcs⟩

theorem buildChangesResult_sound {cs : List ChangeLog} {seq nextSeq : ℤ} {es : List Envelope}
    (h : buildChangesResult loads cs seq = .ok (es, nextSeq)) {e : Envelope} (he : e ∈ es) :
    ∃ c ∈ cs, Decodes loads c e := by
  induction cs generalizing seq es with
  | nil =>
    obtain ⟨rfl, -⟩ : [] = es ∧ seq = nextSeq := by simpa [buildChangesResult] using h
    simp at he
  | cons c cs ih =>
    rcases buildChangesResult_cons_ok h with ⟨-, hcs⟩ | ⟨d, rest, hd, rfl, hcs⟩
    · obtain ⟨b, hb, hbe⟩ := ih hcs he
      exact ⟨b, List.mem_cons_of_mem _ hb, hbe⟩
    · rcases List.mem_cons.mp he with rfl | he
      · exact ⟨c, by simp, hd⟩
      · obtain ⟨b, hb, hbe⟩ := ih hcs he
        exact ⟨b, List.mem_cons_of_mem _ hb, hbe⟩

theorem buildChangesResult_nextSeq {cs : List ChangeLog} {seq nextSeq : ℤ} {es : List Envelope}
    (h : buildChangesResult loads cs seq = .ok (es, nextSeq)) :
    nextSeq = seq ∨ ∃ c ∈ cs, (∃ e, Decodes loads c e) ∧ nextSeq = c.seq := by
  induction cs generalizing seq es with
  | nil =>
    obtain ⟨-, rfl⟩ : [] = es ∧ seq = nextSeq := by simpa [buildChangesResult] using h
    exact .inl rfl
  | cons c cs ih =>
    rcases buildChangesResult_cons_ok h with ⟨-, hcs⟩ | ⟨e, rest, he, rfl, hcs⟩
    · rcases ih hcs with hseq | ⟨d, hd, hdec⟩
      · exact .inl hseq
      · exact .inr ⟨d, List.mem_cons_of_mem _ hd, hdec⟩
    · rcases ih hcs with hseq | ⟨d, hd, hdec⟩
      · exact .inr ⟨c, by simp, ⟨e, he⟩, hseq.trans (buildEnvelope_seq he)⟩
      · exact .inr ⟨d, List.mem_cons_of_mem _ hd, hdec⟩

theorem mem_buildChangesResult {cs : List ChangeLog} {seq nextSeq : ℤ} {es : List Envelope}
    (h : buildChangesResult loads cs seq = .ok (es, nextSeq)) {c : ChangeLog} (hc : c ∈ cs)
    {e : Envelope} (he : Decodes loads c e) : e ∈ es := by
  induction cs generalizing seq es with
  | nil => simp at hc
  | cons d cs ih =>
    rcases buildChangesResult_cons_ok h with ⟨hnone, hcs⟩ | ⟨x, rest, hx, rfl, hcs⟩
    · rcases List.mem_cons.mp hc with rfl | hc
      · simp [Decodes, hnone] at he
      · exact ih hcs hc
    · rcases List.mem_cons.mp hc with rfl | hc
      · obtain rfl : x = e := by simpa [Decodes] using hx.symm.trans he
        simp
      · exact List.mem_cons_of_mem _ (ih hcs hc)

theorem buildChangesResult_complete {cs : List ChangeLog} (seq : ℤ)
    (h : ∀ c ∈ cs, ∃ e, Decodes loads c e) :
    ∃ es, List.Forall₂ (Decodes loads) cs es ∧
      buildChangesResult loads cs seq = .ok (es, cursorAfter ChangeLog.seq seq cs) := by
  induction cs generalizing seq with
  | nil => exact ⟨[], .nil, rfl⟩
  | cons c cs ih =>
    obtain ⟨e, he⟩ := h c (by simp)
    obtain ⟨es, hes, hbuild⟩ := ih e.seq fun d hd => h d (List.mem_cons_of_mem _ hd)
    refine ⟨e :: es, .cons he hes, ?_⟩
    have hc : buildEnvelope loads c = .ok (some e) := he
    rw [buildChangesResult_cons, hc, cursorAfter_cons, ← buildEnvelope_seq he]
    simp only [hbuild, Except.map]

theorem decodes_unique {c : ChangeLog} {d e : Envelope} (hd : Decodes loads c d)
    (he : Decodes loads c e) : d = e := Option.some.inj (Except.ok.inj (hd.symm.trans he))

theorem buildEnvelopes_complete {cs : List ChangeLog} (h : ∀ c ∈ cs, ∃ e, Decodes loads c e) :
    ∃ es, List.Forall₂ (Decodes loads) cs es ∧ buildEnvelopes loads cs = .ok es := by
  induction cs with
  | nil => exact ⟨[], .nil, rfl⟩
  | cons c cs ih =>
    obtain ⟨e, he⟩ := h c (by simp)
    obtain ⟨es, hes, hbuild⟩ := ih fun d hd => h d (List.mem_cons_of_mem _ hd)
    refine ⟨e :: es, .cons he hes, ?_⟩
    have hc : buildEnvelope loads c = .ok (some e) := he
    rw [buildEnvelopes, hc, hbuild]
    rfl

theorem isGone_buildEnvelope (loads : String → Option Json) (c : ChangeLog) :
    isGone (buildEnvelope loads c) = false := by
  unfold buildEnvelope
  split
  · rfl
  · rfl
  · split <;> rfl

theorem isGone_buildChangesResult (cs : List ChangeLog) (seq : ℤ) :
    isGone (buildChangesResult loads cs seq) = false := by
  induction cs generalizing seq with
  | nil => rfl
  | cons c cs ih =>
    rw [buildChangesResult_cons]
    split
    · next f hc =>
      have := isGone_buildEnvelope loads c
      rw [hc] at this
      cases f <;> exact this
    · exact ih seq
    · next e hc =>
      have := ih e.seq
      cases hcs : buildChangesResult loads cs e.seq with
      | error f => rw [hcs] at this; exact this
      | ok r => rfl

theorem getChanges_inWindow {table : List ChangeLog} {seq limit : ℤ}
    {types : Option (List String)} (hlimit : 0 < limit) (h : isTooOld table seq = none) :
    getChanges loads table (some seq) limit types =
      buildChangesResult loads (selectChanges table (some seq) limit.toNat types) seq := by
  simp [getChanges, changesPage, h, hlimit.not_gt]

theorem isGone_getChanges_iff {table : List ChangeLog} (hpos : ∀ c ∈ table, 0 < c.seq) (seq : ℤ)
    {limit : ℤ} (hlimit : 0 < limit) (types : Option (List String)) :
    isGone (getChanges loads table (some seq) limit types) ↔
      table ≠ [] ∧ ∀ c ∈ table, seq < c.seq := by
  rw [← isTooOld_isSome_iff hpos]
  cases h : isTooOld table seq with
  | none => simp [getChanges_inWindow hlimit h, isGone_buildChangesResult]
  | some oldest => simp [getChanges, h, retentionWindowExceeded, isGone]

theorem selectChanges_eq {table : List ChangeLog} (h : Ascending ChangeLog.seq table) (seq : ℤ)
    (limit : ℕ) (types : Option (List String)) :
    selectChanges table (some seq) limit types =
      (after ChangeLog.seq seq (table.filter (matchesTypes types))).take limit := by
  unfold selectChanges after
  rw [List.filter_filter, orderBy_of_ascending (h.filter _)]
  congr 2
  funext c
  simp

theorem filter_wanted_eq (table : List ChangeLog) (seq : ℤ) (types : Option (List String)) :
    table.filter (wanted seq types) =
      after ChangeLog.seq seq (table.filter (matchesTypes types)) := by
  unfold after
  rw [List.filter_filter]
  congr 1
  funext c
  simp [wanted]

theorem inWindow_of_mem {table : List ChangeLog} (hpos : ∀ c ∈ table, 0 < c.seq) {c : ChangeLog}
    (hc : c ∈ table) {seq : ℤ} (hle : c.seq ≤ seq) : isTooOld table seq = none := by
  rw [← Option.not_isSome_iff_eq_none, isTooOld_isSome_iff hpos]
  rintro ⟨-, h⟩
  exact absurd (h c hc) hle.not_gt

theorem drainChanges_complete {table : List ChangeLog} (hasc : Ascending ChangeLog.seq table)
    (hpos : ∀ c ∈ table, 0 < c.seq) {limit : ℤ} (hlimit : 0 < limit)
    {types : Option (List String)} {seq : ℤ} (hwin : isTooOld table seq = none)
    (hdec : ∀ c ∈ table, wanted seq types c → ∃ e, Decodes loads c e) :
    ∃ fuel es, drainChanges loads table limit types fuel seq = some (.ok es) ∧
      List.Forall₂ (Decodes loads) (table.filter (wanted seq types)) es := by
  have hT : Ascending ChangeLog.seq (table.filter (matchesTypes types)) := hasc.filter _
  -- each page leaves fewer rows beyond the cursor
  induction hm : (table.filter (wanted seq types)).length using Nat.strong_induction_on
    generalizing seq with
  | _ m ih =>
  subst hm
  rw [filter_wanted_eq] at ih ⊢
  set page := selectChanges table (some seq) limit.toNat types with hpage
  have hsel : page = (after ChangeLog.seq seq (table.filter (matchesTypes types))).take
      limit.toNat := selectChanges_eq hasc ..
  have hpageDec : ∀ c ∈ page, ∃ e, Decodes loads c e := by
    intro c hc
    rw [hsel] at hc
    have := List.mem_of_mem_take hc
    rw [← filter_wanted_eq] at this
    exact hdec c (List.mem_filter.mp this).1 (List.mem_filter.mp this).2
  obtain ⟨es, hes, hbuild⟩ := buildChangesResult_complete seq hpageDec
  have hget : getChanges loads table (some seq) limit types =
      .ok (es, cursorAfter ChangeLog.seq seq page) := by
    rw [getChanges_inWindow hlimit hwin, ← hpage, hbuild]
  cases es with
  | nil =>
    refine ⟨1, [], by simp [drainChanges, hget], ?_⟩
    have hnil : page = [] := List.forall₂_nil_right_iff.mp hes
    rw [hsel, List.take_eq_nil_iff] at hnil
    rcases hnil with h0 | hnil
    · omega
    · rw [hnil]; exact .nil
  | cons e es =>
    have hne : after ChangeLog.seq seq (table.filter (matchesTypes types)) ≠ [] := by
      intro hnil
      rw [hsel, hnil, List.take_nil] at hes
      exact absurd hes (by simp)
    obtain ⟨c, hc⟩ := List.exists_mem_of_ne_nil page (by rintro h; rw [h] at hes; simp at hes)
    have hcT := List.mem_filter.mp (mem_after.mp (List.mem_of_mem_take (hsel ▸ hc))).1
    have hwin' : isTooOld table (cursorAfter ChangeLog.seq seq page) = none :=
      inWindow_of_mem hpos hcT.1
        (mem_le_cursorAfter (hsel ▸ (hT.filter _).take _) seq hc)
    have hle : seq ≤ cursorAfter ChangeLog.seq seq page := by
      apply le_cursorAfter
      intro d hd
      exact (mem_after.mp (List.mem_of_mem_take (hsel ▸ hd))).2
    have hlt := length_after_cursorAfter_lt hT seq (Int.pos_iff_toNat_pos.mp hlimit) hne
    rw [← hsel] at hlt
    have hdec' : ∀ d ∈ table, wanted (cursorAfter ChangeLog.seq seq page) types d →
        ∃ e, Decodes loads d e := by
      intro d hd hw
      refine hdec d hd ?_
      simp only [wanted, decide_eq_true_eq] at hw ⊢
      exact ⟨hle.trans_lt hw.1, hw.2⟩
    obtain ⟨fuel, rest, hdrain, hrest⟩ := ih _ hlt hwin' hdec' (by rw [filter_wanted_eq])
    refine ⟨fuel + 1, e :: es ++ rest, by simp [drainChanges, hget, hdrain, Except.map], ?_⟩
    have hall : page ++ table.filter (wanted (cursorAfter ChangeLog.seq seq page) types) =
        after ChangeLog.seq seq (table.filter (matchesTypes types)) := by
      rw [filter_wanted_eq, hsel, take_append_after hT]
    rw [← hall]
    exact List.rel_append hes hrest

theorem drainChanges_sound {table : List ChangeLog} {limit : ℤ} {types : Option (List String)}
    {fuel : ℕ} {seq : ℤ} {es : List Envelope} (hlimit : 0 < limit)
    (h : drainChanges loads table limit types fuel seq = some (.ok es)) {e : Envelope}
    (he : e ∈ es) : ∃ c ∈ table, Decodes loads c e := by
  induction fuel generalizing seq es with
  | zero => simp [drainChanges] at h
  | succ fuel ih =>
    rw [drainChanges] at h
    split at h
    · simp at h
    · obtain rfl : [] = es := by simpa using h
      simp at he
    · next d ds nextSeq hget =>
      cases hrest : drainChanges loads table limit types fuel nextSeq with
      | none => simp [hrest] at h
      | some r =>
        cases r with
        | error f => simp [hrest, Except.map] at h
        | ok rest =>
          obtain rfl : d :: ds ++ rest = es := by simpa [hrest, Except.map] using h
          rcases List.mem_append.mp he with he | he
          · cases hwin : isTooOld table seq with
            | some oldest => simp [getChanges, hwin] at hget
            | none =>
              rw [getChanges_inWindow hlimit hwin] at hget
              obtain ⟨c, hc, hce⟩ := buildChangesResult_sound hget he
              have hsel := List.mem_of_mem_take hc
              rw [mem_orderBy] at hsel
              exact ⟨c, (List.mem_filter.mp hsel).1, hce⟩
          · exact ih hrest he

theorem exists_of_forall₂ {α β : Type} {R : α → β → Prop} {cs : List α} {es : List β}
    (h : List.Forall₂ R cs es) {c : α} (hc : c ∈ cs) : ∃ e ∈ es, R c e := by
  induction h with
  | nil => simp at hc
  | @cons d e cs es hd _ ih =>
    rcases List.mem_cons.mp hc with rfl | hc
    · exact ⟨e, by simp, hd⟩
    · obtain ⟨x, hx, hcx⟩ := ih hc
      exact ⟨x, List.mem_cons_of_mem _ hx, hcx⟩

theorem ascending_decoded {cs : List ChangeLog} {es : List Envelope}
    (h : List.Forall₂ (Decodes loads) cs es) (hasc : Ascending ChangeLog.seq cs) :
    Ascending Envelope.seq es := by
  induction h with
  | nil => exact .nil
  | @cons d e cs es hd hds ih =>
    obtain ⟨hfirst, hrest⟩ := List.pairwise_cons.mp hasc
    refine List.pairwise_cons.mpr ⟨?_, ih hrest⟩
    intro x hx
    obtain ⟨c, hc, hcx⟩ := exists_of_forall₂ (List.Forall₂.flip hds) hx
    rw [buildEnvelope_seq hd, buildEnvelope_seq hcx]
    exact hfirst c hc

theorem LogState.Valid.filter_wanted {st : LogState} (h : st.Valid) {seq : ℤ}
    {types : Option (List String)}
    (hall : ∀ c ∈ st.everAppended, wanted seq types c → c ∈ st.changeLog) :
    st.changeLog.filter (wanted seq types) = st.everAppended.filter (wanted seq types) := by
  apply (h.ascending_changeLog.filter _).unique (h.ascending.filter _)
  intro c
  simp only [List.mem_filter]
  exact ⟨fun hc => ⟨h.retained.subset hc.1, hc.2⟩, fun hc => ⟨hall c hc.1 hc.2, hc.2⟩⟩

theorem feedComplete_of_windowCovers {st : LogState} (h : st.Valid) {limit : ℤ} (hlimit : 0 < limit)
    {types : Option (List String)} {seq : ℤ} (hcov : WindowCovers loads st types seq) :
    FeedComplete loads st limit types seq := by
  rw [FeedComplete, isGone_getChanges_iff (fun c hc => h.pos hc) seq hlimit]
  rcases hcov with hgone | hall
  · exact .inl hgone
  · by_cases hgone : st.changeLog ≠ [] ∧ ∀ c ∈ st.changeLog, seq < c.seq
    · exact .inl hgone
    · rw [← isTooOld_isSome_iff (fun c hc => h.pos hc), Option.not_isSome_iff_eq_none] at hgone
      right
      rw [← h.filter_wanted fun c hc hw => (hall c hc hw).1]
      obtain ⟨fuel, es, hdrain, hes⟩ := drainChanges_complete h.ascending_changeLog
        (fun c hc => h.pos hc) hlimit hgone fun c hc hw => (hall c (h.retained.subset hc) hw).2
      exact ⟨fuel, es, hdrain, hes, ascending_decoded hes (h.ascending_changeLog.filter _)⟩

theorem windowCovers_of_feedComplete {st : LogState} (h : st.Valid) {limit : ℤ} (hlimit : 0 < limit)
    {types : Option (List String)} {seq : ℤ} (hfeed : FeedComplete loads st limit types seq) :
    WindowCovers loads st types seq := by
  rcases hfeed with hgone | ⟨fuel, es, hdrain, hes, -⟩
  · exact .inl ((isGone_getChanges_iff (fun c hc => h.pos hc) seq hlimit types).mp hgone)
  · right
    intro c hc hw
    have hcw : c ∈ st.everAppended.filter (wanted seq types) := List.mem_filter.mpr ⟨hc, hw⟩
    obtain ⟨e, he, hce⟩ := exists_of_forall₂ hes hcw
    obtain ⟨d, hd, hde⟩ := drainChanges_sound hlimit hdrain he
    -- two appended entries that decode to one envelope share its seq
    obtain rfl : d = c := h.ascending.eq_of_key (h.retained.subset hd) hc
      ((buildEnvelope_seq hde).symm.trans (buildEnvelope_seq hce))
    exact ⟨hd, e, hce⟩

variable (loads)

theorem changes_feed_complete_iff (limits : ChangesLimits) (ops : List LogOp) (seq limit : ℤ)
    (types : Option (List String)) :
    FeedComplete loads (LogState.empty.run ops) (normalizeChangesLimit limits limit) types seq ↔
      WindowCovers loads (LogState.empty.run ops) types seq :=
  have hvalid := LogState.valid_empty.run ops
  have hlimit := normalizeChangesLimit_pos limits limit
  ⟨windowCovers_of_feedComplete hvalid hlimit, feedComplete_of_windowCovers hvalid hlimit⟩

def purgedLog : List LogOp :=
  [.append 0 "acs" "1.2.156" 1 none .upsert, .cleanup 7200000000 1 100000]

theorem purged_log_silently_empty :
    ¬ FeedComplete (fun _ => none) (LogState.empty.run purgedLog) 1000 none 0 := by
  have htable : (LogState.empty.run purgedLog).changeLog = [] := by decide
  have hever : ((LogState.empty.run purgedLog).everAppended.filter (wanted 0 none)).length = 1 := by
    decide
  have hget : getChanges (fun _ => none) [] (some 0) 1000 none = .ok ([], 0) := rfl
  rintro (hgone | ⟨fuel, es, hdrain, hes, -⟩)
  · rw [htable, hget] at hgone
    exact absurd hgone (by decide)
  · cases fuel with
    | zero => simp [drainChanges] at hdrain
    | succ fuel =>
      rw [htable, drainChanges, hget] at hdrain
      obtain rfl : [] = es := by simpa using hdrain
      rw [List.forall₂_nil_right_iff.mp hes] at hever
      exact absurd hever (by decide)

end Acps.Registry
