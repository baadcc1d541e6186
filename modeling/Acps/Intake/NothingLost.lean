import Acps.Intake.BatchWriter

/-!
Below a committed offset nothing is lost: what a writer took of a partition was inserted or sent to
the dead letter queue, so long as no failed insert drops records that the seek leaves behind.
-/

namespace Acps.Intake

open Transition

variable {P Row : Type} (F : Format Row) (s t : World P Row) {start : P → ℕ}

def Dealt (p : P) (i : ℕ) : Parsed Row → Prop
  | .skipped => True
  | .invalid | .record _ none => (p, i) ∈ s.dlq
  | .record logId (some _) => logId ∈ s.insertedIds

def Settled (p : P) (i : ℕ) : Prop :=
  ∃ value, (s.log p)[i]? = some value ∧ Dealt s p i (F.parse value)

def Valid (p : P) (i : ℕ) (logId : String) (row : Row) : Prop :=
  ∃ value, (s.log p)[i]? = some value ∧ F.parse value = .record logId (some row)

def Buffered (p : P) (i : ℕ) : Prop :=
  ∃ logId row, Valid F s p i logId row ∧ logId ∈ s.batchLogIds

structure Grows : Prop where
  log : ∀ (p : P) (i : ℕ) (value : List UInt8),
    (s.log p)[i]? = some value → (t.log p)[i]? = some value
  dlq : ∀ x ∈ s.dlq, x ∈ t.dlq
  inserted : ∀ logId ∈ s.insertedIds, logId ∈ t.insertedIds

structure Tracked (start : P → ℕ) (s : World P Row) : Prop where
  taken : ∀ p i, start p ≤ i → i < s.position p → Settled F s p i ∨ Buffered F s p i
  committed : ∀ p c, s.committed p = some c → ∀ i, start p ≤ i → i < c → Settled F s p i
  flushed : ∀ now todo kept, s.phase = .flushed now todo kept →
    (∀ logId ∈ s.batchLogIds, logId ∈ s.insertedIds) ∧ ∀ logId ∈ kept, logId ∈ s.insertedIds
  marks : ∀ logId ∈ s.marks, logId ∈ s.insertedIds

/-- The dead letter queue takes what it is sent, no invalid message has the `log_id` of a buffered
record, and an insert fails only while nothing is buffered of a partition without a committed
offset. -/
def Careful [DecidableEq P] (start : P → ℕ) (s : World P Row) : Act P → Prop
  | .consume p dlqUp => ∀ value, (s.log p)[s.position p]? = some value →
    match F.parse value with
    | .invalid => dlqUp = true
    | .record logId none => dlqUp = true ∧ logId ∉ s.batchLogIds
    | _ => True
  | .flush _ (.failed false) _ => ∀ p, s.committed p = none →
    ∀ i, start p ≤ i → i < s.position p → Buffered F s p i → Settled F s p i
  | _ => True

variable {F s t}

theorem Settled.grow (hgrows : Grows s t) {p : P} {i : ℕ} (h : Settled F s p i) :
    Settled F t p i := by
  obtain ⟨value, hvalue, hdealt⟩ := h
  refine ⟨value, hgrows.log p i value hvalue, ?_⟩
  match hparse : F.parse value with
  | .skipped => trivial
  | .invalid | .record _ none =>
    rw [hparse] at hdealt
    exact hgrows.dlq _ hdealt
  | .record logId (some _) =>
    rw [hparse] at hdealt
    exact hgrows.inserted logId hdealt

theorem Buffered.grow (hgrows : Grows s t) (hbatch : ∀ logId ∈ s.batchLogIds, logId ∈ t.batchLogIds)
    {p : P} {i : ℕ} (h : Buffered F s p i) : Buffered F t p i := by
  obtain ⟨logId, row, ⟨value, hvalue, hparse⟩, hmem⟩ := h
  exact ⟨logId, row, ⟨value, hgrows.log p i value hvalue, hparse⟩, hbatch logId hmem⟩

theorem Buffered.settled {p : P} {i : ℕ} (h : Buffered F s p i)
    (hinserted : ∀ logId ∈ s.batchLogIds, logId ∈ s.insertedIds) : Settled F s p i := by
  obtain ⟨logId, row, ⟨value, hvalue, hparse⟩, hmem⟩ := h
  refine ⟨value, hvalue, ?_⟩
  rw [hparse]
  exact hinserted logId hmem

theorem Tracked.of_same (h : Tracked F start s) (hgrows : Grows s t)
    (hposition : t.position = s.position) (hpending : t.pending = s.pending)
    (hcommitted : t.committed = s.committed)
    (hphase : ∀ now todo kept, t.phase = .flushed now todo kept →
      (∀ logId ∈ t.batchLogIds, logId ∈ t.insertedIds) ∧ ∀ logId ∈ kept, logId ∈ t.insertedIds)
    (hmarks : ∀ logId ∈ t.marks, logId ∈ s.marks) : Tracked F start t := by
  refine ⟨fun p i hstart hi => ?_, fun p c hc i hstart hi => ?_, hphase, fun logId hmem => ?_⟩
  · rw [hposition] at hi
    exact (h.taken p i hstart hi).imp (Settled.grow hgrows) 
      (Buffered.grow hgrows fun logId hmem => by rwa [World.batchLogIds, hpending])
  · rw [hcommitted] at hc
    exact (h.committed p c hc i hstart hi).grow hgrows
  · exact hgrows.inserted logId (h.marks logId (hmarks logId hmem))

theorem handled {p : P} {i : ℕ} {value : List UInt8} (hvalue : (s.log p)[i]? = some value)
    {pending : List (PreparedRecord P Row)} (hhandle : handleMessage F s p value = some pending)
    (hcareful : ∀ logId, F.parse value = .record logId none → logId ∉ s.batchLogIds) :
    (Settled F { s with pending } p i ∨ Buffered F { s with pending } p i) ∧
      ∀ r ∈ s.pending, r ∈ pending := by
  unfold handleMessage at hhandle
  match hparse : F.parse value with
  | .skipped =>
    rw [hparse] at hhandle
    obtain rfl := Option.some.inj hhandle
    refine ⟨.inl ⟨value, hvalue, ?_⟩, fun _ h => h⟩
    rw [hparse]
    trivial
  | .invalid =>
    rw [hparse] at hhandle
    cases hhandle
  | .record logId row =>
    rw [hparse] at hhandle
    simp only at hhandle
    split at hhandle
    next hmem =>
      obtain rfl := Option.some.inj hhandle
      cases row with
      | none => exact absurd hmem (hcareful logId hparse)
      | some row => exact ⟨.inr ⟨logId, row, ⟨value, hvalue, hparse⟩, hmem⟩, fun _ h => h⟩
    next =>
      obtain ⟨row, rfl, rfl⟩ := Option.map_eq_some_iff.mp hhandle
      refine ⟨.inr ⟨logId, row, ⟨value, hvalue, hparse⟩, ?_⟩, fun r h => List.mem_append_left _ h⟩
      unfold World.batchLogIds
      simp

theorem invalid_of_raises {p : P} {value : List UInt8} (hraises : handleMessage F s p value = none) :
    F.parse value = .invalid ∨ ∃ logId, F.parse value = .record logId none := by
  unfold handleMessage at hraises
  match hparse : F.parse value with
  | .skipped =>
    rw [hparse] at hraises
    cases hraises
  | .invalid => exact .inl rfl
  | .record logId none => exact .inr ⟨logId, rfl⟩
  | .record logId (some row) =>
    rw [hparse] at hraises
    simp only [Option.map_some] at hraises
    split at hraises <;> cases hraises

theorem mem_filterUnseen (redisUp : Bool) (hmarks : ∀ logId ∈ s.marks, logId ∈ s.insertedIds)
    {r : PreparedRecord P Row} (hr : r ∈ s.pending) :
    r ∈ filterUnseen s redisUp ∨ r.logId ∈ s.insertedIds := by
  by_cases hmarked : r.logId ∈ s.marks
  · exact .inr (hmarks r.logId hmarked)
  · refine .inl (List.mem_filter.mpr ⟨hr, ?_⟩)
    simp [hmarked]

theorem inserted_of_buffered (redisUp : Bool)
    (hmarks : ∀ logId ∈ s.marks, logId ∈ s.insertedIds) :
    ∀ logId ∈ s.batchLogIds,
      logId ∈ (s.events ++ filterUnseen s redisUp).map PreparedRecord.logId := by
  intro logId hmem
  obtain ⟨r, hr, rfl⟩ := List.mem_map.mp hmem
  rw [List.map_append, List.mem_append]
  rcases mem_filterUnseen redisUp hmarks hr with hkept | hinserted
  · exact .inr (List.mem_map_of_mem hkept)
  · exact .inl hinserted

section Steps

variable [DecidableEq P]

theorem grows_append {p : P} {value : List UInt8} :
    Grows s { s with log := Function.update s.log p (s.log p ++ [value]) } := by
  refine ⟨fun q i v hv => ?_, fun _ h => h, fun _ h => h⟩
  by_cases hq : q = p
  · subst hq
    have hlt := (List.getElem?_eq_some_iff.mp hv).1
    change (Function.update s.log q (s.log q ++ [value]) q)[i]? = some v
    rw [Function.update_self, List.getElem?_append_left hlt]
    exact hv
  · change (Function.update s.log p (s.log p ++ [value]) q)[i]? = some v
    rw [Function.update_of_ne hq]
    exact hv

theorem tracked_append {p : P} {value : List UInt8} (h : Tracked F start s) :
    Tracked F start { s with log := Function.update s.log p (s.log p ++ [value]) } :=
  h.of_same grows_append rfl rfl rfl h.flushed fun _ h => h

theorem Tracked.take {p : P} (h : Tracked F start s) (hgrows : Grows s t)
    (hposition : t.position = Function.update s.position p (s.position p + 1))
    (hbatch : ∀ logId ∈ s.batchLogIds, logId ∈ t.batchLogIds)
    (hcommitted : t.committed = s.committed) (hphase : t.phase = .polling) (hmarks : t.marks = s.marks)
    (hnew : Settled F t p (s.position p) ∨ Buffered F t p (s.position p)) : Tracked F start t := by
  refine ⟨fun q i hstart hi => ?_, fun q c hc i hstart hi => ?_, fun now todo kept hflushed => ?_,
    fun logId hmem => ?_⟩
  · rw [hposition, Function.update_apply] at hi
    by_cases hq : q = p ∧ i = s.position p
    · obtain ⟨rfl, rfl⟩ := hq
      exact hnew
    · have hlt : i < s.position q := by
        split at hi
        next hqp =>
          subst hqp
          have hne : i ≠ s.position q := fun hi => hq ⟨rfl, hi⟩
          omega
        next => exact hi
      exact (h.taken q i hstart hlt).imp (Settled.grow hgrows) (Buffered.grow hgrows hbatch)
  · rw [hcommitted] at hc
    exact (h.committed q c hc i hstart hi).grow hgrows
  · rw [hphase] at hflushed
    cases hflushed
  · rw [hmarks] at hmem
    exact hgrows.inserted logId (h.marks logId hmem)

theorem tracked_consume {p : P} {dlqUp : Bool} (h : Tracked F start s)
    (hcareful : Careful F start s (.consume p dlqUp)) (hstep : consume F s p dlqUp = some t) :
    Tracked F start t := by
  unfold consume at hstep
  split at hstep
  next value hpolling hvalue =>
    have hcareful := hcareful value hvalue
    cases hhandle : handleMessage F s p value with
    | some pending =>
      rw [hhandle] at hstep
      obtain rfl := Option.some.inj hstep
      obtain ⟨hnew, hkept⟩ := handled hvalue hhandle fun logId hparse => by
        rw [hparse] at hcareful
        exact hcareful.2
      refine h.take (p := p) ⟨fun _ _ _ h => h, fun _ h => h, fun _ h => h⟩ rfl ?_ rfl hpolling rfl
        hnew
      exact fun logId hmem => List.map_subset _ hkept hmem
    | none =>
      rw [hhandle] at hstep
      have hup : dlqUp = true := by
        rcases invalid_of_raises hhandle with hparse | ⟨logId, hparse⟩
        · rw [hparse] at hcareful
          exact hcareful
        · rw [hparse] at hcareful
          exact hcareful.1
      subst hup
      obtain rfl := Option.some.inj hstep
      refine h.take (p := p) ⟨fun _ _ _ h => h, fun x hx => List.mem_append_left _ hx, fun _ h => h⟩
        rfl (fun _ h => h) rfl hpolling rfl (.inl ⟨value, hvalue, ?_⟩)
      have hsent : (p, s.position p) ∈ s.dlq ++ [(p, s.position p)] := by simp
      rcases invalid_of_raises hhandle with hparse | ⟨logId, hparse⟩
      · rw [hparse]
        exact hsent
      · rw [hparse]
        exact hsent
  next => cases hstep

theorem tracked_failed {redisUp applied : Bool} {now : Time} (h : Tracked F start s)
    (hpolling : s.phase = .polling)
    (hcareful : Careful F start s (.flush redisUp (.failed applied) now)) :
    Tracked F start { seekToCommitted s with
      events := if applied then s.events ++ filterUnseen s redisUp else s.events
      pending := [] } := by
  have hgrows : Grows s { seekToCommitted s with
      events := if applied then s.events ++ filterUnseen s redisUp else s.events
      pending := [] } := by
    refine ⟨fun _ _ _ h => h, fun _ h => h, fun logId hmem => ?_⟩
    cases applied with
    | false => exact hmem
    | true =>
      change logId ∈ (s.events ++ _).map _
      rw [List.map_append]
      exact List.mem_append_left _ hmem
  refine ⟨fun p i hstart hi => .inl ?_, fun p c hc i hstart hi => ?_, fun _ _ _ hphase => ?_,
    fun logId hmem => hgrows.inserted logId (h.marks logId hmem)⟩
  · cases hc : s.committed p with
    | some c =>
      have hi : i < c := by
        change i < (s.committed p).getD (s.position p) at hi
        rwa [hc] at hi
      exact (h.committed p c hc i hstart hi).grow hgrows
    | none =>
      have hlt : i < s.position p := by
        change i < (s.committed p).getD (s.position p) at hi
        rwa [hc] at hi
      rcases h.taken p i hstart hlt with hsettled | hbuffered
      · exact hsettled.grow hgrows
      · cases applied with
        | false => exact (hcareful p hc i hstart hlt hbuffered).grow hgrows
        | true =>
          obtain ⟨logId, row, ⟨value, hvalue, hparse⟩, hmem⟩ := hbuffered
          refine ⟨value, hvalue, ?_⟩
          rw [hparse]
          exact inserted_of_buffered _ h.marks logId hmem
  · exact (h.committed p c hc i hstart hi).grow hgrows
  · change s.phase = _ at hphase
    rw [hpolling] at hphase
    cases hphase

theorem tracked_flushBatch {redisUp : Bool} {outcome : InsertOutcome} {now : Time}
    (h : Tracked F start s) (hcareful : Careful F start s (.flush redisUp outcome now))
    (hstep : flushBatch s redisUp outcome now = some t) : Tracked F start t := by
  unfold flushBatch at hstep
  split at hstep
  next r rest hpolling hpending =>
    simp only at hstep
    have hall := inserted_of_buffered redisUp h.marks
    split at hstep
    next hnone =>
      obtain rfl := Option.some.inj hstep
      rw [hnone, List.append_nil] at hall
      refine h.of_same ⟨fun _ _ _ h => h, fun _ h => h, fun _ h => h⟩ rfl rfl rfl (fun _ _ kept hphase => ⟨hall, ?_⟩) fun _ h => h
      obtain ⟨_, _, rfl⟩ := Phase.flushed.inj hphase
      exact fun _ hmem => by cases hmem
    next =>
      have hmore : ∀ logId ∈ s.insertedIds,
          logId ∈ (s.events ++ filterUnseen s redisUp).map PreparedRecord.logId := by
        intro logId hmem
        rw [List.map_append]
        exact List.mem_append_left _ hmem
      cases outcome with
      | inserted =>
        obtain rfl := Option.some.inj hstep
        refine h.of_same ⟨fun _ _ _ h => h, fun _ h => h, hmore⟩ rfl rfl rfl
          (fun _ _ kept hphase => ⟨hall, ?_⟩) fun _ h => h
        obtain ⟨_, _, rfl⟩ := Phase.flushed.inj hphase
        intro logId hmem
        change logId ∈ (s.events ++ _).map _
        rw [List.map_append]
        exact List.mem_append_right _ hmem
      | failed applied =>
        obtain rfl := Option.some.inj hstep
        exact tracked_failed h hpolling hcareful
  next => cases hstep

omit [DecidableEq P] in
theorem tracked_markSeenAndCommit {marked : List String} (h : Tracked F start s)
    (hstep : markSeenAndCommit s marked = some t) : Tracked F start t := by
  unfold markSeenAndCommit at hstep
  split at hstep
  next now kept hflushed =>
    obtain ⟨hbatch, hkept⟩ := h.flushed now [] kept hflushed
    split at hstep
    next hmarked =>
      obtain rfl := Option.some.inj hstep
      have hsettled (p : P) (i : ℕ) (hstart : start p ≤ i) (hi : i < s.position p) :
          Settled F s p i :=
        (h.taken p i hstart hi).elim id fun hbuffered => hbuffered.settled hbatch
      refine ⟨fun p i hstart hi => .inl (hsettled p i hstart hi), fun p c hc i hstart hi => ?_,
        fun _ _ _ hphase => (by cases hphase), fun logId hmem => ?_⟩
      · obtain rfl := Option.some.inj hc
        exact hsettled p i hstart hi
      · rcases List.mem_append.mp hmem with hmem | hmem
        · exact h.marks logId hmem
        · exact hkept logId (hmarked logId hmem)
    next => cases hstep
  next => cases hstep

theorem tracked_setWatermark {p : P} {value : Time} (h : Tracked F start s) :
    Tracked F start (setWatermark s p value) :=
  h.of_same ⟨fun _ _ _ h => h, fun _ h => h, fun _ h => h⟩ rfl rfl rfl h.flushed fun _ h => h

theorem tracked_step {a : Act P} (h : Tracked F start s) (hcareful : Careful F start s a)
    (hstep : step F s a = some t) : Tracked F start t := by
  cases a with
  | append p value =>
    obtain rfl := Option.some.inj hstep
    exact tracked_append h
  | fetched p =>
    obtain rfl := Option.some.inj hstep
    exact h.of_same ⟨fun _ _ _ h => h, fun _ h => h, fun _ h => h⟩ rfl rfl rfl h.flushed fun _ h => h
  | consume p dlqUp => exact tracked_consume h hcareful hstep
  | flush redisUp outcome now => exact tracked_flushBatch h hcareful hstep
  | advancePartitionWatermark =>
    simp only [step, advancePartitionWatermark] at hstep
    split at hstep
    next now p batchMaxTs todo kept hflushed =>
      obtain rfl := Option.some.inj hstep
      refine h.of_same ⟨fun _ _ _ h => h, fun _ h => h, fun _ h => h⟩ rfl rfl rfl
        (fun now' todo' kept' hphase => ?_) fun _ h => h
      obtain ⟨_, _, rfl⟩ := Phase.flushed.inj hphase
      exact h.flushed now _ kept hflushed
    next => cases hstep
  | markSeenAndCommit marked => exact tracked_markSeenAndCommit h hstep
  | advanceIdlePartition p now =>
    simp only [step, advanceIdlePartition] at hstep
    split at hstep
    · split at hstep
      · obtain rfl := Option.some.inj hstep
        exact tracked_setWatermark h
      · cases hstep
    · cases hstep
  | expire logId =>
    obtain rfl := Option.some.inj hstep
    refine h.of_same ⟨fun _ _ _ h => h, fun _ h => h, fun _ h => h⟩ rfl rfl rfl h.flushed ?_
    exact fun _ hmem => List.mem_of_mem_filter hmem

end Steps

/-- A writer that has just started: it takes each partition from its committed offset, or from
wherever it is reset to, and what Redis marks as seen was inserted. -/
structure Started (s : World P Row) : Prop where
  polling : s.phase = .polling
  pending : s.pending = []
  position : ∀ p c, s.committed p = some c → s.position p = c
  marks : ∀ logId ∈ s.marks, logId ∈ s.insertedIds

theorem Started.tracked (F : Format Row) (h : Started s) : Tracked F s.position s := by
  refine ⟨fun p i hstart hi => ?_, fun p c hc i hstart hi => ?_, fun _ _ _ hphase => ?_, h.marks⟩
  · omega
  · rw [h.position p c hc] at hstart
    omega
  · rw [h.polling] at hphase
    cases hphase

theorem tracked_run [DecidableEq P] {as : List (Act P)} (hs : Started s)
    (hcareful : (writer F).Meets (Careful F s.position) s as)
    (h : (writer F).exec s as = some t) : Tracked F s.position t :=
  (writer F).exec_invariant (fun _ _ _ htracked hcareful hstep =>
    tracked_step htracked hcareful hstep) (hs.tracked F) hcareful h

theorem committed_settled [DecidableEq P] {as : List (Act P)} (hs : Started s)
    (hcareful : (writer F).Meets (Careful F s.position) s as)
    (h : (writer F).exec s as = some t) {p : P} {c : ℕ} (hc : t.committed p = some c) {i : ℕ}
    (hstart : s.position p ≤ i) (hi : i < c) : Settled F t p i :=
  (tracked_run hs hcareful h).committed p c hc i hstart hi

namespace Sample

def textOf (n : ℤ) : String := String.ofList (List.replicate n.toNat 'm')

def codec : Codec ℤ where
  loads value := some (.obj [("log_type", .str "message"), ("n", .num value.length),
    ("body", .bool (value.head? ≠ some 1))])
  logId rawDict :=
    match rawDict.get "n" with
    | some (.num n) => some (textOf n)
    | _ => none
  eventRow rawDict :=
    match rawDict.get "n", rawDict.get "body" with
    | some (.num n), some (.bool true) => some n
    | _, _ => none
  timestampMs := id

def format : Format ℤ := messageFormat codec

def started (committed : Option ℕ) : World Unit ℤ :=
  { log := fun _ => [], dlq := [], committed := fun _ => committed, position := fun _ => 0
    highwater := fun _ => none, pending := [], phase := .polling, events := [], marks := []
    partitions := [], watermark := fun _ => none, written := fun _ => 0 }

def take (value : List UInt8) : List (Act Unit) := [.append () value, .consume () true]

def inserts (logIds : List String) : List (Act Unit) :=
  [.flush true .inserted 10, .advancePartitionWatermark, .markSeenAndCommit logIds]

def dropping : List (Act Unit) :=
  take [0] ++ [.flush true (.failed false) 10] ++ take [0, 0] ++ inserts ["mm"]

def doubled : List (Act Unit) := take [0] ++ take [1] ++ inserts ["m"]

def retrying : List (Act Unit) :=
  take [0] ++ [.flush true (.failed false) 10, .consume () true] ++ inserts ["m"]

def careful (s : World Unit ℤ) : Act Unit → Bool
  | .consume _ dlqUp => dlqUp ∧ ((s.log ())[s.position ()]?).all fun value =>
    match format.parse value with
    | .record _ none => false
    | _ => true
  | .flush _ (.failed false) _ => (s.committed ()).isSome
  | _ => true

theorem careful_sound (s : World Unit ℤ) (a : Act Unit) (h : careful s a = true) :
    Careful format (fun _ => 0) s a := by
  cases a with
  | consume p dlqUp =>
    obtain ⟨rfl, hvalue⟩ := of_decide_eq_true h
    intro value hget
    rw [hget, Option.all_some] at hvalue
    match hparse : format.parse value with
    | .skipped | .record _ (some _) => trivial
    | .invalid => rfl
    | .record _ none => rw [hparse] at hvalue; cases hvalue
  | flush redisUp outcome now =>
    match outcome with
    | .failed false =>
      intro p hnone
      obtain ⟨c, hc⟩ := Option.isSome_iff_exists.mp h
      cases hnone.symm.trans hc
    | .failed true | .inserted => trivial
  | _ => trivial

theorem started_started {committed : Option ℕ} (h : ∀ c ∈ committed, c = 0) :
    Started (started committed) :=
  ⟨rfl, rfl, fun _ c hc => (h c hc).symm, fun _ hmem => by cases hmem⟩

end Sample

theorem message_lost :
    (Started (Sample.started none) ∧
      ∃ t, (writer Sample.format).exec (Sample.started none) Sample.dropping = some t ∧
        t.committed () = some 2 ∧ ¬ Settled Sample.format t () 0) ∧
    Started (Sample.started (some 0)) ∧
      ∃ t, (writer Sample.format).exec (Sample.started (some 0)) Sample.doubled = some t ∧
        t.committed () = some 2 ∧ ¬ Settled Sample.format t () 1 := by
  refine ⟨⟨Sample.started_started fun c hc => (by cases hc), ?_⟩,
    Sample.started_started fun c hc => (Option.some.inj hc).symm, ?_⟩
  · have hends : ((writer Sample.format).exec (Sample.started none) Sample.dropping).any (fun t =>
        t.committed () = some 2 ∧ (t.log ())[0]? = some [0] ∧ t.insertedIds = ["mm"]) = true := by
      decide +kernel
    obtain ⟨t, ht, hend⟩ := (Option.any_eq_true _ _).mp hends
    obtain ⟨hcommitted, hlog, hinserted⟩ := of_decide_eq_true hend
    refine ⟨t, ht, hcommitted, ?_⟩
    rintro ⟨value, hvalue, hdealt⟩
    obtain rfl := Option.some.inj (hlog.symm.trans hvalue)
    change "m" ∈ t.insertedIds at hdealt
    rw [hinserted] at hdealt
    revert hdealt
    decide
  · have hends : ((writer Sample.format).exec (Sample.started (some 0)) Sample.doubled).any (fun t =>
        t.committed () = some 2 ∧ (t.log ())[1]? = some [1] ∧ t.dlq = []) = true := by
      decide +kernel
    obtain ⟨t, ht, hend⟩ := (Option.any_eq_true _ _).mp hends
    obtain ⟨hcommitted, hlog, hdlq⟩ := of_decide_eq_true hend
    refine ⟨t, ht, hcommitted, ?_⟩
    rintro ⟨value, hvalue, hdealt⟩
    obtain rfl := Option.some.inj (hlog.symm.trans hvalue)
    change ((), 1) ∈ t.dlq at hdealt
    rw [hdlq] at hdealt
    cases hdealt

theorem retried_batch_settled :
    ∃ t, (writer Sample.format).exec (Sample.started (some 0)) Sample.retrying = some t ∧
      t.committed () = some 1 ∧ Settled Sample.format t () 0 := by
  have hends : ((writer Sample.format).exec (Sample.started (some 0)) Sample.retrying).any
      (fun t => t.committed () = some 1) = true := by decide +kernel
  obtain ⟨t, ht, hend⟩ := (Option.any_eq_true _ _).mp hends
  have hcommitted := of_decide_eq_true hend
  refine ⟨t, ht, hcommitted, ?_⟩
  apply committed_settled (Sample.started_started fun c hc => (Option.some.inj hc).symm) ?_ ht
    hcommitted (Nat.le_refl 0) Nat.zero_lt_one
  exact (writer Sample.format).meets_of_check Sample.careful_sound (by decide +kernel)

end Acps.Intake
