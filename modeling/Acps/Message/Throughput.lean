import Mathlib.Algebra.BigOperators.Group.Finset.Basic
import Mathlib.Algebra.Order.BigOperators.Group.Finset
import Mathlib.Data.Finset.Sort

/-!
The throughput series of a destination: what a query that takes the newest row of each bucket gives
for a destination whose rows differ in kind or virtual host.
-/

namespace Acps.Message.Throughput

inductive CountColumn where
  | producedCount
  | consumedCount
  | ackCount
  | nackCount
  | rejectCount
  | timeoutCount
  | deadLetterCount
  | retryCount
  | ackLatencySumMs
  | ackSampleCount
  deriving DecidableEq

structure StatsRow where
  bucket : ℕ
  system : String
  destinationName : String
  destinationKind : String
  virtualHost : String
  compactedAt : ℕ
  count : CountColumn → ℕ
  count_lt : ∀ c, count c < 2 ^ 64

def StatsRow.key (r : StatsRow) : String × String := (r.destinationKind, r.virtualHost)

structure ArgMax where
  row : CountColumn → List StatsRow → Option StatsRow
  row_eq_none : ∀ c rows, row c rows = none ↔ rows = []
  row_newest : ∀ c rows r, row c rows = some r →
    r ∈ rows ∧ ∀ s ∈ rows, s.compactedAt ≤ r.compactedAt
  row_filter : ∀ c rows r (p : StatsRow → Bool), row c rows = some r → p r = true →
    row c (rows.filter p) = some r

structure ThroughputQuery where
  system : String
  destinationName : String
  destinationKind : Option String
  virtualHost : Option String
  fromMs : ℕ
  toMs : ℕ
  stepSeconds : ℕ
  stepSeconds_pos : 0 < stepSeconds

structure Point where
  bucket : ℕ
  count : CountColumn → ℕ

variable (A : ArgMax) (q : ThroughputQuery) (table : List StatsRow)

def ThroughputQuery.InRange (bucket : ℕ) : Prop :=
  q.fromMs ≤ bucket * 1000 ∧ bucket * 1000 < q.toMs

instance (bucket : ℕ) : Decidable (q.InRange bucket) := inferInstanceAs (Decidable (_ ∧ _))

def selected : List StatsRow :=
  table.filter fun r => q.InRange r.bucket ∧ r.system = q.system ∧
    r.destinationName = q.destinationName ∧ (∀ k ∈ q.destinationKind, r.destinationKind = k) ∧
    ∀ v ∈ q.virtualHost, r.virtualHost = v

def rowsAt (rows : List StatsRow) (bucket : ℕ) : List StatsRow := rows.filter (·.bucket = bucket)

def argMaxCount (c : CountColumn) (rows : List StatsRow) : ℕ :=
  ((A.row c rows).map (·.count c)).getD 0

def bucketsOf (rows : List StatsRow) : Finset ℕ := (rows.map (·.bucket)).toFinset

def toStartOfInterval (stepSeconds bucket : ℕ) : ℕ := bucket / stepSeconds * stepSeconds

def throughputSeries : List Point :=
  let rows := selected q table
  if 300 < q.stepSeconds then
    (((bucketsOf rows).image (toStartOfInterval q.stepSeconds)).sort (· ≤ ·)).map fun b =>
      { bucket := b
        count := fun c =>
          (∑ x ∈ bucketsOf rows with toStartOfInterval q.stepSeconds x = b,
            argMaxCount A c (rowsAt rows x)) % 2 ^ 64 }
  else
    ((bucketsOf rows).sort (· ≤ ·)).map fun b =>
      { bucket := b, count := fun c => argMaxCount A c (rowsAt rows b) }

section Totals

def destinationRows : List StatsRow :=
  table.filter fun r => r.system = q.system ∧ r.destinationName = q.destinationName

def keysOf (rows : List StatsRow) : Finset (String × String) := (rows.map StatsRow.key).toFinset

def bucketTotal (c : CountColumn) (rows : List StatsRow) : ℕ :=
  ∑ k ∈ keysOf rows, argMaxCount A c (rows.filter (·.key = k))

def pointOf (bucket : ℕ) : ℕ :=
  if 300 < q.stepSeconds then toStartOfInterval q.stepSeconds bucket else bucket

def total (c : CountColumn) (b : ℕ) : ℕ :=
  ∑ x ∈ bucketsOf (destinationRows q table) with pointOf q x = b,
    bucketTotal A c (rowsAt (destinationRows q table) x)

def SeriesExact : Prop :=
  ∀ p ∈ throughputSeries A q table, ∀ c, p.count c = total A q table c p.bucket

def NewestHasAll (rows : List StatsRow) : Prop :=
  ∀ c, ∀ r ∈ A.row c rows, ∀ k ∈ keysOf rows, k ≠ r.key →
    argMaxCount A c (rows.filter (·.key = k)) = 0

end Totals

section Buckets

variable {A q table} {c : CountColumn} {rows : List StatsRow} {b x y : ℕ}

theorem mem_bucketsOf : x ∈ bucketsOf rows ↔ ∃ r ∈ rows, r.bucket = x := by
  rw [bucketsOf, List.mem_toFinset, List.mem_map]

theorem argMaxCount_nil : argMaxCount A c [] = 0 := by
  rw [argMaxCount, (A.row_eq_none c []).mpr rfl]
  rfl

theorem bucketTotal_eq {r : StatsRow} (hr : A.row c rows = some r) :
    argMaxCount A c rows = argMaxCount A c (rows.filter (·.key = r.key)) ∧
      bucketTotal A c rows = argMaxCount A c rows +
        ∑ k ∈ (keysOf rows).erase r.key, argMaxCount A c (rows.filter (·.key = k)) := by
  have hsame := A.row_filter c rows r (fun s => s.key = r.key) hr (decide_eq_true rfl)
  have hcount : argMaxCount A c rows = argMaxCount A c (rows.filter (·.key = r.key)) := by
    rw [argMaxCount, argMaxCount, hr, hsame]
  have hkey : r.key ∈ keysOf rows :=
    List.mem_toFinset.mpr (List.mem_map_of_mem (A.row_newest c rows r hr).1)
  refine ⟨hcount, ?_⟩
  rw [bucketTotal, hcount]
  exact (Finset.add_sum_erase _ _ hkey).symm

theorem argMaxCount_le : argMaxCount A c rows ≤ bucketTotal A c rows := by
  cases hr : A.row c rows with
  | none =>
    rw [(A.row_eq_none c rows).mp hr, argMaxCount_nil]
    exact Nat.zero_le _
  | some r =>
    rw [(bucketTotal_eq hr).2]
    exact Nat.le_add_right _ _

theorem argMaxCount_lt : argMaxCount A c rows < 2 ^ 64 := by
  unfold argMaxCount
  cases A.row c rows with
  | none => exact Nat.two_pow_pos 64
  | some r => exact r.count_lt c

theorem newestHasAll_iff :
    NewestHasAll A rows ↔ ∀ c, argMaxCount A c rows = bucketTotal A c rows := by
  unfold NewestHasAll
  refine forall_congr' fun c => ?_
  cases hr : A.row c rows with
  | none =>
    rw [(A.row_eq_none c rows).mp hr]
    simp [argMaxCount_nil, bucketTotal, keysOf]
  | some r =>
    rw [(bucketTotal_eq hr).2]
    constructor
    · intro h
      rw [Finset.sum_eq_zero, Nat.add_zero]
      intro k hk
      exact h r rfl k (Finset.mem_of_mem_erase hk) (Finset.ne_of_mem_erase hk)
    · rintro h _ ⟨⟩ k hk hne
      have hzero : ∑ k ∈ (keysOf rows).erase r.key, argMaxCount A c (rows.filter (·.key = k)) = 0 := by
        omega
      exact Finset.sum_eq_zero_iff.mp hzero k (Finset.mem_erase.mpr ⟨hne, hk⟩)

end Buckets

section Ranges

variable {A q table} {c : CountColumn} {b x y : ℕ}

def Aligned (q : ThroughputQuery) : Prop :=
  ∃ i j, q.fromMs = i * q.stepSeconds * 1000 ∧ q.toMs = j * q.stepSeconds * 1000

theorem inRange_of_pointOf (h : Aligned q) (hxy : pointOf q x = pointOf q y) (hx : q.InRange x) :
    q.InRange y := by
  unfold pointOf at hxy
  split at hxy
  · obtain ⟨i, j, hfrom, hto⟩ := h
    have hdiv : x / q.stepSeconds = y / q.stepSeconds :=
      Nat.eq_of_mul_eq_mul_right q.stepSeconds_pos hxy
    obtain ⟨hlow, hhigh⟩ := hx
    rw [hfrom] at hlow
    rw [hto] at hhigh
    have hi : i ≤ x / q.stepSeconds := by
      rw [Nat.le_div_iff_mul_le q.stepSeconds_pos]
      exact Nat.le_of_mul_le_mul_right hlow (by decide)
    have hj : x / q.stepSeconds < j := by
      rw [Nat.div_lt_iff_lt_mul q.stepSeconds_pos]
      exact Nat.lt_of_mul_lt_mul_right hhigh
    rw [hdiv, Nat.le_div_iff_mul_le q.stepSeconds_pos] at hi
    rw [hdiv, Nat.div_lt_iff_lt_mul q.stepSeconds_pos] at hj
    refine ⟨?_, ?_⟩
    · rw [hfrom]
      exact Nat.mul_le_mul_right 1000 hi
    · rw [hto]
      exact Nat.mul_lt_mul_of_pos_right hj (by decide)
  · exact hxy ▸ hx

variable (hkind : q.destinationKind = none) (hhost : q.virtualHost = none)

include hkind hhost

theorem selected_eq :
    selected q table = (destinationRows q table).filter fun r => q.InRange r.bucket := by
  unfold selected destinationRows
  rw [List.filter_filter]
  refine List.filter_congr fun r _ => ?_
  rw [hkind, hhost, Bool.eq_iff_iff, Bool.and_eq_true, decide_eq_true_iff, decide_eq_true_iff,
    decide_eq_true_iff]
  constructor
  · rintro ⟨hrange, hsystem, hname, -⟩
    exact ⟨hrange, hsystem, hname⟩
  · rintro ⟨hrange, hsystem, hname⟩
    exact ⟨hrange, hsystem, hname, fun _ h => (by cases h), fun _ h => (by cases h)⟩

theorem mem_bucketsOf_selected : x ∈ bucketsOf (selected q table) ↔
    x ∈ bucketsOf (destinationRows q table) ∧ q.InRange x := by
  rw [selected_eq hkind hhost, mem_bucketsOf, mem_bucketsOf]
  constructor
  · rintro ⟨r, hr, rfl⟩
    obtain ⟨hr, hrange⟩ := List.mem_filter.mp hr
    exact ⟨⟨r, hr, rfl⟩, of_decide_eq_true hrange⟩
  · rintro ⟨⟨r, hr, rfl⟩, hrange⟩
    exact ⟨r, List.mem_filter.mpr ⟨hr, decide_eq_true hrange⟩, rfl⟩

theorem rowsAt_selected (hx : q.InRange x) :
    rowsAt (selected q table) x = rowsAt (destinationRows q table) x := by
  rw [selected_eq hkind hhost, rowsAt, rowsAt, List.filter_filter]
  refine List.filter_congr fun r _ => ?_
  rw [Bool.eq_iff_iff, Bool.and_eq_true, decide_eq_true_iff, decide_eq_true_iff]
  refine and_iff_left_of_imp ?_
  rintro rfl
  exact hx

theorem total_eq (h : Aligned q) (hx : x ∈ bucketsOf (selected q table)) :
    total A q table c (pointOf q x) =
      ∑ y ∈ bucketsOf (selected q table) with pointOf q y = pointOf q x,
        bucketTotal A c (rowsAt (selected q table) y) := by
  have hrange := ((mem_bucketsOf_selected hkind hhost).mp hx).2
  unfold total
  have hbuckets : (bucketsOf (destinationRows q table)).filter (pointOf q · = pointOf q x) =
      (bucketsOf (selected q table)).filter (pointOf q · = pointOf q x) := by
    ext y
    rw [Finset.mem_filter, Finset.mem_filter, mem_bucketsOf_selected hkind hhost]
    constructor
    · rintro ⟨hy, hpoint⟩
      exact ⟨⟨hy, inRange_of_pointOf h hpoint.symm hrange⟩, hpoint⟩
    · rintro ⟨⟨hy, -⟩, hpoint⟩
      exact ⟨hy, hpoint⟩
  rw [hbuckets]
  refine Finset.sum_congr rfl fun y hy => ?_
  rw [Finset.mem_filter] at hy
  rw [rowsAt_selected hkind hhost ((mem_bucketsOf_selected hkind hhost).mp hy.1).2]

omit hkind hhost in
theorem sum_mod_eq_iff {s : Finset ℕ} {f g : ℕ → ℕ} (h : ∀ x ∈ s, f x ≤ g x) :
    (∑ x ∈ s, f x) % 2 ^ 64 = ∑ x ∈ s, g x ↔ (∀ x ∈ s, f x = g x) ∧ ∑ x ∈ s, g x < 2 ^ 64 := by
  have hle : ∑ x ∈ s, f x ≤ ∑ x ∈ s, g x := Finset.sum_le_sum h
  constructor
  · intro heq
    have hmod := Nat.mod_le (∑ x ∈ s, f x) (2 ^ 64)
    have hlt : (∑ x ∈ s, f x) % 2 ^ 64 < 2 ^ 64 := Nat.mod_lt _ (Nat.two_pow_pos 64)
    have hsums : ∑ x ∈ s, f x = ∑ x ∈ s, g x := Nat.le_antisymm hle (heq ▸ hmod)
    exact ⟨(Finset.sum_eq_sum_iff_of_le h).mp hsums, heq ▸ hlt⟩
  · rintro ⟨heq, hlt⟩
    rw [Finset.sum_congr rfl heq, Nat.mod_eq_of_lt hlt]

omit hkind hhost in
theorem series_iff {P : CountColumn → ℕ → ℕ → Prop} :
    (∀ p ∈ throughputSeries A q table, ∀ c, P c p.bucket (p.count c)) ↔
      ∀ x ∈ bucketsOf (selected q table), ∀ c, P c (pointOf q x)
        (if 300 < q.stepSeconds then
          (∑ y ∈ bucketsOf (selected q table) with pointOf q y = pointOf q x,
            argMaxCount A c (rowsAt (selected q table) y)) % 2 ^ 64
        else argMaxCount A c (rowsAt (selected q table) x)) := by
  unfold throughputSeries pointOf
  by_cases hstep : 300 < q.stepSeconds
  · simp only [if_pos hstep, List.forall_mem_map, Finset.mem_sort, Finset.forall_mem_image]
  · simp only [if_neg hstep, List.forall_mem_map, Finset.mem_sort]

theorem total_eq_bucketTotal (h : Aligned q) (hstep : ¬ 300 < q.stepSeconds)
    (hx : x ∈ bucketsOf (selected q table)) :
    total A q table c (pointOf q x) = bucketTotal A c (rowsAt (selected q table) x) := by
  have hself : (bucketsOf (selected q table)).filter (pointOf q · = pointOf q x) = {x} := by
    ext y
    rw [Finset.mem_filter, Finset.mem_singleton, pointOf, pointOf, if_neg hstep, if_neg hstep]
    constructor
    · exact And.right
    · rintro rfl
      exact ⟨hx, rfl⟩
  rw [total_eq hkind hhost h hx, hself, Finset.sum_singleton]

theorem throughput_exact_iff (h : Aligned q) : SeriesExact A q table ↔
    (∀ x ∈ bucketsOf (selected q table), NewestHasAll A (rowsAt (selected q table) x)) ∧
      ∀ x ∈ bucketsOf (selected q table), ∀ c, total A q table c (pointOf q x) < 2 ^ 64 := by
  unfold SeriesExact
  rw [series_iff (P := fun c b n => n = total A q table c b)]
  by_cases hstep : 300 < q.stepSeconds
  · simp only [if_pos hstep]
    have hsums (x : ℕ) (hx : x ∈ bucketsOf (selected q table)) (c : CountColumn) :
        ((∑ y ∈ bucketsOf (selected q table) with pointOf q y = pointOf q x,
          argMaxCount A c (rowsAt (selected q table) y)) % 2 ^ 64 =
            total A q table c (pointOf q x)) ↔
        (∀ y ∈ (bucketsOf (selected q table)).filter (pointOf q · = pointOf q x),
          argMaxCount A c (rowsAt (selected q table) y) =
            bucketTotal A c (rowsAt (selected q table) y)) ∧
          total A q table c (pointOf q x) < 2 ^ 64 := by
      rw [total_eq hkind hhost h hx]
      exact sum_mod_eq_iff fun y _ => argMaxCount_le
    constructor
    · intro hexact
      refine ⟨fun x hx => newestHasAll_iff.mpr fun c => ?_, fun x hx c => ?_⟩
      · exact ((hsums x hx c).mp (hexact x hx c)).1 x (Finset.mem_filter.mpr ⟨hx, rfl⟩)
      · exact ((hsums x hx c).mp (hexact x hx c)).2
    · rintro ⟨hnewest, hlt⟩ x hx c
      refine (hsums x hx c).mpr ⟨fun y hy => ?_, hlt x hx c⟩
      exact newestHasAll_iff.mp (hnewest y (Finset.mem_filter.mp hy).1) c
  · simp only [if_neg hstep]
    have htotal (x : ℕ) (hx : x ∈ bucketsOf (selected q table)) (c : CountColumn) :
        total A q table c (pointOf q x) = bucketTotal A c (rowsAt (selected q table) x) :=
      total_eq_bucketTotal hkind hhost h hstep hx
    constructor
    · intro hexact
      refine ⟨fun x hx => newestHasAll_iff.mpr fun c => ?_, fun x hx c => ?_⟩
      · exact (hexact x hx c).trans (htotal x hx c)
      · rw [← hexact x hx c]
        exact argMaxCount_lt
    · rintro ⟨hnewest, -⟩ x hx c
      rw [htotal x hx c]
      exact newestHasAll_iff.mp (hnewest x hx) c

end Ranges

namespace Sample

def firstNewest : List StatsRow → Option StatsRow
  | [] => none
  | r :: rows =>
    match firstNewest rows with
    | none => some r
    | some s => if s.compactedAt ≤ r.compactedAt then some r else some s

theorem firstNewest_eq_none {rows : List StatsRow} : firstNewest rows = none ↔ rows = [] := by
  cases rows with
  | nil => exact iff_of_true rfl rfl
  | cons r rows =>
    rw [firstNewest]
    split
    · simp
    · split <;> simp

theorem firstNewest_newest {rows : List StatsRow} {r : StatsRow} (h : firstNewest rows = some r) :
    r ∈ rows ∧ ∀ s ∈ rows, s.compactedAt ≤ r.compactedAt := by
  induction rows generalizing r with
  | nil => cases h
  | cons first rows ih =>
    rw [firstNewest] at h
    split at h
    · rename_i hnone
      obtain rfl := Option.some.inj h
      rw [firstNewest_eq_none.mp hnone]
      simp
    · rename_i later hlater
      obtain ⟨hmem, hle⟩ := ih hlater
      split at h
      · rename_i hfirst
        obtain rfl := Option.some.inj h
        refine ⟨List.mem_cons_self, ?_⟩
        rintro s (_ | ⟨_, hs⟩)
        · exact le_rfl
        · exact (hle s hs).trans hfirst
      · rename_i hfirst
        obtain rfl := Option.some.inj h
        refine ⟨List.mem_cons_of_mem _ hmem, ?_⟩
        rintro s (_ | ⟨_, hs⟩)
        · omega
        · exact hle s hs

theorem firstNewest_filter {rows : List StatsRow} {r : StatsRow} {p : StatsRow → Bool}
    (h : firstNewest rows = some r) (hp : p r = true) : firstNewest (rows.filter p) = some r := by
  induction rows generalizing r with
  | nil => cases h
  | cons first rows ih =>
    rw [firstNewest] at h
    split at h
    · rename_i hnone
      obtain rfl := Option.some.inj h
      rw [firstNewest_eq_none.mp hnone]
      simp [hp, firstNewest]
    · rename_i later hlater
      split at h
      · rename_i hfirst
        obtain rfl := Option.some.inj h
        rw [List.filter_cons_of_pos hp, firstNewest]
        split
        · rfl
        · rename_i s hs
          have hmem := List.mem_of_mem_filter (firstNewest_newest hs).1
          have hle := (firstNewest_newest hlater).2 s hmem
          rw [if_pos (hle.trans hfirst)]
      · rename_i hfirst
        obtain rfl := Option.some.inj h
        have hrest := ih hlater hp
        by_cases hpfirst : p first = true
        · rw [List.filter_cons_of_pos hpfirst, firstNewest, hrest]
          exact if_neg hfirst
        · rw [List.filter_cons_of_neg hpfirst]
          exact hrest

def argMax : ArgMax where
  row _ := firstNewest
  row_eq_none _ _ := firstNewest_eq_none
  row_newest _ _ _ := firstNewest_newest
  row_filter _ _ _ _ := firstNewest_filter

def row (kind : String) (compactedAt produced : ℕ) (h : produced < 2 ^ 64) : StatsRow :=
  { bucket := 600, system := "s", destinationName := "d", destinationKind := kind
    virtualHost := "", compactedAt
    count := fun c => if c = .producedCount then produced else 0
    count_lt := fun c => by split <;> omega }

def query : ThroughputQuery :=
  { system := "s", destinationName := "d", destinationKind := none, virtualHost := none
    fromMs := 0, toMs := 900000, stepSeconds := 300, stepSeconds_pos := by decide }

def versions : List StatsRow := [row "q" 1 5 (by decide), row "q" 2 7 (by decide)]

def kinds : List StatsRow := [row "q" 1 5 (by decide), row "t" 2 7 (by decide)]

instance : Fintype CountColumn where
  elems := {.producedCount, .consumedCount, .ackCount, .nackCount, .rejectCount, .timeoutCount,
    .deadLetterCount, .retryCount, .ackLatencySumMs, .ackSampleCount}
  complete := fun c => by cases c <;> decide

theorem aligned : Aligned query := ⟨0, 3, by decide⟩

end Sample

theorem versions_exact : SeriesExact Sample.argMax Sample.query Sample.versions := by
  apply (throughput_exact_iff rfl rfl Sample.aligned).mpr
  constructor
  · have hcounts : ∀ x ∈ bucketsOf (selected Sample.query Sample.versions), ∀ c,
        argMaxCount Sample.argMax c (rowsAt (selected Sample.query Sample.versions) x) =
          bucketTotal Sample.argMax c (rowsAt (selected Sample.query Sample.versions) x) := by
      decide +kernel
    exact fun x hx => newestHasAll_iff.mpr (hcounts x hx)
  · decide +kernel

theorem kinds_not_exact : ¬ ∀ (A : ArgMax) (q : ThroughputQuery) (table : List StatsRow),
    q.destinationKind = none → q.virtualHost = none → Aligned q → SeriesExact A q table := by
  intro h
  have hexact := h Sample.argMax Sample.query Sample.kinds rfl rfl Sample.aligned
  unfold SeriesExact at hexact
  rw [series_iff (P := fun c b n => n = total Sample.argMax Sample.query Sample.kinds c b)]
    at hexact
  exact absurd (hexact 600 (by decide +kernel) .producedCount) (by decide +kernel)

end Acps.Message.Throughput
