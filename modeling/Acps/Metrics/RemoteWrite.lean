import Acps.Lib.Dict
import Acps.Lib.Wire
import Mathlib.Data.Finset.Dedup
import Mathlib.Data.List.Induction
import Mathlib.Data.List.Sort
import Mathlib.Data.Prod.Lex
import Mathlib.Data.String.Basic

/-!
What is sent to the store of metrics: samples are grouped into time series, one for each metric and
set of labels, and written as the messages of Remote Write.
-/

namespace Acps.Metrics.Prompb

open Wire

structure Label where
  name : String
  value : String
  deriving DecidableEq

/-- A float is the 64 bits it is kept in. -/
structure Sample where
  value : UInt64
  timestampMs : ℤ
  deriving DecidableEq

structure TimeSeries where
  labels : List Label
  samples : List Sample
  deriving DecidableEq

structure WriteRequest where
  timeseries : List TimeSeries
  deriving DecidableEq

def Label.encode (l : Label) : Bytes := encodeStringField 1 l.name ++ encodeStringField 2 l.value

def Sample.encode (s : Sample) : Option Bytes :=
  (encodeInt64Field 2 s.timestampMs).map (encodeDoubleField 1 s.value ++ ·)

def TimeSeries.encode (ts : TimeSeries) : Option Bytes := do
  let samples ← ts.samples.mapM fun sample => sample.encode.map (encodeBytesField 2)
  return (ts.labels.map fun label => encodeBytesField 1 label.encode).flatten ++ samples.flatten

def WriteRequest.encode (wr : WriteRequest) : Option Bytes := do
  let parts ← wr.timeseries.mapM fun ts => ts.encode.map (encodeBytesField 1)
  return parts.flatten

def Label.setField (l : Label) (fieldNumber : ℕ) : WireValue → Except WireError Label
  | .bytes fv =>
    if fieldNumber = 1 then (decodeUtf8 fv).map fun name => { l with name }
    else if fieldNumber = 2 then (decodeUtf8 fv).map fun value => { l with value }
    else .ok l
  | _ => .ok l

def decodeLabel (data : Bytes) : Except WireError Label := foldFields Label.setField data ⟨"", ""⟩

def Sample.setField (s : Sample) (fieldNumber : ℕ) : WireValue → Except WireError Sample
  | .float value => .ok (if fieldNumber = 1 then { s with value } else s)
  | .int fv =>
    let timestampMs : ℤ := if 2 ^ 63 ≤ fv then fv - 2 ^ 64 else fv
    .ok (if fieldNumber = 2 then { s with timestampMs } else s)
  | .bytes _ => .ok s

def decodeSample (data : Bytes) : Except WireError Sample := foldFields Sample.setField data ⟨0, 0⟩

def TimeSeries.setField (ts : TimeSeries) (fieldNumber : ℕ) : WireValue → Except WireError TimeSeries
  | .bytes value =>
    if fieldNumber = 1 then (decodeLabel value).map fun l => { ts with labels := ts.labels ++ [l] }
    else if fieldNumber = 2 then
      (decodeSample value).map fun s => { ts with samples := ts.samples ++ [s] }
    else .ok ts
  | _ => .ok ts

def decodeTimeseries (data : Bytes) : Except WireError TimeSeries :=
  foldFields TimeSeries.setField data ⟨[], []⟩

def WriteRequest.setField (wr : WriteRequest) (fieldNumber : ℕ) :
    WireValue → Except WireError WriteRequest
  | .bytes value =>
    if fieldNumber = 1 then (decodeTimeseries value).map fun ts => ⟨wr.timeseries ++ [ts]⟩
    else .ok wr
  | _ => .ok wr

def decodeWriteRequest (data : Bytes) : Except WireError WriteRequest :=
  foldFields WriteRequest.setField data ⟨[]⟩

section RoundTrip

def rereadTimestamp (t : ℤ) : ℤ :=
  let fv := if t < 0 then t + 2 ^ 64 else t
  if 2 ^ 63 ≤ fv then fv - 2 ^ 64 else fv

def Sample.reread (s : Sample) : Sample := { s with timestampMs := rereadTimestamp s.timestampMs }

def TimeSeries.reread (ts : TimeSeries) : TimeSeries :=
  { ts with samples := ts.samples.map Sample.reread }

theorem rereadTimestamp_eq_iff {t : ℤ} (h : -2 ^ 64 ≤ t) :
    rereadTimestamp t = t ↔ -2 ^ 63 ≤ t ∧ t < 2 ^ 63 := by
  unfold rereadTimestamp
  dsimp only
  split <;> split <;> omega

theorem mapM_fields {α : Type} {encode : α → Option Bytes} {fieldNumber : ℕ} {as : List α}
    {parts : List Bytes}
    (h : (as.mapM fun a => (encode a).map (encodeBytesField fieldNumber)) = some parts) :
    (∀ a ∈ as, encode a = some ((encode a).getD [])) ∧
      parts = as.map fun a => encodeBytesField fieldNumber ((encode a).getD []) := by
  induction as generalizing parts with
  | nil =>
    obtain rfl := Option.some.inj h
    exact ⟨fun a ha => absurd ha List.not_mem_nil, rfl⟩
  | cons a as ih =>
    rw [List.mapM_cons] at h
    obtain ⟨part, hpart, h⟩ := Option.bind_eq_some_iff.mp h
    obtain ⟨bytes, hbytes, rfl⟩ := Option.map_eq_some_iff.mp hpart
    obtain ⟨rest, hrest, h⟩ := Option.bind_eq_some_iff.mp h
    obtain rfl := Option.some.inj h
    obtain ⟨hall, rfl⟩ := ih hrest
    refine ⟨List.forall_mem_cons.mpr ⟨by rw [hbytes]; rfl, hall⟩, ?_⟩
    rw [List.map_cons, hbytes, Option.getD_some]

theorem encodeInt64Field_eq_some {fieldNumber : ℕ} {t : ℤ} {bytes : Bytes}
    (h : encodeInt64Field fieldNumber t = some bytes) :
    -2 ^ 64 ≤ t ∧ bytes = encodeTag fieldNumber 0 ++
      encodeVarint (if t < 0 then t + 2 ^ 64 else t).toNat := by
  unfold encodeInt64Field at h
  by_cases hneg : (if t < 0 then t + 2 ^ 64 else t) < 0
  · rw [if_pos hneg] at h
    cases h
  · rw [if_neg hneg] at h
    refine ⟨?_, (Option.some.inj h).symm⟩
    split at hneg <;> omega

theorem decodeLabel_encode (l : Label) : decodeLabel l.encode = .ok l := by
  unfold decodeLabel Label.encode encodeStringField
  rw [foldFields_bytes, ← List.append_nil (encodeBytesField 2 _), Label.setField, if_pos rfl,
    decodeUtf8_toUTF8]
  dsimp only [Except.map, bind, Except.bind]
  rw [foldFields_bytes, Label.setField, if_neg (by decide), if_pos rfl, decodeUtf8_toUTF8]
  exact foldFields_nil

theorem decodeSample_encode {s : Sample} {bytes : Bytes} (h : s.encode = some bytes) :
    decodeSample bytes = .ok s.reread := by
  obtain ⟨written, hwritten, rfl⟩ := Option.map_eq_some_iff.mp h
  obtain ⟨hlow, rfl⟩ := encodeInt64Field_eq_some hwritten
  have hpositive : 0 ≤ if s.timestampMs < 0 then s.timestampMs + 2 ^ 64 else s.timestampMs := by
    split <;> omega
  unfold decodeSample
  rw [foldFields_of_readField (readField_double _), ← List.append_nil (encodeTag 2 0 ++ _)]
  dsimp only [bind, Except.bind, Sample.setField]
  rw [foldFields_of_readField readField_int, Sample.reread, rereadTimestamp]
  dsimp only [bind, Except.bind, Sample.setField]
  generalize (if s.timestampMs < 0 then s.timestampMs + 2 ^ 64 else s.timestampMs) = fv at hpositive
  obtain ⟨n, rfl⟩ := Int.eq_ofNat_of_zero_le hpositive
  have hhalf : (2 ^ 63 ≤ (n : ℤ)) ↔ 2 ^ 63 ≤ n := by norm_cast
  rw [Int.toNat_natCast, foldFields_nil, if_pos rfl, if_pos rfl]
  simp only [hhalf]

theorem decodeTimeseries_encode {ts : TimeSeries} {bytes : Bytes} (h : ts.encode = some bytes) :
    decodeTimeseries bytes = .ok ts.reread := by
  obtain ⟨parts, hparts, h⟩ := Option.bind_eq_some_iff.mp h
  obtain rfl := Option.some.inj h
  obtain ⟨hencoded, rfl⟩ := mapM_fields hparts
  have hlabels : ∀ l ∈ ts.labels, ∀ done, TimeSeries.setField ⟨done, []⟩ 1 (.bytes l.encode) =
      .ok ⟨done ++ [l], []⟩ := by
    intro l _ done
    rw [TimeSeries.setField, if_pos rfl, decodeLabel_encode]
    rfl
  have hsamples : ∀ s ∈ ts.samples, ∀ done : List Sample,
      TimeSeries.setField ⟨ts.labels, done.map Sample.reread⟩ 2 (.bytes (s.encode.getD [])) =
        .ok ⟨ts.labels, (done ++ [s]).map Sample.reread⟩ := by
    intro s hs done
    rw [TimeSeries.setField, if_neg (by decide), if_pos rfl, decodeSample_encode (hencoded s hs),
      List.map_append]
    rfl
  refine (foldFields_flatten (fun done => TimeSeries.mk done []) hlabels []).trans ?_
  rw [← List.append_nil (List.flatten _)]
  refine (foldFields_flatten (fun done => TimeSeries.mk ts.labels (done.map Sample.reread))
    hsamples []).trans ?_
  exact foldFields_nil

theorem decodeWriteRequest_encode {wr : WriteRequest} {bytes : Bytes} (h : wr.encode = some bytes) :
    decodeWriteRequest bytes = .ok ⟨wr.timeseries.map TimeSeries.reread⟩ := by
  obtain ⟨parts, hparts, h⟩ := Option.bind_eq_some_iff.mp h
  obtain rfl := Option.some.inj h
  obtain ⟨hencoded, rfl⟩ := mapM_fields hparts
  have hseries : ∀ ts ∈ wr.timeseries, ∀ done : List TimeSeries,
      WriteRequest.setField ⟨done.map TimeSeries.reread⟩ 1 (.bytes (ts.encode.getD [])) =
        .ok ⟨(done ++ [ts]).map TimeSeries.reread⟩ := by
    intro ts hts done
    rw [WriteRequest.setField, if_pos rfl, decodeTimeseries_encode (hencoded ts hts), List.map_append]
    rfl
  unfold decodeWriteRequest
  rw [← List.append_nil (List.flatten _)]
  refine (foldFields_flatten (fun done => WriteRequest.mk (done.map TimeSeries.reread)) hseries []).trans ?_
  exact foldFields_nil

theorem exists_mapM_fields {α : Type} {encode : α → Option Bytes} {fieldNumber : ℕ} {as : List α}
    (h : ∀ a ∈ as, ∃ bytes, encode a = some bytes) :
    ∃ parts, (as.mapM fun a => (encode a).map (encodeBytesField fieldNumber)) = some parts := by
  induction as with
  | nil => exact ⟨[], rfl⟩
  | cons a as ih =>
    obtain ⟨bytes, hbytes⟩ := h a List.mem_cons_self
    obtain ⟨parts, hparts⟩ := ih fun b hb => h b (List.mem_cons_of_mem a hb)
    exact ⟨_, by rw [List.mapM_cons, hbytes, hparts]; rfl⟩

theorem exists_encode {wr : WriteRequest}
    (h : ∀ ts ∈ wr.timeseries, ∀ s ∈ ts.samples, -2 ^ 64 ≤ s.timestampMs) :
    ∃ bytes, wr.encode = some bytes := by
  have hseries : ∀ ts ∈ wr.timeseries, ∃ bytes, ts.encode = some bytes := by
    intro ts hts
    have hsamples : ∀ s ∈ ts.samples, ∃ bytes, s.encode = some bytes := by
      intro s hs
      have hlow := h ts hts s hs
      have hnonneg : ¬ (if s.timestampMs < 0 then s.timestampMs + 2 ^ 64 else s.timestampMs) < 0 := by
        split <;> omega
      exact ⟨_, by rw [Sample.encode, encodeInt64Field, if_neg hnonneg]; rfl⟩
    obtain ⟨parts, hparts⟩ := exists_mapM_fields hsamples
    exact ⟨_, by rw [TimeSeries.encode, hparts]; rfl⟩
  obtain ⟨parts, hparts⟩ := exists_mapM_fields hseries
  exact ⟨_, by rw [WriteRequest.encode, hparts]; rfl⟩

theorem timestamps_of_encode {wr : WriteRequest} {bytes : Bytes} (h : wr.encode = some bytes) :
    ∀ ts ∈ wr.timeseries, ∀ s ∈ ts.samples, -2 ^ 64 ≤ s.timestampMs := by
  intro ts hts s hs
  obtain ⟨parts, hparts, -⟩ := Option.bind_eq_some_iff.mp h
  obtain ⟨series, hseries, -⟩ := Option.bind_eq_some_iff.mp ((mapM_fields hparts).1 ts hts)
  obtain ⟨written, hwritten, -⟩ := Option.map_eq_some_iff.mp ((mapM_fields hseries).1 s hs)
  exact (encodeInt64Field_eq_some hwritten).1

theorem map_eq_self_iff {α : Type} {f : α → α} {as : List α} : as.map f = as ↔ ∀ a ∈ as, f a = a := by
  have h : as.map f = as.map id ↔ ∀ a ∈ as, f a = id a := List.map_inj_left
  rwa [List.map_id] at h

theorem decodeWriteRequest_eq_self {wr : WriteRequest} {bytes : Bytes} (h : wr.encode = some bytes) :
    decodeWriteRequest bytes = .ok wr ↔
      ∀ ts ∈ wr.timeseries, ∀ s ∈ ts.samples, -2 ^ 63 ≤ s.timestampMs ∧ s.timestampMs < 2 ^ 63 := by
  have hsample (s : Sample) : s.reread = s ↔ rereadTimestamp s.timestampMs = s.timestampMs := by
    cases s
    simp [Sample.reread]
  have hseries (ts : TimeSeries) : ts.reread = ts ↔ ts.samples.map Sample.reread = ts.samples := by
    cases ts
    simp [TimeSeries.reread]
  have hrequest : (⟨wr.timeseries.map TimeSeries.reread⟩ : WriteRequest) = wr ↔
      wr.timeseries.map TimeSeries.reread = wr.timeseries := by
    cases wr
    simp
  rw [decodeWriteRequest_encode h, Except.ok.injEq, hrequest, map_eq_self_iff]
  refine forall₂_congr fun ts hts => ?_
  rw [hseries, map_eq_self_iff]
  refine forall₂_congr fun s hs => ?_
  rw [hsample, rereadTimestamp_eq_iff (timestamps_of_encode h ts hts s hs)]

theorem exists_decoded {wr : WriteRequest}
    (h : ∀ ts ∈ wr.timeseries, ∀ s ∈ ts.samples, -2 ^ 63 ≤ s.timestampMs ∧ s.timestampMs < 2 ^ 63) :
    ∃ bytes, wr.encode = some bytes ∧ decodeWriteRequest bytes = .ok wr := by
  obtain ⟨bytes, hencode⟩ := exists_encode fun ts hts s hs => by
    have := (h ts hts s hs).1
    omega
  exact ⟨bytes, hencode, (decodeWriteRequest_eq_self hencode).mpr h⟩

/-- A request is read as it was written exactly if its times fit into 64 bits with a sign. -/
theorem write_request_round_trip_iff (wr : WriteRequest) :
    (∃ bytes, wr.encode = some bytes ∧ decodeWriteRequest bytes = .ok wr) ↔
      ∀ ts ∈ wr.timeseries, ∀ s ∈ ts.samples, -2 ^ 63 ≤ s.timestampMs ∧ s.timestampMs < 2 ^ 63 := by
  constructor
  · rintro ⟨bytes, hencode, hdecode⟩
    exact (decodeWriteRequest_eq_self hencode).mp hdecode
  · exact exists_decoded

end RoundTrip

end Acps.Metrics.Prompb

namespace Acps.Metrics

open Wire

structure Sample where
  metricName : String
  labels : Dict String String
  value : UInt64
  timestampMs : ℤ

abbrev SeriesKey := String × Finset (String × String)

def Sample.key (s : Sample) : SeriesKey := (s.metricName, s.labels.entries.toFinset)

def grouped (samples : List Sample) : Dict SeriesKey (List Sample) :=
  samples.foldl (fun grouped s => grouped.set s.key ((grouped.get s.key).getD [] ++ [s])) .empty

def sortedItems (labels : Dict String String) : List (String ×ₗ String) :=
  (labels.entries.map toLex).insertionSort (· ≤ ·)

def seriesLabels (metricName : String) (labels : Dict String String) : List Prompb.Label :=
  ⟨"__name__", metricName⟩ :: (sortedItems labels).map fun item => ⟨(ofLex item).1, (ofLex item).2⟩

/-- No group is empty, so that the first sample of one is always there. -/
def buildWriteRequest (samples : List Sample) : Option Prompb.WriteRequest := do
  let timeSeriesList ← (grouped samples).entries.mapM fun (key, group) =>
    group.head?.map fun first =>
      (⟨seriesLabels key.1 first.labels, group.map fun s => ⟨s.value, s.timestampMs⟩⟩ :
        Prompb.TimeSeries)
  return ⟨timeSeriesList⟩

def encodeWriteRequest (samples : List Sample) : Option Bytes :=
  buildWriteRequest samples >>= Prompb.WriteRequest.encode

structure Carries (wr : Prompb.WriteRequest) (samples : List Sample) : Prop where
  distinct : (wr.timeseries.map Prompb.TimeSeries.labels).Nodup
  known : ∀ ts ∈ wr.timeseries, ∃ s ∈ samples, ts.labels = seriesLabels s.metricName s.labels
  exact : ∀ s : Sample,
    (wr.timeseries.filter (·.labels = seriesLabels s.metricName s.labels)).flatMap
        Prompb.TimeSeries.samples =
      (samples.filter (·.key = s.key)).map fun t => ⟨t.value, t.timestampMs⟩

section Grouping

variable {samples : List Sample}

theorem grouped_append (samples : List Sample) (s : Sample) :
    grouped (samples ++ [s]) =
      (grouped samples).set s.key (((grouped samples).get s.key).getD [] ++ [s]) := by
  rw [grouped, List.foldl_append]
  rfl

theorem get_grouped (samples : List Sample) (k : SeriesKey) :
    (grouped samples).get k =
      if samples.filter (·.key = k) = [] then none else some (samples.filter (·.key = k)) := by
  induction samples using List.reverseRecOn with
  | nil => rfl
  | append_singleton samples s ih =>
    rw [grouped_append, List.filter_append]
    by_cases hk : s.key = k
    · subst hk
      rw [Dict.get_set_self, ih, List.filter_cons_of_pos (by simp), List.filter_nil,
        if_neg (List.append_ne_nil_of_right_ne_nil _ (List.cons_ne_nil _ _))]
      split
      next hnil => rw [hnil]; rfl
      next => rfl
    · rw [Dict.get_set_ne (Ne.symm hk), ih, List.filter_cons_of_neg (by simpa using hk),
        List.filter_nil, List.append_nil]

theorem mem_grouped {k : SeriesKey} {group : List Sample} :
    (k, group) ∈ (grouped samples).entries ↔ group = samples.filter (·.key = k) ∧ group ≠ [] := by
  rw [← Dict.get_eq_some, get_grouped]
  split
  next hnil => simp [hnil]
  next hne =>
    rw [Option.some.injEq]
    constructor
    · rintro rfl
      exact ⟨rfl, hne⟩
    · exact fun h => h.1.symm

theorem sortedItems_eq_iff {d e : Dict String String} :
    sortedItems d = sortedItems e ↔ d.entries.toFinset = e.entries.toFinset := by
  have hperm (d : Dict String String) : (sortedItems d).Perm (d.entries.map toLex) :=
    List.perm_insertionSort _ _
  constructor
  · intro h
    have hmapped : (d.entries.map toLex).Perm (e.entries.map toLex) :=
      (hperm d).symm.trans (h ▸ hperm e)
    exact List.toFinset_eq_of_perm _ _ ((List.map_perm_map_iff toLex.injective).mp hmapped)
  · intro h
    have hentries : d.entries.Perm e.entries :=
      List.perm_of_nodup_nodup_toFinset_eq (d.nodup.of_map _) (e.nodup.of_map _) h
    exact ((hperm d).trans ((hentries.map toLex).trans (hperm e).symm)).eq_of_sortedLE
      List.sortedLE_insertionSort List.sortedLE_insertionSort

theorem seriesLabels_eq_iff {s t : Sample} :
    seriesLabels s.metricName s.labels = seriesLabels t.metricName t.labels ↔ s.key = t.key := by
  have hinj : Function.Injective fun item : String ×ₗ String =>
      (⟨(ofLex item).1, (ofLex item).2⟩ : Prompb.Label) := by
    intro a b h
    obtain ⟨hname, hvalue⟩ := Prompb.Label.mk.inj h
    exact ofLex.injective (Prod.ext hname hvalue)
  unfold seriesLabels Sample.key
  rw [List.cons.injEq, hinj.list_map.eq_iff, Prompb.Label.mk.injEq, sortedItems_eq_iff, Prod.mk.injEq]
  simp

def seriesOf (s : Sample) (samples : List Sample) : Prompb.TimeSeries :=
  ⟨seriesLabels s.metricName s.labels,
    (samples.filter (·.key = s.key)).map fun t => ⟨t.value, t.timestampMs⟩⟩

theorem exists_buildWriteRequest (samples : List Sample) :
    ∃ firsts : List Sample, buildWriteRequest samples = some ⟨firsts.map (seriesOf · samples)⟩ ∧
      (∀ s ∈ firsts, s ∈ samples) ∧ (firsts.map Sample.key).Nodup ∧
      ∀ s ∈ samples, s.key ∈ firsts.map Sample.key := by
  have hgroups : ∀ groups : List (SeriesKey × List Sample), (∀ e ∈ groups, e ∈ (grouped samples).entries) →
      ∃ firsts : List Sample, (∀ s ∈ firsts, s ∈ samples) ∧ firsts.map Sample.key = groups.map Prod.fst ∧
        (groups.mapM fun (e : SeriesKey × List Sample) => e.2.head?.map fun first =>
          (⟨seriesLabels e.1.1 first.labels, e.2.map fun s => ⟨s.value, s.timestampMs⟩⟩ :
            Prompb.TimeSeries)) = some (firsts.map (seriesOf · samples)) := by
    intro groups hgroups
    induction groups with
    | nil => exact ⟨[], by simp, rfl, rfl⟩
    | cons e groups ih =>
      obtain ⟨firsts, hfirsts, hkeys, hbuilt⟩ := ih fun e he => hgroups e (List.mem_cons_of_mem _ he)
      obtain ⟨k, group⟩ := e
      obtain ⟨rfl, hne⟩ := mem_grouped.mp (hgroups _ List.mem_cons_self)
      obtain ⟨first, rest, hgroup⟩ := List.exists_cons_of_ne_nil hne
      have hfirst : first ∈ samples.filter (·.key = k) := hgroup ▸ List.mem_cons_self
      obtain ⟨hmem, hkey⟩ := List.mem_filter.mp hfirst
      obtain rfl := of_decide_eq_true hkey
      refine ⟨first :: firsts, List.forall_mem_cons.mpr ⟨hmem, hfirsts⟩, by
        rw [List.map_cons, hkeys, List.map_cons], ?_⟩
      rw [List.mapM_cons, hbuilt, hgroup, List.head?_cons, ← hgroup]
      rfl
  obtain ⟨firsts, hfirsts, hkeys, hbuilt⟩ := hgroups (grouped samples).entries fun _ he => he
  refine ⟨firsts, ?_, hfirsts, hkeys ▸ (grouped samples).nodup, fun s hs => ?_⟩
  · rw [buildWriteRequest]
    exact Option.bind_eq_some_iff.mpr ⟨_, hbuilt, rfl⟩
  · rw [hkeys]
    have hgroup : (s.key, samples.filter (·.key = s.key)) ∈ (grouped samples).entries :=
      mem_grouped.mpr ⟨rfl, List.ne_nil_of_mem (List.mem_filter.mpr ⟨hs, decide_eq_true rfl⟩)⟩
    exact List.mem_map_of_mem hgroup

theorem carries_series {firsts : List Sample} (hmem : ∀ s ∈ firsts, s ∈ samples)
    (hnodup : (firsts.map Sample.key).Nodup) (hall : ∀ s ∈ samples, s.key ∈ firsts.map Sample.key) :
    Carries ⟨firsts.map (seriesOf · samples)⟩ samples where
  distinct := by
    rw [List.map_map]
    refine (List.nodup_map_iff_inj_on hnodup.of_map).mpr fun s hs t ht h => ?_
    exact List.inj_on_of_nodup_map hnodup hs ht (seriesLabels_eq_iff.mp h)
  known ts hts := by
    obtain ⟨s, hs, rfl⟩ := List.mem_map.mp hts
    exact ⟨s, hmem s hs, rfl⟩
  exact s := by
    have hseries : ((firsts.map (seriesOf · samples)).filter
        (·.labels = seriesLabels s.metricName s.labels)) =
        (firsts.filter (·.key = s.key)).map (seriesOf · samples) := by
      rw [List.filter_map]
      exact congrArg _ (List.filter_congr fun t _ => decide_eq_decide.mpr seriesLabels_eq_iff)
    have hkeys : (firsts.filter (·.key = s.key)).map Sample.key =
        List.replicate ((firsts.map Sample.key).count s.key) s.key := by
      rw [← List.filter_eq, List.filter_map]
      rfl
    rw [hseries]
    by_cases hs : s.key ∈ firsts.map Sample.key
    · rw [List.count_eq_one_of_mem hnodup hs, List.replicate_one] at hkeys
      obtain ⟨first, hfirst, hkey⟩ := List.map_eq_singleton_iff.mp hkeys
      rw [hfirst, List.map_singleton, List.flatMap_singleton, seriesOf, hkey]
    · rw [List.count_eq_zero.mpr hs, List.replicate_zero] at hkeys
      have hnone : samples.filter (·.key = s.key) = [] := by
        refine List.filter_eq_nil_iff.mpr fun t ht hkey => hs ?_
        rw [← of_decide_eq_true hkey]
        exact hall t ht
      rw [List.map_eq_nil_iff.mp hkeys, hnone]
      rfl

theorem reread_of_carries {wr : Prompb.WriteRequest} (hcarries : Carries wr samples)
    (h : Carries ⟨wr.timeseries.map Prompb.TimeSeries.reread⟩ samples) {s : Sample} (hs : s ∈ samples) :
    Prompb.rereadTimestamp s.timestampMs = s.timestampMs := by
  have hreread := h.exact s
  have hlabels : (wr.timeseries.map Prompb.TimeSeries.reread).filter
      (·.labels = seriesLabels s.metricName s.labels) =
      (wr.timeseries.filter (·.labels = seriesLabels s.metricName s.labels)).map
        Prompb.TimeSeries.reread := List.filter_map
  have hflat (series : List Prompb.TimeSeries) :
      (series.map Prompb.TimeSeries.reread).flatMap Prompb.TimeSeries.samples =
        (series.flatMap Prompb.TimeSeries.samples).map Prompb.Sample.reread := by
    rw [List.flatMap_map, List.map_flatMap]
    rfl
  rw [hlabels, hflat, hcarries.exact s, List.map_map] at hreread
  have hsame := List.map_inj_left.mp hreread s (List.mem_filter.mpr ⟨hs, decide_eq_true rfl⟩)
  exact (Prompb.Sample.mk.inj hsame).2

/-- The payload is read as a request that has each sample once, in the series of its metric and
labels, exactly if the times fit into 64 bits with a sign. -/
theorem payload_carries_iff (samples : List Sample) :
    (∃ bytes wr, encodeWriteRequest samples = some bytes ∧
      Prompb.decodeWriteRequest bytes = .ok wr ∧ Carries wr samples) ↔
      ∀ s ∈ samples, -2 ^ 63 ≤ s.timestampMs ∧ s.timestampMs < 2 ^ 63 := by
  obtain ⟨firsts, hbuilt, hmem, hnodup, hall⟩ := exists_buildWriteRequest samples
  have hcarries := carries_series hmem hnodup hall
  have hencode : encodeWriteRequest samples =
      Prompb.WriteRequest.encode ⟨firsts.map (seriesOf · samples)⟩ := by
    rw [encodeWriteRequest, hbuilt]
    rfl
  generalize (⟨firsts.map (seriesOf · samples)⟩ : Prompb.WriteRequest) = wr at hcarries hencode
  constructor
  · rintro ⟨bytes, read, hbytes, hdecode, hread⟩ s hs
    rw [hencode] at hbytes
    obtain rfl := Except.ok.inj ((Prompb.decodeWriteRequest_encode hbytes).symm.trans hdecode)
    have hmember : (⟨s.value, s.timestampMs⟩ : Prompb.Sample) ∈
        (wr.timeseries.filter (·.labels = seriesLabels s.metricName s.labels)).flatMap
          Prompb.TimeSeries.samples := by
      rw [hcarries.exact s]
      exact List.mem_map_of_mem (List.mem_filter.mpr ⟨hs, decide_eq_true rfl⟩)
    obtain ⟨ts, hts, hx⟩ := List.mem_flatMap.mp hmember
    have hlow := Prompb.timestamps_of_encode hbytes ts (List.mem_filter.mp hts).1 _ hx
    exact (Prompb.rereadTimestamp_eq_iff hlow).mp (reread_of_carries hcarries hread hs)
  · intro h
    have htimes : ∀ ts ∈ wr.timeseries, ∀ x ∈ ts.samples,
        -2 ^ 63 ≤ x.timestampMs ∧ x.timestampMs < 2 ^ 63 := by
      intro ts hts x hx
      obtain ⟨s, -, hlabels⟩ := hcarries.known ts hts
      have hmember : x ∈ (wr.timeseries.filter
          (·.labels = seriesLabels s.metricName s.labels)).flatMap Prompb.TimeSeries.samples :=
        List.mem_flatMap.mpr ⟨ts, List.mem_filter.mpr ⟨hts, decide_eq_true hlabels⟩, hx⟩
      rw [hcarries.exact s] at hmember
      obtain ⟨t, ht, rfl⟩ := List.mem_map.mp hmember
      exact h t (List.mem_filter.mp ht).1
    obtain ⟨bytes, hbytes, hdecode⟩ := Prompb.exists_decoded htimes
    exact ⟨bytes, wr, hencode.trans hbytes, hdecode, hcarries⟩

end Grouping

end Acps.Metrics
