import Acps.Lib.Sorter
import Mathlib.Data.List.Nodup
import Mathlib.Data.List.Sort

/-!
Paging by keyset: each page is taken from the rows that a bound, made of the last row of the page
before, lets through.
-/

namespace Acps.Keyset

variable {α : Type} {le : α → α → Prop} (S : Sorter le) (below : α → α → Bool) (limit : ℕ)
  (M : List α)

def follow : ℕ → List α → Option (List (List α))
  | 0, _ => none
  | fuel + 1, selected =>
    if limit < (S.order selected).length then
      match ((S.order selected).take limit).getLast? with
      | none => some [(S.order selected).take limit]
      | some last =>
        (follow fuel (M.filter (below last))).map ((S.order selected).take limit :: ·)
    else some [S.order selected]

def Complete (r : α → α → Prop) : Prop :=
  ∃ fuel pages, follow S below limit M fuel M = some pages ∧ pages.flatten.Perm M ∧
    pages.flatten.Pairwise r

/-- Behind the last row of a full page the bound lets exactly the rows through that come after. -/
def Seams (L : List α) : Prop :=
  ∀ front last rest, L = front ++ last :: rest → limit ∣ front.length + 1 → rest ≠ [] →
    ∀ a ∈ L, below last a ↔ a ∈ rest

variable {S below limit M}

theorem follow_last {fuel : ℕ} {selected : List α} (h : (S.order selected).length ≤ limit) :
    follow S below limit M (fuel + 1) selected = some [S.order selected] := by
  rw [follow, if_neg h.not_gt]

theorem follow_more {fuel : ℕ} {selected front rest : List α} {last : α}
    (hrows : S.order selected = front ++ last :: rest) (hfront : front.length + 1 = limit)
    (hrest : rest ≠ []) :
    follow S below limit M (fuel + 1) selected =
      (follow S below limit M fuel (M.filter (below last))).map ((front ++ [last]) :: ·) := by
  have htake : (S.order selected).take limit = front ++ [last] := by
    rw [hrows, ← hfront, List.take_append, List.take_of_length_le (Nat.le_succ _),
      Nat.add_sub_cancel_left, List.take_succ_cons, List.take_zero]
  have hlength : limit < (S.order selected).length := by
    have hpos := List.length_pos_iff.mpr hrest
    rw [hrows, List.length_append, List.length_cons]
    omega
  rw [follow, if_pos hlength, htake, List.getLast?_concat]

theorem exists_cut {rows : List α} (hlimit : 0 < limit) (h : limit < rows.length) :
    ∃ front last rest, rows = front ++ last :: rest ∧ front.length + 1 = limit ∧ rest ≠ [] := by
  have hlast : limit - 1 < rows.length := by omega
  refine ⟨rows.take (limit - 1), rows.get ⟨limit - 1, hlast⟩, rows.drop limit, ?_, ?_, ?_⟩
  · conv_lhs => rw [← List.take_append_drop (limit - 1) rows, List.drop_eq_getElem_cons hlast]
    rw [show limit - 1 + 1 = limit by omega]
    rfl
  · rw [List.length_take]
    omega
  · rw [← List.length_pos_iff, List.length_drop]
    omega

section Sufficient

theorem filter_perm {front rest : List α} {last : α} (hM : M.Nodup)
    (hperm : (front ++ last :: rest).Perm M)
    (hseam : ∀ a ∈ front ++ last :: rest, below last a ↔ a ∈ rest) :
    (M.filter (below last)).Perm rest := by
  have hnodup : (front ++ last :: rest).Nodup := hperm.nodup_iff.mpr hM
  have hrest : rest.Nodup := (List.nodup_cons.mp (List.nodup_append.mp hnodup).2.1).2
  apply (List.perm_ext_iff_of_nodup (hM.filter _) hrest).mpr
  intro a
  rw [List.mem_filter, ← hperm.mem_iff]
  constructor
  · rintro ⟨ha, hbelow⟩
    exact (hseam a ha).mp hbelow
  · intro ha
    have hmem : a ∈ front ++ last :: rest :=
      List.mem_append_right _ (List.mem_cons_of_mem _ ha)
    exact ⟨hmem, (hseam a hmem).mpr ha⟩

theorem pairwise_reordered {done rest : List α} {selected : List α}
    (hsorted : (done ++ rest).Pairwise le) (hperm : selected.Perm rest) :
    (done ++ S.order selected).Pairwise le := by
  obtain ⟨hdone, -, hcross⟩ := List.pairwise_append.mp hsorted
  refine List.pairwise_append.mpr ⟨hdone, S.sorted _, ?_⟩
  intro a ha b hb
  exact hcross a ha b (hperm.mem_iff.mp (S.mem_order.mp hb))

theorem follow_of_seams (hM : M.Nodup) (hlimit : 0 < limit)
    (hseams : ∀ L : List α, L.Perm M → L.Pairwise le → Seams below limit L) {fuel : ℕ}
    {done rest selected : List α} (hperm : (done ++ rest).Perm M)
    (hsorted : (done ++ rest).Pairwise le) (hselected : selected.Perm rest)
    (hdone : limit ∣ done.length) (hfuel : rest.length < fuel) :
    ∃ pages, follow S below limit M fuel selected = some pages ∧
      (done ++ pages.flatten).Perm M ∧ (done ++ pages.flatten).Pairwise le := by
  induction fuel generalizing done rest selected with
  | zero => omega
  | succ fuel ih =>
    have hperm' : (done ++ S.order selected).Perm M :=
      (((S.perm selected).trans hselected).append_left done).trans hperm
    have hsorted' : (done ++ S.order selected).Pairwise le :=
      pairwise_reordered hsorted hselected
    by_cases hmore : limit < (S.order selected).length
    · obtain ⟨front, last, rest', hrows, hfront, hrest'⟩ := exists_cut hlimit hmore
      have hwhole : done ++ S.order selected = (done ++ front) ++ last :: rest' := by
        rw [hrows, List.append_assoc]
      have hcut : (done ++ front).length + 1 = done.length + limit := by
        rw [List.length_append]
        omega
      have hseam := hseams _ hperm' hsorted' (done ++ front) last rest' hwhole
        (hcut ▸ Nat.dvd_add hdone (Nat.dvd_refl limit)) hrest'
      rw [hwhole] at hseam hperm' hsorted'
      have hnext : done ++ (front ++ [last]) ++ rest' = (done ++ front) ++ last :: rest' := by
        simp
      have hlength : rest'.length < fuel := by
        have hsame := congrArg List.length hrows
        rw [S.length_order, hselected.length_eq, List.length_append, List.length_cons] at hsame
        omega
      have hdone' : limit ∣ (done ++ (front ++ [last])).length := by
        rw [← List.append_assoc, List.length_append, List.length_singleton, hcut]
        exact Nat.dvd_add hdone (Nat.dvd_refl limit)
      obtain ⟨pages, hpages, hall, hord⟩ := ih (hnext ▸ hperm') (hnext ▸ hsorted')
        (filter_perm hM hperm' hseam) hdone' hlength
      refine ⟨(front ++ [last]) :: pages, ?_, ?_, ?_⟩
      · rw [follow_more hrows hfront hrest', hpages]
        rfl
      · rw [List.flatten_cons, ← List.append_assoc]
        exact hall
      · rw [List.flatten_cons, ← List.append_assoc]
        exact hord
    · refine ⟨[S.order selected], follow_last (Nat.le_of_not_lt hmore), ?_, ?_⟩
      · rw [List.flatten_singleton]
        exact hperm'
      · rw [List.flatten_singleton]
        exact hsorted'

theorem complete_of_seams (hM : M.Nodup) (hlimit : 0 < limit)
    (hseams : ∀ L : List α, L.Perm M → L.Pairwise le → Seams below limit L) :
    Complete S below limit M le := by
  have hperm : ([] ++ S.order M).Perm M := S.perm M
  obtain ⟨pages, hpages, hall, hord⟩ := follow_of_seams hM hlimit hseams hperm (S.sorted M)
    (S.perm M).symm (Nat.dvd_zero limit) (Nat.lt_succ_self _)
  exact ⟨_, pages, hpages, hall, hord⟩

end Sufficient

section Necessary

variable {L : List α}

open Classical in
noncomputable def keeping [Std.Total le] [IsTrans α le] (L : List α) (hL : L.Pairwise le) :
    Sorter le where
  order rows :=
    if (L.filter (· ∈ rows)).Perm rows then L.filter (· ∈ rows) else rows.insertionSort le
  perm rows := by
    split
    · assumption
    · exact List.perm_insertionSort le rows
  sorted rows := by
    split
    · exact hL.filter _
    · exact List.pairwise_insertionSort le rows

theorem order_keeping [Std.Total le] [IsTrans α le] (hL : L.Pairwise le) (hperm : L.Perm M)
    (p : α → Bool) : (keeping L hL).order (M.filter p) = L.filter p := by
  classical
  have hfilter : L.filter (· ∈ M.filter p) = L.filter p := by
    refine List.filter_congr fun a ha => ?_
    rw [Bool.eq_iff_iff, decide_eq_true_iff, List.mem_filter]
    exact and_iff_right (hperm.mem_iff.mp ha)
  have hcond : (L.filter (· ∈ M.filter p)).Perm (M.filter p) := hfilter ▸ hperm.filter p
  change (if (L.filter (· ∈ M.filter p)).Perm (M.filter p) then _ else _) = _
  rw [if_pos (by convert hcond)]
  convert hfilter

theorem mem_follow (htrans : ∀ a b c, below a b → below b c → below a c) {fuel : ℕ} {x : α}
    {pages : List (List α)}
    (h : follow S below limit M fuel (M.filter (below x)) = some pages) :
    ∀ a ∈ pages.flatten, below x a := by
  induction fuel generalizing x pages with
  | zero => cases h
  | succ fuel ih =>
    have hselected : ∀ a ∈ S.order (M.filter (below x)), below x a := by
      intro a ha
      exact (List.mem_filter.mp (S.mem_order.mp ha)).2
    have hpage : ∀ a ∈ (S.order (M.filter (below x))).take limit, below x a := by
      intro a ha
      exact hselected a (List.mem_of_mem_take ha)
    rw [follow] at h
    split at h
    · split at h
      · obtain rfl := Option.some.inj h
        rw [List.flatten_singleton]
        exact hpage
      · rename_i last hlast
        obtain ⟨pages', hpages', rfl⟩ := Option.map_eq_some_iff.mp h
        intro a ha
        rw [List.flatten_cons] at ha
        rcases List.mem_append.mp ha with ha | ha
        · exact hpage a ha
        · exact htrans _ _ _ (hpage last (List.mem_of_getLast? hlast)) (ih hpages' a ha)
    · obtain rfl := Option.some.inj h
      rw [List.flatten_singleton]
      exact hselected

theorem head_mem_follow (hlimit : 0 < limit) {fuel : ℕ} {selected rows : List α} {a : α}
    {pages : List (List α)} (hrows : S.order selected = a :: rows)
    (h : follow S below limit M fuel selected = some pages) : a ∈ pages.flatten := by
  have hpage : a ∈ (S.order selected).take limit := by
    rw [hrows, ← Nat.succ_pred_eq_of_pos hlimit, List.take_succ_cons]
    exact List.mem_cons_self
  cases fuel with
  | zero => cases h
  | succ fuel =>
    rw [follow] at h
    split at h
    · split at h
      · obtain rfl := Option.some.inj h
        rw [List.flatten_singleton]
        exact hpage
      · obtain ⟨pages', -, rfl⟩ := Option.map_eq_some_iff.mp h
        rw [List.flatten_cons]
        exact List.mem_append_left _ hpage
    · obtain rfl := Option.some.inj h
      rw [List.flatten_singleton, hrows]
      exact List.mem_cons_self

theorem filter_eq_rest {done rest : List α} {p : α → Bool} (hnodup : (done ++ rest).Nodup)
    (hp : ∀ a ∈ done ++ rest, p a ↔ a ∈ rest) : (done ++ rest).filter p = rest := by
  have hdone : done.filter p = [] := by
    refine List.filter_eq_nil_iff.mpr fun a ha hpa => ?_
    exact List.disjoint_of_nodup_append hnodup ha ((hp a (List.mem_append_left _ ha)).mp hpa)
  have hrest : rest.filter p = rest := by
    refine List.filter_eq_self.mpr fun a ha => ?_
    exact (hp a (List.mem_append_right _ ha)).mpr ha
  rw [List.filter_append, hdone, hrest, List.nil_append]

theorem none_before [Std.Total le] [IsTrans α le] (hL : L.Pairwise le) (hperm : L.Perm M)
    (hlimit : 0 < limit) {done more : List α} {p : α → Bool} {fuel : ℕ} {pages : List (List α)}
    (hsplit : L = done ++ more) (h : follow (keeping L hL) below limit M fuel (M.filter p) = some pages)
    (hfresh : (done ++ pages.flatten).Nodup) : done.filter p = [] := by
  by_contra hne
  obtain ⟨first, early, hearly⟩ := List.exists_cons_of_ne_nil hne
  have hfirst : first ∈ done.filter p := hearly ▸ List.mem_cons_self
  have horder : (keeping L hL).order (M.filter p) = first :: (early ++ more.filter p) := by
    rw [order_keeping hL hperm]
    conv_lhs => rw [hsplit, List.filter_append, hearly]
    rfl
  have hlate : first ∈ pages.flatten := head_mem_follow hlimit horder h
  exact List.disjoint_of_nodup_append hfresh (List.mem_filter.mp hfirst).1 hlate

theorem seam_of_follow [Std.Total le] [IsTrans α le] (hL : L.Pairwise le) (hperm : L.Perm M)
    (hnodup : L.Nodup) (hlimit : 0 < limit) {front rest : List α} {last : α}
    (hsplit : L = front ++ last :: rest) {fuel : ℕ} {pages : List (List α)}
    (h : follow (keeping L hL) below limit M fuel (M.filter (below last)) = some pages)
    (hpages : pages.flatten.Perm rest) (hbehind : ∀ a ∈ pages.flatten, below last a) :
    ∀ a ∈ L, below last a ↔ a ∈ rest := by
  intro a ha
  refine ⟨fun hbelow => ?_, fun hrest => hbehind a (hpages.mem_iff.mpr hrest)⟩
  have hcut : L = (front ++ [last]) ++ rest := by
    rw [hsplit, List.append_assoc]
    rfl
  have hfresh : ((front ++ [last]) ++ pages.flatten).Nodup :=
    ((hpages.append_left _).nodup_iff).mpr (hcut ▸ hnodup)
  have hnone := none_before hL hperm hlimit hcut h hfresh
  rw [hcut] at ha
  rcases List.mem_append.mp ha with ha | ha
  · exact absurd hbelow (List.filter_eq_nil_iff.mp hnone a ha)
  · exact ha

theorem seams_of_follow [Std.Total le] [IsTrans α le] (hL : L.Pairwise le) (hperm : L.Perm M)
    (hnodup : L.Nodup) (hlimit : 0 < limit)
    {J : List α → (α → Bool) → List (List α) → Prop}
    (hstep : ∀ done p front last rest fuel pages, J done p ((front ++ [last]) :: pages) →
      (keeping L hL).order (M.filter p) = front ++ last :: rest → front.length + 1 = limit →
      rest ≠ [] →
      follow (keeping L hL) below limit M fuel (M.filter (below last)) = some pages →
      J (done ++ (front ++ [last])) (below last) pages ∧ ∀ a ∈ pages.flatten, below last a)
    {fuel : ℕ} {done rest : List α} {p : α → Bool} {pages : List (List α)} (hJ : J done p pages)
    (hsplit : L = done ++ rest) (hp : ∀ a ∈ L, p a ↔ a ∈ rest)
    (h : follow (keeping L hL) below limit M fuel (M.filter p) = some pages)
    (hpages : pages.flatten.Perm rest) (hdone : limit ∣ done.length) {front after : List α}
    {last : α} (hcut : L = front ++ last :: after) (hfull : limit ∣ front.length + 1)
    (hafter : after ≠ []) (hlater : done.length ≤ front.length) :
    ∀ a ∈ L, below last a ↔ a ∈ after := by
  induction fuel generalizing done rest p pages with
  | zero => cases h
  | succ fuel ih =>
    have horder : (keeping L hL).order (M.filter p) = rest := by
      rw [order_keeping hL hperm, hsplit]
      rw [hsplit] at hp hnodup
      exact filter_eq_rest hnodup hp
    have hlengths : done.length + rest.length = front.length + 1 + after.length := by
      have hsame := congrArg List.length (hsplit.symm.trans hcut)
      rw [List.length_append, List.length_append, List.length_cons] at hsame
      omega
    have hfar : limit ≤ front.length + 1 - done.length :=
      Nat.le_of_dvd (by omega) (Nat.dvd_sub hfull hdone)
    have hpos := List.length_pos_iff.mpr hafter
    have hmore : limit < rest.length := by omega
    obtain ⟨front', last', rest', hrows, hfront', hrest'⟩ := exists_cut hlimit hmore
    rw [follow_more (horder.trans hrows) hfront' hrest'] at h
    obtain ⟨pages', hpages', rfl⟩ := Option.map_eq_some_iff.mp h
    obtain ⟨hJ', hbelow⟩ := hstep _ _ _ _ _ _ _ hJ (horder.trans hrows) hfront' hrest' hpages'
    have hbehind : pages'.flatten.Perm rest' := by
      rw [List.flatten_cons, hrows, List.append_cons front' last' rest'] at hpages
      exact (List.perm_append_left_iff _).mp hpages
    have hwhole : L = (done ++ front') ++ last' :: rest' := by
      rw [hsplit, hrows, List.append_assoc]
    have hseam := seam_of_follow hL hperm hnodup hlimit hwhole hpages' hbehind hbelow
    have hlen : (done ++ front').length + 1 = done.length + limit := by
      rw [List.length_append]
      omega
    by_cases hhere : front.length + 1 = done.length + limit
    · have hsame := List.append_inj (hwhole.symm.trans hcut) (by omega)
      obtain ⟨rfl, rfl⟩ := List.cons.inj hsame.2
      exact hseam
    · have hwhole' : L = (done ++ (front' ++ [last'])) ++ rest' := by
        rw [hwhole]
        simp
      have hlen' : (done ++ (front' ++ [last'])).length = done.length + limit := by
        rw [List.length_append, List.length_append, List.length_singleton]
        omega
      exact ih hJ' hwhole' hseam hpages' hbehind (hlen' ▸ Nat.dvd_add hdone (Nat.dvd_refl limit))
        (by omega)

theorem same_page [Std.Total le] [IsTrans α le] (hL : L.Pairwise le) (hperm : L.Perm M)
    (hlimit : 0 < limit) {done front rest : List α} {last : α} {p : α → Bool}
    {pages pages₁ : List (List α)} {fuel₁ : ℕ}
    (hrows : S.order (M.filter p) = front ++ last :: rest) (hfront : front.length + 1 = limit)
    (hrest : rest ≠ []) (hsplit : L = done ++ ((front ++ [last]) :: pages).flatten)
    (h₁ : follow (keeping L hL) below limit M fuel₁ (M.filter p) = some pages₁)
    (hfresh : (done ++ pages₁.flatten).Nodup) :
    ∃ fuel₂ pages₂, follow (keeping L hL) below limit M fuel₂ (M.filter (below last)) = some pages₂ ∧
      pages₁ = (front ++ [last]) :: pages₂ := by
  have hnone := none_before hL hperm hlimit hsplit h₁ hfresh
  have hpage : (front ++ [last]).filter p = front ++ [last] := by
    refine List.filter_eq_self.mpr fun a ha => ?_
    have hmem : a ∈ S.order (M.filter p) := by
      rw [hrows, List.append_cons]
      exact List.mem_append_left _ ha
    exact (List.mem_filter.mp (S.mem_order.mp hmem)).2
  have horder : (keeping L hL).order (M.filter p) = front ++ last :: pages.flatten.filter p := by
    rw [order_keeping hL hperm]
    conv_lhs => rw [hsplit, List.filter_append, hnone, List.flatten_cons, List.filter_append, hpage]
    simp
  have hmore : pages.flatten.filter p ≠ [] := by
    have hlength : ((keeping L hL).order (M.filter p)).length = (S.order (M.filter p)).length := by
      rw [Sorter.length_order, Sorter.length_order]
    rw [horder, hrows, List.length_append, List.length_append, List.length_cons,
      List.length_cons] at hlength
    rw [← List.length_pos_iff] at hrest ⊢
    omega
  cases fuel₁ with
  | zero => cases h₁
  | succ fuel₂ =>
    rw [follow_more horder hfront hmore] at h₁
    obtain ⟨pages₂, hpages₂, heq⟩ := Option.map_eq_some_iff.mp h₁
    exact ⟨fuel₂, pages₂, hpages₂, heq.symm⟩

theorem later_below [Std.Total le] [IsTrans α le] (hL : L.Pairwise le) (hperm : L.Perm M)
    (hlimit : 0 < limit)
    (hneg : ∀ a ∈ M, ∀ b ∈ M, ∀ c ∈ M, below a c → below a b ∨ below b c) {x : α}
    {done : List α} {p : α → Bool} {fuel fuel₁ : ℕ} {pages pages₁ : List (List α)}
    (h : follow S below limit M fuel (M.filter p) = some pages)
    (h₁ : follow (keeping L hL) below limit M fuel₁ (M.filter p) = some pages₁)
    (hfresh : (done ++ pages₁.flatten).Nodup) (hsplit : L = done ++ pages.flatten) (hx : x ∈ done)
    (hp : ∀ a ∈ M, p a → below x a) : ∀ a ∈ pages.flatten, below x a := by
  induction fuel generalizing done p fuel₁ pages pages₁ with
  | zero => cases h
  | succ fuel ih =>
    have hselected : ∀ a ∈ S.order (M.filter p), below x a := by
      intro a ha
      have hmem := List.mem_filter.mp (S.mem_order.mp ha)
      exact hp a hmem.1 hmem.2
    by_cases hmore : limit < (S.order (M.filter p)).length
    · obtain ⟨front, last, rest, hrows, hfront, hrest⟩ := exists_cut hlimit hmore
      rw [follow_more hrows hfront hrest] at h
      obtain ⟨pages', hpages', rfl⟩ := Option.map_eq_some_iff.mp h
      obtain ⟨fuel₂, pages₂, h₂, rfl⟩ :=
        same_page hL hperm hlimit hrows hfront hrest hsplit h₁ hfresh
      rw [List.flatten_cons, ← List.append_assoc] at hsplit hfresh
      have hnone := none_before hL hperm hlimit hsplit h₂ hfresh
      have hinM : ∀ a ∈ done ++ (front ++ [last]), a ∈ M := by
        intro a ha
        exact hperm.mem_iff.mp (hsplit ▸ List.mem_append_left _ ha)
      have hlast : last ∈ done ++ (front ++ [last]) := by simp
      have hx' : x ∈ done ++ (front ++ [last]) := List.mem_append_left _ hx
      have hp' : ∀ a ∈ M, below last a → below x a := by
        intro a ha hbelow
        refine (hneg last (hinM _ hlast) x (hinM _ hx') a ha hbelow).resolve_left ?_
        exact List.filter_eq_nil_iff.mp hnone x hx'
      intro a ha
      rw [List.flatten_cons] at ha
      rcases List.mem_append.mp ha with ha | ha
      · apply hselected
        rw [hrows, List.append_cons]
        exact List.mem_append_left _ ha
      · exact ih hpages' h₂ hfresh hsplit hx' hp' a ha
    · rw [follow_last (Nat.le_of_not_lt hmore)] at h
      obtain rfl := Option.some.inj h
      rw [List.flatten_singleton]
      exact hselected

end Necessary

theorem filter_all {fuel : ℕ} {pages : List (List α)} (h : follow S below limit M fuel M = some pages) :
    follow S below limit M fuel (M.filter fun _ => true) = some pages := by
  rw [List.filter_true]
  exact h

theorem complete_iff [Std.Total le] [IsTrans α le] (hM : M.Nodup) (hlimit : 0 < limit)
    (htrans : ∀ a b c, below a b → below b c → below a c) {r : α → α → Prop}
    (hr : ∀ a b, le a b → r a b) :
    (∀ S : Sorter le, Complete S below limit M r) ↔
      ∀ L : List α, L.Perm M → L.Pairwise le → Seams below limit L := by
  constructor
  · intro h L hperm hL front last after hcut hfull hafter
    obtain ⟨fuel, pages, hfollow, hpages, -⟩ := h (keeping L hL)
    have hfollow' := filter_all hfollow
    have hsplit : L = [] ++ L := rfl
    exact seams_of_follow (J := fun _ _ _ => True) hL hperm (hperm.nodup_iff.mpr hM) hlimit
      (fun _ _ _ _ _ _ _ _ _ _ _ hfollow => ⟨trivial, mem_follow htrans hfollow⟩) trivial hsplit
      (fun a ha => iff_of_true rfl ha) hfollow' (hpages.trans hperm.symm)
      (Nat.dvd_zero limit) hcut hfull hafter (Nat.zero_le _)
  · intro h S
    obtain ⟨fuel, pages, hfollow, hpages, hord⟩ := complete_of_seams (S := S) hM hlimit h
    exact ⟨fuel, pages, hfollow, hpages, hord.imp fun hab => hr _ _ hab⟩

theorem complete_iff_of_negTrans [Std.Total le] [IsTrans α le] (hM : M.Nodup) (hlimit : 0 < limit)
    (hneg : ∀ a ∈ M, ∀ b ∈ M, ∀ c ∈ M, below a c → below a b ∨ below b c) :
    (∀ S : Sorter le, Complete S below limit M le) ↔
      ∀ L : List α, L.Perm M → L.Pairwise le → Seams below limit L := by
  constructor
  · intro h L hperm hL front last after hcut hfull hafter
    obtain ⟨fuel, pages, hfollow, hpages, hord⟩ := h (keeping L hL)
    obtain ⟨fuel₁, pages₁, hfollow₁, hpages₁, -⟩ := h (keeping pages.flatten hord)
    have hfollow' := filter_all hfollow
    have hsplit : L = [] ++ L := rfl
    refine seams_of_follow
      (J := fun done p more => pages.flatten = done ++ more.flatten ∧ ∃ fuel₁ pages₁,
        follow (keeping pages.flatten hord) below limit M fuel₁ (M.filter p) = some pages₁ ∧
          (done ++ pages₁.flatten).Nodup)
      hL hperm (hperm.nodup_iff.mpr hM) hlimit ?_
      ⟨rfl, fuel₁, pages₁, filter_all hfollow₁, hpages₁.nodup_iff.mpr hM⟩ hsplit
      (fun a ha => iff_of_true rfl ha) hfollow' (hpages.trans hperm.symm)
      (Nat.dvd_zero limit) hcut hfull hafter (Nat.zero_le _)
    rintro done p front last rest fuel more ⟨hout, fuel₁, pages₁, hfollow₁, hfresh⟩ hrows hfront
      hrest hmore
    obtain ⟨fuel₂, pages₂, h₂, rfl⟩ :=
      same_page hord hpages hlimit hrows hfront hrest hout hfollow₁ hfresh
    rw [List.flatten_cons, ← List.append_assoc] at hout hfresh
    refine ⟨⟨hout, fuel₂, pages₂, h₂, hfresh⟩, ?_⟩
    exact later_below hord hpages hlimit hneg hmore h₂ hfresh hout (by simp) fun _ _ ha => ha
  · intro h S
    exact complete_of_seams hM hlimit h

end Acps.Keyset
