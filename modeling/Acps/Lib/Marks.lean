import Mathlib.Data.List.Nodup
import Mathlib.Data.List.Sort
import Mathlib.Order.Basic

/-!
Paging over several sources with a mark for each: a page is taken from the rows below the marks, and
leaves a mark, the score of the last row, for the sources it has rows of and for no other.
-/

namespace Acps.Marks

section Borders

variable {σ : Type} (limit : ℕ)

def Untied (scores : List σ) : Prop :=
  ∀ j, 0 < j → j * limit < scores.length → scores[j * limit - 1]? ≠ scores[j * limit]?

def capacity (n : ℕ) : ℕ := (n + limit - 1) / limit * limit

variable {limit}

theorem untied_of_le {scores : List σ} (h : scores.length ≤ limit) : Untied limit scores := by
  intro j hj hlt
  have := Nat.le_mul_of_pos_left limit hj
  omega

theorem untied_iff {scores : List σ} (hlimit : 0 < limit) (hlt : limit < scores.length) :
    Untied limit scores ↔
      scores[limit - 1]? ≠ scores[limit]? ∧ Untied limit (scores.drop limit) := by
  have hshift {j : ℕ} (hj : 0 < j) :
      (scores.drop limit)[j * limit - 1]? = scores[(j + 1) * limit - 1]? ∧
        (scores.drop limit)[j * limit]? = scores[(j + 1) * limit]? := by
    have hpos := Nat.mul_pos hj hlimit
    rw [List.getElem?_drop, List.getElem?_drop, Nat.succ_mul]
    constructor
    · congr 1
      omega
    · congr 1
      omega
  constructor
  · intro h
    constructor
    · have hone := h 1 one_pos
      rw [Nat.one_mul] at hone
      exact hone hlt
    · intro j hj hjlt
      rw [List.length_drop] at hjlt
      rw [(hshift hj).1, (hshift hj).2]
      apply h (j + 1) (Nat.succ_pos j)
      rw [Nat.succ_mul]
      omega
  · rintro ⟨hborder, hrest⟩ j hj hjlt
    obtain ⟨j, rfl⟩ := Nat.exists_eq_succ_of_ne_zero hj.ne'
    rcases Nat.eq_zero_or_pos j with rfl | hj
    · simpa using hborder
    · rw [Nat.succ_mul] at hjlt
      have hnext := hrest j hj (by rw [List.length_drop]; omega)
      rwa [(hshift hj).1, (hshift hj).2] at hnext

theorem capacity_of_le {n : ℕ} (hn : 0 < n) (h : n ≤ limit) : capacity limit n = limit := by
  have hdiv : (n + limit - 1) / limit = 1 := by
    apply Nat.div_eq_of_lt_le
    · omega
    · omega
  rw [capacity, hdiv, Nat.one_mul]

theorem capacity_of_lt {n : ℕ} (hlimit : 0 < limit) (h : limit < n) :
    capacity limit n = capacity limit (n - limit) + limit := by
  have hsplit : n + limit - 1 = (n - limit + limit - 1) + limit := by omega
  rw [capacity, capacity, hsplit, Nat.add_div_right _ hlimit, Nat.succ_mul]

end Borders

variable {α ι σ : Type} [DecidableEq ι] [LinearOrder σ] (source : α → ι) (score : α → σ)
  (limit : ℕ) (rows : List α)

def isOpen (marks : ι → Option σ) (a : α) : Bool := (marks (source a)).all (score a < ·)

def remaining (marks : ι → Option σ) : List α := rows.filter (isOpen source score marks)

def page (marks : ι → Option σ) : List α := (remaining source score rows marks).take limit

def marksOf (page : List α) (i : ι) : Option σ :=
  ((page.filter fun a => source a = i).getLast?).map score

def follow : ℕ → (ι → Option σ) → Option (List (List α))
  | 0, _ => none
  | fuel + 1, marks =>
    if page source score limit rows marks = [] then some [[]]
    else
      (follow fuel (marksOf source score (page source score limit rows marks))).map
        (page source score limit rows marks :: ·)

def Complete : Prop :=
  ∃ fuel pages, follow source score limit rows fuel (fun _ => none) = some pages ∧
    pages.flatten.Perm rows

def Falling : Prop := rows.Pairwise fun a b => source a = source b → score b ≤ score a

variable {source score limit rows} {marks : ι → Option σ}

section Rows

omit [DecidableEq ι] in
theorem isOpen_iff {a : α} :
    isOpen source score marks a = true ↔ ∀ c, marks (source a) = some c → score a < c := by
  unfold isOpen
  cases marks (source a) <;> simp

omit [DecidableEq ι] in
theorem mem_remaining {a : α} : a ∈ remaining source score rows marks ↔
    a ∈ rows ∧ ∀ c, marks (source a) = some c → score a < c := by
  rw [remaining, List.mem_filter, isOpen_iff]

omit [DecidableEq ι] in
theorem remaining_of_none (h : ∀ a ∈ rows, marks (source a) = none) :
    remaining source score rows marks = rows := by
  apply List.filter_eq_self.mpr
  intro a ha
  rw [isOpen_iff, h a ha]
  simp

omit [LinearOrder σ] in
theorem marksOf_eq_none_iff {page : List α} {i : ι} :
    marksOf source score page i = none ↔ ∀ a ∈ page, source a ≠ i := by
  simp [marksOf]

omit [LinearOrder σ] in
theorem exists_of_marksOf {page : List α} {i : ι} {c : σ}
    (h : marksOf source score page i = some c) : ∃ a ∈ page, source a = i ∧ score a = c := by
  obtain ⟨a, ha, rfl⟩ := Option.map_eq_some_iff.mp h
  have hmem := List.mem_filter.mp (List.mem_of_getLast? ha)
  exact ⟨a, hmem.1, of_decide_eq_true hmem.2, rfl⟩

theorem le_of_getLast? {l : List α} {a z : α} (h : l.Pairwise fun a b => score b ≤ score a)
    (ha : a ∈ l) (hz : l.getLast? = some z) : score z ≤ score a := by
  obtain ⟨l, rfl⟩ := List.getLast?_eq_some_iff.mp hz
  rcases List.mem_append.mp ha with ha | ha
  · exact (List.pairwise_append.mp h).2.2 a ha z (List.mem_singleton_self z)
  · rw [List.mem_singleton.mp ha]

theorem Falling.filter (h : Falling source score rows) (i : ι) :
    (rows.filter fun a => source a = i).Pairwise fun a b => score b ≤ score a := by
  rw [List.pairwise_filter]
  refine h.imp ?_
  intro a b hab ha hb
  exact hab ((of_decide_eq_true ha).trans (of_decide_eq_true hb).symm)

theorem marksOf_le {page : List α} (h : Falling source score page) {a : α} (ha : a ∈ page) :
    ∃ c, marksOf source score page (source a) = some c ∧ c ≤ score a := by
  have hmem : a ∈ page.filter fun b => source b = source a :=
    List.mem_filter.mpr ⟨ha, decide_eq_true rfl⟩
  cases hlast : (page.filter fun b => source b = source a).getLast? with
  | none => exact absurd hmem (by rw [List.getLast?_eq_none_iff.mp hlast]; exact List.not_mem_nil)
  | some z => exact ⟨score z, by rw [marksOf, hlast]; rfl, le_of_getLast? (h.filter _) hmem hlast⟩

theorem follow_cons {fuel : ℕ} {pages : List (List α)}
    (h : follow source score limit rows fuel marks = some pages) :
    (page source score limit rows marks = [] ∧ pages = [[]]) ∨
      page source score limit rows marks ≠ [] ∧ ∃ fuel' rest, fuel = fuel' + 1 ∧
        follow source score limit rows fuel'
          (marksOf source score (page source score limit rows marks)) = some rest ∧
        pages = page source score limit rows marks :: rest := by
  cases fuel with
  | zero => cases h
  | succ fuel =>
    unfold follow at h
    split at h
    · next hempty => exact .inl ⟨hempty, (Option.some.inj h).symm⟩
    · next hne =>
      obtain ⟨rest, hrest, rfl⟩ := Option.map_eq_some_iff.mp h
      exact .inr ⟨hne, fuel, rest, rfl, hrest, rfl⟩

theorem head_of_follow {fuel : ℕ} {pages : List (List α)}
    (h : follow source score limit rows fuel marks = some pages) :
    ∃ rest, pages = page source score limit rows marks :: rest := by
  rcases follow_cons h with ⟨hempty, rfl⟩ | ⟨-, -, rest, -, -, rfl⟩
  · exact ⟨[], by rw [hempty]⟩
  · exact ⟨rest, rfl⟩

theorem mem_of_follow {fuel : ℕ} {pages : List (List α)}
    (h : follow source score limit rows fuel marks = some pages) :
    ∀ a ∈ pages.flatten, a ∈ rows := by
  induction fuel generalizing marks pages with
  | zero => cases h
  | succ fuel ih =>
    rcases follow_cons h with ⟨-, rfl⟩ | ⟨-, fuel', rest, hfuel, hrest, rfl⟩
    · intro a ha
      simp at ha
    · obtain rfl := Nat.succ_injective hfuel
      intro a ha
      rcases List.mem_append.mp (List.flatten_cons ▸ ha) with ha | ha
      · exact (mem_remaining.mp (List.mem_of_mem_take ha)).1
      · exact ih hrest a ha

end Rows

section First

variable {k : ι} {K O : List α}

structure Split (source : α → ι) (score : α → σ) (k : ι) (K O : List α) : Prop where
  inside : ∀ a ∈ K, source a = k
  outside : ∀ a ∈ O, source a ≠ k
  falling : Falling source score (K ++ O)

omit [DecidableEq ι] in
theorem Split.pairwise (h : Split source score k K O) :
    (remaining source score K marks).Pairwise fun a b => score b ≤ score a := by
  have hK : K.Pairwise fun a b => score b ≤ score a := by
    refine (List.pairwise_append.mp h.falling).1.imp_of_mem ?_
    intro a b ha hb hab
    exact hab ((h.inside a ha).trans (h.inside b hb).symm)
  exact hK.sublist List.filter_sublist

omit [DecidableEq ι] in
theorem remaining_append : remaining source score (K ++ O) marks =
    remaining source score K marks ++ remaining source score O marks := List.filter_append ..

omit [DecidableEq ι] in
theorem Split.remaining_next (h : Split source score k K O) {marks' : ι → Option σ} {b : α}
    (hb : b ∈ remaining source score K marks) (hmark : marks' k = some (score b)) :
    remaining source score K marks' =
      (remaining source score K marks).filter fun a => score a < score b := by
  obtain ⟨hbK, hbopen⟩ := mem_remaining.mp hb
  unfold remaining
  rw [List.filter_filter]
  apply List.filter_congr
  intro a ha
  rw [Bool.eq_iff_iff, Bool.and_eq_true, isOpen_iff, isOpen_iff, h.inside a ha, hmark,
    decide_eq_true_eq]
  constructor
  · intro hlt
    refine ⟨hlt _ rfl, ?_⟩
    intro c hc
    exact (hlt _ rfl).trans (hbopen c (by rw [h.inside b hbK]; exact hc))
  · rintro ⟨hlt, -⟩ c ⟨⟩
    exact hlt

omit [DecidableEq ι] in
theorem Split.page_of_long (hlong : limit < (remaining source score K marks).length) :
    page source score limit (K ++ O) marks = (remaining source score K marks).take limit := by
  rw [page, remaining_append, List.take_append_of_le_length hlong.le]

theorem Split.marks_of_long (h : Split source score k K O) (hlimit : 0 < limit)
    (hlong : limit < (remaining source score K marks).length) :
    (∀ i, i ≠ k → marksOf source score (page source score limit (K ++ O) marks) i = none) ∧
      ∃ last ∈ remaining source score K marks,
        (remaining source score K marks)[limit - 1]? = some last ∧
        marksOf source score (page source score limit (K ++ O) marks) k = some (score last) := by
  have hin : ∀ a ∈ (remaining source score K marks).take limit, source a = k := fun a ha =>
    h.inside a (mem_remaining.mp (List.mem_of_mem_take ha)).1
  rw [Split.page_of_long hlong]
  constructor
  · intro i hi
    apply marksOf_eq_none_iff.mpr
    intro a ha heq
    exact hi (heq.symm.trans (hin a ha))
  · have hlast : limit - 1 < (remaining source score K marks).length := by omega
    refine ⟨_, List.getElem_mem hlast, List.getElem?_eq_getElem hlast, ?_⟩
    have hall : ((remaining source score K marks).take limit).filter (fun a => source a = k) =
        (remaining source score K marks).take limit :=
      List.filter_eq_self.mpr fun a ha => decide_eq_true (hin a ha)
    rw [marksOf, hall, List.getLast?_take, if_neg hlimit.ne', List.getElem?_eq_getElem hlast]
    rfl

theorem Split.remaining_of_long (h : Split source score k K O) (hlimit : 0 < limit)
    (hlong : limit < (remaining source score K marks).length)
    (hborder : ((remaining source score K marks).map score)[limit - 1]? ≠
      ((remaining source score K marks).map score)[limit]?) :
    remaining source score K
        (marksOf source score (page source score limit (K ++ O) marks)) =
      (remaining source score K marks).drop limit := by
  obtain ⟨-, last, hmem, hlast, hmark⟩ := h.marks_of_long hlimit hlong
  have hsorted : (remaining source score K marks).Pairwise fun a b => score b ≤ score a :=
    h.pairwise
  rw [h.remaining_next hmem hmark]
  generalize remaining source score K marks = E at hlong hborder hmem hlast hsorted ⊢
  have hbefore : limit - 1 < E.length := by omega
  obtain rfl : E[limit - 1] = last := by
    rw [List.getElem?_eq_getElem hbefore] at hlast
    exact Option.some.inj hlast
  have htake : (E.take limit).filter (fun a => score a < score E[limit - 1]) = [] := by
    apply List.filter_eq_nil_iff.mpr
    intro a ha
    obtain ⟨i, hi, rfl⟩ := List.mem_take_iff_getElem.mp ha
    rw [decide_eq_true_eq, not_lt]
    rcases Nat.lt_or_ge i (limit - 1) with hlt | hge
    · exact List.pairwise_iff_getElem.mp hsorted i (limit - 1) _ hbefore hlt
    · have heq : i = limit - 1 := by omega
      subst heq
      exact le_rfl
  have hdrop : (E.drop limit).filter (fun a => score a < score E[limit - 1]) = E.drop limit := by
    apply List.filter_eq_self.mpr
    intro a ha
    obtain ⟨i, hi, rfl⟩ := List.mem_drop_iff_getElem.mp ha
    rw [decide_eq_true_eq]
    have hstep : score E[limit] ≤ score E[limit - 1] :=
      List.pairwise_iff_getElem.mp hsorted (limit - 1) limit hbefore hlong (by omega)
    have hne : score E[limit - 1] ≠ score E[limit] := by
      rw [List.getElem?_map, List.getElem?_map, List.getElem?_eq_getElem hbefore,
        List.getElem?_eq_getElem hlong] at hborder
      exact fun heq => hborder (congrArg some heq)
    refine lt_of_le_of_lt ?_ (lt_of_le_of_ne hstep hne.symm)
    rcases Nat.eq_zero_or_pos i with rfl | hpos
    · exact le_rfl
    · exact List.pairwise_iff_getElem.mp hsorted limit (limit + i) hlong _ (by omega)
  have hsplit := congrArg (List.filter fun a => score a < score E[limit - 1])
    (List.take_append_drop limit E)
  rw [List.filter_append, htake, hdrop, List.nil_append] at hsplit
  exact hsplit.symm

omit [DecidableEq ι] in
theorem Split.falling_page (h : Split source score k K O) :
    Falling source score (page source score limit (K ++ O) marks) :=
  h.falling.sublist ((List.take_sublist _ _).trans List.filter_sublist)

theorem Split.closed (h : Split source score k K O) (hne : remaining source score K marks ≠ [])
    (hshort : (remaining source score K marks).length ≤ limit) :
    remaining source score K
      (marksOf source score (page source score limit (K ++ O) marks)) = [] := by
  have hsub : ∀ a ∈ remaining source score K marks, a ∈ page source score limit (K ++ O) marks := by
    intro a ha
    rw [page, remaining_append, List.take_append, List.take_of_length_le hshort]
    exact List.mem_append_left _ ha
  apply List.filter_eq_nil_iff.mpr
  intro a ha
  rw [isOpen_iff]
  intro hopen
  by_cases hin : a ∈ remaining source score K marks
  · obtain ⟨c, hc, hle⟩ := marksOf_le h.falling_page (hsub a hin)
    exact absurd (hopen c hc) (not_lt.mpr hle)
  · -- The row has been closed by the mark before, and the new mark is below it.
    obtain ⟨b, hb⟩ := List.exists_mem_of_ne_nil _ hne
    have hbk : source b = source a := (h.inside b (mem_remaining.mp hb).1).trans (h.inside a ha).symm
    obtain ⟨c, hc, hle⟩ := marksOf_le h.falling_page (hsub b hb)
    rw [hbk] at hc
    apply hin
    rw [mem_remaining]
    refine ⟨ha, fun d hd => ?_⟩
    have hbopen := (mem_remaining.mp hb).2 d (by rw [hbk]; exact hd)
    exact ((hopen c hc).trans_le hle).trans hbopen

theorem Split.page_of_short (h : Split source score k K O) (hmarks : ∀ i, i ≠ k → marks i = none)
    (hne : remaining source score K marks ≠ [])
    (hfit : (remaining source score K marks).length + O.length ≤ limit) :
    page source score limit (K ++ O) marks = remaining source score K marks ++ O ∧
      page source score limit (K ++ O)
        (marksOf source score (page source score limit (K ++ O) marks)) = [] := by
  have hO : remaining source score O marks = O :=
    remaining_of_none fun a ha => hmarks _ (h.outside a ha)
  have hpage : page source score limit (K ++ O) marks = remaining source score K marks ++ O := by
    rw [page, remaining_append, hO]
    apply List.take_of_length_le
    rwa [List.length_append]
  have hclosed : remaining source score O
      (marksOf source score (page source score limit (K ++ O) marks)) = [] := by
    apply List.filter_eq_nil_iff.mpr
    intro a ha
    rw [isOpen_iff]
    intro hopen
    have hin : a ∈ page source score limit (K ++ O) marks := hpage ▸ List.mem_append_right _ ha
    obtain ⟨c, hc, hle⟩ := marksOf_le h.falling_page hin
    exact absurd (hopen c hc) (not_lt.mpr hle)
  refine ⟨hpage, ?_⟩
  conv_lhs => rw [page, remaining_append]
  rw [h.closed hne (by omega), hclosed, List.nil_append, List.take_nil]

theorem Split.follow_untied (h : Split source score k K O) (hlimit : 0 < limit) (n : ℕ) :
    ∀ marks : ι → Option σ, (remaining source score K marks).length = n →
      (∀ i, i ≠ k → marks i = none) → remaining source score K marks ≠ [] →
      Untied limit ((remaining source score K marks).map score) →
      n + O.length ≤ capacity limit n →
      ∃ fuel pages, follow source score limit (K ++ O) fuel marks = some pages ∧
        pages.flatten = remaining source score K marks ++ O := by
  induction n using Nat.strong_induction_on with
  | _ n ih =>
    intro marks hn hmarks hne huntied hfit
    have hpos : 0 < n := hn ▸ List.length_pos_iff.mpr hne
    rcases Nat.lt_or_ge limit n with hlong | hshort
    · rw [← hn] at hlong
      have hpage := Split.page_of_long (O := O) hlong
      obtain ⟨hnone, -⟩ := h.marks_of_long hlimit hlong
      rw [untied_iff hlimit (by rwa [List.length_map])] at huntied
      have hrest := h.remaining_of_long hlimit hlong huntied.1
      have hlength : (remaining source score K
          (marksOf source score (page source score limit (K ++ O) marks))).length = n - limit := by
        rw [hrest, List.length_drop, hn]
      rw [hn] at hlong
      obtain ⟨fuel, pages, hfollow, hflat⟩ := ih (n - limit) (by omega) _ hlength hnone
        (by rw [← List.length_pos_iff]; omega)
        (by rw [hrest, List.map_drop]; exact huntied.2)
        (by rw [capacity_of_lt hlimit hlong] at hfit; omega)
      have hne' : page source score limit (K ++ O) marks ≠ [] := by
        rw [hpage, ← List.length_pos_iff, List.length_take]
        omega
      refine ⟨fuel + 1, page source score limit (K ++ O) marks :: pages, ?_, ?_⟩
      · rw [follow, if_neg hne', hfollow]
        rfl
      · rw [List.flatten_cons, hflat, hrest, hpage, ← List.append_assoc, List.take_append_drop]
    · rw [capacity_of_le hpos hshort, ← hn] at hfit
      obtain ⟨hpage, hlast⟩ := h.page_of_short hmarks hne hfit
      have hne' : page source score limit (K ++ O) marks ≠ [] := by
        rw [hpage]
        exact List.append_ne_nil_of_left_ne_nil hne O
      refine ⟨2, [page source score limit (K ++ O) marks, []], ?_, ?_⟩
      · rw [follow, if_neg hne', follow, if_pos hlast]
        rfl
      · rw [hpage]
        simp

theorem Split.restarts (h : Split source score k K O) (hlimit : 0 < limit) {r : α} {rest : List α}
    (hK : K = r :: rest) {fuel : ℕ} {pages : List (List α)}
    (hfollow : follow source score limit (K ++ O) fuel marks = some pages)
    (hpage : page source score limit (K ++ O) marks ≠ [])
    (hnot : ∀ a ∈ page source score limit (K ++ O) marks, source a ≠ k) :
    r ∈ pages.tail.flatten := by
  rcases follow_cons hfollow with ⟨hempty, -⟩ | ⟨-, fuel, later, -, hlater, rfl⟩
  · exact absurd hempty hpage
  · obtain ⟨others, rfl⟩ := head_of_follow hlater
    have hnone : marksOf source score (page source score limit (K ++ O) marks) k = none :=
      marksOf_eq_none_iff.mpr hnot
    have hall : remaining source score K
        (marksOf source score (page source score limit (K ++ O) marks)) = K :=
      remaining_of_none fun a ha => by rw [h.inside a ha]; exact hnone
    have hfirst : r ∈ page source score limit (K ++ O)
        (marksOf source score (page source score limit (K ++ O) marks)) := by
      rw [page, remaining_append, hall, hK]
      obtain ⟨m, rfl⟩ := Nat.exists_eq_succ_of_ne_zero hlimit.ne'
      exact List.mem_cons_self
    rw [List.tail_cons, List.flatten_cons]
    exact List.mem_append_left _ hfirst

theorem Split.falls (h : Split source score k K O) (hlimit : 0 < limit) {r : α} {rest : List α}
    (hK : K = r :: rest) {fuel : ℕ} {c : σ} {pages : List (List α)}
    (hfollow : follow source score limit (K ++ O) fuel marks = some pages) (hc : marks k = some c)
    (hr : r ∉ pages.tail.flatten) : ∀ a ∈ pages.flatten, source a = k → score a < c := by
  induction fuel generalizing marks c pages with
  | zero => cases hfollow
  | succ fuel ih =>
    have hown : ∀ a ∈ page source score limit (K ++ O) marks, source a = k → score a < c := by
      intro a ha hak
      exact (mem_remaining.mp (List.mem_of_mem_take ha)).2 c (by rw [hak]; exact hc)
    rcases follow_cons hfollow with ⟨-, rfl⟩ | ⟨hne, fuel', later, hfuel, hlater, rfl⟩
    · intro a ha
      simp at ha
    · obtain rfl := Nat.succ_injective hfuel
      rw [List.tail_cons] at hr
      intro a ha hak
      rcases List.mem_append.mp (List.flatten_cons ▸ ha) with ha | ha
      · exact hown a ha hak
      · cases hmark : marksOf source score (page source score limit (K ++ O) marks) k with
        | none => exact absurd (h.restarts hlimit hK hfollow hne (marksOf_eq_none_iff.mp hmark)) hr
        | some d =>
          obtain ⟨b, hb, hbk, rfl⟩ := exists_of_marksOf hmark
          have htail : r ∉ later.tail.flatten := by
            obtain ⟨others, rfl⟩ := head_of_follow hlater
            rw [List.flatten_cons, List.mem_append, not_or] at hr
            exact hr.2
          exact (ih hlater hmark htail a ha hak).trans (hown b hb hbk)

theorem Split.untied_of_follow (h : Split source score k K O) (hlimit : 0 < limit) {r : α}
    {rest : List α} (hK : K = r :: rest) {fuel : ℕ} {pages : List (List α)}
    (hfollow : follow source score limit (K ++ O) fuel marks = some pages)
    (hr : r ∉ pages.tail.flatten)
    (hcover : ∀ a ∈ remaining source score K marks, a ∈ pages.flatten)
    (hnodup : (remaining source score K marks).Nodup)
    (hne : remaining source score K marks ≠ []) :
    Untied limit ((remaining source score K marks).map score) ∧
      pages.flatten.length ≤ capacity limit (remaining source score K marks).length := by
  induction fuel generalizing marks pages with
  | zero => cases hfollow
  | succ fuel ih =>
    have hpos := List.length_pos_iff.mpr hne
    have hpagene : page source score limit (K ++ O) marks ≠ [] := by
      rw [page, remaining_append, ← List.length_pos_iff, List.length_take, List.length_append]
      omega
    rcases follow_cons hfollow with ⟨hempty, -⟩ | ⟨-, fuel', later, hfuel, hlater, rfl⟩
    · exact absurd hempty hpagene
    obtain rfl := Nat.succ_injective hfuel
    obtain ⟨others, hothers⟩ := head_of_follow hlater
    rw [List.tail_cons] at hr
    have hrtail : r ∉ later.tail.flatten := by
      rw [hothers, List.flatten_cons, List.mem_append, not_or] at hr
      rw [hothers]
      exact hr.2
    have hroom : (page source score limit (K ++ O) marks).length ≤ limit := List.length_take_le ..
    -- Nothing of the first source remains: then the run ends, or the first source comes back.
    have hends : remaining source score K
        (marksOf source score (page source score limit (K ++ O) marks)) = [] →
        later.flatten = [] := by
      intro hnil
      by_cases hnext : page source score limit (K ++ O)
          (marksOf source score (page source score limit (K ++ O) marks)) = []
      · rcases follow_cons hlater with ⟨-, rfl⟩ | ⟨hne', -⟩
        · rfl
        · exact absurd hnext hne'
      · refine absurd (h.restarts hlimit hK hlater hnext ?_) hrtail
        intro a ha
        have hmem := List.mem_of_mem_take ha
        rw [remaining_append, hnil, List.nil_append] at hmem
        exact h.outside a (mem_remaining.mp hmem).1
    rcases Nat.lt_or_ge limit (remaining source score K marks).length with hlong | hshort
    · have hpage := Split.page_of_long (O := O) hlong
      obtain ⟨-, last, hlastmem, hlast, hmark⟩ := h.marks_of_long hlimit hlong
      have hborder : ((remaining source score K marks).map score)[limit - 1]? ≠
          ((remaining source score K marks).map score)[limit]? := by
        rw [List.getElem?_map, List.getElem?_map, hlast, List.getElem?_eq_getElem hlong]
        intro heq
        have hsame := Option.some.inj heq
        have hmem : (remaining source score K marks)[limit] ∈ later.flatten := by
          refine (List.mem_append.mp (List.flatten_cons ▸ hcover _ (List.getElem_mem hlong))).resolve_left ?_
          rw [hpage]
          intro hin
          obtain ⟨i, hi, hieq⟩ := List.mem_take_iff_getElem.mp hin
          have := (List.Nodup.getElem_inj_iff hnodup).mp hieq
          omega
        have hlow := h.falls hlimit hK hlater hmark hrtail _ hmem
          (h.inside _ (mem_remaining.mp (List.getElem_mem hlong)).1)
        exact absurd hsame.symm hlow.ne
      have hrest := h.remaining_of_long hlimit hlong hborder
      have hdrop : (remaining source score K marks).drop limit ≠ [] := by
        rw [← List.length_pos_iff, List.length_drop]
        omega
      have hcover' : ∀ a ∈ remaining source score K
          (marksOf source score (page source score limit (K ++ O) marks)), a ∈ later.flatten := by
        intro a ha
        rw [hrest] at ha
        refine (List.mem_append.mp (List.flatten_cons ▸ hcover a (List.mem_of_mem_drop ha))).resolve_left ?_
        rw [hpage]
        intro hin
        rw [← List.take_append_drop limit (remaining source score K marks)] at hnodup
        exact (List.nodup_append.mp hnodup).2.2 a hin a ha rfl
      obtain ⟨huntied, hlength⟩ := ih hlater hrtail hcover'
        (hrest ▸ hnodup.sublist (List.drop_sublist _ _)) (hrest ▸ hdrop)
      rw [hrest] at huntied hlength
      rw [List.length_drop] at hlength
      constructor
      · rw [untied_iff hlimit (by rwa [List.length_map]), ← List.map_drop]
        exact ⟨hborder, huntied⟩
      · rw [List.flatten_cons, List.length_append, capacity_of_lt hlimit hlong]
        omega
    · refine ⟨untied_of_le (by rwa [List.length_map]), ?_⟩
      rw [List.flatten_cons, List.length_append, capacity_of_le hpos hshort]
      rw [hends (h.closed hne hshort)]
      simpa using hroom

theorem Split.complete_iff (h : Split source score k K O) (hlimit : 0 < limit)
    (hnodup : (K ++ O).Nodup) (hne : K ≠ []) :
    Complete source score limit (K ++ O) ↔
      Untied limit (K.map score) ∧ (K ++ O).length ≤ capacity limit K.length := by
  have hall : remaining source score K (fun _ => none) = K := remaining_of_none fun _ _ => rfl
  constructor
  · rintro ⟨fuel, pages, hfollow, hperm⟩
    obtain ⟨r, rest, hK⟩ := List.exists_cons_of_ne_nil hne
    obtain ⟨later, hpages⟩ := head_of_follow hfollow
    have hfirst : r ∈ page source score limit (K ++ O) (fun _ => none) := by
      rw [page, remaining_append, hall, hK]
      obtain ⟨m, rfl⟩ := Nat.exists_eq_succ_of_ne_zero hlimit.ne'
      exact List.mem_cons_self
    have hr : r ∉ pages.tail.flatten := by
      have hflat : pages.flatten.Nodup := hperm.nodup_iff.mpr hnodup
      rw [hpages, List.flatten_cons] at hflat
      rw [hpages]
      exact fun hlater => (List.nodup_append.mp hflat).2.2 r hfirst r hlater rfl
    have hresult := h.untied_of_follow hlimit hK hfollow hr
      (fun a ha => hperm.mem_iff.mpr (List.mem_append_left O (hall ▸ ha)))
      (hall.symm ▸ (List.nodup_append.mp hnodup).1) (hall.symm ▸ hne)
    rwa [hall, hperm.length_eq] at hresult
  · rintro ⟨huntied, hfit⟩
    rw [List.length_append] at hfit
    obtain ⟨fuel, pages, hfollow, hflat⟩ := h.follow_untied hlimit K.length (fun _ => none)
      (congrArg List.length hall) (fun _ _ => rfl) (hall.symm ▸ hne) (hall.symm ▸ huntied) hfit
    refine ⟨fuel, pages, hfollow, ?_⟩
    rw [hflat, hall]

end First

theorem complete_nil : Complete source score limit [] :=
  ⟨1, [[]], by simp [follow, page, remaining], by simp⟩

end Acps.Marks
