import Acps.Audit.Query

/-!
What the conditions of an audit query mean. Texts are put in patterns as they are, special characters
and all.
-/

namespace Acps.Audit

open Monitor LikePattern

def Faithful (op : FilterOp) (value : Json) : Prop :=
  match op with
  | .compare _ | .isNull => True
  | .contains | .starts_with => ∃ s, value = .str s ∧ Plain s.toList
  | _ => False

section Patterns

variable {σ : Store}

theorem fold_of_special {c : Char} (hc : c ∈ specials) : σ.fold c = c :=
  (σ.fold_special c c hc).mpr rfl

theorem plain_fold_iff {p : List Char} : Plain (p.map σ.fold) ↔ Plain p := by
  unfold Plain
  rw [List.forall_mem_map]
  refine forall₂_congr fun c _ => not_congr ⟨fun h => ?_, fun h => ?_⟩
  · rwa [(σ.fold_special c _ h).mp rfl]
  · rwa [fold_of_special h]

theorem folded_sample (p : List Char) :
    (sample (p.map σ.fold)).map σ.fold = sample (p.map σ.fold) := by
  apply List.map_congr_left (g := id) _ |>.trans (List.map_id _)
  intro c hc
  rcases mem_sample hc with hc | rfl
  · obtain ⟨d, _, rfl⟩ := List.mem_map.mp hc
    exact σ.fold_fold d
  · exact fold_of_special (by decide)

structure Wraps (σ : Store) (wrap : List Char → List Char) (R : List Char → List Char → Prop) :
    Prop where
  folds : ∀ p, (wrap p).map σ.fold = wrap (p.map σ.fold)
  plain : ∀ {p} s, Plain p → (like (wrap p) s = true ↔ R p s)
  sample : ∀ p, like (wrap p) (sample p) = true
  eq_of_length_le : ∀ {p s}, R p s → s.length ≤ p.length → s = p

theorem wraps_infix : Wraps σ (fun p => '%' :: (p ++ ['%'])) (· <:+: ·) where
  folds p := by simp [fold_of_special (σ := σ) (c := '%') (by decide)]
  plain s hp := like_infix hp
  sample := like_infix_sample
  eq_of_length_le h hle := (h.eq_of_length_le hle).symm

theorem wraps_prefix : Wraps σ (fun p => p ++ ['%']) (· <+: ·) where
  folds p := by simp [fold_of_special (σ := σ) (c := '%') (by decide)]
  plain s hp := like_prefix hp
  sample := like_sample
  eq_of_length_le h hle := (h.eq_of_length_le hle).symm

theorem ilike_means_iff {wrap : List Char → List Char} {R : List Char → List Char → Prop}
    [DecidableRel R] (hwrap : Wraps σ wrap R) {c : Column} (htype : c.type = "text")
    {rel : Cell → Cell → Bool} (hrel : ∀ cell s, rel cell (.text s) =
      match cell with
      | .text t => decide (R (σ.folded s) (σ.folded t))
      | _ => false) {value : Json} :
    (Fragment.ilike c (wrap (σ.str value).toList)).Means σ
      (fun row => (σ.bind c.type value).any (rel (row c.name))) ↔
      ∃ s, value = .str s ∧ Plain s.toList := by
  unfold Fragment.Means
  simp only [Fragment.eval, hwrap.folds, htype, σ.bind_text]
  constructor
  · intro h
    -- a text that the pattern matches whatever the special characters in it
    have hmatched := h fun _ =>
      .text (String.ofList (LikePattern.sample ((σ.str value).toList.map σ.fold)))
    simp only [Store.folded, String.toList_ofList, folded_sample, hwrap.sample] at hmatched
    cases value with
    | str s =>
      simp only [Option.any_some, hrel, Store.folded, String.toList_ofList, folded_sample,
        σ.str_text] at hmatched
      have hR := of_decide_eq_true hmatched.symm
      have hsame := hwrap.eq_of_length_le hR (length_sample_le _)
      exact ⟨s, rfl, plain_fold_iff.mp (plain_of_sample hsame)⟩
    | _ => cases hmatched
  · rintro ⟨s, rfl, hplain⟩ row
    rw [Option.any_some, hrel, σ.str_text]
    cases row c.name with
    | text t => exact Bool.eq_iff_iff.mpr ((hwrap.plain _ (plain_fold_iff.mpr hplain)).trans
        decide_eq_true_iff.symm)
    | _ => rfl

end Patterns

theorem columnOf_type {field : String} {c : Column} (h : columnOf field = some c)
    (htext : isTextType c.type) : c.type = "text" := by
  have hnone : ∀ p ∈ fieldMap, p.2.type ≠ "String" := by decide +kernel
  exact htext.resolve_left (hnone _ (mem_of_lookup h))

theorem whereClause_means_iff {db : Database} {field : String} {c : Column} {op : FilterOp}
    {value : Json} {fragment : Fragment} (hc : columnOf field = some c)
    (h : whereClause db c op value = some fragment) (haccepts : fragment.accepts db.store) :
    fragment.Means db.store (fun row => op.relates db.store c.type (row c.name) value) ↔
      Faithful op value := by
  unfold whereClause at h
  cases op with
  | compare k =>
    obtain rfl := Option.some.inj h
    exact iff_of_true (fun row => rfl) trivial
  | contains =>
    obtain rfl := Option.some.inj h
    apply ilike_means_iff wraps_infix (columnOf_type hc (of_decide_eq_true haccepts))
    intro cell s
    cases cell <;> rfl
  | starts_with =>
    obtain rfl := Option.some.inj h
    apply ilike_means_iff wraps_prefix (columnOf_type hc (of_decide_eq_true haccepts))
    intro cell s
    cases cell <;> rfl
  | isNull =>
    obtain rfl := Option.some.inj h
    refine iff_of_true (fun row => ?_) trivial
    cases htruthy : value.truthy <;> simp [Fragment.eval, FilterOp.relates, htruthy]
  | _ => cases h

end Acps.Audit
