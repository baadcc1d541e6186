import Mathlib.Data.List.Nodup

/-!
Rows under a key that a unique index guards.
-/

namespace Acps.Keyed

variable {ρ κ ε : Type} (key : ρ → κ)

def Unique (rows : List ρ) : Prop := (rows.map key).Nodup

section

variable [DecidableEq κ]

def find (rows : List ρ) (k : κ) : Option ρ := rows.find? fun row => key row = k

def insert (rows : List ρ) (row : ρ) (clash : ε) : Except ε (List ρ) :=
  if (find key rows (key row)).isSome then .error clash else .ok (rows ++ [row])

def modify (rows : List ρ) (k : κ) (f : ρ → ρ) : List ρ :=
  rows.map fun row => if key row = k then f row else row

end

variable {key} {rows : List ρ} {row : ρ} {k : κ}

theorem Unique.eq_of_key (hu : Unique key rows) {r s : ρ} (hr : r ∈ rows) (hs : s ∈ rows)
    (h : key r = key s) : r = s := List.inj_on_of_nodup_map hu hr hs h

theorem unique_append (hu : Unique key rows) (hfresh : ∀ r ∈ rows, key r ≠ key row) :
    Unique key (rows ++ [row]) := by
  unfold Unique
  rw [List.map_append, List.map_singleton, List.nodup_append]
  refine ⟨hu, List.nodup_singleton _, fun a ha b hb => ?_⟩
  obtain ⟨r, hr, rfl⟩ := List.mem_map.mp ha
  rw [List.mem_singleton.mp hb]
  exact hfresh r hr

variable [DecidableEq κ]

theorem find_eq_none : find key rows k = none ↔ ∀ row ∈ rows, key row ≠ k := by
  simp [find]

theorem mem_of_find (h : find key rows k = some row) : row ∈ rows := List.mem_of_find?_eq_some h

theorem key_of_find (h : find key rows k = some row) : key row = k := by
  unfold find at h
  simpa using List.find?_some h

theorem find_of_mem (hu : Unique key rows) (hr : row ∈ rows) :
    find key rows (key row) = some row := by
  cases hfind : find key rows (key row) with
  | none => exact absurd rfl (find_eq_none.mp hfind row hr)
  | some r => rw [hu.eq_of_key (mem_of_find hfind) hr (key_of_find hfind)]

theorem find_eq_some (hu : Unique key rows) :
    find key rows k = some row ↔ row ∈ rows ∧ key row = k := by
  constructor
  · exact fun h => ⟨mem_of_find h, key_of_find h⟩
  · rintro ⟨hr, rfl⟩
    exact find_of_mem hu hr

theorem find_map {f : ρ → ρ} (hf : ∀ r, key (f r) = key r) :
    find key (rows.map f) k = (find key rows k).map f := by
  unfold find
  rw [List.find?_map]
  simp only [Function.comp_def, hf]

theorem insert_eq_ok {clash : ε} {rows' : List ρ} :
    insert key rows row clash = .ok rows' ↔
      (∀ r ∈ rows, key r ≠ key row) ∧ rows' = rows ++ [row] := by
  unfold insert
  rw [← find_eq_none]
  cases find key rows (key row) with
  | none => simp [eq_comm]
  | some r => simp

section Modify

variable {f : ρ → ρ}

theorem mem_modify {r : ρ} : r ∈ modify key rows k f ↔
    ∃ old ∈ rows, r = if key old = k then f old else old := by
  simp [modify, eq_comm]

theorem unique_modify {κ' : Type} {other : ρ → κ'}
    (hf : ∀ r ∈ rows, key r = k → other (f r) = other r)
    (hu : Unique other rows) : Unique other (modify key rows k f) := by
  have hmap : (modify key rows k f).map other = rows.map other := by
    rw [modify, List.map_map]
    refine List.map_congr_left fun r hr => ?_
    rw [Function.comp_apply]
    split
    next hkey => exact hf r hr hkey
    next => rfl
  unfold Unique
  rwa [hmap]

theorem modify_eq_modify {κ' : Type} [DecidableEq κ'] {other : ρ → κ'} (hu : Unique key rows)
    (hu' : Unique other rows) (hr : row ∈ rows) :
    modify key rows (key row) f = modify other rows (other row) f := by
  refine List.map_congr_left fun r hmem => ?_
  by_cases h : key r = key row
  · obtain rfl := hu.eq_of_key hmem hr h
    rw [if_pos rfl, if_pos rfl]
  · have hother : other r ≠ other row := fun h' => h (congrArg key (hu'.eq_of_key hmem hr h'))
    rw [if_neg h, if_neg hother]

theorem find_modify_of_ne {j : κ} (hf : ∀ r, key r = k → key (f r) = k) (hne : j ≠ k) :
    find key (modify key rows k f) j = find key rows j := by
  induction rows with
  | nil => rfl
  | cons r rows ih =>
    have hkey : key (if key r = k then f r else r) = key r := by
      split
      next hk => exact (hf r hk).trans hk.symm
      next => rfl
    unfold find modify at ih ⊢
    rw [List.map_cons]
    by_cases hj : key r = j
    · have hk : key r ≠ k := fun h => hne (hj.symm.trans h)
      rw [if_neg hk, List.find?_cons_of_pos (by simpa using hj),
        List.find?_cons_of_pos (by simpa using hj)]
    · rw [List.find?_cons_of_neg (by simpa [hkey] using hj),
        List.find?_cons_of_neg (by simpa using hj)]
      exact ih

theorem find_modify_self (hf : ∀ r, key r = k → key (f r) = k) :
    find key (modify key rows k f) k = (find key rows k).map f := by
  induction rows with
  | nil => rfl
  | cons r rows ih =>
    unfold find modify at ih ⊢
    rw [List.map_cons]
    by_cases hk : key r = k
    · rw [if_pos hk, List.find?_cons_of_pos (by simpa using hf r hk),
        List.find?_cons_of_pos (by simpa using hk)]
      rfl
    · rw [if_neg hk, List.find?_cons_of_neg (by simpa using hk),
        List.find?_cons_of_neg (by simpa using hk)]
      exact ih

theorem mem_modify_const {new r : ρ} (hr : row ∈ rows) :
    r ∈ modify key rows (key row) (fun _ => new) ↔ r = new ∨ r ∈ rows ∧ key r ≠ key row := by
  rw [mem_modify]
  constructor
  · rintro ⟨old, hold, rfl⟩
    split
    next => exact .inl rfl
    next hne => exact .inr ⟨hold, hne⟩
  · rintro (rfl | ⟨hold, hne⟩)
    · exact ⟨row, hr, (if_pos rfl).symm⟩
    · exact ⟨r, hold, (if_neg hne).symm⟩

theorem modify_append (hfresh : ∀ r ∈ rows, key r ≠ key row) :
    modify key (rows ++ [row]) (key row) f = rows ++ [f row] := by
  unfold modify
  rw [List.map_append, List.map_singleton, if_pos rfl]
  refine congrArg (· ++ _) (List.map_congr_left (g := id) fun r hr => ?_) |>.trans ?_
  · exact if_neg (hfresh r hr)
  · rw [List.map_id]

theorem modify_modify_const {old new : ρ} (hold : key old = k) :
    modify key (modify key rows k fun _ => old) k (fun _ => new) = modify key rows k fun _ => new := by
  unfold modify
  rw [List.map_map]
  refine List.map_congr_left fun r _ => ?_
  rw [Function.comp_apply]
  by_cases h : key r = k
  · rw [if_pos h, if_pos hold, if_pos h]
  · rw [if_neg h, if_neg h]

end Modify

end Acps.Keyed
