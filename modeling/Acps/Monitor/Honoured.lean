import Acps.Access.Filters
import Acps.Audit.Patterns
import Acps.Audit.ScopedQueries
import Acps.Message.Filters

/-!
The query builders, and when the condition that a builder produces says all that the filter says.
-/

namespace Acps.Monitor

inductive Builder where
  | access (api : String) (fields : Fields)
  | messageEvents
  | messageLifecycle (api : String)
  | audit

structure Where where
  inner : List Fragment
  outer : List Fragment

namespace Where

variable (σ : Store) (w : Where)

def eval (row : Row) : Bool := (w.inner ++ w.outer).all fun fragment => fragment.eval σ row

def accepts : Bool := (w.inner ++ w.outer).all (Fragment.accepts σ)

end Where

namespace Builder

variable (db : Audit.Database) (b : Builder)

def build (f : AMPFilter) : Option Where :=
  match b with
  | access api fields => (Access.compileFilter api fields f).toOption.map fun w => ⟨[], w⟩
  | messageEvents =>
    (Message.compileFilter "events" Message.eventFilterFields f).toOption.map fun w => ⟨[], w⟩
  | messageLifecycle api => (Message.splitLifecycleWhere api f).toOption.map fun w => ⟨w.1, w.2⟩
  | audit => (Audit.filterClauses db f).toOption.map fun w => ⟨[], w⟩

def clause (c : AMPFilterCondition) : Option Fragment :=
  match b with
  | access api fields => (do
      let spec ← requireField api fields c.field
      Access.compileCondition spec c.op c.value).toOption
  | messageEvents =>
    (Message.compileSingleCondition "events" Message.eventFilterFields c).toOption
  | messageLifecycle api =>
    (Message.compileSingleCondition api Message.lifecycleFilterFields c).toOption
  | audit => (Audit.columnOf c.field).bind fun column => Audit.whereClause db column c.op c.value

def pushedDown (c : AMPFilterCondition) : Bool :=
  match b with
  | messageLifecycle _ => c.field ∈ Message.lifecycleImmutableFields
  | _ => false

def columnOf (field : String) : Option Column :=
  match b with
  | access api fields => (fieldOf api fields field).map FieldSpec.asColumn
  | messageEvents => (fieldOf "events" Message.eventFilterFields field).map FieldSpec.asColumn
  | messageLifecycle api => (fieldOf api Message.lifecycleFilterFields field).map FieldSpec.asColumn
  | audit => Audit.columnOf field

def view (row : Row) : Row :=
  match b with
  | messageEvents | messageLifecycle _ => Message.view row
  | access _ _ | audit => row

def holds (σ : Store) (row : Row) (c : AMPFilterCondition) : Bool :=
  c.holds σ b.columnOf (b.view row)

def parts (σ : Store) (conditions : List AMPFilterCondition) (groups : List AMPFilter) :
    List (Row → Bool) :=
  conditions.map (fun c row => b.holds σ row c) ++ groups.map fun g row => g.sat (b.holds σ row)

/-- The condition is met by the rows whose records satisfy the filter. Each condition and each group
is said by a fragment of its own, and joining them as fragments are joined is what the logic asks. -/
structure Honours (σ : Store) (f : AMPFilter) (w : Where) : Prop where
  exact : ∀ row, w.eval σ row = f.sat (b.holds σ row)
  inner : List.Forall₂ (Fragment.Means σ) w.inner (b.parts σ (f.conditions.filter b.pushedDown) [])
  outer : List.Forall₂ (Fragment.Means σ) w.outer
    (b.parts σ (f.conditions.filter fun c => ! b.pushedDown c) f.groups)
  logic : ∀ bits : List Bool, bits.length = f.conditions.length + f.groups.length →
    f.logic.combine bits = bits.all id

def Faithful (σ : Store) (c : AMPFilterCondition) : Prop :=
  match b with
  | access _ _ => c.op = .present → c.value.truthy = true
  | messageEvents => ∀ spec, fieldOf "events" Message.eventFilterFields c.field = some spec →
      Message.Faithful σ spec c.op c.value
  | messageLifecycle api => ∀ spec, fieldOf api Message.lifecycleFilterFields c.field = some spec →
      Message.Faithful σ spec c.op c.value
  | audit => Audit.Faithful c.op c.value

structure Sayable (σ : Store) (f : AMPFilter) : Prop where
  groups : f.groups = []
  logic : f.logic = .and ∨ f.conditions = [] ∨ f.logic = .or ∧ f.conditions.length = 1
  conditions : ∀ c ∈ f.conditions, b.Faithful σ c

section Leaves

variable {db b} {c : AMPFilterCondition} {fragment : Fragment}

theorem holds_field {σ : Store} {row : Row} {spec : FieldSpec}
    (hspec : b.columnOf c.field = some spec.asColumn) :
    b.holds σ row c = c.op.relates σ spec.chType (b.view row spec.column) c.value := by
  unfold holds AMPFilterCondition.holds
  rw [hspec]
  rfl

theorem toOption_eq_some {ε α : Type} {x : Except ε α} {a : α} :
    x.toOption = some a ↔ x = .ok a := by
  cases x <;> simp [Except.toOption]

theorem message_means_iff {σ : Store} {api : String} {fields : Fields}
    (htyped : ∀ p ∈ fields, p.2.column = "__aic_in_arrays" → p.2.chType = "String")
    (hcolumn : b.columnOf c.field = (fieldOf api fields c.field).map FieldSpec.asColumn)
    (hview : b.view = Message.view)
    (h : Message.compileSingleCondition api fields c = .ok fragment) (haccepts : fragment.accepts σ) :
    fragment.Means σ (fun row => b.holds σ row c) ↔
      ∀ spec, fieldOf api fields c.field = some spec → Message.Faithful σ spec c.op c.value := by
  obtain ⟨spec, hspec, _⟩ := Fallible.bind_eq_ok.mp h
  have hspec := requireField_eq_ok.mp hspec
  have hmeans := Message.compileSingleCondition_means_iff hspec (htyped _ (mem_of_fieldOf hspec)) h
    haccepts
  rw [hspec, Option.map_some] at hcolumn
  simp only [holds_field hcolumn, hview, hmeans, hspec, Option.some.injEq, forall_eq']

theorem clause_means_iff (h : b.clause db c = some fragment) (haccepts : fragment.accepts db.store) :
    fragment.Means db.store (fun row => b.holds db.store row c) ↔ b.Faithful db.store c := by
  cases b with
  | access api fields =>
    obtain ⟨spec, hspec, h⟩ := Fallible.bind_eq_ok.mp (toOption_eq_some.mp h)
    have hcolumn : (access api fields).columnOf c.field = some spec.asColumn :=
      congrArg (Option.map FieldSpec.asColumn) (requireField_eq_ok.mp hspec)
    simp only [holds_field hcolumn]
    exact Access.compileCondition_means_iff db.store h
  | messageEvents =>
    exact message_means_iff (by decide +kernel) rfl rfl (toOption_eq_some.mp h) haccepts
  | messageLifecycle api =>
    exact message_means_iff (by decide +kernel) rfl rfl (toOption_eq_some.mp h) haccepts
  | audit =>
    obtain ⟨column, hcolumn, h⟩ := Option.bind_eq_some_iff.mp h
    have hholds (row : Row) : audit.holds db.store row c =
        c.op.relates db.store column.type (row column.name) c.value := by
      unfold holds AMPFilterCondition.holds columnOf
      rw [hcolumn]
      rfl
    simp only [hholds]
    exact Audit.whereClause_means_iff hcolumn h haccepts

end Leaves

section Fragments

variable {α β : Type} {q : α → Bool} {g : α → Option β} {as : List α}

theorem split_of_forall₂ {ps : List (Bool × β)}
    (h : List.Forall₂ (fun a p => q a = p.1 ∧ g a = some p.2) as ps) :
    (ps.filter (·.1)).map (·.2) = (as.filter q).filterMap g ∧
      (ps.filter fun p => ! p.1).map (·.2) = (as.filter fun a => ! q a).filterMap g := by
  induction h with
  | nil => exact ⟨rfl, rfl⟩
  | cons hhead _ ih =>
    obtain ⟨hq, hg⟩ := hhead
    rename_i a p _ _ _
    cases hp : p.1 <;> simp_all

theorem filterMap_of_forall₂ {bs : List β} (h : List.Forall₂ (fun a b => g a = some b) as bs) :
    as.filterMap g = bs := by
  induction h with
  | nil => rfl
  | cons hg _ ih => rw [List.filterMap_cons_some hg, ih]

theorem isSome_of_forall₂ {γ : Type} {R : α → γ → Prop} {cs : List γ} (h : List.Forall₂ R as cs)
    (hg : ∀ a c, R a c → (g a).isSome) : ∀ a ∈ as, (g a).isSome := by
  induction h with
  | nil => exact fun a ha => by cases ha
  | cons hhead _ ih => exact List.forall_mem_cons.mpr ⟨hg _ _ hhead, ih⟩

theorem forall₂_filterMap_iff {γ : Type} {R : β → γ → Prop} {m : α → γ} {rest : List γ} :
    List.Forall₂ R (as.filterMap g) (as.map m ++ rest) ↔
      rest = [] ∧ ∀ a ∈ as, ∃ b, g a = some b ∧ R b (m a) := by
  constructor
  · intro h
    induction as with
    | nil => exact ⟨List.forall₂_nil_left_iff.mp h, fun a ha => by cases ha⟩
    | cons a as ih =>
      cases hg : g a with
      | none =>
        rw [List.filterMap_cons_none hg] at h
        have hlength := h.length_eq
        have hle := List.length_filterMap_le g as
        simp only [List.map_cons, List.length_append, List.length_cons, List.length_map] at hlength
        omega
      | some b =>
        rw [List.filterMap_cons_some hg] at h
        obtain ⟨hb, h⟩ := List.forall₂_cons.mp h
        obtain ⟨hrest, has⟩ := ih h
        exact ⟨hrest, List.forall_mem_cons.mpr ⟨⟨b, hg, hb⟩, has⟩⟩
  · rintro ⟨rfl, h⟩
    rw [List.append_nil]
    induction as with
    | nil => exact .nil
    | cons a as ih =>
      obtain ⟨⟨b, hg, hb⟩, h⟩ := List.forall_mem_cons.mp h
      rw [List.filterMap_cons_some hg]
      exact .cons hb (ih h)

end Fragments

section Building

variable {db b} {f : AMPFilter} {w : Where}

theorem outerOnly {fragments : List Fragment} (hpushed : ∀ c, b.pushedDown c = false)
    (hsame : f.conditions.filterMap (b.clause db) = fragments) :
    (⟨[], fragments⟩ : Where).inner = (f.conditions.filter b.pushedDown).filterMap (b.clause db) ∧
      (⟨[], fragments⟩ : Where).outer =
        (f.conditions.filter fun c => ! b.pushedDown c).filterMap (b.clause db) := by
  simp [hpushed, hsame]

theorem message_forall₂ {api : String} {fields : Fields} {fragments : List Fragment}
    (h : Message.compileFilter api fields f = .ok fragments) :
    List.Forall₂ (fun c fragment => Message.compileSingleCondition api fields c = .ok fragment)
      f.conditions fragments := by
  unfold Message.compileFilter at h
  split at h
  next hempty =>
    obtain rfl := Fallible.pure_eq_ok.mp h
    rw [hempty.1]
    exact .nil
  next =>
    obtain ⟨_, _, h⟩ := Fallible.bind_eq_ok.mp h
    exact Fallible.forall₂_of_mapM h

theorem lifecycle_forall₂ (db : Audit.Database) {api : String} {split : List Fragment × List Fragment}
    (h : Message.splitLifecycleWhere api f = .ok split) :
    ∃ fragments : List (Bool × Fragment),
      List.Forall₂ (fun c p => (messageLifecycle api).pushedDown c = p.1 ∧
        (messageLifecycle api).clause db c = some p.2) f.conditions fragments ∧
      split = ((fragments.filter (·.1)).map (·.2), (fragments.filter fun p => ! p.1).map (·.2)) := by
  obtain ⟨fragments, hfragments, h⟩ := Fallible.bind_eq_ok.mp h
  refine ⟨fragments, (Fallible.forall₂_of_mapM hfragments).imp fun c p hp => ?_,
    (Fallible.pure_eq_ok.mp h).symm⟩
  obtain ⟨fragment, hfragment, hp⟩ := Fallible.bind_eq_ok.mp hp
  obtain rfl := Fallible.pure_eq_ok.mp hp
  exact ⟨rfl, toOption_eq_some.mpr hfragment⟩

theorem audit_clause_isSome {c : AMPFilterCondition} (hcolumn : (Audit.columnOf c.field).isSome)
    (hfaithful : Audit.Faithful c.op c.value) : (audit.clause db c).isSome := by
  obtain ⟨column, hcolumn⟩ := Option.isSome_iff_exists.mp hcolumn
  unfold clause
  simp only [hcolumn, Option.bind_some]
  unfold Audit.Faithful at hfaithful
  unfold Audit.whereClause
  split at hfaithful <;> simp_all

theorem build_eq_some (h : b.build db f = some w) :
    (w.inner = (f.conditions.filter b.pushedDown).filterMap (b.clause db) ∧
      w.outer = (f.conditions.filter fun c => ! b.pushedDown c).filterMap (b.clause db)) ∧
    ∀ c ∈ f.conditions, b.Faithful db.store c → (b.clause db c).isSome := by
  have hmade {g : AMPFilterCondition → Except FilterError Fragment} {fragments : List Fragment}
      (hg : ∀ c, b.clause db c = (g c).toOption)
      (hall : List.Forall₂ (fun c fragment => g c = .ok fragment) f.conditions fragments) :
      f.conditions.filterMap (b.clause db) = fragments ∧
        ∀ c ∈ f.conditions, (b.clause db c).isSome := by
    have hall : List.Forall₂ (fun c fragment => b.clause db c = some fragment) f.conditions
        fragments := hall.imp fun c fragment hc => (hg c).trans (toOption_eq_some.mpr hc)
    exact ⟨filterMap_of_forall₂ hall,
      isSome_of_forall₂ hall fun c fragment hc => Option.isSome_iff_exists.mpr ⟨fragment, hc⟩⟩
  cases b with
  | access api fields =>
    obtain ⟨fragments, hfragments, rfl⟩ := Option.map_eq_some_iff.mp h
    obtain ⟨hsame, hsome⟩ := hmade (fun c => rfl)
      (Fallible.forall₂_of_mapM (toOption_eq_some.mp hfragments))
    exact ⟨outerOnly (fun _ => rfl) hsame, fun c hc _ => hsome c hc⟩
  | messageEvents =>
    obtain ⟨fragments, hfragments, rfl⟩ := Option.map_eq_some_iff.mp h
    obtain ⟨hsame, hsome⟩ := hmade (fun c => rfl) (message_forall₂ (toOption_eq_some.mp hfragments))
    exact ⟨outerOnly (fun _ => rfl) hsame, fun c hc _ => hsome c hc⟩
  | messageLifecycle api =>
    obtain ⟨split, hsplit, rfl⟩ := Option.map_eq_some_iff.mp h
    obtain ⟨fragments, hall, rfl⟩ := lifecycle_forall₂ db (toOption_eq_some.mp hsplit)
    refine ⟨split_of_forall₂ hall, fun c hc _ => ?_⟩
    exact isSome_of_forall₂ hall
      (fun c p hc => Option.isSome_iff_exists.mpr ⟨p.2, hc.2⟩) c hc
  | audit =>
    obtain ⟨fragments, hfragments, rfl⟩ := Option.map_eq_some_iff.mp h
    obtain ⟨_, hvalid, hfragments⟩ := Fallible.bind_eq_ok.mp (toOption_eq_some.mp hfragments)
    refine ⟨outerOnly (fun _ => rfl) (Fallible.pure_eq_ok.mp hfragments), fun c hc hfaithful => ?_⟩
    exact audit_clause_isSome (Fallible.forM_require_eq_ok.mp hvalid c hc) hfaithful

theorem accepts_of_clause {c : AMPFilterCondition} {fragment : Fragment}
    (h : b.build db f = some w) (haccepts : w.accepts db.store = true) (hc : c ∈ f.conditions)
    (hclause : b.clause db c = some fragment) : fragment.accepts db.store = true := by
  obtain ⟨⟨hinner, houter⟩, _⟩ := build_eq_some h
  apply List.all_eq_true.mp haccepts
  rw [hinner, houter]
  cases hpushed : b.pushedDown c with
  | true =>
    apply List.mem_append_left
    exact List.mem_filterMap.mpr ⟨c, List.mem_filter.mpr ⟨hc, hpushed⟩, hclause⟩
  | false =>
    apply List.mem_append_right
    exact List.mem_filterMap.mpr ⟨c, List.mem_filter.mpr ⟨hc, by simp [hpushed]⟩, hclause⟩

theorem says_iff {c : AMPFilterCondition} (h : b.build db f = some w)
    (haccepts : w.accepts db.store = true) (hc : c ∈ f.conditions) :
    (∃ fragment, b.clause db c = some fragment ∧
      fragment.Means db.store (fun row => b.holds db.store row c)) ↔ b.Faithful db.store c := by
  constructor
  · rintro ⟨fragment, hclause, hmeans⟩
    exact (clause_means_iff hclause (accepts_of_clause h haccepts hc hclause)).mp hmeans
  · intro hfaithful
    obtain ⟨fragment, hclause⟩ := Option.isSome_iff_exists.mp ((build_eq_some h).2 c hc hfaithful)
    have haccepted := accepts_of_clause h haccepts hc hclause
    exact ⟨fragment, hclause, (clause_means_iff hclause haccepted).mpr hfaithful⟩

end Building

theorem logic_iff {logic : FilterLogic} {n : ℕ} :
    (∀ bits : List Bool, bits.length = n → logic.combine bits = bits.all id) ↔
      logic = .and ∨ n = 0 ∨ logic = .or ∧ n = 1 := by
  constructor
  · intro h
    match logic, n with
    | .and, _ => exact .inl rfl
    | _, 0 => exact .inr (.inl rfl)
    | .or, 1 => exact .inr (.inr ⟨rfl, rfl⟩)
    | .or, n + 2 => cases h (true :: false :: List.replicate n true) (by simp)
    | .not, n + 1 =>
      have hall := h (List.replicate (n + 1) true) List.length_replicate
      simp [List.replicate_succ, FilterLogic.combine] at hall
  · rintro (rfl | rfl | ⟨rfl, rfl⟩) bits hbits
    · exact combine_and bits
    · rw [List.length_eq_zero_iff.mp hbits]
      rfl
    · obtain ⟨bit, rfl⟩ := List.length_eq_one_iff.mp hbits
      cases bit <;> rfl

section Exactness

variable {σ : Store} {b} {f : AMPFilter} {w : Where}

theorem satGroups_eq_map {holds : AMPFilterCondition → Bool} {groups : List AMPFilter} :
    satGroups holds groups = groups.map fun g => g.sat holds := by
  induction groups with
  | nil => rfl
  | cons g groups ih => rw [satGroups, ih, List.map_cons]

theorem all_of_forall₂ {fragments : List Fragment} {parts : List (Row → Bool)}
    (h : List.Forall₂ (Fragment.Means σ) fragments parts) (row : Row) :
    fragments.all (fun fragment => fragment.eval σ row) = parts.all fun part => part row := by
  induction h with
  | nil => rfl
  | cons hhead _ ih => rw [List.all_cons, List.all_cons, hhead row, ih]

theorem exact_of_parts
    (hinner : List.Forall₂ (Fragment.Means σ) w.inner
      (b.parts σ (f.conditions.filter b.pushedDown) []))
    (houter : List.Forall₂ (Fragment.Means σ) w.outer
      (b.parts σ (f.conditions.filter fun c => ! b.pushedDown c) f.groups))
    (hlogic : ∀ bits : List Bool, bits.length = f.conditions.length + f.groups.length →
      f.logic.combine bits = bits.all id) (row : Row) : w.eval σ row = f.sat (b.holds σ row) := by
  rw [AMPFilter.sat_eq, satGroups_eq_map, hlogic _ (by simp), Where.eval, List.all_append,
    all_of_forall₂ hinner, all_of_forall₂ houter, Bool.eq_iff_iff]
  simp only [parts, Bool.and_eq_true, List.all_eq_true, List.forall_mem_append,
    List.forall_mem_map, List.mem_filter, List.map_nil, List.not_mem_nil, false_imp_iff,
    implies_true, and_true, id]
  constructor
  · rintro ⟨hpushed, hrest, hgroups⟩
    refine ⟨fun c hc => ?_, hgroups⟩
    cases hc' : b.pushedDown c with
    | true => exact hpushed c ⟨hc, hc'⟩
    | false => exact hrest c ⟨hc, by simp [hc']⟩
  · rintro ⟨hconditions, hgroups⟩
    exact ⟨fun c hc => hconditions c hc.1, fun c hc => hconditions c hc.1, hgroups⟩

end Exactness

theorem filter_honoured_iff (db : Audit.Database) (b : Builder) (f : AMPFilter) :
    (∀ w, b.build db f = some w → w.accepts db.store = true → b.Honours db.store f w) ↔
      ((∃ w, b.build db f = some w ∧ w.accepts db.store = true) → b.Sayable db.store f) := by
  rw [forall_exists_index]
  refine forall_congr' fun w => ?_
  rw [and_imp]
  refine forall₂_congr fun hbuild haccepts => ?_
  obtain ⟨⟨hinner, houter⟩, _⟩ := build_eq_some hbuild
  have htells {c : AMPFilterCondition} (hc : c ∈ f.conditions) := says_iff hbuild haccepts hc
  constructor
  · rintro ⟨_, hsaidInner, hsaidOuter, hlogic⟩
    rw [hinner] at hsaidInner
    rw [houter] at hsaidOuter
    have hpushed := (forall₂_filterMap_iff.mp hsaidInner).2
    obtain ⟨hgroups, hrest⟩ := forall₂_filterMap_iff.mp hsaidOuter
    have hgroups := List.map_eq_nil_iff.mp hgroups
    refine ⟨hgroups, ?_, fun c hc => (htells hc).mp ?_⟩
    · rw [hgroups] at hlogic
      have hlogic := logic_iff.mp hlogic
      rwa [List.length_nil, Nat.add_zero, List.length_eq_zero_iff] at hlogic
    · cases hc' : b.pushedDown c with
      | true => exact hpushed c (List.mem_filter.mpr ⟨hc, hc'⟩)
      | false => exact hrest c (List.mem_filter.mpr ⟨hc, by simp [hc']⟩)
  · rintro ⟨hgroups, hlogic, hfaithful⟩
    have hinner : List.Forall₂ (Fragment.Means db.store) w.inner
        (b.parts db.store (f.conditions.filter b.pushedDown) []) := by
      rw [hinner]
      apply forall₂_filterMap_iff.mpr ⟨rfl, fun c hc => ?_⟩
      have hc := (List.mem_filter.mp hc).1
      exact (htells hc).mpr (hfaithful c hc)
    have houter : List.Forall₂ (Fragment.Means db.store) w.outer
        (b.parts db.store (f.conditions.filter fun c => ! b.pushedDown c) f.groups) := by
      rw [houter, hgroups]
      apply forall₂_filterMap_iff.mpr ⟨rfl, fun c hc => ?_⟩
      have hc := (List.mem_filter.mp hc).1
      exact (htells hc).mpr (hfaithful c hc)
    have hlogic : ∀ bits : List Bool, bits.length = f.conditions.length + f.groups.length →
        f.logic.combine bits = bits.all id := by
      rw [hgroups]
      apply logic_iff.mpr
      rwa [List.length_nil, Nat.add_zero, List.length_eq_zero_iff]
    exact ⟨exact_of_parts hinner houter hlogic, hinner, houter, hlogic⟩

namespace Sample

def eqText (field value : String) : AMPFilterCondition :=
  { field, op := .compare .eq, value := .str value }

def rowOf (s : String) : Row := fun _ => .text s

end Sample

open Audit.Sample in
theorem filters_not_honoured :
    (∃ w, (access "events" Access.eventFilterFields).build database
        (.mk [] [.mk [Sample.eqText "aic" "a"] [] .and] .and) = some w ∧
      w.accepts database.store = true ∧ w.eval database.store (Sample.rowOf "b") = true ∧
      ¬ (access "events" Access.eventFilterFields).Honours database.store
        (.mk [] [.mk [Sample.eqText "aic" "a"] [] .and] .and) w) ∧
    (∃ w, messageEvents.build database
        (.mk [{ field := "routing.key", op := .isNull, value := .bool false }] [] .and) = some w ∧
      w.accepts database.store = true ∧ w.eval database.store (Sample.rowOf "b") = false ∧
      ¬ messageEvents.Honours database.store
        (.mk [{ field := "routing.key", op := .isNull, value := .bool false }] [] .and) w) ∧
    (∃ w, (messageLifecycle "lifecycles").build database
        (.mk [Sample.eqText "system" "a", Sample.eqText "traceId" "b"] [] .or) = some w ∧
      w.accepts database.store = true ∧ w.eval database.store (Sample.rowOf "b") = false ∧
      ¬ (messageLifecycle "lifecycles").Honours database.store
        (.mk [Sample.eqText "system" "a", Sample.eqText "traceId" "b"] [] .or) w) ∧
    ∃ w, audit.build database
        (.mk [{ field := "aic", op := .isIn, value := .arr [.str "a"] }] [] .and) = some w ∧
      w.accepts database.store = true ∧ w.eval database.store (Sample.rowOf "b") = true ∧
      ¬ audit.Honours database.store
        (.mk [{ field := "aic", op := .isIn, value := .arr [.str "a"] }] [] .and) w := by
  refine ⟨⟨_, rfl, rfl, rfl, fun h => ?_⟩, ⟨_, rfl, rfl, rfl, fun h => ?_⟩,
    ⟨_, rfl, by decide +kernel, by decide +kernel, fun h => ?_⟩, ⟨_, rfl, rfl, rfl, fun h => ?_⟩⟩
  all_goals exact absurd (h.exact (Sample.rowOf "b")) (by decide +kernel)

end Builder

end Acps.Monitor
