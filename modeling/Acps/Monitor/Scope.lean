import Acps.Aic.Text
import Acps.Lib.Fallible
import Acps.Monitor.Filter
import Mathlib.Data.Fintype.EquivFin
import Mathlib.Data.List.DropRight

/-!
The scope of a principal, and how a request is narrowed to it by conditions added to its filter.
-/

namespace Acps.Monitor

structure HumanPrincipal where
  tenantId : Option String
  allowedAics : List String
  roles : List String

structure AuthSettings where
  oidcEnabled : Bool
  globalAdminRoles : List String

structure PrincipalScope where
  tenantId : Option String
  allowedAics : List String
  isAdmin : Bool
  deriving DecidableEq

structure Forbidden where
  detail : String
  deriving DecidableEq

structure ScopeFields where
  aicField : Option String
  tenantField : Option String

def strip (s : String) : String :=
  String.ofList ((s.toList.dropWhile Aic.isSpace).rdropWhile Aic.isSpace)

def roleSet (values : List String) : List String := (values.map strip).filter (· ≠ "")

def hasAnyRole (principal : HumanPrincipal) (allowedRoles : List String) : Bool :=
  principal.roles.any (· ∈ roleSet allowedRoles)

def tenantOf (tenantId : Option String) : Option String := tenantId.filter (· ≠ "")

def principalScopeFilter (settings : AuthSettings) (principal : Option HumanPrincipal) :
    Except Forbidden PrincipalScope :=
  match principal with
  | none => .ok { tenantId := none, allowedAics := [], isAdmin := true }
  | some principal =>
    if ¬ settings.oidcEnabled then .ok { tenantId := none, allowedAics := [], isAdmin := true }
    else if hasAnyRole principal settings.globalAdminRoles then
      .ok { tenantId := principal.tenantId, allowedAics := principal.allowedAics, isAdmin := true }
    else if (tenantOf principal.tenantId).isSome ∨ principal.allowedAics ≠ [] then
      .ok { tenantId := principal.tenantId, allowedAics := principal.allowedAics, isAdmin := false }
    else .error { detail := "Principal has no tenant_id or allowed_aics scope" }

def tenantConditions (tenantField : Option String) (scope : PrincipalScope) :
    List AMPFilterCondition :=
  match tenantField, tenantOf scope.tenantId with
  | some field, some tenant => [{ field, op := .compare .eq, value := .str tenant }]
  | _, _ => []

def aicConditions (aicField : Option String) (scope : PrincipalScope) : List AMPFilterCondition :=
  match aicField, scope.allowedAics with
  | none, _ | some _, [] => []
  | some field, [aic] => [{ field, op := .compare .eq, value := .str aic }]
  | some field, aic :: other :: aics =>
    [{ field, op := .isIn, value := .arr ((aic :: other :: aics).map .str) }]

def scopeConditions (fields : ScopeFields) (scope : PrincipalScope) : List AMPFilterCondition :=
  tenantConditions fields.tenantField scope ++ aicConditions fields.aicField scope

def AMPFilter.none : AMPFilter := .mk [] [] .and

def applyRequestScope (settings : AuthSettings) (fields : ScopeFields)
    (principal : Option HumanPrincipal) (filter : Option AMPFilter) :
    Except Forbidden (Option AMPFilter) := do
  let scope ← principalScopeFilter settings principal
  if scope.isAdmin then return filter
  else
    let f := filter.getD .none
    let conditions := f.conditions ++ scopeConditions fields scope
    Fallible.require (conditions ≠ [])
      { detail := "Request scope cannot be derived for this principal" : Forbidden }
    return some (.mk conditions f.groups f.logic)

/-- Records under the meaning of the conditions that a scope is put in. There is no end to the
agents that records may be of, and a record may be of no tenant. -/
structure ScopedRecords (ρ : Type) (fields : ScopeFields) where
  tenant : ρ → Option String
  aic : ρ → String
  holds : ρ → AMPFilterCondition → Bool
  holds_tenant : ∀ field ∈ fields.tenantField, ∀ r t,
    holds r { field, op := .compare .eq, value := .str t } = decide (tenant r = some t)
  holds_aic : ∀ field ∈ fields.aicField, ∀ r a,
    holds r { field, op := .compare .eq, value := .str a } = decide (aic r = a)
  holds_aic_in : ∀ field ∈ fields.aicField, ∀ r, ∀ as : List String,
    holds r { field, op := .isIn, value := .arr (as.map .str) } = decide (aic r ∈ as)
  stranger : ∀ as : List String, ∃ r, tenant r = none ∧ aic r ∉ as

def PrincipalScope.Allows {ρ : Type} {fields : ScopeFields} (scope : PrincipalScope)
    (M : ScopedRecords ρ fields) (r : ρ) : Prop :=
  (∀ t ∈ tenantOf scope.tenantId, M.tenant r = some t) ∧
  (scope.allowedAics ≠ [] → M.aic r ∈ scope.allowedAics)

section Scoping

variable {ρ : Type} {fields : ScopeFields} (M : ScopedRecords ρ fields) {settings : AuthSettings}
  {principal : Option HumanPrincipal} {scope : PrincipalScope} {filter : Option AMPFilter}
  {narrowed : Option AMPFilter}

/-- A request that is not refused lets a record through only if the scope and the caller do. -/
def Narrows (scope : PrincipalScope) (f narrowed : AMPFilter) : Prop :=
  ∀ r, narrowed.sat (M.holds r) = true → scope.Allows M r ∧ f.sat (M.holds r) = true

def AMPFilter.withConditions (f : AMPFilter) (added : List AMPFilterCondition) : AMPFilter :=
  .mk (f.conditions ++ added) f.groups f.logic

theorem applyRequestScope_eq_ok
    (hscope : principalScopeFilter settings principal = .ok scope) (hadmin : scope.isAdmin = false)
    (h : applyRequestScope settings fields principal filter = .ok narrowed) :
    (filter.getD .none).conditions ++ scopeConditions fields scope ≠ [] ∧
      narrowed = some ((filter.getD .none).withConditions (scopeConditions fields scope)) := by
  obtain ⟨scope', hscope', h⟩ := Fallible.bind_eq_ok.mp h
  obtain rfl := Except.ok.inj (hscope.symm.trans hscope')
  rw [hadmin] at h
  obtain ⟨_, hne, h⟩ := Fallible.bind_eq_ok.mp h
  exact ⟨Fallible.require_eq_ok.mp hne, (Fallible.pure_eq_ok.mp h).symm⟩

theorem holds_tenantConditions {c : AMPFilterCondition}
    (hc : c ∈ tenantConditions fields.tenantField scope) (r : ρ) :
    M.holds r c = true ↔ ∀ t ∈ tenantOf scope.tenantId, M.tenant r = some t := by
  unfold tenantConditions at hc
  split at hc
  next field tenant hfield htenant =>
    obtain rfl := List.mem_singleton.mp hc
    rw [M.holds_tenant field hfield, htenant, decide_eq_true_iff]
    exact ⟨fun h t ht => Option.some.inj ht ▸ h, fun h => h tenant rfl⟩
  · cases hc

theorem holds_aicConditions {c : AMPFilterCondition}
    (hc : c ∈ aicConditions fields.aicField scope) (r : ρ) :
    M.holds r c = true ↔ (scope.allowedAics ≠ [] → M.aic r ∈ scope.allowedAics) := by
  unfold aicConditions at hc
  split at hc
  · cases hc
  · cases hc
  next field aic hfield haics =>
    obtain rfl := List.mem_singleton.mp hc
    rw [M.holds_aic field hfield, haics, decide_eq_true_iff]
    simp
  next field aic other aics hfield haics =>
    obtain rfl := List.mem_singleton.mp hc
    rw [M.holds_aic_in field hfield, haics, decide_eq_true_iff]
    simp

theorem holds_of_allows {c : AMPFilterCondition} {r : ρ} (hc : c ∈ scopeConditions fields scope)
    (h : scope.Allows M r) : M.holds r c = true := by
  rcases List.mem_append.mp hc with hc | hc
  · exact (holds_tenantConditions M hc r).mpr h.1
  · exact (holds_aicConditions M hc r).mpr h.2

theorem exists_not_holds (scope : PrincipalScope) {c : AMPFilterCondition}
    (hc : c ∈ scopeConditions fields scope) : ∃ r, M.holds r c = false := by
  obtain ⟨r, htenant, haic⟩ := M.stranger scope.allowedAics
  refine ⟨r, Bool.eq_false_iff.mpr fun h => ?_⟩
  rcases List.mem_append.mp hc with hc | hc
  · have hall := (holds_tenantConditions M hc r).mp h
    unfold tenantConditions at hc
    split at hc
    next field tenant _ hsome =>
      rw [hall tenant hsome] at htenant
      cases htenant
    · cases hc
  · have hall := (holds_aicConditions M hc r).mp h
    refine haic (hall fun hempty => ?_)
    unfold aicConditions at hc
    split at hc
    · cases hc
    · cases hc
    next haics => rw [haics] at hempty; cases hempty
    next haics => rw [haics] at hempty; cases hempty

def AMPFilter.Empty (f : AMPFilter) : Prop := f.conditions = [] ∧ f.groups = []

section Sat

variable {f : AMPFilter} {added : List AMPFilterCondition} {holds : AMPFilterCondition → Bool}

def AMPFilter.parts (f : AMPFilter) (holds : AMPFilterCondition → Bool) : List Bool :=
  f.conditions.map holds ++ satGroups holds f.groups

theorem parts_eq_nil (holds : AMPFilterCondition → Bool) : f.parts holds = [] ↔ f.Empty := by
  unfold AMPFilter.parts AMPFilter.Empty
  rw [List.append_eq_nil_iff, List.map_eq_nil_iff]
  cases f.groups <;> simp [satGroups]

theorem mem_parts_withConditions {b : Bool} :
    b ∈ (f.withConditions added).parts holds ↔ b ∈ f.parts holds ∨ ∃ c ∈ added, holds c = b := by
  obtain ⟨conditions, groups, logic⟩ := f
  simp only [AMPFilter.parts, AMPFilter.withConditions, AMPFilter.conditions, AMPFilter.groups,
    List.map_append, List.mem_append, List.mem_map]
  exact or_right_comm

theorem parts_withConditions_ne_nil (hadded : added ≠ []) :
    (f.withConditions added).parts holds ≠ [] := by
  obtain ⟨c, hc⟩ := List.exists_mem_of_ne_nil added hadded
  have hmem : holds c ∈ (f.withConditions added).parts holds :=
    mem_parts_withConditions.mpr (.inr ⟨c, hc, rfl⟩)
  exact List.ne_nil_of_mem hmem

theorem sat_and (hlogic : f.logic = .and) :
    f.sat holds = true ↔ ∀ b ∈ f.parts holds, b = true := by
  rw [AMPFilter.sat_eq, hlogic, combine_and, List.all_eq_true]
  rfl

theorem sat_or (hlogic : f.logic = .or) :
    f.sat holds = true ↔ f.Empty ∨ true ∈ f.parts holds := by
  rw [AMPFilter.sat_eq, hlogic, ← parts_eq_nil holds]
  change FilterLogic.or.combine (f.parts holds) = true ↔ _
  by_cases h : f.parts holds = []
  · rw [h]
    exact iff_of_true rfl (.inl rfl)
  · rw [combine_of_ne_nil_or h, List.any_eq_true]
    simp [h]

theorem sat_not (hlogic : f.logic = .not) :
    f.sat holds = true ↔ f.Empty ∨ false ∈ f.parts holds := by
  rw [AMPFilter.sat_eq, hlogic, ← parts_eq_nil holds]
  change FilterLogic.not.combine (f.parts holds) = true ↔ _
  by_cases h : f.parts holds = []
  · rw [h]
    exact iff_of_true rfl (.inl rfl)
  · rw [combine_of_ne_nil_not h]
    simp [h]

end Sat

def Confined (scope : PrincipalScope) (f : AMPFilter) : Prop :=
  if scopeConditions fields scope = [] then ∀ r, f.sat (M.holds r) = true → scope.Allows M r
  else
    match f.logic with
    | .and => ∀ r, f.sat (M.holds r) = true →
        (∀ c ∈ scopeConditions fields scope, M.holds r c = true) → scope.Allows M r
    | .or => (f.Empty ∨ ∀ r, f.sat (M.holds r) = true ↔ scope.Allows M r) ∧
        ∀ c ∈ scopeConditions fields scope, ∀ r, M.holds r c = true → scope.Allows M r
    | .not => False

section Logics

variable {f : AMPFilter}

theorem narrows_and (hlogic : f.logic = .and) :
    Narrows M scope f (f.withConditions (scopeConditions fields scope)) ↔
      ∀ r, f.sat (M.holds r) = true → (∀ c ∈ scopeConditions fields scope, M.holds r c = true) →
        scope.Allows M r := by
  have hsat (r : ρ) : (f.withConditions (scopeConditions fields scope)).sat (M.holds r) = true ↔
      f.sat (M.holds r) = true ∧ ∀ c ∈ scopeConditions fields scope, M.holds r c = true := by
    rw [sat_and hlogic, sat_and (f := f.withConditions _) hlogic]
    simp only [mem_parts_withConditions]
    constructor
    · exact fun h => ⟨fun b hb => h b (.inl hb), fun c hc => h _ (.inr ⟨c, hc, rfl⟩)⟩
    · rintro ⟨hown, hscope⟩ b (hb | ⟨c, hc, rfl⟩)
      · exact hown b hb
      · exact hscope c hc
  constructor
  · exact fun h r hf hc => (h r ((hsat r).mpr ⟨hf, hc⟩)).1
  · intro h r hr
    obtain ⟨hf, hc⟩ := (hsat r).mp hr
    exact ⟨h r hf hc, hf⟩

theorem narrows_or (hlogic : f.logic = .or) (hne : scopeConditions fields scope ≠ []) :
    Narrows M scope f (f.withConditions (scopeConditions fields scope)) ↔
      (f.Empty ∨ ∀ r, f.sat (M.holds r) = true ↔ scope.Allows M r) ∧
        ∀ c ∈ scopeConditions fields scope, ∀ r, M.holds r c = true → scope.Allows M r := by
  have hsat (r : ρ) : (f.withConditions (scopeConditions fields scope)).sat (M.holds r) = true ↔
      true ∈ f.parts (M.holds r) ∨ ∃ c ∈ scopeConditions fields scope, M.holds r c = true := by
    rw [sat_or (f := f.withConditions _) hlogic, mem_parts_withConditions,
      ← parts_eq_nil (M.holds r)]
    exact or_iff_right (parts_withConditions_ne_nil hne)
  constructor
  · intro h
    have hscope : ∀ c ∈ scopeConditions fields scope, ∀ r, M.holds r c = true →
        scope.Allows M r ∧ f.sat (M.holds r) = true :=
      fun c hc r hr => h r ((hsat r).mpr (.inr ⟨c, hc, hr⟩))
    refine ⟨?_, fun c hc r hr => (hscope c hc r hr).1⟩
    by_cases hempty : f.Empty
    · exact .inl hempty
    · refine .inr fun r => ⟨fun hf => ?_, fun hr => ?_⟩
      · exact (h r ((hsat r).mpr (.inl (((sat_or hlogic).mp hf).resolve_left hempty)))).1
      · obtain ⟨c, hc⟩ := List.exists_mem_of_ne_nil _ hne
        exact (hscope c hc r (holds_of_allows M hc hr)).2
  · rintro ⟨hown, hscope⟩ r hr
    have hallows : scope.Allows M r := by
      rcases (hsat r).mp hr with hparts | ⟨c, hc, hr⟩
      · rcases hown with hempty | hiff
        · rw [(parts_eq_nil _).mpr hempty] at hparts
          cases hparts
        · exact (hiff r).mp ((sat_or hlogic).mpr (.inr hparts))
      · exact hscope c hc r hr
    refine ⟨hallows, ?_⟩
    rcases hown with hempty | hiff
    · exact (sat_or hlogic).mpr (.inl hempty)
    · exact (hiff r).mpr hallows

theorem not_narrows_not (hlogic : f.logic = .not) (hne : scopeConditions fields scope ≠ []) :
    ¬ Narrows M scope f (f.withConditions (scopeConditions fields scope)) := by
  intro h
  obtain ⟨c, hc⟩ := List.exists_mem_of_ne_nil _ hne
  -- a record that one of the added conditions shuts out is let through
  obtain ⟨r, hr⟩ := exists_not_holds M scope hc
  have hsat : (f.withConditions (scopeConditions fields scope)).sat (M.holds r) = true :=
    (sat_not (f := f.withConditions _) hlogic).mpr
      (.inr (mem_parts_withConditions.mpr (.inr ⟨c, hc, hr⟩)))
  have hholds := holds_of_allows M hc (h r hsat).1
  rw [hr] at hholds
  cases hholds

end Logics

theorem scope_injection_iff
    (hscope : principalScopeFilter settings principal = .ok scope) (hadmin : scope.isAdmin = false)
    (h : applyRequestScope settings fields principal filter = .ok narrowed) :
    (∃ f ∈ narrowed, Narrows M scope (filter.getD .none) f) ↔
      Confined M scope (filter.getD .none) := by
  obtain ⟨-, rfl⟩ := applyRequestScope_eq_ok hscope hadmin h
  simp only [Option.mem_some_iff, exists_eq_left']
  generalize filter.getD .none = f
  unfold Confined
  split
  next hnone =>
    have hsame : f.withConditions (scopeConditions fields scope) = f := by
      rw [hnone, AMPFilter.withConditions, List.append_nil]
      cases f
      rfl
    rw [hsame]
    exact ⟨fun hf r hr => (hf r hr).1, fun hf r hr => ⟨hf r hr, hr⟩⟩
  next hsome =>
    cases hlogic : f.logic with
    | and => exact narrows_and M hlogic
    | or => exact narrows_or M hlogic hsome
    | not => exact iff_of_false (not_narrows_not M hlogic hsome) id

theorem confined_of_and {f : AMPFilter} (hlogic : f.logic = .and)
    (htenant : (tenantOf scope.tenantId).isSome → fields.tenantField.isSome)
    (haic : scope.allowedAics ≠ [] → fields.aicField.isSome) : Confined M scope f := by
  have hall (r : ρ) (h : ∀ c ∈ scopeConditions fields scope, M.holds r c = true) :
      scope.Allows M r := by
    refine ⟨fun t ht => ?_, fun hne => ?_⟩
    · obtain ⟨field, hfield⟩ := Option.isSome_iff_exists.mp (htenant (Option.isSome_of_mem ht))
      have hmem : { field, op := .compare .eq, value := .str t } ∈
          tenantConditions fields.tenantField scope := by
        unfold tenantConditions
        rw [hfield, Option.mem_def.mp ht]
        exact List.mem_singleton_self _
      exact (holds_tenantConditions M hmem r).mp (h _ (List.mem_append_left _ hmem)) t ht
    · obtain ⟨field, hfield⟩ := Option.isSome_iff_exists.mp (haic hne)
      have hsome : aicConditions fields.aicField scope ≠ [] := by
        rw [hfield]
        unfold aicConditions
        split <;> simp_all
      obtain ⟨c, hc⟩ := List.exists_mem_of_ne_nil _ hsome
      exact (holds_aicConditions M hc r).mp (h c (List.mem_append_right _ hc)) hne
  unfold Confined
  split
  next hnone =>
    intro r _
    apply hall
    rw [hnone]
    exact fun c hc => by cases hc
  next =>
    rw [hlogic]
    exact fun r _ => hall r

end Scoping

namespace Sample

def auditFields : ScopeFields := { aicField := some "aic", tenantField := some "tenantId" }

def accessFields : ScopeFields := { aicField := some "aic", tenantField := none }

def meets (tenant : Option String) (aic : String) (c : AMPFilterCondition) : Bool :=
  match c.op, c.value with
  | .compare .eq, .str v =>
    if c.field = "tenantId" then tenant = some v else c.field = "aic" ∧ aic = v
  | .compare .ne, .str v => c.field = "aic" ∧ aic ≠ v
  | .isIn, .arr vs => c.field = "aic" ∧ .str aic ∈ vs
  | _, _ => false

theorem exists_other_aic (as : List String) : ∃ a, a ∉ as := by
  have hinj : Function.Injective fun n : ℕ => String.ofList (List.replicate n 'x') := by
    intro m n h
    simpa using congrArg String.length h
  have hinfinite : Infinite String := Infinite.of_injective _ hinj
  obtain ⟨a, ha⟩ := Infinite.exists_notMem_finset as.toFinset
  exact ⟨a, fun h => ha (List.mem_toFinset.mpr h)⟩

def records (fields : ScopeFields) (haic : ∀ field ∈ fields.aicField, field = "aic")
    (htenant : ∀ field ∈ fields.tenantField, field = "tenantId") :
    ScopedRecords (Option String × String) fields where
  tenant := Prod.fst
  aic := Prod.snd
  holds r := meets r.1 r.2
  holds_tenant field hfield r t := by
    obtain rfl := htenant field hfield
    rfl
  holds_aic field hfield r a := by
    obtain rfl := haic field hfield
    simp [meets]
  holds_aic_in field hfield r as := by
    obtain rfl := haic field hfield
    simp [meets]
  stranger as := by
    obtain ⟨a, ha⟩ := exists_other_aic as
    exact ⟨(none, a), rfl, ha⟩

def auditRecords : ScopedRecords (Option String × String) auditFields :=
  records auditFields (fun _ h => (Option.some.inj h).symm) fun _ h => (Option.some.inj h).symm

def accessRecords : ScopedRecords (Option String × String) accessFields :=
  records accessFields (fun _ h => (Option.some.inj h).symm) fun _ h => by cases h

def authSettings : AuthSettings := { oidcEnabled := true, globalAdminRoles := ["admin"] }

def reader (tenantId : Option String) (allowedAics : List String) : HumanPrincipal :=
  { tenantId, allowedAics, roles := ["reader"] }

def callerFilter (logic : FilterLogic) : AMPFilter :=
  .mk [{ field := "aic", op := .compare .ne, value := .str "c" }] [] logic

end Sample

open Sample in
theorem scope_not_entailed :
    (∃ f, applyRequestScope authSettings auditFields (some (reader none ["a"]))
        (some (callerFilter .or)) = .ok (some f) ∧
      ¬ Narrows auditRecords ⟨none, ["a"], false⟩ (callerFilter .or) f) ∧
    (∃ f, applyRequestScope authSettings auditFields (some (reader none ["a"]))
        (some (callerFilter .not)) = .ok (some f) ∧
      ¬ Narrows auditRecords ⟨none, ["a"], false⟩ (callerFilter .not) f) ∧
    ∃ f, applyRequestScope authSettings accessFields (some (reader (some "t") []))
        (some (callerFilter .and)) = .ok (some f) ∧
      ¬ Narrows accessRecords ⟨some "t", [], false⟩ (callerFilter .and) f := by
  refine ⟨⟨_, rfl, fun h => ?_⟩, ⟨_, rfl, fun h => ?_⟩, ⟨_, rfl, fun h => ?_⟩⟩
  · have hseen := (h (none, "b") (by decide)).1.2 (by decide)
    revert hseen
    decide
  · have hseen := (h (none, "b") (by decide)).1.2 (by decide)
    revert hseen
    decide
  · have hseen := (h (none, "b") (by decide)).1.1 "t" (by decide)
    cases hseen

open Sample in
theorem scope_entailed :
    ∃ f ∈ (some ((callerFilter .and).withConditions
        (scopeConditions auditFields ⟨some "t", ["a", "b"], false⟩)) : Option AMPFilter),
      Narrows auditRecords ⟨some "t", ["a", "b"], false⟩ (callerFilter .and) f := by
  have hscope : principalScopeFilter authSettings (some (reader (some "t") ["a", "b"])) =
      .ok ⟨some "t", ["a", "b"], false⟩ := by decide +kernel
  refine (scope_injection_iff auditRecords hscope rfl
    (show applyRequestScope authSettings auditFields (some (reader (some "t") ["a", "b"]))
      (some (callerFilter .and)) = .ok _ from rfl)).mpr ?_
  exact confined_of_and auditRecords rfl (fun _ => rfl) fun _ => rfl

end Acps.Monitor
