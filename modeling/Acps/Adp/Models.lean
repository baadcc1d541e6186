import Acps.Aic.Text
import Acps.Lib.JsonText

/-!
The requests of the discovery protocol. A dumped request leaves out what is `None`, so that one record
stands for a request and for its dump: what is `none` there is missing.
-/

namespace Acps.Adp

open JsonText (Value)

inductive FilterOperator where
  | eq | ne | exists
  | gt | gte | lt | lte | between
  | in | nin
  | contains | notContains | startsWith | endsWith
  | eqCs | neCs | inCs | ninCs | containsCs | notContainsCs | startsWithCs | endsWithCs
  | anyOf | allOf | noneOf | size | sizeGt | sizeGte | sizeLt | sizeLte
  | hasKey | hasNoKey | hasAnyKey | hasAllKeys
  deriving DecidableEq

structure FilterCondition where
  field : String
  op : FilterOperator
  value : Option Value

inductive FilterLogic where
  | and
  | or
  | not
  deriving DecidableEq

inductive DiscoveryFilter where
  | mk (conditions : List FilterCondition) (groups : List DiscoveryFilter)
      (logic : Option FilterLogic)

structure DiscoveryContext where
  conversationId : Option String
  recentTurns : Option (List String)
  userProfile : Option (List (JsonText.Text × Value))
  metadata : Option (List (JsonText.Text × Value))

structure DiscoveryRequest where
  type : Option String
  query : Option String
  context : Option DiscoveryContext
  limit : Option ℕ
  filter : Option DiscoveryFilter
  forwardDepthLimit : Option ℕ
  forwardFanoutLimit : Option ℕ
  forwardFanoutRemaining : Option ℕ
  forwardChain : Option (List String)
  forwardTrustedServers : Option (List String)
  forwardSignatures : Option (List String)
  forwardEachTimeoutMs : Option ℕ
  forwardTotalTimeoutMs : Option ℕ

def queryTypes : List String := ["explicit", "exploratory", "trending", "filtered"]

def forwardDepthLimitDefault : ℕ := 3

def forwardFanoutLimitDefault : ℕ := 1

def forwardEachTimeoutMsDefault : ℕ := 10000

def forwardTotalTimeoutMsDefault : ℕ := 60000

section Defaults

mutual

def DiscoveryFilter.withDefaults : DiscoveryFilter → DiscoveryFilter
  | .mk conditions groups logic =>
    .mk conditions (DiscoveryFilter.withDefaultsAll groups) (some (logic.getD .and))

def DiscoveryFilter.withDefaultsAll : List DiscoveryFilter → List DiscoveryFilter
  | [] => []
  | group :: groups => group.withDefaults :: DiscoveryFilter.withDefaultsAll groups

end

mutual

theorem DiscoveryFilter.withDefaults_withDefaults (filter : DiscoveryFilter) :
    filter.withDefaults.withDefaults = filter.withDefaults := by
  cases filter with
  | mk conditions groups logic =>
    simp only [withDefaults, Option.getD_some]
    rw [withDefaultsAll_withDefaultsAll]

theorem DiscoveryFilter.withDefaultsAll_withDefaultsAll (groups : List DiscoveryFilter) :
    DiscoveryFilter.withDefaultsAll (DiscoveryFilter.withDefaultsAll groups) =
      DiscoveryFilter.withDefaultsAll groups := by
  cases groups with
  | nil => rfl
  | cons group groups =>
    simp only [withDefaultsAll]
    rw [withDefaults_withDefaults, withDefaultsAll_withDefaultsAll]

end

end Defaults

def orDefault (value : Option ℕ) (default : ℕ) : ℕ :=
  match value with
  | none | some 0 => default
  | some n => n

namespace DiscoveryRequest

variable (request : DiscoveryRequest)

def getEffectiveDepthLimit : ℕ := orDefault request.forwardDepthLimit forwardDepthLimitDefault

def getEffectiveFanoutLimit : ℕ := orDefault request.forwardFanoutLimit forwardFanoutLimitDefault

def getEffectiveFanoutRemaining : ℕ :=
  request.forwardFanoutRemaining.getD request.getEffectiveFanoutLimit

def getEffectiveEachTimeoutMs : ℕ :=
  orDefault request.forwardEachTimeoutMs forwardEachTimeoutMsDefault

def getEffectiveTotalTimeoutMs : ℕ :=
  orDefault request.forwardTotalTimeoutMs forwardTotalTimeoutMsDefault

def withDefaults : DiscoveryRequest :=
  { request with
    type := some (request.type.getD "explicit")
    filter := request.filter.map DiscoveryFilter.withDefaults }

def hasQuery : Bool := request.query.any fun query => query.toList.any fun c => !Aic.isSpace c

structure Valid : Prop where
  type : ∀ type ∈ request.type, type ∈ queryTypes
  query : request.type = some "explicit" → request.hasQuery = true
  limit : ∀ n ∈ request.limit, 1 ≤ n
  depthLimit : ∀ n ∈ request.forwardDepthLimit, 1 ≤ n ∧ n ≤ 5
  fanoutLimit : ∀ n ∈ request.forwardFanoutLimit, 1 ≤ n ∧ n ≤ 5
  eachTimeout : ∀ n ∈ request.forwardEachTimeoutMs, 0 < n
  totalTimeout : ∀ n ∈ request.forwardTotalTimeoutMs, 0 < n

def valid : Bool :=
  request.type.all (· ∈ queryTypes) && (request.type ≠ some "explicit" || request.hasQuery) &&
    request.limit.all (1 ≤ ·) && request.forwardDepthLimit.all (fun n => 1 ≤ n ∧ n ≤ 5) &&
    request.forwardFanoutLimit.all (fun n => 1 ≤ n ∧ n ≤ 5) &&
    request.forwardEachTimeoutMs.all (0 < ·) && request.forwardTotalTimeoutMs.all (0 < ·)

theorem valid_iff : request.valid = true ↔ request.Valid := by
  unfold valid
  simp only [Bool.and_eq_true, Option.all_eq_true, decide_eq_true_eq, Bool.or_eq_true]
  constructor
  · rintro ⟨⟨⟨⟨⟨⟨htype, hquery⟩, hlimit⟩, hdepth⟩, hfanout⟩, heach⟩, htotal⟩
    exact ⟨htype, fun hexplicit => hquery.resolve_left (not_not.mpr hexplicit), hlimit, hdepth,
      hfanout, heach, htotal⟩
  · intro h
    refine ⟨⟨⟨⟨⟨⟨h.type, ?_⟩, h.limit⟩, h.depthLimit⟩, h.fanoutLimit⟩, h.eachTimeout⟩,
      h.totalTimeout⟩
    by_cases hexplicit : request.type = some "explicit"
    · exact .inr (h.query hexplicit)
    · exact .inl hexplicit

end DiscoveryRequest

end Acps.Adp
