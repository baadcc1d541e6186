import Mathlib.Data.List.Sort
import Mathlib.Algebra.Order.BigOperators.Group.List
import Acps.Adp.Models

/-!
What a discovery server checks of a request, how it divides its fan-out budget and what it forwards.
-/

namespace Acps.Adp

inductive ADPError where
  | forwardLoopDetected (forwardChain : List String) (currentServerAic : String)
  | forwardDepthExceeded (forwardChain : List String) (forwardDepthLimit : ℕ)
  | forwardChainTampered (forwardChainLastAic senderAic : String)
  | forwardFanoutExceeded (availableBudget requiredBranches : ℕ)
  deriving DecidableEq

def ADPError.code : ADPError → ℕ
  | .forwardLoopDetected .. => 50801
  | .forwardDepthExceeded .. => 50802
  | .forwardChainTampered .. => 50803
  | .forwardFanoutExceeded .. => 50804

inductive Failure where
  | adpError (error : ADPError)
  | zeroDivisionError
  | valueError
  | validationError
  deriving DecidableEq

def Failure.isADPError : Failure → Bool
  | .adpError _ => true
  | .zeroDivisionError | .valueError | .validationError => false

section Validation

def validateForwardChain (request : DiscoveryRequest) (currentServerAic : String)
    (senderAic : Option String) : Except Failure Unit :=
  let chain := request.forwardChain.getD []
  let depthLimit := request.getEffectiveDepthLimit
  if currentServerAic ∈ chain then
    .error (.adpError (.forwardLoopDetected chain currentServerAic))
  else if depthLimit ≤ chain.length then
    .error (.adpError (.forwardDepthExceeded chain depthLimit))
  else
    match chain.getLast?, senderAic with
    | some lastAic, some senderAic =>
      if lastAic ≠ senderAic then .error (.adpError (.forwardChainTampered lastAic senderAic))
      else .ok ()
    | _, _ => .ok ()

def validateFanoutBudget (request : DiscoveryRequest) (requiredBranches : ℕ) :
    Except Failure Unit :=
  let remaining := request.getEffectiveFanoutRemaining
  if remaining < requiredBranches then
    .error (.adpError (.forwardFanoutExceeded remaining requiredBranches))
  else .ok ()

def shouldContinueForwarding (request : DiscoveryRequest) : Bool :=
  request.getEffectiveEachTimeoutMs ≤ request.getEffectiveTotalTimeoutMs

end Validation

section Forwarding

def DiscoveryRequest.toDict (request : DiscoveryRequest) : DiscoveryRequest := request

def DiscoveryRequest.fromDict (data : DiscoveryRequest) : Except Failure DiscoveryRequest :=
  if data.withDefaults.valid then .ok data.withDefaults else .error .validationError

def DiscoveryRequest.toJson (request : DiscoveryRequest) : DiscoveryRequest := request.toDict

def DiscoveryRequest.fromJson (json : DiscoveryRequest) : Except Failure DiscoveryRequest :=
  fromDict json

def buildForwardedRequest (original : DiscoveryRequest) (currentServerAic : String)
    (fanoutRemainingForBranch : ℕ) (elapsedMs : ℤ) (signature : Option String)
    (trustedServers : Option (List String)) : Except Failure DiscoveryRequest := do
  let forwarded ← DiscoveryRequest.fromDict original.toDict
  return { forwarded with
    forwardChain := some (forwarded.forwardChain.getD [] ++ [currentServerAic])
    forwardFanoutRemaining := some fanoutRemainingForBranch
    forwardTotalTimeoutMs := some (original.getEffectiveTotalTimeoutMs - elapsedMs).toNat
    forwardTrustedServers := trustedServers.or forwarded.forwardTrustedServers
    forwardSignatures := match signature with
      | some signature => some (forwarded.forwardSignatures.getD [] ++ [signature])
      | none => forwarded.forwardSignatures
    forwardDepthLimit := some (forwarded.forwardDepthLimit.getD forwardDepthLimitDefault)
    forwardFanoutLimit := some (forwarded.forwardFanoutLimit.getD forwardFanoutLimitDefault) }

def incrementAll (allocated : List ℕ) (branches : List ℕ) : List ℕ :=
  branches.foldl (fun allocated i => allocated.modify i (· + 1)) allocated

def allocateWeighted (distributable branchCount : ℕ) (weights : List ℕ) : List ℕ :=
  let totalWeight := weights.sum
  let allocated := weights.map fun w => distributable * w / totalWeight
  let sortedIndices := (List.range branchCount).insertionSort fun i j =>
    weights.getD j 0 ≤ weights.getD i 0
  incrementAll allocated ((List.range (distributable - allocated.sum)).map fun i =>
    sortedIndices.getD (i % branchCount) 0)

def allocateEqual (distributable branchCount : ℕ) : List ℕ :=
  incrementAll (List.replicate branchCount (distributable / branchCount))
    ((List.range (distributable % branchCount)).map fun i => branchCount - (i + 1))

def allocateFanoutBudget (totalRemaining branchCount : ℕ) (strategy : String)
    (weights : Option (List ℕ)) : Except Failure (List ℕ) :=
  if totalRemaining < branchCount then
    .error (.adpError (.forwardFanoutExceeded totalRemaining branchCount))
  else
    match if strategy = "weighted" then weights else none with
    | some weights =>
      if weights.length ≠ branchCount then .error .valueError
      else if weights.sum = 0 then .ok (List.replicate branchCount 0)
      else .ok (allocateWeighted (totalRemaining - branchCount) branchCount weights)
    | none =>
      if branchCount = 0 then .error .zeroDivisionError
      else .ok (allocateEqual (totalRemaining - branchCount) branchCount)

example : allocateFanoutBudget 4 3 "equal" none = .ok [0, 0, 1] := by decide +kernel

end Forwarding

section Budgets

theorem incrementAll_length (allocated branches : List ℕ) :
    (incrementAll allocated branches).length = allocated.length := by
  unfold incrementAll
  induction branches generalizing allocated with
  | nil => rfl
  | cons i branches ih => rw [List.foldl_cons, ih, List.length_modify]

theorem sum_modify_le (allocated : List ℕ) (i : ℕ) :
    (allocated.modify i (· + 1)).sum ≤ allocated.sum + 1 := by
  induction allocated generalizing i with
  | nil => simp
  | cons a allocated ih =>
    cases i with
    | zero =>
      simp
      omega
    | succ i =>
      have hrest := ih i
      simp
      omega

theorem sum_incrementAll_le (allocated branches : List ℕ) :
    (incrementAll allocated branches).sum ≤ allocated.sum + branches.length := by
  unfold incrementAll
  induction branches generalizing allocated with
  | nil => exact Nat.le_refl _
  | cons i branches ih =>
    rw [List.foldl_cons, List.length_cons]
    have hrest := ih (allocated.modify i (· + 1))
    have hfirst := sum_modify_le allocated i
    omega

theorem sum_map_mul_div_le (d : ℕ) (weights : List ℕ) (t : ℕ) :
    (weights.map fun w => d * w / t).sum ≤ d * weights.sum / t := by
  induction weights with
  | nil => simp
  | cons w weights ih =>
    rw [List.map_cons, List.sum_cons, List.sum_cons, Nat.mul_add]
    exact (Nat.add_le_add_left ih _).trans Nat.div_add_div_le_add_div

theorem sum_allocateWeighted_le (d branchCount : ℕ) (weights : List ℕ) :
    (allocateWeighted d branchCount weights).sum ≤ d := by
  have hshares : (weights.map fun w => d * w / weights.sum).sum ≤ d :=
    (sum_map_mul_div_le d weights weights.sum).trans
      (Nat.div_le_of_le_mul (Nat.mul_comm d weights.sum).le)
  unfold allocateWeighted
  refine (sum_incrementAll_le _ _).trans ?_
  rw [List.length_map, List.length_range]
  omega

theorem sum_allocateEqual_le (d branchCount : ℕ) : (allocateEqual d branchCount).sum ≤ d := by
  unfold allocateEqual
  refine (sum_incrementAll_le _ _).trans ?_
  rw [List.sum_replicate, List.length_map, List.length_range]
  exact (Nat.div_add_mod d branchCount).le

theorem allocateFanoutBudget_spec {totalRemaining branchCount : ℕ} {strategy : String}
    {weights : Option (List ℕ)} {budgets : List ℕ}
    (h : allocateFanoutBudget totalRemaining branchCount strategy weights = .ok budgets) :
    budgets.length = branchCount ∧ budgets.sum + branchCount ≤ totalRemaining := by
  unfold allocateFanoutBudget at h
  split at h
  · cases h
  next henough =>
    split at h
    next weights _ =>
      split at h
      · cases h
      next hlength =>
        split at h
        · obtain rfl := Except.ok.inj h
          rw [List.length_replicate, List.sum_replicate]
          exact ⟨rfl, by simp; omega⟩
        · obtain rfl := Except.ok.inj h
          have hsum := sum_allocateWeighted_le (totalRemaining - branchCount) branchCount weights
          refine ⟨?_, by omega⟩
          unfold allocateWeighted
          rw [incrementAll_length, List.length_map]
          exact not_not.mp hlength
    next =>
      split at h
      · cases h
      · obtain rfl := Except.ok.inj h
        have hsum := sum_allocateEqual_le (totalRemaining - branchCount) branchCount
        refine ⟨?_, by omega⟩
        unfold allocateEqual
        rw [incrementAll_length, List.length_replicate]

theorem allocateFanoutBudget_cases {totalRemaining branchCount : ℕ} {weights : List ℕ}
    (weighted : Bool) (hweights : weights.length = branchCount) (henough : branchCount ≤ totalRemaining) :
    (weighted = false ∧ branchCount = 0 ∧
      allocateFanoutBudget totalRemaining branchCount (if weighted then "weighted" else "equal")
        (some weights) = .error .zeroDivisionError) ∨
    ((branchCount = 0 → weighted = true) ∧ ∃ budgets,
      allocateFanoutBudget totalRemaining branchCount (if weighted then "weighted" else "equal")
        (some weights) = .ok budgets) := by
  unfold allocateFanoutBudget
  rw [if_neg henough.not_gt]
  cases weighted with
  | true =>
    simp only [↓reduceIte]
    rw [if_neg (not_not.mpr hweights)]
    refine .inr ⟨fun _ => trivial, ?_⟩
    split <;> exact ⟨_, rfl⟩
  | false =>
    simp only [Bool.false_eq_true, ↓reduceIte, String.reduceEq]
    split
    next hzero => exact .inl ⟨trivial, hzero, rfl⟩
    next hpos => exact .inr ⟨fun hzero => hpos hzero, _, rfl⟩

end Budgets

end Acps.Adp
