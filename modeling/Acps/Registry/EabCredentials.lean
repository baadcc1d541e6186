import Acps.Aic.Text
import Acps.Lib.Fallible
import Acps.Lib.Keyed

/-!
One-time credentials with which an account of the certification authority is bound to an agent.
-/

namespace Acps.Registry

open Aic (Text)

structure EabCredential where
  keyId : Text
  macKey : Text
  aic : Text
  isConsumed : Bool
  expiresAt : ℤ
  deriving DecidableEq

inductive EabError where
  | credentialNotFound
  | credentialAlreadyConsumed
  | credentialExpired
  deriving DecidableEq

abbrev EabStore := List EabCredential

namespace EabStore

variable (store : EabStore)

def liveCredential (keyId : Text) (now : ℤ) : Except EabError EabCredential :=
  match Keyed.find EabCredential.keyId store keyId with
  | none => .error .credentialNotFound
  | some credential =>
    if credential.isConsumed then .error .credentialAlreadyConsumed
    else if credential.expiresAt ≤ now then .error .credentialExpired
    else .ok credential

def markConsumed (keyId : Text) : EabStore :=
  Keyed.modify EabCredential.keyId store keyId fun c => { c with isConsumed := true }

def consume (keyId : Text) (now : ℤ) : Except EabError (EabStore × EabCredential) := do
  let credential ← liveCredential store keyId now
  return (store.markConsumed keyId, credential)

end EabStore

inductive Attempt where
  | unreachable
  | answerLost (now : ℤ)
  | answered (now : ℤ)

/-- `_make_request_with_retry` on the endpoint that consumes: an attempt that is not answered is
made again, whether or not the registry has served it. -/
def EabStore.consumeWithRetry (keyId : Text) :
    List Attempt → EabStore → EabStore × Option EabCredential
  | [], store => (store, none)
  | .unreachable :: attempts, store => consumeWithRetry keyId attempts store
  | .answerLost now :: attempts, store =>
    match store.consume keyId now with
    | .ok (store, _) => consumeWithRetry keyId attempts store
    | .error _ => consumeWithRetry keyId attempts store
  | .answered now :: _, store =>
    match store.consume keyId now with
    | .ok (store, credential) => (store, some credential)
    | .error _ => (store, none)

namespace EabCredential

def reached (c : EabCredential) : List Attempt → Bool
  | [] => false
  | .unreachable :: attempts => c.reached attempts
  | .answerLost now :: attempts => now < c.expiresAt || c.reached attempts
  | .answered now :: _ => now < c.expiresAt

def delivered (c : EabCredential) : List Attempt → Bool
  | [] => false
  | .unreachable :: attempts => c.delivered attempts
  | .answerLost now :: attempts => c.expiresAt ≤ now && c.delivered attempts
  | .answered now :: _ => now < c.expiresAt

end EabCredential

section Consume

variable {store : EabStore} {keyId : Text} {c : EabCredential} {now : ℤ} {attempts : List Attempt}

def EabStore.Spent (store : EabStore) (keyId : Text) : Prop :=
  ∀ c ∈ Keyed.find EabCredential.keyId store keyId, c.isConsumed = true

theorem EabStore.Spent.consume_eq (h : store.Spent keyId) (now : ℤ) :
    ∃ e, store.consume keyId now = .error e := by
  unfold EabStore.consume EabStore.liveCredential
  cases hfind : Keyed.find EabCredential.keyId store keyId with
  | none => exact ⟨_, rfl⟩
  | some c =>
    simp only [h c hfind, if_true]
    exact ⟨_, rfl⟩

theorem EabStore.Spent.consumeWithRetry_eq (h : store.Spent keyId) :
    EabStore.consumeWithRetry keyId attempts store = (store, none) := by
  induction attempts with
  | nil => rfl
  | cons attempt attempts ih =>
    cases attempt with
    | unreachable => exact ih
    | answerLost now =>
      obtain ⟨e, he⟩ := h.consume_eq now
      unfold EabStore.consumeWithRetry
      rw [he]
      exact ih
    | answered now =>
      obtain ⟨e, he⟩ := h.consume_eq now
      unfold EabStore.consumeWithRetry
      rw [he]

theorem EabStore.spent_markConsumed : (store.markConsumed keyId).Spent keyId := by
  intro c hc
  obtain ⟨old, -, rfl⟩ := Keyed.mem_modify.mp (Keyed.mem_of_find hc)
  have hkey := Keyed.key_of_find hc
  split at hkey
  next h => rw [if_pos h]
  next h => exact absurd hkey h

theorem EabStore.consume_live (hfind : Keyed.find EabCredential.keyId store keyId = some c)
    (hc : c.isConsumed = false) : store.consume keyId now =
      if c.expiresAt ≤ now then .error .credentialExpired
      else .ok (store.markConsumed keyId, c) := by
  unfold EabStore.consume EabStore.liveCredential
  simp only [hfind, hc, Bool.false_eq_true, if_false]
  split <;> rfl

theorem EabStore.consumeWithRetry_live
    (hfind : Keyed.find EabCredential.keyId store keyId = some c) (hc : c.isConsumed = false) :
    EabStore.consumeWithRetry keyId attempts store =
      (if c.reached attempts then store.markConsumed keyId else store,
        if c.delivered attempts then some c else none) := by
  induction attempts with
  | nil => rfl
  | cons attempt attempts ih =>
    cases attempt with
    | unreachable => exact ih
    | answerLost now =>
      unfold EabStore.consumeWithRetry EabCredential.reached EabCredential.delivered
      rw [EabStore.consume_live hfind hc]
      by_cases hexpired : c.expiresAt ≤ now
      · simp only [hexpired, if_true, not_lt.mpr hexpired, decide_false, decide_true,
          Bool.false_or, Bool.true_and]
        exact ih
      · simp only [hexpired, if_false, not_le.mp hexpired, decide_true, decide_false,
          Bool.true_or, Bool.false_and, if_true, Bool.false_eq_true]
        exact EabStore.spent_markConsumed.consumeWithRetry_eq
    | answered now =>
      unfold EabStore.consumeWithRetry EabCredential.reached EabCredential.delivered
      rw [EabStore.consume_live hfind hc]
      by_cases hexpired : c.expiresAt ≤ now
      · simp [hexpired]
      · simp [hexpired, not_le.mp hexpired]

end Consume

end Acps.Registry
