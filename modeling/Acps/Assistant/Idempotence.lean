import Acps.Assistant.SubmitGuards

/-!
A request that is sent again with its client request id is handled once, and one with another payload
rejected, if it comes when the first has failed, or when the first has been answered.
-/

namespace Acps.Assistant

open Transition
open Partner (Time TaskState)

def SubmitRequest.clientId (r : SubmitRequest) : Option String := r.clientRequestId.filter (· ≠ "")

namespace Leader

def requests (s : Leader) (c : String) : List SubmitRequest :=
  (s.submits.map Submit.request).filter fun r => r.clientId = some c

def Failed (o : Orchestrator) (s : Leader) (c : String) (submit : Submit) : Prop :=
  submit.stage = .done ∧ s.session.requestCache c ≠ some (o.hashOf submit.request)

/-- When an intent is handled, every earlier handling of a request with its client request id and
payload has failed; and a request with another payload than the first one that was accepted is a
duplicate. -/
structure Idempotent (o : Orchestrator) (s : Leader) (a : LeaderAct) : Prop where
  handled : ∀ (k : ℕ) (now : Time) (submit : Submit) (intent : IntentDecision) (c : String),
    a = .handleIntent k now → s.submits[k]? = some submit → submit.stage = .audit intent →
    submit.request.clientId = some c → ∀ e ∈ s.events, e.submit ≠ k →
    (∃ intentType, e.effect = .handled intentType) → ∀ other : Submit,
    s.submits[e.submit]? = some other → other.request.clientId = some c →
    o.hashOf other.request = o.hashOf submit.request → s.Failed o c other
  rejected : ∀ (r : SubmitRequest) (c : String) (first : SubmitRequest), a = .submit r →
    r.clientId = some c → (s.requests c).head? = some first →
    o.hashOf r ≠ o.hashOf first → s.validate o r = .error .duplicateRequest

def accepts (o : Orchestrator) (s : Leader) (r : SubmitRequest) : Bool :=
  s.validate o r matches .ok ()

/-- A request is sent again only after all that were accepted have failed, and one with another
payload only after one was answered, while the session is open and has its mode. -/
def Retries (o : Orchestrator) (s : Leader) : LeaderAct → Prop
  | .submit r => ∀ c ∈ r.clientId, ∀ first ∈ (s.requests c).head?,
    if o.hashOf r = o.hashOf first then
      s.accepts o r = true →
        s.session.requestCache c = none ∧ ∀ other ∈ s.submits,
          other.request.clientId = some c → other.stage = .done
    else s.session.closed = false ∧ r.mode.all (· = s.session.mode) = true ∧
      (s.session.requestCache c).isSome = true
  | _ => True

instance (o : Orchestrator) (s : Leader) (a : LeaderAct) : Decidable (s.Retries o a) := by
  cases a with
  | submit r =>
    exact inferInstanceAs (Decidable (∀ c ∈ r.clientId, ∀ first ∈ (s.requests c).head?,
      if o.hashOf r = o.hashOf first then
        s.accepts o r = true →
          s.session.requestCache c = none ∧ ∀ other ∈ s.submits,
            other.request.clientId = some c → other.stage = .done
      else s.session.closed = false ∧ r.mode.all (· = s.session.mode) = true ∧
        (s.session.requestCache c).isSome = true))
  | analyzed | handleIntent | cancelled | terminated | planned | planAudited | routed | continued
  | clarified | cancel | partnerNotified | cancelAudited | run | pollUpdate | progress | callback =>
    exact instDecidableTrue

/-- While a submit is under way it is the only one with its client request id, and the id has not been
answered. What was answered is the payload that all have. -/
structure Once (o : Orchestrator) (s : Leader) : Prop where
  alone : ∀ (k : ℕ) (submit : Submit) (c : String), s.submits[k]? = some submit →
    submit.request.clientId = some c → submit.stage ≠ .done → s.session.requestCache c = none ∧
      ∀ (j : ℕ) (other : Submit), s.submits[j]? = some other → other.request.clientId = some c →
        j ≠ k → other.stage = .done
  same : ∀ (c : String) (first : SubmitRequest), (s.requests c).head? = some first →
    ∀ r ∈ s.requests c, o.hashOf r = o.hashOf first
  cached : ∀ (c hash : String), s.session.requestCache c = some hash →
    ∃ r ∈ s.requests c, o.hashOf r = hash

end Leader

section Caches

open Leader

variable {o : Orchestrator} {s t u : Leader} {a : LeaderAct} {k : ℕ}

def Caches (o : Orchestrator) (k : ℕ) (s t : Leader) : Prop :=
  ∀ c, t.session.requestCache c = s.session.requestCache c ∨
    ∃ submit : Submit, s.submits[k]? = some submit ∧ submit.request.clientId = some c ∧
      t.session.requestCache c = some (o.hashOf submit.request) ∧ t.stage k = some .done

theorem caches_of_eq (h : t.session.requestCache = s.session.requestCache) : Caches o k s t :=
  fun c => .inl (congrFun h c)

theorem Caches.of_eq (h : Caches o k u t) (hcache : u.session.requestCache = s.session.requestCache)
    (hsubmits : u.submits = s.submits) : Caches o k s t := by
  intro c
  rw [← hcache, ← hsubmits]
  exact h c

theorem caches_finish (s : Leader) (k : ℕ) : Caches o k s (s.finish o k) := by
  intro c
  have hstage := stage_finish (o := o) s k
  unfold finish at hstage ⊢
  split
  · next clientRequestId hash hcached =>
    obtain ⟨submit, hsubmit, hid⟩ := Option.bind_eq_some_iff.mp hcached
    obtain ⟨c', hc', hpair⟩ := Option.map_eq_some_iff.mp hid
    obtain ⟨rfl, rfl⟩ := Prod.mk.inj hpair
    by_cases hc : c = c'
    · subst hc
      refine .inr ⟨submit, hsubmit, hc', Function.update_self _ _ _, ?_⟩
      rw [hcached] at hstage
      dsimp only at hstage
      rw [hstage]
      unfold Leader.stage
      rw [hsubmit]
      rfl
    · exact .inl (Function.update_of_ne hc _ _)
  · exact .inl rfl

theorem caches_startPlanning (s : Leader) (intent : IntentDecision)
    (replaced : Option ActiveTaskId) : Caches o k s (s.startPlanning o k intent replaced) := by
  unfold startPlanning
  split
  · exact caches_of_eq rfl
  · exact caches_finish s k

theorem caches_terminate (s : Leader) (intent : IntentDecision) (taskId : ActiveTaskId)
    (partners : List String) : Caches o k s (s.terminate o k intent taskId partners) := by
  unfold terminate
  split
  · exact caches_of_eq rfl
  · exact caches_startPlanning s intent _

theorem caches_handleIntent (s : Leader) (intent : IntentDecision) (now : Time) :
    Caches o k s (s.handleIntent o k intent now) := by
  unfold Leader.handleIntent
  dsimp only
  split
  · unfold handleChitChat
    dsimp only
    exact (caches_finish _ k).of_eq rfl rfl
  · unfold handleTaskNew
    dsimp only
    split
    · exact caches_of_eq rfl
    · exact (caches_startPlanning _ intent none).of_eq rfl rfl
  · unfold handleTaskInput
    split
    · split
      · exact caches_of_eq rfl
      · exact (caches_finish _ k).of_eq rfl rfl
    · exact (caches_finish _ k).of_eq rfl rfl

theorem caches_continuePartners (s : Leader) (taskId : ActiveTaskId) (routing : RoutingResult)
    (partners : List String) (successes : ℕ) (now : Time) :
    Caches o k s (s.continuePartners o k taskId routing partners successes now) := by
  unfold continuePartners
  split
  · exact caches_of_eq rfl
  · unfold concludeContinue
    dsimp only
    split
    · exact (caches_finish _ k).of_eq rfl rfl
    · exact (caches_finish _ k).of_eq rfl rfl
  · exact caches_of_eq rfl

theorem caches_continuePartially (s : Leader) (taskId : ActiveTaskId) (routing : RoutingResult)
    (partners : List String) :
    Caches o k s (s.continuePartially o k taskId routing partners) := by
  unfold continuePartially
  split
  · exact caches_of_eq rfl
  · split
    · exact caches_of_eq rfl
    · exact caches_finish s k
  · exact caches_of_eq rfl

theorem caches_step (hof : a.submitOf = some k) (ht : s.step o a = some t) : Caches o k s t := by
  cases a with
  | analyzed j intent =>
    obtain rfl := Option.some.inj hof
    change s.analyzed j intent = some t at ht
    unfold Leader.analyzed at ht
    split at ht
    · split at ht
      · obtain rfl := Option.some.inj ht
        exact caches_of_eq rfl
      · obtain rfl := Option.some.inj ht
        exact caches_of_eq rfl
    · cases ht
  | handleIntent j now =>
    obtain rfl := Option.some.inj hof
    change s.audited o j now = some t at ht
    unfold Leader.audited at ht
    split at ht
    · obtain rfl := Option.some.inj ht
      exact caches_handleIntent s _ now
    · cases ht
  | cancelled j =>
    obtain rfl := Option.some.inj hof
    change s.cancelled o j = some t at ht
    unfold Leader.cancelled at ht
    split at ht
    · obtain ⟨-, ht⟩ := Option.ite_none_right_eq_some.mp ht
      obtain rfl := Option.some.inj ht
      exact caches_terminate s _ _ _
    · cases ht
  | terminated j =>
    obtain rfl := Option.some.inj hof
    change s.terminatedPartner o j = some t at ht
    unfold Leader.terminatedPartner at ht
    split at ht
    · obtain rfl := Option.some.inj ht
      exact caches_terminate s _ _ _
    · cases ht
  | planned j planning now =>
    obtain rfl := Option.some.inj hof
    change s.planned o j planning now = some t at ht
    unfold Leader.planned at ht
    split at ht
    · split at ht
      · obtain rfl := Option.some.inj ht
        exact caches_of_eq rfl
      · obtain rfl := Option.some.inj ht
        exact caches_finish s j
    · cases ht
  | planAudited j =>
    obtain rfl := Option.some.inj hof
    change s.planAudited o j = some t at ht
    unfold Leader.planAudited at ht
    split at ht
    · obtain rfl := Option.some.inj ht
      unfold Leader.submitTask
      dsimp only
      exact (caches_finish _ j).of_eq rfl rfl
    · cases ht
  | routed j routing now =>
    obtain rfl := Option.some.inj hof
    change s.routed o j routing now = some t at ht
    unfold Leader.routed at ht
    split at ht
    · split at ht
      · split at ht
        · obtain rfl := Option.some.inj ht
          exact caches_continuePartners s _ _ _ _ now
        · obtain rfl := Option.some.inj ht
          exact caches_continuePartially s _ _ _
      · obtain rfl := Option.some.inj ht
        exact caches_finish s j
    · cases ht
  | continued j state now =>
    obtain rfl := Option.some.inj hof
    change s.continued o j state now = some t at ht
    unfold Leader.continued at ht
    split at ht
    · next taskId routing partnerAic rest successes hstage =>
      obtain rfl := Option.some.inj ht
      refine (caches_continuePartners _ taskId routing rest _ now).of_eq ?_ ?_
      · unfold continuedPartner
        split <;> rfl
      · unfold continuedPartner
        split <;> rfl
    · obtain rfl := Option.some.inj ht
      exact caches_continuePartially s _ _ _
    · cases ht
  | clarified j =>
    obtain rfl := Option.some.inj hof
    change s.clarified o j = some t at ht
    unfold Leader.clarified at ht
    split at ht
    · obtain rfl := Option.some.inj ht
      exact caches_finish s j
    · cases ht
  | _ => cases hof

theorem cache_write (s : Session) (run : Run) (now : Time) (w : Write) :
    (s.write run now w).requestCache = s.requestCache := by
  unfold Session.write
  split
  · rfl
  · split <;> rfl
  · split <;> rfl
  · split <;> rfl

theorem cache_writeAll (s : Session) (run : Run) (now : Time) (writes : List Write) :
    (s.writeAll run now writes).requestCache = s.requestCache := by
  induction writes generalizing s with
  | nil => rfl
  | cons w writes ih => exact (ih (s.write run now w)).trans (cache_write s run now w)

theorem cache_other (hof : a.submitOf = none) (ht : s.step o a = some t) :
    t.session.requestCache = s.session.requestCache := by
  cases a with
  | submit r =>
    obtain rfl := Option.some.inj ht
    unfold Leader.submit
    split <;> rfl
  | cancel now =>
    obtain rfl := Option.some.inj ht
    unfold Leader.cancel
    split
    · split <;> rfl
    · rfl
  | partnerNotified j =>
    change s.partnerNotified o j = some t at ht
    unfold Leader.partnerNotified at ht
    split at ht
    · split at ht
      · obtain rfl := Option.some.inj ht
        rfl
      · obtain rfl := Option.some.inj ht
        rfl
    · cases ht
  | cancelAudited j =>
    change s.cancelAudited j = some t at ht
    unfold Leader.cancelAudited at ht
    split at ht
    · obtain rfl := Option.some.inj ht
      rfl
    · cases ht
  | run i awaited now =>
    obtain ⟨run, -, ht⟩ := Option.bind_eq_some_iff.mp ht
    obtain ⟨segment, -, rfl⟩ := Option.map_eq_some_iff.mp ht
    exact cache_writeAll s.session run now segment.writes
  | pollUpdate i result now | progress i result now =>
    obtain ⟨run, -, ht⟩ := Option.bind_eq_some_iff.mp ht
    obtain ⟨-, ht⟩ := Option.ite_none_right_eq_some.mp ht
    obtain rfl := Option.some.inj ht
    exact cache_write s.session run now _
  | callback i =>
    obtain ⟨executor, -, rfl⟩ := Option.map_eq_some_iff.mp ht
    rfl
  | _ => cases hof

theorem not_done_of_submitOf (hof : a.submitOf = some k) (ht : s.step o a = some t) :
    s.stage k ≠ some .done := by
  intro hdone
  have hsettled : s.Settled k := by
    unfold Leader.Settled
    rw [hdone]
    rfl
  obtain ⟨rfl, -⟩ := stage_step hof ht hsettled
  change s.planAudited o k = some t at ht
  unfold Leader.planAudited at ht
  rw [hdone] at ht
  cases ht

theorem requests_own (h : Own k s t) (c : String) : t.requests c = s.requests c := by
  unfold Leader.requests
  congr 1
  apply List.ext_getElem?
  intro i
  rw [List.getElem?_map, List.getElem?_map]
  by_cases hi : i = k
  · rw [hi]
    exact h.request
  · rw [h.others i hi]

theorem mem_requests {c : String} {i : ℕ} {submit : Submit} (hsubmit : s.submits[i]? = some submit)
    (hid : submit.request.clientId = some c) : submit.request ∈ s.requests c :=
  List.mem_filter.mpr ⟨List.mem_map.mpr ⟨submit, List.mem_of_getElem? hsubmit, rfl⟩,
    decide_eq_true hid⟩

end Caches

section Invariant

open Leader

variable {o : Orchestrator} {s t : Leader} {a : LeaderAct} {k : ℕ}

theorem once_initial (mode : ExecutionMode) : (Leader.initial mode).Once o where
  alone := by
    intro k submit c h
    cases h
  same := by
    intro c first h
    cases h
  cached := by
    intro c hash h
    cases h

theorem duplicate_of_retries (h : s.Once o) {r first : SubmitRequest} {c : String}
    (hC : s.Retries o (.submit r)) (hid : r.clientId = some c)
    (hfirst : (s.requests c).head? = some first) (hhash : o.hashOf r ≠ o.hashOf first) :
    s.validate o r = .error .duplicateRequest := by
  have hretry := hC c hid first hfirst
  rw [if_neg hhash] at hretry
  obtain ⟨hopen, hmode, hcached⟩ := hretry
  obtain ⟨hash, hcached⟩ := Option.isSome_iff_exists.mp hcached
  obtain ⟨r', hr', hr'hash⟩ := h.cached c hash hcached
  have hne : hash ≠ o.hashOf r := by
    rw [← hr'hash, h.same c first hfirst r' hr']
    exact hhash.symm
  unfold Leader.validate
  rw [if_neg (by simp [hopen]), if_neg ?_, if_pos ?_]
  · change (r.clientId.bind s.session.requestCache).any _ = true
    rw [hid, Option.bind_some, hcached, Option.any_some]
    exact decide_eq_true hne
  · cases hm : r.mode with
    | none => simp
    | some mode =>
      rw [hm, Option.all_some] at hmode
      simpa using hmode

theorem alone_own (h : s.Once o) {k₀ : ℕ} (hof : a.submitOf = some k₀) (ht : s.step o a = some t)
    {submit' : Submit} {c : String} (hsubmit' : t.submits[k]? = some submit')
    (hid : submit'.request.clientId = some c) (hgoes : submit'.stage ≠ .done) :
    t.session.requestCache c = none ∧ ∀ (j : ℕ) (other : Submit), t.submits[j]? = some other →
      other.request.clientId = some c → j ≠ k → other.stage = .done := by
  have hown := own_step hof ht
  have hacts := not_done_of_submitOf hof ht
  obtain ⟨submit₀, hsubmit₀⟩ := exists_of_submitOf hof ht
  have hstage₀ : submit₀.stage ≠ .done := by
    intro hdone
    apply hacts
    unfold Leader.stage
    rw [hsubmit₀, ← hdone]
    rfl
  by_cases hk : k = k₀
  · subst hk
    obtain ⟨submit, hsubmit, hrequest⟩ := request_own hof ht hsubmit'
    obtain rfl := Option.some.inj (hsubmit.symm.trans hsubmit₀)
    obtain ⟨hnone, halone⟩ := h.alone k submit c hsubmit (by rw [hrequest, hid]) hstage₀
    refine ⟨?_, fun j other hother hid' hj => ?_⟩
    · rcases caches_step hof ht c with hsame | ⟨-, -, -, -, hdone⟩
      · rw [hsame, hnone]
      · unfold Leader.stage at hdone
        rw [hsubmit'] at hdone
        exact absurd (Option.some.inj hdone) hgoes
    · rw [hown.others j hj] at hother
      exact halone j other hother hid' hj
  · rw [hown.others k hk] at hsubmit'
    obtain ⟨hnone, halone⟩ := h.alone k submit' c hsubmit' hid hgoes
    refine ⟨?_, fun j other hother hid' hj => ?_⟩
    · rcases caches_step hof ht c with hsame | ⟨submit, hsubmit, hid₀, -⟩
      · rw [hsame, hnone]
      · obtain rfl := Option.some.inj (hsubmit.symm.trans hsubmit₀)
        exact absurd (halone k₀ submit hsubmit hid₀ (Ne.symm hk)) hstage₀
    · by_cases hj₀ : j = k₀
      · subst hj₀
        obtain ⟨submit, hsubmit, hrequest⟩ := request_own hof ht hother
        obtain rfl := Option.some.inj (hsubmit.symm.trans hsubmit₀)
        exact absurd (halone j submit hsubmit (by rw [hrequest, hid']) hj) hstage₀
      · rw [hown.others j hj₀] at hother
        exact halone j other hother hid' hj

theorem alone_submit (h : s.Once o) {r : SubmitRequest} (hC : s.Retries o (.submit r))
    (hvalid : s.validate o r = .ok ())
    (hadded : t.submits = s.submits ++ [{ request := r, stage := .analysis }])
    (hcache : t.session.requestCache = s.session.requestCache) {submit' : Submit} {c : String}
    (hsubmit' : t.submits[k]? = some submit') (hid : submit'.request.clientId = some c)
    (hgoes : submit'.stage ≠ .done) :
    t.session.requestCache c = none ∧ ∀ (j : ℕ) (other : Submit), t.submits[j]? = some other →
      other.request.clientId = some c → j ≠ k → other.stage = .done := by
  -- What the condition says of the earlier ones, if the new submit has the same client request id.
  have hearlier (hr : r.clientId = some c) : s.session.requestCache c = none ∧
      ∀ other ∈ s.submits, other.request.clientId = some c → other.stage = .done := by
    cases hfirst : (s.requests c).head? with
    | none =>
      have hempty : s.requests c = [] := List.head?_eq_none_iff.mp hfirst
      refine ⟨?_, fun other hother hid' => ?_⟩
      · by_contra hsome
        obtain ⟨hash, hcached⟩ := Option.ne_none_iff_exists'.mp hsome
        obtain ⟨r', hr', -⟩ := h.cached c hash hcached
        rw [hempty] at hr'
        cases hr'
      · obtain ⟨i, hi⟩ := List.mem_iff_getElem?.mp hother
        have hmem := mem_requests hi hid'
        rw [hempty] at hmem
        cases hmem
    | some first =>
      have hretry := hC c hr first hfirst
      by_cases hhash : o.hashOf r = o.hashOf first
      · rw [if_pos hhash] at hretry
        apply hretry
        unfold Leader.accepts
        rw [hvalid]
      · have hduplicate := duplicate_of_retries h hC hr hfirst hhash
        rw [hvalid] at hduplicate
        cases hduplicate
  rw [hadded] at hsubmit' ⊢
  rw [hcache]
  rcases Slots.getElem?_concat_eq_some.mp hsubmit' with hold | ⟨rfl, rfl⟩
  · obtain ⟨hnone, halone⟩ := h.alone k submit' c hold hid hgoes
    refine ⟨hnone, fun j other hother hid' hj => ?_⟩
    rcases Slots.getElem?_concat_eq_some.mp hother with hother | ⟨rfl, rfl⟩
    · exact halone j other hother hid' hj
    · exact absurd ((hearlier hid').2 submit' (List.mem_of_getElem? hold) hid) hgoes
  · obtain ⟨hnone, hdone⟩ := hearlier hid
    refine ⟨hnone, fun j other hother hid' hj => ?_⟩
    rcases Slots.getElem?_concat_eq_some.mp hother with hother | ⟨rfl, -⟩
    · exact hdone other (List.mem_of_getElem? hother) hid'
    · exact absurd rfl hj

theorem requests_submit {r : SubmitRequest}
    (hadded : t.submits = s.submits ++ [{ request := r, stage := .analysis }]) (c : String) :
    t.requests c = s.requests c ++ if r.clientId = some c then [r] else [] := by
  unfold Leader.requests
  rw [hadded, List.map_append, List.filter_append]
  congr 1
  by_cases hid : r.clientId = some c
  · simp [hid]
  · simp [hid]

theorem once_step (h : s.Once o) (hC : s.Retries o a) (ht : s.step o a = some t) : t.Once o := by
  cases hof : a.submitOf with
  | some k₀ =>
    have hrequests := requests_own (own_step hof ht)
    refine ⟨fun k submit c hsubmit hid hgoes => alone_own h hof ht hsubmit hid hgoes, ?_, ?_⟩
    · intro c first hfirst r hr
      rw [hrequests] at hfirst hr
      exact h.same c first hfirst r hr
    · intro c hash hcached
      rw [hrequests]
      rcases caches_step hof ht c with hsame | ⟨submit, hsubmit, hid, hnew, -⟩
      · rw [hsame] at hcached
        exact h.cached c hash hcached
      · rw [hnew] at hcached
        exact ⟨submit.request, mem_requests hsubmit hid, Option.some.inj hcached⟩
  | none =>
    have hcache := cache_other hof ht
    rcases submits_step hof ht with hsame | ⟨r, rfl, hvalid, hadded⟩
    · have hrequests (c : String) : t.requests c = s.requests c := by
        unfold Leader.requests
        rw [hsame]
      refine ⟨?_, ?_, ?_⟩
      · intro k submit c hsubmit hid hgoes
        rw [hsame] at hsubmit ⊢
        rw [hcache]
        exact h.alone k submit c hsubmit hid hgoes
      · intro c first hfirst r hr
        rw [hrequests] at hfirst hr
        exact h.same c first hfirst r hr
      · intro c hash hcached
        rw [hrequests]
        rw [hcache] at hcached
        exact h.cached c hash hcached
    · refine ⟨fun k submit c hsubmit hid hgoes =>
        alone_submit h hC hvalid hadded hcache hsubmit hid hgoes, ?_, ?_⟩
      · intro c first hfirst r' hr'
        rw [requests_submit hadded] at hfirst hr'
        by_cases hid : r.clientId = some c
        · rw [if_pos hid] at hfirst hr'
          cases hold : (s.requests c).head? with
          | none =>
            rw [List.head?_eq_none_iff.mp hold] at hfirst hr'
            rw [List.mem_singleton.mp hr', ← Option.some.inj hfirst]
          | some first' =>
            rw [List.head?_append, hold] at hfirst
            obtain rfl : first' = first := Option.some.inj hfirst
            rcases List.mem_append.mp hr' with hr' | hr'
            · exact h.same c first' hold r' hr'
            · rw [List.mem_singleton.mp hr']
              by_contra hhash
              have hduplicate := duplicate_of_retries h hC hid hold hhash
              rw [hvalid] at hduplicate
              cases hduplicate
        · rw [if_neg hid, List.append_nil] at hfirst hr'
          exact h.same c first hfirst r' hr'
      · intro c hash hcached
        rw [hcache] at hcached
        obtain ⟨r', hr', hhash⟩ := h.cached c hash hcached
        refine ⟨r', ?_, hhash⟩
        rw [requests_submit hadded]
        exact List.mem_append_left _ hr'

theorem idempotent_step (h : s.Once o) (hC : s.Retries o a) : s.Idempotent o a where
  handled := by
    rintro k now submit intent c rfl hsubmit hstage hid e - hne - other hother hid' -
    obtain ⟨hnone, halone⟩ := h.alone k submit c hsubmit hid (by simp [hstage])
    refine ⟨halone e.submit other hother hid' hne, ?_⟩
    rw [hnone]
    simp
  rejected := by
    rintro r c first rfl hid hfirst hhash
    exact duplicate_of_retries h hC hid hfirst hhash

end Invariant

section Runs

variable {o : Orchestrator} {mode : ExecutionMode} {schedule : List LeaderAct}

theorem submits_idempotent
    (hretries : (leader o).Meets (Leader.Retries o) (.initial mode) schedule) :
    (leader o).Meets (Leader.Idempotent o) (.initial mode) schedule :=
  (leader o).meets_of_invariant (fun _ _ _ h hC ht => once_step h hC ht)
    (fun _ _ h hC => idempotent_step h hC) (once_initial mode) hretries

namespace Sample

def requestWithId (query : String) : SubmitRequest :=
  { query, mode := none, clientRequestId := some "c", activeTaskId := none }

def analyzedRequest (k : ℕ) (query : String) : List LeaderAct :=
  [.submit (requestWithId query), .analyzed k (some (intent .chitChat))]

end Sample

theorem other_payload_rejected :
    ∃ s, (leader Sample.orchestrator).exec (.initial .directRpc)
      (Sample.analyzedRequest 0 "hello" ++ [.handleIntent 0 1]) = some s ∧
      s.Idempotent Sample.orchestrator (.submit (Sample.requestWithId "dinner")) ∧
      (s.requests "c").head? = some (Sample.requestWithId "hello") := by
  have hmeets := submits_idempotent ((leader Sample.orchestrator).meets_of_check
    (fun _ _ h => of_decide_eq_true h)
    (show (leader Sample.orchestrator).check (fun s a => decide (s.Retries Sample.orchestrator a))
      (.initial .directRpc) (Sample.analyzedRequest 0 "hello" ++ [.handleIntent 0 1] ++
        [.submit (Sample.requestWithId "dinner")]) = true by decide +kernel))
  have hruns : ((leader Sample.orchestrator).exec (.initial .directRpc)
      (Sample.analyzedRequest 0 "hello" ++ [.handleIntent 0 1])).any (fun s =>
        (s.requests "c").head? = some (Sample.requestWithId "hello")) = true := by
    decide +kernel
  obtain ⟨s, hs, hfirst⟩ := (Option.any_eq_true _ _).mp hruns
  exact ⟨s, hs, ((leader Sample.orchestrator).meets_append hmeets hs).2.1,
    of_decide_eq_true hfirst⟩

theorem submits_not_idempotent :
    (∃ s, (leader Sample.orchestrator).exec (.initial .directRpc)
      (Sample.analyzedRequest 0 "hello" ++ [.handleIntent 0 1] ++
        Sample.analyzedRequest 1 "hello") = some s ∧
        ¬ s.Idempotent Sample.orchestrator (.handleIntent 1 2)) ∧
    ∃ s, (leader Sample.orchestrator).exec (.initial .directRpc)
      [.submit (Sample.requestWithId "hello")] = some s ∧
        ¬ s.Idempotent Sample.orchestrator (.submit (Sample.requestWithId "dinner")) := by
  constructor
  · have hanswered : ((leader Sample.orchestrator).exec (.initial .directRpc)
        (Sample.analyzedRequest 0 "hello" ++ [.handleIntent 0 1] ++
          Sample.analyzedRequest 1 "hello")).any (fun s =>
            s.events = [{ submit := 0, effect := .handled .chitChat, closed := false
                          activeTask := none }] ∧
            s.submits = [{ request := Sample.requestWithId "hello", stage := .done },
              { request := Sample.requestWithId "hello"
                stage := .audit (Sample.intent .chitChat) }] ∧
            s.session.requestCache "c" = some "hello") = true := by
      decide +kernel
    obtain ⟨s, hs, hends⟩ := (Option.any_eq_true _ _).mp hanswered
    obtain ⟨hevents, hsubmits, hcached⟩ := of_decide_eq_true hends
    refine ⟨s, hs, fun hidempotent => ?_⟩
    have hfailed := hidempotent.handled 1 2
      { request := Sample.requestWithId "hello", stage := .audit (Sample.intent .chitChat) }
      (Sample.intent .chitChat) "c" rfl (by rw [hsubmits]; rfl) rfl (by decide) _
      (by rw [hevents]; exact List.mem_singleton_self _) (by decide) ⟨_, rfl⟩
      { request := Sample.requestWithId "hello", stage := .done } (by rw [hsubmits]; rfl) (by decide)
      rfl
    exact hfailed.2 hcached
  · have haccepted : ((leader Sample.orchestrator).exec (.initial .directRpc)
        [.submit (Sample.requestWithId "hello")]).any (fun s =>
          s.requests "c" = [Sample.requestWithId "hello"] ∧
          s.accepts Sample.orchestrator (Sample.requestWithId "dinner") = true) = true := by
      decide +kernel
    obtain ⟨s, hs, hends⟩ := (Option.any_eq_true _ _).mp haccepted
    obtain ⟨hrequests, hvalid⟩ := of_decide_eq_true hends
    refine ⟨s, hs, fun hidempotent => ?_⟩
    have hduplicate := hidempotent.rejected (Sample.requestWithId "dinner") "c"
      (Sample.requestWithId "hello") rfl (by decide) (by rw [hrequests]; rfl) (by decide)
    unfold Leader.accepts at hvalid
    rw [hduplicate] at hvalid
    cases hvalid

end Runs

end Acps.Assistant
