import Acps.Adp.Validators

/-!
The tree of discovery servers that a request is forwarded along: whether it stays within the limits
that the request sets.
-/

namespace Acps.Adp

structure Branch where
  weight : ℕ
  elapsedMs : ℤ
  signature : Option String
  trustedServers : Option (List String)

structure Server where
  aic : String
  senderAic : Option String
  weighted : Bool
  branches : List Branch

inductive ServerTree where
  | node (server : Server) (children : Fin server.branches.length → ServerTree)

namespace Server

def build (server : Server) (request : DiscoveryRequest) (branch : Branch × ℕ) :
    Branch × Except Failure DiscoveryRequest :=
  (branch.1, buildForwardedRequest request server.aic branch.2 branch.1.elapsedMs branch.1.signature
    branch.1.trustedServers)

def forward (server : Server) (request : DiscoveryRequest) :
    Except Failure (List (Branch × Except Failure DiscoveryRequest)) := do
  validateForwardChain request server.aic server.senderAic
  validateFanoutBudget request server.branches.length
  if shouldContinueForwarding request then
    let budgets ← allocateFanoutBudget request.getEffectiveFanoutRemaining server.branches.length
      (if server.weighted then "weighted" else "equal") (some (server.branches.map Branch.weight))
    return (server.branches.zip budgets).map (server.build request)
  else return []

def accepts (server : Server) (request : DiscoveryRequest) : Prop :=
  validateForwardChain request server.aic server.senderAic = .ok () ∧
    validateFanoutBudget request server.branches.length = .ok () ∧
      shouldContinueForwarding request = true

end Server

structure Receipt where
  path : List String
  server : Server
  request : DiscoveryRequest

def Receipt.outcome (r : Receipt) :
    Except Failure (List (Branch × Except Failure DiscoveryRequest)) :=
  r.server.forward r.request

def receipts : ServerTree → List String → DiscoveryRequest → List Receipt
  | .node server children, path, request =>
    ⟨path, server, request⟩ ::
      match server.forward request with
      | .error _ => []
      | .ok sent => (List.finRange server.branches.length).flatMap fun i =>
        match sent[i.val]? with
        | some (_, Except.ok forwarded) => receipts (children i) (path ++ [server.aic]) forwarded
        | _ => []

structure Receipt.Keeps (r : Receipt) : Prop where
  errors : ∀ failure, r.outcome = .error failure → failure.isADPError = true
  builds : ∀ sent, r.outcome = .ok sent → ∀ branch ∈ sent, ∀ failure, branch.2 = .error failure →
    failure.isADPError = true
  timeouts : ∀ sent, r.outcome = .ok sent → ∀ branch ∈ sent, ∀ forwarded, branch.2 = .ok forwarded →
    forwarded.getEffectiveTotalTimeoutMs ≤
      (r.request.getEffectiveTotalTimeoutMs - branch.1.elapsedMs).toNat
  reloads : ∀ sent, r.outcome = .ok sent → ∀ branch ∈ sent, ∀ forwarded, branch.2 = .ok forwarded →
    DiscoveryRequest.fromJson forwarded.toJson = .ok forwarded

/-- A server that has accepted the request plans some branch, unless it divides by weights; none of
them takes all the time that is left; and the request has a type or a query. -/
def Receipt.Sound (r : Receipt) : Prop :=
  r.server.accepts r.request →
    (r.server.branches = [] → r.server.weighted = true) ∧
    ∀ branch ∈ r.server.branches,
      branch.elapsedMs < r.request.getEffectiveTotalTimeoutMs ∧
        (r.request.type = none → r.request.hasQuery = true)

section Requests

variable {request forwarded : DiscoveryRequest} {aic : String} {budget : ℕ} {elapsedMs : ℤ}
  {signature : Option String} {trustedServers : Option (List String)}

theorem withDefaults_valid (h : request.Valid) :
    request.withDefaults.valid = true ↔ (request.type = none → request.hasQuery = true) := by
  rw [DiscoveryRequest.valid_iff]
  constructor
  · intro hvalid hnone
    apply hvalid.query
    unfold DiscoveryRequest.withDefaults
    rw [hnone]
    rfl
  · intro hquery
    refine ⟨?_, ?_, h.limit, h.depthLimit, h.fanoutLimit, h.eachTimeout, h.totalTimeout⟩
    · rintro type htype
      obtain rfl := Option.some.inj htype
      cases hr : request.type with
      | none => decide
      | some type => exact h.type type hr
    · intro hexplicit
      have hexplicit := Option.some.inj hexplicit
      cases hr : request.type with
      | none => exact hquery hr
      | some type =>
        rw [hr] at hexplicit
        exact h.query (hr.trans (congrArg some hexplicit))

def forwardedRequest (request : DiscoveryRequest) (aic : String) (budget : ℕ) (elapsedMs : ℤ)
    (signature : Option String) (trustedServers : Option (List String)) : DiscoveryRequest :=
  { request.withDefaults with
    forwardChain := some (request.forwardChain.getD [] ++ [aic])
    forwardFanoutRemaining := some budget
    forwardTotalTimeoutMs := some (request.getEffectiveTotalTimeoutMs - elapsedMs).toNat
    forwardTrustedServers := trustedServers.or request.forwardTrustedServers
    forwardSignatures := match signature with
      | some signature => some (request.forwardSignatures.getD [] ++ [signature])
      | none => request.forwardSignatures
    forwardDepthLimit := some (request.forwardDepthLimit.getD forwardDepthLimitDefault)
    forwardFanoutLimit := some (request.forwardFanoutLimit.getD forwardFanoutLimitDefault) }

theorem buildForwardedRequest_eq :
    buildForwardedRequest request aic budget elapsedMs signature trustedServers =
      if request.withDefaults.valid then
        .ok (forwardedRequest request aic budget elapsedMs signature trustedServers)
      else .error .validationError := by
  unfold buildForwardedRequest DiscoveryRequest.fromDict DiscoveryRequest.toDict
  split <;> rfl

theorem forwardedRequest_withDefaults :
    (forwardedRequest request aic budget elapsedMs signature trustedServers).withDefaults =
      forwardedRequest request aic budget elapsedMs signature trustedServers := by
  have hfilter : (request.filter.map DiscoveryFilter.withDefaults).map DiscoveryFilter.withDefaults =
      request.filter.map DiscoveryFilter.withDefaults := by
    rw [Option.map_map]
    congr 1
    funext filter
    exact filter.withDefaults_withDefaults
  unfold forwardedRequest DiscoveryRequest.withDefaults
  dsimp only
  rw [hfilter]
  rfl

theorem forwardedRequest_valid (h : request.withDefaults.Valid) :
    (forwardedRequest request aic budget elapsedMs signature trustedServers).Valid ↔
      elapsedMs < request.getEffectiveTotalTimeoutMs := by
  constructor
  · intro hvalid
    have hpos := hvalid.totalTimeout _ rfl
    omega
  · intro hleft
    refine ⟨h.type, h.query, h.limit, ?_, ?_, h.eachTimeout, ?_⟩
    · intro n hn
      obtain rfl := Option.some.inj hn
      cases hr : request.forwardDepthLimit with
      | none => decide
      | some n => exact h.depthLimit n hr
    · intro n hn
      obtain rfl := Option.some.inj hn
      cases hr : request.forwardFanoutLimit with
      | none => decide
      | some n => exact h.fanoutLimit n hr
    · intro n hn
      obtain rfl := Option.some.inj hn
      omega

theorem forwardedRequest_reloads (h : request.withDefaults.Valid) :
    DiscoveryRequest.fromJson
        (forwardedRequest request aic budget elapsedMs signature trustedServers).toJson =
      .ok (forwardedRequest request aic budget elapsedMs signature trustedServers) ↔
      elapsedMs < request.getEffectiveTotalTimeoutMs := by
  have hvalid : (forwardedRequest request aic budget elapsedMs signature trustedServers).Valid ↔
      elapsedMs < request.getEffectiveTotalTimeoutMs := forwardedRequest_valid h
  unfold DiscoveryRequest.fromJson DiscoveryRequest.toJson DiscoveryRequest.toDict
    DiscoveryRequest.fromDict
  rw [forwardedRequest_withDefaults, ← hvalid, ← DiscoveryRequest.valid_iff]
  split
  next hvalid => simp [hvalid]
  next hnot => simp [hnot]

theorem forwardedRequest_timeout :
    (forwardedRequest request aic budget elapsedMs signature
        trustedServers).getEffectiveTotalTimeoutMs ≤
      (request.getEffectiveTotalTimeoutMs - elapsedMs).toNat ↔
      elapsedMs < request.getEffectiveTotalTimeoutMs := by
  change orDefault (some (request.getEffectiveTotalTimeoutMs - elapsedMs : ℤ).toNat)
    forwardTotalTimeoutMsDefault ≤ _ ↔ _
  cases hleft : (request.getEffectiveTotalTimeoutMs - elapsedMs : ℤ).toNat with
  | zero =>
    have hdefault : orDefault (some 0) forwardTotalTimeoutMsDefault = 60000 := rfl
    rw [hdefault]
    omega
  | succ n =>
    have hsame : orDefault (some (n + 1)) forwardTotalTimeoutMsDefault = n + 1 := rfl
    rw [hsame]
    omega

theorem validateForwardChain_error {senderAic : Option String} {failure : Failure}
    (h : validateForwardChain request aic senderAic = .error failure) : failure.isADPError = true := by
  unfold validateForwardChain at h
  dsimp only at h
  split at h
  · obtain rfl := Except.error.inj h
    rfl
  · split at h
    · obtain rfl := Except.error.inj h
      rfl
    · split at h
      · split at h
        · obtain rfl := Except.error.inj h
          rfl
        · cases h
      · cases h

theorem validateForwardChain_ok {senderAic : Option String}
    (h : validateForwardChain request aic senderAic = .ok ()) :
    aic ∉ request.forwardChain.getD [] ∧
      (request.forwardChain.getD []).length < request.getEffectiveDepthLimit := by
  unfold validateForwardChain at h
  dsimp only at h
  split at h
  · cases h
  next hfresh =>
    split at h
    · cases h
    next hdepth => exact ⟨hfresh, Nat.lt_of_not_le hdepth⟩

theorem validateFanoutBudget_error {n : ℕ} {failure : Failure}
    (h : validateFanoutBudget request n = .error failure) : failure.isADPError = true := by
  unfold validateFanoutBudget at h
  dsimp only at h
  split at h
  · obtain rfl := Except.error.inj h
    rfl
  · cases h

theorem validateFanoutBudget_ok {n : ℕ} (h : validateFanoutBudget request n = .ok ()) :
    n ≤ request.getEffectiveFanoutRemaining := by
  unfold validateFanoutBudget at h
  dsimp only at h
  split at h
  · cases h
  next henough => exact Nat.le_of_not_lt henough

end Requests

section Steps

variable {server : Server} {request forwarded : DiscoveryRequest}
  {sent : List (Branch × Except Failure DiscoveryRequest)}

theorem forward_cases (server : Server) (request : DiscoveryRequest) :
    (¬ server.accepts request ∧
      ((∃ failure, server.forward request = .error failure ∧ failure.isADPError = true) ∨
        server.forward request = .ok [])) ∨
    (server.accepts request ∧ server.weighted = false ∧ server.branches = [] ∧
      server.forward request = .error .zeroDivisionError) ∨
    (server.accepts request ∧ (server.branches = [] → server.weighted = true) ∧
      ∃ budgets : List ℕ, budgets.length = server.branches.length ∧
        budgets.sum + server.branches.length ≤ request.getEffectiveFanoutRemaining ∧
        server.forward request = .ok ((server.branches.zip budgets).map (server.build request))) := by
  unfold Server.forward Server.accepts
  cases hchain : validateForwardChain request server.aic server.senderAic with
  | error failure =>
    refine .inl ⟨?_, .inl ⟨failure, rfl, validateForwardChain_error hchain⟩⟩
    rintro ⟨h, -⟩
    cases h
  | ok =>
    cases hfanout : validateFanoutBudget request server.branches.length with
    | error failure =>
      refine .inl ⟨?_, .inl ⟨failure, rfl, validateFanoutBudget_error hfanout⟩⟩
      rintro ⟨-, h, -⟩
      cases h
    | ok =>
      by_cases hgo : shouldContinueForwarding request = true
      · have henough : server.branches.length ≤ request.getEffectiveFanoutRemaining :=
          validateFanoutBudget_ok hfanout
        have hweights : (server.branches.map Branch.weight).length = server.branches.length :=
          List.length_map _
        rcases allocateFanoutBudget_cases server.weighted hweights henough with
          ⟨hequal, hnone, hzero⟩ | ⟨hsome, budgets, hbudgets⟩
        · refine .inr (.inl ⟨⟨rfl, rfl, hgo⟩, hequal, List.length_eq_zero_iff.mp hnone, ?_⟩)
          simp only [bind, Except.bind, hgo, hzero, if_true]
        · obtain ⟨hlength, hsum⟩ := allocateFanoutBudget_spec hbudgets
          refine .inr (.inr ⟨⟨rfl, rfl, hgo⟩, ?_, budgets, hlength, hsum, ?_⟩)
          · intro hnone
            exact hsome (List.length_eq_zero_iff.mpr hnone)
          · simp only [bind, Except.bind, hgo, hbudgets, if_true]
            rfl
      · refine .inl ⟨fun h => hgo h.2.2, .inr ?_⟩
        rw [Bool.not_eq_true] at hgo
        simp only [bind, Except.bind, hgo]
        rfl

theorem forward_sent (h : server.forward request = .ok sent) {branch : Branch}
    (hbranch : (branch, Except.ok forwarded) ∈ sent) :
    server.accepts request ∧ branch ∈ server.branches ∧ request.withDefaults.Valid ∧ ∃ budget,
      forwarded = forwardedRequest request server.aic budget branch.elapsedMs branch.signature
        branch.trustedServers := by
  rcases forward_cases server request with
    ⟨-, ⟨failure, herror, -⟩ | hnone⟩ | ⟨-, -, -, hzero⟩ | ⟨haccepts, -, budgets, -, -, hsent⟩
  · rw [h] at herror
    cases herror
  · rw [h] at hnone
    obtain rfl := Except.ok.inj hnone
    cases hbranch
  · rw [h] at hzero
    cases hzero
  · rw [h] at hsent
    obtain rfl := Except.ok.inj hsent
    obtain ⟨⟨branch', budget⟩, hmem, hbuild⟩ := List.mem_map.mp hbranch
    obtain ⟨rfl, hbuilt⟩ := Prod.mk.inj hbuild
    rw [buildForwardedRequest_eq] at hbuilt
    split at hbuilt
    next hvalid =>
      refine ⟨haccepts, (List.of_mem_zip hmem).1, (DiscoveryRequest.valid_iff _).mp hvalid, budget, ?_⟩
      exact (Except.ok.inj hbuilt).symm
    next => cases hbuilt

theorem exists_budget {α β : Type} {l : List α} {l' : List β} (hlength : l'.length = l.length) {a : α}
    (ha : a ∈ l) : ∃ b, (a, b) ∈ l.zip l' := by
  rw [← List.map_fst_zip hlength.ge] at ha
  obtain ⟨⟨a', b⟩, hmem, rfl⟩ := List.mem_map.mp ha
  exact ⟨b, hmem⟩

theorem keeps_iff {r : Receipt} (h : r.request.Valid) : r.Keeps ↔ r.Sound := by
  have hquery := withDefaults_valid h
  rcases forward_cases r.server r.request with
    ⟨hrejects, ⟨failure, herror, hadp⟩ | hnone⟩ | ⟨haccepts, hequal, hempty, hzero⟩ |
      ⟨haccepts, hsome, budgets, hlength, -, hsent⟩
  · refine ⟨fun _ haccepts => (hrejects haccepts).elim, fun _ => ?_⟩
    have hno {sent : List (Branch × Except Failure DiscoveryRequest)} (hr : r.outcome = .ok sent) :
        False := by
      unfold Receipt.outcome at hr
      rw [herror] at hr
      cases hr
    refine ⟨?_, fun _ hr => (hno hr).elim, fun _ hr => (hno hr).elim, fun _ hr => (hno hr).elim⟩
    intro other hother
    obtain rfl := Except.error.inj (herror.symm.trans hother)
    exact hadp
  · refine ⟨fun _ haccepts => (hrejects haccepts).elim, fun _ => ?_⟩
    have hno {sent : List (Branch × Except Failure DiscoveryRequest)} (hr : r.outcome = .ok sent) :
        sent = [] := (Except.ok.inj (hnone.symm.trans hr)).symm
    refine ⟨?_, ?_, ?_, ?_⟩
    · intro failure hfailure
      unfold Receipt.outcome at hfailure
      rw [hnone] at hfailure
      cases hfailure
    all_goals
      intro sent hr branch hbranch
      rw [hno hr] at hbranch
      cases hbranch
  · constructor
    · intro hkeeps
      have hadp := hkeeps.errors _ hzero
      cases hadp
    · intro hsound
      have hweighted := (hsound haccepts).1 hempty
      rw [hequal] at hweighted
      cases hweighted
  · constructor
    · intro hkeeps _
      refine ⟨hsome, ?_⟩
      intro branch hbranch
      obtain ⟨budget, hmem⟩ := exists_budget hlength hbranch
      have hbuilt := List.mem_map_of_mem (f := r.server.build r.request) hmem
      have hbuild : (r.server.build r.request (branch, budget)).2 = _ := buildForwardedRequest_eq
      by_cases hvalid : r.request.withDefaults.valid = true
      · rw [if_pos hvalid] at hbuild
        exact ⟨forwardedRequest_timeout.mp (hkeeps.timeouts _ hsent _ hbuilt _ hbuild),
          hquery.mp hvalid⟩
      · rw [if_neg hvalid] at hbuild
        have hadp := hkeeps.builds _ hsent _ hbuilt _ hbuild
        cases hadp
    · intro hsound
      obtain ⟨-, hsound⟩ := hsound haccepts
      have hbuild {sent : List (Branch × Except Failure DiscoveryRequest)}
          (hr : r.outcome = .ok sent) {branch : Branch × Except Failure DiscoveryRequest}
          (hbranch : branch ∈ sent) : branch.1.elapsedMs < r.request.getEffectiveTotalTimeoutMs ∧
            r.request.withDefaults.Valid ∧ ∃ budget, branch.2 = .ok (forwardedRequest r.request
              r.server.aic budget branch.1.elapsedMs branch.1.signature branch.1.trustedServers) := by
        obtain rfl := Except.ok.inj (hsent.symm.trans hr)
        obtain ⟨⟨planned, budget⟩, hmem, rfl⟩ := List.mem_map.mp hbranch
        obtain ⟨hleft, htype⟩ := hsound planned (List.of_mem_zip hmem).1
        refine ⟨hleft, (DiscoveryRequest.valid_iff _).mp (hquery.mpr htype), budget, ?_⟩
        exact buildForwardedRequest_eq.trans (if_pos (hquery.mpr htype))
      refine ⟨?_, ?_, ?_, ?_⟩
      · intro failure hfailure
        unfold Receipt.outcome at hfailure
        rw [hsent] at hfailure
        cases hfailure
      · intro sent hr branch hbranch failure hfailure
        obtain ⟨-, -, budget, hbuild⟩ := hbuild hr hbranch
        rw [hbuild] at hfailure
        cases hfailure
      · intro sent hr branch hbranch forwarded hforwarded
        obtain ⟨hleft, -, budget, hbuild⟩ := hbuild hr hbranch
        obtain rfl := Except.ok.inj (hbuild.symm.trans hforwarded)
        exact forwardedRequest_timeout.mpr hleft
      · intro sent hr branch hbranch forwarded hforwarded
        obtain ⟨hleft, hvalid, budget, hbuild⟩ := hbuild hr hbranch
        obtain rfl := Except.ok.inj (hbuild.symm.trans hforwarded)
        exact (forwardedRequest_reloads hvalid).mpr hleft

end Steps

section Trees

variable {Q : List String → DiscoveryRequest → Prop} {C : Receipt → Prop}

theorem mem_receipts {server : Server} {children : Fin server.branches.length → ServerTree} {path : List String}
    {request : DiscoveryRequest} {r : Receipt} :
    r ∈ receipts (.node server children) path request ↔ r = ⟨path, server, request⟩ ∨
      ∃ sent, server.forward request = .ok sent ∧ ∃ i branch forwarded,
        sent[Fin.val i]? = some (branch, .ok forwarded) ∧
          r ∈ receipts (children i) (path ++ [server.aic]) forwarded := by
  rw [receipts, List.mem_cons]
  apply or_congr_right
  cases hforward : server.forward request with
  | error failure => simp
  | ok sent =>
    simp only [List.mem_flatMap, Except.ok.injEq, exists_eq_left', List.mem_finRange, true_and]
    apply exists_congr
    intro i
    constructor
    · intro hr
      split at hr
      next branch forwarded hi => exact ⟨branch, forwarded, hi, hr⟩
      next => cases hr
    · rintro ⟨branch, forwarded, hi, hr⟩
      rw [hi]
      exact hr

theorem receipts_invariant
    (hstep : ∀ r sent branch forwarded, Q r.path r.request → C r → r.outcome = .ok sent →
      (branch, .ok forwarded) ∈ sent → Q (r.path ++ [r.server.aic]) forwarded)
    {tree : ServerTree} {path : List String} {request : DiscoveryRequest} (hQ : Q path request)
    (hC : ∀ r ∈ receipts tree path request, C r) :
    ∀ r ∈ receipts tree path request, Q r.path r.request := by
  induction tree generalizing path request with
  | node server children ih =>
    intro r hr
    rcases mem_receipts.mp hr with rfl | ⟨sent, hsent, i, branch, forwarded, hi, hr⟩
    · exact hQ
    · have hroot := hC _ (mem_receipts.mpr (.inl rfl))
      refine ih i (hstep _ sent branch forwarded hQ hroot hsent (List.mem_of_getElem? hi)) ?_ r hr
      intro r' hr'
      exact hC r' (mem_receipts.mpr (.inr ⟨sent, hsent, i, branch, forwarded, hi, hr'⟩))

/-- The chain of a request is that of the first one and the path since then, on which no server stands
twice, and the depth limit stays the same. -/
def Trail (initial : DiscoveryRequest) (path : List String) (request : DiscoveryRequest) : Prop :=
  request.forwardChain.getD [] = initial.forwardChain.getD [] ++ path ∧ path.Nodup ∧
    request.getEffectiveDepthLimit = initial.getEffectiveDepthLimit

theorem trail_step {initial : DiscoveryRequest} {r : Receipt}
    {sent : List (Branch × Except Failure DiscoveryRequest)} {branch : Branch}
    {forwarded : DiscoveryRequest} (h : Trail initial r.path r.request)
    (hsent : r.outcome = .ok sent) (hbranch : (branch, Except.ok forwarded) ∈ sent) :
    Trail initial (r.path ++ [r.server.aic]) forwarded := by
  obtain ⟨⟨hchain, -⟩, -, -, budget, rfl⟩ := forward_sent hsent hbranch
  obtain ⟨htrail, hnodup, hdepth⟩ := h
  obtain ⟨hfresh, -⟩ := validateForwardChain_ok hchain
  rw [htrail] at hfresh
  refine ⟨?_, ?_, ?_⟩
  · change r.request.forwardChain.getD [] ++ [r.server.aic] = _
    rw [htrail, List.append_assoc]
  · rw [List.nodup_append]
    refine ⟨hnodup, List.nodup_singleton _, ?_⟩
    intro a ha b hb
    rw [List.mem_singleton.mp hb]
    rintro rfl
    exact hfresh (List.mem_append_right _ ha)
  · rw [← hdepth]
    change orDefault (some (r.request.forwardDepthLimit.getD _)) _ = orDefault _ _
    cases r.request.forwardDepthLimit with
    | none => rfl
    | some n => rfl

theorem path_bounded {initial : DiscoveryRequest} {tree : ServerTree} {r : Receipt}
    (hr : r ∈ receipts tree [] initial)
    (haccepts : validateForwardChain r.request r.server.aic r.server.senderAic = .ok ()) :
    (r.path ++ [r.server.aic]).length ≤ initial.getEffectiveDepthLimit ∧
      (r.path ++ [r.server.aic]).Nodup := by
  have hinitial : Trail initial [] initial := ⟨(List.append_nil _).symm, List.nodup_nil, rfl⟩
  obtain ⟨htrail, hnodup, hdepth⟩ := receipts_invariant (C := fun _ => True)
    (fun _ _ _ _ h _ hsent hbranch => trail_step h hsent hbranch) hinitial (fun _ _ => trivial) r hr
  obtain ⟨hfresh, hless⟩ := validateForwardChain_ok haccepts
  rw [htrail] at hfresh hless
  rw [hdepth] at hless
  constructor
  · simp only [List.length_append, List.length_singleton] at hless ⊢
    omega
  · rw [List.nodup_append]
    refine ⟨hnodup, List.nodup_singleton _, ?_⟩
    intro a ha b hb
    rw [List.mem_singleton.mp hb]
    rintro rfl
    exact hfresh (List.mem_append_right _ ha)

def received : Except Failure DiscoveryRequest → ℕ
  | .error _ => 0
  | .ok forwarded => forwarded.getEffectiveFanoutRemaining + 1

theorem map_getD_finRange (l : List ℕ) {n : ℕ} (hlength : l.length = n) :
    (List.finRange n).map (fun i => l.getD i.val 0) = l := by
  subst hlength
  apply List.ext_getElem
  · simp
  · intro i hi hi'
    simp [List.getD_eq_getElem?_getD]

theorem receipts_length_le (tree : ServerTree) (path : List String) (request : DiscoveryRequest) :
    (receipts tree path request).length ≤ request.getEffectiveFanoutRemaining + 1 := by
  induction tree generalizing path request with
  | node server children ih =>
    rw [receipts, List.length_cons]
    apply Nat.succ_le_succ
    rcases forward_cases server request with
      ⟨-, ⟨failure, hforward, -⟩ | hforward⟩ | ⟨-, -, -, hforward⟩ |
        ⟨-, -, budgets, hlength, hsum, hforward⟩
    · rw [hforward]
      exact Nat.zero_le _
    · rw [hforward]
      simp
    · rw [hforward]
      exact Nat.zero_le _
    · rw [hforward]
      dsimp only
      rw [List.length_flatMap]
      calc
        _ ≤ ((List.finRange server.branches.length).map fun i => budgets.getD i.val 0 + 1).sum := by
          apply List.sum_le_sum
          intro i _
          split
          next branch forwarded hi =>
            refine (ih i _ forwarded).trans (Nat.succ_le_succ ?_)
            rw [List.getElem?_map, Option.map_eq_some_iff] at hi
            obtain ⟨⟨planned, budget⟩, hplanned, hbuild⟩ := hi
            obtain ⟨-, hbuilt⟩ := Prod.mk.inj hbuild
            rw [buildForwardedRequest_eq] at hbuilt
            split at hbuilt
            · obtain rfl := Except.ok.inj hbuilt
              rw [List.getD_eq_getElem?_getD, (List.getElem?_zip_eq_some.mp hplanned).2]
              exact Nat.le_refl _
            · cases hbuilt
          next => exact Nat.zero_le _
        _ = budgets.sum + server.branches.length := by
          rw [List.sum_map_add, map_getD_finRange budgets hlength]
          simp
        _ ≤ request.getEffectiveFanoutRemaining := hsum

structure Bounded (tree : ServerTree) (initial : DiscoveryRequest) : Prop where
  keeps : ∀ r ∈ receipts tree [] initial, r.Keeps
  paths : ∀ r ∈ receipts tree [] initial,
    validateForwardChain r.request r.server.aic r.server.senderAic = .ok () →
      (r.path ++ [r.server.aic]).length ≤ initial.getEffectiveDepthLimit ∧
        (r.path ++ [r.server.aic]).Nodup
  total : (receipts tree [] initial).tail.length ≤ initial.getEffectiveFanoutRemaining

theorem received_valid {tree : ServerTree} {initial : DiscoveryRequest} (h : initial.Valid)
    (hall : ∀ r ∈ receipts tree [] initial, r.Keeps ∨ r.Sound) :
    ∀ r ∈ receipts tree [] initial, r.request.Valid := by
  refine receipts_invariant (Q := fun _ request => request.Valid) ?_ h hall
  intro r sent branch forwarded hvalid hC hsent hbranch
  have hsound : r.Sound := hC.elim (keeps_iff hvalid).mp id
  obtain ⟨haccepts, hmem, hdefaults, budget, rfl⟩ := forward_sent hsent hbranch
  exact (forwardedRequest_valid hdefaults).mpr ((hsound haccepts).2 branch hmem).1

theorem forwarding_bounded {initial : DiscoveryRequest} (h : initial.Valid) (tree : ServerTree) :
    Bounded tree initial ↔ ∀ r ∈ receipts tree [] initial, r.Sound := by
  constructor
  · intro hbounded r hr
    have hvalid := received_valid h (fun r hr => .inl (hbounded.keeps r hr)) r hr
    exact (keeps_iff hvalid).mp (hbounded.keeps r hr)
  · intro hsound
    refine ⟨?_, fun r hr => path_bounded hr, ?_⟩
    · intro r hr
      have hvalid := received_valid h (fun r hr => .inr (hsound r hr)) r hr
      exact (keeps_iff hvalid).mpr (hsound r hr)
    · rw [List.length_tail]
      exact Nat.sub_le_of_le_add (receipts_length_le tree [] initial)

end Trees

instance (server : Server) (request : DiscoveryRequest) : Decidable (server.accepts request) :=
  inferInstanceAs (Decidable (_ ∧ _ ∧ _))

instance (r : Receipt) : Decidable r.Sound := inferInstanceAs (Decidable (_ → _ ∧ _))

namespace Sample

def request : DiscoveryRequest :=
  { type := some "explicit", query := some "food", context := none, limit := none, filter := none
    forwardDepthLimit := none, forwardFanoutLimit := some 2, forwardFanoutRemaining := none
    forwardChain := none, forwardTrustedServers := none, forwardSignatures := none
    forwardEachTimeoutMs := none, forwardTotalTimeoutMs := some 20000 }

def leaf (aic senderAic : String) : ServerTree :=
  .node { aic, senderAic := some senderAic, weighted := true, branches := [] } fun i => i.elim0

def forwarding (elapsedMs : ℤ) : ServerTree :=
  .node { aic := "a", senderAic := none, weighted := false, branches :=
    [{ weight := 1, elapsedMs, signature := none, trustedServers := none }] } fun _ => leaf "b" "a"

def alone : Server := { aic := "a", senderAic := none, weighted := false, branches := [] }

end Sample

theorem forwarding_bounded_in_time : Bounded (Sample.forwarding 100) Sample.request := by
  have hvalid : Sample.request.Valid := (DiscoveryRequest.valid_iff _).mp (by decide +kernel)
  apply (forwarding_bounded hvalid _).mpr
  decide +kernel

theorem forwarding_unbounded :
    Sample.request.Valid ∧ ¬ Bounded (.node Sample.alone fun i => i.elim0) Sample.request ∧
      ¬ Bounded (Sample.forwarding 20000) Sample.request := by
  refine ⟨(DiscoveryRequest.valid_iff _).mp (by decide +kernel), ?_, ?_⟩
  · intro h
    have hadp := (h.keeps ⟨[], Sample.alone, Sample.request⟩ (mem_receipts.mpr (.inl rfl))).errors
      .zeroDivisionError rfl
    cases hadp
  · intro h
    have hkeeps := h.keeps _ (mem_receipts.mpr (.inl rfl))
    have hleft := hkeeps.timeouts _ rfl _ List.mem_cons_self _ rfl
    revert hleft
    decide +kernel

end Acps.Adp
