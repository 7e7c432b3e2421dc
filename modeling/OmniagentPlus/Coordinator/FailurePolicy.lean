import OmniagentPlus.RateLimitCatalog.RetryGuardrails
import OmniagentPlus.Coordinator.LaunchGate
import OmniagentPlus.Coordinator.RouteSafety

/-! `failure-policy.ts` and `retry-guardrails.ts`: what follows a failed call, and the cooldown of its provider, with
the pools that are built under that cooldown. -/
namespace OmniagentPlus.Coordinator
open OmniagentPlus.Foundation OmniagentPlus.CoreContracts OmniagentPlus.RateLimitCatalog

section Policy
variable {ν : Type}

inductive FailurePolicyAction
  | retrySameSession
  | routeNewWorkElsewhere
  | waitForReset
  | manualReview
  | pauseProviderFamily
  deriving DecidableEq, Repr

structure RetryGuardrailInput (ν : Type) where
  failure : RuntimeFailure ν
  classification : Option GuardedClassification
  repeatedFailures : ℤ
  maxRepeatedFailures : Option ℤ
  idempotencySafe : Option Bool
  mutation : Option Bool

/-- The decision of the guardrails. -/
structure RetryDecision where
  allowRetry : Bool
  action : FailurePolicyAction
  reason : String
  retryAfterSeconds : Option ℕ
  sameProviderAccountSwitch : Option SameProviderAccountSwitch
  deriving DecidableEq, Repr

structure FailurePolicyDecision extends RetryDecision where
  providerCooldown : Option ProviderFamilyCooldown
  deriving DecidableEq, Repr

def manualCategories : List RuntimeFailureCategory := [.auth,.billing,.policyDenied,.approvalRequired,.approvalDenied]

def transientCategories : List RuntimeFailureCategory :=
  [.backendUnavailable,.transport,.timeout,.concurrencyLimit,.rateLimit]

/-- A refusal with nothing but its action and its reason. -/
def refusal (action : FailurePolicyAction) (reason : String) : RetryDecision := ⟨false,action,reason,none,none⟩

/-- What becomes of a call whose limit is classified. -/
def classifiedDecision (input : RetryGuardrailInput ν) (classification : GuardedClassification)
    (result : RetryGuardrailDecision) : RetryDecision :=
  if result.allowRetry then
    if !input.failure.retryable then refusal .manualReview "Runtime failure is not retryable"
    else
      { allowRetry := true
        action := if 0 < input.repeatedFailures ∧ classification.routingAction.routeNewWorkElsewhere then
          .routeNewWorkElsewhere else .retrySameSession
        reason := result.reason.name
        retryAfterSeconds := some result.nextDelaySeconds
        sameProviderAccountSwitch := some classification.routingAction.sameProviderAccountSwitch }
  else
    { allowRetry := false
      action := if result.reason = .waitForReset then .waitForReset
        else if classification.routingAction.requireManualReview then .manualReview else .routeNewWorkElsewhere
      reason := result.reason.name
      retryAfterSeconds := some result.nextDelaySeconds
      sameProviderAccountSwitch := some result.classification.routingAction.sameProviderAccountSwitch }

/-- `Math.min(maxRepeatedFailures ?? 2, 2)` -/
def maxFailures (maxRepeatedFailures : Option ℤ) : ℕ := min ((maxRepeatedFailures.getD 2).toNat) 2

/-- What becomes of a call whose limit is not classified; its category is none of the manual ones. -/
def unclassifiedDecision (input : RetryGuardrailInput ν) : RetryDecision :=
  if transientCategories.contains input.failure.category then
    if !input.failure.retryable then refusal .manualReview "Runtime failure is not retryable"
    else if maxFailures input.maxRepeatedFailures ≤ input.repeatedFailures.toNat then
      refusal .routeNewWorkElsewhere "retry storm guardrail stopped repeated backend failures"
    else ⟨true,.retrySameSession,"retryable runtime failure",some (backoff input.repeatedFailures.toNat),none⟩
  else refusal .manualReview "retry guardrail requires manual review"

/-- The call or the failure is one that nothing makes again by itself. -/
def needsReview (input : RetryGuardrailInput ν) : Bool :=
  manualCategories.contains input.failure.category || input.idempotencySafe == some false ||
    (input.mutation == some true && input.idempotencySafe != some true)

def evaluateRetryGuardrails (input : RetryGuardrailInput ν) : Except RetryError RetryDecision :=
  if !([input.repeatedFailures,input.maxRepeatedFailures.getD 0].all retryCount) then .error .invalidCount
  else if needsReview input then .ok (refusal .manualReview "Failure or mutation requires manual review before retry")
  else match input.classification with
    | some classification => (applyRetryGuardrails classification input.repeatedFailures input.maxRepeatedFailures).map
        (classifiedDecision input classification)
    | none => .ok (unclassifiedDecision input)

/-- `providerCooldownTypes` -/
def providerCooldownTypes : List LimitType :=
  [.fixedWindowUsageCap,.monthlySpendOrQuotaCap,.authOrBillingProblem,.abuseOrPolicyBlock,.unknownLimit]

/-- The provider family that a classification names, if it names one. -/
def familyOf (provider : Option String) : Option ProviderFamilyId :=
  provider.bind fun name => LaunchGate.providerFamilyIds.find? (·.name == name)

def deriveProviderFamilyCooldown (classification : LimitClassification) (observedAt : Instant) :
    Option ProviderFamilyCooldown :=
  if providerCooldownTypes.contains classification.type then
    (familyOf classification.provider).map fun provider =>
      { active := true
        reason := classification.type.name
        resetAt := classification.resetAt
        provider
        observedAt
        source := .limitClassification }
  else none

def evaluateFailurePolicy (input : RetryGuardrailInput ν) (observedAt : Instant) : Except RetryError FailurePolicyDecision := do
  let retry ← evaluateRetryGuardrails input
  let providerCooldown := input.classification.bind fun classification =>
    deriveProviderFamilyCooldown classification.toLimitClassification observedAt
  let action := if providerCooldown.isSome && !retry.allowRetry then .pauseProviderFamily else retry.action
  return ⟨{ retry with action },providerCooldown⟩

end Policy
section Retries
variable {ν : Type} {input : RetryGuardrailInput ν}

/-- The number of failures at which there is no further retry. -/
def RetryGuardrailInput.budget (input : RetryGuardrailInput ν) : ℕ :=
  match input.classification with
  | some c => maxAttempts c.type input.maxRepeatedFailures
  | none => maxFailures input.maxRepeatedFailures

/-- The limit passes by itself, or the failure does. -/
def RetryGuardrailInput.passing (input : RetryGuardrailInput ν) : Prop :=
  match input.classification with
  | some c => c.type ∉ hardStopTypes ∧ c.routingAction.retrySameSession = true
  | none => input.failure.category ∈ transientCategories

/-- When the same call may be made again. -/
structure MayRetry (input : RetryGuardrailInput ν) : Prop where
  automatic : needsReview input = false
  retryable : input.failure.retryable = true
  passing : input.passing
  few : input.repeatedFailures.toNat < input.budget

lemma budget_le (input : RetryGuardrailInput ν) : input.budget ≤ 3 := by
  unfold RetryGuardrailInput.budget
  split
  · exact (maxAttempts_le _ _).trans (retryBudget_le _)
  · exact (Nat.min_le_right _ _).trans (by decide)

lemma classifiedDecision_allows {c : GuardedClassification} {result : RetryGuardrailDecision} :
    (classifiedDecision input c result).allowRetry = true ↔ result.allowRetry = true ∧ input.failure.retryable = true := by
  unfold classifiedDecision
  cases hallowed : result.allowRetry with
  | false => simp
  | true => cases hretryable : input.failure.retryable <;> simp [refusal]

lemma classifiedDecision_delay {c : GuardedClassification} {result : RetryGuardrailDecision}
    (h : (classifiedDecision input c result).allowRetry = true) :
    (classifiedDecision input c result).retryAfterSeconds = some result.nextDelaySeconds := by
  obtain ⟨hallowed,hretryable⟩ := classifiedDecision_allows.mp h
  simp [classifiedDecision, hallowed, hretryable]

lemma unclassifiedDecision_allows : (unclassifiedDecision input).allowRetry = true ↔
    input.failure.category ∈ transientCategories ∧ input.failure.retryable = true ∧
      input.repeatedFailures.toNat < maxFailures input.maxRepeatedFailures := by
  unfold unclassifiedDecision
  split_ifs with htransient hretryable hstorm
  · simp only [Bool.not_eq_true'] at hretryable
    simp [refusal, hretryable]
  · simp only [refusal, Bool.false_eq_true, false_iff]
    exact fun h => Nat.not_le.mpr h.2.2 hstorm
  · simp only [Bool.not_eq_true', Bool.not_eq_false] at hretryable
    exact iff_of_true rfl ⟨by simpa using htransient,hretryable,Nat.not_le.mp hstorm⟩
  · simp only [refusal, Bool.false_eq_true, false_iff]
    exact fun h => htransient (by simpa using h.1)

lemma unclassifiedDecision_delay (h : (unclassifiedDecision input).allowRetry = true) :
    (unclassifiedDecision input).retryAfterSeconds = some (backoff input.repeatedFailures.toNat) := by
  obtain ⟨htransient,hretryable,hfew⟩ := unclassifiedDecision_allows.mp h
  rw [unclassifiedDecision, if_pos (by simpa using htransient), if_neg (by simp [hretryable]), if_neg (Nat.not_le.mpr hfew)]

/-- The guardrails let a call be made again just when that is so, after five minutes at the most. -/
theorem evaluateRetryGuardrails_spec {decision : RetryDecision} (h : evaluateRetryGuardrails input = .ok decision) :
    (decision.allowRetry = true ↔ MayRetry input) ∧
      (decision.allowRetry = true → ∃ delay ≤ 300, decision.retryAfterSeconds = some delay) := by
  unfold evaluateRetryGuardrails at h
  split_ifs at h with hcounts hreview
  · cases h
    exact ⟨iff_of_false (by simp [refusal]) fun hmay => by simp [hmay.automatic] at hreview,fun h => by cases h⟩
  · rw [Bool.not_eq_true] at hreview
    cases hclass : input.classification with
    | none =>
      rw [hclass] at h
      cases h
      refine ⟨unclassifiedDecision_allows.trans ⟨fun hallowed => ?_,fun hmay => ?_⟩,
        fun hallowed => ⟨_,backoff_le _,unclassifiedDecision_delay hallowed⟩⟩
      · exact ⟨hreview,hallowed.2.1,by simpa [RetryGuardrailInput.passing, hclass] using hallowed.1,
          by simpa [RetryGuardrailInput.budget, hclass] using hallowed.2.2⟩
      · exact ⟨by simpa [RetryGuardrailInput.passing, hclass] using hmay.passing,hmay.retryable,
          by simpa [RetryGuardrailInput.budget, hclass] using hmay.few⟩
    | some c =>
      rw [hclass] at h
      dsimp only at h
      cases hresult : applyRetryGuardrails c input.repeatedFailures input.maxRepeatedFailures with
      | error e =>
        rw [hresult] at h
        cases h
      | ok result =>
        rw [hresult] at h
        cases h
        obtain ⟨hdelay,-,hallows⟩ := applyRetryGuardrails_spec hresult
        refine ⟨classifiedDecision_allows.trans ⟨fun hallowed => ?_,fun hmay => ⟨hallows.mpr ?_,hmay.retryable⟩⟩,
          fun hallowed => ⟨_,hdelay ▸ delaySeconds_le _ _,classifiedDecision_delay hallowed⟩⟩
        · obtain ⟨hpassing,hasked,hfew⟩ := hallows.mp hallowed.1
          exact ⟨hreview,hallowed.2,by simpa [RetryGuardrailInput.passing, hclass] using ⟨hpassing,hasked⟩,
            by simpa [RetryGuardrailInput.budget, hclass] using hfew⟩
        · have hpassing := hmay.passing
          have hfew := hmay.few
          simp only [RetryGuardrailInput.passing, hclass] at hpassing
          simp only [RetryGuardrailInput.budget, hclass] at hfew
          exact ⟨hpassing.1,hpassing.2,hfew⟩

lemma classifiedDecision_action {c : GuardedClassification} {result : RetryGuardrailDecision} :
    (classifiedDecision input c result).action ≠ .pauseProviderFamily := by
  unfold classifiedDecision refusal
  split_ifs <;> simp

lemma unclassifiedDecision_action : (unclassifiedDecision input).action ≠ .pauseProviderFamily := by
  unfold unclassifiedDecision refusal
  split_ifs <;> simp

lemma evaluateRetryGuardrails_action {decision : RetryDecision} (h : evaluateRetryGuardrails input = .ok decision) :
    decision.action ≠ .pauseProviderFamily := by
  unfold evaluateRetryGuardrails at h
  split_ifs at h
  · cases h
    simp [refusal]
  · split at h
    · next c _ =>
      cases hresult : applyRetryGuardrails c input.repeatedFailures input.maxRepeatedFailures with
      | error e =>
        rw [hresult] at h
        cases h
      | ok result =>
        rw [hresult] at h
        cases h
        exact classifiedDecision_action
    · cases h
      exact unclassifiedDecision_action

end Retries
section Cooldown
variable {c : LimitClassification} {observedAt : Instant} {k : ProviderFamilyCooldown}

/-- A cooldown is derived of a limit that does not pass by itself, of a provider family that is known. -/
lemma deriveProviderFamilyCooldown_eq_some (h : deriveProviderFamilyCooldown c observedAt = some k) :
    c.type ∈ providerCooldownTypes ∧ c.provider = some k.provider.name ∧ k.active = true ∧ k.reason = c.type.name ∧
      k.resetAt = c.resetAt := by
  unfold deriveProviderFamilyCooldown at h
  split_ifs at h with htype
  obtain ⟨provider,hfamily,rfl⟩ := Option.map_eq_some_iff.mp h
  obtain ⟨name,hname,hfind⟩ := Option.bind_eq_some_iff.mp hfamily
  have hfound := List.find?_some hfind
  simp only [beq_iff_eq] at hfound
  exact ⟨by simpa using htype,hname.trans (congrArg some hfound.symm),rfl,rfl,rfl⟩

lemma expired_of_not_inForce (h : deriveProviderFamilyCooldown c observedAt = some k) {now : ℤ} :
    resetBoundCooldownExpired (some c.type.name) c.resetAt now = true ↔ ¬InForce now k.toCooldownState := by
  obtain ⟨-,-,hactive,hreason,hreset⟩ := deriveProviderFamilyCooldown_eq_some h
  rw [← activeAt_iff, activeAt, hactive, hreason, hreset]
  simp

/-- Where a limit of this kind pauses an identity, the cooldown that was derived of it pauses the provider. -/
lemma inForce_of_effective (h : deriveProviderFamilyCooldown c observedAt = some k) {profile : IdentityProfile} {now : ℤ}
    (heffective : effectiveRouteClassification (some c) profile (some now) = some c) :
    profile.provider = k.provider ∧ InForce now k.toCooldownState := by
  simp only [effectiveRouteClassification, Option.filter_eq_some_iff, true_and, Bool.and_eq_true, beq_iff_eq, Option.any_some,
    Bool.not_eq_true'] at heffective
  obtain ⟨⟨⟨⟨⟨hprovider,-⟩,-⟩,-⟩,-⟩,hexpired⟩ := heffective
  obtain ⟨-,hfamily,-⟩ := deriveProviderFamilyCooldown_eq_some h
  refine ⟨?_,by_contra fun hforce => ?_⟩
  · have hname := Option.some.inj (hprovider.symm.trans hfamily)
    revert hname
    cases profile.provider <;> cases k.provider <;> decide
  · rw [(expired_of_not_inForce h).mpr hforce] at hexpired
    cases hexpired

/-- A limit whose reset has passed is nobody's. -/
lemma not_effective_of_expired (h : deriveProviderFamilyCooldown c observedAt = some k) {profile : IdentityProfile} {now : ℤ}
    (hforce : ¬InForce now k.toCooldownState) : effectiveRouteClassification (some c) profile (some now) = none := by
  rw [effectiveRouteClassification, Option.filter_eq_none_iff]
  intro d hd
  cases hd
  simp [(expired_of_not_inForce h).mpr hforce]

end Cooldown
section Lapse
variable {ν : Type}

/-- The classification that is given for a profile, in effect or not. -/
def BuildIdentityPoolInput.listedFor (input : BuildIdentityPoolInput ν) (profile : IdentityProfile) : Option LimitClassification :=
  match input.classificationByProfileId.get? profile.id with
  | some own => own
  | none => input.classificationByProvider.get? profile.provider

/-- All that a member says but the cooldown that was looked up for it. -/
def IdentityPoolMember.forgetting (m : IdentityPoolMember ν) : IdentityPoolMember ν := { m with providerCooldown := none }

def IdentityPoolSnapshot.forgetting (pool : IdentityPoolSnapshot ν) : IdentityPoolSnapshot ν :=
  { pool with candidates := pool.candidates.map (·.forgetting) }

/-- What `given` has and `cleared` has not: a limit and its cooldown. -/
structure Forgets (c : LimitClassification) (k : ProviderFamilyCooldown) (given cleared : BuildIdentityPoolInput ν) : Prop where
  rest : ∃ cooldowns byProvider byProfileId, cleared = { given with
    providerCooldowns := cooldowns, classificationByProvider := byProvider, classificationByProfileId := byProfileId }
  cooldown : ∀ profile, given.cooldownOf profile = cleared.cooldownOf profile ∨
    given.cooldownOf profile = some k ∧ cleared.cooldownOf profile = none
  classification : ∀ profile, given.listedFor profile = cleared.listedFor profile ∨
    given.listedFor profile = some c ∧ cleared.listedFor profile = none

lemma evaluateCooldownState_lapsed {profile : IdentityProfile} {status : Option IdentityProfileStatus}
    {k : ProviderFamilyCooldown} {classification : Option LimitClassification} {now : ℤ}
    (h : ¬InForce now k.toCooldownState) :
    evaluateCooldownState profile status (some k) classification now =
      evaluateCooldownState profile status none classification now := by
  rw [← activeAt_iff] at h
  simp [evaluateCooldownState, h]

variable {c : LimitClassification} {k : ProviderFamilyCooldown} {observedAt : Instant}
  {given cleared : BuildIdentityPoolInput ν} {now : ℤ}

lemma Forgets.classificationOf (hforgets : Forgets c k given cleared) (hk : deriveProviderFamilyCooldown c observedAt = some k)
    (hforce : ¬InForce now k.toCooldownState) (profile : IdentityProfile) :
    given.classificationOf profile now = cleared.classificationOf profile now := by
  obtain hsame | ⟨hgiven,hcleared⟩ := hforgets.classification profile
  · exact congrArg (effectiveRouteClassification · profile (some now)) hsame
  · exact (congrArg (effectiveRouteClassification · profile (some now)) hgiven).trans
      ((not_effective_of_expired hk hforce).trans
        (congrArg (effectiveRouteClassification · profile (some now)) hcleared).symm)

lemma Forgets.cooldownState (hforgets : Forgets c k given cleared) (hforce : ¬InForce now k.toCooldownState)
    (profile : IdentityProfile) (status : Option IdentityProfileStatus) (classification : Option LimitClassification) :
    evaluateCooldownState profile status (given.cooldownOf profile) classification now =
      evaluateCooldownState profile status (cleared.cooldownOf profile) classification now := by
  obtain hsame | ⟨hgiven,hcleared⟩ := hforgets.cooldown profile
  · rw [hsame]
  · rw [hgiven, hcleared, evaluateCooldownState_lapsed hforce]

end Lapse
section Quarantine
variable {ν ε : Type}

lemma planRoute_candidate {input : RoutePlannerInput ν ε} {planned : PlannedRoute ν ε} (h : planRoute input = .ok planned) :
    planned.candidate ∈ input.identityPool.candidates ∧
      (planned.decision.launchGate.action = .allowed → planned.candidate.available = true) := by
  unfold planRoute at h
  split_ifs at h with hempty
  dsimp only at h
  cases hpreferred : input.findPreferredCandidate with
  | none =>
    rw [hpreferred] at h
    cases h
  | some preferred =>
    rw [hpreferred] at h
    cases h
    refine ⟨?_,fun hallowed => (determineLaunchGate_allowed hallowed).1⟩
    have hin : preferred ∈ input.identityPool.candidates := List.mem_of_find?_eq_some hpreferred
    dsimp only
    split_ifs with havailable
    · exact hin
    · generalize effectiveRouteClassification input.latestClassification preferred.profile
        (some input.identityPool.evaluatedAt) = latest
      cases hfallback : pickFallbackCandidate { input with latestClassification := latest } preferred input.buildPortability with
      | none => exact hin
      | some candidate => exact (pickFallbackCandidate_spec hfallback).1

variable [RouteNumber ν] {localeCompare : String → String → Ordering} {input : BuildIdentityPoolInput ν}
  {pool : IdentityPoolSnapshot ν}

lemma classifiedTarget_hardStop {target : ℕ} {c : LimitClassification} (htype : hardStopType c.type = true) :
    (classifiedTarget target (some c)).1 = 0 := by
  unfold classifiedTarget
  simp [htype]

/-- A limit of the hard kind leaves an identity no turns. -/
lemma no_slots_of_hardStop {base limit active : ℤ} {c : LimitClassification} {health : ν}
    {concurrency : AdaptiveConcurrencyDecision ν} (htype : hardStopType c.type = true)
    (h : evaluateAdaptiveConcurrency base limit active (some c) health = .ok concurrency) :
    concurrency.availableTurnSlots = 0 := by
  unfold evaluateAdaptiveConcurrency at h
  split_ifs at h
  all_goals
    cases h
    change (classifiedTarget _ (some c)).1 - _ = 0
    rw [classifiedTarget_hardStop htype, Nat.zero_sub]

lemma buildCandidate_paused {profile : IdentityProfile} {now : ℤ} {m : IdentityPoolMember ν} {c : LimitClassification}
    (h : buildCandidate profile input now = .ok m) (htype : hardStopType c.type = true)
    (hclass : input.classificationOf profile now = some c) : m.available = false := by
  obtain ⟨concurrency,hconcurrency,h⟩ := except_bind_eq_ok.mp h
  cases h
  rw [hclass] at hconcurrency
  simp [no_slots_of_hardStop htype hconcurrency]

/-- While the cooldown is in force, no identity is available that it or the limit is given for. -/
lemma quarantined {c : LimitClassification} {observedAt : Instant} {k : ProviderFamilyCooldown}
    (hk : deriveProviderFamilyCooldown c observedAt = some k) (hpool : buildIdentityPool localeCompare input = .ok pool)
    {m : IdentityPoolMember ν} (hm : m ∈ pool.candidates)
    (hgiven : input.cooldownOf m.profile = some k ∧ InForce pool.evaluatedAt k.toCooldownState ∨
      input.classificationOf m.profile pool.evaluatedAt = some c) : m.available = false := by
  obtain ⟨hcooldown,hforce⟩ | hclass := hgiven
  · obtain ⟨hdescribes,hlaunchable⟩ := (buildIdentityPool_spec hpool).1 m hm
    rw [← Bool.not_eq_true]
    refine fun havailable => (hlaunchable havailable).cool k.toCooldownState ?_ hforce
    simp [IdentityPoolMember.cooldowns, hdescribes.providerCooldown, hcooldown]
  · unfold buildIdentityPool at hpool
    obtain ⟨now,-,hpool⟩ := except_bind_eq_ok.mp hpool
    obtain ⟨candidates,hcandidates,hpool⟩ := except_bind_eq_ok.mp hpool
    cases hpool
    obtain ⟨profile,hprofile,hbuilt⟩ := forall₂_mem_right (mapM_eq_ok.mp hcandidates)
      ((List.perm_insertionSort _ candidates).mem_iff.mp hm)
    rw [(buildCandidate_spec hprofile hbuilt).2.1] at hclass
    exact buildCandidate_paused hbuilt (by simpa [hardStopType, providerCooldownTypes] using (deriveProviderFamilyCooldown_eq_some hk).1) hclass

/-- A call may be made again just when that is so, thrice at the most and within five minutes; and where the limit
stays, its provider is paused: no route to it is launched while the cooldown is in force. -/
theorem failures_quarantined {μ : Type} {failed : RetryGuardrailInput μ} {observedAt : Instant}
    {decision : FailurePolicyDecision} (h : evaluateFailurePolicy failed observedAt = .ok decision) :
    (decision.allowRetry = true ↔ MayRetry failed) ∧
    (decision.allowRetry = true → decision.providerCooldown = none ∧ failed.repeatedFailures.toNat < 3 ∧
      ∃ delay ≤ 300, decision.retryAfterSeconds = some delay) ∧
    (decision.action = .pauseProviderFamily ↔ decision.providerCooldown.isSome = true) ∧
    ∀ k, decision.providerCooldown = some k → ∀ (localeCompare : String → String → Ordering)
      (poolInput : BuildIdentityPoolInput ν) (plan : RoutePlannerInput ν ε) (planned : PlannedRoute ν ε),
      (Dictionary.indexBy (·.provider) poolInput.providerCooldowns).get? k.provider = some k →
      buildIdentityPool localeCompare poolInput = .ok plan.identityPool →
      InForce plan.identityPool.evaluatedAt k.toCooldownState → planRoute plan = .ok planned →
      planned.decision.launchGate.action = .allowed → planned.candidate.profile.provider ≠ k.provider := by
  obtain ⟨retry,hretry,h⟩ := except_bind_eq_ok.mp h
  cases h
  obtain ⟨hallows,hdelay⟩ := evaluateRetryGuardrails_spec hretry
  have hderived : ∀ k, (failed.classification.bind fun c => deriveProviderFamilyCooldown c.toLimitClassification observedAt) =
      some k → ¬MayRetry failed ∧ ∃ c, deriveProviderFamilyCooldown c observedAt = some k := by
    intro k hk
    obtain ⟨c,hc,hk⟩ := Option.bind_eq_some_iff.mp hk
    refine ⟨fun hmay => ?_,c.toLimitClassification,hk⟩
    have hpassing := hmay.passing
    simp only [RetryGuardrailInput.passing, hc] at hpassing
    exact hpassing.1 (deriveProviderFamilyCooldown_eq_some hk).1
  generalize (failed.classification.bind fun c => deriveProviderFamilyCooldown c.toLimitClassification observedAt) = cooldown
    at hderived
  refine ⟨hallows,fun hallowed => ⟨?_,?_,hdelay hallowed⟩,?_,?_⟩
  · cases cooldown with
    | none => rfl
    | some k => exact absurd (hallows.mp hallowed) (hderived k rfl).1
  · exact (hallows.mp hallowed).few.trans_le (budget_le failed)
  · cases cooldown with
    | none => simpa using evaluateRetryGuardrails_action hretry
    | some k =>
      have hrefused : retry.allowRetry = false := by
        rw [← Bool.not_eq_true, hallows]
        exact (hderived k rfl).1
      simp [hrefused]
  · rintro k rfl localeCompare poolInput plan planned hlisted hpool hforce hplan hallowed hprovider
    obtain ⟨-,c,hc⟩ := hderived k rfl
    obtain ⟨hmem,havailable⟩ := planRoute_candidate hplan
    have hcooldown : poolInput.cooldownOf planned.candidate.profile = some k := by
      rw [BuildIdentityPoolInput.cooldownOf, hprovider, hlisted]
    exact absurd (havailable hallowed) (by simp [quarantined hc hpool hmem (.inl ⟨hcooldown,hforce⟩)])

variable {c : LimitClassification} {k : ProviderFamilyCooldown} {observedAt : Instant}
  {given cleared : BuildIdentityPoolInput ν} {now : ℤ}

lemma buildCandidate_forgetting (hforgets : Forgets c k given cleared)
    (hk : deriveProviderFamilyCooldown c observedAt = some k) (hforce : ¬InForce now k.toCooldownState)
    (profile : IdentityProfile) : (buildCandidate profile given now).map (·.forgetting) =
      (buildCandidate profile cleared now).map (·.forgetting) := by
  have hclass := hforgets.classificationOf hk hforce profile
  have hcool := hforgets.cooldownState hforce profile (given.statusOf profile) (given.classificationOf profile now)
  obtain ⟨cooldowns,byProvider,byProfileId,hrest⟩ := hforgets.rest
  have hstatus : cleared.statusOf profile = given.statusOf profile := by rw [hrest]; rfl
  have hturns : cleared.activeTurns = given.activeTurns := by rw [hrest]
  have hhealth : cleared.providerHealth = given.providerHealth := by rw [hrest]
  have hfit : cleared.capabilityFitByProfileId = given.capabilityFitByProfileId := by rw [hrest]
  unfold buildCandidate
  dsimp only
  rw [hstatus, hturns, hhealth, hfit, ← hclass, hcool]
  cases evaluateAdaptiveConcurrency profile.maxActiveTurns profile.maxActiveTurns
      ((given.activeTurns.get? profile.id).getD (((given.statusOf profile).map (·.activeTurns)).getD 0))
      (given.classificationOf profile now) ((given.providerHealth.get? profile.provider).getD RouteNumber.one) with
  | error e => rfl
  | ok concurrency => rfl

/-- The candidates of a pool in their order. -/
def sortedPool (localeCompare : String → String → Ordering) (now : ℤ) (candidates : List (IdentityPoolMember ν)) :
    IdentityPoolSnapshot ν :=
  ⟨now,candidates.insertionSort fun left right => compareCandidates localeCompare left right ≠ .gt⟩

lemma buildIdentityPool_eq {localeCompare : String → String → Ordering} {input : BuildIdentityPoolInput ν}
    (hnow : input.now = some now) : buildIdentityPool localeCompare input =
      (input.profiles.mapM fun profile => buildCandidate profile input now).map (sortedPool localeCompare now) := by
  unfold buildIdentityPool
  rw [hnow]
  change ((input.profiles.mapM fun profile => buildCandidate profile input now) >>= fun candidates =>
    pure (sortedPool localeCompare now candidates)) = _
  cases input.profiles.mapM fun profile => buildCandidate profile input now with
  | error e => rfl
  | ok candidates => rfl

/-- The members of a pool are sorted by what is not forgotten. -/
lemma sortedPool_forgetting (localeCompare : String → String → Ordering) (candidates : List (IdentityPoolMember ν)) :
    (sortedPool localeCompare now candidates).forgetting = sortedPool localeCompare now (candidates.map (·.forgetting)) :=
  congrArg (IdentityPoolSnapshot.mk now) (List.map_insertionSort _ _ _ _ fun _ _ _ _ => Iff.rfl)

lemma buildIdentityPool_forgetting {localeCompare : String → String → Ordering} {input : BuildIdentityPoolInput ν}
    (hnow : input.now = some now) : (buildIdentityPool localeCompare input).map (·.forgetting) =
      (input.profiles.mapM fun profile => (buildCandidate profile input now).map (·.forgetting)).map
        (sortedPool localeCompare now) := by
  rw [buildIdentityPool_eq hnow, ← map_mapM]
  cases input.profiles.mapM fun profile => buildCandidate profile input now with
  | error e => rfl
  | ok candidates => exact congrArg Except.ok (sortedPool_forgetting localeCompare candidates)

/-- A limit that stays pauses its provider until its reset, and not longer: before it no identity is available that the
limit or its cooldown is given for, the limit counts for nobody but while the cooldown is in force, and after it the pool
is as if neither had been. -/
theorem quarantine_lifts (hk : deriveProviderFamilyCooldown c observedAt = some k) (hforgets : Forgets c k given cleared)
    (localeCompare : String → String → Ordering) :
    (∀ pool, buildIdentityPool localeCompare given = .ok pool → ∀ m ∈ pool.candidates,
      given.cooldownOf m.profile = some k ∧ InForce pool.evaluatedAt k.toCooldownState ∨
        given.classificationOf m.profile pool.evaluatedAt = some c → m.available = false) ∧
    (∀ profile now, given.classificationOf profile now = some c →
      profile.provider = k.provider ∧ InForce now k.toCooldownState) ∧
    ∀ now, given.now = some now → ¬InForce now k.toCooldownState →
      (buildIdentityPool localeCompare given).map (·.forgetting) =
        (buildIdentityPool localeCompare cleared).map (·.forgetting) := by
  refine ⟨fun pool hpool m hm hgiven => quarantined hk hpool hm hgiven,fun profile now hclass => ?_,fun now hnow hforce => ?_⟩
  · have hlisted : given.listedFor profile = some c := (Option.filter_eq_some_iff.mp hclass).1
    refine inForce_of_effective hk ?_
    rw [← hlisted]
    exact hclass.trans hlisted.symm
  · have hmembers : (fun profile => (buildCandidate profile given now).map (·.forgetting)) =
        fun profile => (buildCandidate profile cleared now).map (·.forgetting) :=
      funext (buildCandidate_forgetting hforgets hk hforce)
    obtain ⟨cooldowns,byProvider,byProfileId,hrest⟩ := hforgets.rest
    have hnow' : cleared.now = some now := by rw [hrest]; exact hnow
    have hprofiles : cleared.profiles = given.profiles := by rw [hrest]
    rw [buildIdentityPool_forgetting hnow, buildIdentityPool_forgetting hnow', hprofiles, hmembers]

end Quarantine
section Sample

/-- A cap of the first provider that is lifted at ten. -/
def usageCap : LimitClassification :=
  ⟨.fixedWindowUsageCap,.project,some "openai",some "codex",none,none,some (some 10),routingActionMatrix .fixedWindowUsageCap⟩

def usageCooldown : ProviderFamilyCooldown :=
  ⟨⟨true,"fixed_window_usage_cap",some (some 10)⟩,.openai,some 0,.limitClassification⟩

def cappedCall : RetryGuardrailInput Unit where
  failure := ⟨.rateLimit,true,.provider,.providerFamily,[],none,none,none⟩
  classification := some ⟨usageCap,none,none⟩
  repeatedFailures := 0
  maxRepeatedFailures := none
  idempotencySafe := some true
  mutation := none

def cappedDecision : FailurePolicyDecision :=
  ⟨⟨false,.pauseProviderFamily,"wait_for_reset",some 1,some .manualConfirmationRequired⟩,some usageCooldown⟩

/-- The pool of one clock, where the cap has been seen and where it has not. -/
def seenAt (now : ℤ) : BuildIdentityPoolInput ℕ :=
  { cappedPool with
    profiles := [⟨"primary",.openai,.codex,2,3,none,none⟩,⟨"other",.google,.geminiAntigravity,2,3,none,none⟩]
    providerCooldowns := [usageCooldown]
    classificationByProvider := Dictionary.empty.set .openai usageCap
    now := some now }

def unseenAt (now : ℤ) : BuildIdentityPoolInput ℕ :=
  { seenAt now with providerCooldowns := [], classificationByProvider := .empty }

def seenSnapshot : IdentityPoolSnapshot ℕ := ((buildIdentityPool compare (seenAt 0)).toOption).getD ⟨0,[]⟩

theorem failures_quarantined_capped : evaluateFailurePolicy cappedCall (some 0) = .ok cappedDecision ∧
    ¬MayRetry cappedCall ∧ ∃ planned, planRoute (movingRoute seenSnapshot) = .ok planned ∧
      planned.decision.launchGate.action = .allowed ∧ planned.candidate.profile.provider ≠ .openai := by
  have hdecision : evaluateFailurePolicy cappedCall (some 0) = .ok cappedDecision := by decide +kernel
  have hpool : buildIdentityPool compare (seenAt 0) = .ok (movingRoute seenSnapshot).identityPool := rfl
  have hallows : (planRoute (movingRoute seenSnapshot)).toOption.map (fun planned => planned.decision.launchGate.action) =
      some .allowed := by decide +kernel
  have hquarantined := failures_quarantined (ν := ℕ) (ε := Unit) hdecision
  cases hplan : planRoute (movingRoute seenSnapshot) with
  | error e =>
    rw [hplan] at hallows
    cases hallows
  | ok planned =>
    rw [hplan] at hallows
    have hallowed := Option.some.inj hallows
    refine ⟨hdecision,fun hmay => absurd (hquarantined.1.mpr hmay) (by decide),planned,rfl,hallowed,?_⟩
    exact hquarantined.2.2.2 usageCooldown rfl compare (seenAt 0) (movingRoute seenSnapshot) planned rfl hpool
      (activeAt_iff.mp (by decide +kernel)) hplan hallowed

/-- From the reset on the pool is as if the cap had not been seen. -/
theorem quarantine_lifts_reset : (buildIdentityPool compare (seenAt 20)).map (·.forgetting) =
    (buildIdentityPool compare (unseenAt 20)).map (·.forgetting) := by
  have hforgets : Forgets usageCap usageCooldown (seenAt 20) (unseenAt 20) := by
    refine ⟨⟨[],.empty,.empty,rfl⟩,fun profile => ?_,fun profile => ?_⟩
    all_goals
      obtain ⟨id,provider,harness,sessions,turns,family,identity⟩ := profile
      cases provider with
      | openai => exact .inr ⟨rfl,rfl⟩
      | _ => exact .inl rfl
  have hderived : deriveProviderFamilyCooldown usageCap (some 0) = some usageCooldown := by decide +kernel
  exact (quarantine_lifts hderived hforgets compare).2.2 20 rfl (mt activeAt_iff.mpr (by decide +kernel))

end Sample
end OmniagentPlus.Coordinator
