import Mathlib.Data.List.Nodup
import OmniagentPlus.Foundation.Traversal
import OmniagentPlus.Coordinator.RoutePlanner

/-! What holds of a route that may be launched: the candidate can take the work, no lease stands in the
way, and it replaces the preferred one only where that is allowed and said. -/
namespace OmniagentPlus.Coordinator
open OmniagentPlus.Foundation OmniagentPlus.CoreContracts

/-- A cooldown that is on, unless it is bound to a reset that has passed. -/
def InForce (now : ℤ) (source : CooldownState) : Prop :=
  source.active = true ∧ ¬ (source.reason ∈ [LimitType.fixedWindowUsageCap.name,LimitType.monthlySpendOrQuotaCap.name,
    LimitType.unknownLimit.name] ∧ ∃ reset, source.resetAt = some (some reset) ∧ reset ≤ now)

lemma activeAt_iff {now : ℤ} {source : CooldownState} : activeAt now source = true ↔ InForce now source := by
  rw [activeAt, Bool.and_eq_true, Bool.not_eq_true', ← Bool.not_eq_true, InForce]
  refine and_congr_right fun _ => not_congr ?_
  rw [resetBoundCooldownExpired, Bool.and_eq_true]
  refine and_congr ?_ ?_
  · simp only [Bool.or_eq_true, beq_iff_eq, Option.some.injEq, List.mem_cons, List.not_mem_nil, or_false, or_assoc]
    rfl
  · cases hreset : source.resetAt with
    | none => simp
    | some reset => cases reset <;> simp

section Candidates
variable {ν : Type}

/-- The cooldowns that a candidate is under, in force or not. -/
def IdentityPoolMember.cooldowns (c : IdentityPoolMember ν) : List CooldownState :=
  (c.status.bind (·.cooldown)).toList ++ c.profile.identityCooldown.toList ++
    (c.providerCooldown.map (·.toCooldownState)).toList ++ c.profile.providerFamilyCooldown.toList

/-- A candidate that can take work at a clock. -/
structure Launchable (now : ℤ) (c : IdentityPoolMember ν) : Prop where
  unblocked : ∀ status, c.status = some status → status.status ≠ .blocked
  cool : ∀ source ∈ c.cooldowns, ¬ InForce now source
  sessions : c.activeSessions < c.profile.maxOpenSessions
  slots : 0 < c.availableTurnSlots ∧ c.activeTurns < c.profile.maxActiveTurns

/-- Its place in the pool: what the input says of a profile. -/
structure Describes (input : BuildIdentityPoolInput ν) (c : IdentityPoolMember ν) : Prop where
  profile : c.profile ∈ input.profiles
  status : c.status = input.statusOf c.profile
  providerCooldown : c.providerCooldown = input.cooldownOf c.profile
  activeSessions : c.activeSessions = (c.status.map (·.activeSessions)).getD 0
  activeTurns : c.activeTurns = (input.activeTurns.get? c.profile.id).getD ((c.status.map (·.activeTurns)).getD 0)

lemma not_blocked_iff {profile : IdentityProfile} {status : Option IdentityProfileStatus}
    {providerCooldown : Option ProviderFamilyCooldown} {classification : Option LimitClassification} {now : ℤ} :
    (evaluateCooldownState profile status providerCooldown classification now).blocked = false ↔
      ∀ source ∈ (status.bind (·.cooldown)).toList ++ profile.identityCooldown.toList ++
        (providerCooldown.map (·.toCooldownState)).toList ++ profile.providerFamilyCooldown.toList, ¬ InForce now source := by
  simp only [evaluateCooldownState, Bool.or_eq_false_iff, Bool.not_eq_false', List.isEmpty_iff, List.filter_eq_nil_iff,
    List.mem_append, activeAt_iff]
  constructor
  · intro h source hsource
    obtain ((hstatus | hidentity) | hprovider) | hfamily := hsource
    · exact h.2 source (Or.inl hstatus)
    · exact h.2 source (Or.inr hidentity)
    · exact h.1 source (Or.inl hprovider)
    · exact h.1 source (Or.inr hfamily)
  · intro h
    exact ⟨fun source hsource => h source (hsource.elim (fun hp => Or.inl (Or.inr hp)) Or.inr),
      fun source hsource => h source (Or.inl (Or.inl hsource))⟩

variable [RouteNumber ν]

lemma healthTarget_le (base : ℕ) (health : ν) : (healthTarget base health).1 ≤ base := by
  unfold healthTarget
  split_ifs with h
  · exact h.2.le
  · exact Nat.le_refl base

lemma classifiedTarget_le (target : ℕ) (classification : Option LimitClassification) :
    (classifiedTarget target classification).1 ≤ target := by
  cases classification with
  | none => exact Nat.le_refl target
  | some c =>
    rw [classifiedTarget]
    split_ifs with hstop hreduce
    · exact Nat.zero_le target
    · exact hreduce.2.le
    · exact Nat.le_refl target

/-- Free turn slots are turns that the limit still has room for. -/
lemma room_of_slots {base limit active : ℤ} {classification : Option LimitClassification} {health : ν}
    {concurrency : AdaptiveConcurrencyDecision ν}
    (h : evaluateAdaptiveConcurrency base limit active classification health = .ok concurrency)
    (hslots : 0 < concurrency.availableTurnSlots) : active < limit := by
  have htarget := (classifiedTarget_le (healthTarget (min limit.toNat base.toNat) health).1 classification).trans
    (healthTarget_le (min limit.toNat base.toNat) health)
  unfold evaluateAdaptiveConcurrency at h
  by_cases hcounts : [limit,base,active].all safeCount = true
  · rw [hcounts, if_neg (by decide)] at h
    split_ifs at h
    all_goals
      cases h
      simp only [List.all_cons, List.all_nil, Bool.and_true, Bool.and_eq_true, safeCount, decide_eq_true_eq] at hcounts
      change 0 < (classifiedTarget (healthTarget (min limit.toNat base.toNat) health).1 classification).1 -
        min limit.toNat active.toNat at hslots
      omega
  · rw [Bool.not_eq_true] at hcounts
    rw [hcounts, if_pos (by decide)] at h
    cases h

/-- A member of the pool says what the input does, and is available just where it can take work. -/
theorem buildCandidate_spec {profile : IdentityProfile} {input : BuildIdentityPoolInput ν} {now : ℤ}
    {c : IdentityPoolMember ν} (hprofile : profile ∈ input.profiles) (h : buildCandidate profile input now = .ok c) :
    Describes input c ∧ c.profile = profile ∧ (c.available = true → Launchable now c) := by
  unfold buildCandidate at h
  dsimp only at h
  cases hconcurrency : evaluateAdaptiveConcurrency profile.maxActiveTurns profile.maxActiveTurns
      ((input.activeTurns.get? profile.id).getD (((input.statusOf profile).map (·.activeTurns)).getD 0))
      (input.classificationOf profile now) ((input.providerHealth.get? profile.provider).getD RouteNumber.one) with
  | error e =>
    rw [hconcurrency] at h
    cases h
  | ok concurrency =>
    rw [hconcurrency] at h
    cases h
    refine ⟨⟨hprofile,rfl,rfl,rfl,rfl⟩,rfl,fun havailable => ?_⟩
    simp only [Bool.and_eq_true, Bool.not_eq_true', decide_eq_true_eq] at havailable
    obtain ⟨⟨⟨hstatus,hcool⟩,hsessions⟩,hslots⟩ := havailable
    refine ⟨fun status hsome => ?_,not_blocked_iff.mp hcool,hsessions,hslots,room_of_slots hconcurrency hslots⟩
    dsimp only at hsome
    rw [hsome] at hstatus
    simpa using hstatus

end Candidates

section Pool
variable {ν : Type} [RouteNumber ν] {localeCompare : String → String → Ordering} {input : BuildIdentityPoolInput ν}
  {pool : IdentityPoolSnapshot ν}

/-- Every candidate of a pool is one of its profiles, and two of them are not the same. -/
theorem buildIdentityPool_spec (h : buildIdentityPool localeCompare input = .ok pool) :
    (∀ c ∈ pool.candidates, Describes input c ∧ (c.available = true → Launchable pool.evaluatedAt c)) ∧
      ((input.profiles.map (·.id)).Nodup → (pool.candidates.map (·.profile.id)).Nodup) := by
  unfold buildIdentityPool at h
  obtain ⟨now,-,h⟩ := except_bind_eq_ok.mp h
  obtain ⟨candidates,hcandidates,h⟩ := except_bind_eq_ok.mp h
  cases h
  have hbuilt := mapM_eq_ok.mp hcandidates
  have hperm := List.perm_insertionSort (fun left right => compareCandidates localeCompare left right ≠ .gt) candidates
  constructor
  · intro c hc
    obtain ⟨profile,hprofile,hcandidate⟩ := forall₂_mem_right hbuilt (hperm.mem_iff.mp hc)
    obtain ⟨hdescribes,-,hlaunchable⟩ := buildCandidate_spec hprofile hcandidate
    exact ⟨hdescribes,hlaunchable⟩
  · intro hnodup
    have hids : candidates.map (·.profile.id) = input.profiles.map (·.id) :=
      forall₂_map_eq hbuilt fun profile hprofile c hcandidate => by rw [(buildCandidate_spec hprofile hcandidate).2.1]
    rw [← hids] at hnodup
    exact (hperm.map _).nodup_iff.mpr hnodup

end Pool

section Route
variable {ν ε : Type}

/-- What a launch of `candidate` in the place of `preferred` has met. -/
structure RouteSafe (input : RoutePlannerInput ν ε) (planned : PlannedRoute ν ε) (preferred : IdentityPoolMember ν) : Prop where
  launchable : Launchable input.identityPool.evaluatedAt planned.candidate
  noHardConflict : ∀ arbitration, input.leaseArbitration = some arbitration → arbitration.status ≠ .blockedHardConflict
  notUnavailable : ∀ arbitration, input.leaseArbitration = some arbitration → arbitration.mode = .hard →
    arbitration.status ≠ .coordinationUnavailable
  /-- A replacement is reported, with a reason, and the work may move. -/
  fallback : planned.candidate ≠ preferred → planned.decision.fallbackUsed = true ∧
    planned.decision.fallbackReason.isSome = true ∧ planned.portability.migrateAcrossProviders = true
  /-- A sibling takes its place by policy, or by confirmation. -/
  sibling : isSibling planned.candidate preferred = true →
    (∃ c, effectiveRouteClassification input.latestClassification preferred.profile (some input.identityPool.evaluatedAt) =
      some c ∧ c.routingAction.sameProviderAccountSwitch = .allowedByPolicy) ∨ input.manualConfirmationProvided = some true

lemma pickFallbackCandidate_spec {input : RoutePlannerInput ν ε} {preferred c : IdentityPoolMember ν}
    {portability : PortabilityScore} (h : pickFallbackCandidate input preferred portability = some c) :
    c ∈ input.identityPool.candidates ∧ portability.migrateAcrossProviders = true ∧
      input.latestClassification.isSome = true ∧
        sameProviderSwitchAllowed c preferred input.latestClassification input.confirmed = true := by
  unfold pickFallbackCandidate at h
  split_ifs at h with hstay
  rw [Bool.or_eq_true, not_or, Bool.not_eq_true', Bool.not_eq_false, Bool.not_eq_true', Bool.not_eq_false] at hstay
  have hsome : input.latestClassification.isSome = true := by
    cases hclass : input.latestClassification with
    | none =>
      rw [hclass] at hstay
      exact absurd hstay.2 (by simp)
    | some _ => rfl
  obtain hfirst | ⟨-,hsecond⟩ := Option.or_eq_some_iff.mp h
  · have hfound := List.find?_some hfirst
    simp only [Bool.and_eq_true] at hfound
    exact ⟨List.mem_of_find?_eq_some hfirst,hstay.1,hsome,hfound.1.2⟩
  · have hfound := List.find?_some hsecond
    simp only [Bool.and_eq_true] at hfound
    exact ⟨List.mem_of_find?_eq_some hsecond,hstay.1,hsome,hfound.2⟩

/-- A sibling that may take the place does so by policy, or by confirmation. -/
lemma switch_permitted {candidate preferred : IdentityPoolMember ν} {c : LimitClassification} {confirmed : Bool}
    (h : sameProviderSwitchAllowed candidate preferred (some c) confirmed = true)
    (hsibling : isSibling candidate preferred = true) :
    c.routingAction.sameProviderAccountSwitch = .allowedByPolicy ∨ confirmed = true := by
  rw [sameProviderSwitchAllowed, hsibling] at h
  cases hswitch : c.routingAction.sameProviderAccountSwitch with
  | allowedByPolicy => exact Or.inl rfl
  | manualConfirmationRequired =>
    simp [hswitch] at h
    exact Or.inr h
  | forbidden => simp [hswitch] at h

/-- A gate that lets a candidate start has found it available, and no lease in the way. -/
lemma determineLaunchGate_allowed {candidate preferred : IdentityPoolMember ν} {fallbackUsed : Bool}
    {input : RoutePlannerInput ν ε} (h : (determineLaunchGate candidate preferred fallbackUsed input).1 = .allowed) :
    candidate.available = true ∧ (input.leaseArbitration.any (·.status == .blockedHardConflict)) = false ∧
      (input.leaseArbitration.any fun a => a.status == .coordinationUnavailable && a.mode == .hard) = false := by
  unfold determineLaunchGate at h
  dsimp only at h
  split_ifs at h with hconflict hunavailable havailable
  all_goals cases h
  rw [Bool.not_eq_true', Bool.not_eq_false] at havailable
  exact ⟨havailable,Bool.not_eq_true _ ▸ hconflict,Bool.not_eq_true _ ▸ hunavailable⟩

variable [RouteNumber ν] {localeCompare : String → String → Ordering}

/-- A route through a pool of different profiles that may be launched is safe. -/
theorem planRoute_safe {poolInput : BuildIdentityPoolInput ν} {input : RoutePlannerInput ν ε} {planned : PlannedRoute ν ε}
    (hids : (poolInput.profiles.map (·.id)).Nodup) (hpool : buildIdentityPool localeCompare poolInput = .ok input.identityPool)
    (hplan : planRoute input = .ok planned) (hallowed : planned.decision.launchGate.action = .allowed) :
    ∃ preferred, input.findPreferredCandidate = some preferred ∧ Describes poolInput planned.candidate ∧
      RouteSafe input planned preferred := by
  obtain ⟨hmembers,hnodup⟩ := buildIdentityPool_spec hpool
  unfold planRoute at hplan
  split_ifs at hplan with hempty
  dsimp only at hplan
  cases hpreferred : input.findPreferredCandidate with
  | none =>
    rw [hpreferred] at hplan
    cases hplan
  | some preferred =>
    have hin : preferred ∈ input.identityPool.candidates := List.mem_of_find?_eq_some hpreferred
    rw [hpreferred] at hplan
    dsimp only at hplan
    generalize hclass : effectiveRouteClassification input.latestClassification preferred.profile
      (some input.identityPool.evaluatedAt) = latest at hplan
    generalize hfallback : pickFallbackCandidate { input with latestClassification := latest } preferred
      input.buildPortability = fallback at hplan
    have hselected : ∀ selected, (if preferred.available then preferred else fallback.getD preferred) = selected →
        selected = preferred ∨ fallback = some selected := by
      intro selected hif
      cases fallback with
      | none => exact Or.inl (hif.symm.trans (ite_self preferred))
      | some c =>
        split_ifs at hif
        · exact Or.inl hif.symm
        · exact Or.inr (congrArg some hif)
    generalize (if preferred.available then preferred else fallback.getD preferred) = selected at hplan hselected
    replace hselected := hselected selected rfl
    cases hplan
    obtain ⟨havailable,hconflict,hunavailable⟩ := determineLaunchGate_allowed hallowed
    have hmem : selected ∈ input.identityPool.candidates := by
      obtain rfl | hpicked := hselected
      · exact hin
      · exact (pickFallbackCandidate_spec (hfallback.trans hpicked)).1
    obtain ⟨hdescribes,hlaunchable⟩ := hmembers selected hmem
    refine ⟨preferred,rfl,hdescribes,hlaunchable havailable,fun arbitration hsome => ?_,fun arbitration hsome hhard => ?_,
      fun hne => ?_,fun hsibling => ?_⟩
    · rw [hsome] at hconflict
      simpa using hconflict
    · rw [hsome] at hunavailable
      simpa [hhard] using hunavailable
    · have hpicked := hselected.resolve_left hne
      have hid : selected.profile.id ≠ preferred.profile.id := fun heq =>
        hne (List.inj_on_of_nodup_map (hnodup hids) hmem hin heq)
      refine ⟨bne_iff_ne.mpr hid,?_,(pickFallbackCandidate_spec (hfallback.trans hpicked)).2.1⟩
      change (determineFallbackReason preferred selected latest).isSome = true
      rw [determineFallbackReason, if_neg fun hsame => hid hsame.1]
      rfl
    · have hne : selected ≠ preferred := by
        intro heq
        rw [heq, isSibling, bne_self_eq_false, Bool.and_false] at hsibling
        cases hsibling
      obtain ⟨-,-,hsome,hswitch⟩ := pickFallbackCandidate_spec (hfallback.trans (hselected.resolve_left hne))
      obtain ⟨c,hc⟩ := Option.isSome_iff_exists.mp hsome
      rw [hc] at hswitch
      refine (switch_permitted hswitch hsibling).imp (fun hpolicy => ⟨c,hclass.trans hc,hpolicy⟩) fun hconfirmed => ?_
      cases hmanual : input.manualConfirmationProvided with
      | none =>
        rw [RoutePlannerInput.confirmed, hmanual] at hconfirmed
        cases hconfirmed
      | some confirmed =>
        rw [RoutePlannerInput.confirmed, hmanual] at hconfirmed
        exact congrArg some hconfirmed

end Route
/-- Fractions in hundredths. -/
instance hundredths : RouteNumber ℕ where
  zero := 0
  half := 50
  one := 100
  order a b := some (compare a b)
  floorTimes count fraction := count * fraction / 100
  ratio slots count := 100 * slots / count

/-- A provider's identity under a usage cap, and one of another provider. -/
def cappedPool : BuildIdentityPoolInput ℕ where
  profiles := [⟨"primary",.openai,.codex,2,3,none,some ⟨true,"auth_or_billing_problem",none⟩⟩,
    ⟨"other",.google,.geminiAntigravity,2,3,none,none⟩]
  statuses := []
  providerCooldowns := []
  activeTurns := .empty
  classificationByProvider := .empty
  classificationByProfileId := .empty
  capabilityFitByProfileId := .empty
  providerHealth := .empty
  now := some 0

/-- Work that may move away from the first. -/
def movingRoute (pool : IdentityPoolSnapshot ℕ) : RoutePlannerInput ℕ Unit where
  taskId := "task"
  identityPool := pool
  portability := none
  portabilityInput := ⟨false,true,true,false,false,none⟩
  preferredProvider := none
  preferredHarness := none
  preferredIdentityProfileId := some "primary"
  latestClassification := some ⟨.authOrBillingProblem,.identityProfile,some "openai",some "codex",none,none,none,
    ⟨false,false,true,true,false,.forbidden⟩⟩
  providerHealth := .empty
  capabilityFitByProfileId := .empty
  evidenceRefs := none
  manualConfirmationProvided := none
  leaseArbitration := none

def cappedSnapshot : IdentityPoolSnapshot ℕ := ((buildIdentityPool compare cappedPool).toOption).getD ⟨0,[]⟩

/-- The work goes to the other provider, and may start there. -/
theorem movingRoute_safe : ∃ planned preferred, planRoute (movingRoute cappedSnapshot) = .ok planned ∧
    planned.candidate.profile.id = "other" ∧ planned.decision.launchGate.action = .allowed ∧
      Describes cappedPool planned.candidate ∧ RouteSafe (movingRoute cappedSnapshot) planned preferred := by
  have hpool : buildIdentityPool compare cappedPool = .ok (movingRoute cappedSnapshot).identityPool := rfl
  have hplanned : ((planRoute (movingRoute cappedSnapshot)).toOption.map fun planned =>
      (planned.candidate.profile.id,planned.decision.launchGate.action)) = some ("other",.allowed) := by
    decide +kernel
  cases hplan : planRoute (movingRoute cappedSnapshot) with
  | error e =>
    rw [hplan] at hplanned
    cases hplanned
  | ok planned =>
    rw [hplan] at hplanned
    obtain ⟨hother,hallowed⟩ := Prod.mk.inj (Option.some.inj hplanned)
    obtain ⟨preferred,-,hdescribes,hsafe⟩ := planRoute_safe (by decide) hpool hplan hallowed
    exact ⟨planned,preferred,rfl,hother,hallowed,hdescribes,hsafe⟩

end OmniagentPlus.Coordinator
