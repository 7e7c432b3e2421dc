import Mathlib.Data.List.Sort
import OmniagentPlus.Foundation.Dictionary
import OmniagentPlus.CoreContracts.IdentityProfile

/-! `cooldowns.ts`, `adaptive-concurrency.ts` and `identity-pool.ts`: which identities can take work,
at one clock. -/
namespace OmniagentPlus.Coordinator
open OmniagentPlus.Foundation OmniagentPlus.CoreContracts

/-- The fractions of the language: their order, `none` where a side is not a number, and what the
coordinator computes of them. -/
class RouteNumber (ν : Type) where
  zero : ν
  half : ν
  one : ν
  order : ν → ν → Option Ordering
  /-- `Math.floor(count * fraction)` -/
  floorTimes : ℕ → ν → ℕ
  /-- `slots / count` -/
  ratio : ℕ → ℕ → ν

inductive RouteError
  | invalidPoolClock
  | invalidCount
  | invalidHealth
  | emptyPool
  | unknownPreferred
  deriving DecidableEq, Repr

def RouteError.message : RouteError → String
  | invalidPoolClock => "Invalid identity pool clock"
  | invalidCount => "Concurrency counts must be nonnegative safe integers"
  | invalidHealth => "Provider health must be between zero and one"
  | emptyPool => "identityPool must contain at least one candidate"
  | unknownPreferred => "Unknown or contradictory preferred route target"

section Cooldowns

structure CooldownEvaluation where
  blocked : Bool
  providerFamilyBlocked : Bool
  identityBlocked : Bool
  reason : Option String
  resetAt : Option Instant
  sameProviderAccountSwitch : SameProviderAccountSwitch
  deriving DecidableEq, Repr

def resetBoundCooldownExpired (reason : Option String) (resetAt : Option Instant) (now : ℤ) : Bool :=
  (reason == some "fixed_window_usage_cap" || reason == some "monthly_spend_or_quota_cap" ||
    reason == some "unknown_limit") && (resetAt.bind id).any fun reset => decide (reset ≤ now)

def effectiveRouteClassification (classification : Option LimitClassification) (profile : IdentityProfile)
    (now : Option ℤ) : Option LimitClassification :=
  classification.filter fun c =>
    c.provider == some profile.provider.name && c.harness == some profile.harness.name &&
      c.identityProfileId.all (· == profile.id) && c.sessionId.isNone && c.scope != .session &&
        !now.any fun clock => resetBoundCooldownExpired (some c.type.name) c.resetAt clock

/-- A cooldown that is on, and not one whose reset has passed. -/
def activeAt (now : ℤ) (source : CooldownState) : Bool :=
  source.active && !resetBoundCooldownExpired (some source.reason) source.resetAt now

/-- `evaluateCooldownState` at a clock that is a number. -/
def evaluateCooldownState (profile : IdentityProfile) (status : Option IdentityProfileStatus)
    (providerCooldown : Option ProviderFamilyCooldown) (classification : Option LimitClassification) (now : ℤ) :
    CooldownEvaluation :=
  let classification := effectiveRouteClassification classification profile (some now)
  let providerSources := ((providerCooldown.map (·.toCooldownState)).toList ++
    profile.providerFamilyCooldown.toList).filter (activeAt now)
  let identitySources := ((status.bind (·.cooldown)).toList ++ profile.identityCooldown.toList).filter (activeAt now)
  let sources := identitySources ++ providerSources
  { blocked := !providerSources.isEmpty || !identitySources.isEmpty
    providerFamilyBlocked := !providerSources.isEmpty
    identityBlocked := !identitySources.isEmpty
    reason := sources.head?.map (·.reason)
    resetAt := sources.findSome? (·.resetAt)
    sameProviderAccountSwitch := (classification.map (·.routingAction.sameProviderAccountSwitch)).getD .forbidden }

end Cooldowns

section Concurrency

structure AdaptiveConcurrencyDecision (ν : Type) where
  targetActiveTurns : ℕ
  availableTurnSlots : ℕ
  currentCapacity : ν
  reduced : Bool
  reasons : List String

def hardStopType (type : LimitType) : Bool :=
  [LimitType.fixedWindowUsageCap,.monthlySpendOrQuotaCap,.authOrBillingProblem,.abuseOrPolicyBlock,.unknownLimit].contains
    type

/-- `Number.isSafeInteger(count) && count >= 0` -/
def safeCount (count : ℤ) : Bool := decide (0 ≤ count ∧ count ≤ 9007199254740991)

variable {ν : Type} [RouteNumber ν]

/-- Between zero and one, and a number. -/
def inUnit (health : ν) : Bool :=
  (RouteNumber.order RouteNumber.zero health).any (·.isLE) && (RouteNumber.order health RouteNumber.one).any (·.isLE)

def isLess (left right : ν) : Bool := RouteNumber.order left right == some .lt

/-- The target that the provider's health leaves of the base, with the reasons so far. -/
def healthTarget (base : ℕ) (providerHealth : ν) : ℕ × List String :=
  if isLess providerHealth RouteNumber.half ∧ max 1 (RouteNumber.floorTimes base providerHealth) < base then
    (max 1 (RouteNumber.floorTimes base providerHealth),["provider health reduced the active-turn target"])
  else (base,[])

/-- The target that a classification leaves of it. -/
def classifiedTarget (target : ℕ) (classification : Option LimitClassification) : ℕ × List String :=
  match classification with
  | none => (target,[])
  | some c =>
    if hardStopType c.type then (0,[c.type.name ++ " paused active turns"])
    else if c.routingAction.reduceConcurrency ∧ max 1 (target - 1) < target then
      (max 1 (target - 1),[c.type.name ++ " reduced concurrency"])
    else (target,[])

def evaluateAdaptiveConcurrency (baseTarget maxActiveTurns activeTurns : ℤ) (classification : Option LimitClassification)
    (providerHealth : ν) : Except RouteError (AdaptiveConcurrencyDecision ν) :=
  if !([maxActiveTurns,baseTarget,activeTurns].all safeCount) then .error .invalidCount
  else if !inUnit providerHealth then .error .invalidHealth
  else
    let base := min maxActiveTurns.toNat baseTarget.toNat
    let active := min maxActiveTurns.toNat activeTurns.toNat
    let (byHealth,healthReasons) := healthTarget base providerHealth
    let (target,limitReasons) := classifiedTarget byHealth classification
    let slots := target - active
    .ok ⟨target,slots,if maxActiveTurns = 0 then RouteNumber.zero else RouteNumber.ratio slots maxActiveTurns.toNat,
      decide (target < base),healthReasons ++ limitReasons⟩

end Concurrency

section Pool

structure IdentityPoolMember (ν : Type) where
  profile : IdentityProfile
  status : Option IdentityProfileStatus
  providerCooldown : Option ProviderFamilyCooldown
  cooldownState : CooldownEvaluation
  activeSessions : ℤ
  activeTurns : ℤ
  targetActiveTurns : ℕ
  availableTurnSlots : ℕ
  currentCapacity : ν
  providerHealth : ν
  capabilityFit : ν
  available : Bool
  reasons : List String

structure IdentityPoolSnapshot (ν : Type) where
  evaluatedAt : ℤ
  candidates : List (IdentityPoolMember ν)

/-- What a pool is built of; `activeTurns` is its `byProfileId`, and `now` the clock's reading where the
input has none. -/
structure BuildIdentityPoolInput (ν : Type) where
  profiles : List IdentityProfile
  statuses : List IdentityProfileStatus
  providerCooldowns : List ProviderFamilyCooldown
  activeTurns : Dictionary String ℤ
  classificationByProvider : Dictionary ProviderFamilyId LimitClassification
  classificationByProfileId : Dictionary String (Option LimitClassification)
  capabilityFitByProfileId : Dictionary String ν
  providerHealth : Dictionary ProviderFamilyId ν
  now : Instant

variable {ν : Type}

/-- `mapStatuses(statuses).get(id)`: the last one listed. -/
def BuildIdentityPoolInput.statusOf (input : BuildIdentityPoolInput ν) (profile : IdentityProfile) :
    Option IdentityProfileStatus :=
  (Dictionary.indexBy (·.profileId) input.statuses).get? profile.id

/-- `mapProviderCooldowns(cooldowns).get(provider)` -/
def BuildIdentityPoolInput.cooldownOf (input : BuildIdentityPoolInput ν) (profile : IdentityProfile) :
    Option ProviderFamilyCooldown :=
  (Dictionary.indexBy (·.provider) input.providerCooldowns).get? profile.provider

/-- The classification of a profile, its own before that of its provider, where it is in effect. -/
def BuildIdentityPoolInput.classificationOf (input : BuildIdentityPoolInput ν) (profile : IdentityProfile) (now : ℤ) :
    Option LimitClassification :=
  effectiveRouteClassification (match input.classificationByProfileId.get? profile.id with
    | some own => own
    | none => input.classificationByProvider.get? profile.provider) profile (some now)

variable [RouteNumber ν]

def buildCandidate (profile : IdentityProfile) (input : BuildIdentityPoolInput ν) (now : ℤ) :
    Except RouteError (IdentityPoolMember ν) := do
  let status := input.statusOf profile
  let activeTurns := (input.activeTurns.get? profile.id).getD ((status.map (·.activeTurns)).getD 0)
  let activeSessions := (status.map (·.activeSessions)).getD 0
  let providerCooldown := input.cooldownOf profile
  let classification := input.classificationOf profile now
  let cooldownState := evaluateCooldownState profile status providerCooldown classification now
  let providerHealth := (input.providerHealth.get? profile.provider).getD RouteNumber.one
  let concurrency ← evaluateAdaptiveConcurrency profile.maxActiveTurns profile.maxActiveTurns activeTurns classification
    providerHealth
  let blockedReason := if status.any (·.status == .blocked) then
    [(status.bind (·.reason)).getD "identity status is blocked"] else []
  let sessionReason := if profile.maxOpenSessions ≤ activeSessions then ["open-session limit reached"] else []
  return {
    profile
    status
    providerCooldown
    cooldownState
    activeSessions
    activeTurns
    targetActiveTurns := concurrency.targetActiveTurns
    availableTurnSlots := concurrency.availableTurnSlots
    currentCapacity := concurrency.currentCapacity
    providerHealth
    capabilityFit := (input.capabilityFitByProfileId.get? profile.id).getD RouteNumber.one
    available := status.all (·.status != .blocked) && !cooldownState.blocked &&
      decide (activeSessions < profile.maxOpenSessions) && decide (0 < concurrency.availableTurnSlots)
    reasons := blockedReason ++ concurrency.reasons ++ (cooldownState.reason.filter (· != "")).toList ++ sessionReason }

/-- The higher of two fractions comes first; a difference that is not a number counts as none. -/
def higherFirst (left right : ν) (otherwise : Ordering) : Ordering :=
  match RouteNumber.order right left with
  | some .lt => .lt
  | some .gt => .gt
  | some .eq => otherwise
  | none => .eq

variable (localeCompare : String → String → Ordering)

/-- The comparator of the candidates. -/
def compareCandidates (left right : IdentityPoolMember ν) : Ordering :=
  if left.available ≠ right.available then if left.available then .lt else .gt
  else higherFirst left.capabilityFit right.capabilityFit
    (higherFirst left.currentCapacity right.currentCapacity (localeCompare left.profile.id right.profile.id))

def buildIdentityPool (input : BuildIdentityPoolInput ν) : Except RouteError (IdentityPoolSnapshot ν) := do
  let now ← input.now.elim (.error .invalidPoolClock) .ok
  let candidates ← input.profiles.mapM fun profile => buildCandidate profile input now
  return ⟨now,candidates.insertionSort fun left right => compareCandidates localeCompare left right ≠ .gt⟩

end Pool
end OmniagentPlus.Coordinator
