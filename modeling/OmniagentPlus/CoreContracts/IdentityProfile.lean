import OmniagentPlus.CoreContracts.Worktree

/-! `identity-profile.ts` and `rate-limit.ts`: identity profiles with their cooldowns, and the
classifications of limits. -/
namespace OmniagentPlus.CoreContracts

inductive ProviderFamilyId
  | anthropic
  | openai
  | google
  | zai
  | minimax
  | «local»
  | custom
  deriving DecidableEq, Repr

def ProviderFamilyId.name : ProviderFamilyId → String
  | anthropic => "anthropic"
  | openai => "openai"
  | google => "google"
  | zai => "zai"
  | minimax => "minimax"
  | «local» => "local"
  | custom => "custom"

inductive HarnessId
  | claudeCode
  | codex
  | geminiAntigravity
  | opencode
  | pi
  | custom
  deriving DecidableEq, Repr

def HarnessId.name : HarnessId → String
  | claudeCode => "claude-code"
  | codex => "codex"
  | geminiAntigravity => "gemini-antigravity"
  | opencode => "opencode"
  | pi => "pi"
  | custom => "custom"

inductive LimitType
  | noLimit
  | burstRateLimit
  | tokenRateLimit
  | concurrencyLimit
  | fixedWindowUsageCap
  | monthlySpendOrQuotaCap
  | accelerationLimit
  | overloadOrTransient
  | authOrBillingProblem
  | abuseOrPolicyBlock
  | unknownLimit
  deriving DecidableEq, Repr

def LimitType.name : LimitType → String
  | noLimit => "none"
  | burstRateLimit => "burst_rate_limit"
  | tokenRateLimit => "token_rate_limit"
  | concurrencyLimit => "concurrency_limit"
  | fixedWindowUsageCap => "fixed_window_usage_cap"
  | monthlySpendOrQuotaCap => "monthly_spend_or_quota_cap"
  | accelerationLimit => "acceleration_limit"
  | overloadOrTransient => "overload_or_transient"
  | authOrBillingProblem => "auth_or_billing_problem"
  | abuseOrPolicyBlock => "abuse_or_policy_block"
  | unknownLimit => "unknown_limit"

inductive LimitScope
  | session
  | identityProfile
  | providerFamily
  | model
  | project
  | organization
  | global
  | unknown
  deriving DecidableEq, Repr

inductive SameProviderAccountSwitch
  | forbidden
  | manualConfirmationRequired
  | allowedByPolicy
  deriving DecidableEq, Repr

structure RoutingAction where
  retrySameSession : Bool
  reduceConcurrency : Bool
  routeNewWorkElsewhere : Bool
  migrateExistingPortableWork : Bool
  requireManualReview : Bool
  sameProviderAccountSwitch : SameProviderAccountSwitch
  deriving DecidableEq, Repr

structure LimitClassification where
  type : LimitType
  scope : LimitScope
  provider : Option String
  harness : Option String
  identityProfileId : Option String
  sessionId : Option String
  resetAt : Option Instant
  routingAction : RoutingAction
  deriving DecidableEq, Repr

structure CooldownState where
  active : Bool
  reason : String
  resetAt : Option Instant
  deriving DecidableEq, Repr

structure IdentityProfile where
  id : String
  provider : ProviderFamilyId
  harness : HarnessId
  maxOpenSessions : ℤ
  maxActiveTurns : ℤ
  providerFamilyCooldown : Option CooldownState
  identityCooldown : Option CooldownState
  deriving DecidableEq, Repr

inductive ProfileStatus
  | ready
  | cooldown
  | degraded
  | blocked
  deriving DecidableEq, Repr

structure IdentityProfileStatus where
  profileId : String
  status : ProfileStatus
  activeSessions : ℤ
  activeTurns : ℤ
  reason : Option String
  cooldown : Option CooldownState
  deriving DecidableEq, Repr

inductive CooldownSource
  | limitClassification
  | manual
  | transportFailure
  | replay
  deriving DecidableEq, Repr

def CooldownSource.name : CooldownSource → String
  | limitClassification => "limit_classification"
  | manual => "manual"
  | transportFailure => "transport_failure"
  | replay => "replay"

/-- `ProviderFamilyCooldown` of `state-ledger.ts` -/
structure ProviderFamilyCooldown extends CooldownState where
  provider : ProviderFamilyId
  observedAt : Instant
  source : CooldownSource
  deriving DecidableEq, Repr

end OmniagentPlus.CoreContracts
