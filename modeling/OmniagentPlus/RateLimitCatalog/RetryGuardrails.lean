import OmniagentPlus.CoreContracts.IdentityProfile
import Mathlib.Data.List.Basic

/-! `routing-action.ts` and `retry-guardrails.ts`: what a type of limit asks for, and whether the failed call may be
made once more. -/
namespace OmniagentPlus.RateLimitCatalog
open OmniagentPlus.CoreContracts

section Actions

def routingActionMatrix : LimitType → RoutingAction
  | .noLimit => ⟨false,false,false,false,false,.forbidden⟩
  | .burstRateLimit => ⟨true,true,true,false,false,.forbidden⟩
  | .tokenRateLimit => ⟨true,true,true,true,false,.forbidden⟩
  | .concurrencyLimit => ⟨true,true,false,false,false,.forbidden⟩
  | .fixedWindowUsageCap => ⟨false,false,true,true,false,.manualConfirmationRequired⟩
  | .monthlySpendOrQuotaCap => ⟨false,false,true,true,true,.manualConfirmationRequired⟩
  | .accelerationLimit => ⟨true,true,true,false,false,.forbidden⟩
  | .overloadOrTransient => ⟨true,true,true,false,false,.forbidden⟩
  | .authOrBillingProblem => ⟨false,false,true,true,true,.forbidden⟩
  | .abuseOrPolicyBlock => ⟨false,false,true,false,true,.forbidden⟩
  | .unknownLimit => ⟨false,false,false,false,true,.manualConfirmationRequired⟩

/-- `RoutingActionOverrides` -/
structure RoutingActionOverrides where
  retrySameSession : Option Bool
  reduceConcurrency : Option Bool
  routeNewWorkElsewhere : Option Bool
  migrateExistingPortableWork : Option Bool
  requireManualReview : Option Bool
  sameProviderAccountSwitch : Option SameProviderAccountSwitch

def RoutingActionOverrides.over (overrides : RoutingActionOverrides) (action : RoutingAction) : RoutingAction where
  retrySameSession := overrides.retrySameSession.getD action.retrySameSession
  reduceConcurrency := overrides.reduceConcurrency.getD action.reduceConcurrency
  routeNewWorkElsewhere := overrides.routeNewWorkElsewhere.getD action.routeNewWorkElsewhere
  migrateExistingPortableWork := overrides.migrateExistingPortableWork.getD action.migrateExistingPortableWork
  requireManualReview := overrides.requireManualReview.getD action.requireManualReview
  sameProviderAccountSwitch := overrides.sameProviderAccountSwitch.getD action.sameProviderAccountSwitch

def createRoutingActionForLimitType (type : LimitType) (overrides : RoutingActionOverrides) : RoutingAction :=
  overrides.over (routingActionMatrix type)

end Actions
section Guardrails

/-- A classification with the two fields that only the guardrails read. A delay that is no whole number is as one
below zero. -/
structure GuardedClassification extends LimitClassification where
  retryAfterSeconds : Option ℤ
  notes : Option (List String)
  deriving DecidableEq, Repr

inductive RetryGuardrailReason
  | retryAllowed
  | hardCap
  | waitForReset
  | classificationBlocksRetry
  | retryStormGuardrail
  deriving DecidableEq, Repr

def RetryGuardrailReason.name : RetryGuardrailReason → String
  | retryAllowed => "retry_allowed"
  | hardCap => "hard_cap"
  | waitForReset => "wait_for_reset"
  | classificationBlocksRetry => "classification_blocks_retry"
  | retryStormGuardrail => "retry_storm_guardrail"

structure RetryGuardrailDecision where
  classification : GuardedClassification
  allowRetry : Bool
  nextDelaySeconds : ℕ
  reason : RetryGuardrailReason
  deriving DecidableEq, Repr

/-- `TypeError("Retry counts must be nonnegative safe integers")` -/
inductive RetryError
  | invalidCount
  deriving DecidableEq, Repr

def hardStopTypes : List LimitType :=
  [.fixedWindowUsageCap,.monthlySpendOrQuotaCap,.authOrBillingProblem,.abuseOrPolicyBlock,.unknownLimit]

/-- `retryBudgetByType[type] ?? 0` -/
def retryBudgetByType : LimitType → ℕ
  | .accelerationLimit => 1
  | .burstRateLimit => 2
  | .concurrencyLimit => 2
  | .overloadOrTransient => 3
  | .tokenRateLimit => 2
  | _ => 0

def dedupeNotes (notes : List String) : Option (List String) :=
  match (notes.filter (· != "")).eraseDups with
  | [] => none
  | unique => some unique

def withGuardrailUpdate (classification : GuardedClassification) (note : String) (updates : RoutingActionOverrides) :
    GuardedClassification :=
  { classification with
    notes := dedupeNotes (classification.notes.getD [] ++ [note])
    routingAction := updates.over classification.routingAction }

/-- `Number.isSafeInteger(count) && count >= 0` -/
def retryCount (count : ℤ) : Bool := decide (0 ≤ count ∧ count ≤ 9007199254740991)

/-- `Math.min(300, 2 ** Math.min(9, n))` -/
def backoff (n : ℕ) : ℕ := min 300 (Nat.pow 2 (min 9 n))

def validDelay (suppliedDelay : Option ℤ) : Bool := suppliedDelay.any retryCount

def delaySeconds (suppliedDelay : Option ℤ) (repeatedAttempts : ℕ) : ℕ :=
  match suppliedDelay.filter retryCount with
  | some delay => min 300 delay.toNat
  | none => backoff repeatedAttempts

/-- `Math.min(max ?? Infinity, budget)` -/
def maxAttempts (type : LimitType) (maxRepeatedAttempts : Option ℤ) : ℕ :=
  match maxRepeatedAttempts with
  | some most => min most.toNat (retryBudgetByType type)
  | none => retryBudgetByType type

def stormNote (repeatedAttempts : ℕ) : String :=
  "Retry storm guardrail stopped attempt " ++ toString (repeatedAttempts + 1) ++ "."

/-- What the guardrail changes in a classification that has used its retries up. -/
def stormUpdates : RoutingActionOverrides := ⟨some false,none,some true,none,some true,none⟩

def hardStopReason (classification : GuardedClassification) : RetryGuardrailReason :=
  if (classification.resetAt.bind id).isSome || validDelay classification.retryAfterSeconds then .waitForReset else .hardCap

def applyRetryGuardrails (classification : GuardedClassification) (repeatedAttempts : ℤ) (maxRepeatedAttempts : Option ℤ) :
    Except RetryError RetryGuardrailDecision :=
  let delay := delaySeconds classification.retryAfterSeconds repeatedAttempts.toNat
  if !([repeatedAttempts,maxRepeatedAttempts.getD 0].all retryCount) then .error .invalidCount
  else if hardStopTypes.contains classification.type then
    .ok ⟨classification,false,delay,hardStopReason classification⟩
  else if !classification.routingAction.retrySameSession then
    .ok ⟨classification,false,delay,.classificationBlocksRetry⟩
  else if maxAttempts classification.type maxRepeatedAttempts ≤ repeatedAttempts.toNat then
    .ok ⟨withGuardrailUpdate classification (stormNote repeatedAttempts.toNat) stormUpdates,false,delay,.retryStormGuardrail⟩
  else .ok ⟨classification,true,delay,.retryAllowed⟩

lemma backoff_le (n : ℕ) : backoff n ≤ 300 := Nat.min_le_left _ _

lemma delaySeconds_le (suppliedDelay : Option ℤ) (n : ℕ) : delaySeconds suppliedDelay n ≤ 300 := by
  unfold delaySeconds
  split
  · exact Nat.min_le_left _ _
  · exact backoff_le n

lemma retryBudget_le (type : LimitType) : retryBudgetByType type ≤ 3 := by
  cases type <;> decide

lemma maxAttempts_le (type : LimitType) (most : Option ℤ) : maxAttempts type most ≤ retryBudgetByType type := by
  cases most with
  | none => exact Nat.le_refl _
  | some most => exact Nat.min_le_right _ _

/-- A retry that the guardrails allow: of a limit that passes, within its budget. -/
structure RetryAllowed (classification : GuardedClassification) (repeatedAttempts : ℤ) (most : Option ℤ) : Prop where
  passing : classification.type ∉ hardStopTypes
  asked : classification.routingAction.retrySameSession = true
  budget : repeatedAttempts.toNat < maxAttempts classification.type most

theorem applyRetryGuardrails_spec {classification : GuardedClassification} {n : ℤ} {most : Option ℤ}
    {decision : RetryGuardrailDecision} (h : applyRetryGuardrails classification n most = .ok decision) :
    decision.nextDelaySeconds = delaySeconds classification.retryAfterSeconds n.toNat ∧
      decision.classification.routingAction.sameProviderAccountSwitch = classification.routingAction.sameProviderAccountSwitch ∧
        (decision.allowRetry = true ↔ RetryAllowed classification n most) := by
  unfold applyRetryGuardrails at h
  dsimp only at h
  split_ifs at h with hcounts hhard hasked hstorm
  all_goals cases h
  · refine ⟨rfl,rfl,iff_of_false (by simp) fun hallowed => hallowed.passing ?_⟩
    simpa using hhard
  · exact ⟨rfl,rfl,iff_of_false (by simp) fun hallowed => by simp [hallowed.asked] at hasked⟩
  · exact ⟨rfl,rfl,iff_of_false (by simp) fun hallowed => Nat.not_le.mpr hallowed.budget hstorm⟩
  · refine ⟨rfl,rfl,iff_of_true rfl ⟨?_,?_,Nat.not_le.mp hstorm⟩⟩
    · simpa using hhard
    · simpa using hasked

end Guardrails
end OmniagentPlus.RateLimitCatalog
