import OmniagentPlus.CoreContracts.CoordinationContract
import OmniagentPlus.Coordinator.IdentityPool

/-! `portability.ts` and `route-planner.ts`: which identity a task goes to, and whether it may start. -/
namespace OmniagentPlus.Coordinator
open OmniagentPlus.Foundation OmniagentPlus.CoreContracts

section Portability

inductive ContextPortability
  | low
  | medium
  | high
  deriving DecidableEq, Repr

/-- A score in hundredths. -/
structure PortabilityScore where
  score : ℤ
  level : ContextPortability
  migrateAcrossProviders : Bool
  reasons : List String
  deriving DecidableEq, Repr

/-- What a task's portability is scored by; a flag that is left out is off. -/
structure PortabilityInput where
  sessionContinuation : Bool
  handoffEvidence : Bool
  worktreeLease : Bool
  rawHistoryAttached : Bool
  localFilesystemDependency : Bool
  allowCrossProviderMigration : Option Bool
  deriving DecidableEq, Repr

/-- The change of the score, with the reason for it. -/
def PortabilityInput.factors (input : PortabilityInput) : List (ℤ × String) :=
  [if input.sessionContinuation then (-35,"active session continuation prefers the current provider")
    else (15,"new work can move without session affinity"),
  if input.handoffEvidence then (10,"handoff evidence supports migration")
    else (-10,"missing handoff evidence weakens portability"),
  if input.worktreeLease then (15,"worktree lease keeps repo context portable")
    else (-5,"missing worktree evidence reduces portability")] ++
  (if input.rawHistoryAttached then [(-15,"raw history attachments reduce portability")] else []) ++
  if input.localFilesystemDependency then [(-20,"local filesystem dependency pins execution")] else []

/-- The sums are in hundredths; on every input they are on the same side of the two thresholds as those
of the language's fractions. -/
def scoreTaskPortability (input : PortabilityInput) : PortabilityScore :=
  let forbidden := input.allowCrossProviderMigration == some false
  let total := input.factors.foldl (fun score factor => score + factor.1) 50
  let score : ℤ := min 100 (max 0 (if forbidden then min total 39 else total))
  let level := if 75 ≤ score then ContextPortability.high else if 40 ≤ score then .medium else .low
  { score
    level
    migrateAcrossProviders := level == .high && !forbidden
    reasons := input.factors.map Prod.snd ++ if forbidden then ["policy forbids cross-provider migration"] else [] }

end Portability

inductive LaunchGateAction
  | allowed
  | waitForReset
  | manualConfirmationRequired
  | blocked
  deriving DecidableEq, Repr

inductive LeaseArbitrationStatus
  | notRequested
  | acquired
  | softConflict
  | blockedHardConflict
  | expiredReclaimed
  | coordinationUnavailable
  deriving DecidableEq, Repr

structure RouteDecisionLeaseArbitration where
  status : LeaseArbitrationStatus
  mode : LeaseMode
  leaseId : Option String
  conflictLeaseId : Option String
  holder : Option String
  scope : LeaseScope
  deriving DecidableEq, Repr

inductive RouteReason
  | explicitOverride
  | capabilityFit
  | loadBalance
  | providerCooldown
  | usageCap
  | transientFailure
  | manual
  deriving DecidableEq, Repr

structure RouteDecisionPreferredTarget where
  provider : ProviderFamilyId
  harness : HarnessId
  identityProfileId : String
  deriving DecidableEq, Repr

structure RouteDecisionLaunchGate where
  action : LaunchGateAction
  reason : String
  routeDecisionPersisted : Bool
  labelsMatch : Bool
  manualConfirmationProvided : Bool
  deriving DecidableEq, Repr

/-- The references to evidence, which are only passed on, are of any type `ε`. -/
structure RouteDecision (ν ε : Type) where
  taskId : String
  selectedProvider : ProviderFamilyId
  selectedHarness : HarnessId
  selectedIdentityProfileId : String
  preferredProvider : Option ProviderFamilyId
  preferredHarness : Option HarnessId
  preferredTarget : Option RouteDecisionPreferredTarget
  fallbackUsed : Bool
  fallbackReason : Option String
  capabilityFit : ν
  providerHealth : ν
  currentCapacity : ν
  contextPortability : ContextPortability
  portabilityScore : ℤ
  activeTurnTarget : ℕ
  cooldownState : CooldownEvaluation
  launchGate : RouteDecisionLaunchGate
  leaseArbitration : Option RouteDecisionLeaseArbitration
  routeReason : RouteReason
  silentDowngrade : Bool
  evidenceRefs : Option (List ε)

structure RoutePlannerInput (ν ε : Type) where
  taskId : String
  identityPool : IdentityPoolSnapshot ν
  portability : Option PortabilityScore
  portabilityInput : PortabilityInput
  preferredProvider : Option ProviderFamilyId
  preferredHarness : Option HarnessId
  preferredIdentityProfileId : Option String
  latestClassification : Option LimitClassification
  providerHealth : Dictionary ProviderFamilyId ν
  capabilityFitByProfileId : Dictionary String ν
  evidenceRefs : Option (List ε)
  manualConfirmationProvided : Option Bool
  leaseArbitration : Option RouteDecisionLeaseArbitration

structure PlannedRoute (ν ε : Type) where
  candidate : IdentityPoolMember ν
  portability : PortabilityScore
  decision : RouteDecision ν ε

section Planner
variable {ν ε : Type}

namespace RoutePlannerInput
variable (input : RoutePlannerInput ν ε)

def buildPortability : PortabilityScore := input.portability.getD (scoreTaskPortability input.portabilityInput)

def confirmed : Bool := input.manualConfirmationProvided.getD false

def findPreferredCandidate : Option (IdentityPoolMember ν) :=
  input.identityPool.candidates.find? fun candidate =>
    input.preferredIdentityProfileId.all (candidate.profile.id == ·) &&
      input.preferredProvider.all (candidate.profile.provider == ·) &&
        input.preferredHarness.all (candidate.profile.harness == ·)

end RoutePlannerInput

/-- Another identity of the same provider. -/
def isSibling (candidate preferredCandidate : IdentityPoolMember ν) : Bool :=
  candidate.profile.provider == preferredCandidate.profile.provider && candidate.profile.id != preferredCandidate.profile.id

/-- From here on the preferred candidate has been found. -/
def sameProviderSwitchAllowed (candidate preferredCandidate : IdentityPoolMember ν)
    (classification : Option LimitClassification) (manualConfirmationProvided : Bool) : Bool :=
  if !isSibling candidate preferredCandidate then true
  else
    match (classification.map (·.routingAction.sameProviderAccountSwitch)).getD
        candidate.cooldownState.sameProviderAccountSwitch with
    | .allowedByPolicy => true
    | .manualConfirmationRequired => manualConfirmationProvided
    | .forbidden => false

/-- Identities of other providers, and the preferred one, come before its siblings. -/
def pickFallbackCandidate (input : RoutePlannerInput ν ε) (preferredCandidate : IdentityPoolMember ν)
    (portability : PortabilityScore) : Option (IdentityPoolMember ν) :=
  if !portability.migrateAcrossProviders ||
      !input.latestClassification.any (·.routingAction.routeNewWorkElsewhere) then none
  else
    let launchable := fun candidate : IdentityPoolMember ν => candidate.available &&
      sameProviderSwitchAllowed candidate preferredCandidate input.latestClassification input.confirmed
    (input.identityPool.candidates.find? fun candidate =>
      launchable candidate && !isSibling candidate preferredCandidate).or (input.identityPool.candidates.find? launchable)

def determineLaunchGate (candidate preferredCandidate : IdentityPoolMember ν) (fallbackUsed : Bool)
    (input : RoutePlannerInput ν ε) : LaunchGateAction × String :=
  let unconfirmed := isSibling candidate preferredCandidate &&
    candidate.cooldownState.sameProviderAccountSwitch == .manualConfirmationRequired && !input.confirmed
  if input.leaseArbitration.any (·.status == .blockedHardConflict) then
    (.blocked,match input.leaseArbitration.bind (·.conflictLeaseId) with
      | none => "hard coordination lease conflict blocks launch"
      | some conflictLeaseId => "hard coordination lease conflict " ++ conflictLeaseId ++ " blocks launch")
  else if input.leaseArbitration.any fun a => a.status == .coordinationUnavailable && a.mode == .hard then
    (.blocked,"hard coordination lease backend is unavailable")
  else if !candidate.available then
    if unconfirmed then
      (.manualConfirmationRequired,
        "provider-family cooldown requires manual confirmation before same-provider account switching")
    else if candidate.cooldownState.blocked then
      (.waitForReset,candidate.cooldownState.reason.getD "provider cooldown blocks launch")
    else (.blocked,candidate.reasons.head?.getD "no launchable candidate is available")
  else if fallbackUsed && unconfirmed then
    (.manualConfirmationRequired,"same-provider account switching requires manual confirmation for this cooldown class")
  else (.allowed,"route decision is persisted before launch")

def determineRouteReason (input : RoutePlannerInput ν ε) (fallbackUsed : Bool) (candidate : IdentityPoolMember ν) :
    RouteReason :=
  let isType := fun types : List LimitType => input.latestClassification.any fun c => types.contains c.type
  if input.preferredIdentityProfileId.any (· != "") && !fallbackUsed then .explicitOverride
  else if isType [.fixedWindowUsageCap,.monthlySpendOrQuotaCap] then .usageCap
  else if candidate.cooldownState.providerFamilyBlocked then .providerCooldown
  else if isType [.overloadOrTransient,.accelerationLimit,.unknownLimit] then .transientFailure
  else if fallbackUsed then .loadBalance
  else .capabilityFit

def determineFallbackReason (preferredCandidate candidate : IdentityPoolMember ν)
    (classification : Option LimitClassification) : Option String :=
  if candidate.profile.id = preferredCandidate.profile.id ∧
      candidate.profile.provider = preferredCandidate.profile.provider then none
  else some (preferredCandidate.cooldownState.reason.getD
    ((classification.map (·.type.name)).getD "preferred target had lower capacity"))

def buildDecision (input : RoutePlannerInput ν ε) (candidate preferredCandidate : IdentityPoolMember ν)
    (portability : PortabilityScore) (fallbackUsed : Bool) : RouteDecision ν ε :=
  let launchGate := determineLaunchGate candidate preferredCandidate fallbackUsed input
  { taskId := input.taskId
    selectedProvider := candidate.profile.provider
    selectedHarness := candidate.profile.harness
    selectedIdentityProfileId := candidate.profile.id
    preferredProvider := input.preferredProvider
    preferredHarness := input.preferredHarness
    preferredTarget := some ⟨preferredCandidate.profile.provider,preferredCandidate.profile.harness,
      preferredCandidate.profile.id⟩
    fallbackUsed
    fallbackReason := determineFallbackReason preferredCandidate candidate input.latestClassification
    capabilityFit := (input.capabilityFitByProfileId.get? candidate.profile.id).getD candidate.capabilityFit
    providerHealth := (input.providerHealth.get? candidate.profile.provider).getD candidate.providerHealth
    currentCapacity := candidate.currentCapacity
    contextPortability := portability.level
    portabilityScore := portability.score
    activeTurnTarget := candidate.targetActiveTurns
    cooldownState := candidate.cooldownState
    launchGate := ⟨launchGate.1,launchGate.2,false,true,input.confirmed⟩
    leaseArbitration := input.leaseArbitration
    routeReason := determineRouteReason input fallbackUsed candidate
    silentDowngrade := false
    evidenceRefs := input.evidenceRefs.filter fun refs => !refs.isEmpty }

def planRoute (input : RoutePlannerInput ν ε) : Except RouteError (PlannedRoute ν ε) :=
  if input.identityPool.candidates.isEmpty then .error .emptyPool
  else
    let portability := input.buildPortability
    match input.findPreferredCandidate with
    | none => .error .unknownPreferred
    | some preferredCandidate =>
      let latestClassification := effectiveRouteClassification input.latestClassification preferredCandidate.profile
        (some input.identityPool.evaluatedAt)
      let input := { input with latestClassification }
      let fallbackCandidate := pickFallbackCandidate input preferredCandidate portability
      let selectedCandidate :=
        if preferredCandidate.available then preferredCandidate else fallbackCandidate.getD preferredCandidate
      let fallbackUsed := selectedCandidate.profile.id != preferredCandidate.profile.id
      .ok ⟨selectedCandidate,portability,buildDecision input selectedCandidate preferredCandidate portability fallbackUsed⟩

end Planner
end OmniagentPlus.Coordinator
