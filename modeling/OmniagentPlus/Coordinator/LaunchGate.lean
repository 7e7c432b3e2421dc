import OmniagentPlus.Coordinator.RoutePlanner
import OmniagentPlus.CoreContracts.CoordinationMessage
import OmniagentPlus.CoreContracts.MetadataPath
import OmniagentPlus.CoreContracts.StateMachines

/-! `launch-gate.ts` and `route-store.ts`: a session or a turn starts after its route decision has been written, with
the decision and the requests of `route-decision.ts` and `schemas.ts` as any caller may make them. -/
namespace OmniagentPlus.Coordinator
open OmniagentPlus.Foundation OmniagentPlus.CoreContracts

section Words

def LaunchGateAction.name : LaunchGateAction → String
  | allowed => "allowed"
  | waitForReset => "wait_for_reset"
  | manualConfirmationRequired => "manual_confirmation_required"
  | blocked => "blocked"

def LeaseArbitrationStatus.name : LeaseArbitrationStatus → String
  | notRequested => "not_requested"
  | acquired => "acquired"
  | softConflict => "soft_conflict"
  | blockedHardConflict => "blocked_hard_conflict"
  | expiredReclaimed => "expired_reclaimed"
  | coordinationUnavailable => "coordination_unavailable"

def RouteReason.name : RouteReason → String
  | explicitOverride => "explicit_override"
  | capabilityFit => "capability_fit"
  | loadBalance => "load_balance"
  | providerCooldown => "provider_cooldown"
  | usageCap => "usage_cap"
  | transientFailure => "transient_failure"
  | manual => "manual"

def ContextPortability.name : ContextPortability → String
  | low => "low"
  | medium => "medium"
  | high => "high"

/-- `sameProviderAccountSwitch` -/
def switchName : SameProviderAccountSwitch → String
  | .forbidden => "forbidden"
  | .manualConfirmationRequired => "manual_confirmation_required"
  | .allowedByPolicy => "allowed_by_policy"

def modeName : LeaseMode → String
  | .soft => "soft"
  | .hard => "hard"

end Words

namespace LaunchGate

inductive RuntimeEvidenceKind
  | file
  | log
  | command
  | test
  | diff
  deriving DecidableEq, Repr

def RuntimeEvidenceKind.name : RuntimeEvidenceKind → String
  | file => "file"
  | log => "log"
  | command => "command"
  | test => "test"
  | diff => "diff"

structure RuntimeEvidenceRef where
  kind : RuntimeEvidenceKind
  label : Text
  path : Option Text
  excerpt : Option Text
  deriving DecidableEq, Repr

structure PreferredTarget where
  provider : Option String
  harness : Option String
  identityProfileId : Option String
  deriving DecidableEq, Repr

structure RouteDecisionCooldownState where
  providerFamilyBlocked : Bool
  identityBlocked : Bool
  reason : Option String
  resetAt : Option String
  sameProviderAccountSwitch : SameProviderAccountSwitch
  deriving DecidableEq, Repr

structure RouteDecision (ν : Type) where
  taskId : String
  selectedProvider : String
  selectedHarness : String
  selectedIdentityProfileId : Option String
  preferredProvider : Option String
  preferredHarness : Option String
  fallbackUsed : Bool
  fallbackReason : Option String
  capabilityFit : ν
  providerHealth : ν
  currentCapacity : ν
  preferredTarget : Option PreferredTarget
  contextPortability : ContextPortability
  portabilityScore : Option ν
  activeTurnTarget : Option ν
  cooldownState : Option RouteDecisionCooldownState
  launchGate : Option RouteDecisionLaunchGate
  leaseArbitration : Option RouteDecisionLeaseArbitration
  routeReason : RouteReason
  silentDowngrade : Bool
  evidenceRefs : Option (List RuntimeEvidenceRef)

/-- What the gate throws of its own: of a schema, of a text that metadata must not have, or a failure. -/
inductive GateError (ν : Type)
  | schema
  | metadata (message : String)
  | failure (failure : RuntimeFailure ν)

section Schema
variable {ν : Type}

def textField (key value : String) : Text × JsValue ν := (Text.of key,.string (Text.of value))

def optionalText (key : String) (value : Option String) : List (Text × JsValue ν) :=
  presentField key (value.map fun text => .string (Text.of text))

def boolField (key : String) (value : Bool) : Text × JsValue ν := (Text.of key,.bool value)

def RuntimeEvidenceRef.toValue (ref : RuntimeEvidenceRef) : JsValue ν :=
  .object ([textField "kind" ref.kind.name,(Text.of "label",.string ref.label)] ++
    presentField "path" (ref.path.map .string) ++ presentField "excerpt" (ref.excerpt.map .string)) []

def PreferredTarget.toValue (target : PreferredTarget) : JsValue ν :=
  .object (optionalText "provider" target.provider ++ optionalText "harness" target.harness ++
    optionalText "identityProfileId" target.identityProfileId) []

def RouteDecisionCooldownState.toValue (state : RouteDecisionCooldownState) : JsValue ν :=
  .object ([boolField "providerFamilyBlocked" state.providerFamilyBlocked,
    boolField "identityBlocked" state.identityBlocked] ++ optionalText "reason" state.reason ++
      optionalText "resetAt" state.resetAt ++
        [textField "sameProviderAccountSwitch" (switchName state.sameProviderAccountSwitch)]) []

/-- The gate of a decision as the scan sees it. -/
def gateValue (gate : RouteDecisionLaunchGate) : JsValue ν :=
  .object [textField "action" gate.action.name,textField "reason" gate.reason,
    boolField "routeDecisionPersisted" gate.routeDecisionPersisted,boolField "labelsMatch" gate.labelsMatch,
    boolField "manualConfirmationProvided" gate.manualConfirmationProvided] []

/-- The arbitration of a decision as the scan sees it. -/
def arbitrationValue (arbitration : RouteDecisionLeaseArbitration) : JsValue ν :=
  .object ([textField "status" arbitration.status.name,textField "mode" (modeName arbitration.mode)] ++
    optionalText "leaseId" arbitration.leaseId ++ optionalText "conflictLeaseId" arbitration.conflictLeaseId ++
      optionalText "holder" arbitration.holder ++ [(Text.of "scope",arbitration.scope.toValue)]) []

def RouteDecision.toValue (d : RouteDecision ν) : JsValue ν :=
  .object ([textField "schema" "route_decision.v0.1",textField "taskId" d.taskId,
    textField "selectedProvider" d.selectedProvider,textField "selectedHarness" d.selectedHarness] ++
      optionalText "selectedIdentityProfileId" d.selectedIdentityProfileId ++
      optionalText "preferredProvider" d.preferredProvider ++ optionalText "preferredHarness" d.preferredHarness ++
      [boolField "fallbackUsed" d.fallbackUsed] ++ optionalText "fallbackReason" d.fallbackReason ++
      [(Text.of "capabilityFit",.number d.capabilityFit),(Text.of "providerHealth",.number d.providerHealth),
        (Text.of "currentCapacity",.number d.currentCapacity)] ++
      presentField "preferredTarget" (d.preferredTarget.map (·.toValue)) ++
      [textField "contextPortability" d.contextPortability.name] ++
      presentField "portabilityScore" (d.portabilityScore.map .number) ++
      presentField "activeTurnTarget" (d.activeTurnTarget.map .number) ++
      presentField "cooldownState" (d.cooldownState.map (·.toValue)) ++
      presentField "launchGate" (d.launchGate.map gateValue) ++
      presentField "leaseArbitration" (d.leaseArbitration.map arbitrationValue) ++
      [textField "routeReason" d.routeReason.name,boolField "silentDowngrade" d.silentDowngrade] ++
      presentField "evidenceRefs" (d.evidenceRefs.map fun refs => .array (refs.map fun ref => some ref.toValue) [])) []

/-- `z.string().min(1).optional()` of a text that is one. -/
def named (value : Option String) : Bool := value != some ""

/-- The checks of `redaction.ts` and of the schema library that the gate makes of texts, paths and whole values. -/
structure MetadataChecks (ν : Type) where
  isDatetime : Text → Bool
  sanitizeText : Text → String → ℕ → Except String Text
  sanitizePath : Text → Except String Text
  metadataSafe : JsValue ν → Bool

variable [JsNumber ν]

/-- The code's own. -/
def metadataChecks (isDatetime : Text → Bool) : MetadataChecks ν :=
  ⟨isDatetime,sanitizeMetadataText ν isDatetime,sanitizeMetadataPath ν isDatetime,metadataSafe isDatetime⟩

variable (checks : MetadataChecks ν)

/-- `runtimeEvidenceRefSchema` -/
def RuntimeEvidenceRef.allowed (ref : RuntimeEvidenceRef) : Bool :=
  !ref.label.isEmpty && nonempty ref.path && nonempty ref.excerpt &&
    (checks.sanitizeText ref.label "evidence label" defaultMetadataTextMaxBytes).isOk &&
      ref.path.all (fun path => (checks.sanitizePath path).isOk) &&
        ref.excerpt.all fun excerpt => (checks.sanitizeText excerpt "evidence excerpt" defaultUntrustedTextMaxBytes).isOk

variable [RouteNumber ν]

/-- `routeDecisionSchema` -/
def RouteDecision.allowed (d : RouteDecision ν) : Bool :=
  d.taskId != "" && d.selectedProvider != "" && d.selectedHarness != "" &&
    ([d.selectedIdentityProfileId,d.preferredProvider,d.preferredHarness,d.fallbackReason].all named) &&
    [d.capabilityFit,d.providerHealth,d.currentCapacity].all inUnit &&
    d.preferredTarget.all (fun target => [target.provider,target.harness,target.identityProfileId].all named) &&
    d.portabilityScore.all inUnit && d.activeTurnTarget.all (fun n => JsNumber.isInteger n && JsNumber.isNonnegative n) &&
    d.cooldownState.all (fun state => named state.reason && state.resetAt.all fun reset => checks.isDatetime (Text.of reset)) &&
    d.launchGate.all (fun gate => gate.reason != "") &&
    d.leaseArbitration.all (fun arbitration =>
      [arbitration.leaseId,arbitration.conflictLeaseId,arbitration.holder].all named &&
        arbitration.scope.selector.all fun selector => !selector.isEmpty) &&
    !d.silentDowngrade && d.evidenceRefs.all (fun refs => refs.all (RuntimeEvidenceRef.allowed checks)) &&
    checks.metadataSafe d.toValue

/-- `routeDecisionSchema.parse` -/
def RouteDecision.parse (d : RouteDecision ν) : Except (GateError ν) (RouteDecision ν) :=
  if d.allowed checks then .ok d else .error .schema

end Schema
section Gate
variable {ν : Type}

def gateAction (d : RouteDecision ν) : LaunchGateAction := (d.launchGate.map (·.action)).getD .allowed

def gateReason (d : RouteDecision ν) (otherwise : String) : Text := Text.of ((d.launchGate.map (·.reason)).getD otherwise)

def assertLaunchDecision (d : RouteDecision ν) : Except (GateError ν) Unit :=
  match gateAction d with
  | .allowed => .ok ()
  | .manualConfirmationRequired => .error (.failure (createRuntimeFailure .policy .approvalRequired
      (gateReason d "manual confirmation is required") false .turn))
  | .waitForReset => .error (.failure (createRuntimeFailure .provider .rateLimit
      (gateReason d "cooldown blocks launch") false
      (if d.cooldownState.any (·.providerFamilyBlocked) then .providerFamily else .identityProfile)))
  | .blocked => .error (.failure (createRuntimeFailure .policy .stateConflict
      (gateReason d "launch gate blocked execution") false .turn))

/-- The fields of a request that the gate reads; the others are of any type. -/
structure CreateSessionRequest (ρ : Type) where
  targetHarness : HarnessId
  targetProvider : Option ProviderFamilyId
  identityProfileId : Option String
  rest : ρ
  deriving DecidableEq, Repr

structure SendTurnRequest (ρ : Type) where
  sessionId : String
  rest : ρ
  deriving DecidableEq, Repr

/-- What the provider says of a session, as far as the gate asks; the labels are any texts. -/
structure AgentSessionInfo where
  id : String
  targetHarness : String
  targetProvider : Option String
  identityProfileId : Option String
  deriving DecidableEq, Repr

def silentDowngrade (what : String) : GateError ν :=
  .failure (createRuntimeFailure .policy .stateConflict
    (Text.of ("Launch gate blocked a silent " ++ what ++ " downgrade before provider launch.")) false .turn)

def assertCreateSessionLabels {ρ : Type} (d : RouteDecision ν) (request : CreateSessionRequest ρ) :
    Except (GateError ν) Unit :=
  if d.selectedHarness ≠ request.targetHarness.name then .error (silentDowngrade "harness")
  else if request.targetProvider.any fun provider => d.selectedProvider ≠ provider.name then
    .error (silentDowngrade "provider")
  else if request.identityProfileId.any fun id => d.selectedIdentityProfileId ≠ some id then
    .error (silentDowngrade "identity")
  else .ok ()

def harnessIds : List HarnessId := [.claudeCode,.codex,.geminiAntigravity,.opencode,.pi,.custom]

def providerFamilyIds : List ProviderFamilyId := [.anthropic,.openai,.google,.zai,.minimax,.local,.custom]

/-- The established session is of the route's target. -/
def sessionMatches {ρ : Type} (d : RouteDecision ν) (request : SendTurnRequest ρ) (session : AgentSessionInfo) : Bool :=
  session.id == request.sessionId && (harnessIds.map (·.name)).contains session.targetHarness &&
    session.targetProvider.any (fun provider => (providerFamilyIds.map (·.name)).contains provider) &&
      session.targetHarness == d.selectedHarness && session.targetProvider == some d.selectedProvider &&
        session.identityProfileId == d.selectedIdentityProfileId

def assertSession {ρ : Type} (d : RouteDecision ν) (request : SendTurnRequest ρ) (session : AgentSessionInfo) :
    Except (GateError ν) Unit :=
  if sessionMatches d request session then .ok ()
  else .error (.failure (createRuntimeFailure .policy .stateConflict
    (Text.of "Established session does not match the route target") false .turn))

variable (checks : MetadataChecks ν)

/-- One of `sanitizeEvidenceRefs`. An excerpt has the bound of a label here. -/
def sanitizeEvidenceRef (ref : RuntimeEvidenceRef) : Except String RuntimeEvidenceRef := do
  let label ← checks.sanitizeText ref.label "route decision evidence label" defaultMetadataTextMaxBytes
  let path ← ref.path.mapM checks.sanitizePath
  let excerpt ← ref.excerpt.mapM fun excerpt =>
    checks.sanitizeText excerpt "route decision evidence excerpt" defaultMetadataTextMaxBytes
  return ⟨ref.kind,label,path,excerpt⟩

def sanitizeEvidenceRefs (evidenceRefs : Option (List RuntimeEvidenceRef)) :
    Except String (Option (List RuntimeEvidenceRef)) :=
  evidenceRefs.mapM fun refs : List RuntimeEvidenceRef => refs.mapM (sanitizeEvidenceRef checks)

variable [JsNumber ν] [RouteNumber ν]

/-- `launchGate` of the decision that `persistRouteDecision` writes. -/
def persistedGate (gate : Option RouteDecisionLaunchGate) : RouteDecisionLaunchGate where
  action := (gate.map (·.action)).getD .allowed
  reason := (gate.map (·.reason)).getD "route decision is persisted before launch"
  routeDecisionPersisted := true
  labelsMatch := (gate.map (·.labelsMatch)).getD true
  manualConfirmationProvided := (gate.map (·.manualConfirmationProvided)).getD false

/-- What `persistRouteDecision` writes. -/
def persistedDecision (d : RouteDecision ν) : Except (GateError ν) (RouteDecision ν) := do
  let evidenceRefs ← (sanitizeEvidenceRefs checks d.evidenceRefs).mapError .metadata
  RouteDecision.parse checks { d with evidenceRefs, launchGate := some (persistedGate d.launchGate) }

/-- `createSessionRequestSchema` and `sendTurnRequestSchema`; `restAllowed` is their check of the other fields. -/
def parseCreate {ρ : Type} (restAllowed : ρ → Bool) (request : CreateSessionRequest ρ) :
    Except (GateError ν) (CreateSessionRequest ρ) :=
  if named request.identityProfileId && restAllowed request.rest then .ok request else .error .schema

def parseSend {ρ : Type} (restAllowed : ρ → Bool) (request : SendTurnRequest ρ) : Except (GateError ν) (SendTurnRequest ρ) :=
  if request.sessionId != "" && restAllowed request.rest then .ok request else .error .schema

variable {ρ : Type} (restAllowed : ρ → Bool)

/-- `createSessionWithRouteDecision` up to the writing of the decision. -/
def prepareCreate (request : CreateSessionRequest ρ) (decision : RouteDecision ν) :
    Except (GateError ν) (CreateSessionRequest ρ × RouteDecision ν) := do
  let request ← parseCreate restAllowed request
  let decision ← decision.parse checks
  assertCreateSessionLabels decision request
  assertLaunchDecision decision
  let persisted ← persistedDecision checks decision
  return (request,persisted)

/-- `sendTurnWithRouteDecision` up to its question to the provider. -/
def prepareSend (request : SendTurnRequest ρ) (decision : RouteDecision ν) :
    Except (GateError ν) (SendTurnRequest ρ × RouteDecision ν) := do
  let request ← parseSend restAllowed request
  let decision ← decision.parse checks
  assertLaunchDecision decision
  return (request,decision)

/-- From the provider's answer to the writing of the decision. -/
def prepareTurn (request : SendTurnRequest ρ) (decision : RouteDecision ν) (session : AgentSessionInfo) :
    Except (GateError ν) (RouteDecision ν) := do
  assertSession decision request session
  persistedDecision checks decision

end Gate
end LaunchGate
end OmniagentPlus.Coordinator
