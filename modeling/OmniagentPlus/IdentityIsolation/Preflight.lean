import OmniagentPlus.IdentityIsolation.ProfileEnvironment
import OmniagentPlus.CoreContracts.RuntimeEvents
import OmniagentPlus.Coordinator.FailurePolicy

/-! `preflight.ts`: whether an identity can be used, and what a route may still be launched on after it. -/
namespace OmniagentPlus.IdentityIsolation
open OmniagentPlus.Foundation OmniagentPlus.CoreContracts OmniagentPlus.Coordinator

inductive IdentityProfileReadiness
  | ready
  | cooldown
  | degraded
  | blocked
  | needsAuth
  deriving DecidableEq, Repr

/-- `hostEnv` reads a variable; without one there is none. -/
structure PreflightIdentityProfileOptions where
  hostEnv : Text → Option Text
  activeSessions : Option ℤ
  activeTurns : Option ℤ
  authAvailable : Option Bool
  blockedReason : Option String

/-- What `createIdentityFailure` is given. -/
structure IdentityFailure where
  code : String
  message : String
  category : RuntimeFailureCategory
  actor : RuntimeFailureActor
  scope : RuntimeFailureScope
  retryable : Bool
  resetAt : Option Instant
  diagnostics : Dictionary String MetadataOnlyValue

structure IdentityProfileDiagnostics where
  code : String
  metadata : Dictionary String MetadataOnlyValue

structure IdentityProfilePreflightResult where
  profile : IdentityProfile
  environment : ResolvedProfileEnvironment
  readiness : IdentityProfileReadiness
  allowed : Bool
  diagnostics : IdentityProfileDiagnostics
  failure : Option IdentityFailure
  status : IdentityProfileStatus

def mapReadinessToLedgerStatus : IdentityProfileReadiness → ProfileStatus
  | .ready => .ready
  | .cooldown => .cooldown
  | .degraded => .degraded
  | .blocked => .blocked
  | .needsAuth => .blocked

def createIdentityProfileStatus (profile : IdentityProfile) (readiness : IdentityProfileReadiness)
    (activeSessions activeTurns : ℤ) (reason : Option String) (cooldown : Option CooldownState) : IdentityProfileStatus :=
  ⟨profile.id,mapReadinessToLedgerStatus readiness,activeSessions,activeTurns,reason,cooldown⟩

def createIdentityFailure (code message : String) (category : RuntimeFailureCategory) (actor : RuntimeFailureActor)
    (scope : RuntimeFailureScope) (retryable : Bool) : IdentityFailure :=
  ⟨code,message,category,actor,scope,retryable,none,.empty⟩

def buildResult (profile : IdentityProfile) (environment : ResolvedProfileEnvironment) (activeSessions activeTurns : ℤ)
    (readiness : IdentityProfileReadiness) (code : String) (reason : Option String) (failure : Option IdentityFailure)
    (extraDiagnostics : List (String × MetadataOnlyValue)) (cooldown : Option CooldownState) :
    IdentityProfilePreflightResult where
  profile := profile
  environment := environment
  readiness := readiness
  allowed := readiness == .ready
  diagnostics := ⟨code,recordOf ([("profileId",.text profile.id),("profileKind",.text environment.kind.name),
    ("isolation",.text profile.isolation.name),("envAllowlistCount",.count environment.envAllowlist.length),
    ("launchEnvKeys",.texts environment.launchEnvKeys),("secretRefCount",.count environment.secretRefs.length),
    ("authVolumeRefPresent",.flag environment.authVolumeRef.isSome),("activeSessions",.count activeSessions),
    ("activeTurns",.count activeTurns)] ++ extraDiagnostics)⟩
  failure := failure
  status := createIdentityProfileStatus profile readiness activeSessions activeTurns reason cooldown

/-- The cooldown that counts, the identity's own first. -/
def activeCooldown (profile : IdentityProfile) : Option CooldownState :=
  (profile.identityCooldown.filter (·.active)).or (profile.providerFamilyCooldown.filter (·.active))

/-- Whose cooldown it is. -/
def cooldownScope (profile : IdentityProfile) : RuntimeFailureScope :=
  if profile.identityCooldown.any (·.active) then .identityProfile else .providerFamily

def preflightIdentityProfile (profile : IdentityProfile) (options : PreflightIdentityProfileOptions) :
    IdentityProfilePreflightResult :=
  let activeSessions := options.activeSessions.getD 0
  let activeTurns := options.activeTurns.getD 0
  let blockedReason := options.blockedReason.getD ""
  let result := buildResult profile (describeProfileEnvironment profile options.hostEnv) activeSessions activeTurns
  match buildProfileEnvironment profile options.hostEnv with
  | .error e => result .blocked e.code (some e.code)
      (some { createIdentityFailure e.code e.message .policyDenied .policy .identityProfile false with
        diagnostics := e.diagnostics }) e.diagnostics.entries none
  | .ok _ =>
    if blockedReason ≠ "" then result .blocked "manual_block" options.blockedReason
      (some (createIdentityFailure "manual_block" blockedReason .policyDenied .policy .identityProfile false)) [] none
    else match activeCooldown profile with
    | some cooldown => result .cooldown "cooldown_active" (some cooldown.reason)
        (some { createIdentityFailure "cooldown_active" cooldown.reason .rateLimit .provider (cooldownScope profile) true with
          resetAt := cooldown.resetAt }) [("resetAt",.time cooldown.resetAt)] (some cooldown)
    | none =>
      if profile.authMode ≠ .noAuth ∧ options.authAvailable = some false then
        result .needsAuth "needs_auth" (some "needs_auth") (some (createIdentityFailure "needs_auth"
          "Identity profile requires an authenticated secret ref before use." .auth .provider .identityProfile false)) []
          none
      else if profile.maxOpenSessions < activeSessions ∨ profile.maxActiveTurns < activeTurns then
        result .degraded "concurrency_bounds_exceeded" (some "concurrency_bounds_exceeded")
          (some (createIdentityFailure "concurrency_bounds_exceeded"
            "Identity profile exceeded its bounded session or turn limits." .concurrencyLimit .policy .identityProfile
            true)) [] none
      else result .ready "ready" none none [] none

/-- An authentication that is needed was not found missing. -/
def Authenticated (profile : IdentityProfile) (options : PreflightIdentityProfileOptions) : Prop :=
  profile.authMode = .noAuth ∨ options.authAvailable ≠ some false

/-- What a preflight finds, with what it has checked by then. -/
inductive Finds (profile : IdentityProfile) (options : PreflightIdentityProfileOptions) :
    IdentityProfilePreflightResult → Prop
  | blocked {result} (status : result.status.status = .blocked) (readiness : result.readiness = .blocked) :
      Finds profile options result
  | needsAuth {result} (status : result.status.status = .blocked) (readiness : result.readiness = .needsAuth) :
      Finds profile options result
  | cooldown {result} (k : CooldownState) (active : activeCooldown profile = some k) (host : HostEnvAllowed profile)
      (free : options.blockedReason.getD "" = "") (status : result.status.cooldown = some k)
      (readiness : result.readiness = .cooldown) : Finds profile options result
  | degraded {result} (exceeded : profile.maxOpenSessions < options.activeSessions.getD 0 ∨
      profile.maxActiveTurns < options.activeTurns.getD 0) (host : HostEnvAllowed profile)
      (free : options.blockedReason.getD "" = "") (authenticated : Authenticated profile options)
      (readiness : result.readiness = .degraded) : Finds profile options result
  | ready {result} (host : HostEnvAllowed profile) (free : options.blockedReason.getD "" = "")
      (authenticated : Authenticated profile options) (readiness : result.readiness = .ready) : Finds profile options result

section Preflight
variable (profile : IdentityProfile) (options : PreflightIdentityProfileOptions)

/-- Every answer of a preflight is one of the five, and is told with the environment and the counts it was given. -/
lemma preflightIdentityProfile_finds : Finds profile options (preflightIdentityProfile profile options) ∧
    (preflightIdentityProfile profile options).environment = describeProfileEnvironment profile options.hostEnv ∧
    (preflightIdentityProfile profile options).status.activeSessions = options.activeSessions.getD 0 ∧
    (preflightIdentityProfile profile options).status.activeTurns = options.activeTurns.getD 0 := by
  unfold preflightIdentityProfile
  dsimp only
  cases hbuild : buildProfileEnvironment profile options.hostEnv with
  | error e => exact ⟨.blocked rfl rfl,rfl,rfl,rfl⟩
  | ok environment =>
    have hhost := (buildProfileEnvironment_eq_ok.mp hbuild).2
    dsimp only
    by_cases hfree : options.blockedReason.getD "" = ""
    · rw [if_neg (not_not.mpr hfree)]
      cases hcooldown : activeCooldown profile with
      | some k => exact ⟨.cooldown k hcooldown hhost hfree rfl rfl,rfl,rfl,rfl⟩
      | none =>
        dsimp only
        split_ifs with hauth hexceeded
        · exact ⟨.needsAuth rfl rfl,rfl,rfl,rfl⟩
        · exact ⟨.degraded hexceeded hhost hfree ((not_and_or.mp hauth).imp_left not_not.mp) rfl,rfl,rfl,rfl⟩
        · exact ⟨.ready hhost hfree ((not_and_or.mp hauth).imp_left not_not.mp) rfl,rfl,rfl,rfl⟩
    · rw [if_pos hfree]
      exact ⟨.blocked rfl rfl,rfl,rfl,rfl⟩

end Preflight
section Routes
variable {ν ε : Type} [RouteNumber ν] {profile : IdentityProfile} {options : PreflightIdentityProfileOptions}
  {input : BuildIdentityPoolInput ν} {plan : RoutePlannerInput ν ε} {planned : PlannedRoute ν ε}
  {localeCompare : String → String → Ordering}

/-- What a preflight may have found of a profile that a route goes to later. -/
def Admits (profile : IdentityProfile) (options : PreflightIdentityProfileOptions) (input : BuildIdentityPoolInput ν)
    (now : ℤ) : IdentityProfileReadiness → Prop
  | .ready => Authenticated profile options
  | .cooldown => ∃ k, activeCooldown profile = some k ∧ ¬InForce now k
  | .degraded => Authenticated profile options ∧
      ∃ n, input.activeTurns.get? profile.id = some n ∧ n < profile.maxActiveTurns
  | .blocked => False
  | .needsAuth => False

/-- A route is launched on a profile only if its preflight found it ready, or under a cooldown that has passed since, or
over a count of turns that has been corrected; with an environment that may be built (the host's own only for
development) and within the sessions and turns that the profile allows. -/
theorem preflight_heeded
    (hstatus : input.statusOf profile.toIdentityProfile = some (preflightIdentityProfile profile options).status)
    (hpool : buildIdentityPool localeCompare input = .ok plan.identityPool) (hplan : planRoute plan = .ok planned)
    (hallowed : planned.decision.launchGate.action = .allowed)
    (hprofile : planned.candidate.profile = profile.toIdentityProfile) :
    buildProfileEnvironment profile options.hostEnv = .ok (preflightIdentityProfile profile options).environment ∧
    HostEnvAllowed profile ∧ options.blockedReason.getD "" = "" ∧
    options.activeSessions.getD 0 < profile.maxOpenSessions ∧
    (input.activeTurns.get? profile.id).getD (options.activeTurns.getD 0) < profile.maxActiveTurns ∧
    Admits profile options input plan.identityPool.evaluatedAt (preflightIdentityProfile profile options).readiness := by
  obtain ⟨hmem,havailable⟩ := planRoute_candidate hplan
  obtain ⟨hdescribes,hlaunchable⟩ := (buildIdentityPool_spec hpool).1 _ hmem
  have hlaunchable := hlaunchable (havailable hallowed)
  obtain ⟨hfinds,henvironment,hsessions,hturns⟩ := preflightIdentityProfile_finds profile options
  have hfound : planned.candidate.status = some (preflightIdentityProfile profile options).status := by
    rw [hdescribes.status, hprofile, hstatus]
  generalize preflightIdentityProfile profile options = result at *
  have hopen : options.activeSessions.getD 0 < profile.maxOpenSessions := by
    have hroom := hlaunchable.sessions
    rw [hdescribes.activeSessions, hfound, hprofile, Option.map_some, Option.getD_some, hsessions] at hroom
    exact hroom
  have hactive : (input.activeTurns.get? profile.id).getD (options.activeTurns.getD 0) < profile.maxActiveTurns := by
    have hroom := hlaunchable.slots.2
    rw [hdescribes.activeTurns, hfound, hprofile, Option.map_some, Option.getD_some, hturns] at hroom
    exact hroom
  have hbuild (host : HostEnvAllowed profile) : buildProfileEnvironment profile options.hostEnv = .ok result.environment :=
    buildProfileEnvironment_eq_ok.mpr ⟨henvironment,host⟩
  cases hfinds with
  | blocked status => exact absurd status (hlaunchable.unblocked _ hfound)
  | needsAuth status => exact absurd status (hlaunchable.unblocked _ hfound)
  | cooldown k active host free status readiness =>
    rw [readiness]
    refine ⟨hbuild host,host,free,hopen,hactive,k,active,fun hforce => hlaunchable.cool k ?_ hforce⟩
    simp [IdentityPoolMember.cooldowns, hfound, status]
  | degraded exceeded host free authenticated readiness =>
    rw [readiness]
    refine ⟨hbuild host,host,free,hopen,hactive,authenticated,?_⟩
    cases hcount : input.activeTurns.get? profile.id with
    | none =>
      rw [hcount, Option.getD_none] at hactive
      omega
    | some n =>
      rw [hcount, Option.getD_some] at hactive
      exact ⟨n,rfl,hactive⟩
  | ready host free authenticated readiness =>
    rw [readiness]
    exact ⟨hbuild host,host,free,hopen,hactive,authenticated⟩

end Routes
section Sample

/-- The identity that work moves to, with a home of its own. -/
def sampleIdentity : IdentityProfile where
  id := "other"
  provider := .google
  harness := .geminiAntigravity
  maxOpenSessions := 2
  maxActiveTurns := 3
  providerFamilyCooldown := none
  identityCooldown := none
  authMode := .oauth
  isolation := .isolatedHome
  secretRefs := []
  envAllowlist := [Text.of "LANG"]
  authVolumeRef := some "auth"
  homeDir := some "home"
  processOwner := none
  networkPolicy := none
  toolPolicyRef := none
  tags := []

def samplePreflight : PreflightIdentityProfileOptions := ⟨fun _ => none,some 1,some 1,some true,none⟩

def preflightedPool : BuildIdentityPoolInput ℕ :=
  { cappedPool with statuses := [(preflightIdentityProfile sampleIdentity samplePreflight).status] }

def preflightedSnapshot : IdentityPoolSnapshot ℕ := ((buildIdentityPool compare preflightedPool).toOption).getD ⟨0,[]⟩

theorem preflight_heeded_other : ∃ planned, planRoute (movingRoute preflightedSnapshot) = .ok planned ∧
    planned.candidate.profile.id = "other" ∧ planned.decision.launchGate.action = .allowed ∧
      Admits sampleIdentity samplePreflight preflightedPool preflightedSnapshot.evaluatedAt
        (preflightIdentityProfile sampleIdentity samplePreflight).readiness := by
  have hpool : buildIdentityPool compare preflightedPool = .ok (movingRoute preflightedSnapshot).identityPool := rfl
  have hplanned : ((planRoute (movingRoute preflightedSnapshot)).toOption.map fun planned =>
      (planned.candidate.profile,planned.decision.launchGate.action)) =
        some (sampleIdentity.toIdentityProfile,.allowed) := by
    decide +kernel
  cases hplan : planRoute (movingRoute preflightedSnapshot) with
  | error e =>
    rw [hplan] at hplanned
    cases hplanned
  | ok planned =>
    rw [hplan] at hplanned
    obtain ⟨hother,hallowed⟩ := Prod.mk.inj (Option.some.inj hplanned)
    exact ⟨planned,rfl,congrArg (·.id) hother,hallowed,(preflight_heeded rfl hpool hplan hallowed hother).2.2.2.2.2⟩

end Sample
end OmniagentPlus.IdentityIsolation
