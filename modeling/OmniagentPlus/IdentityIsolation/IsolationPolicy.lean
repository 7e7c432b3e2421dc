import OmniagentPlus.Foundation.Traversal
import OmniagentPlus.IdentityIsolation.ProfileEnvironment

/-! `process-profile.ts` and `omnigent-isolation-policy.ts`: a process for each profile, with what is the profile's own;
and when the profiles may share a server. -/
namespace OmniagentPlus.IdentityIsolation
open OmniagentPlus.Foundation OmniagentPlus.CoreContracts

inductive OmnigentProviderMode
  | http
  | cli
  | hybrid
  deriving DecidableEq, Repr

inductive IsolationEvidence
  | perProfileProcess
  | sharedHttpSessionIsolation
  deriving DecidableEq, Repr

structure OmnigentProcessProfile where
  profileId : String
  provider : ProviderFamilyId
  harness : HarnessId
  providerMode : OmnigentProviderMode
  homeDirRef : Option String
  authVolumeRef : Option String
  processOwner : Option String
  networkPolicy : Option NetworkPolicy
  toolPolicyRef : Option String
  launchEnvKeys : List Text
  secretRefKeys : List String
  isolationEvidence : IsolationEvidence
  deriving DecidableEq, Repr

inductive EvidenceSource
  | contractFreeze
  | operatorAttestation
  | testFixture
  deriving DecidableEq, Repr

structure SharedHttpIsolationEvidence where
  perSessionHome : Bool
  perSessionEnv : Bool
  perSessionCredentials : Bool
  perSessionAuthVolume : Bool
  source : EvidenceSource
  deriving DecidableEq, Repr

inductive LaunchStrategy
  | sharedHttpAllowed
  | perProfileProcess
  | blockedSharedHttp
  deriving DecidableEq, Repr

structure OmnigentIsolationDecision where
  providerMode : OmnigentProviderMode
  launchStrategy : LaunchStrategy
  sharedModeAllowed : Bool
  allowed : Bool
  reason : String
  processProfiles : List OmnigentProcessProfile
  evidence : Option SharedHttpIsolationEvidence
  deriving DecidableEq, Repr

structure EvaluateOmnigentIsolationPolicyOptions where
  providerMode : OmnigentProviderMode
  profiles : List IdentityProfile
  environments : List ResolvedProfileEnvironment
  sharedServerRequested : Option Bool
  sharedHttpIsolationEvidence : Option SharedHttpIsolationEvidence

def buildOmnigentProcessProfile (profile : IdentityProfile) (environment : ResolvedProfileEnvironment)
    (providerMode : OmnigentProviderMode) (isolationEvidence : IsolationEvidence) :
    Except IdentityIsolationError OmnigentProcessProfile :=
  if environment.profileId ≠ profile.id then
    .error ⟨"profile_environment_mismatch","Profile environment metadata must match the target identity profile.",
      recordOf [("expectedProfileId",.text profile.id),("receivedProfileId",.text environment.profileId)]⟩
  else .ok
    { profileId := profile.id
      provider := profile.provider
      harness := profile.harness
      providerMode
      homeDirRef := environment.homeDirRef
      authVolumeRef := environment.authVolumeRef
      processOwner := environment.processOwner
      networkPolicy := environment.networkPolicy
      toolPolicyRef := environment.toolPolicyRef
      launchEnvKeys := environment.launchEnvKeys
      secretRefKeys := environment.secretRefs.map (·.key)
      isolationEvidence }

/-- One round of `profiles.map` in `buildOmnigentProcessProfiles`. -/
def processProfileOf (environments : List ResolvedProfileEnvironment) (providerMode : OmnigentProviderMode)
    (isolationEvidence : IsolationEvidence) (profile : IdentityProfile) : Except IdentityIsolationError OmnigentProcessProfile :=
  match (Dictionary.indexBy (·.profileId) environments).get? profile.id with
  | none => .error ⟨"missing_profile_environment","Every active identity profile requires a matching environment plan.",
      recordOf [("profileId",.text profile.id)]⟩
  | some environment => buildOmnigentProcessProfile profile environment providerMode isolationEvidence

def buildOmnigentProcessProfiles (profiles : List IdentityProfile) (environments : List ResolvedProfileEnvironment)
    (providerMode : OmnigentProviderMode) (isolationEvidence : IsolationEvidence) :
    Except IdentityIsolationError (List OmnigentProcessProfile) :=
  profiles.mapM (processProfileOf environments providerMode isolationEvidence)

def hasSharedIsolationEvidence (evidence : Option SharedHttpIsolationEvidence) : Bool :=
  evidence.any fun e => e.perSessionHome && e.perSessionEnv && e.perSessionCredentials && e.perSessionAuthVolume

/-- A server that the profiles are to share. -/
def EvaluateOmnigentIsolationPolicyOptions.shares (options : EvaluateOmnigentIsolationPolicyOptions) : Bool :=
  options.providerMode == .http && options.sharedServerRequested.getD (options.providerMode == .http)

def evaluateOmnigentIsolationPolicy (options : EvaluateOmnigentIsolationPolicyOptions) :
    Except IdentityIsolationError OmnigentIsolationDecision := do
  let processes := buildOmnigentProcessProfiles options.profiles options.environments options.providerMode
  if options.shares then
    if !hasSharedIsolationEvidence options.sharedHttpIsolationEvidence then
      return {
        providerMode := options.providerMode
        launchStrategy := .blockedSharedHttp
        sharedModeAllowed := false
        allowed := false
        reason := "Shared HTTP/server mode requires explicit per-session HOME, env, credential, and auth-volume isolation evidence."
        processProfiles := ← processes .perProfileProcess
        evidence := none }
    return {
      providerMode := options.providerMode
      launchStrategy := .sharedHttpAllowed
      sharedModeAllowed := true
      allowed := true
      reason := "Shared HTTP/server mode is allowed because explicit per-session HOME, env, credential, and auth-volume isolation evidence is present."
      processProfiles := ← processes .sharedHttpSessionIsolation
      evidence := options.sharedHttpIsolationEvidence }
  return {
    providerMode := options.providerMode
    launchStrategy := .perProfileProcess
    sharedModeAllowed := false
    allowed := true
    reason := if options.providerMode = .http then
      "Shared HTTP isolation is not proven, so HTTP-backed identities must run with one process profile per active identity."
      else "CLI and hybrid modes require one process profile per active identity."
    processProfiles := ← processes .perProfileProcess
    evidence := none }

/-- An environment that was built for one of the profiles, on some host. -/
def BuiltFor (profiles : List IdentityProfile) (environment : ResolvedProfileEnvironment) : Prop :=
  ∃ profile ∈ profiles, ∃ hostEnv, buildProfileEnvironment profile hostEnv = .ok environment

/-- A process of a profile, with nothing that a profile of this id does not name. -/
structure ProcessOf (profiles : List IdentityProfile) (profile : IdentityProfile) (process : OmnigentProcessProfile) :
    Prop where
  profileId : process.profileId = profile.id
  provider : process.provider = profile.provider
  harness : process.harness = profile.harness
  own : ∃ named ∈ profiles, named.id = profile.id ∧ HostEnvAllowed named ∧ process.homeDirRef = named.homeDir ∧
    process.authVolumeRef = named.authVolumeRef ∧ process.processOwner = named.processOwner ∧
    process.networkPolicy = named.networkPolicy ∧ process.toolPolicyRef = named.toolPolicyRef ∧
    process.secretRefKeys = named.secretRefs.map (·.key) ∧
    ∀ key ∈ process.launchEnvKeys, ∃ listed ∈ named.envAllowlist, listed.trim = key

section Processes
variable {profiles : List IdentityProfile} {environments : List ResolvedProfileEnvironment}
  {providerMode : OmnigentProviderMode} {isolationEvidence : IsolationEvidence}

lemma listed_of_launchEnvKeys {profile : IdentityProfile} {hostEnv : Text → Option Text} {key : Text}
    (h : key ∈ (describeProfileEnvironment profile hostEnv).launchEnvKeys) :
    ∃ listed ∈ profile.envAllowlist, listed.trim = key := by
  have hkey := (Dictionary.mem_keys_iff _ _).mp (Text.mem_sort.mp h)
  rw [get?_launchEnv] at hkey
  by_cases hmem : key ∈ normalizeAllowlist profile
  · exact (mem_normalizeAllowlist.mp hmem).2
  · rw [if_neg hmem] at hkey
    cases hkey

lemma processProfileOf_spec {profile : IdentityProfile} {process : OmnigentProcessProfile}
    (hbuilt : ∀ environment ∈ environments, BuiltFor profiles environment)
    (h : processProfileOf environments providerMode isolationEvidence profile = .ok process) :
    ProcessOf profiles profile process ∧ process.isolationEvidence = isolationEvidence := by
  unfold processProfileOf at h
  split at h
  · cases h
  · next environment hget =>
    obtain ⟨hmem,-⟩ := Dictionary.mem_of_get?_indexBy hget
    obtain ⟨named,hnamed,hostEnv,hbuild⟩ := hbuilt environment hmem
    obtain ⟨rfl,hallowed⟩ := buildProfileEnvironment_eq_ok.mp hbuild
    unfold buildOmnigentProcessProfile at h
    split_ifs at h with hid
    cases h
    exact ⟨⟨rfl,rfl,rfl,named,hnamed,not_not.mp hid,hallowed,rfl,rfl,rfl,rfl,rfl,rfl,
      fun key hkey => listed_of_launchEnvKeys hkey⟩,rfl⟩

lemma buildOmnigentProcessProfiles_spec {processes : List OmnigentProcessProfile}
    (hbuilt : ∀ environment ∈ environments, BuiltFor profiles environment)
    (h : buildOmnigentProcessProfiles profiles environments providerMode isolationEvidence = .ok processes) :
    List.Forall₂ (fun profile process => ProcessOf profiles profile process ∧ process.isolationEvidence = isolationEvidence)
      profiles processes :=
  (mapM_eq_ok.mp h).imp fun _ _ hprocess => processProfileOf_spec hbuilt hprocess

end Processes
section Policy
variable {options : EvaluateOmnigentIsolationPolicyOptions} {decision : OmnigentIsolationDecision}

/-- The evidence that sessions of one server are apart in all four respects. -/
def Isolates (evidence : SharedHttpIsolationEvidence) : Prop :=
  evidence.perSessionHome = true ∧ evidence.perSessionEnv = true ∧ evidence.perSessionCredentials = true ∧
    evidence.perSessionAuthVolume = true

lemma hasSharedIsolationEvidence_iff {evidence : Option SharedHttpIsolationEvidence} :
    hasSharedIsolationEvidence evidence = true ↔ ∃ e, evidence = some e ∧ Isolates e := by
  cases evidence with
  | none => simp [hasSharedIsolationEvidence]
  | some e => simp [hasSharedIsolationEvidence, Isolates, and_assoc]

/-- Every profile has one process of its own, in order, which is given only what the profile names; profiles share a
server just where they are to and their sessions are shown to be apart, and only a shared one is ever refused. -/
theorem processes_isolated (hbuilt : ∀ environment ∈ options.environments, BuiltFor options.profiles environment)
    (h : evaluateOmnigentIsolationPolicy options = .ok decision) :
    List.Forall₂ (ProcessOf options.profiles) options.profiles decision.processProfiles ∧
    (decision.sharedModeAllowed = true ↔
      options.shares = true ∧ ∃ e, options.sharedHttpIsolationEvidence = some e ∧ Isolates e) ∧
    (decision.allowed = false ↔
      options.shares = true ∧ ¬∃ e, options.sharedHttpIsolationEvidence = some e ∧ Isolates e) ∧
    ∀ process ∈ decision.processProfiles,
      process.isolationEvidence = .sharedHttpSessionIsolation ↔ decision.sharedModeAllowed = true := by
  have hall : ∀ {evidence : IsolationEvidence} {processes : List OmnigentProcessProfile},
      buildOmnigentProcessProfiles options.profiles options.environments options.providerMode evidence = .ok processes →
      List.Forall₂ (ProcessOf options.profiles) options.profiles processes ∧
        ∀ process ∈ processes, process.isolationEvidence = evidence := by
    intro evidence processes hprocesses
    have hspec := buildOmnigentProcessProfiles_spec hbuilt hprocesses
    refine ⟨hspec.imp fun _ _ hprocess => hprocess.1,fun process hmem => ?_⟩
    obtain ⟨i,hi,rfl⟩ := List.getElem_of_mem hmem
    exact (hspec.get (by rw [hspec.length_eq]; exact hi) hi).2
  rw [← hasSharedIsolationEvidence_iff]
  unfold evaluateOmnigentIsolationPolicy at h
  dsimp only at h
  by_cases hshares : options.shares = true
  · rw [if_pos hshares] at h
    by_cases hevidence : hasSharedIsolationEvidence options.sharedHttpIsolationEvidence = true
    · rw [hevidence, if_neg (by decide)] at h
      obtain ⟨processes,hprocesses,h⟩ := except_bind_eq_ok.mp h
      cases h
      obtain ⟨hown,hmarked⟩ := hall hprocesses
      exact ⟨hown,by simp [hshares, hevidence],by simp [hevidence],fun process hmem => by simp [hmarked process hmem]⟩
    · rw [Bool.eq_false_iff.mpr hevidence, if_pos (by decide)] at h
      obtain ⟨processes,hprocesses,h⟩ := except_bind_eq_ok.mp h
      cases h
      obtain ⟨hown,hmarked⟩ := hall hprocesses
      exact ⟨hown,by simp [hevidence],by simp [hshares, hevidence],fun process hmem => by simp [hmarked process hmem]⟩
  · rw [if_neg hshares] at h
    obtain ⟨processes,hprocesses,h⟩ := except_bind_eq_ok.mp h
    cases h
    obtain ⟨hown,hmarked⟩ := hall hprocesses
    exact ⟨hown,by simp [hshares],by simp [hshares],fun process hmem => by simp [hmarked process hmem]⟩

end Policy
section Sample

/-- A development profile that works in the host's environment. -/
def developer : IdentityProfile where
  id := "developer"
  provider := .openai
  harness := .codex
  maxOpenSessions := 1
  maxActiveTurns := 1
  providerFamilyCooldown := none
  identityCooldown := none
  authMode := .localSubscription
  isolation := .hostEnv
  secretRefs := [⟨.env,"TOKEN",none⟩]
  envAllowlist := [Text.of "LANG"]
  authVolumeRef := none
  homeDir := some "home"
  processOwner := none
  networkPolicy := some .host
  toolPolicyRef := none
  tags := [Text.of "Development"]

/-- One for production, with a home, a user and secrets of its own. -/
def releaser : IdentityProfile := { developer with
  id := "releaser"
  isolation := .unixUser
  secretRefs := [⟨.onepassword,"RELEASE_KEY",none⟩]
  envAllowlist := [Text.of "PATH"]
  authVolumeRef := some "release-auth"
  homeDir := some "release-home"
  processOwner := some "release"
  networkPolicy := some .restricted
  tags := [] }

/-- The two on one server, their environments in the other order. -/
def sharedServer : EvaluateOmnigentIsolationPolicyOptions where
  providerMode := .http
  profiles := [developer,releaser]
  environments := [releaser,developer].map fun profile => describeProfileEnvironment profile some
  sharedServerRequested := none
  sharedHttpIsolationEvidence := some ⟨true,true,true,true,.operatorAttestation⟩

lemma developer_allowed : HostEnvAllowed developer := by
  refine fun _ => ⟨by decide,fun hempty => ?_⟩
  have hlisted : Text.of "LANG" ∈ normalizeAllowlist developer :=
    mem_normalizeAllowlist.mpr ⟨by decide,_,List.mem_singleton_self _,by decide⟩
  rw [hempty] at hlisted
  cases hlisted

theorem processes_isolated_shared : ∃ decision, evaluateOmnigentIsolationPolicy sharedServer = .ok decision ∧
    decision.sharedModeAllowed = true ∧
    List.Forall₂ (ProcessOf [developer,releaser]) [developer,releaser] decision.processProfiles ∧
    decision.processProfiles.map (fun process => (process.homeDirRef,process.secretRefKeys,process.launchEnvKeys)) =
      [(some "home",["TOKEN"],[Text.of "LANG"]),(some "release-home",["RELEASE_KEY"],[Text.of "PATH"])] := by
  have hbuilt : ∀ environment ∈ sharedServer.environments, BuiltFor sharedServer.profiles environment := by
    intro environment hmem
    obtain rfl | rfl := List.mem_pair.mp hmem
    · exact ⟨releaser,by decide,some,buildProfileEnvironment_eq_ok.mpr ⟨rfl,fun hhost => by cases hhost⟩⟩
    · exact ⟨developer,by decide,some,buildProfileEnvironment_eq_ok.mpr ⟨rfl,developer_allowed⟩⟩
  exact ⟨_,rfl,rfl,(processes_isolated hbuilt rfl).1,by decide +kernel⟩

end Sample
end OmniagentPlus.IdentityIsolation
