import OmniagentPlus.Foundation.Dictionary
import OmniagentPlus.Foundation.Text
import OmniagentPlus.Foundation.Transition
import OmniagentPlus.CoreContracts.IdentityProfile

/-! `environment.ts`, `process-profile.ts` and `omnigent-isolation-policy.ts`: what a process gets of the host's
environment, and when several profiles may share one. -/
namespace OmniagentPlus.IdentityIsolation
open OmniagentPlus.Foundation OmniagentPlus.CoreContracts

inductive AuthMode
  | localSubscription
  | apiKey
  | oauth
  | vertex
  | serviceAccount
  | noAuth
  deriving DecidableEq, Repr

inductive Isolation
  | hostEnv
  | isolatedHome
  | unixUser
  | container
  | vm
  deriving DecidableEq, Repr

def Isolation.name : Isolation → String
  | .hostEnv => "host_env"
  | .isolatedHome => "isolated_home"
  | .unixUser => "unix_user"
  | .container => "container"
  | .vm => "vm"

inductive SecretProvider
  | onepassword
  | env
  | file
  | custom
  deriving DecidableEq, Repr

structure SecretRef where
  provider : SecretProvider
  key : String
  field : Option String
  deriving DecidableEq, Repr

inductive NetworkPolicy
  | host
  | restricted
  | disabled
  deriving DecidableEq, Repr

/-- A profile with the fields that routing does not read; a list that is left out is an empty one. -/
structure IdentityProfile extends CoreContracts.IdentityProfile where
  authMode : AuthMode
  isolation : Isolation
  secretRefs : List SecretRef
  envAllowlist : List Text
  authVolumeRef : Option String
  homeDir : Option String
  processOwner : Option String
  networkPolicy : Option NetworkPolicy
  toolPolicyRef : Option String
  tags : List Text
  deriving DecidableEq, Repr

inductive IdentityProfileKind
  | development
  | shared
  | production
  deriving DecidableEq, Repr

def IdentityProfileKind.name : IdentityProfileKind → String
  | .development => "development"
  | .shared => "shared"
  | .production => "production"

/-- `toLowerCase`, as far as it can yield the letters of a kind's name. -/
def lowerCase (tag : Text) : Text := tag.map fun u => if 65 ≤ u ∧ u ≤ 90 then u + 32 else u

def detectIdentityProfileKind (profile : IdentityProfile) : IdentityProfileKind :=
  let tags := profile.tags.map lowerCase
  if tags.contains (Text.of "development") then .development
  else if tags.contains (Text.of "shared") then .shared
  else .production

inductive MetadataOnlyValue
  | text (value : String)
  | count (value : ℤ)
  | flag (value : Bool)
  | texts (values : List Text)
  | time (value : Option Instant)

/-- An object with these fields; a later one replaces an earlier one of its name. -/
def recordOf (fields : List (String × MetadataOnlyValue)) : Dictionary String MetadataOnlyValue :=
  fields.foldl (fun object field => object.set field.1 field.2) .empty

structure IdentityIsolationError where
  code : String
  message : String
  diagnostics : Dictionary String MetadataOnlyValue

structure ResolvedProfileEnvironment where
  profileId : String
  kind : IdentityProfileKind
  isolation : Isolation
  launchEnv : Dictionary Text Text
  launchEnvKeys : List Text
  envAllowlist : List Text
  secretRefs : List SecretRef
  authVolumeRef : Option String
  homeDirRef : Option String
  processOwner : Option String
  networkPolicy : Option NetworkPolicy
  toolPolicyRef : Option String

def normalizeAllowlist (profile : IdentityProfile) : List Text :=
  Text.sort ((profile.envAllowlist.eraseDups.map Text.trim).filter fun key => !key.isEmpty)

/-- The entries of `hostEnv` under some keys. -/
def launchEnvOf (hostEnv : Text → Option Text) (keys : List Text) : Dictionary Text Text :=
  keys.foldl (fun env key => (hostEnv key).elim env (env.set key)) .empty

def describeProfileEnvironment (profile : IdentityProfile) (hostEnv : Text → Option Text) : ResolvedProfileEnvironment where
  profileId := profile.id
  kind := detectIdentityProfileKind profile
  isolation := profile.isolation
  launchEnv := launchEnvOf hostEnv (normalizeAllowlist profile)
  launchEnvKeys := Text.sort (launchEnvOf hostEnv (normalizeAllowlist profile)).keys
  envAllowlist := normalizeAllowlist profile
  secretRefs := profile.secretRefs
  authVolumeRef := profile.authVolumeRef
  homeDirRef := profile.homeDir
  processOwner := profile.processOwner
  networkPolicy := profile.networkPolicy
  toolPolicyRef := profile.toolPolicyRef

def buildProfileEnvironment (profile : IdentityProfile) (hostEnv : Text → Option Text) :
    Except IdentityIsolationError ResolvedProfileEnvironment :=
  let environment := describeProfileEnvironment profile hostEnv
  if profile.isolation = .hostEnv ∧ environment.kind ≠ .development then
    .error ⟨"host_env_requires_development_profile",
      "host_env profiles are development-only and cannot be used for shared or production identities.",
      recordOf [("profileId",.text profile.id),("profileKind",.text environment.kind.name)]⟩
  else if profile.isolation = .hostEnv ∧ environment.envAllowlist = [] then
    .error ⟨"host_env_requires_allowlist","host_env profiles require an explicit non-empty env allowlist.",
      recordOf [("profileId",.text profile.id)]⟩
  else .ok environment

section Environment
variable {profile : IdentityProfile} {hostEnv : Text → Option Text}

lemma mem_normalizeAllowlist {key : Text} :
    key ∈ normalizeAllowlist profile ↔ key ≠ [] ∧ ∃ listed ∈ profile.envAllowlist, listed.trim = key := by
  rw [normalizeAllowlist, Text.mem_sort, List.mem_filter, List.mem_map, and_comm, Bool.not_eq_true', List.isEmpty_eq_false_iff]
  simp only [List.mem_eraseDups]

lemma get?_foldl_launchEnv (env : Dictionary Text Text) (keys : List Text) (key : Text) :
    (keys.foldl (fun env key => (hostEnv key).elim env (env.set key)) env).get? key =
      if key ∈ keys ∧ (hostEnv key).isSome = true then hostEnv key else env.get? key := by
  induction keys generalizing env with
  | nil => simp
  | cons first keys ih =>
    rw [List.foldl_cons, ih]
    cases hfirst : hostEnv first with
    | none =>
      by_cases hkey : key = first
      · subst hkey
        simp [hfirst]
      · simp [hkey]
    | some value =>
      by_cases hkey : key = first
      · subst hkey
        simp [hfirst]
      · simp [hkey, Dictionary.get?_set_of_ne _ value hkey]

/-- A process gets a variable of the host just where it is listed. -/
theorem get?_launchEnv (keys : List Text) (key : Text) :
    (launchEnvOf hostEnv keys).get? key = if key ∈ keys then hostEnv key else none := by
  rw [launchEnvOf, get?_foldl_launchEnv, Dictionary.get?_empty]
  cases hkey : hostEnv key <;> simp

/-- What the host's own environment may be used for. -/
def HostEnvAllowed (profile : IdentityProfile) : Prop :=
  profile.isolation = .hostEnv → detectIdentityProfileKind profile = .development ∧ normalizeAllowlist profile ≠ []

theorem buildProfileEnvironment_eq_ok {environment : ResolvedProfileEnvironment} :
    buildProfileEnvironment profile hostEnv = .ok environment ↔
      environment = describeProfileEnvironment profile hostEnv ∧ HostEnvAllowed profile := by
  rw [buildProfileEnvironment, HostEnvAllowed]
  change (if profile.isolation = .hostEnv ∧ detectIdentityProfileKind profile ≠ .development then _
    else if profile.isolation = .hostEnv ∧ normalizeAllowlist profile = [] then _ else _) = _ ↔ _
  split_ifs with hkind hlist
  · simp only [false_iff]
    exact fun h => hkind.2 (h.2 hkind.1).1
  · simp only [false_iff]
    exact fun h => (h.2 hlist.1).2 hlist.2
  · rw [Except.ok.injEq, eq_comm]
    refine (and_iff_left fun hhost => ⟨?_,fun hempty => hlist ⟨hhost,hempty⟩⟩).symm
    by_contra hother
    exact hkind ⟨hhost,hother⟩

end Environment
end OmniagentPlus.IdentityIsolation
