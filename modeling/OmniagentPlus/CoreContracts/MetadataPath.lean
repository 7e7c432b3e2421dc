import OmniagentPlus.CoreContracts.Redaction
import OmniagentPlus.Foundation.PosixPath
import OmniagentPlus.Foundation.Transition
import OmniagentPlus.Foundation.Utf8

/-! `redaction.ts`: how texts and paths of metadata are sanitized. A sanitized path is accepted
again as it is where it still passes the checks that were made of the given one. -/
namespace OmniagentPlus.CoreContracts
open OmniagentPlus.Foundation

def defaultMetadataTextMaxBytes : ℕ := 280
def defaultUntrustedTextMaxBytes : ℕ := 2048

def MetadataLeakReason.name : MetadataLeakReason → String
  | .metadataDepthLimit => "metadata_depth_limit"
  | .nonJsonMetadata => "non_json_metadata"
  | .privateRecoveryPath => "private_recovery_path"
  | .environmentDump => "environment_dump"
  | .bearerToken => "bearer_token"
  | .apiKeyToken => "api_key_token"
  | .authAssignment => "auth_assignment"
  | .secretEnvAssignment => "secret_env_assignment"
  | .privateKey => "private_key"
  | .awsAccessKey => "aws_access_key"
  | .jwtToken => "jwt_token"
  | .authHeader => "auth_header"
  | .urlUserinfo => "url_userinfo"
  | .homePath => "home_path"
  | .providerPayload => "provider_payload"
  | .sensitiveField => "sensitive_field"
  | .sensitiveFieldName => "sensitive_field_name"

/-- `reason.replaceAll("_", " ")` -/
def MetadataLeakReason.words (reason : MetadataLeakReason) : String :=
  reason.name.map fun c => if c = '_' then ' ' else c

section SecretPaths
open Regex

/-- `(^|\/)` and `(\/|$)` -/
def segmentStart : Regex := alt start (literal "/")
def segmentEnd : Regex := alt (literal "/") finish

def envFilePattern : Regex := sequence [segmentStart,literalAnyCase ".env",alt (literal ".") finish]

def sshDirectoryPattern : Regex := sequence [segmentStart,literal ".ssh",segmentEnd]

def secretDirectoryPattern : Regex :=
  sequence [segmentStart,
    oneOf [sequence [literalAnyCase "secret",optional (literalAnyCase "s")],
      sequence [literalAnyCase "credential",optional (literalAnyCase "s")],literalAnyCase "private"],
    segmentEnd]

def credentialFilePattern : Regex :=
  sequence [segmentStart,oneOf ([".npmrc",".netrc",".git-credentials"].map literalAnyCase),finish]

def clusterConfigPattern : Regex :=
  sequence [segmentStart,oneOf ([".kube/config",".docker/config.json"].map literalAnyCase),finish]

def identityFilePattern : Regex :=
  sequence [segmentStart,literalAnyCase "id_",oneOf (["rsa","ed25519","ecdsa"].map literalAnyCase),
    optional (literalAnyCase ".pub"),finish]

def keyFilePattern : Regex :=
  sequence [literal ".",oneOf (["pem","p12","key","jks","pfx"].map literalAnyCase),finish]

def recoveryDirectoryPattern : Regex := sequence [segmentStart,literal ".recovery",segmentEnd]

def secretPathPatterns : List Regex :=
  [envFilePattern,sshDirectoryPattern,secretDirectoryPattern,credentialFilePattern,clusterConfigPattern,
    identityFilePattern,keyFilePattern,recoveryDirectoryPattern]

/-- `/^[A-Z]:\//i` -/
def drivePattern : Regex := sequence [start,unit (anyCase (ranges [('A','Z')])),literal ":/"]

end SecretPaths

def isSecretLikePath (pathValue : Text) : Bool := secretPathPatterns.any fun pattern => pattern.test pathValue

/-- `value.replaceAll("\\", "/")` -/
def withSlashes (value : Text) : Text := value.map fun u => if u = 0x5C then PosixPath.slash else u

/-- `throw new Error(message)` where the condition holds. -/
def refuse (condition : Bool) (message : String) : Except String Unit := if condition then .error message else .ok ()

def normalizeText (value : Text) (label : String) : Except String Text := do
  refuse value.trim.isEmpty (label ++ " must not be empty.")
  return value.trim

def assertMaxBytes (value : Text) (label : String) (maxBytes : ℕ) : Except String Unit :=
  refuse (decide (maxBytes < value.byteLength))
    (label ++ " exceeds " ++ toString maxBytes ++ " bytes (" ++ toString value.byteLength ++ " bytes).")

section Sanitizers
variable (ν : Type) [JsNumber ν] (isDatetime : Text → Bool)

/-- The leaks of a text by itself. -/
def textMetadataLeaks (value : Text) (allowHomePaths : Bool) : List MetadataLeak :=
  scanMetadataLeaks isDatetime (.string value : JsValue ν) allowHomePaths

/-- `assertMetadataSafe(value)` of a text. -/
def assertMetadataSafe (value : Text) : Except String Unit :=
  match textMetadataLeaks ν isDatetime value false with
  | [] => .ok ()
  | first :: _ => .error ("Metadata contains " ++
      (if first.reason = .providerPayload then "raw provider payload" else first.reason.words) ++ ".")

def sanitizeMetadataText (value : Text) (label : String) (maxBytes : ℕ) : Except String Text := do
  let normalized ← normalizeText value label
  assertMaxBytes value label maxBytes
  refuse (envDumpPattern.test normalized) (label ++ " must not contain environment dump content.")
  assertMetadataSafe ν isDatetime normalized
  return normalized

def sanitizeMetadataPath (pathValue : Text) : Except String Text := do
  let posixPath := withSlashes pathValue.trim
  let collapsed := PosixPath.normalize posixPath
  refuse (PosixPath.isAbsolute pathValue || PosixPath.isAbsolute posixPath || drivePattern.test posixPath)
    "Evidence paths must be repo-relative metadata, not absolute paths."
  refuse ((PosixPath.segments posixPath).contains (Text.of ".."))
    "Evidence paths must not traverse outside the repository."
  refuse (isSecretLikePath collapsed) "Evidence paths must not reference secret-bearing locations."
  let _ ← sanitizeMetadataText ν isDatetime pathValue "path" defaultMetadataTextMaxBytes
  return collapsed

end Sanitizers
section Accepted
variable {ν : Type} [JsNumber ν] {isDatetime : Text → Bool}

theorem refuse_eq_ok {condition : Bool} {message : String} {u : Unit} :
    refuse condition message = .ok u ↔ condition = false := by
  cases condition <;> simp [refuse]

theorem assertMetadataSafe_eq_ok {value : Text} {u : Unit} :
    assertMetadataSafe ν isDatetime value = .ok u ↔ textMetadataLeaks ν isDatetime value false = [] := by
  unfold assertMetadataSafe
  cases textMetadataLeaks ν isDatetime value false <;> simp

theorem sanitizeMetadataText_eq_ok {value text : Text} {label : String} {maxBytes : ℕ} :
    sanitizeMetadataText ν isDatetime value label maxBytes = .ok text ↔
      (value.trim ≠ [] ∧ value.byteLength ≤ maxBytes ∧ envDumpPattern.test value.trim = false ∧
        textMetadataLeaks ν isDatetime value.trim false = []) ∧ text = value.trim := by
  simp only [sanitizeMetadataText, normalizeText, assertMaxBytes, except_bind_eq_ok, refuse_eq_ok,
    assertMetadataSafe_eq_ok, pure, Except.pure, Except.ok.injEq]
  constructor
  · rintro ⟨_,⟨_,hne,rfl⟩,_,hbytes,_,henv,_,hleaks,rfl⟩
    exact ⟨⟨by simpa using hne,by simpa using hbytes,henv,hleaks⟩,rfl⟩
  · rintro ⟨⟨hne,hbytes,henv,hleaks⟩,rfl⟩
    exact ⟨_,⟨(),by simpa using hne,rfl⟩,(),by simpa using hbytes,(),henv,(),hleaks,rfl⟩

/-- Of a text without leaks no environment dump is reported. -/
theorem envDump_of_leaks {value : Text} (h : textMetadataLeaks ν isDatetime value false = []) :
    envDumpPattern.test value = false := by
  have htext : textLeaks false value (Text.of "$") = [] := (List.append_eq_nil_iff.mp h).1
  have hdump := (List.append_eq_nil_iff.mp (List.append_eq_nil_iff.mp htext).1).2
  cases henv : envDumpPattern.test value with
  | false => rfl
  | true =>
    rw [henv] at hdump
    cases hdump

/-- What `sanitizeMetadataPath` checks of a path. -/
structure AcceptedPath (ν : Type) [JsNumber ν] (isDatetime : Text → Bool) (pathValue : Text) : Prop where
  relative : PosixPath.isAbsolute pathValue = false
  plain : PosixPath.Plain (withSlashes pathValue.trim)
  driveless : drivePattern.test (withSlashes pathValue.trim) = false
  unsecret : isSecretLikePath (PosixPath.settled (withSlashes pathValue.trim)) = false
  bytes : pathValue.byteLength ≤ defaultMetadataTextMaxBytes
  clean : textMetadataLeaks ν isDatetime pathValue.trim false = []

theorem sanitizeMetadataPath_eq_ok {pathValue path : Text} :
    sanitizeMetadataPath ν isDatetime pathValue = .ok path ↔
      AcceptedPath ν isDatetime pathValue ∧ path = PosixPath.settled (withSlashes pathValue.trim) := by
  simp only [sanitizeMetadataPath, except_bind_eq_ok, refuse_eq_ok, sanitizeMetadataText_eq_ok, pure, Except.pure,
    Except.ok.injEq, Bool.or_eq_false_iff]
  constructor
  · rintro ⟨_,⟨⟨hrelative,hposix⟩,hdrive⟩,_,hinside,_,hsecret,_,⟨⟨hne,hbytes,-,hclean⟩,rfl⟩,rfl⟩
    have hplain : PosixPath.Plain (withSlashes pathValue.trim) :=
      ⟨by simpa [withSlashes] using hne,hposix,by simpa using hinside⟩
    rw [PosixPath.normalize_of_plain hplain] at hsecret ⊢
    exact ⟨⟨hrelative,hplain,hdrive,hsecret,hbytes,hclean⟩,rfl⟩
  · rintro ⟨⟨hrelative,hplain,hdrive,hsecret,hbytes,hclean⟩,rfl⟩
    rw [PosixPath.normalize_of_plain hplain]
    have hne : pathValue.trim ≠ [] := by simpa [withSlashes] using hplain.ne_nil
    exact ⟨(),⟨⟨hrelative,hplain.relative⟩,hdrive⟩,(),by simpa using hplain.inside,(),hsecret,_,
      ⟨⟨hne,hbytes,envDump_of_leaks hclean,hclean⟩,rfl⟩,rfl⟩

theorem withSlashes_eq_self {value : Text} (h : (0x5C : UInt16) ∉ value) : withSlashes value = value := by
  refine (List.map_congr_left fun u hu => ?_).trans (List.map_id value)
  have hne : u ≠ 0x5C := fun heq => h (heq ▸ hu)
  exact if_neg hne

theorem backslash_notMem_withSlashes (value : Text) : (0x5C : UInt16) ∉ withSlashes value := by
  intro h
  obtain ⟨u,-,hu⟩ := List.mem_map.mp h
  split_ifs at hu with heq
  · exact absurd hu (by decide)
  · exact heq hu

theorem byteLength_withSlashes (value : Text) : (withSlashes value).byteLength = value.byteLength := by
  refine Text.byteLength_map (fun u => ?_) value
  by_cases hu : u = 0x5C
  · subst hu
    exact Or.inr ⟨by decide,by decide⟩
  · exact Or.inl (if_neg hu)

/-- A path that begins neither at the root nor at a drive. -/
def IsRelative (path : Text) : Prop := PosixPath.isAbsolute path = false ∧ drivePattern.test path = false

/-- A path that passes, as it is, the checks that the sanitizer makes of the given form. -/
structure KeepsClean (ν : Type) [JsNumber ν] (isDatetime : Text → Bool) (path : Text) : Prop where
  trimmed : path.trim = path
  driveless : drivePattern.test path = false
  clean : textMetadataLeaks ν isDatetime path false = []

/-- A path that is left as it is has no white space at its ends. -/
theorem trimmed_of_settled {path : Text} (h : PosixPath.Plain (withSlashes path.trim))
    (hsame : path = PosixPath.settled (withSlashes path.trim)) : path.trim = path := by
  refine (Text.trim_sublist path).eq_of_length_le ?_
  have hle := (PosixPath.settled_sublist h).length_le
  rwa [← hsame, withSlashes, List.length_map] at hle

namespace AcceptedPath
variable {pathValue : Text}

lemma settled_withSlashes (h : AcceptedPath ν isDatetime pathValue) :
    withSlashes (PosixPath.settled (withSlashes pathValue.trim)) = PosixPath.settled (withSlashes pathValue.trim) :=
  withSlashes_eq_self fun hmem =>
    backslash_notMem_withSlashes _ ((PosixPath.settled_sublist h.plain).subset hmem)

lemma settled_bytes (h : AcceptedPath ν isDatetime pathValue) :
    (PosixPath.settled (withSlashes pathValue.trim)).byteLength ≤ defaultMetadataTextMaxBytes :=
  calc (PosixPath.settled (withSlashes pathValue.trim)).byteLength
      ≤ (withSlashes pathValue.trim).byteLength := (Text.byteLength_le_of_sublist (PosixPath.settled_sublist h.plain)).1
    _ = pathValue.trim.byteLength := byteLength_withSlashes _
    _ ≤ pathValue.byteLength := (Text.byteLength_le_of_sublist (Text.trim_sublist pathValue)).1
    _ ≤ defaultMetadataTextMaxBytes := h.bytes

/-- The settled path is accepted and left as it is, if it still passes the checks. -/
theorem settles (h : AcceptedPath ν isDatetime pathValue)
    (hkeeps : KeepsClean ν isDatetime (PosixPath.settled (withSlashes pathValue.trim))) :
    sanitizeMetadataPath ν isDatetime (PosixPath.settled (withSlashes pathValue.trim)) =
      .ok (PosixPath.settled (withSlashes pathValue.trim)) := by
  have hplain := PosixPath.plain_settled h.plain
  rw [sanitizeMetadataPath_eq_ok, hkeeps.trimmed, h.settled_withSlashes, PosixPath.settled_settled]
  refine ⟨⟨hplain.relative,?_,?_,?_,h.settled_bytes,?_⟩,rfl⟩
  · rwa [hkeeps.trimmed, h.settled_withSlashes]
  · rw [hkeeps.trimmed, h.settled_withSlashes]
    exact hkeeps.driveless
  · rw [hkeeps.trimmed, h.settled_withSlashes, PosixPath.settled_settled]
    exact h.unsecret
  · rw [hkeeps.trimmed]
    exact hkeeps.clean

end AcceptedPath

end Accepted
end OmniagentPlus.CoreContracts
