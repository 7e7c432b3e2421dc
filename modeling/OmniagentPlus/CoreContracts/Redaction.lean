import OmniagentPlus.Foundation.Regex
import OmniagentPlus.Foundation.JsValue

/-! `redaction.ts`: the texts, keys and values that metadata must not have, and the scan for them.
`isDatetime` is the check that the schema library makes of a date-time. -/
namespace OmniagentPlus.CoreContracts
open OmniagentPlus.Foundation

inductive MetadataLeakReason
  | metadataDepthLimit
  | nonJsonMetadata
  | privateRecoveryPath
  | environmentDump
  | bearerToken
  | apiKeyToken
  | authAssignment
  | secretEnvAssignment
  | privateKey
  | awsAccessKey
  | jwtToken
  | authHeader
  | urlUserinfo
  | homePath
  | providerPayload
  | sensitiveField
  | sensitiveFieldName
  deriving DecidableEq, Repr

section Patterns
open Regex

/-- `[a-z0-9]` and more under the flag `i`. -/
def alphanumericAnd (others : String) : UInt16 → Bool := anyCase fun u => ranges [('a','z'),('0','9')] u || among others u

/-- `OMNIGENT_[A-Z0-9_]*(?:API_KEY|TOKEN|SECRET|CREDENTIAL|PASSWORD|KEY)` -/
def omnigentVariable (letters : String → Regex) (others : UInt16 → Bool) : Regex :=
  sequence [letters "OMNIGENT_",star (unit others),
    oneOf (["API_KEY","TOKEN","SECRET","CREDENTIAL","PASSWORD","KEY"].map letters)]

def bearerTokenPattern : Regex :=
  sequence [wordBoundary,literalAnyCase "bearer",atLeast 1 space,atLeast 8 (unit (alphanumericAnd "._~+/=-"))]

def apiKeyTokenPattern : Regex :=
  sequence [wordBoundary,
    alt (sequence [oneOf [literalAnyCase "sk-",
          sequence [literalAnyCase "gh",unit (anyCase (among "pousr")),literalAnyCase "_"],
          sequence [literalAnyCase "xox",unit (anyCase (among "baprs")),optional (literalAnyCase "s"),literalAnyCase "-"],
          literalAnyCase "glpat-",literalAnyCase "AIza"],
        atLeast 8 (unit (alphanumericAnd "._-"))])
      (sequence [literalAnyCase "npm_",atLeast 8 (unit (alphanumericAnd ""))]),
    wordBoundary]

def authAssignmentPattern : Regex :=
  sequence [place fun before _ => !before.any (alphanumericAnd "_"),
    optional (sequence [unit (anyCase (ranges [('a','z')])),star (unit (alphanumericAnd "_")),literal "_"]),
    oneOf (["password","passwd","token","credential","authorization","api_key","access_key","client_secret",
      "secret_key","service_role_key","secret"].map literalAnyCase),
    star space,alt (literal "=") (literal ":"),star space,atLeast 1 nonSpace]

def secretEnvAssignmentPattern : Regex :=
  sequence [wordBoundary,omnigentVariable literalAnyCase (alphanumericAnd "_"),star space,literal "=",star space,
    atLeast 1 nonSpace]

def privateKeyPattern : Regex :=
  sequence [literal "-----BEGIN ",optional (sequence [atLeast 1 (unit (ranges [('A','Z')])),literal " "]),
    literal "PRIVATE KEY-----"]

def awsAccessKeyPattern : Regex :=
  sequence [wordBoundary,literal "AKIA",times 16 (unit (ranges [('0','9'),('A','Z')])),wordBoundary]

def jwtTokenPattern : Regex :=
  let part := atLeast 8 (unit (alphanumericAnd "_-"))
  sequence [wordBoundary,literalAnyCase "eyJ",part,literal ".",part,literal ".",part,wordBoundary]

def authHeaderPattern : Regex :=
  sequence [wordBoundary,oneOf (["authorization","x-api-key","cookie"].map literalAnyCase),star space,literal ":",
    star space,atLeast 1 nonSpace]

/-- Not one of these and no space. -/
def visibleExcept (characters : String) : Regex := unit fun u => !(among characters u || Text.isSpace u)

def urlUserinfoPattern : Regex :=
  sequence [wordBoundary,unit (anyCase (ranges [('a','z')])),star (unit (alphanumericAnd "+.-")),literal "://",
    atLeast 1 (visibleExcept "/@"),literal ":",atLeast 1 (visibleExcept "/@"),literal "@"]

def homePathPattern : Regex :=
  alt (sequence [literal "/",alt (literalAnyCase "home") (literalAnyCase "Users"),literal "/",atLeast 1 (visibleExcept "/")])
    (sequence [unit (anyCase (ranges [('A','Z')])),literal ":",unit (among "\\/"),literalAnyCase "Users",
      unit (among "\\/"),atLeast 1 (visibleExcept "\\/")])

def secretTextPatterns : List (MetadataLeakReason × Regex) :=
  [(.bearerToken,bearerTokenPattern),(.apiKeyToken,apiKeyTokenPattern),(.authAssignment,authAssignmentPattern),
    (.secretEnvAssignment,secretEnvAssignmentPattern),(.privateKey,privateKeyPattern),
    (.awsAccessKey,awsAccessKeyPattern),(.jwtToken,jwtTokenPattern),(.authHeader,authHeaderPattern),
    (.urlUserinfo,urlUserinfoPattern),(.homePath,homePathPattern)]

/-- `/(^|\n)(?:HOME|...)=/m`; with the flag `m` a line starts after any line terminator. -/
def envDumpPattern : Regex :=
  let isLineTerminator := fun u : UInt16 => u == 0x0A || u == 0x0D || u == 0x2028 || u == 0x2029
  sequence [alt (place fun before _ => before.all isLineTerminator) (unit fun u => u == 0x0A),
    alt (oneOf (["HOME","PATH","PWD","OPENAI_API_KEY","ANTHROPIC_API_KEY","GOOGLE_API_KEY","AZURE_OPENAI_API_KEY"].map literal))
      (omnigentVariable literal fun u => ranges [('A','Z'),('0','9')] u || among "_" u),
    literal "="]

/-- `/(?:^|[^a-z0-9_.-])\.recovery(?:[\\/]|$|[^a-z0-9_.-])/i` -/
def privateRecoveryReferencePattern : Regex :=
  let other := unit fun u => !alphanumericAnd "_.-" u
  sequence [alt start other,literalAnyCase ".recovery",oneOf [unit (among "\\/"),finish,other]]

/-- `/^[a-zA-Z_][a-zA-Z0-9_]{0,63}$/` -/
def safeKeyPattern : Regex :=
  sequence [start,unit fun u => ranges [('a','z'),('A','Z')] u || among "_" u,atMost 63 (unit isWord),finish]

end Patterns

def isSecretText (text : Text) : Bool := secretTextPatterns.any fun rule => rule.2.test text

structure MetadataLeak where
  path : Text
  reason : MetadataLeakReason
  deriving DecidableEq, Repr

/-- `key.replaceAll(/[^a-z0-9]/gi, "").toLowerCase()` -/
def normalizeKey (key : Text) : Text :=
  (key.filter (Regex.anyCase (Regex.ranges [('a','z'),('0','9')]))).map fun u =>
    if Regex.ranges [('A','Z')] u then Regex.otherCase u else u

def sensitiveNames : List Text := ["tokens","passwords","secrets","cookies","apikeys"].map Text.of

def sensitiveEndings : List Text :=
  ["password","passwd","token","credential","credentials","authorization","authheader","apikey","accesskey","secret",
    "secretkey","privatekey","servicerolekey","cookie"].map Text.of

section Values
variable {ν : Type}

def isBoolean : JsValue ν → Bool
  | .bool _ => true
  | _ => false

def sensitiveField (key : Text) (value : JsValue ν) : Bool :=
  let normalized := normalizeKey key
  if normalized == Text.of "fencingtoken" || (normalized == Text.of "autorefreshtoken" && isBoolean value) then false
  else sensitiveNames.contains normalized || sensitiveEndings.any fun ending => ending.isSuffixOf normalized

/-- Some item of an array of records has one of the properties. -/
def itemsHave (properties : List String) : JsValue ν → Bool
  | .array items _ => items.any fun item => item.any fun value => properties.any value.hasProperty
  | _ => false

def plainRecord : JsValue ν → Bool
  | .object _ _ => true
  | .foreign isRecord => isRecord
  | _ => false

def providerPayload : JsValue ν → Bool
  | .object fields hidden =>
    let value := JsValue.object fields hidden
    itemsHave ["message","delta"] (value.property "choices") || itemsHave ["role"] (value.property "messages") ||
      itemsHave ["content"] (value.property "candidates") || (value.property "anthropic_version").asString.isSome ||
        plainRecord (value.property "providerPayload")
  | _ => false

variable (isDatetime : Text → Bool)

/-- `redactedConfigValueSchema` -/
def redactedConfigValue (value : JsValue ν) : Bool :=
  let updatedAt := value.property "updatedAt"
  (value.property "schema").asString == some (Text.of "redacted_config_value.v0.1") &&
    (value.property "value").asString == some (Text.of "[redacted]") &&
      (value.property "reason").asString.any (fun reason => !reason.isEmpty) &&
        (updatedAt.isUndefined || updatedAt.asString.any isDatetime)

def redactedConfigPlaceholder : JsValue ν → Bool
  | .object fields hidden =>
    fields.all (fun field => (["schema","value","reason","updatedAt"].map Text.of).contains field.1) &&
      redactedConfigValue isDatetime (.object fields hidden)
  | _ => false

/-- A record with texts only, as an environment is. -/
def environmentRecord : JsValue ν → Bool
  | .object fields _ => !fields.isEmpty && fields.all fun field => field.2.isUndefined || field.2.asString.isSome
  | _ => false

def isEnvironmentKey (key : Text) : Bool := key == Text.of "env" || key == Text.of "environment"

def leakWhen (condition : Bool) (path : Text) (reason : MetadataLeakReason) : List MetadataLeak :=
  if condition then [⟨path,reason⟩] else []

theorem leakWhen_eq_nil {condition : Bool} {path : Text} {reason : MetadataLeakReason} :
    leakWhen condition path reason = [] ↔ condition = false := by
  cases condition <;> simp [leakWhen]

def textLeaks (allowHomePaths : Bool) (text path : Text) : List MetadataLeak :=
  leakWhen (privateRecoveryReferencePattern.test text) path .privateRecoveryPath ++
    leakWhen (envDumpPattern.test text) path .environmentDump ++
      secretTextPatterns.flatMap fun rule =>
        leakWhen (!(allowHomePaths && rule.1 == .homePath) && rule.2.test text) path rule.1

def namesSecret (key : Text) : Bool := privateRecoveryReferencePattern.test key || isSecretText key

def indexPath (path : Text) (index : ℕ) : Text := path ++ Text.of "[" ++ Text.of (toString index) ++ Text.of "]"

def unnamedPath (path : Text) (index : ℕ) : Text := path ++ Text.of ".[field-" ++ Text.of (toString index) ++ Text.of "]"

def fieldPath (path key : Text) (index : ℕ) : Text :=
  if safeKeyPattern.test key && !isSecretText key then path ++ Text.of "." ++ key else unnamedPath path index

/-- What a field has of its own, its value apart. -/
def fieldLeaks (path key : Text) (index : ℕ) (item : JsValue ν) : List MetadataLeak :=
  let next := fieldPath path key index
  leakWhen (sensitiveField key item && !item.isUndefined && !redactedConfigPlaceholder isDatetime item) next .sensitiveField ++
    leakWhen (isEnvironmentKey key && !redactedConfigPlaceholder isDatetime item && environmentRecord item) next
      .environmentDump ++
      leakWhen (namesSecret key) (unnamedPath path index) .sensitiveFieldName

variable [JsNumber ν]

/-- A text in which JSON is looked into: a string, an array or an object. -/
def encoded (text : Text) : Option (JsValue ν) :=
  (JsValue.parse text).filter fun
    | .string _ | .array _ _ | .object _ _ => true
    | _ => false

/-- `visit` of `scanMetadataLeaks`, with the depth that is left. -/
def visit (allowHomePaths : Bool) : ℕ → JsValue ν → Text → List MetadataLeak
  | 0, _, path => [⟨path,.metadataDepthLimit⟩]
  | depth + 1, entry, path =>
    match entry with
    | .foreign _ => [⟨path,.nonJsonMetadata⟩]
    | .number n => leakWhen (!JsNumber.isFinite n) path .nonJsonMetadata
    | .string text => textLeaks allowHomePaths text path ++
        ((encoded text).map fun value => visit allowHomePaths depth value path).getD []
    | .array items _ => items.zipIdx.flatMap fun item =>
        (item.1.map fun value => if value.isUndefined then [⟨indexPath path item.2,.nonJsonMetadata⟩]
          else visit allowHomePaths depth value (indexPath path item.2)).getD []
    | .object fields hidden => leakWhen (providerPayload (.object fields hidden)) path .providerPayload ++
        fields.zipIdx.flatMap fun field => fieldLeaks isDatetime path field.1.1 field.2 field.1.2 ++
          visit allowHomePaths depth field.1.2 (fieldPath path field.1.1 field.2)
    | _ => []

/-- `scanMetadataLeaks(value, { allowHomePaths })` -/
def scanMetadataLeaks (value : JsValue ν) (allowHomePaths : Bool) : List MetadataLeak :=
  visit isDatetime allowHomePaths 65 value (Text.of "$")

/-- `assertMetadataSafe(value)` does not throw. -/
def metadataSafe (value : JsValue ν) : Bool := (scanMetadataLeaks isDatetime value false).isEmpty

end Values

/-- `visit` with `inertOnly`: whether any property of a value, at any depth, is not inert. The paths
of these leaks are read by nothing. -/
def inertLeaks {ν : Type} : ℕ → JsValue ν → List MetadataLeakReason
  | 0, _ => [.metadataDepthLimit]
  | _ + 1, .foreign _ => [.nonJsonMetadata]
  | depth + 1, .array items hidden =>
    items.flatMap (fun item => (item.map (inertLeaks depth)).getD []) ++ hidden.flatMap fun field => inertLeaks depth field.2
  | depth + 1, .object fields hidden =>
    fields.flatMap (fun field => inertLeaks depth field.2) ++ hidden.flatMap fun field => inertLeaks depth field.2
  | _, _ => []

/-- `assertMetadataSafe(value, { inertOnly: true })` does not throw. -/
def metadataInert {ν : Type} (value : JsValue ν) : Bool := (inertLeaks 65 value).isEmpty

end OmniagentPlus.CoreContracts
