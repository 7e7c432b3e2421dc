import OmniagentPlus.CoreContracts.MetadataPath
import OmniagentPlus.CoreContracts.IdentityProfile

/-! `handoff-packet.ts`: handoff packets, the schema that rewrites their paths, and the builder.
The numbers of a packet are integers, as every number is that the schema accepts; what is `none`
is what a schema or a sanitizer throws at. -/
namespace OmniagentPlus.CoreContracts
open OmniagentPlus.Foundation

inductive HandoffReason
  | manualHandoff
  | providerRateLimit
  | providerUsageCap
  | providerOutage
  | sessionContinuation
  | review
  | debug
  | failover
  | routingPolicy
  deriving DecidableEq, Repr

def HandoffReason.name : HandoffReason → String
  | manualHandoff => "manual_handoff"
  | providerRateLimit => "provider_rate_limit"
  | providerUsageCap => "provider_usage_cap"
  | providerOutage => "provider_outage"
  | sessionContinuation => "session_continuation"
  | review => "review"
  | debug => "debug"
  | failover => "failover"
  | routingPolicy => "routing_policy"

inductive HandoffStatus
  | notStarted
  | inProgress
  | blocked
  | complete
  | failed
  | unknown
  deriving DecidableEq, Repr

def HandoffStatus.name : HandoffStatus → String
  | notStarted => "not_started"
  | inProgress => "in_progress"
  | blocked => "blocked"
  | complete => "complete"
  | failed => "failed"
  | unknown => "unknown"

inductive RawHistorySpeaker
  | system
  | developer
  | operator
  | user
  | assistant
  | tool
  | unknown
  deriving DecidableEq, Repr

def RawHistorySpeaker.name : RawHistorySpeaker → String
  | system => "system"
  | developer => "developer"
  | operator => "operator"
  | user => "user"
  | assistant => "assistant"
  | tool => "tool"
  | unknown => "unknown"

inductive TestStatus
  | passed
  | failed
  | skipped
  deriving DecidableEq, Repr

def TestStatus.name : TestStatus → String
  | passed => "passed"
  | failed => "failed"
  | skipped => "skipped"

def DirtyState.name : DirtyState → String
  | clean => "clean"
  | dirty => "dirty"
  | unknown => "unknown"

def WorktreeLeaseMode.name : WorktreeLeaseMode → String
  | exclusiveWrite => "exclusive_write"
  | readOnly => "read_only"
  | sequentialContinue => "sequential_continue"

/-- A redacted text; the schema fixes its other properties. -/
structure RedactedText where
  reason : Text
  content : Text
  byteLength : ℤ
  deriving DecidableEq, Repr

structure WorktreeLeaseRef where
  id : Text
  path : Option Text
  branchName : Option Text
  mode : Option WorktreeLeaseMode
  fencingToken : Option Text
  deriving DecidableEq, Repr

structure HandoffDiffSummary where
  dirtyState : DirtyState
  changedPaths : List Text
  fileCount : ℤ
  additions : ℤ
  deletions : ℤ
  truncated : Bool
  deriving DecidableEq, Repr

/-- `σ` is what an untrusted text is: a text given to the builder, a `RedactedText` in a packet. -/
structure CommandEvidenceOf (σ : Type) where
  command : Text
  exitCode : ℤ
  summary : Text
  output : Option σ
  deriving DecidableEq, Repr

structure TestEvidenceOf (σ : Type) where
  name : Text
  status : TestStatus
  summary : Option Text
  details : Option σ
  deriving DecidableEq, Repr

/-- A diff or a log. -/
structure FileEvidenceOf (σ : Type) where
  path : Text
  summary : Text
  excerpt : Option σ
  deriving DecidableEq, Repr

structure PriorAgentSummaryOf (σ : Type) where
  label : Text
  summary : Text
  excerpt : σ
  deriving DecidableEq, Repr

structure RawHistoryOf (σ : Type) where
  speaker : RawHistorySpeaker
  occurredAt : Option Text
  excerpt : σ
  deriving DecidableEq, Repr

structure HandoffEvidenceOf (σ : Type) where
  worktreeLease : Option WorktreeLeaseRef
  diffSummary : Option HandoffDiffSummary
  changedFiles : Option (List Text)
  inspectedFiles : Option (List Text)
  commandsRun : Option (List (CommandEvidenceOf σ))
  testResults : Option (List (TestEvidenceOf σ))
  diffs : Option (List (FileEvidenceOf σ))
  logs : Option (List (FileEvidenceOf σ))
  priorAgentSummaries : Option (List (PriorAgentSummaryOf σ))
  rawHistory : Option (List (RawHistoryOf σ))
  rawHistoryOmittedCount : Option ℤ
  deriving DecidableEq, Repr

structure HandoffTaskContract where
  must : Option (List Text)
  mustNot : Option (List Text)
  acceptanceCriteria : Option (List Text)
  constraints : Option (List Text)
  deriving DecidableEq, Repr

structure HandoffWorkspace where
  repoRoot : Option Text
  branch : Option Text
  worktreePath : Option Text
  baseRef : Option Text
  diffRef : Option Text
  deriving DecidableEq, Repr

structure HandoffContextPolicy where
  rawHistoryAllowed : Bool
  rawHistoryMaxItems : Option ℤ
  mayEditFiles : Bool
  mayRunCommands : Bool
  mayUseNetwork : Bool
  maySwitchProvider : Bool
  maxMetadataItems : Option ℤ
  maxEvidenceExcerptBytes : Option ℤ
  deriving DecidableEq, Repr

structure HandoffRequiredOutput where
  schema : Option Text
  instructions : Option Text
  deriving DecidableEq, Repr

structure HandoffPacketOf (σ : Type) where
  packetId : Text
  createdAt : Text
  sourceSessionIds : List Text
  sourceHarnesses : List Text
  targetHarness : Option Text
  targetProvider : Option Text
  reason : HandoffReason
  objective : Text
  currentStatus : HandoffStatus
  taskContract : Option HandoffTaskContract
  workspace : Option HandoffWorkspace
  facts : Option (List Text)
  evidence : HandoffEvidenceOf σ
  decisions : Option (List Text)
  assumptions : Option (List Text)
  failedAttempts : Option (List Text)
  risks : Option (List Text)
  openQuestions : Option (List Text)
  nextRecommendedAction : Option Text
  contextPolicy : HandoffContextPolicy
  requiredOutput : Option HandoffRequiredOutput
  deriving DecidableEq, Repr

abbrev HandoffEvidence := HandoffEvidenceOf RedactedText
abbrev HandoffPacket := HandoffPacketOf RedactedText
abbrev HandoffPacketInput := HandoffPacketOf Text

section Values
variable {ν : Type} [JsNumber ν]

/-- An integer, as its literal denotes it. -/
def integerJson (n : ℤ) : Json ν := .number (JsNumber.ofLiteral (Text.of (toString n)))

def nameJson (name : String) : Json ν := .string (Text.of name)

def textsJson (texts : List Text) : Json ν := .array (texts.map .string)

/-- The properties of an object without those that are undefined. -/
def objectJson (properties : List (String × Option (Json ν))) : Json ν :=
  .object (properties.filterMap fun p => p.2.map fun value => (Text.of p.1,value))

def listJson {α : Type} (json : α → Json ν) (items : List α) : Json ν := .array (items.map json)

def RedactedText.toJson (r : RedactedText) : Json ν :=
  objectJson [("schema",some (nameJson "redacted_text.v0.1")),("redaction",some (nameJson "content_redacted")),
    ("reason",some (.string r.reason)),("content",some (.string r.content)),
    ("byteLength",some (integerJson r.byteLength)),("truncated",some (.bool false))]

def WorktreeLeaseRef.toJson (l : WorktreeLeaseRef) : Json ν :=
  objectJson [("id",some (.string l.id)),("path",l.path.map .string),("branchName",l.branchName.map .string),
    ("mode",l.mode.map fun mode => nameJson mode.name),("fencingToken",l.fencingToken.map .string)]

def HandoffDiffSummary.toJson (d : HandoffDiffSummary) : Json ν :=
  objectJson [("dirtyState",some (nameJson d.dirtyState.name)),("changedPaths",some (textsJson d.changedPaths)),
    ("fileCount",some (integerJson d.fileCount)),("additions",some (integerJson d.additions)),
    ("deletions",some (integerJson d.deletions)),("truncated",some (.bool d.truncated))]

def CommandEvidenceOf.toJson (c : CommandEvidenceOf RedactedText) : Json ν :=
  objectJson [("command",some (.string c.command)),("exitCode",some (integerJson c.exitCode)),
    ("summary",some (.string c.summary)),("output",c.output.map (·.toJson))]

def TestEvidenceOf.toJson (t : TestEvidenceOf RedactedText) : Json ν :=
  objectJson [("name",some (.string t.name)),("status",some (nameJson t.status.name)),
    ("summary",t.summary.map .string),("details",t.details.map (·.toJson))]

def FileEvidenceOf.toJson (f : FileEvidenceOf RedactedText) : Json ν :=
  objectJson [("path",some (.string f.path)),("summary",some (.string f.summary)),
    ("excerpt",f.excerpt.map (·.toJson))]

def PriorAgentSummaryOf.toJson (p : PriorAgentSummaryOf RedactedText) : Json ν :=
  objectJson [("label",some (.string p.label)),("summary",some (.string p.summary)),("excerpt",some p.excerpt.toJson)]

def RawHistoryOf.toJson (r : RawHistoryOf RedactedText) : Json ν :=
  objectJson [("speaker",some (nameJson r.speaker.name)),("occurredAt",r.occurredAt.map .string),
    ("excerpt",some r.excerpt.toJson)]

def HandoffEvidenceOf.toJson (e : HandoffEvidence) : Json ν :=
  objectJson [("worktreeLease",e.worktreeLease.map (·.toJson)),("diffSummary",e.diffSummary.map (·.toJson)),
    ("changedFiles",e.changedFiles.map textsJson),("inspectedFiles",e.inspectedFiles.map textsJson),
    ("commandsRun",e.commandsRun.map (listJson (·.toJson))),("testResults",e.testResults.map (listJson (·.toJson))),
    ("diffs",e.diffs.map (listJson (·.toJson))),("logs",e.logs.map (listJson (·.toJson))),
    ("priorAgentSummaries",e.priorAgentSummaries.map (listJson (·.toJson))),
    ("rawHistory",e.rawHistory.map (listJson (·.toJson))),
    ("rawHistoryOmittedCount",e.rawHistoryOmittedCount.map integerJson)]

def HandoffTaskContract.toJson (t : HandoffTaskContract) : Json ν :=
  objectJson [("must",t.must.map textsJson),("mustNot",t.mustNot.map textsJson),
    ("acceptanceCriteria",t.acceptanceCriteria.map textsJson),("constraints",t.constraints.map textsJson)]

def HandoffWorkspace.toJson (w : HandoffWorkspace) : Json ν :=
  objectJson [("repoRoot",w.repoRoot.map .string),("branch",w.branch.map .string),
    ("worktreePath",w.worktreePath.map .string),("baseRef",w.baseRef.map .string),("diffRef",w.diffRef.map .string)]

def HandoffContextPolicy.toJson (c : HandoffContextPolicy) : Json ν :=
  objectJson [("rawHistoryAllowed",some (.bool c.rawHistoryAllowed)),
    ("rawHistoryMaxItems",c.rawHistoryMaxItems.map integerJson),("mayEditFiles",some (.bool c.mayEditFiles)),
    ("mayRunCommands",some (.bool c.mayRunCommands)),("mayUseNetwork",some (.bool c.mayUseNetwork)),
    ("maySwitchProvider",some (.bool c.maySwitchProvider)),("maxMetadataItems",c.maxMetadataItems.map integerJson),
    ("maxEvidenceExcerptBytes",c.maxEvidenceExcerptBytes.map integerJson)]

def HandoffRequiredOutput.toJson (r : HandoffRequiredOutput) : Json ν :=
  objectJson [("schema",r.schema.map .string),("instructions",r.instructions.map .string)]

def HandoffPacketOf.toJson (p : HandoffPacket) : Json ν :=
  objectJson [("schema",some (nameJson "handoff_packet.v0.1")),("packetId",some (.string p.packetId)),
    ("createdAt",some (.string p.createdAt)),("sourceSessionIds",some (textsJson p.sourceSessionIds)),
    ("sourceHarnesses",some (textsJson p.sourceHarnesses)),("targetHarness",p.targetHarness.map .string),
    ("targetProvider",p.targetProvider.map .string),("reason",some (nameJson p.reason.name)),
    ("objective",some (.string p.objective)),("currentStatus",some (nameJson p.currentStatus.name)),
    ("taskContract",p.taskContract.map (·.toJson)),("workspace",p.workspace.map (·.toJson)),
    ("facts",p.facts.map textsJson),("evidence",some p.evidence.toJson),("decisions",p.decisions.map textsJson),
    ("assumptions",p.assumptions.map textsJson),("failedAttempts",p.failedAttempts.map textsJson),
    ("risks",p.risks.map textsJson),("openQuestions",p.openQuestions.map textsJson),
    ("nextRecommendedAction",p.nextRecommendedAction.map .string),("contextPolicy",some p.contextPolicy.toJson),
    ("requiredOutput",p.requiredOutput.map (·.toJson))]

/-- `metadataSchemaCheck(value, context)` adds no issue. -/
def metadataSchemaCheck (isDatetime : Text → Bool) (value : Json ν) : Bool :=
  metadataSafe isDatetime (JsValue.ofJson value)

end Values
section Schemas

/-- `z.string().min(1)`, of an optional string and of each in a list. -/
def requiredText (text : Text) : Bool := !text.isEmpty
def optionalText (text : Option Text) : Bool := text.all requiredText
def optionalTexts (texts : Option (List Text)) : Bool := texts.all fun items => items.all requiredText

/-- `z.number().int().nonnegative()` and `z.number().int().positive()` -/
def isCount (n : ℤ) : Bool := decide (0 ≤ n)
def isPositive (n : ℤ) : Bool := decide (0 < n)

def worktreeLeaseRefSchema (l : WorktreeLeaseRef) : Bool :=
  requiredText l.id && optionalText l.path && optionalText l.branchName && optionalText l.fencingToken

def handoffDiffSummarySchema (d : HandoffDiffSummary) : Bool :=
  d.changedPaths.all requiredText && isCount d.fileCount && isCount d.additions && isCount d.deletions

def handoffContextPolicySchema (c : HandoffContextPolicy) : Bool :=
  c.rawHistoryMaxItems.all isPositive && c.maxMetadataItems.all isPositive && c.maxEvidenceExcerptBytes.all isPositive

variable (ν : Type) [JsNumber ν] (isDatetime : Text → Bool)

def redactedTextSchema (r : RedactedText) : Bool :=
  requiredText r.reason && requiredText r.content && isPositive r.byteLength &&
    metadataSchemaCheck isDatetime (r.toJson : Json ν) && r.byteLength == r.content.byteLength &&
      decide (r.byteLength ≤ defaultUntrustedTextMaxBytes)

def commandEvidenceSchema (c : CommandEvidenceOf RedactedText) : Bool :=
  requiredText c.command && requiredText c.summary && c.output.all (redactedTextSchema ν isDatetime)

def testEvidenceSchema (t : TestEvidenceOf RedactedText) : Bool :=
  requiredText t.name && optionalText t.summary && t.details.all (redactedTextSchema ν isDatetime)

/-- `diffEvidenceSchema` and `logEvidenceSchema` -/
def fileEvidenceSchema (f : FileEvidenceOf RedactedText) : Bool :=
  requiredText f.path && requiredText f.summary && f.excerpt.all (redactedTextSchema ν isDatetime)

def priorAgentSummaryEvidenceSchema (p : PriorAgentSummaryOf RedactedText) : Bool :=
  requiredText p.label && requiredText p.summary && redactedTextSchema ν isDatetime p.excerpt

def rawHistoryEvidenceSchema (r : RawHistoryOf RedactedText) : Bool :=
  r.occurredAt.all isDatetime && redactedTextSchema ν isDatetime r.excerpt

def evidenceSchema (e : HandoffEvidence) : Bool :=
  e.worktreeLease.all worktreeLeaseRefSchema && e.diffSummary.all handoffDiffSummarySchema &&
    optionalTexts e.changedFiles && optionalTexts e.inspectedFiles &&
      e.commandsRun.all (fun l => l.all (commandEvidenceSchema ν isDatetime)) &&
        e.testResults.all (fun l => l.all (testEvidenceSchema ν isDatetime)) &&
          e.diffs.all (fun l => l.all (fileEvidenceSchema ν isDatetime)) &&
            e.logs.all (fun l => l.all (fileEvidenceSchema ν isDatetime)) &&
              e.priorAgentSummaries.all (fun l => l.all (priorAgentSummaryEvidenceSchema ν isDatetime)) &&
                e.rawHistory.all (fun l => l.all (rawHistoryEvidenceSchema ν isDatetime)) &&
                  e.rawHistoryOmittedCount.all isCount

def taskContractSchema (t : HandoffTaskContract) : Bool :=
  optionalTexts t.must && optionalTexts t.mustNot && optionalTexts t.acceptanceCriteria && optionalTexts t.constraints

def workspaceSchema (w : HandoffWorkspace) : Bool :=
  optionalText w.repoRoot && optionalText w.branch && optionalText w.worktreePath && optionalText w.baseRef &&
    optionalText w.diffRef

/-- The checks of `handoffPacketSchema` on the fields, before its transform. -/
def packetFields (p : HandoffPacket) : Bool :=
  requiredText p.packetId && isDatetime p.createdAt && (!p.sourceSessionIds.isEmpty && p.sourceSessionIds.all requiredText) &&
    (!p.sourceHarnesses.isEmpty && p.sourceHarnesses.all requiredText) && optionalText p.targetHarness &&
      optionalText p.targetProvider && requiredText p.objective && p.taskContract.all taskContractSchema &&
        p.workspace.all workspaceSchema && optionalTexts p.facts && evidenceSchema ν isDatetime p.evidence &&
          optionalTexts p.decisions && optionalTexts p.assumptions && optionalTexts p.failedAttempts &&
            optionalTexts p.risks && optionalTexts p.openQuestions && optionalText p.nextRecommendedAction &&
              handoffContextPolicySchema p.contextPolicy &&
                p.requiredOutput.all fun r => optionalText r.schema && optionalText r.instructions

end Schemas

section Paths
-- `sha256` is `createHash("sha256").update(path).digest("hex")`
variable (ν : Type) [JsNumber ν] (isDatetime : Text → Bool) (sha256 : Text → Text)

section Patterns
open Regex

def hexUnit : UInt16 → Bool := ranges [('a','f'),('0','9')]

/-- What stands in `/^path:sha256:[a-f0-9]{64}$/` between the ends. -/
def opaquePath : Regex := seq (literal "path:sha256:") (times 64 (unit hexUnit))

def opaquePathPattern : Regex := sequence [start,opaquePath,finish]

end Patterns

def opaqueExportPath (path : Text) : Except String Text :=
  if opaquePathPattern.test path then .ok path
  else if PosixPath.isAbsolute path || drivePattern.test (withSlashes path) || isSecretText path then
    .ok (Text.of "path:sha256:" ++ sha256 path)
  else sanitizeMetadataPath ν isDatetime path

/-- The last check of `sanitizeWorkspacePath`: a home directory is no leak. -/
def assertWorkspaceSafe (normalized : Text) : Except String Unit :=
  match textMetadataLeaks ν isDatetime normalized true with
  | [] => .ok ()
  | leak :: _ => .error ("Workspace path contains " ++ leak.reason.words ++ ".")

def sanitizeWorkspacePath (pathValue : Text) (label : String) : Except String Text := do
  let normalized ← normalizeText pathValue label
  assertMaxBytes pathValue label defaultUntrustedTextMaxBytes
  refuse (isSecretLikePath (withSlashes normalized)) (label ++ " must not reference secret-bearing locations.")
  assertWorkspaceSafe ν isDatetime normalized
  return normalized

/-- `opaqueExportPath(sanitizeWorkspacePath(path, label))` of a path that may be missing. -/
def exportPath (label : String) : Option Text → Except String (Option Text)
  | none => .ok none
  | some path => do
    let sanitized ← sanitizeWorkspacePath ν isDatetime path label
    let exported ← opaqueExportPath ν isDatetime sha256 sanitized
    return some exported

def exportWorkspace : Option HandoffWorkspace → Except String (Option HandoffWorkspace)
  | none => .ok none
  | some w => do
    let repoRoot ← exportPath ν isDatetime sha256 "workspace root" w.repoRoot
    let worktreePath ← exportPath ν isDatetime sha256 "worktree path" w.worktreePath
    return some { w with repoRoot := repoRoot, worktreePath := worktreePath }

def exportLease : Option WorktreeLeaseRef → Except String (Option WorktreeLeaseRef)
  | none => .ok none
  | some l => do
    let path ← exportPath ν isDatetime sha256 "lease path" l.path
    return some { l with path := path }

/-- The paths of the evidence. -/
def HandoffEvidenceOf.paths {σ : Type} (e : HandoffEvidenceOf σ) : List Text :=
  e.changedFiles.getD [] ++ e.inspectedFiles.getD [] ++ (e.diffSummary.map (·.changedPaths)).getD [] ++
    (e.diffs.getD []).map (·.path) ++ (e.logs.getD []).map (·.path)

/-- Every path is one that the sanitizer takes. -/
def checkPaths : List Text → Except String Unit
  | [] => .ok ()
  | path :: paths => do
    let _ ← sanitizeMetadataPath ν isDatetime path
    checkPaths paths

def checkOptionalText (label : String) (maxBytes : ℕ) : Option Text → Except String Unit
  | none => .ok ()
  | some text => do
    let _ ← sanitizeMetadataText ν isDatetime text label maxBytes
    return ()

/-- The transform of `handoffPacketSchema`; an issue that a check adds refuses the packet. -/
def transformPacket (packet : HandoffPacket) : Except String HandoffPacket := do
  let workspace ← exportWorkspace ν isDatetime sha256 packet.workspace
  let worktreeLease ← exportLease ν isDatetime sha256 packet.evidence.worktreeLease
  let projected : HandoffPacket :=
    { packet with workspace := workspace, evidence := { packet.evidence with worktreeLease := worktreeLease } }
  refuse (!metadataSchemaCheck isDatetime (projected.toJson : Json ν)) "Invalid handoff metadata."
  let _ ← sanitizeMetadataText ν isDatetime packet.objective "objective" 400
  checkOptionalText ν isDatetime "next action" 400 packet.nextRecommendedAction
  checkPaths ν isDatetime packet.evidence.paths
  return projected

def handoffPacketSchema (packet : HandoffPacket) : Option HandoffPacket :=
  if packetFields ν isDatetime packet then (transformPacket ν isDatetime sha256 packet).toOption else none

end Paths

section Builder
variable {α β : Type}

def defaultMaxListItems : ℕ := 12
def defaultMaxChangedPaths : ℕ := 32

/-- `schema.parse(value)`; the text of its error is not modelled. -/
def parseWith (schema : α → Bool) (value : α) : Except String α :=
  if schema value then .ok value else .error "Invalid input"

/-- A normalization of a value that may be missing. -/
def normalizeOptional (normalize : α → Except String β) : Option α → Except String (Option β)
  | none => .ok none
  | some value => do
    let normalized ← normalize value
    return some normalized

/-- Each item from an index on, under the label `${label}[${index}]`. -/
def normalizeFrom (normalize : String → α → Except String β) (label : String) : ℕ → List α → Except String (List β)
  | _, [] => .ok []
  | index, value :: values => do
    let item ← normalize (label ++ "[" ++ toString index ++ "]") value
    let items ← normalizeFrom normalize label (index + 1) values
    return item :: items

/-- `values?.slice(0, maxItems).map(...)` -/
def normalizeItems (normalize : String → α → Except String β) (label : String) (maxItems : ℕ) :
    Option (List α) → Except String (Option (List β)) :=
  normalizeOptional fun values => normalizeFrom normalize label 0 (values.take maxItems)

variable (ν : Type) [JsNumber ν] (isDatetime : Text → Bool)

def normalizeStringList (label : String) (maxItems maxBytes : ℕ) : Option (List Text) → Except String (Option (List Text)) :=
  normalizeItems (fun label value => sanitizeMetadataText ν isDatetime value label maxBytes) label maxItems

/-- `sanitizeMetadataPath(sanitizeMetadataText(value, label))` -/
def normalizePath (label : String) (value : Text) : Except String Text := do
  let text ← sanitizeMetadataText ν isDatetime value label defaultMetadataTextMaxBytes
  sanitizeMetadataPath ν isDatetime text

def normalizePathList (label : String) (maxItems : ℕ) : Option (List Text) → Except String (Option (List Text)) :=
  normalizeItems (normalizePath ν isDatetime) label maxItems

def optionalMetadataText (label : String) (maxBytes : ℕ) : Option Text → Except String (Option Text) :=
  normalizeOptional fun value => sanitizeMetadataText ν isDatetime value label maxBytes

def normalizeWorkspace : Option HandoffWorkspace → Except String (Option HandoffWorkspace) :=
  normalizeOptional fun workspace => do
    let repoRoot ← normalizeOptional (sanitizeWorkspacePath ν isDatetime · "workspace.repoRoot") workspace.repoRoot
    let branch ← optionalMetadataText ν isDatetime "workspace.branch" defaultMetadataTextMaxBytes workspace.branch
    let worktreePath ←
      normalizeOptional (sanitizeWorkspacePath ν isDatetime · "workspace.worktreePath") workspace.worktreePath
    let baseRef ← optionalMetadataText ν isDatetime "workspace.baseRef" defaultMetadataTextMaxBytes workspace.baseRef
    let diffRef ← optionalMetadataText ν isDatetime "workspace.diffRef" defaultMetadataTextMaxBytes workspace.diffRef
    return ⟨repoRoot,branch,worktreePath,baseRef,diffRef⟩

def normalizeDiffSummary (maxPaths : ℕ) : Option HandoffDiffSummary → Except String (Option HandoffDiffSummary) :=
  normalizeOptional fun diffSummary => do
    let changedPaths ←
      normalizePathList ν isDatetime "evidence.diffSummary.changedPaths" maxPaths (some diffSummary.changedPaths)
    parseWith handoffDiffSummarySchema { diffSummary with changedPaths := changedPaths.getD [] }

def normalizeWorktreeLease : Option WorktreeLeaseRef → Except String (Option WorktreeLeaseRef) :=
  normalizeOptional fun lease => do
    let id ← sanitizeMetadataText ν isDatetime lease.id "evidence.worktreeLease.id" defaultMetadataTextMaxBytes
    let path ← normalizeOptional (sanitizeWorkspacePath ν isDatetime · "evidence.worktreeLease.path") lease.path
    let branchName ← optionalMetadataText ν isDatetime "evidence.worktreeLease.branchName" defaultMetadataTextMaxBytes
      lease.branchName
    let fencingToken ← optionalMetadataText ν isDatetime "evidence.worktreeLease.fencingToken"
      defaultMetadataTextMaxBytes lease.fencingToken
    parseWith worktreeLeaseRefSchema ⟨id,path,branchName,lease.mode,fencingToken⟩

def redactUntrustedText (value : Text) (label reason : String) (maxBytes : ℕ) : Except String RedactedText := do
  let normalized ← normalizeText value label
  assertMaxBytes value label maxBytes
  refuse (envDumpPattern.test normalized) (label ++ " must not include environment dump content.")
  assertMetadataSafe ν isDatetime normalized
  parseWith (redactedTextSchema ν isDatetime) ⟨Text.of reason,normalized,normalized.byteLength⟩

def normalizeCommandEvidence (maxItems maxEvidenceBytes : ℕ) :=
  normalizeItems (fun label (value : CommandEvidenceOf Text) => do
    let command ← sanitizeMetadataText ν isDatetime value.command (label ++ ".command") 320
    let summary ← sanitizeMetadataText ν isDatetime value.summary (label ++ ".summary") 320
    let output ← normalizeOptional
      (redactUntrustedText ν isDatetime · (label ++ ".output") "command_output_excerpt" maxEvidenceBytes) value.output
    parseWith (commandEvidenceSchema ν isDatetime) ⟨command,value.exitCode,summary,output⟩) "evidence.commandsRun" maxItems

def normalizeTestEvidence (maxItems maxEvidenceBytes : ℕ) :=
  normalizeItems (fun label (value : TestEvidenceOf Text) => do
    let name ← sanitizeMetadataText ν isDatetime value.name (label ++ ".name") defaultMetadataTextMaxBytes
    let summary ← optionalMetadataText ν isDatetime (label ++ ".summary") 320 value.summary
    let details ← normalizeOptional
      (redactUntrustedText ν isDatetime · (label ++ ".details") "test_detail_excerpt" maxEvidenceBytes) value.details
    parseWith (testEvidenceSchema ν isDatetime) ⟨name,value.status,summary,details⟩) "evidence.testResults" maxItems

/-- `normalizeDiffEvidence` and `normalizeLogEvidence` -/
def normalizeFileEvidence (label reason : String) (maxItems maxEvidenceBytes : ℕ) :=
  normalizeItems (fun label (value : FileEvidenceOf Text) => do
    let path ← normalizePath ν isDatetime (label ++ ".path") value.path
    let summary ← sanitizeMetadataText ν isDatetime value.summary (label ++ ".summary") 320
    let excerpt ← normalizeOptional (redactUntrustedText ν isDatetime · (label ++ ".excerpt") reason maxEvidenceBytes)
      value.excerpt
    parseWith (fileEvidenceSchema ν isDatetime) ⟨path,summary,excerpt⟩) label maxItems

def normalizeDiffEvidence := normalizeFileEvidence ν isDatetime "evidence.diffs" "diff_excerpt"

def normalizeLogEvidence := normalizeFileEvidence ν isDatetime "evidence.logs" "log_excerpt"

def normalizePriorAgentSummaries (maxItems maxEvidenceBytes : ℕ) :=
  normalizeItems (fun label (value : PriorAgentSummaryOf Text) => do
    let name ← sanitizeMetadataText ν isDatetime value.label (label ++ ".label") defaultMetadataTextMaxBytes
    let summary ← sanitizeMetadataText ν isDatetime value.summary (label ++ ".summary") 320
    let excerpt ←
      redactUntrustedText ν isDatetime value.excerpt (label ++ ".content") "prior_agent_summary_excerpt" maxEvidenceBytes
    parseWith (priorAgentSummaryEvidenceSchema ν isDatetime) ⟨name,summary,excerpt⟩) "evidence.priorAgentSummaries" maxItems

/-- The history that goes along and how many items of it do not. -/
def normalizeRawHistory (values : Option (List (RawHistoryOf Text))) (contextPolicy : HandoffContextPolicy) :
    Except String (Option (List (RawHistoryOf RedactedText)) × Option ℤ) :=
  if (values.getD []).isEmpty || !contextPolicy.rawHistoryAllowed then .ok (none,none)
  else do
    let maxItems := (contextPolicy.rawHistoryMaxItems.map Int.toNat).getD defaultMaxListItems
    let maxEvidenceBytes := (contextPolicy.maxEvidenceExcerptBytes.map Int.toNat).getD defaultUntrustedTextMaxBytes
    let selectedValues := (values.getD []).take maxItems
    let rawHistory ← normalizeFrom (fun label (value : RawHistoryOf Text) => do
      let excerpt ←
        redactUntrustedText ν isDatetime value.excerpt (label ++ ".content") "raw_history_excerpt" maxEvidenceBytes
      parseWith (rawHistoryEvidenceSchema ν isDatetime) ⟨value.speaker,value.occurredAt,excerpt⟩)
        "evidence.rawHistory" 0 selectedValues
    let omitted := (values.getD []).length - selectedValues.length
    return (some rawHistory,if 0 < omitted then some (omitted : ℤ) else none)

def normalizeTaskContract (maxItems : ℕ) : Option HandoffTaskContract → Except String (Option HandoffTaskContract) :=
  normalizeOptional fun contract => do
    let must ← normalizeStringList ν isDatetime "taskContract.must" maxItems defaultMetadataTextMaxBytes contract.must
    let mustNot ←
      normalizeStringList ν isDatetime "taskContract.mustNot" maxItems defaultMetadataTextMaxBytes contract.mustNot
    let acceptanceCriteria ←
      normalizeStringList ν isDatetime "taskContract.acceptanceCriteria" maxItems 320 contract.acceptanceCriteria
    let constraints ← normalizeStringList ν isDatetime "taskContract.constraints" maxItems 320 contract.constraints
    return ⟨must,mustNot,acceptanceCriteria,constraints⟩

def normalizeEvidence (maxItems maxEvidenceBytes : ℕ) (rawHistory : Option (List (RawHistoryOf RedactedText)) × Option ℤ)
    (evidence : HandoffEvidenceOf Text) : Except String HandoffEvidence := do
  let worktreeLease ← normalizeWorktreeLease ν isDatetime evidence.worktreeLease
  let diffSummary ← normalizeDiffSummary ν isDatetime defaultMaxChangedPaths evidence.diffSummary
  let changedFiles ← normalizePathList ν isDatetime "evidence.changedFiles" defaultMaxChangedPaths evidence.changedFiles
  let inspectedFiles ←
    normalizePathList ν isDatetime "evidence.inspectedFiles" defaultMaxChangedPaths evidence.inspectedFiles
  let commandsRun ← normalizeCommandEvidence ν isDatetime maxItems maxEvidenceBytes evidence.commandsRun
  let testResults ← normalizeTestEvidence ν isDatetime maxItems maxEvidenceBytes evidence.testResults
  let diffs ← normalizeDiffEvidence ν isDatetime maxItems maxEvidenceBytes evidence.diffs
  let logs ← normalizeLogEvidence ν isDatetime maxItems maxEvidenceBytes evidence.logs
  let priorAgentSummaries ← normalizePriorAgentSummaries ν isDatetime maxItems maxEvidenceBytes evidence.priorAgentSummaries
  return ⟨worktreeLease,diffSummary,changedFiles,inspectedFiles,commandsRun,testResults,diffs,logs,priorAgentSummaries,
    rawHistory.1,rawHistory.2⟩

def normalizeRequiredOutput : Option HandoffRequiredOutput → Except String (Option HandoffRequiredOutput) :=
  normalizeOptional fun requiredOutput => do
    let schema ←
      optionalMetadataText ν isDatetime "requiredOutput.schema" defaultMetadataTextMaxBytes requiredOutput.schema
    let instructions ← optionalMetadataText ν isDatetime "requiredOutput.instructions" 400 requiredOutput.instructions
    return ⟨schema,instructions⟩

/-- What `buildHandoffPacket` gives to the schema. -/
def normalizePacket (input : HandoffPacketInput) : Except String HandoffPacket := do
  let contextPolicy ← parseWith handoffContextPolicySchema input.contextPolicy
  let maxItems := (contextPolicy.maxMetadataItems.map Int.toNat).getD defaultMaxListItems
  let maxEvidenceBytes := (contextPolicy.maxEvidenceExcerptBytes.map Int.toNat).getD defaultUntrustedTextMaxBytes
  let rawHistory ← normalizeRawHistory ν isDatetime input.evidence.rawHistory contextPolicy
  let packetId ← sanitizeMetadataText ν isDatetime input.packetId "packetId" defaultMetadataTextMaxBytes
  let sourceSessionIds ← normalizeStringList ν isDatetime "sourceSessionIds" maxItems defaultMetadataTextMaxBytes
    (some input.sourceSessionIds)
  let sourceHarnesses ← normalizeStringList ν isDatetime "sourceHarnesses" maxItems defaultMetadataTextMaxBytes
    (some input.sourceHarnesses)
  let targetHarness ← optionalMetadataText ν isDatetime "targetHarness" defaultMetadataTextMaxBytes input.targetHarness
  let targetProvider ← optionalMetadataText ν isDatetime "targetProvider" defaultMetadataTextMaxBytes input.targetProvider
  let objective ← sanitizeMetadataText ν isDatetime input.objective "objective" 400
  let taskContract ← normalizeTaskContract ν isDatetime maxItems input.taskContract
  let workspace ← normalizeWorkspace ν isDatetime input.workspace
  let facts ← normalizeStringList ν isDatetime "facts" maxItems 320 input.facts
  let evidence ← normalizeEvidence ν isDatetime maxItems maxEvidenceBytes rawHistory input.evidence
  let decisions ← normalizeStringList ν isDatetime "decisions" maxItems 320 input.decisions
  let assumptions ← normalizeStringList ν isDatetime "assumptions" maxItems 320 input.assumptions
  let failedAttempts ← normalizeStringList ν isDatetime "failedAttempts" maxItems 320 input.failedAttempts
  let risks ← normalizeStringList ν isDatetime "risks" maxItems 320 input.risks
  let openQuestions ← normalizeStringList ν isDatetime "openQuestions" maxItems 320 input.openQuestions
  let nextRecommendedAction ← optionalMetadataText ν isDatetime "nextRecommendedAction" 400 input.nextRecommendedAction
  let requiredOutput ← normalizeRequiredOutput ν isDatetime input.requiredOutput
  return { input with
    packetId := packetId, sourceSessionIds := sourceSessionIds.getD [], sourceHarnesses := sourceHarnesses.getD [],
    targetHarness := targetHarness, targetProvider := targetProvider, objective := objective,
    taskContract := taskContract, workspace := workspace, facts := facts, evidence := evidence, decisions := decisions,
    assumptions := assumptions, failedAttempts := failedAttempts, risks := risks, openQuestions := openQuestions,
    nextRecommendedAction := nextRecommendedAction, contextPolicy := contextPolicy, requiredOutput := requiredOutput }

def buildHandoffPacket (sha256 : Text → Text) (input : HandoffPacketInput) : Option HandoffPacket :=
  (normalizePacket ν isDatetime input).toOption.bind (handoffPacketSchema ν isDatetime sha256)

end Builder

end OmniagentPlus.CoreContracts
