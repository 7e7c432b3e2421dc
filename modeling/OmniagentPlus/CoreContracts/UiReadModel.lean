import OmniagentPlus.CoreContracts.MetadataPath
import OmniagentPlus.CoreContracts.StateLedger
import OmniagentPlus.Foundation.Traversal
import Mathlib.Data.Option.Basic

/-! `ui-read-model.ts`: the rows of the control snapshot and the schemas that the snapshot is parsed with.
A row is made of the texts of the ledger; parsing cuts the white space off the ends of each text, and refuses
a row with a text that is empty, too long or leaks. -/
namespace OmniagentPlus.CoreContracts
open OmniagentPlus.Foundation

section Rows
variable (τ : Type)

structure UiSessionSummary where
  sessionId : τ
  title : τ
  state : AgentSessionState
  createdAt : τ
  parentSessionId : Option τ
  rootSessionId : Option τ
  activeTurnCount : ℕ
  pendingApprovalCount : ℕ
  eventCount : ℕ
  evidenceRefCount : ℕ
  handoffPacketId : Option τ
  worktreeLeaseId : Option τ
  deriving DecidableEq, Repr

structure UiSessionTreeNode where
  sessionId : τ
  parentSessionId : Option τ
  rootSessionId : τ
  depth : ℕ
  title : τ
  state : AgentSessionState
  childSessionIds : List τ
  activeTurnCount : ℕ
  pendingApprovalCount : ℕ
  handoffPacketId : Option τ
  deriving DecidableEq, Repr

structure UiActiveTurn where
  sessionId : τ
  turnId : τ
  state : TurnState
  pendingApprovalRequestId : Option τ
  deriving DecidableEq, Repr

inductive UiApprovalStatus
  | pending
  | decided (decision : ApprovalDecision)
  deriving DecidableEq, Repr

structure UiApproval where
  approvalRequestId : τ
  toolCallId : Option τ
  sessionId : τ
  turnId : τ
  requestedAction : τ
  risk : ApprovalRisk
  allowedApprovers : List τ
  expiresAt : Option τ
  status : UiApprovalStatus
  decidedBy : Option τ
  decidedAt : Option τ
  reason : Option τ
  deriving DecidableEq, Repr

structure UiControlSnapshot where
  sessions : List (UiSessionSummary τ)
  sessionTree : List (UiSessionTreeNode τ)
  activeTurns : List (UiActiveTurn τ)
  approvals : List (UiApproval τ)
  deriving DecidableEq, Repr

end Rows

section Schemas
variable (ν : Type) [JsNumber ν] (isDatetime : Text → Bool)

/-- `metadataTextSchema(label)`, with `none` for an issue. -/
def metadataTextSchema (label value : String) : Option Text :=
  (sanitizeMetadataText ν isDatetime (Text.of value) label defaultMetadataTextMaxBytes).toOption

/-- `z.string().datetime({ offset: true })` -/
def datetimeSchema (value : String) : Option Text := (some (Text.of value)).filter isDatetime

def uiSessionSummarySchema (summary : UiSessionSummary String) : Option (UiSessionSummary Text) := do
  let sessionId ← metadataTextSchema ν isDatetime "session id" summary.sessionId
  let title ← metadataTextSchema ν isDatetime "session title" summary.title
  let createdAt ← datetimeSchema isDatetime summary.createdAt
  let parentSessionId ← summary.parentSessionId.mapM (metadataTextSchema ν isDatetime "parent session id")
  let rootSessionId ← summary.rootSessionId.mapM (metadataTextSchema ν isDatetime "root session id")
  let handoffPacketId ← summary.handoffPacketId.mapM (metadataTextSchema ν isDatetime "handoff packet id")
  let worktreeLeaseId ← summary.worktreeLeaseId.mapM (metadataTextSchema ν isDatetime "worktree lease id")
  return {
    sessionId := sessionId
    title := title
    state := summary.state
    createdAt := createdAt
    parentSessionId := parentSessionId
    rootSessionId := rootSessionId
    activeTurnCount := summary.activeTurnCount
    pendingApprovalCount := summary.pendingApprovalCount
    eventCount := summary.eventCount
    evidenceRefCount := summary.evidenceRefCount
    handoffPacketId := handoffPacketId
    worktreeLeaseId := worktreeLeaseId }

def uiSessionTreeNodeSchema (node : UiSessionTreeNode String) : Option (UiSessionTreeNode Text) := do
  let sessionId ← metadataTextSchema ν isDatetime "tree session id" node.sessionId
  let parentSessionId ← node.parentSessionId.mapM (metadataTextSchema ν isDatetime "tree parent session id")
  let rootSessionId ← metadataTextSchema ν isDatetime "tree root session id" node.rootSessionId
  let title ← metadataTextSchema ν isDatetime "tree title" node.title
  let childSessionIds ← node.childSessionIds.mapM (metadataTextSchema ν isDatetime "child session id")
  let handoffPacketId ← node.handoffPacketId.mapM (metadataTextSchema ν isDatetime "tree handoff packet id")
  return {
    sessionId := sessionId
    parentSessionId := parentSessionId
    rootSessionId := rootSessionId
    depth := node.depth
    title := title
    state := node.state
    childSessionIds := childSessionIds
    activeTurnCount := node.activeTurnCount
    pendingApprovalCount := node.pendingApprovalCount
    handoffPacketId := handoffPacketId }

def uiActiveTurnSummarySchema (turn : UiActiveTurn String) : Option (UiActiveTurn Text) := do
  let sessionId ← metadataTextSchema ν isDatetime "active turn session id" turn.sessionId
  let turnId ← metadataTextSchema ν isDatetime "active turn id" turn.turnId
  let pendingApprovalRequestId ← turn.pendingApprovalRequestId.mapM
    (metadataTextSchema ν isDatetime "pending approval request id")
  return {
    sessionId := sessionId
    turnId := turnId
    state := turn.state
    pendingApprovalRequestId := pendingApprovalRequestId }

def uiApprovalSummarySchema (approval : UiApproval String) : Option (UiApproval Text) := do
  let approvalRequestId ← metadataTextSchema ν isDatetime "approval request id" approval.approvalRequestId
  let toolCallId ← approval.toolCallId.mapM (metadataTextSchema ν isDatetime "approval tool call id")
  let sessionId ← metadataTextSchema ν isDatetime "approval session id" approval.sessionId
  let turnId ← metadataTextSchema ν isDatetime "approval turn id" approval.turnId
  let requestedAction ← metadataTextSchema ν isDatetime "approval requested action" approval.requestedAction
  guard (approval.allowedApprovers ≠ [])
  let allowedApprovers ← approval.allowedApprovers.mapM (metadataTextSchema ν isDatetime "allowed approver")
  let expiresAt ← approval.expiresAt.mapM (datetimeSchema isDatetime)
  let decidedBy ← approval.decidedBy.mapM (metadataTextSchema ν isDatetime "approval decided by")
  let decidedAt ← approval.decidedAt.mapM (datetimeSchema isDatetime)
  let reason ← approval.reason.mapM (metadataTextSchema ν isDatetime "approval reason")
  return {
    approvalRequestId := approvalRequestId
    toolCallId := toolCallId
    sessionId := sessionId
    turnId := turnId
    requestedAction := requestedAction
    risk := approval.risk
    allowedApprovers := allowedApprovers
    expiresAt := expiresAt
    status := approval.status
    decidedBy := decidedBy
    decidedAt := decidedAt
    reason := reason }

def uiControlSnapshotSchema (snapshot : UiControlSnapshot String) : Option (UiControlSnapshot Text) := do
  let sessions ← snapshot.sessions.mapM (uiSessionSummarySchema ν isDatetime)
  let sessionTree ← snapshot.sessionTree.mapM (uiSessionTreeNodeSchema ν isDatetime)
  let activeTurns ← snapshot.activeTurns.mapM (uiActiveTurnSummarySchema ν isDatetime)
  let approvals ← snapshot.approvals.mapM (uiApprovalSummarySchema ν isDatetime)
  return { sessions := sessions, sessionTree := sessionTree, activeTurns := activeTurns, approvals := approvals }

end Schemas

section Parsed
variable {ν : Type} [JsNumber ν] {isDatetime : Text → Bool}

/-- A text that passes is shown without the white space at its ends. -/
theorem metadataTextSchema_eq {label value : String} {text : Text}
    (h : metadataTextSchema ν isDatetime label value = some text) : text = (Text.of value).trim := by
  unfold metadataTextSchema at h
  cases hs : sanitizeMetadataText ν isDatetime (Text.of value) label defaultMetadataTextMaxBytes with
  | error message =>
    rw [hs] at h
    cases h
  | ok sanitized =>
    rw [hs] at h
    cases h
    exact (sanitizeMetadataText_eq_ok.mp hs).2

/-- The label is for the message of an issue only. -/
theorem metadataTextSchema_label (label label' value : String) :
    metadataTextSchema ν isDatetime label value = metadataTextSchema ν isDatetime label' value := by
  have hsame : ∀ text, sanitizeMetadataText ν isDatetime (Text.of value) label defaultMetadataTextMaxBytes = .ok text ↔
      sanitizeMetadataText ν isDatetime (Text.of value) label' defaultMetadataTextMaxBytes = .ok text := by
    intro text
    rw [sanitizeMetadataText_eq_ok, sanitizeMetadataText_eq_ok]
  unfold metadataTextSchema
  cases h : sanitizeMetadataText ν isDatetime (Text.of value) label' defaultMetadataTextMaxBytes with
  | ok text => rw [(hsame text).mpr h]
  | error message =>
    cases h' : sanitizeMetadataText ν isDatetime (Text.of value) label defaultMetadataTextMaxBytes with
    | ok text => cases h.symm.trans ((hsame text).mp h')
    | error message' => rfl

variable (ν isDatetime) in
/-- A text that the schema accepts. -/
def PassesText (value : String) : Prop := ∀ label, (metadataTextSchema ν isDatetime label value).isSome

theorem passesText_of_eq {label value : String} {text : Text} (h : metadataTextSchema ν isDatetime label value = some text) :
    PassesText ν isDatetime value := by
  intro label'
  rw [metadataTextSchema_label label' label, h]
  rfl

theorem PassesText.exists_text {value : String} (h : PassesText ν isDatetime value) (label : String) :
    ∃ text, metadataTextSchema ν isDatetime label value = some text :=
  Option.isSome_iff_exists.mp (h label)

theorem passesText_of_mapM {label : String} {value : Option String} {text : Option Text}
    (h : value.mapM (metadataTextSchema ν isDatetime label) = some text) : ∀ v, value = some v → PassesText ν isDatetime v := by
  rintro v rfl
  obtain ⟨t,ht,-⟩ := Option.map_eq_some_iff.mp h
  exact passesText_of_eq ht

theorem exists_mapM_of_passesText {value : Option String} (h : ∀ v, value = some v → PassesText ν isDatetime v) (label : String) :
    ∃ text, value.mapM (metadataTextSchema ν isDatetime label) = some text := by
  cases value with
  | none => exact ⟨none,rfl⟩
  | some v =>
    obtain ⟨t,ht⟩ := (h v rfl).exists_text label
    exact ⟨some t,Option.map_eq_some_iff.mpr ⟨t,ht,rfl⟩⟩

/-- What a row of the sessions keeps of the summary that it is parsed from. -/
theorem uiSessionSummarySchema_eq {summary : UiSessionSummary String} {row : UiSessionSummary Text}
    (h : uiSessionSummarySchema ν isDatetime summary = some row) :
    row.sessionId = (Text.of summary.sessionId).trim ∧ row.pendingApprovalCount = summary.pendingApprovalCount := by
  simp only [uiSessionSummarySchema, Option.bind_eq_bind, Option.bind_eq_some_iff] at h
  obtain ⟨sessionId,hid,_,-,_,-,_,-,_,-,_,-,_,-,h⟩ := h
  cases h
  exact ⟨metadataTextSchema_eq hid,rfl⟩

/-- The texts of a summary that passes. -/
theorem uiSessionSummarySchema_passes {summary : UiSessionSummary String} {row : UiSessionSummary Text}
    (h : uiSessionSummarySchema ν isDatetime summary = some row) :
    PassesText ν isDatetime summary.sessionId ∧ PassesText ν isDatetime summary.title ∧
      (∀ parent, summary.parentSessionId = some parent → PassesText ν isDatetime parent) ∧
      (∀ root, summary.rootSessionId = some root → PassesText ν isDatetime root) ∧
      ∀ packet, summary.handoffPacketId = some packet → PassesText ν isDatetime packet := by
  simp only [uiSessionSummarySchema, Option.bind_eq_bind, Option.bind_eq_some_iff] at h
  obtain ⟨_,hid,_,htitle,_,-,_,hparent,_,hroot,_,hpacket,_,-,-⟩ := h
  exact ⟨passesText_of_eq hid,passesText_of_eq htitle,passesText_of_mapM hparent,passesText_of_mapM hroot,
    passesText_of_mapM hpacket⟩

/-- A node passes where its texts do. -/
theorem uiSessionTreeNodeSchema_of_passes {node : UiSessionTreeNode String} (hid : PassesText ν isDatetime node.sessionId)
    (hparent : ∀ parent, node.parentSessionId = some parent → PassesText ν isDatetime parent)
    (hroot : PassesText ν isDatetime node.rootSessionId) (htitle : PassesText ν isDatetime node.title)
    (hchildren : ∀ child ∈ node.childSessionIds, PassesText ν isDatetime child)
    (hpacket : ∀ packet, node.handoffPacketId = some packet → PassesText ν isDatetime packet) :
    ∃ row, uiSessionTreeNodeSchema ν isDatetime node = some row := by
  obtain ⟨_,hid⟩ := hid.exists_text "tree session id"
  obtain ⟨_,hparent⟩ := exists_mapM_of_passesText hparent "tree parent session id"
  obtain ⟨_,hroot⟩ := hroot.exists_text "tree root session id"
  obtain ⟨_,htitle⟩ := htitle.exists_text "tree title"
  obtain ⟨_,hchildren⟩ := exists_mapM_eq_some fun child hchild => (hchildren child hchild).exists_text "child session id"
  obtain ⟨_,hpacket⟩ := exists_mapM_of_passesText hpacket "tree handoff packet id"
  simp only [uiSessionTreeNodeSchema, hid, hparent, hroot, htitle, hchildren, hpacket, Option.bind_eq_bind, Option.bind_some]
  exact ⟨_,rfl⟩

/-- What a node of the tree keeps. -/
theorem uiSessionTreeNodeSchema_eq {node : UiSessionTreeNode String} {row : UiSessionTreeNode Text}
    (h : uiSessionTreeNodeSchema ν isDatetime node = some row) :
    row.sessionId = (Text.of node.sessionId).trim ∧ row.rootSessionId = (Text.of node.rootSessionId).trim ∧
      row.depth = node.depth ∧ row.pendingApprovalCount = node.pendingApprovalCount := by
  simp only [uiSessionTreeNodeSchema, Option.bind_eq_bind, Option.bind_eq_some_iff] at h
  obtain ⟨sessionId,hid,_,-,root,hroot,_,-,_,-,_,-,h⟩ := h
  cases h
  exact ⟨metadataTextSchema_eq hid,metadataTextSchema_eq hroot,rfl,rfl⟩

/-- An active turn passes exactly where its ids do. -/
theorem uiActiveTurnSummarySchema_isSome_iff {turn : UiActiveTurn String} :
    (uiActiveTurnSummarySchema ν isDatetime turn).isSome ↔ PassesText ν isDatetime turn.sessionId ∧
      PassesText ν isDatetime turn.turnId ∧
      ∀ request, turn.pendingApprovalRequestId = some request → PassesText ν isDatetime request := by
  constructor
  · intro h
    obtain ⟨row,hrow⟩ := Option.isSome_iff_exists.mp h
    simp only [uiActiveTurnSummarySchema, Option.bind_eq_bind, Option.bind_eq_some_iff] at hrow
    obtain ⟨_,hid,_,hturn,_,hrequest,-⟩ := hrow
    exact ⟨passesText_of_eq hid,passesText_of_eq hturn,passesText_of_mapM hrequest⟩
  · rintro ⟨hid,hturn,hrequest⟩
    obtain ⟨_,hid⟩ := hid.exists_text "active turn session id"
    obtain ⟨_,hturn⟩ := hturn.exists_text "active turn id"
    obtain ⟨_,hrequest⟩ := exists_mapM_of_passesText hrequest "pending approval request id"
    simp only [uiActiveTurnSummarySchema, hid, hturn, hrequest, Option.bind_eq_bind, Option.bind_some]
    rfl

/-- What a row of the approvals keeps. -/
theorem uiApprovalSummarySchema_eq {approval : UiApproval String} {row : UiApproval Text}
    (h : uiApprovalSummarySchema ν isDatetime approval = some row) :
    row.sessionId = (Text.of approval.sessionId).trim ∧ row.turnId = (Text.of approval.turnId).trim ∧
      row.approvalRequestId = (Text.of approval.approvalRequestId).trim ∧ row.status = approval.status := by
  simp only [uiApprovalSummarySchema, Option.bind_eq_bind, Option.bind_eq_some_iff] at h
  obtain ⟨requestId,hrequest,_,-,sessionId,hid,turnId,hturn,_,-,_,-,_,-,_,-,_,-,_,-,_,-,h⟩ := h
  cases h
  exact ⟨metadataTextSchema_eq hid,metadataTextSchema_eq hturn,metadataTextSchema_eq hrequest,rfl⟩

/-- The request id of an approval that passes. -/
theorem uiApprovalSummarySchema_passes {approval : UiApproval String} {row : UiApproval Text}
    (h : uiApprovalSummarySchema ν isDatetime approval = some row) : PassesText ν isDatetime approval.approvalRequestId := by
  obtain ⟨_,hrequest,-⟩ := Option.bind_eq_some_iff.mp h
  exact passesText_of_eq hrequest

/-- Each section of a parsed snapshot has the rows of the section that it is parsed from, in its order. -/
theorem uiControlSnapshotSchema_eq_some {raw : UiControlSnapshot String} {snapshot : UiControlSnapshot Text} :
    uiControlSnapshotSchema ν isDatetime raw = some snapshot ↔
      List.Forall₂ (fun summary row => uiSessionSummarySchema ν isDatetime summary = some row) raw.sessions snapshot.sessions ∧
      List.Forall₂ (fun node row => uiSessionTreeNodeSchema ν isDatetime node = some row) raw.sessionTree snapshot.sessionTree ∧
      List.Forall₂ (fun turn row => uiActiveTurnSummarySchema ν isDatetime turn = some row) raw.activeTurns snapshot.activeTurns ∧
      List.Forall₂ (fun approval row => uiApprovalSummarySchema ν isDatetime approval = some row) raw.approvals snapshot.approvals := by
  simp only [uiControlSnapshotSchema, Option.bind_eq_bind, Option.bind_eq_some_iff, ← mapM_eq_some]
  constructor
  · rintro ⟨sessions,hsessions,tree,htree,turns,hturns,approvals,happrovals,h⟩
    cases h
    exact ⟨hsessions,htree,hturns,happrovals⟩
  · rintro ⟨hsessions,htree,hturns,happrovals⟩
    exact ⟨_,hsessions,_,htree,_,hturns,_,happrovals,rfl⟩

/-- A snapshot passes where its rows do. -/
theorem uiControlSnapshotSchema_of_passes {raw : UiControlSnapshot String}
    (hsessions : ∀ summary ∈ raw.sessions, ∃ row, uiSessionSummarySchema ν isDatetime summary = some row)
    (hnodes : ∀ node ∈ raw.sessionTree, ∃ row, uiSessionTreeNodeSchema ν isDatetime node = some row)
    (hturns : ∀ turn ∈ raw.activeTurns, ∃ row, uiActiveTurnSummarySchema ν isDatetime turn = some row)
    (happrovals : ∀ approval ∈ raw.approvals, ∃ row, uiApprovalSummarySchema ν isDatetime approval = some row) :
    (uiControlSnapshotSchema ν isDatetime raw).isSome := by
  obtain ⟨_,hsessions⟩ := exists_mapM_eq_some hsessions
  obtain ⟨_,hnodes⟩ := exists_mapM_eq_some hnodes
  obtain ⟨_,hturns⟩ := exists_mapM_eq_some hturns
  obtain ⟨_,happrovals⟩ := exists_mapM_eq_some happrovals
  simp only [uiControlSnapshotSchema, hsessions, hnodes, hturns, happrovals, Option.bind_eq_bind, Option.bind_some]
  rfl

end Parsed
end OmniagentPlus.CoreContracts
