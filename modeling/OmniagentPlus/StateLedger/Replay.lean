import OmniagentPlus.CoreContracts.UiReadModel
import OmniagentPlus.StateLedger.Retention

/-! `replay.ts`: the replay of one session and the control snapshot of all sessions, turns and
approvals, each folded from the ledger's records. -/
namespace OmniagentPlus.StateLedger
open OmniagentPlus.Foundation OmniagentPlus.CoreContracts

def sortBySequence (records : List StateLedgerEntry) : List StateLedgerEntry :=
  records.mergeSort fun left right => decide (left.sequence ≤ right.sequence)

def latestMap {κ : Type} [DecidableEq κ] (keyFor : StateLedgerEntry → κ) (records : List StateLedgerEntry) :
    Dictionary κ StateLedgerEntry :=
  Dictionary.indexBy keyFor (sortBySequence records)

def latestByKey {κ : Type} [DecidableEq κ] (records : List StateLedgerEntry)
    (keyFor : StateLedgerEntry → κ) : List StateLedgerEntry :=
  (latestMap keyFor records).values

def sessionPayload (r : StateLedgerEntry) : Option AgentSession :=
  match r.payload with | .session p => some p | _ => none
def turnPayload (r : StateLedgerEntry) : Option TurnHandle :=
  match r.payload with | .turn p => some p | _ => none
def eventPayload (r : StateLedgerEntry) : Option RuntimeEvent :=
  match r.payload with | .runtimeEvent p => some p | _ => none
def routePayload (r : StateLedgerEntry) : Option RouteDecision :=
  match r.payload with | .routeDecision p => some p | _ => none
def requestPayload (r : StateLedgerEntry) : Option RuntimeApprovalRequest :=
  match r.payload with | .approvalRequest p => some p | _ => none
def responsePayload (r : StateLedgerEntry) : Option RuntimeApprovalResponse :=
  match r.payload with | .approvalResponse p => some p | _ => none
def evidencePayload (r : StateLedgerEntry) : Option String :=
  match r.payload with | .evidenceRef rest => some rest | _ => none

def ofKind (records : List StateLedgerEntry) (kind : StateLedgerRecordKind) : List StateLedgerEntry :=
  records.filter fun r => decide (r.kind = kind)

structure SessionHistory where
  sessionId : String
  events : List RuntimeEvent
  nextCursor : Option ℕ
  deriving DecidableEq, Repr

def historyFromRecords (records : List StateLedgerEntry) (sessionId : String) : SessionHistory :=
  let events := (records.filter fun r => decide (r.kind = .runtimeEvent) && r.sessionId == some sessionId).filterMap
    eventPayload
  { sessionId := sessionId
    events := events
    nextCursor := if events.isEmpty then none else some (events.foldl (fun m e => max m e.sequence) 0 + 1) }

structure SessionReplay where
  session : Option AgentSession
  turns : List TurnHandle
  history : SessionHistory
  routeDecisions : List RouteDecision
  approvalRequests : List RuntimeApprovalRequest
  approvalResponses : List RuntimeApprovalResponse
  evidenceRefs : List String
  deriving DecidableEq, Repr

/-- The id of the approval request that a record makes or answers. -/
def approvalId (r : StateLedgerEntry) : Option String :=
  ((requestPayload r).map (·.approvalRequestId)).or ((responsePayload r).map (·.approvalRequestId))

/-- A route decision of the session, or of a task of the session when no session is named. -/
def routeOfSession (sessionId : String) (taskIds : List String) (r : StateLedgerEntry) : Bool :=
  decide (r.kind = .routeDecision) && (r.sessionId == some sessionId ||
    (r.sessionId.isNone && r.taskId.any fun task => taskIds.contains task))

def replaySession (allRecords : List StateLedgerEntry) (sessionId : String) : SessionReplay :=
  let records := allRecords.filter fun r => r.sessionId == some sessionId
  let taskIds := records.filterMap fun r => truthy r.taskId
  { session := (ofKind records .session).getLast?.bind sessionPayload
    turns := (latestByKey (ofKind records .turn) fun r => (r.sessionId,r.turnId)).filterMap turnPayload
    history := historyFromRecords records sessionId
    routeDecisions := (allRecords.filter (routeOfSession sessionId taskIds)).filterMap routePayload
    approvalRequests := (latestByKey (ofKind records .approvalRequest)
      fun r => (r.sessionId,r.turnId,approvalId r)).filterMap requestPayload
    approvalResponses := (latestByKey (ofKind records .approvalResponse)
      fun r => (r.sessionId,r.turnId,approvalId r)).filterMap responsePayload
    evidenceRefs := (ofKind records .evidenceRef).filterMap evidencePayload }

/-- The loop that `sessionRootId` and `sessionDepth` share: up the parents, not twice through
one session. It returns the steps taken and the session it stopped at. -/
def walkParents (sessionsById : Dictionary String AgentSession) :
    ℕ → Finset String → ℕ → Option AgentSession → ℕ × Option AgentSession
  | 0, _, steps, current => (steps,current)
  | fuel + 1, seen, steps, current =>
    match current with
    | none => (steps,none)
    | some session =>
      match truthy session.parentSessionId with
      | none => (steps,some session)
      | some parent =>
        if session.id ∈ seen then (steps,some session)
        else walkParents sessionsById fuel (insert session.id seen) (steps + 1) (sessionsById.get? parent)

/-- More steps than there are sessions are never taken. -/
def walkFuel (sessionsById : Dictionary String AgentSession) : ℕ := sessionsById.entries.length + 2

def sessionRootId (session : AgentSession) (sessionsById : Dictionary String AgentSession) : String :=
  match truthy session.rootSessionId with
  | some root => root
  | none => ((walkParents sessionsById (walkFuel sessionsById) ∅ 0 (some session)).2.map (·.id)).getD session.id

def sessionDepth (session : AgentSession) (sessionsById : Dictionary String AgentSession) : ℕ :=
  (walkParents sessionsById (walkFuel sessionsById) ∅ 0 (some session)).1

/-- `JSON.stringify([sessionId, turnId, approvalRequestId])` of a request. -/
abbrev ApprovalKey := Option String × Option String × Option String

def requestKey (p : RuntimeApprovalRequest) : ApprovalKey :=
  (some p.sessionId,some p.turnId,some p.approvalRequestId)

def approvalResponsesById (sorted : List StateLedgerEntry) : Dictionary ApprovalKey StateLedgerEntry :=
  latestMap (fun r => (r.sessionId,r.turnId,approvalId r)) (ofKind sorted .approvalResponse)

def findResponse (responses : Dictionary ApprovalKey StateLedgerEntry) (p : RuntimeApprovalRequest) :
    Option RuntimeApprovalResponse :=
  (responses.get? (requestKey p)).bind responsePayload

def approvalRequests (sorted : List StateLedgerEntry) : List RuntimeApprovalRequest :=
  (sortBySequence (ofKind sorted .approvalRequest)).filterMap requestPayload

def approvalSummary (response : Option RuntimeApprovalResponse) (p : RuntimeApprovalRequest) : UiApproval String :=
  { approvalRequestId := p.approvalRequestId
    toolCallId := p.toolCallId
    sessionId := p.sessionId
    turnId := p.turnId
    requestedAction := p.requestedAction
    risk := p.risk
    allowedApprovers := p.allowedApprovers
    expiresAt := p.expiresAt
    status := response.elim .pending fun r => .decided r.decision
    decidedBy := response.bind (·.decidedBy)
    decidedAt := response.map (·.decidedAt)
    reason := response.bind (·.reason) }

/-- The payloads of `sessionRecords`. -/
def latestSessions (sorted : List StateLedgerEntry) : List AgentSession :=
  (latestByKey (ofKind sorted .session) fun r => (sessionPayload r).map (·.id)).filterMap sessionPayload

def sessionsById (sorted : List StateLedgerEntry) : Dictionary String AgentSession :=
  Dictionary.indexBy (·.id) (latestSessions sorted)

/-- `localeCompare` of the first texts that differ. -/
def compareTexts (localeCompare : String → String → Ordering) : List (String × String) → Bool
  | [] => true
  | (left,right) :: rest =>
    match localeCompare left right with
    | .lt => true
    | .gt => false
    | .eq => compareTexts localeCompare rest

section Snapshot
variable (localeCompare : String → String → Ordering) (sorted : List StateLedgerEntry)

def pendingRequests : List RuntimeApprovalRequest :=
  (approvalRequests sorted).filter fun p => !((approvalResponsesById sorted).get? (requestKey p)).isSome

def latestTurns : List TurnHandle :=
  (latestByKey (ofKind sorted .turn) fun r => (turnPayload r).map fun t => (t.sessionId,t.turnId)).filterMap
    turnPayload

def sessionSummary (session : AgentSession) : UiSessionSummary String :=
  { sessionId := session.id
    title := session.title
    state := session.state
    createdAt := session.createdAt
    parentSessionId := session.parentSessionId
    rootSessionId := session.rootSessionId
    activeTurnCount := (latestTurns sorted).countP fun t =>
      !TurnState.terminal t.state && t.sessionId == session.id
    pendingApprovalCount := (pendingRequests sorted).countP fun p => p.sessionId == session.id
    eventCount := (sorted.filterMap eventPayload).countP fun e => e.sessionId == session.id
    evidenceRefCount := (ofKind sorted .evidenceRef).countP fun r => r.sessionId == some session.id
    handoffPacketId := session.handoffPacket.map Prod.fst
    worktreeLeaseId := session.worktree }

def sessionSummaries : List (UiSessionSummary String) :=
  ((latestSessions sorted).map (sessionSummary sorted)).mergeSort fun left right =>
    compareTexts localeCompare [(left.createdAt,right.createdAt),(left.sessionId,right.sessionId)]

/-- `none` is the throw for a summary without a session. -/
def treeNode (summary : UiSessionSummary String) : Option (UiSessionTreeNode String) :=
  ((sessionsById sorted).get? summary.sessionId).map fun session =>
    { sessionId := summary.sessionId
      parentSessionId := summary.parentSessionId
      rootSessionId := sessionRootId session (sessionsById sorted)
      depth := sessionDepth session (sessionsById sorted)
      title := summary.title
      state := summary.state
      childSessionIds := (((sessionSummaries localeCompare sorted).filter fun candidate =>
        candidate.parentSessionId == some summary.sessionId).map (·.sessionId)).mergeSort fun left right =>
          compareTexts localeCompare [(left,right)]
      activeTurnCount := summary.activeTurnCount
      pendingApprovalCount := summary.pendingApprovalCount
      handoffPacketId := summary.handoffPacketId }

def sessionTree : Option (List (UiSessionTreeNode String)) :=
  ((sessionSummaries localeCompare sorted).mapM (treeNode localeCompare sorted)).map fun nodes =>
    nodes.mergeSort fun left right => decide (left.depth < right.depth) ||
      (left.depth == right.depth && compareTexts localeCompare [(left.sessionId,right.sessionId)])

def activeTurns : List (UiActiveTurn String) :=
  let pendingApprovalByTurn := Dictionary.indexBy (fun p : RuntimeApprovalRequest => (p.sessionId,p.turnId))
    (pendingRequests sorted)
  (((latestTurns sorted).filter fun t => !TurnState.terminal t.state).map fun t =>
    { sessionId := t.sessionId
      turnId := t.turnId
      state := t.state
      pendingApprovalRequestId := (pendingApprovalByTurn.get? (t.sessionId,t.turnId)).map
        (·.approvalRequestId) : UiActiveTurn String }).mergeSort fun left right =>
    compareTexts localeCompare [(left.sessionId,right.sessionId),(left.turnId,right.turnId)]

def approvals : List (UiApproval String) :=
  ((approvalRequests sorted).map fun p =>
    approvalSummary (findResponse (approvalResponsesById sorted) p) p).mergeSort fun left right =>
    compareTexts localeCompare [(left.sessionId,right.sessionId),(left.turnId,right.turnId),
      (left.approvalRequestId,right.approvalRequestId)]

end Snapshot

/-- The sessions, their tree, the active turns and the approvals of `buildUiControlSnapshot`, or `none` where it
throws; `othersPass` says whether the fields and sections that are left out here pass the schema. -/
def buildUiControlSnapshot (ν : Type) [JsNumber ν] (isDatetime : Text → Bool) (othersPass : List StateLedgerEntry → Bool)
    (localeCompare : String → String → Ordering) (records : List StateLedgerEntry) : Option (UiControlSnapshot Text) := do
  let sorted := sortBySequence records
  let tree ← sessionTree localeCompare sorted
  guard (othersPass sorted)
  uiControlSnapshotSchema ν isDatetime {
    sessions := sessionSummaries localeCompare sorted
    sessionTree := tree
    activeTurns := activeTurns localeCompare sorted
    approvals := approvals localeCompare sorted }

end OmniagentPlus.StateLedger
