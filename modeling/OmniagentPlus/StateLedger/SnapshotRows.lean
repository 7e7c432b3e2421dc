import OmniagentPlus.StateLedger.SnapshotFold

/-! The rows of the control snapshot. The schema accepts the snapshot where it accepts what is shown of each session,
active turn and request; the snapshot then has a row for each of them and no others. -/
namespace OmniagentPlus.StateLedger
open OmniagentPlus.Foundation OmniagentPlus.CoreContracts

section Rows
variable (ν : Type) [JsNumber ν] (isDatetime : Text → Bool) (localeCompare : String → String → Ordering)
  (records : List StateLedgerEntry)

/-- The row that a snapshot of records in sequence order has for a request. -/
def approvalRow (p : RuntimeApprovalRequest) : Option (UiApproval Text) :=
  uiApprovalSummarySchema ν isDatetime (approvalSummary (findResponse (approvalResponsesById records) p) p)

/-- The row that it has for a session. -/
def summaryRow (session : AgentSession) : Option (UiSessionSummary Text) :=
  uiSessionSummarySchema ν isDatetime (sessionSummary records session)

/-- The node that it has for a session. -/
def nodeRow (session : AgentSession) : Option (UiSessionTreeNode Text) :=
  (treeNode localeCompare records (sessionSummary records session)).bind (uiSessionTreeNodeSchema ν isDatetime)

/-- The snapshot has a row for each request, and a row and a node for each session, and no others. -/
structure RowsOf (snapshot : UiControlSnapshot Text) : Prop where
  requests : List.Forall₂ (fun approval row => uiApprovalSummarySchema ν isDatetime approval = some row)
    (approvals localeCompare records) snapshot.approvals
  sessions : ∀ row, row ∈ snapshot.sessions ↔
    ∃ p, latestSession records p.id = some p ∧ summaryRow ν isDatetime records p = some row
  nodes : ∀ row, row ∈ snapshot.sessionTree ↔
    ∃ p, latestSession records p.id = some p ∧ nodeRow ν isDatetime localeCompare records p = some row
  shown : ∀ p, latestSession records p.id = some p → ∃ row, nodeRow ν isDatetime localeCompare records p = some row

variable {ν isDatetime localeCompare records}

lemma mem_sessionSummaries (h : InOrder records) (s : UiSessionSummary String) :
    s ∈ sessionSummaries localeCompare records ↔
      ∃ p, latestSession records p.id = some p ∧ s = sessionSummary records p := by
  simp only [sessionSummaries, List.mem_mergeSort, List.mem_map, mem_latestSessions h, eq_comm]

/-- A node has the root and the depth of the newest record of its session. -/
lemma treeNode_sessionSummary (h : InOrder records) {p : AgentSession} (hp : latestSession records p.id = some p) :
    ∃ node, treeNode localeCompare records (sessionSummary records p) = some node ∧ node.sessionId = p.id ∧
      node.rootSessionId = sessionRootId p (sessionsById records) ∧ node.depth = sessionDepth p (sessionsById records) ∧
      node.pendingApprovalCount = (sessionSummary records p).pendingApprovalCount := by
  refine ⟨_,Option.map_eq_some_iff.mpr ⟨p,?_,rfl⟩,rfl,rfl,rfl,rfl⟩
  rw [get?_sessionsById h]
  exact hp

theorem nodeRow_eq (h : InOrder records) {p : AgentSession} (hp : latestSession records p.id = some p)
    {row : UiSessionTreeNode Text} (hrow : nodeRow ν isDatetime localeCompare records p = some row) :
    row.sessionId = (Text.of p.id).trim ∧ row.rootSessionId = (Text.of (sessionRootId p (sessionsById records))).trim ∧
      row.depth = sessionDepth p (sessionsById records) ∧
      row.pendingApprovalCount = (sessionSummary records p).pendingApprovalCount := by
  obtain ⟨node,hnode,hid,hroot,hdepth,hcount⟩ : ∃ node, treeNode localeCompare records (sessionSummary records p) = some node ∧ _ :=
    treeNode_sessionSummary h hp
  rw [nodeRow, hnode, Option.bind_some] at hrow
  have hkept := uiSessionTreeNodeSchema_eq hrow
  rwa [hid, hroot, hdepth, hcount] at hkept

variable {othersPass : List StateLedgerEntry → Bool} {snapshot : UiControlSnapshot Text}

theorem buildUiControlSnapshot_rows (h : InOrder records)
    (hbuild : buildUiControlSnapshot ν isDatetime othersPass localeCompare records = some snapshot) :
    RowsOf ν isDatetime localeCompare records snapshot := by
  simp only [buildUiControlSnapshot, sortBySequence_eq h, Option.bind_eq_bind, Option.bind_eq_some_iff] at hbuild
  obtain ⟨tree,htree,_,-,hparsed⟩ := hbuild
  obtain ⟨hsessions,hnodes,-,happrovals⟩ := uiControlSnapshotSchema_eq_some.mp hparsed
  obtain ⟨nodes,hmap,rfl⟩ := Option.map_eq_some_iff.mp htree
  rw [mapM_eq_some] at hmap
  constructor
  · exact happrovals
  · intro row
    constructor
    · intro hrow
      obtain ⟨s,hs,hparse⟩ := forall₂_mem_right hsessions hrow
      obtain ⟨p,hp,rfl⟩ := (mem_sessionSummaries h s).mp hs
      exact ⟨p,hp,hparse⟩
    · rintro ⟨p,hp,hparse⟩
      obtain ⟨row',hrow',hparse'⟩ := forall₂_mem_left hsessions ((mem_sessionSummaries h _).mpr ⟨p,hp,rfl⟩)
      rw [summaryRow, hparse'] at hparse
      exact Option.some.inj hparse ▸ hrow'
  · intro row
    constructor
    · intro hrow
      obtain ⟨node,hnode,hparse⟩ := forall₂_mem_right hnodes hrow
      obtain ⟨s,hs,hnode⟩ := forall₂_mem_right hmap (List.mem_mergeSort.mp hnode)
      obtain ⟨p,hp,rfl⟩ := (mem_sessionSummaries h s).mp hs
      exact ⟨p,hp,by rw [nodeRow, hnode]; exact hparse⟩
    · rintro ⟨p,hp,hparse⟩
      obtain ⟨node,hnode,htreeNode⟩ := forall₂_mem_left hmap ((mem_sessionSummaries h _).mpr ⟨p,hp,rfl⟩)
      obtain ⟨row',hrow',hparse'⟩ := forall₂_mem_left hnodes (List.mem_mergeSort.mpr hnode)
      rw [nodeRow, htreeNode, Option.bind_some, hparse'] at hparse
      exact Option.some.inj hparse ▸ hrow'
  · intro p hp
    obtain ⟨node,hnode,htreeNode⟩ := forall₂_mem_left hmap ((mem_sessionSummaries h _).mpr ⟨p,hp,rfl⟩)
    obtain ⟨row,-,hparse⟩ := forall₂_mem_left hnodes (List.mem_mergeSort.mpr hnode)
    exact ⟨row,by rw [nodeRow, htreeNode]; exact hparse⟩

/-- The rows of the approvals are those of the requests. -/
theorem RowsOf.mem_approvals (hrows : RowsOf ν isDatetime localeCompare records snapshot) (row : UiApproval Text) :
    row ∈ snapshot.approvals ↔ ∃ p ∈ approvalRequests records, approvalRow ν isDatetime records p = some row := by
  have hmem : ∀ a, a ∈ approvals localeCompare records ↔ ∃ p ∈ approvalRequests records,
      approvalSummary (findResponse (approvalResponsesById records) p) p = a := by
    simp [approvals, List.mem_mergeSort, List.mem_map]
  constructor
  · intro hrow
    obtain ⟨a,ha,hparse⟩ := forall₂_mem_right hrows.requests hrow
    obtain ⟨p,hp,rfl⟩ := (hmem a).mp ha
    exact ⟨p,hp,hparse⟩
  · rintro ⟨p,hp,hparse⟩
    obtain ⟨row',hrow',hparse'⟩ := forall₂_mem_left hrows.requests ((hmem _).mpr ⟨p,hp,rfl⟩)
    rw [approvalRow, hparse'] at hparse
    exact Option.some.inj hparse ▸ hrow'

theorem RowsOf.exists_approvalRow (hrows : RowsOf ν isDatetime localeCompare records snapshot) {p : RuntimeApprovalRequest}
    (hp : p ∈ approvalRequests records) : ∃ row, approvalRow ν isDatetime records p = some row := by
  have hmem : approvalSummary (findResponse (approvalResponsesById records) p) p ∈ approvals localeCompare records :=
    List.mem_mergeSort.mpr (List.mem_map.mpr ⟨p,hp,rfl⟩)
  obtain ⟨row,-,hparse⟩ := forall₂_mem_left hrows.requests hmem
  exact ⟨row,hparse⟩

/-- A session at which a walk stops is one of those that are held. -/
theorem walkParents_held {sessions : Dictionary String AgentSession} (hk : Keyed sessions) {fuel steps : ℕ}
    {seen : Finset String} {current : Option AgentSession} (hc : Held sessions current) :
    Held sessions (walkParents sessions fuel seen steps current).2 := by
  induction fuel generalizing seen steps current with
  | zero => exact hc
  | succ fuel ih =>
    cases current with
    | none => exact hc
    | some p =>
      rw [walkParents]
      cases truthy p.parentSessionId with
      | none => exact hc
      | some parent =>
        dsimp only
        split_ifs
        · exact hc
        · refine ih fun q hq => ?_
          rw [hk parent q hq]
          exact hq

/-- The root of a session is the one that it declares or a recorded session. -/
theorem sessionRootId_cases {sessions : Dictionary String AgentSession} (hk : Keyed sessions) {p : AgentSession}
    (hp : sessions.get? p.id = some p) : p.rootSessionId = some (sessionRootId p sessions) ∨
      ∃ q, sessions.get? q.id = some q ∧ sessionRootId p sessions = q.id := by
  unfold sessionRootId
  cases hroot : truthy p.rootSessionId with
  | some root => exact .inl (Option.filter_eq_some_iff.mp hroot).1
  | none =>
    right
    have hheld : Held sessions (walkParents sessions (walkFuel sessions) ∅ 0 (some p)).2 :=
      walkParents_held hk fun q hq => by cases hq; exact hp
    cases hend : (walkParents sessions (walkFuel sessions) ∅ 0 (some p)).2 with
    | none => exact ⟨p,hp,rfl⟩
    | some q => exact ⟨q,hheld q hend,rfl⟩

/-- The node of a session passes where the rows of all sessions do. -/
theorem nodeRow_of_summaryRow (h : InOrder records)
    (hsessions : ∀ p ∈ latestSessions records, (summaryRow ν isDatetime records p).isSome) {p : AgentSession}
    (hp : p ∈ latestSessions records) : ∃ row, nodeRow ν isDatetime localeCompare records p = some row := by
  have hpasses : ∀ q ∈ latestSessions records, ∃ row, uiSessionSummarySchema ν isDatetime (sessionSummary records q) = some row :=
    fun q hq => Option.isSome_iff_exists.mp (hsessions q hq)
  have hid : ∀ q, latestSession records q.id = some q → PassesText ν isDatetime q.id := by
    intro q hq
    obtain ⟨_,hrow⟩ := hpasses q ((mem_latestSessions h q).mpr hq)
    exact (uiSessionSummarySchema_passes hrow).1
  have hlookup : (sessionsById records).get? (sessionSummary records p).sessionId = some p := by
    rw [get?_sessionsById h]
    exact (mem_latestSessions h p).mp hp
  obtain ⟨_,hrow⟩ := hpasses p hp
  obtain ⟨hself,htitle,hparent,hdeclared,hpacket⟩ := uiSessionSummarySchema_passes hrow
  rw [nodeRow, treeNode, hlookup]
  refine uiSessionTreeNodeSchema_of_passes hself hparent ?_ htitle ?_ hpacket
  · obtain hroot | ⟨q,hq,hroot⟩ := sessionRootId_cases (keyed_sessionsById h) hlookup
    · exact hdeclared _ hroot
    · dsimp only
      rw [hroot]
      rw [get?_sessionsById h] at hq
      exact hid q hq
  · intro child hchild
    rw [List.mem_mergeSort, List.mem_map] at hchild
    obtain ⟨s,hs,rfl⟩ := hchild
    obtain ⟨q,hq,rfl⟩ := (mem_sessionSummaries h s).mp (List.mem_of_mem_filter hs)
    exact hid q hq

/-- The schema accepts the snapshot exactly where it accepts what is shown of each session, active turn and request. -/
theorem buildUiControlSnapshot_isSome_iff (h : InOrder records) :
    (buildUiControlSnapshot ν isDatetime othersPass localeCompare records).isSome ↔ othersPass records ∧
      (∀ p ∈ latestSessions records, (summaryRow ν isDatetime records p).isSome) ∧
      (∀ t ∈ latestTurns records, TurnState.terminal t.state = false →
        PassesText ν isDatetime t.sessionId ∧ PassesText ν isDatetime t.turnId) ∧
      ∀ p ∈ approvalRequests records, (approvalRow ν isDatetime records p).isSome := by
  have hturn : ∀ t ∈ latestTurns records, TurnState.terminal t.state = false → ∃ turn ∈ activeTurns localeCompare records,
      turn.sessionId = t.sessionId ∧ turn.turnId = t.turnId := by
    intro t ht hopen
    exact ⟨_,List.mem_mergeSort.mpr (List.mem_map.mpr ⟨t,List.mem_filter.mpr ⟨ht,by rw [hopen]; rfl⟩,rfl⟩),rfl,rfl⟩
  constructor
  · intro hsome
    obtain ⟨snapshot,hbuild⟩ := Option.isSome_iff_exists.mp hsome
    have hrows := buildUiControlSnapshot_rows h hbuild
    simp only [buildUiControlSnapshot, sortBySequence_eq h, Option.bind_eq_bind, Option.bind_eq_some_iff] at hbuild
    obtain ⟨tree,-,_,hothers,hparsed⟩ := hbuild
    obtain ⟨hsessions,-,hturns,-⟩ := uiControlSnapshotSchema_eq_some.mp hparsed
    refine ⟨by simpa [guard] using hothers,fun p hp => ?_,fun t ht hopen => ?_,fun p hp => ?_⟩
    · have hmem : sessionSummary records p ∈ sessionSummaries localeCompare records :=
        (mem_sessionSummaries h _).mpr ⟨p,(mem_latestSessions h p).mp hp,rfl⟩
      obtain ⟨row,-,hrow⟩ := forall₂_mem_left hsessions hmem
      exact Option.isSome_iff_exists.mpr ⟨row,hrow⟩
    · obtain ⟨turn,hmem,hid,hturnId⟩ := hturn t ht hopen
      obtain ⟨row,-,hrow⟩ := forall₂_mem_left hturns hmem
      have hpasses := uiActiveTurnSummarySchema_isSome_iff.mp (Option.isSome_iff_exists.mpr ⟨row,hrow⟩)
      rw [hid, hturnId] at hpasses
      exact ⟨hpasses.1,hpasses.2.1⟩
    · exact Option.isSome_iff_exists.mpr (hrows.exists_approvalRow hp)
  · rintro ⟨hothers,hsessions,hturns,happrovals⟩
    have hsummaries : ∀ s ∈ sessionSummaries localeCompare records, ∃ p ∈ latestSessions records, s = sessionSummary records p := by
      intro s hs
      obtain ⟨p,hp,rfl⟩ := (mem_sessionSummaries h s).mp hs
      exact ⟨p,(mem_latestSessions h p).mpr hp,rfl⟩
    obtain ⟨nodes,hnodes⟩ : ∃ nodes, (sessionSummaries localeCompare records).mapM (treeNode localeCompare records) = some nodes := by
      refine exists_mapM_eq_some fun s hs => ?_
      obtain ⟨p,hp,rfl⟩ := hsummaries s hs
      obtain ⟨node,hnode,-⟩ := treeNode_sessionSummary h ((mem_latestSessions h p).mp hp)
      exact ⟨node,hnode⟩
    simp only [buildUiControlSnapshot, sortBySequence_eq h, sessionTree, hnodes, hothers, guard, Option.map_some, if_true,
      Option.bind_eq_bind, Option.bind_some, pure]
    refine uiControlSnapshotSchema_of_passes ?_ ?_ ?_ ?_
    · intro s hs
      obtain ⟨p,hp,rfl⟩ := hsummaries s hs
      exact Option.isSome_iff_exists.mp (hsessions p hp)
    · intro node hnode
      obtain ⟨s,hs,hnode⟩ := forall₂_mem_right (mapM_eq_some.mp hnodes) (List.mem_mergeSort.mp hnode)
      obtain ⟨p,hp,rfl⟩ := hsummaries s hs
      obtain ⟨row,hrow⟩ : ∃ row, nodeRow ν isDatetime localeCompare records p = some row :=
        nodeRow_of_summaryRow h hsessions hp
      rw [nodeRow, hnode] at hrow
      exact ⟨row,hrow⟩
    · intro turn hturn
      obtain ⟨t,ht,rfl⟩ := List.mem_map.mp (List.mem_mergeSort.mp hturn)
      obtain ⟨hmem,hopen⟩ := List.mem_filter.mp ht
      obtain ⟨hid,hturnId⟩ := hturns t hmem (by simpa using hopen)
      refine Option.isSome_iff_exists.mp (uiActiveTurnSummarySchema_isSome_iff.mpr ⟨hid,hturnId,fun request hrequest => ?_⟩)
      obtain ⟨p,hp,rfl⟩ := Option.map_eq_some_iff.mp hrequest
      have hpending := (Dictionary.mem_of_get?_indexBy hp).1
      obtain ⟨row,hrow⟩ := Option.isSome_iff_exists.mp (happrovals p (List.mem_of_mem_filter hpending))
      have hpasses := uiApprovalSummarySchema_passes hrow
      exact hpasses
    · intro approval happroval
      obtain ⟨p,hp,rfl⟩ := List.mem_map.mp (List.mem_mergeSort.mp happroval)
      exact Option.isSome_iff_exists.mp (happrovals p hp)

variable (ν isDatetime records) in
/-- What a record brings into the snapshot passes the schema. -/
def recordPasses (r : StateLedgerEntry) : Bool :=
  match r.payload with
  | .session p => (summaryRow ν isDatetime records p).isSome
  | .turn t => (metadataTextSchema ν isDatetime "active turn session id" t.sessionId).isSome &&
      (metadataTextSchema ν isDatetime "active turn id" t.turnId).isSome
  | .approvalRequest p => (uiApprovalSummarySchema ν isDatetime
      (approvalSummary (((latest records).get? (responseKey p)).bind responsePayload) p)).isSome
  | _ => true

/-- A ledger each of whose records passes has a snapshot. -/
theorem exists_snapshot (h : InOrder records) (hothers : othersPass records) (hpass : ∀ r ∈ records, recordPasses ν isDatetime records r) :
    ∃ snapshot, buildUiControlSnapshot ν isDatetime othersPass localeCompare records = some snapshot := by
  refine Option.isSome_iff_exists.mp ((buildUiControlSnapshot_isSome_iff h).mpr ⟨hothers,fun p hp => ?_,fun t ht _ => ?_,fun p hp => ?_⟩)
  · obtain ⟨r,hr,hpayload⟩ := Option.bind_eq_some_iff.mp ((mem_latestSessions h p).mp hp)
    have hr := hpass r (Dictionary.mem_of_get?_indexBy hr).1
    unfold sessionPayload at hpayload
    split at hpayload <;> cases hpayload
    rename_i hkind
    rwa [recordPasses, hkind] at hr
  · obtain ⟨r,hr,hpayload⟩ := List.mem_filterMap.mp ht
    obtain ⟨_,hk⟩ := (Dictionary.mem_values_iff _ _).mp hr
    have hmem := (Dictionary.mem_of_get?_indexBy hk).1
    rw [sortBySequence, List.mem_mergeSort] at hmem
    have hr := hpass r (List.mem_of_mem_filter hmem)
    unfold turnPayload at hpayload
    split at hpayload <;> cases hpayload
    rename_i hkind
    rw [recordPasses, hkind, Bool.and_eq_true] at hr
    obtain ⟨_,hid⟩ := Option.isSome_iff_exists.mp hr.1
    obtain ⟨_,hturn⟩ := Option.isSome_iff_exists.mp hr.2
    exact ⟨passesText_of_eq hid,passesText_of_eq hturn⟩
  · obtain ⟨r,hr,hpayload⟩ := (mem_approvalRequests h p).mp hp
    have hr := hpass r hr
    rw [recordPasses, hpayload] at hr
    rw [approvalRow, findResponse_eq h]
    exact hr

end Rows

section Samples

/-- The one instant of the sample ledgers. -/
def sampleInstant : String := "2026-01-01T00:00:00Z"

def isSampleInstant (text : Text) : Bool := text == Text.of sampleInstant

/-- A record of a session, under the id of the session. -/
def memberRecord (sequence : ℕ) (session : AgentSession) : StateLedgerEntry :=
  ⟨session.id,sequence,1,some 0,some session.id,none,none,.session session⟩

/-- A record of a request, under a record id of its own. -/
def requestRecord (sequence : ℕ) (recordId : String) (p : RuntimeApprovalRequest) : StateLedgerEntry :=
  ⟨recordId,sequence,1,some 0,some p.sessionId,some p.turnId,none,.approvalRequest p⟩

end Samples
end OmniagentPlus.StateLedger
