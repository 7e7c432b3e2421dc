import Mathlib.Data.List.Dedup
import OmniagentPlus.StateLedger.SnapshotRows

/-! The approvals of the control snapshot beside the replay of a session. The snapshot lists a request for
each of its records and shows ids without the white space at their ends, so the two agree exactly where no request was
recorded twice and no other id looks the same. -/
namespace OmniagentPlus.StateLedger
open OmniagentPlus.Foundation OmniagentPlus.CoreContracts

/-- An id as the snapshot shows it. -/
def shownId (id : String) : Text := (Text.of id).trim

section Approvals
variable (records : List StateLedgerEntry) (sessionId : String)

/-- What is requested of a session, record by record. -/
def requestsOf : List RuntimeApprovalRequest :=
  ((ofKind records .approvalRequest).filterMap requestPayload).filter fun p => p.sessionId == sessionId

/-- The session, the turn and the id of a request as the snapshot shows them, and those of a row. -/
def shownKey (p : RuntimeApprovalRequest) : Text × Text × Text :=
  (shownId p.sessionId,shownId p.turnId,shownId p.approvalRequestId)
def rowKey (row : UiApproval Text) : Text × Text × Text := (row.sessionId,row.turnId,row.approvalRequestId)

/-- The newest record of a request of the session. -/
def latestRequest (key : Text × Text × Text) : Option RuntimeApprovalRequest :=
  ((requestsOf records sessionId).filter fun p => decide (shownKey p = key)).getLast?

/-- The responses that `replaySession` keeps, by what they answer. -/
def replayedResponses : Dictionary ApprovalKey StateLedgerEntry :=
  latestMap (fun r => (r.sessionId,r.turnId,approvalId r))
    (ofKind (records.filter fun r => r.sessionId == some sessionId) .approvalResponse)

theorem replaySession_approvalResponses : (replaySession records sessionId).approvalResponses =
    (replayedResponses records sessionId).values.filterMap responsePayload := rfl

def replayedResponse (p : RuntimeApprovalRequest) : Option RuntimeApprovalResponse :=
  findResponse (replayedResponses records sessionId) p

/-- The requests of the session that the replay has no response to. -/
def pendingKeys : List ApprovalKey :=
  (((requestsOf records sessionId).filter fun p => (replayedResponse records sessionId p).isNone).map requestKey).dedup

variable (ν : Type) [JsNumber ν] (isDatetime : Text → Bool)

/-- The snapshot lists each request of the session once, with the content of its newest record and the status that
the replay gives it, and counts the pending ones. -/
structure ApprovalsAgree (snapshot : UiControlSnapshot Text) : Prop where
  once : ((snapshot.approvals.filter fun row => row.sessionId == shownId sessionId).map rowKey).Nodup
  listed : ∀ p ∈ requestsOf records sessionId, ∃ row ∈ snapshot.approvals, rowKey row = shownKey p
  latest : ∀ row ∈ snapshot.approvals, row.sessionId = shownId sessionId →
    ∃ p, latestRequest records sessionId (rowKey row) = some p ∧
      uiApprovalSummarySchema ν isDatetime (approvalSummary (replayedResponse records sessionId p) p) = some row
  counted : ∀ summary ∈ snapshot.sessions, summary.sessionId = shownId sessionId →
    summary.pendingApprovalCount = (pendingKeys records sessionId).length
  countedInTree : ∀ node ∈ snapshot.sessionTree, node.sessionId = shownId sessionId →
    node.pendingApprovalCount = (pendingKeys records sessionId).length

/-- No two request records of the session look the same, no request of another session looks like one of it, and
where a request of it is unanswered no other recorded session looks like it. -/
structure LooksApart : Prop where
  once : ((requestsOf records sessionId).map shownKey).Nodup
  own : ∀ r ∈ records, ∀ p, requestPayload r = some p → shownId p.sessionId = shownId sessionId → p.sessionId = sessionId
  alone : ∀ p ∈ requestsOf records sessionId, (∀ r ∈ records, ¬Answers p r) →
    ∀ r ∈ records, ∀ q, sessionPayload r = some q → shownId q.id = shownId sessionId → q.id = sessionId

variable {records sessionId ν isDatetime} {localeCompare : String → String → Ordering} {snapshot : UiControlSnapshot Text}

theorem findResponse_replayed (h : InOrder records) {p : RuntimeApprovalRequest} (hp : p.sessionId = sessionId) :
    findResponse (approvalResponsesById records) p = replayedResponse records sessionId p := by
  have hkey : (approvalResponsesById records).get? (requestKey p) = (replayedResponses records sessionId).get? (requestKey p) := by
    rw [approvalResponsesById, replayedResponses, latestMap, latestMap, sortBySequence_eq (inOrder_ofKind h _),
      sortBySequence_eq (inOrder_ofKind (h.filter _) _), Dictionary.get?_indexBy, Dictionary.get?_indexBy, ofKind, ofKind,
      List.filter_filter, List.filter_filter, List.filter_filter]
    congr 1
    refine List.filter_congr fun r _ => ?_
    rw [Bool.eq_iff_iff]
    simp [requestKey, hp]
    tauto
  rw [findResponse, hkey]
  rfl

theorem approvalRequests_eq (h : InOrder records) :
    approvalRequests records = (ofKind records .approvalRequest).filterMap requestPayload := by
  rw [approvalRequests, sortBySequence_eq (inOrder_ofKind h _)]

theorem mem_requestsOf (h : InOrder records) {p : RuntimeApprovalRequest} :
    p ∈ requestsOf records sessionId ↔ p ∈ approvalRequests records ∧ p.sessionId = sessionId := by
  rw [requestsOf, ← approvalRequests_eq h, List.mem_filter, beq_iff_eq]

/-- The keys of the rows that are shown under the id of the session, in some order. -/
theorem rowKeys_perm (hrows : RowsOf ν isDatetime localeCompare records snapshot) :
    ((snapshot.approvals.filter fun row => row.sessionId == shownId sessionId).map rowKey).Perm
      (((approvalRequests records).filter fun p => shownId p.sessionId == shownId sessionId).map shownKey) := by
  have hkeys : snapshot.approvals.map rowKey = (approvals localeCompare records).map fun a =>
      (shownId a.sessionId,shownId a.turnId,shownId a.approvalRequestId) := by
    refine forall₂_map_eq hrows.requests fun a _ row hrow => ?_
    obtain ⟨hid,hturn,hrequest,-⟩ := uiApprovalSummarySchema_eq hrow
    rw [rowKey, hid, hturn, hrequest]
    rfl
  have hleft : (snapshot.approvals.filter fun row => row.sessionId == shownId sessionId).map rowKey =
      (snapshot.approvals.map rowKey).filter fun key => key.1 == shownId sessionId := by
    rw [List.filter_map]
    rfl
  have hright : ((approvalRequests records).filter fun p => shownId p.sessionId == shownId sessionId).map shownKey =
      ((approvalRequests records).map shownKey).filter fun key => key.1 == shownId sessionId := by
    rw [List.filter_map]
    rfl
  have hperm := (List.mergeSort_perm ((approvalRequests records).map fun p =>
    approvalSummary (findResponse (approvalResponsesById records) p) p) fun left right =>
      compareTexts localeCompare [(left.sessionId,right.sessionId),(left.turnId,right.turnId),
        (left.approvalRequestId,right.approvalRequestId)]).map fun a =>
      (shownId a.sessionId,shownId a.turnId,shownId a.approvalRequestId)
  rw [List.map_map] at hperm
  rw [hleft, hright, hkeys]
  exact hperm.filter _

theorem responsePayload_isSome {r : StateLedgerEntry} (h : r.kind = .approvalResponse) : (responsePayload r).isSome = true := by
  obtain ⟨recordId,sequence,schemaVersion,recordedAt,sessionId,turnId,taskId,payload⟩ := r
  cases payload <;> first | rfl | cases h

/-- A request is pending where the snapshot finds no response record. -/
theorem findResponse_isNone (p : RuntimeApprovalRequest) :
    (findResponse (approvalResponsesById records) p).isNone = !((approvalResponsesById records).get? (requestKey p)).isSome := by
  cases hget : (approvalResponsesById records).get? (requestKey p) with
  | none => simp [findResponse, hget]
  | some r =>
    have hmem := (Dictionary.mem_of_get?_indexBy hget).1
    have hkind : r.kind = .approvalResponse := by
      rw [sortBySequence, List.mem_mergeSort, ofKind, List.mem_filter] at hmem
      simpa using hmem.2
    obtain ⟨q,hq⟩ := Option.isSome_iff_exists.mp (responsePayload_isSome hkind)
    simp [findResponse, hget, hq]

/-- The number of pending request records of the session. -/
theorem pendingRequests_count (h : InOrder records) :
    (pendingRequests records).countP (fun p => p.sessionId == sessionId) =
      ((requestsOf records sessionId).filter fun p => (replayedResponse records sessionId p).isNone).length := by
  rw [pendingRequests, approvalRequests_eq h, List.countP_eq_length_filter, requestsOf, List.filter_filter, List.filter_filter]
  congr 1
  refine List.filter_congr fun p _ => ?_
  rw [← findResponse_isNone]
  by_cases hp : p.sessionId = sessionId
  · rw [findResponse_replayed h hp, Bool.and_comm]
  · have hno : (p.sessionId == sessionId) = false := beq_eq_false_iff_ne.mpr hp
    rw [hno, Bool.false_and, Bool.and_false]

/-- An item is the only one under its key where no key comes twice. -/
theorem filter_key {α κ : Type} [DecidableEq κ] {f : α → κ} {l : List α} (h : (l.map f).Nodup) {x : α} (hx : x ∈ l) :
    (l.filter fun y => decide (f y = f x)) = [x] := by
  induction l with
  | nil => cases hx
  | cons y l ih =>
    obtain ⟨hy,hl⟩ := List.nodup_cons.mp h
    rcases List.mem_cons.mp hx with rfl | hx
    · rw [List.filter_cons_of_pos (by simp), List.filter_eq_nil_iff.mpr]
      intro z hz hkey
      exact hy (List.mem_map.mpr ⟨z,hz,of_decide_eq_true hkey⟩)
    · rw [List.filter_cons_of_neg, ih hl hx]
      intro hkey
      exact hy (List.mem_map.mpr ⟨x,hx,(of_decide_eq_true hkey).symm⟩)

/-- Where no two look the same, the newest record of a request is its only one. -/
theorem LooksApart.latestRequest_eq (hapart : LooksApart records sessionId) {p : RuntimeApprovalRequest}
    (hp : p ∈ requestsOf records sessionId) : latestRequest records sessionId (shownKey p) = some p := by
  rw [latestRequest, filter_key hapart.once hp]
  rfl

theorem LooksApart.pendingKeys_length (hapart : LooksApart records sessionId) : (pendingKeys records sessionId).length =
    ((requestsOf records sessionId).filter fun p => (replayedResponse records sessionId p).isNone).length := by
  have hshown : (requestsOf records sessionId).map shownKey = ((requestsOf records sessionId).map requestKey).map
      fun key => (shownId (key.1.getD ""),shownId (key.2.1.getD ""),shownId (key.2.2.getD "")) := by
    rw [List.map_map]
    rfl
  have honce := hapart.once
  rw [hshown] at honce
  have hnodup := ((List.filter_sublist (p := fun p => (replayedResponse records sessionId p).isNone)).map requestKey).nodup
    honce.of_map
  rw [pendingKeys, List.dedup_eq_self.mpr hnodup, List.length_map]

/-- A request of the session that is pending in its replay has no response among the records. -/
theorem unanswered_of_replayed (h : InOrder records) {p : RuntimeApprovalRequest} (hp : p ∈ requestsOf records sessionId)
    (hnone : replayedResponse records sessionId p = none) : ∀ r ∈ records, ¬Answers p r := by
  rw [← findResponse_replayed h ((mem_requestsOf h).mp hp).2] at hnone
  exact (findResponse_eq_none_iff h).mp hnone

/-- What is counted for a session that looks like this one. -/
theorem LooksApart.pendingCount (hapart : LooksApart records sessionId) (h : InOrder records) {q : AgentSession}
    (hq : latestSession records q.id = some q) (hshown : shownId q.id = shownId sessionId) :
    (sessionSummary records q).pendingApprovalCount = (pendingKeys records sessionId).length := by
  rw [hapart.pendingKeys_length]
  by_cases hid : q.id = sessionId
  · subst hid
    exact pendingRequests_count h
  -- nothing of the session is pending, and nothing is requested of the other
  have hleft : (pendingRequests records).countP (fun p => p.sessionId == q.id) = 0 := by
    refine List.countP_eq_zero.mpr fun p hp hsession => hid ?_
    obtain ⟨r,hr,hpayload⟩ := (mem_approvalRequests h p).mp (List.mem_of_mem_filter hp)
    have hsession := beq_iff_eq.mp hsession
    rw [← hsession]
    exact hapart.own r hr p (by rw [requestPayload, hpayload]) (by rw [hsession, hshown])
  have hright : (requestsOf records sessionId).filter (fun p => (replayedResponse records sessionId p).isNone) = [] := by
    refine List.filter_eq_nil_iff.mpr fun p hp hpending => hid ?_
    obtain ⟨r,hr,hpayload⟩ := Option.bind_eq_some_iff.mp hq
    exact hapart.alone p hp (unanswered_of_replayed h hp (Option.isNone_iff_eq_none.mp hpending)) r
      (Dictionary.mem_of_get?_indexBy hr).1 q hpayload hshown
  rw [hright]
  exact hleft

/-- Where nothing else looks the same, the snapshot agrees with the replay. -/
theorem LooksApart.agree (hapart : LooksApart records sessionId) (h : InOrder records)
    (hrows : RowsOf ν isDatetime localeCompare records snapshot) : ApprovalsAgree records sessionId ν isDatetime snapshot := by
  have hown : ∀ p ∈ approvalRequests records, shownId p.sessionId = shownId sessionId → p ∈ requestsOf records sessionId := by
    intro p hp hshown
    obtain ⟨r,hr,hpayload⟩ := (mem_approvalRequests h p).mp hp
    exact (mem_requestsOf h).mpr ⟨hp,hapart.own r hr p (by rw [requestPayload, hpayload]) hshown⟩
  constructor
  · refine (rowKeys_perm hrows).nodup_iff.mpr ?_
    have hfilter : ((approvalRequests records).filter fun p => shownId p.sessionId == shownId sessionId) =
        requestsOf records sessionId := by
      rw [requestsOf, ← approvalRequests_eq h]
      refine List.filter_congr fun p hp => ?_
      rw [Bool.eq_iff_iff, beq_iff_eq, beq_iff_eq]
      exact ⟨fun hshown => ((mem_requestsOf h).mp (hown p hp hshown)).2,fun hsession => by rw [hsession]⟩
    rw [hfilter]
    exact hapart.once
  · intro p hp
    obtain ⟨row,hrow⟩ := hrows.exists_approvalRow ((mem_requestsOf h).mp hp).1
    obtain ⟨hid,hturn,hrequest,-⟩ := uiApprovalSummarySchema_eq hrow
    refine ⟨row,(hrows.mem_approvals row).mpr ⟨p,((mem_requestsOf h).mp hp).1,hrow⟩,?_⟩
    rw [rowKey, hid, hturn, hrequest]
    rfl
  · intro row hrow hsession
    obtain ⟨p,hp,hparse⟩ := (hrows.mem_approvals row).mp hrow
    obtain ⟨hid,hturn,hrequest,-⟩ := uiApprovalSummarySchema_eq hparse
    have hmem := hown p hp (hid.symm.trans hsession)
    have hkey : rowKey row = shownKey p := by
      rw [rowKey, hid, hturn, hrequest]
      rfl
    refine ⟨p,hkey ▸ hapart.latestRequest_eq hmem,?_⟩
    rw [← findResponse_replayed h ((mem_requestsOf h).mp hmem).2]
    exact hparse
  · intro summary hsummary hsession
    obtain ⟨q,hq,hparse⟩ := (hrows.sessions summary).mp hsummary
    obtain ⟨hid,hcount⟩ := uiSessionSummarySchema_eq hparse
    rw [hcount]
    exact hapart.pendingCount h hq (hid.symm.trans hsession)
  · intro node hnode hsession
    obtain ⟨q,hq,hparse⟩ := (hrows.nodes node).mp hnode
    obtain ⟨hid,-,-,hcount⟩ := nodeRow_eq h hq hparse
    rw [hcount]
    exact hapart.pendingCount h hq (hid.symm.trans hsession)

/-- What the snapshot lists under the id of the session is requested of it. -/
theorem ApprovalsAgree.own (hagree : ApprovalsAgree records sessionId ν isDatetime snapshot) (h : InOrder records)
    (hrows : RowsOf ν isDatetime localeCompare records snapshot) {p : RuntimeApprovalRequest} (hp : p ∈ approvalRequests records)
    (hshown : shownId p.sessionId = shownId sessionId) : p.sessionId = sessionId := by
  obtain ⟨row,hparse⟩ := hrows.exists_approvalRow hp
  obtain ⟨hid,hturn,hrequest,-⟩ := uiApprovalSummarySchema_eq hparse
  obtain ⟨q,hq,-⟩ := hagree.latest row ((hrows.mem_approvals row).mpr ⟨p,hp,hparse⟩) (hid.trans hshown)
  obtain ⟨hmem,hkey⟩ := List.mem_filter.mp (List.mem_of_getLast? hq)
  have hkey : shownKey q = shownKey p := by
    rw [of_decide_eq_true hkey, rowKey, hid, hturn, hrequest]
    rfl
  have hq := (mem_requestsOf h).mp hmem
  have hlisted : ∀ x, x ∈ approvalRequests records → shownId x.sessionId = shownId sessionId →
      x ∈ (approvalRequests records).filter fun p => shownId p.sessionId == shownId sessionId :=
    fun x hx hx' => List.mem_filter.mpr ⟨hx,beq_iff_eq.mpr hx'⟩
  have hsame := List.inj_on_of_nodup_map ((rowKeys_perm hrows).nodup_iff.mp hagree.once)
    (hlisted q hq.1 (by rw [hq.2])) (hlisted p hp hshown) hkey
  rw [← hsame]
  exact hq.2

theorem ApprovalsAgree.looksApart (hagree : ApprovalsAgree records sessionId ν isDatetime snapshot) (h : InOrder records)
    (hrows : RowsOf ν isDatetime localeCompare records snapshot) : LooksApart records sessionId := by
  have hown : ∀ p ∈ approvalRequests records, shownId p.sessionId = shownId sessionId → p.sessionId = sessionId :=
    fun p hp => hagree.own h hrows hp
  constructor
  · have hsub : (requestsOf records sessionId).Sublist
        ((approvalRequests records).filter fun p => shownId p.sessionId == shownId sessionId) := by
      rw [requestsOf, ← approvalRequests_eq h]
      refine List.monotone_filter_right _ fun p hp => ?_
      rw [beq_iff_eq.mp hp]
      exact beq_self_eq_true _
    exact (hsub.map shownKey).nodup ((rowKeys_perm hrows).nodup_iff.mp hagree.once)
  · intro r hr p hpayload
    refine hown p ((mem_approvalRequests h p).mpr ⟨r,hr,?_⟩)
    unfold requestPayload at hpayload
    split at hpayload <;> cases hpayload
    assumption
  · intro p hp hopen r hr q hpayload hshown
    by_contra hother
    obtain ⟨q',hq',hid⟩ : ∃ q', latestSession records q'.id = some q' ∧ q'.id = q.id := by
      obtain ⟨n,hn⟩ := Dictionary.get?_indexBy_isSome (f := entityKey) hr
      rw [entityKey_eq_sessionKey.mpr ⟨q,hpayload,rfl⟩] at hn
      obtain ⟨q',hq',hid⟩ := entityKey_eq_sessionKey.mp (Dictionary.mem_of_get?_indexBy hn).2
      exact ⟨q',Option.bind_eq_some_iff.mpr ⟨n,by rw [hid]; exact hn,hq'⟩,hid⟩
    obtain ⟨node,hnode⟩ := hrows.shown q' hq'
    obtain ⟨hshownId,-,-,hcount⟩ := nodeRow_eq h hq' hnode
    have hlength := hagree.countedInTree node ((hrows.nodes node).mpr ⟨q',hq',hnode⟩) (by rw [hshownId, hid]; exact hshown)
    -- the other session counts none, as nothing is requested of it
    have hzero : (sessionSummary records q').pendingApprovalCount = 0 := by
      refine List.countP_eq_zero.mpr fun p' hp' hsession => hother ?_
      rw [beq_iff_eq, hid] at hsession
      rw [← hsession]
      exact hown p' (List.mem_of_mem_filter hp') (by rw [hsession, hshown])
    rw [hcount, hzero, eq_comm, List.length_eq_zero_iff] at hlength
    have hpending : requestKey p ∈ pendingKeys records sessionId := by
      rw [pendingKeys, List.mem_dedup]
      refine List.mem_map.mpr ⟨p,List.mem_filter.mpr ⟨hp,?_⟩,rfl⟩
      rw [← findResponse_replayed h ((mem_requestsOf h).mp hp).2, (findResponse_eq_none_iff h).mpr hopen]
      rfl
    rw [hlength] at hpending
    cases hpending

/-- Where the schema accepts the snapshot, it agrees with the replay on the approvals of a session exactly where no two
of its requests, no request of another session and, as long as one is unanswered, no other session look the same. -/
theorem snapshotApprovals_agree_iff (othersPass : List StateLedgerEntry → Bool) (ledger : Ledger) (sessionId : String)
    (hbuild : buildUiControlSnapshot ν isDatetime othersPass localeCompare ledger.records = some snapshot) :
    ApprovalsAgree ledger.records sessionId ν isDatetime snapshot ↔ LooksApart ledger.records sessionId :=
  have horder := ledger.increasing
  have hrows := buildUiControlSnapshot_rows horder hbuild
  ⟨fun hagree => hagree.looksApart horder hrows,fun hapart => hapart.agree horder hrows⟩

def editRequest (turnId : String) : RuntimeApprovalRequest := ⟨"approval",none,"session",turnId,"edit",.low,["operator"],none⟩

def answerRecord (sequence : ℕ) (decision : ApprovalDecision) : StateLedgerEntry :=
  ⟨toString sequence,sequence,1,some 0,some "session",some "first",none,
    .approvalResponse ⟨"approval",decision,some "operator",sampleInstant,none⟩⟩

/-- One id asked for in two turns, and answered in one of them twice. -/
def turnsLedger : Ledger where
  records := [memberRecord 1 ⟨"session","title",.idle,sampleInstant,none,none,none,none,""⟩,
    requestRecord 2 "r2" (editRequest "first"),requestRecord 3 "r3" (editRequest "second"),answerRecord 4 .denied,
    answerRecord 5 .approved]
  increasing := by decide
  allowed := by decide
  normalized := by decide

theorem snapshotApprovals_agree_iff_turns : ∃ snapshot,
    buildUiControlSnapshot ℤ isSampleInstant (fun _ => true) compare turnsLedger.records = some snapshot ∧
      ApprovalsAgree turnsLedger.records "session" ℤ isSampleInstant snapshot := by
  obtain ⟨snapshot,hbuild⟩ : ∃ snapshot, buildUiControlSnapshot ℤ isSampleInstant (fun _ => true) compare
    turnsLedger.records = some snapshot := exists_snapshot turnsLedger.increasing rfl (by decide +kernel)
  have hrequests : ∀ r ∈ turnsLedger.records, (requestPayload r).all (fun p => p.sessionId == "session") := by decide
  have hsessions : ∀ r ∈ turnsLedger.records, (sessionPayload r).all (fun q => q.id == "session") := by decide
  refine ⟨snapshot,hbuild,(snapshotApprovals_agree_iff (fun _ => true) turnsLedger "session" hbuild).mpr ⟨by decide +kernel,?_,?_⟩⟩
  · intro r hr p hp _
    simpa [hp] using hrequests r hr
  · intro _ _ _ r hr q hq _
    simpa [hq] using hsessions r hr

end Approvals

section Repeated

/-- A request that was recorded twice. -/
def repeatedLedger : Ledger where
  records := [requestRecord 1 "first" (editRequest "turn"),requestRecord 2 "second" (editRequest "turn")]
  increasing := by decide
  allowed := by decide
  normalized := by decide

/-- The snapshot lists the request twice. -/
theorem repeatedRequest_listedTwice : ∃ snapshot,
    buildUiControlSnapshot ℤ isSampleInstant (fun _ => true) compare repeatedLedger.records = some snapshot ∧
      ¬ApprovalsAgree repeatedLedger.records "session" ℤ isSampleInstant snapshot := by
  have horder := repeatedLedger.increasing
  obtain ⟨snapshot,hbuild⟩ : ∃ snapshot, buildUiControlSnapshot ℤ isSampleInstant (fun _ => true) compare
    repeatedLedger.records = some snapshot := exists_snapshot horder rfl (by decide +kernel)
  refine ⟨snapshot,hbuild,fun hagree => ?_⟩
  exact absurd (hagree.looksApart horder (buildUiControlSnapshot_rows horder hbuild)).once (by decide +kernel)

end Repeated
end OmniagentPlus.StateLedger
