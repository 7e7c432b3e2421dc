import OmniagentPlus.StateLedger.RetentionReplay
import OmniagentPlus.StateLedger.SnapshotRows
import Mathlib.Logic.Relation

/-! Retention never resurrects state: what the control snapshot shows of retained approvals
and sessions is what it showed before. -/
namespace OmniagentPlus.StateLedger
open OmniagentPlus.Foundation OmniagentPlus.CoreContracts

lemma mem_retained {records : List StateLedgerEntry} {policy : RetentionPolicy} {now : ℤ}
    {r : StateLedgerEntry} : r ∈ retained records policy now ↔
      r ∈ records ∧ r.sequence ∈ selectRetentionSequences records policy now := by
  simp [retained]

lemma inOrder_retained {records : List StateLedgerEntry} (h : InOrder records) (policy : RetentionPolicy)
    (now : ℤ) : InOrder (retained records policy now) :=
  h.filter _

/-- The newest record of an entity is still the newest once it is kept. -/
lemma latest_retained {records : List StateLedgerEntry} {policy : RetentionPolicy} {now : ℤ}
    {k : EntityKey} (hkeep : ∀ d, (latest records).get? k = some d →
      d.sequence ∈ selectRetentionSequences records policy now) :
    (latest (retained records policy now)).get? k = (latest records).get? k := by
  rw [latest, Dictionary.get?_indexBy, latest, Dictionary.get?_indexBy, retained, List.filter_filter]
  rw [latest, Dictionary.get?_indexBy] at hkeep
  have hcomm : records.filter (fun r => decide (entityKey r = k) &&
        decide (r.sequence ∈ selectRetentionSequences records policy now)) =
      (records.filter (fun r => decide (entityKey r = k))).filter
        (fun r => decide (r.sequence ∈ selectRetentionSequences records policy now)) := by
    rw [List.filter_filter]
    exact List.filter_congr fun r _ => Bool.and_comm _ _
  rw [hcomm]
  generalize records.filter (fun r => decide (entityKey r = k)) = l at hkeep ⊢
  cases hl : l.getLast? with
  | none =>
    rw [List.getLast?_eq_none_iff] at hl
    rw [hl]
    rfl
  | some d =>
    obtain ⟨init,rfl⟩ := List.getLast?_eq_some_iff.mp hl
    simp [List.filter_append, hkeep d hl]

section Approvals
variable {records : List StateLedgerEntry}

/-- A pending request has no response among the records. -/
lemma no_response_of_pending (h : InOrder records) {p : RuntimeApprovalRequest}
    (hpending : (approvalSummary (findResponse (approvalResponsesById records) p) p).status = .pending) :
    ∀ r ∈ records, ¬Answers p r := by
  refine (findResponse_eq_none_iff h).mp ?_
  cases hfound : findResponse (approvalResponsesById records) p with
  | none => rfl
  | some response =>
    rw [hfound] at hpending
    cases hpending

variable (ledger : Ledger) (policy : RetentionPolicy) (now : ℤ)

/-- A retained request pins the newest response to it, so both folds find the same one. -/
lemma findResponse_retained {p : RuntimeApprovalRequest} (hp : p ∈ approvalRequests (retained ledger.records policy now)) :
    p ∈ approvalRequests ledger.records ∧
      findResponse (approvalResponsesById (retained ledger.records policy now)) p =
        findResponse (approvalResponsesById ledger.records) p := by
  have hin := ledger.increasing
  have hin' := inOrder_retained ledger.increasing policy now
  obtain ⟨r,hr,hpayload⟩ := (mem_approvalRequests hin' p).mp hp
  obtain ⟨hmem,hkeep⟩ := mem_retained.mp hr
  have hpinned := (retentionClosure_spec ledger.records policy now).referenced r hmem hkeep (responseKey p)
    (by simp [referencedKeys, hpayload])
  refine ⟨(mem_approvalRequests hin p).mpr ⟨r,hmem,hpayload⟩,?_⟩
  rw [findResponse_eq hin', findResponse_eq hin, latest_retained hpinned]

/-- A pending request is retained where every kind is a root. -/
lemma pending_retained (hpolicy : policy.nonRootKinds = none) {p : RuntimeApprovalRequest}
    (hp : p ∈ approvalRequests ledger.records)
    (hpending : (approvalSummary (findResponse (approvalResponsesById ledger.records) p) p).status = .pending) :
    p ∈ approvalRequests (retained ledger.records policy now) := by
  have hin := ledger.increasing
  have hclosed := retentionClosure_spec ledger.records policy now
  rw [nonRoots_nil hpolicy] at hclosed
  obtain ⟨r,hr,hpayload⟩ := (mem_approvalRequests hin p).mp hp
  have hopen := no_response_of_pending hin hpending
  refine (mem_approvalRequests (inOrder_retained hin policy now) p).mpr ⟨r,mem_retained.mpr ⟨hr,?_⟩,hpayload⟩
  refine (hclosed.history r hr ?_).1
  simp [protectedHistory, hpayload, (request_live hr hpayload hopen).2]

end Approvals

section Sessions
variable {ledger : Ledger} {policy : RetentionPolicy} {now : ℤ}

/-- A session whose newest record is kept. -/
def SessionKept (records : List StateLedgerEntry) (policy : RetentionPolicy) (now : ℤ)
    (p : AgentSession) : Prop :=
  ∃ r, (latest records).get? (sessionKey p.id) = some r ∧ sessionPayload r = some p ∧
    r.sequence ∈ selectRetentionSequences records policy now

/-- A kept session pins the newest record of its parent, so both folds see the same parent. -/
lemma SessionKept.parent {p : AgentSession} (h : SessionKept ledger.records policy now p) {parent : String}
    (hparent : p.parentSessionId = some parent) :
    latestSession (retained ledger.records policy now) parent = latestSession ledger.records parent ∧
      ∀ q, latestSession ledger.records parent = some q → SessionKept ledger.records policy now q := by
  obtain ⟨r,hr,hp,hkeep⟩ := h
  have hmem := (Dictionary.mem_of_get?_indexBy hr).1
  have hkey : sessionKey parent ∈ referencedKeys r := by
    unfold sessionPayload at hp
    split at hp
    · rename_i p' hpayload
      cases hp
      simp [referencedKeys, hpayload, hparent, sessionKey]
    · cases hp
  have hpinned := (retentionClosure_spec ledger.records policy now).referenced r hmem hkeep _ hkey
  constructor
  · rw [latestSession, latest_retained hpinned, latestSession]
  · intro q hq
    have hid := latestSession_id hq
    obtain ⟨d,hd,hdq⟩ := Option.bind_eq_some_iff.mp hq
    exact ⟨d,by rw [hid]; exact hd,hdq,hpinned d hd⟩

/-- Some record of the session is retained. -/
def SessionRetained (records : List StateLedgerEntry) (policy : RetentionPolicy) (now : ℤ)
    (id : String) : Prop :=
  ∃ r ∈ retained records policy now, ∃ p, sessionPayload r = some p ∧ p.id = id

/-- One retained record of a session pins its newest record. -/
lemma SessionRetained.kept {id : String} (h : SessionRetained ledger.records policy now id) :
    ∃ p, latestSession ledger.records id = some p ∧ SessionKept ledger.records policy now p := by
  obtain ⟨r,hr,p,hp,hid⟩ := h
  obtain ⟨hmem,hkeep⟩ := mem_retained.mp hr
  have hkey : entityKey r = sessionKey id := entityKey_eq_sessionKey.mpr ⟨p,hp,hid⟩
  obtain ⟨n,hn⟩ := Dictionary.get?_indexBy_isSome (f := entityKey) hmem
  have hnkeep := (retentionClosure_spec ledger.records policy now).newest r hmem hkeep n hn
  rw [hkey] at hn
  obtain ⟨q,hq,hqid⟩ := entityKey_eq_sessionKey.mp (Dictionary.mem_of_get?_indexBy hn).2
  exact ⟨q,Option.bind_eq_some_iff.mpr ⟨n,hn,hq⟩,n,by rw [hqid]; exact hn,hq,hnkeep⟩

lemma SessionKept.isRetained {p : AgentSession} (h : SessionKept ledger.records policy now p) :
    SessionRetained ledger.records policy now p.id ∧
      latestSession (retained ledger.records policy now) p.id = some p := by
  obtain ⟨r,hr,hp,hkeep⟩ := h
  refine ⟨⟨r,mem_retained.mpr ⟨(Dictionary.mem_of_get?_indexBy hr).1,hkeep⟩,p,hp,rfl⟩,?_⟩
  have hsame := latest_retained (k := sessionKey p.id)
    fun d hd => by cases hr.symm.trans hd; exact hkeep
  rw [latestSession, hsame, hr]
  exact hp

/-- `parent` is the parent that the newest record of `child` names, and it is present. -/
def IsParent (records : List StateLedgerEntry) (child parent : String) : Prop :=
  ∃ p, latestSession records child = some p ∧ p.parentSessionId = some parent ∧
    (latestSession records parent).isSome

/-- Every ancestor of a retained session is retained. -/
theorem ancestor_retained {id ancestor : String} (h : SessionRetained ledger.records policy now id)
    (ha : Relation.TransGen (IsParent ledger.records) id ancestor) :
    SessionRetained ledger.records policy now ancestor := by
  have hstep : ∀ child parent, SessionRetained ledger.records policy now child →
      IsParent ledger.records child parent → SessionRetained ledger.records policy now parent := by
    rintro child parent hchild ⟨p,hp,hparent,hsome⟩
    obtain ⟨p',hp',hkept⟩ := hchild.kept
    cases hp.symm.trans hp'
    obtain ⟨q,hq⟩ := Option.isSome_iff_exists.mp hsome
    exact latestSession_id hq ▸ ((hkept.parent hparent).2 q hq).isRetained.1
  induction ha with
  | single hp => exact hstep id _ h hp
  | tail _ hp ih => exact hstep _ _ ih hp

/-- The walk from a kept session is the same before and after. -/
lemma SessionKept.walk {p : AgentSession} (h : SessionKept ledger.records policy now p) :
    walkParents (sessionsById (retained ledger.records policy now))
        (walkFuel (sessionsById (retained ledger.records policy now))) ∅ 0 (some p) =
      walkParents (sessionsById ledger.records) (walkFuel (sessionsById ledger.records)) ∅ 0 (some p) := by
  have hin := ledger.increasing
  have hin' := inOrder_retained ledger.increasing policy now
  have hheld : Held (sessionsById ledger.records) (some p) := by
    intro q hq
    cases hq
    obtain ⟨r,hr,hp,-⟩ := h
    rw [get?_sessionsById hin]
    exact Option.bind_eq_some_iff.mpr ⟨r,hr,hp⟩
  have hheld' : Held (sessionsById (retained ledger.records policy now)) (some p) := by
    intro q hq
    cases hq
    rw [get?_sessionsById hin']
    exact h.isRetained.2
  rw [← walkParents_eq_of_le (keyed_sessionsById hin') hheld' (Nat.le_max_left _
      (walkFuel (sessionsById ledger.records))),
    ← walkParents_eq_of_le (keyed_sessionsById hin) hheld (Nat.le_max_right
      (walkFuel (sessionsById (retained ledger.records policy now))) _)]
  refine walkParents_congr (K := SessionKept ledger.records policy now) ?_ _ _ _ ?_
  · intro q hq parent ht
    have hparent := (Option.filter_eq_some_iff.mp ht).1
    rw [get?_sessionsById hin, get?_sessionsById hin']
    exact hq.parent hparent
  · intro q hq
    cases hq
    exact h

end Sessions

section Snapshots
variable (ν : Type) [JsNumber ν] (isDatetime : Text → Bool) (othersPass : List StateLedgerEntry → Bool)
  (localeCompare : String → String → Ordering) (ledger : Ledger) (policy : RetentionPolicy) (now : ℤ)

/-- What the snapshots before and after a retention show: a request that is still there has the row it had, and
no pending one is dropped unless the policy sets `nonRootKinds`; a retained session has the depth and the root
it had. -/
structure SnapshotsAgree (before after : UiControlSnapshot Text) : Prop where
  approvals : ∀ row ∈ after.approvals, row ∈ before.approvals
  requests : ∀ p ∈ approvalRequests (retained ledger.records policy now),
    approvalRow ν isDatetime (retained ledger.records policy now) p = approvalRow ν isDatetime ledger.records p
  pending : policy.nonRootKinds = none → ∀ p ∈ approvalRequests ledger.records, ∀ row,
    approvalRow ν isDatetime ledger.records p = some row → row.status = .pending →
      p ∈ approvalRequests (retained ledger.records policy now) ∧ row ∈ after.approvals
  sessions : ∀ id, SessionRetained ledger.records policy now id → ∃ p, p.id = id ∧
    ∃ node' ∈ before.sessionTree, nodeRow ν isDatetime localeCompare ledger.records p = some node' ∧
      ∃ node ∈ after.sessionTree, nodeRow ν isDatetime localeCompare (retained ledger.records policy now) p = some node ∧
        node.depth = node'.depth ∧ node.rootSessionId = node'.rootSessionId

variable {ν isDatetime othersPass localeCompare ledger policy now} {before after : UiControlSnapshot Text}

theorem snapshotsAgree (hbefore : buildUiControlSnapshot ν isDatetime othersPass localeCompare ledger.records = some before)
    (hafter : buildUiControlSnapshot ν isDatetime othersPass localeCompare (retained ledger.records policy now) = some after) :
    SnapshotsAgree ν isDatetime localeCompare ledger policy now before after := by
  have hin := ledger.increasing
  have hin' := inOrder_retained ledger.increasing policy now
  have hrows := buildUiControlSnapshot_rows hin hbefore
  have hrows' := buildUiControlSnapshot_rows hin' hafter
  have hrequests : ∀ p ∈ approvalRequests (retained ledger.records policy now),
      approvalRow ν isDatetime (retained ledger.records policy now) p = approvalRow ν isDatetime ledger.records p := by
    intro p hp
    rw [approvalRow, (findResponse_retained ledger policy now hp).2, approvalRow]
  constructor
  · intro row hrow
    obtain ⟨p,hp,hparse⟩ := (hrows'.mem_approvals row).mp hrow
    rw [hrequests p hp] at hparse
    exact (hrows.mem_approvals row).mpr ⟨p,(findResponse_retained ledger policy now hp).1,hparse⟩
  · exact hrequests
  · intro hpolicy p hp row hparse hpending
    rw [(uiApprovalSummarySchema_eq hparse).2.2.2] at hpending
    have hkept := pending_retained ledger policy now hpolicy hp hpending
    exact ⟨hkept,(hrows'.mem_approvals row).mpr ⟨p,hkept,(hrequests p hkept).trans hparse⟩⟩
  · intro id hid
    obtain ⟨p,hp,hkept⟩ := hid.kept
    obtain rfl := latestSession_id hp
    have hp' := hkept.isRetained.2
    obtain ⟨node',hnode'⟩ := hrows.shown p hp
    obtain ⟨node,hnode⟩ := hrows'.shown p hp'
    obtain ⟨-,hroot',hdepth',-⟩ := nodeRow_eq hin hp hnode'
    obtain ⟨-,hroot,hdepth,-⟩ := nodeRow_eq hin' hp' hnode
    refine ⟨p,rfl,node',(hrows.nodes node').mpr ⟨p,hp,hnode'⟩,hnode',node,(hrows'.nodes node).mpr ⟨p,hp',hnode⟩,hnode,?_,?_⟩
    · rw [hdepth, hdepth', sessionDepth, sessionDepth, hkept.walk]
    · rw [hroot, hroot', sessionRootId, sessionRootId, hkept.walk]

end Snapshots

/-- Retention never resurrects state. The newest record of every retained entity is retained, the ancestors of a
retained session are retained, and the snapshots before and after, where the schema accepts both, agree on what is
retained. -/
theorem retention_never_resurrects (ν : Type) [JsNumber ν] (isDatetime : Text → Bool)
    (othersPass : List StateLedgerEntry → Bool) (localeCompare : String → String → Ordering) (ledger : Ledger)
    (policy : RetentionPolicy) (now : ℤ) :
    (∀ r ∈ retained ledger.records policy now, ∃ n ∈ retained ledger.records policy now,
      IsLatest ledger.records n ∧ entityKey n = entityKey r) ∧
    (∀ id ancestor, SessionRetained ledger.records policy now id →
      Relation.TransGen (IsParent ledger.records) id ancestor →
      SessionRetained ledger.records policy now ancestor) ∧
    ∀ before after, buildUiControlSnapshot ν isDatetime othersPass localeCompare ledger.records = some before →
      buildUiControlSnapshot ν isDatetime othersPass localeCompare (retained ledger.records policy now) = some after →
      SnapshotsAgree ν isDatetime localeCompare ledger policy now before after := by
  refine ⟨?_,fun _ _ h ha => ancestor_retained h ha,fun _ _ => snapshotsAgree⟩
  intro r hr
  obtain ⟨hmem,hkeep⟩ := mem_retained.mp hr
  obtain ⟨n,hn,hkey⟩ := exists_isLatest hmem
  have hget := isLatest_iff.mp hn
  rw [hkey] at hget
  exact ⟨n,mem_retained.mpr ⟨hn.mem,(retentionClosure_spec ledger.records policy now).newest r hmem hkeep n hget⟩,hn,hkey⟩

section Mixed

def mixedSession (id : String) (state : AgentSessionState) (parent : Option String) : AgentSession :=
  ⟨id,"title",state,sampleInstant,parent,none,none,none,""⟩

def mixedRequest (id : String) : RuntimeApprovalRequest := ⟨id,none,"child","turn","edit",.low,["operator"],none⟩

/-- A session with a closed parent, an answered request and a pending one, and a closed session apart. -/
def mixedLedger : Ledger where
  records := [memberRecord 1 (mixedSession "parent" .closed none),memberRecord 2 (mixedSession "apart" .closed none),
    memberRecord 3 (mixedSession "child" .idle (some "parent")),requestRecord 4 "r4" (mixedRequest "first"),
    ⟨"r5",5,1,some 0,some "child",some "turn",none,.approvalResponse ⟨"first",.denied,none,sampleInstant,none⟩⟩,
    requestRecord 6 "r6" (mixedRequest "second")]
  increasing := by decide
  allowed := by decide
  normalized := by decide

/-- The session apart is dropped, and what the two snapshots show of the rest is the same. -/
theorem retention_never_resurrects_mixed : retained mixedLedger.records pruneAll 1 = mixedLedger.records.eraseIdx 1 ∧
    ∃ before after, buildUiControlSnapshot ℤ isSampleInstant (fun _ => true) compare mixedLedger.records = some before ∧
      buildUiControlSnapshot ℤ isSampleInstant (fun _ => true) compare (retained mixedLedger.records pruneAll 1) = some after ∧
      SnapshotsAgree ℤ isSampleInstant compare mixedLedger pruneAll 1 before after := by
  have hretained : retained mixedLedger.records pruneAll 1 = mixedLedger.records.eraseIdx 1 := by decide +kernel
  have horder := inOrder_retained mixedLedger.increasing pruneAll 1
  obtain ⟨before,hbefore⟩ : ∃ snapshot, buildUiControlSnapshot ℤ isSampleInstant (fun _ => true) compare mixedLedger.records =
    some snapshot := exists_snapshot mixedLedger.increasing rfl (by decide +kernel)
  obtain ⟨after,hafter⟩ : ∃ snapshot, buildUiControlSnapshot ℤ isSampleInstant (fun _ => true) compare
    (retained mixedLedger.records pruneAll 1) = some snapshot := exists_snapshot horder rfl (by rw [hretained]; decide +kernel)
  have hsafe := retention_never_resurrects ℤ isSampleInstant (fun _ => true) compare mixedLedger pruneAll 1
  exact ⟨hretained,before,after,hbefore,hafter,hsafe.2.2 before after hbefore hafter⟩

end Mixed
end OmniagentPlus.StateLedger
