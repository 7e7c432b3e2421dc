import OmniagentPlus.StateLedger.RetentionClosure
import OmniagentPlus.StateLedger.SnapshotFold

/-! Retention keeps everything that the replay of a live session reads. -/
namespace OmniagentPlus.StateLedger
open OmniagentPlus.Foundation OmniagentPlus.CoreContracts

/-- The newest record of its entity. -/
def IsLatest (records : List StateLedgerEntry) (r : StateLedgerEntry) : Prop :=
  (records.filter fun s => decide (entityKey s = entityKey r)).getLast? = some r

theorem isLatest_iff {records : List StateLedgerEntry} {r : StateLedgerEntry} :
    IsLatest records r ↔ (latest records).get? (entityKey r) = some r := by
  rw [latest, Dictionary.get?_indexBy, IsLatest]

theorem IsLatest.mem {records : List StateLedgerEntry} {r : StateLedgerEntry} (h : IsLatest records r) :
    r ∈ records :=
  (List.mem_filter.mp (List.mem_of_getLast? h)).1

/-- A session that is live in the records at an instant. -/
inductive SessionLive (records : List StateLedgerEntry) (now : ℤ) (sessionId : String) : Prop
  | session (r : StateLedgerEntry) (p : AgentSession) (hr : IsLatest records r)
      (hp : r.payload = .session p) (hid : p.id = sessionId)
      (hopen : p.state ≠ .closed ∧ p.state ≠ .failed)
  | turn (r : StateLedgerEntry) (p : TurnHandle) (hr : IsLatest records r) (hp : r.payload = .turn p)
      (hid : p.sessionId = sessionId)
      (hopen : p.state ≠ .cancelled ∧ p.state ≠ .timedOut ∧ p.state ≠ .completed ∧ p.state ≠ .failed)
  | lease (r : StateLedgerEntry) (p : WorktreeLease) (hr : IsLatest records r)
      (hp : r.payload = .worktreeLease p) (hid : p.holder.sessionId = some sessionId)
      (hopen : p.expiresAt.after now = true)
  | approval (r : StateLedgerEntry) (p : RuntimeApprovalRequest) (hr : r ∈ records)
      (hp : r.payload = .approvalRequest p) (hid : p.sessionId = sessionId)
      (hopen : ∀ s ∈ records, ¬ Answers p s)

/-- The sets only grow. -/
lemma subset_addLive (newest : Dictionary EntityKey StateLedgerEntry)
    (nonRoots : List StateLedgerRecordKind) (now : ℤ) (s : LiveSets) (r : StateLedgerEntry) :
    s.sessions ⊆ (addLive newest nonRoots now s r).sessions ∧
      s.requests ⊆ (addLive newest nonRoots now s r).requests := by
  unfold addLive
  split
  · exact ⟨Finset.Subset.refl _,Finset.Subset.refl _⟩
  · split
    · split
      · exact ⟨Finset.Subset.refl _,Finset.Subset.refl _⟩
      · exact ⟨Finset.subset_insert _ _,Finset.Subset.refl _⟩
    · split
      · exact ⟨Finset.Subset.refl _,Finset.Subset.refl _⟩
      · exact ⟨Finset.subset_insert _ _,Finset.Subset.refl _⟩
    · rename_i p _
      split
      · dsimp only
        cases truthy p.holder.turnId <;> cases truthy p.holder.sessionId
        · exact ⟨Finset.Subset.refl _,Finset.Subset.refl _⟩
        · exact ⟨Finset.subset_insert _ _,Finset.Subset.refl _⟩
        · exact ⟨Finset.Subset.refl _,Finset.Subset.refl _⟩
        · exact ⟨Finset.subset_insert _ _,Finset.Subset.refl _⟩
      · exact ⟨Finset.Subset.refl _,Finset.Subset.refl _⟩
    · split
      · exact ⟨Finset.Subset.refl _,Finset.Subset.refl _⟩
      · exact ⟨Finset.subset_insert _ _,Finset.subset_insert _ _⟩
    · exact ⟨Finset.Subset.refl _,Finset.Subset.refl _⟩

lemma subset_foldl_addLive (newest : Dictionary EntityKey StateLedgerEntry)
    (nonRoots : List StateLedgerRecordKind) (now : ℤ) (l : List StateLedgerEntry) (s : LiveSets) :
    s.sessions ⊆ (l.foldl (addLive newest nonRoots now) s).sessions ∧
      s.requests ⊆ (l.foldl (addLive newest nonRoots now) s).requests := by
  induction l generalizing s with
  | nil => exact ⟨Finset.Subset.refl _,Finset.Subset.refl _⟩
  | cons r l ih =>
    obtain ⟨hs,hr⟩ := subset_addLive newest nonRoots now s r
    obtain ⟨hs',hr'⟩ := ih (addLive newest nonRoots now s r)
    exact ⟨hs.trans hs',hr.trans hr'⟩

/-- What the body adds for a newest record is in the sets at the end. -/
lemma mem_liveSets {records : List StateLedgerEntry} {nonRoots : List StateLedgerRecordKind} {now : ℤ}
    {r : StateLedgerEntry} (hr : IsLatest records r) :
    (∀ id, (∀ s, id ∈ (addLive (latest records) nonRoots now s r).sessions) →
      id ∈ (liveSets (latest records) nonRoots now).sessions) ∧
    (∀ key, (∀ s, key ∈ (addLive (latest records) nonRoots now s r).requests) →
      key ∈ (liveSets (latest records) nonRoots now).requests) := by
  have hmem : r ∈ (latest records).values :=
    (Dictionary.mem_values_iff _ _).mpr ⟨entityKey r,isLatest_iff.mp hr⟩
  obtain ⟨before,after,hsplit⟩ := List.append_of_mem hmem
  have hfold : liveSets (latest records) nonRoots now = after.foldl (addLive (latest records) nonRoots now)
      (addLive (latest records) nonRoots now
        (before.foldl (addLive (latest records) nonRoots now) ⟨∅,∅,∅,∅⟩) r) := by
    rw [liveSets, hsplit, List.foldl_append, List.foldl_cons]
  rw [hfold]
  exact ⟨fun id h => (subset_foldl_addLive _ _ _ _ _).1 (h _),
    fun key h => (subset_foldl_addLive _ _ _ _ _).2 (h _)⟩

/-- A record's entity has a newest record. -/
lemma exists_isLatest {records : List StateLedgerEntry} {r : StateLedgerEntry} (hr : r ∈ records) :
    ∃ n, IsLatest records n ∧ entityKey n = entityKey r := by
  obtain ⟨n,hn⟩ := Dictionary.get?_indexBy_isSome (f := entityKey) hr
  have hkey := (Dictionary.mem_of_get?_indexBy hn).2
  exact ⟨n,isLatest_iff.mpr (by rw [hkey]; exact hn),hkey⟩

lemma request_of_entityKey {r n : StateLedgerEntry} {p : RuntimeApprovalRequest}
    (hp : r.payload = .approvalRequest p) (h : entityKey n = entityKey r) :
    ∃ q, n.payload = .approvalRequest q ∧ q.sessionId = p.sessionId ∧ q.turnId = p.turnId ∧
      q.approvalRequestId = p.approvalRequestId := by
  rw [entityKey, entityKey, hp] at h
  cases hn : n.payload with
  | approvalRequest q =>
    rw [hn] at h
    simp only [List.cons.injEq, Option.some.injEq, true_and, and_true] at h
    exact ⟨q,rfl,h.1,h.2.1,h.2.2⟩
  | _ => rw [hn] at h; simp at h

/-- A request without a response is pending, and its session is live. -/
lemma request_live {records : List StateLedgerEntry} {now : ℤ} {r : StateLedgerEntry}
    {p : RuntimeApprovalRequest} (hr : r ∈ records) (hp : r.payload = .approvalRequest p)
    (hopen : ∀ s ∈ records, ¬ Answers p s) :
    p.sessionId ∈ (liveSets (latest records) [] now).sessions ∧
      (p.sessionId,p.turnId,p.approvalRequestId) ∈ (liveSets (latest records) [] now).requests := by
  obtain ⟨n,hn,hkey⟩ := exists_isLatest hr
  obtain ⟨q,hq,hs,ht,hid⟩ := request_of_entityKey hp hkey
  have hnone := no_response hopen
  have hqp : responseKey q = responseKey p := by simp [responseKey, hs, ht, hid]
  constructor
  · refine (mem_liveSets hn).1 p.sessionId fun s => ?_
    simp [addLive, hq, hqp, hnone, hs, LiveSets.addSession, LiveSets.addTurn]
  · refine (mem_liveSets hn).2 _ fun s => ?_
    simp [addLive, hq, hqp, hnone, hs, ht, hid, LiveSets.addSession, LiveSets.addTurn]

/-- The live sessions are among those the code collects. -/
theorem SessionLive.mem_sessions {ledger : Ledger} {now : ℤ} {sessionId : String}
    (h : SessionLive ledger.records now sessionId) :
    sessionId ∈ (liveSets (latest ledger.records) [] now).sessions := by
  cases h with
  | session r p hr hp hid hopen =>
    refine (mem_liveSets hr).1 sessionId fun s => ?_
    simp [addLive, hp, AgentSessionState.ended, hopen, LiveSets.addSession, hid]
  | turn r p hr hp hid hopen =>
    refine (mem_liveSets hr).1 sessionId fun s => ?_
    simp [addLive, hp, TurnState.terminal, hopen, LiveSets.addSession, hid]
  | lease r p hr hp hid hopen =>
    have hsession : r.sessionId = some sessionId :=
      (normalizeLedgerScope_scope (ledger.normalized r hr.mem)).2.1 sessionId (by rw [hp]; exact hid)
    have hne : sessionId ≠ "" := fun he => by
      have := ledger.allowed r hr.mem
      simp [StateLedgerEntry.envelopeAllowed, hsession, he] at this
    refine (mem_liveSets hr).1 sessionId fun s => ?_
    have htruthy : truthy p.holder.sessionId = some sessionId := by simp [truthy, hid, hne, Option.filter]
    cases ht : truthy p.holder.turnId <;>
      simp [addLive, hp, hopen, htruthy, ht, LiveSets.addSession, LiveSets.addTurn]
  | approval r p hr hp hid hopen => exact hid ▸ (request_live hr hp hopen).1

lemma nonRoots_nil {policy : RetentionPolicy} (h : policy.nonRootKinds = none) :
    policy.nonRootKinds.getD [] = [] := by
  rw [h]
  rfl

/-- Every record of a live session is history that the closure protects. -/
lemma protected_of_session {ledger : Ledger} {now : ℤ} {sessionId : String} {tasks : Finset String}
    (hlive : sessionId ∈ (liveSets (latest ledger.records) [] now).sessions) {r : StateLedgerEntry}
    (hr : r ∈ ledger.records) (hs : r.sessionId = some sessionId) :
    protectedHistory [] (liveSets (latest ledger.records) [] now) tasks r = true := by
  have hne : sessionId ≠ "" := fun he => by
    have := ledger.allowed r hr
    simp [StateLedgerEntry.envelopeAllowed, hs, he] at this
  have hscoped : scopedSession r = some sessionId := by
    unfold scopedSession
    split
    · rename_i p hp
      have := (normalizeLedgerScope_scope (ledger.normalized r hr)).2.1 p.id (by rw [hp]; rfl)
      rw [← this, hs]
    · exact hs
  simp [protectedHistory, hscoped, truthy, Option.filter, hne, hlive]

lemma protected_of_task {live : LiveSets} {tasks : Finset String} {r : StateLedgerEntry} {task : String}
    (ht : truthy r.taskId = some task) (hmem : task ∈ tasks) :
    protectedHistory [] live tasks r = true := by
  simp [protectedHistory, ht, hmem]

/-- Retention is invisible to a filter that only lets kept records through. -/
lemma retained_filter {records : List StateLedgerEntry} {policy : RetentionPolicy} {now : ℤ}
    {q : StateLedgerEntry → Bool}
    (h : ∀ r ∈ records, q r = true → r.sequence ∈ selectRetentionSequences records policy now) :
    (retained records policy now).filter q = records.filter q := by
  rw [retained, List.filter_filter]
  refine List.filter_congr fun r hr => ?_
  cases hq : q r with
  | false => rfl
  | true => simpa using h r hr hq

/-- The replay of a live session is the same on the retained records as on the whole ledger. -/
theorem replaySession_retained (ledger : Ledger) (policy : RetentionPolicy) (now : ℤ) (sessionId : String)
    (hpolicy : policy.nonRootKinds = none) (hlive : SessionLive ledger.records now sessionId) :
    replaySession (retained ledger.records policy now) sessionId = replaySession ledger.records sessionId := by
  have hclosed := retentionClosure_spec ledger.records policy now
  rw [nonRoots_nil hpolicy] at hclosed
  have hhistory : ∀ r ∈ ledger.records, r.sessionId = some sessionId →
      protectedHistory [] (liveSets (latest ledger.records) [] now)
        (retentionClosure ledger.records policy now).tasks r = true :=
    fun r hr hs => protected_of_session hlive.mem_sessions hr hs
  have hrecords : (retained ledger.records policy now).filter (fun r => r.sessionId == some sessionId) =
      ledger.records.filter (fun r => r.sessionId == some sessionId) :=
    retained_filter fun r hr hs => (hclosed.history r hr (hhistory r hr (by simpa using hs))).1
  have hroutes : (retained ledger.records policy now).filter (routeOfSession sessionId
        ((ledger.records.filter (fun r => r.sessionId == some sessionId)).filterMap fun r => truthy r.taskId)) =
      ledger.records.filter (routeOfSession sessionId
        ((ledger.records.filter (fun r => r.sessionId == some sessionId)).filterMap fun r => truthy r.taskId)) := by
    refine retained_filter fun r hr hroute => ?_
    simp only [routeOfSession, Bool.and_eq_true, Bool.or_eq_true, beq_iff_eq, Option.any_eq_true,
      List.contains_iff_mem, List.mem_filterMap, List.mem_filter] at hroute
    rcases hroute.2 with hs | ⟨-,task,htask,r',⟨hr',hs'⟩,ht'⟩
    · exact (hclosed.history r hr (hhistory r hr hs)).1
    · -- the task is one of the live session's own records, so its records are protected too
      have hmem := (hclosed.history r' hr' (hhistory r' hr' hs')).2 task ht'
      have htruthy : truthy r.taskId = some task := by
        rw [htask]
        have := (Option.filter_eq_some_iff.mp ht').2
        simpa [truthy, Option.filter] using this
      exact (hclosed.history r hr (protected_of_task htruthy hmem)).1
  simp only [replaySession, hrecords, hroutes]

/-- The record of a session at instant zero. -/
def sessionRecord (recordId : String) (sequence : ℕ) (id : String) (state : AgentSessionState)
    (parent : Option String) : StateLedgerEntry :=
  ⟨recordId,sequence,1,some 0,some id,none,none,.session ⟨id,"title",state,"",parent,none,none,none,""⟩⟩

/-- A closed session, and an open one whose turn has ended. -/
def sampleLedger : Ledger where
  records := [sessionRecord "a" 1 "closed" .closed none,sessionRecord "b" 2 "open" .idle none,
    ⟨"c",3,1,some 0,some "open",some "t",none,.turn ⟨"open","t",.completed,""⟩⟩]
  increasing := by decide
  allowed := by decide
  normalized := by decide

def pruneAll : RetentionPolicy := ⟨none,some 0,none,none,none⟩

theorem replaySession_retained_sample :
    retained sampleLedger.records pruneAll 1 = sampleLedger.records.tail ∧
      replaySession (retained sampleLedger.records pruneAll 1) "open" =
        replaySession sampleLedger.records "open" := by
  refine ⟨by decide +kernel,replaySession_retained sampleLedger pruneAll 1 "open" rfl ?_⟩
  exact .session (sessionRecord "b" 2 "open" .idle none) _ (by unfold IsLatest; decide +kernel) rfl rfl
    (by decide)

end OmniagentPlus.StateLedger
