import OmniagentPlus.CoreContracts.IdentityProfile

/-! `state-ledger.ts`: ledger records. A payload has the fields that retention and replay
read; `rest` stands for the payload's other fields. -/
namespace OmniagentPlus.CoreContracts

inductive StateLedgerRecordKind
  | session
  | turn
  | runtimeEvent
  | routeDecision
  | limitClassification
  | identityProfileStatus
  | providerCooldown
  | worktreeLease
  | approvalRequest
  | approvalResponse
  | capabilitySnapshot
  | evidenceRef
  deriving DecidableEq, Repr

def stateLedgerRecordKinds : List StateLedgerRecordKind :=
  [.session,.turn,.runtimeEvent,.routeDecision,.limitClassification,.identityProfileStatus,
   .providerCooldown,.worktreeLease,.approvalRequest,.approvalResponse,.capabilitySnapshot,.evidenceRef]

inductive AgentSessionState
  | created
  | starting
  | idle
  | turnActive
  | blockedOnApproval
  | cancelling
  | closed
  | failed
  deriving DecidableEq, Repr

inductive TurnState
  | accepted
  | queued
  | running
  | blockedOnToolApproval
  | cancelling
  | cancelled
  | timedOut
  | completed
  | failed
  deriving DecidableEq, Repr

structure AgentSession where
  id : String
  title : String
  state : AgentSessionState
  createdAt : String
  parentSessionId : Option String
  rootSessionId : Option String
  /-- `worktree?.id` -/
  worktree : Option String
  /-- `handoffPacket?.packetId` and `handoffPacket?.sourceSessionIds` -/
  handoffPacket : Option (String × List String)
  rest : String
  deriving DecidableEq, Repr

structure TurnHandle where
  sessionId : String
  turnId : String
  state : TurnState
  rest : String
  deriving DecidableEq, Repr

structure RuntimeEvent where
  sessionId : String
  turnId : Option String
  sequence : ℕ
  rest : String
  deriving DecidableEq, Repr

structure RouteDecision where
  taskId : String
  rest : String
  deriving DecidableEq, Repr

inductive ApprovalRisk
  | low
  | medium
  | high
  deriving DecidableEq, Repr

structure RuntimeApprovalRequest where
  approvalRequestId : String
  toolCallId : Option String
  sessionId : String
  turnId : String
  requestedAction : String
  risk : ApprovalRisk
  allowedApprovers : List String
  expiresAt : Option String
  deriving DecidableEq, Repr

inductive ApprovalDecision
  | approved
  | denied
  | timedOut
  | cancelled
  deriving DecidableEq, Repr

structure RuntimeApprovalResponse where
  approvalRequestId : String
  decision : ApprovalDecision
  decidedBy : Option String
  decidedAt : String
  reason : Option String
  deriving DecidableEq, Repr

inductive LedgerPayload
  | session (payload : AgentSession)
  | turn (payload : TurnHandle)
  | runtimeEvent (payload : RuntimeEvent)
  | routeDecision (payload : RouteDecision)
  | limitClassification (sessionId : Option String) (rest : String)
  | identityProfileStatus (profileId rest : String)
  | providerCooldown (payload : ProviderFamilyCooldown)
  | worktreeLease (payload : WorktreeLease)
  | approvalRequest (payload : RuntimeApprovalRequest)
  | approvalResponse (payload : RuntimeApprovalResponse)
  | capabilitySnapshot (rest : String)
  | evidenceRef (rest : String)
  deriving DecidableEq, Repr

def LedgerPayload.kind : LedgerPayload → StateLedgerRecordKind
  | .session _ => .session
  | .turn _ => .turn
  | .runtimeEvent _ => .runtimeEvent
  | .routeDecision _ => .routeDecision
  | .limitClassification _ _ => .limitClassification
  | .identityProfileStatus _ _ => .identityProfileStatus
  | .providerCooldown _ => .providerCooldown
  | .worktreeLease _ => .worktreeLease
  | .approvalRequest _ => .approvalRequest
  | .approvalResponse _ => .approvalResponse
  | .capabilitySnapshot _ => .capabilitySnapshot
  | .evidenceRef _ => .evidenceRef

/-- What the schema of a record may make of its payload: itself, or of a session one whose handoff packet has its
paths spelled anew. -/
inductive LedgerPayload.Respelled : LedgerPayload → LedgerPayload → Prop
  | same (payload : LedgerPayload) : Respelled payload payload
  | session (p : AgentSession) (rest : String) : Respelled (.session p) (.session { p with rest := rest })

/-- A payload without what may be spelled anew in it. -/
def LedgerPayload.core : LedgerPayload → LedgerPayload
  | .session p => .session { p with rest := "" }
  | payload => payload

theorem LedgerPayload.core_of_kind {payload : LedgerPayload} (h : payload.kind ≠ .session) : payload.core = payload := by
  cases payload with
  | session p => exact absurd rfl h
  | _ => rfl

@[simp] theorem LedgerPayload.core_kind (payload : LedgerPayload) : payload.core.kind = payload.kind := by
  cases payload <;> rfl

namespace LedgerPayload.Respelled
variable {payload spelled : LedgerPayload}

theorem core_eq (h : payload.Respelled spelled) : spelled.core = payload.core := by
  cases h <;> rfl

theorem eq (h : payload.Respelled spelled) (hkind : payload.kind ≠ .session) : spelled = payload := by
  cases h with
  | same => rfl
  | session p rest => exact absurd rfl hkind

/-- What is left of a payload in its core is a spelling of it too. -/
theorem core (h : payload.Respelled spelled) : payload.Respelled spelled.core := by
  cases h with
  | same =>
    cases payload with
    | session p => exact .session p ""
    | _ => exact .same _
  | session p rest => exact .session p ""

theorem ne_worktreeLease (h : payload.Respelled spelled) (hne : ∀ lease, payload ≠ .worktreeLease lease)
    (lease : WorktreeLease) : spelled ≠ .worktreeLease lease := by
  cases h with
  | same => exact hne lease
  | session p rest => simp

end LedgerPayload.Respelled

structure StateLedgerEntry where
  recordId : String
  sequence : ℕ
  schemaVersion : ℕ
  recordedAt : Instant
  sessionId : Option String
  turnId : Option String
  taskId : Option String
  payload : LedgerPayload
  deriving DecidableEq, Repr

def StateLedgerEntry.kind (r : StateLedgerEntry) : StateLedgerRecordKind := r.payload.kind

/-- A record without what may be spelled anew of its payload. -/
def StateLedgerEntry.core (r : StateLedgerEntry) : StateLedgerEntry := { r with payload := r.payload.core }

@[simp] theorem StateLedgerEntry.core_recordId (r : StateLedgerEntry) : r.core.recordId = r.recordId := rfl

@[simp] theorem StateLedgerEntry.core_sequence (r : StateLedgerEntry) : r.core.sequence = r.sequence := rfl

/-- No other record than one of a session loses anything in its core. -/
theorem StateLedgerEntry.eq_of_core {r q : StateLedgerEntry} (h : q.core = r.core) (hkind : r.kind ≠ .session) : q = r := by
  obtain ⟨_,_,_,_,_,_,_,payload⟩ := r
  obtain ⟨_,_,_,_,_,_,_,payload'⟩ := q
  simp only [core, StateLedgerEntry.mk.injEq] at h ⊢
  obtain ⟨h₁,h₂,h₃,h₄,h₅,h₆,h₇,hpayload⟩ := h
  have hkind' : payload'.kind ≠ .session := by rwa [← payload'.core_kind, hpayload, payload.core_kind]
  exact ⟨h₁,h₂,h₃,h₄,h₅,h₆,h₇,by rwa [LedgerPayload.core_of_kind hkind, LedgerPayload.core_of_kind hkind'] at hpayload⟩

namespace StateLedgerEntry
variable {rs qs : List StateLedgerEntry}

@[simp] theorem map_core_core (rs : List StateLedgerEntry) : (rs.map core).map core = rs.map core := by
  rw [List.map_map]
  refine List.map_congr_left fun r _ => ?_
  obtain ⟨_,_,_,_,_,_,_,payload⟩ := r
  cases payload <;> rfl

theorem mem_of_core {r : StateLedgerEntry} (h : r.core ∈ qs.map core) (hkind : r.kind ≠ .session) : r ∈ qs := by
  obtain ⟨q,hq,hcore⟩ := List.mem_map.mp h
  exact eq_of_core hcore hkind ▸ hq

/-- Records with the same cores are the same ones of every kind but sessions. -/
theorem filter_of_core {p : StateLedgerEntry → Bool} (hp : ∀ r, p r = true → r.kind ≠ .session)
    (h : qs.map core = rs.map core) : qs.filter p = rs.filter p := by
  induction rs generalizing qs with
  | nil => rw [List.map_eq_nil_iff.mp h]
  | cons r rs ih =>
    obtain ⟨q,rest,rfl,hcore,hrest⟩ := List.map_eq_cons_iff.mp h
    have htail := ih hrest
    by_cases hr : p r = true
    · rw [eq_of_core hcore (hp r hr), List.filter_cons_of_pos hr, List.filter_cons_of_pos hr, htail]
    · have hq : ¬ p q = true := fun hq => hr (eq_of_core hcore.symm (hp q hq) ▸ hq)
      rw [List.filter_cons_of_neg hr, List.filter_cons_of_neg hq, htail]

end StateLedgerEntry

/-- A string that JavaScript takes for true. -/
def truthy (s : Option String) : Option String := s.filter (· ≠ "")

/-- The nonempty strings and positive numbers of `stateLedgerRecordBaseSchema`. -/
def StateLedgerEntry.envelopeAllowed (r : StateLedgerEntry) : Bool :=
  r.recordId != "" && decide (0 < r.sequence) && decide (0 < r.schemaVersion) && r.sessionId != some "" &&
    r.turnId != some "" && r.taskId != some ""

/-- The scope that a payload itself names: session, turn and task. -/
def LedgerPayload.scope : LedgerPayload → Option String × Option String × Option String
  | .session p => (some p.id,none,none)
  | .turn p => (some p.sessionId,some p.turnId,none)
  | .approvalRequest p => (some p.sessionId,some p.turnId,none)
  | .runtimeEvent p => (some p.sessionId,p.turnId,none)
  | .worktreeLease p => (p.holder.sessionId,p.holder.turnId,none)
  | .limitClassification sessionId _ => (sessionId,none,none)
  | .routeDecision p => (none,none,some p.taskId)
  | _ => (none,none,none)

/-- `envelope !== undefined && payload !== undefined && envelope !== payload` -/
def scopeConflicts (envelope payload : Option String) : Bool :=
  envelope.isSome && payload.isSome && envelope != payload

/-- `normalizeLedgerScope`: the envelope's scope completed from the payload's, unless they conflict. -/
def normalizeLedgerScope (r : StateLedgerEntry) : Option StateLedgerEntry :=
  let (sessionId,turnId,taskId) := r.payload.scope
  if scopeConflicts r.sessionId sessionId || scopeConflicts r.turnId turnId ||
      scopeConflicts r.taskId taskId then none
  else some { r with
    sessionId := r.sessionId.or sessionId
    turnId := r.turnId.or turnId
    taskId := r.taskId.or taskId }

/-- What the scope of a normalized record agrees with. -/
theorem normalizeLedgerScope_scope {r s : StateLedgerEntry} (h : normalizeLedgerScope r = some s) :
    s.payload = r.payload ∧
      (∀ id, s.payload.scope.1 = some id → s.sessionId = some id) ∧
      (∀ id, s.payload.scope.2.1 = some id → s.turnId = some id) ∧
      (∀ id, s.payload.scope.2.2 = some id → s.taskId = some id) := by
  have hor : ∀ e p : Option String, scopeConflicts e p = false → ∀ id, p = some id → e.or p = some id := by
    intro e p hc id hp
    subst hp
    cases e with
    | none => rfl
    | some e => simpa [scopeConflicts] using hc
  simp only [normalizeLedgerScope] at h
  split_ifs at h with hc
  simp only [Bool.or_eq_true, not_or, Bool.not_eq_true] at hc
  cases h
  exact ⟨rfl,hor _ _ hc.1.1,hor _ _ hc.1.2,hor _ _ hc.2⟩

/-- A normalized record is the record but for its scope, and normalizing it again changes nothing. -/
theorem normalizeLedgerScope_eq {r s : StateLedgerEntry} (h : normalizeLedgerScope r = some s) :
    s.recordId = r.recordId ∧ s.sequence = r.sequence ∧ s.schemaVersion = r.schemaVersion ∧
      normalizeLedgerScope s = some s := by
  have hagain : ∀ e p : Option String, scopeConflicts e p = false →
      scopeConflicts (e.or p) p = false ∧ (e.or p).or p = e.or p := by
    intro e p hc
    cases e <;> cases p <;> simp_all [scopeConflicts]
  simp only [normalizeLedgerScope] at h
  split_ifs at h with hc
  simp only [Bool.or_eq_true, not_or, Bool.not_eq_true] at hc
  cases h
  obtain ⟨hs,hs'⟩ := hagain _ _ hc.1.1
  obtain ⟨ht,ht'⟩ := hagain _ _ hc.1.2
  obtain ⟨hk,hk'⟩ := hagain _ _ hc.2
  refine ⟨rfl,rfl,rfl,?_⟩
  simp only [normalizeLedgerScope, hs, ht, hk, hs', ht', hk']
  simp

theorem LedgerPayload.Respelled.scope_eq {payload spelled : LedgerPayload} (h : payload.Respelled spelled) :
    spelled.scope = payload.scope := by
  cases h <;> rfl

/-- A normalized record stays one when its payload is spelled anew. -/
theorem normalizeLedgerScope_respelled {r : StateLedgerEntry} {spelled : LedgerPayload} (h : normalizeLedgerScope r = some r)
    (hspelled : r.payload.Respelled spelled) :
    normalizeLedgerScope { r with payload := spelled } = some { r with payload := spelled } := by
  obtain ⟨recordId,sequence,schemaVersion,recordedAt,sessionId,turnId,taskId,payload⟩ := r
  simp only [normalizeLedgerScope, hspelled.scope_eq, Option.ite_none_left_eq_some, Option.some.injEq,
    StateLedgerEntry.mk.injEq, true_and, and_true] at h ⊢
  exact h

/-- The records of a ledger that has been read: in sequence order, each checked and with its
scope normalized. -/
structure Ledger where
  records : List StateLedgerEntry
  increasing : records.Pairwise (·.sequence < ·.sequence)
  allowed : ∀ r ∈ records, r.envelopeAllowed = true
  normalized : ∀ r ∈ records, normalizeLedgerScope r = some r

end OmniagentPlus.CoreContracts
