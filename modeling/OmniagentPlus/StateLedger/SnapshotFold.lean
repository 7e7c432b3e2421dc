import OmniagentPlus.StateLedger.Replay
import Mathlib.Data.Finset.Card

/-! What the control snapshot folds from records in sequence order: its maps hold the newest
record of an entity, and its tree the walk over the newest session records. -/
namespace OmniagentPlus.StateLedger
open OmniagentPlus.Foundation OmniagentPlus.CoreContracts

/-- Records in sequence order, as a ledger keeps them. -/
abbrev InOrder (records : List StateLedgerEntry) : Prop := records.Pairwise (·.sequence < ·.sequence)

theorem sortBySequence_eq {records : List StateLedgerEntry} (h : InOrder records) :
    sortBySequence records = records :=
  List.mergeSort_of_pairwise (h.imp fun hlt => by simpa using hlt.le)

lemma inOrder_ofKind {records : List StateLedgerEntry} (h : InOrder records)
    (kind : StateLedgerRecordKind) : InOrder (ofKind records kind) :=
  h.filter _

/-- A map over the records of one kind, under keys that match the entity keys. -/
lemma get?_latestMap {κ : Type} [DecidableEq κ] {records : List StateLedgerEntry} (h : InOrder records)
    {kind : StateLedgerRecordKind} {keyFor : StateLedgerEntry → κ} {k : κ} {key : EntityKey}
    (hkey : ∀ r, r.kind = kind ∧ keyFor r = k ↔ entityKey r = key) :
    (latestMap keyFor (ofKind records kind)).get? k = (latest records).get? key := by
  rw [latestMap, sortBySequence_eq (inOrder_ofKind h kind), latest, Dictionary.get?_indexBy,
    Dictionary.get?_indexBy, ofKind, List.filter_filter]
  congr 1
  refine List.filter_congr fun r _ => ?_
  rw [Bool.eq_iff_iff]
  simp only [Bool.and_eq_true, decide_eq_true_eq]
  rw [and_comm]
  exact hkey r

theorem get?_approvalResponsesById {records : List StateLedgerEntry} (h : InOrder records)
    (p : RuntimeApprovalRequest) :
    (approvalResponsesById records).get? (requestKey p) = (latest records).get? (responseKey p) := by
  refine get?_latestMap h fun r => ?_
  obtain ⟨recordId,sequence,schemaVersion,recordedAt,sessionId,turnId,taskId,payload⟩ := r
  cases payload <;> simp [StateLedgerEntry.kind, LedgerPayload.kind, entityKey, responseKey, requestKey,
    approvalId, requestPayload, responsePayload]

/-- The newest session record of an id. -/
def sessionKey (id : String) : EntityKey := [some "session",some id]

def latestSession (records : List StateLedgerEntry) (id : String) : Option AgentSession :=
  ((latest records).get? (sessionKey id)).bind sessionPayload

lemma entityKey_eq_sessionKey {r : StateLedgerEntry} {id : String} :
    entityKey r = sessionKey id ↔ ∃ p, sessionPayload r = some p ∧ p.id = id := by
  obtain ⟨recordId,sequence,schemaVersion,recordedAt,sessionId,turnId,taskId,payload⟩ := r
  cases payload <;> simp [entityKey, sessionKey, sessionPayload]

lemma sessionPayload_isSome_of_kind {r : StateLedgerEntry} :
    r.kind = .session ↔ ∃ p, sessionPayload r = some p := by
  obtain ⟨recordId,sequence,schemaVersion,recordedAt,sessionId,turnId,taskId,payload⟩ := r
  cases payload <;> simp [StateLedgerEntry.kind, LedgerPayload.kind, sessionPayload]

theorem mem_latestSessions {records : List StateLedgerEntry} (h : InOrder records) (p : AgentSession) :
    p ∈ latestSessions records ↔ latestSession records p.id = some p := by
  have hmap : ∀ id, (latestMap (fun r => (sessionPayload r).map (·.id)) (ofKind records .session)).get?
      (some id) = (latest records).get? (sessionKey id) := by
    intro id
    refine get?_latestMap h fun r => ?_
    rw [sessionPayload_isSome_of_kind, entityKey_eq_sessionKey, Option.map_eq_some_iff]
    constructor
    · rintro ⟨-,q,hq,hid⟩
      exact ⟨q,hq,hid⟩
    · rintro ⟨q,hq,hid⟩
      exact ⟨⟨q,hq⟩,q,hq,hid⟩
  simp only [latestSessions, latestByKey, List.mem_filterMap, Dictionary.mem_values_iff, latestSession,
    Option.bind_eq_some_iff]
  constructor
  · rintro ⟨r,⟨k,hk⟩,hp⟩
    have hkey := (Dictionary.mem_of_get?_indexBy hk).2
    rw [hp] at hkey
    rw [← hkey, Option.map_some, hmap] at hk
    exact ⟨r,hk,hp⟩
  · rintro ⟨r,hr,hp⟩
    exact ⟨r,⟨some p.id,by rw [hmap]; exact hr⟩,hp⟩

lemma latestSession_id {records : List StateLedgerEntry} {id : String} {p : AgentSession}
    (h : latestSession records id = some p) : p.id = id := by
  obtain ⟨r,hr,hp⟩ := Option.bind_eq_some_iff.mp h
  obtain ⟨q,hq,hid⟩ := entityKey_eq_sessionKey.mp (Dictionary.mem_of_get?_indexBy hr).2
  rw [hp] at hq
  cases hq
  exact hid

theorem get?_sessionsById {records : List StateLedgerEntry} (h : InOrder records) (id : String) :
    (sessionsById records).get? id = latestSession records id := by
  cases hl : latestSession records id with
  | none =>
    cases hg : (sessionsById records).get? id with
    | none => rfl
    | some p =>
      obtain ⟨hp,hid⟩ := Dictionary.mem_of_get?_indexBy hg
      rw [mem_latestSessions h, hid, hl] at hp
      cases hp
  | some p =>
    have hid := latestSession_id hl
    have hp : p ∈ latestSessions records := (mem_latestSessions h p).mpr (by rw [hid]; exact hl)
    obtain ⟨q,hq⟩ := Dictionary.get?_indexBy_isSome (f := fun s : AgentSession => s.id) hp
    obtain ⟨hqmem,hqid⟩ := Dictionary.mem_of_get?_indexBy hq
    rw [mem_latestSessions h, hqid, hid, hl] at hqmem
    cases hqmem
    rw [sessionsById, ← hid]
    exact hq

section Walk
variable {sessions : Dictionary String AgentSession}

/-- Whatever an id is mapped to has that id. -/
def Keyed (sessions : Dictionary String AgentSession) : Prop := ∀ id p, sessions.get? id = some p → p.id = id

/-- A session that the map holds, if there is one. -/
def Held (sessions : Dictionary String AgentSession) (current : Option AgentSession) : Prop :=
  ∀ p, current = some p → sessions.get? p.id = some p

/-- The walk ends before its fuel does, so one more step changes nothing. -/
lemma walkParents_succ (hk : Keyed sessions) {fuel : ℕ} {seen : Finset String} {steps : ℕ}
    {current : Option AgentSession} (hc : Held sessions current)
    (hfuel : (sessions.keys.toFinset \ seen).card < fuel) :
    walkParents sessions (fuel + 1) seen steps current = walkParents sessions fuel seen steps current := by
  induction fuel generalizing seen steps current with
  | zero => omega
  | succ fuel ih =>
    cases current with
    | none => rfl
    | some p =>
      rw [walkParents, walkParents]
      cases truthy p.parentSessionId with
      | none => rfl
      | some parent =>
        dsimp only
        split_ifs with hseen
        · rfl
        · refine ih (fun q hq => ?_) ?_
          · rw [hk parent q hq]
            exact hq
          · have hp : p.id ∈ sessions.keys.toFinset \ seen := by
              rw [Finset.mem_sdiff, List.mem_toFinset, Dictionary.mem_keys_iff, hc p rfl]
              exact ⟨rfl,hseen⟩
            have hlt : (sessions.keys.toFinset \ insert p.id seen).card <
                (sessions.keys.toFinset \ seen).card := by
              refine Finset.card_lt_card ⟨?_,fun hsub => ?_⟩
              · exact Finset.sdiff_subset_sdiff (Finset.Subset.refl _) (Finset.subset_insert _ _)
              · have := hsub hp
                simp at this
            omega

theorem walkParents_eq_of_le (hk : Keyed sessions) {current : Option AgentSession}
    (hc : Held sessions current) {fuel : ℕ} (hfuel : walkFuel sessions ≤ fuel) :
    walkParents sessions fuel ∅ 0 current = walkParents sessions (walkFuel sessions) ∅ 0 current := by
  induction fuel, hfuel using Nat.le_induction with
  | base => rfl
  | succ fuel hle ih =>
    rw [← ih]
    refine walkParents_succ hk hc ?_
    have hcard : (sessions.keys.toFinset \ ∅).card ≤ sessions.keys.length := by
      rw [Finset.sdiff_empty]
      exact List.toFinset_card_le _
    have hlen : sessions.keys.length = sessions.entries.length := List.length_map _
    unfold walkFuel at hle
    omega

/-- Two maps that agree on the parents of the sessions walked give the same walk. -/
lemma walkParents_congr {A B : Dictionary String AgentSession} {K : AgentSession → Prop}
    (hparent : ∀ p, K p → ∀ parent, truthy p.parentSessionId = some parent →
      A.get? parent = B.get? parent ∧ ∀ q, B.get? parent = some q → K q)
    (fuel : ℕ) (seen : Finset String) (steps : ℕ) {current : Option AgentSession}
    (hc : ∀ p, current = some p → K p) :
    walkParents A fuel seen steps current = walkParents B fuel seen steps current := by
  induction fuel generalizing seen steps current with
  | zero => rfl
  | succ fuel ih =>
    cases current with
    | none => rfl
    | some p =>
      rw [walkParents, walkParents]
      cases ht : truthy p.parentSessionId with
      | none => rfl
      | some parent =>
        obtain ⟨hget,hkept⟩ := hparent p (hc p rfl) parent ht
        dsimp only
        rw [hget]
        split_ifs
        · rfl
        · exact ih _ _ hkept

end Walk

theorem keyed_sessionsById {records : List StateLedgerEntry} (h : InOrder records) :
    Keyed (sessionsById records) := by
  intro id p hp
  rw [get?_sessionsById h] at hp
  exact latestSession_id hp

section Approvals
variable {records : List StateLedgerEntry}

lemma mem_approvalRequests (h : InOrder records) (p : RuntimeApprovalRequest) :
    p ∈ approvalRequests records ↔ ∃ r ∈ records, r.payload = .approvalRequest p := by
  rw [approvalRequests, sortBySequence_eq (inOrder_ofKind h _), List.mem_filterMap]
  constructor
  · rintro ⟨r,hr,hp⟩
    refine ⟨r,(List.mem_filter.mp hr).1,?_⟩
    unfold requestPayload at hp
    split at hp
    · cases hp
      assumption
    · cases hp
  · rintro ⟨r,hr,hp⟩
    refine ⟨r,List.mem_filter.mpr ⟨hr,?_⟩,?_⟩
    · simp [StateLedgerEntry.kind, hp, LedgerPayload.kind]
    · simp [requestPayload, hp]

theorem findResponse_eq (h : InOrder records) (p : RuntimeApprovalRequest) :
    findResponse (approvalResponsesById records) p = ((latest records).get? (responseKey p)).bind responsePayload := by
  rw [findResponse, get?_approvalResponsesById h]

/-- A request and a response with its session, turn and id. -/
def Answers (p : RuntimeApprovalRequest) (r : StateLedgerEntry) : Prop :=
  ∃ a, r.payload = .approvalResponse a ∧ r.sessionId = some p.sessionId ∧ r.turnId = some p.turnId ∧
    a.approvalRequestId = p.approvalRequestId

theorem answers_iff {p : RuntimeApprovalRequest} {r : StateLedgerEntry} :
    Answers p r ↔ entityKey r = responseKey p := by
  obtain ⟨recordId,sequence,schemaVersion,recordedAt,sessionId,turnId,taskId,payload⟩ := r
  unfold Answers entityKey responseKey
  cases payload <;> simp

lemma no_response {records : List StateLedgerEntry} {p : RuntimeApprovalRequest}
    (h : ∀ s ∈ records, ¬ Answers p s) : (latest records).get? (responseKey p) = none := by
  cases hget : (latest records).get? (responseKey p) with
  | none => rfl
  | some s =>
    obtain ⟨hs,hkey⟩ := Dictionary.mem_of_get?_indexBy hget
    exact absurd (answers_iff.mpr hkey) (h s hs)

/-- The snapshot finds no response to a request where the ledger has none. -/
theorem findResponse_eq_none_iff (h : InOrder records) {p : RuntimeApprovalRequest} :
    findResponse (approvalResponsesById records) p = none ↔ ∀ r ∈ records, ¬Answers p r := by
  rw [findResponse_eq h]
  constructor
  · intro hnone r hr ha
    obtain ⟨n,hn⟩ := Dictionary.get?_indexBy_isSome (f := entityKey) hr
    rw [answers_iff.mp ha] at hn
    obtain ⟨a,hpayload,-⟩ := answers_iff.mpr (Dictionary.mem_of_get?_indexBy hn).2
    rw [latest, hn, Option.bind_some, responsePayload, hpayload] at hnone
    cases hnone
  · intro hopen
    rw [no_response hopen]
    rfl

end Approvals

end OmniagentPlus.StateLedger
