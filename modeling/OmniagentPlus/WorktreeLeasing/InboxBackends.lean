import OmniagentPlus.WorktreeLeasing.InboxScopes
import OmniagentPlus.WorktreeLeasing.LeaseBackends
import OmniagentPlus.WorktreeLeasing.SupabaseInbox

/-! The local inbox and that of the database under the same sends and lists. A send that finds no room deletes
old messages of the database only, so that a clock that goes back behind it tells them apart. -/
namespace OmniagentPlus.WorktreeLeasing
open OmniagentPlus.Foundation OmniagentPlus.CoreContracts OmniagentPlus.StateLedger

/-- Both inboxes, and the last reading of the clock at which a message found no room. -/
structure Inboxes (ν : Type) where
  file : Option (LocalCoordinationInboxState ν)
  rows : List (InboxRow ν)
  refusedAt : Option ℤ

inductive InboxCall (ν : Type)
  | send (message : JsValue ν) (clock : ℤ) (uuid : Text)
  | list (query : CoordinationMessageQuery) (clock : ℤ)

/-- The send found no room. -/
def isFull : Except CoordinationError CoordinationMessageReceipt → Bool
  | .error .capacity => true
  | _ => false

section Calls
variable {ν : Type} [JsNumber ν] (isDatetime : Text → Bool) (jsonb : JsonRecord ν → JsonRecord ν)
  (scan : CoordinationMessageInput ν → Bool)

def Inboxes.empty (ν : Type) : Inboxes ν := ⟨none,[],none⟩

/-- A call on both. -/
def Inboxes.step (s : Inboxes ν) : InboxCall ν → Option (Inboxes ν)
  | .send message clock uuid =>
    let (answer,file) := send isDatetime s.file message (some clock) uuid
    some ⟨file,(SupabaseCoordinationChannel.send isDatetime jsonb scan s.rows message clock uuid).2,
      if isFull answer then some (toContractTimestamp clock) else s.refusedAt⟩
  | .list _ _ => some s

/-- The local channel's checks let the message through. -/
def localAccepts (message : JsValue ν) (now : ℤ) (uuid : Text) : Bool :=
  metadataInert message && metadataSafe isDatetime message && (parseInput (projectInert 65 message)).any fun input =>
    metadataInert input.toValue && (buildMessage isDatetime input now uuid).toOption.isSome

/-- The checks of the other channel and of the database do. -/
def sqlAccepts (message : JsValue ν) : Bool :=
  metadataSafe isDatetime message && (parseInput (projectInert 65 message)).any fun input =>
    storableMessage input && scan input

/-- The clock has not gone back behind a send that found no room. -/
def Inboxes.Timely (s : Inboxes ν) (clock : ℤ) : Prop := ∀ t ∈ s.refusedAt, t ≤ toContractTimestamp clock

/-- Calls that the backends can be compared by: a message that the checks of both accept or refuse, under an id
of its own, at a time that both write alike, and a query that the database reads, by a scope that is told from
those of the messages by more than slashes at the ends. -/
def Inboxes.Comparable (s : Inboxes ν) : InboxCall ν → Prop
  | .send message clock uuid => s.Timely clock ∧ sqlTimestamp (toContractTimestamp clock) = true ∧
      localAccepts isDatetime message (toContractTimestamp clock) uuid = sqlAccepts isDatetime scan message ∧
      ∀ m ∈ inboxMessages s.file, Text.codePoints m.message_id ≠ Text.codePoints (Text.of "msg:" ++ uuid)
  | .list query clock => s.Timely clock ∧
      (∀ c ∈ query.page.cursor, sqlTimestamp (toContractTimestamp c.timestamp) = true) ∧
      (query.scope.elim [] (·.selector) ++ (query.page.cursor.map (·.id)).toList).all jsonbText = true ∧
      ∀ r ∈ query.scope, r.allowed = true ∧ ∀ m ∈ inboxMessages s.file, SlashesAside m.scope r

/-- The message with its body as the database gives it back. -/
def withBody (m : MessageFields ν) : MessageFields ν := { m with body := m.body.map jsonb }

/-- Messages that come from the database, as the schema lets them through. -/
def readBack (ms : List (MessageFields ν)) : Except CoordinationError (List (MessageFields ν)) :=
  if ms.all fun m => m.allowed isDatetime then .ok ms else .error .malformed

/-- Both backends accept the message, with one receipt, both have no room for it, or both refuse it; both list
the same messages, where the schema accepts what the database makes of their bodies. -/
def Inboxes.Agree (s : Inboxes ν) : InboxCall ν → Prop
  | .send message clock uuid =>
    let sent := (send isDatetime s.file message (some clock) uuid).1
    let answer := (SupabaseCoordinationChannel.send isDatetime jsonb scan s.rows message clock uuid).1
    sent.toOption = answer.toOption ∧ isFull sent = isFull answer
  | .list query clock => SupabaseCoordinationChannel.list isDatetime s.rows query clock =
      (list isDatetime s.file query (some clock)).bind fun ms => readBack isDatetime (ms.map (withBody jsonb))

end Calls

section Shape
variable {ν : Type}

end Shape

section Mirrored
variable {ν : Type} (jsonb : JsonRecord ν → JsonRecord ν)

variable [JsNumber ν] {isDatetime : Text → Bool} {scan : CoordinationMessageInput ν → Bool}

/-- The message that a send writes. -/
def messageOf (input : CoordinationMessageInput ν) (now : ℤ) (uuid : Text) : MessageFields ν where
  message_id := Text.of "msg:" ++ uuid
  type := input.type
  sender := input.sender
  created_at := .contract now
  scope := input.scope
  target_holder := input.targetHolder
  lease_id := input.leaseId
  handoff_packet_id := input.handoffPacketId
  body := input.body.map jsonFields

end Mirrored

instance transRowTuples : Std.TransCmp compareRowTuples :=
  inferInstanceAs (Std.TransCmp (compareLex (compareOn fun a : CoordinationTuple => a.timestamp)
    (compareOn fun a => Text.codePoints a.id)))

section Lists
variable {ν : Type} {jsonb : JsonRecord ν → JsonRecord ν}

variable [JsNumber ν] {isDatetime : Text → Bool} {s : Inboxes ν}

end Lists

instance decidableTrimmed (t u : Text) : Decidable (TrimmedOverlap t u) := by
  unfold TrimmedOverlap
  infer_instance

instance decidableSpelled (t u : Text) : Decidable (SpelledAlike t u) := by
  unfold SpelledAlike FewerSlashes
  infer_instance

instance decidableAside (l r : LeaseScope) : Decidable (SlashesAside l r) := by
  have paths : Decidable ((∃ t ∈ l.selector, ∃ u ∈ r.selector, TrimmedOverlap t u) →
    ∃ t ∈ l.selector, ∃ u ∈ r.selector, SpelledAlike t u) := inferInstance
  have symbols : Decidable ((∃ t ∈ l.selector, ∃ u ∈ r.selector, trimSlashes t = trimSlashes u) →
    ∃ t ∈ l.selector, ∃ u ∈ r.selector, trimSlashes t = trimSlashes u ∧ endSlashes t = endSlashes u) := inferInstance
  unfold SlashesAside
  infer_instance

instance decidableComparable {ν : Type} [JsNumber ν] (isDatetime : Text → Bool) (scan : CoordinationMessageInput ν → Bool)
    (s : Inboxes ν) (a : InboxCall ν) : Decidable (s.Comparable isDatetime scan a) := by
  cases a <;> unfold Inboxes.Comparable Inboxes.Timely <;> infer_instance

end OmniagentPlus.WorktreeLeasing
