import OmniagentPlus.Foundation.PageWalk
import OmniagentPlus.StateLedger.CoordinationInbox

/-! Pages of the inbox: what a query lists, and what following the cursor of the last message gives. -/
namespace OmniagentPlus.StateLedger
open OmniagentPlus.Foundation OmniagentPlus.CoreContracts

@[simp] lemma toContractTimestamp_seconds (s : ℤ) : toContractTimestamp (1000 * s) = s := by
  rw [toContractTimestamp]
  omega

section Listing
variable {ν : Type}

@[simp] lemma messageTuple_listed (m : MessageFields ν) : messageTuple (listed m) = messageTuple m := by
  change CoordinationTuple.mk (toContractTimestamp (1000 * m.created_at.seconds)) m.message_id = _
  rw [toContractTimestamp_seconds]
  rfl

/-- What a query is after, on whichever page. -/
def matchingMessages (file : Option (LocalCoordinationInboxState ν)) (query : CoordinationMessageQuery) (now : ℤ) :
    List (MessageFields ν) :=
  ((inboxMessages file).map listed).filter (matchesQuery query now)

/-- The same, in the order of the pages. -/
def orderedMessages (file : Option (LocalCoordinationInboxState ν)) (query : CoordinationMessageQuery) (now : ℤ) :
    List (MessageFields ν) :=
  (matchingMessages file query now).mergeSort fun left right =>
    compareCoordinationTuple (messageTuple left) (messageTuple right) != .gt

variable [JsNumber ν] {isDatetime : Text → Bool} {file : Option (LocalCoordinationInboxState ν)}

/-- A list of an inbox that the schema accepts is a page of these. -/
theorem list_eq {query : CoordinationMessageQuery} {clock : ℤ} {state : LocalCoordinationInboxState ν} {limit : ℕ}
    {cursor : Option CoordinationTuple} (hread : readInbox isDatetime file (toContractTimestamp clock) = .ok state)
    (hpage : validateCoordinationPage query.page = some (limit,cursor)) :
    list isDatetime file query (some clock) = .ok (((orderedMessages file query (toContractTimestamp clock)).filter fun m =>
      cursor.all fun c => compareCoordinationTuple (messageTuple m) c == .gt).take limit) := by
  rw [orderedMessages, matchingMessages, ← readInbox_messages hread]
  refine except_bind_eq_ok.mpr ⟨(limit,cursor),by rw [hpage]; rfl,?_⟩
  exact except_bind_eq_ok.mpr ⟨clock,rfl,except_bind_eq_ok.mpr ⟨state,hread,rfl⟩⟩

/-- A list that succeeds is one. -/
theorem list_ok {query : CoordinationMessageQuery} {clock : ℤ} {ms : List (MessageFields ν)}
    (h : list isDatetime file query (some clock) = .ok ms) :
    ∃ limit cursor state, validateCoordinationPage query.page = some (limit,cursor) ∧
      readInbox isDatetime file (toContractTimestamp clock) = .ok state ∧
      ms = ((orderedMessages file query (toContractTimestamp clock)).filter fun m =>
        cursor.all fun c => compareCoordinationTuple (messageTuple m) c == .gt).take limit := by
  have hok := h
  unfold list at hok
  obtain ⟨⟨limit,cursor⟩,hpage,hok⟩ := except_bind_eq_ok.mp hok
  obtain ⟨instant,hinstant,hok⟩ := except_bind_eq_ok.mp hok
  obtain ⟨state,hread,-⟩ := except_bind_eq_ok.mp hok
  cases hinstant
  cases hvalid : validateCoordinationPage query.page with
  | none =>
    rw [hvalid] at hpage
    cases hpage
  | some valid =>
    rw [hvalid] at hpage
    cases hpage
    rw [list_eq hread hvalid] at h
    cases h
    exact ⟨limit,cursor,state,rfl,hread,rfl⟩

lemma readInbox_some {state : LocalCoordinationInboxState ν} (hupdated : state.updatedAt.accepted = true)
    (hmessages : (state.messages.all fun m => m.allowed isDatetime) = true) (now : ℤ) :
    readInbox isDatetime (some state) now = .ok state := by
  rw [readInbox, hupdated, hmessages]
  rfl

/-- The messages that an accepted inbox has are accepted. -/
lemma allowed_of_read {now : ℤ} {state : LocalCoordinationInboxState ν} (hread : readInbox isDatetime file now = .ok state)
    {m : MessageFields ν} (hm : m ∈ inboxMessages file) : m.allowed isDatetime = true := by
  unfold readInbox at hread
  cases file with
  | none => cases hm
  | some stored =>
    dsimp only at hread
    split_ifs at hread with hok
    rw [Bool.and_eq_true, List.all_eq_true] at hok
    exact hok.2 m hm

variable (isDatetime file)

variable {isDatetime file}

end Listing

/-- One number for all of them, for messages that have none. -/
instance oneNumber : JsNumber Unit where
  ofLiteral _ := ()
  isFinite _ := true
  isInteger _ := true
  isNonnegative _ := true
  toText _ := Text.of "0"
  epochToIso _ := none
end OmniagentPlus.StateLedger
