import OmniagentPlus.OmnigentTransport.TrimmedHistory

/-! What `trimDeliveredHistoryText` leaves of a history, where the text delivered of each message and the
message's text agree as far as both go. -/
namespace OmniagentPlus.OmnigentTransport
open OmniagentPlus.Foundation OmniagentPlus.CoreContracts

section Matched
variable {ν : Type}

def messageKey (e : RuntimeEventEnvelope ν) : Text := (runtimeTextMessageId e.eventId).getD identityFree

/-- One text goes on where the other ends. -/
def Agree (l r : Text) : Prop := l <+: r ∨ r <+: l

instance decidableAgree (l r : Text) : Decidable (Agree l r) := inferInstanceAs (Decidable (l <+: r ∨ r <+: l))

namespace EventReplay
variable {s : EventReplay} {sessionId : Text} {cursor : ℕ} {events : List (RuntimeEventEnvelope ν)}

/-- What is left of an event, by its place in the history. -/
lemma remainingByEvent_known {before after : List (RuntimeEventEnvelope ν)} {e : RuntimeEventEnvelope ν}
    (h : s.Known sessionId cursor (before ++ e :: after) none) {turnId delta : Text} (htext : turnText e = some (turnId,delta))
    (hagree : ∀ text, s.deliveredTo sessionId (some cursor) turnId (messageKey e) = some text →
      Agree text (currentText none (before ++ e :: after) turnId (messageKey e))) :
    (s.remainingByEvent sessionId (before ++ e :: after) cursor none).get? before.length =
      (s.deliveredTo sessionId (some cursor) turnId (messageKey e)).map fun text =>
        delta.drop (text.length - (currentText none before turnId (messageKey e)).length) := by
  have hchunk : chunk none turnId (messageKey e) e = some delta := chunk_eq_some.mpr ⟨htext,rfl⟩
  have hplace : (before ++ e :: after)[before.length]? = some e := by simp
  cases hdelivered : s.deliveredTo sessionId (some cursor) turnId (messageKey e) with
  | none => exact remainingByEvent_undelivered h hplace htext hdelivered
  | some text =>
    obtain hfront | hcovered := hagree text hdelivered
    · exact remainingByEvent_front h hchunk hdelivered hfront
    · have hlong : delta.length ≤ text.length - (currentText none before turnId (messageKey e)).length := by
        have hle := hcovered.length_le
        rw [currentText_append, currentText_cons, hchunk, List.length_append, List.length_append, Option.getD_some] at hle
        omega
      rw [Option.map_some, List.drop_eq_nil_of_le hlong]
      exact remainingByEvent_covered h hplace hchunk hdelivered hcovered

end EventReplay

/-- What is left of an event where the events `before` it come first in the history and `delivered`
is the text that the reader has of each message. -/
def cut (delivered : Text → Text → Option Text) (before : List (RuntimeEventEnvelope ν)) (e : RuntimeEventEnvelope ν) :
    List (RuntimeEventEnvelope ν) :=
  match turnText e with
  | none => [e]
  | some (turnId,delta) =>
    match delivered turnId (messageKey e) with
    | none => [e]
    | some text =>
      let rest := delta.drop (text.length - (currentText none before turnId (messageKey e)).length)
      if rest.isEmpty then [] else [EventReplay.continuation e delta.length rest]

def undelivered (delivered : Text → Text → Option Text) :
    List (RuntimeEventEnvelope ν) → List (RuntimeEventEnvelope ν) → List (RuntimeEventEnvelope ν)
  | _, [] => []
  | before, e :: es => cut delivered before e ++ undelivered delivered (before ++ [e]) es

lemma undelivered_none (before events : List (RuntimeEventEnvelope ν)) :
    undelivered (fun _ _ => none) before events = events := by
  induction events generalizing before with
  | nil => rfl
  | cons e es ih =>
    rw [undelivered, ih, cut]
    cases turnText e <;> rfl

namespace EventReplay
variable {s : EventReplay} {sessionId : Text} {cursor : ℕ} {events : List (RuntimeEventEnvelope ν)}

/-- Trimming leaves of each event what lies behind the text delivered of its message. -/
theorem trimDeliveredHistoryText_undelivered (h : s.Known sessionId cursor events none)
    (hagree : ∀ e ∈ events, ∀ p ∈ turnText e, ∀ text, s.deliveredTo sessionId (some cursor) p.1 (messageKey e) = some text →
      Agree text (currentText none events p.1 (messageKey e))) :
    s.trimDeliveredHistoryText sessionId events cursor none = undelivered (s.deliveredTo sessionId (some cursor)) [] events := by
  have hsuffix : ∀ after before : List (RuntimeEventEnvelope ν), events = before ++ after →
      (after.zipIdx before.length).flatMap (returned (s.remainingByEvent sessionId events cursor none)) =
        undelivered (s.deliveredTo sessionId (some cursor)) before after := by
    intro after
    induction after with
    | nil => exact fun _ _ => rfl
    | cons e after ih =>
      intro before heq
      have hnext := ih (before ++ [e]) (by rw [heq, List.append_assoc]; rfl)
      rw [List.length_append, List.length_singleton] at hnext
      rw [List.zipIdx_cons, List.flatMap_cons, hnext, undelivered]
      congr 1
      unfold returned cut
      cases ht : turnText e with
      | none => rfl
      | some p =>
        obtain ⟨turnId,delta⟩ := p
        have hremaining : (s.remainingByEvent sessionId events cursor none).get? before.length =
            (s.deliveredTo sessionId (some cursor) turnId (messageKey e)).map fun text =>
              delta.drop (text.length - (currentText none before turnId (messageKey e)).length) := by
          have hhere := hagree e (by rw [heq]; exact List.mem_append_right _ List.mem_cons_self) (turnId,delta) ht
          subst heq
          exact remainingByEvent_known h ht hhere
        dsimp only
        rw [hremaining]
        cases s.deliveredTo sessionId (some cursor) turnId (messageKey e) <;> rfl
  rw [trimDeliveredHistoryText_eq_flatMap]
  exact hsuffix events [] rfl

end EventReplay
end Matched
end OmniagentPlus.OmnigentTransport
