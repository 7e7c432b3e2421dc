import OmniagentPlus.OmnigentTransport.SessionParts

/-! What the provider's code for a session may do: change what is kept of this session, keep it closed once it is
closed, and leave the notes on cancellations under way alone. Code for its turns leaves the session itself alone too. -/
namespace OmniagentPlus.OmnigentTransport
open OmniagentPlus.Foundation OmniagentPlus.CoreContracts
variable {ν : Type}

/-- A session under another info. Closed it stays closed, and it has no active turn then. -/
structure SafeChange (mayClose : Prop) (a b : AgentSessionInfo ν) : Prop where
  tidy : b.state = .closed → b.activeTurnId = none
  stays : a.state = .closed → b.state = .closed
  closes : b.state = .closed → a.state = .closed ∨ mayClose

/-- Closed sessions have no active turn. -/
def Tidy (p : OmnigentHttpProvider ν) : Prop :=
  ∀ sessionId info, p.sessions.get? sessionId = some info → info.state = .closed → info.activeTurnId = none

/-- The sessions that are tracked are those from before, and each changes safely. -/
def SafeStep (mayClose : Text → Prop) (p q : OmnigentHttpProvider ν) : Prop :=
  Tidy p → ∀ sessionId, (p.sessions.get? sessionId = none → q.sessions.get? sessionId = none) ∧
    ∀ a, p.sessions.get? sessionId = some a →
      ∃ b, q.sessions.get? sessionId = some b ∧ SafeChange (mayClose sessionId) a b

section Steps
variable {mayClose : Text → Prop} {p q r : OmnigentHttpProvider ν} {sessionId : Text}

/-- A session that is tracked afterwards was tracked before. -/
theorem SafeStep.before (h : SafeStep mayClose p q) (hp : Tidy p) {b : AgentSessionInfo ν}
    (hb : q.sessions.get? sessionId = some b) :
    ∃ a, p.sessions.get? sessionId = some a ∧ SafeChange (mayClose sessionId) a b := by
  obtain ⟨hnone,hsome⟩ := h hp sessionId
  cases ha : p.sessions.get? sessionId with
  | none =>
    rw [hnone ha] at hb
    cases hb
  | some a =>
    obtain ⟨b',hb',hab⟩ := hsome a ha
    rw [hb'] at hb
    cases hb
    exact ⟨a,rfl,hab⟩

theorem SafeStep.tidy (h : SafeStep mayClose p q) (hp : Tidy p) : Tidy q := by
  intro s b hb hclosed
  obtain ⟨_,_,hab⟩ := h.before hp hb
  exact hab.tidy hclosed

theorem safeStep_of_sessions_eq (h : q.sessions = p.sessions) : SafeStep mayClose p q := by
  intro hp s
  rw [h]
  exact ⟨id,fun a ha => ⟨a,ha,hp s a ha,id,Or.inl⟩⟩

theorem SafeStep.trans (h : SafeStep mayClose p q) (h' : SafeStep mayClose q r) : SafeStep mayClose p r := by
  intro hp s
  have hq := h' (h.tidy hp) s
  refine ⟨fun hs => hq.1 ((h hp s).1 hs),fun a ha => ?_⟩
  obtain ⟨b,hb,hab⟩ := (h hp s).2 a ha
  obtain ⟨c,hc,hbc⟩ := hq.2 b hb
  exact ⟨c,hc,{
    tidy := hbc.tidy
    stays := fun ha => hbc.stays (hab.stays ha)
    closes := fun hc => (hbc.closes hc).elim hab.closes Or.inr }⟩

/-- Safe steps, in sequence. -/
def closing (mayClose : Text → Prop) : Allowance ν where
  allows := SafeStep mayClose
  refl _ := safeStep_of_sessions_eq rfl
  trans _ _ _ := SafeStep.trans

theorem SafeStep.mono {mayClose' : Text → Prop} (h : SafeStep mayClose p q) (hmay : ∀ s, mayClose s → mayClose' s) :
    SafeStep mayClose' p q := by
  intro hp s
  refine ⟨(h hp s).1,fun a ha => ?_⟩
  obtain ⟨b,hb,hab⟩ := (h hp s).2 a ha
  exact ⟨b,hb,hab.tidy,hab.stays,fun hclosed => (hab.closes hclosed).imp_right (hmay s)⟩

/-- A tracked session gets another info. -/
theorem safeStep_setSession {a info : AgentSessionInfo ν} (ha : p.sessions.get? sessionId = some a)
    (h : (a.state = .closed → a.activeTurnId = none) → SafeChange (mayClose sessionId) a info) :
    SafeStep mayClose p (p.setSession sessionId info) := by
  intro hp s
  simp only [OmnigentHttpProvider.setSession, Dictionary.get?_set]
  split_ifs with hs
  · subst hs
    rw [ha]
    constructor
    · intro hnone
      cases hnone
    · intro a' ha'
      cases ha'
      exact ⟨info,rfl,h (hp s a ha)⟩
  · exact ⟨id,fun b hb => ⟨b,hb,hp s b hb,id,Or.inl⟩⟩

/-- One session changes. -/
theorem safeStep_updateSession {change : AgentSessionInfo ν → AgentSessionInfo ν}
    (h : ∀ a, p.sessions.get? sessionId = some a → (a.state = .closed → a.activeTurnId = none) →
      SafeChange (mayClose sessionId) a (change a)) : SafeStep mayClose p (p.updateSession sessionId change) := by
  unfold OmnigentHttpProvider.updateSession
  cases hs : p.sessions.get? sessionId with
  | none => exact safeStep_of_sessions_eq rfl
  | some a => exact safeStep_setSession hs (h a hs)

end Steps
section Notes

/-- The reservations of cancellations, and the ends of turns that were seen during them. -/
abbrev OmnigentHttpProvider.proofBooks (p : OmnigentHttpProvider ν) : Dictionary Text Text × KeySet :=
  (p.cancellationReservations,p.earlyCancellationProofKeys)

/-- Code that leaves the notes on cancellations under way alone. -/
def sparingProofs : Allowance ν where
  allows p q := q.proofBooks = p.proofBooks
  refl _ := rfl
  trans _ _ _ h h' := h'.trans h

end Notes
section Code

/-- Code for a session that leaves the session itself alone. -/
structure NoteStep (s : Text) (p q : OmnigentHttpProvider ν) : Prop where
  isolated : Isolated s p q
  sessions : q.sessions = p.sessions

/-- Code for the turns of a session. -/
structure TurnStep (s : Text) (p q : OmnigentHttpProvider ν) : Prop where
  isolated : Isolated s p q
  sessions : q.sessions = p.sessions
  proofs : q.proofBooks = p.proofBooks

/-- Code for a session. -/
structure SessionStep (mayClose : Text → Prop) (s : Text) (p q : OmnigentHttpProvider ν) : Prop where
  isolated : Isolated s p q
  safe : SafeStep mayClose p q
  proofs : q.proofBooks = p.proofBooks

variable {mayClose : Text → Prop} {s : Text} {p q r : OmnigentHttpProvider ν}

theorem NoteStep.trans (h : NoteStep s p q) (h' : NoteStep s q r) : NoteStep s p r :=
  ⟨h.isolated.trans h'.isolated,h'.sessions.trans h.sessions⟩

theorem NoteStep.safe (h : NoteStep s p q) : SafeStep mayClose p q := safeStep_of_sessions_eq h.sessions

theorem TurnStep.refl (p : OmnigentHttpProvider ν) : TurnStep s p p := ⟨isolated_refl p,rfl,rfl⟩

theorem TurnStep.trans (h : TurnStep s p q) (h' : TurnStep s q r) : TurnStep s p r :=
  ⟨h.isolated.trans h'.isolated,h'.sessions.trans h.sessions,h'.proofs.trans h.proofs⟩

/-- Code that changes books but neither handles nor promises. -/
theorem TurnStep.of_part (htables : q.turnTables = p.turnTables) (hkept : (q.sessions,q.proofBooks) = (p.sessions,p.proofBooks))
    (h : ∀ t, Apart s t → q.part t = p.part t) : TurnStep s p q :=
  ⟨isolated_of_part htables h,congrArg Prod.fst hkept,congrArg Prod.snd hkept⟩

theorem TurnStep.note (h : TurnStep s p q) : NoteStep s p q := ⟨h.isolated,h.sessions⟩

theorem TurnStep.session (h : TurnStep s p q) : SessionStep mayClose s p q := ⟨h.isolated,h.note.safe,h.proofs⟩

theorem SessionStep.refl (p : OmnigentHttpProvider ν) : SessionStep mayClose s p p := (TurnStep.refl p).session

theorem SessionStep.trans (h : SessionStep mayClose s p q) (h' : SessionStep mayClose s q r) : SessionStep mayClose s p r :=
  ⟨h.isolated.trans h'.isolated,h.safe.trans h'.safe,h'.proofs.trans h.proofs⟩

/-- Code for the turns of a session, in sequence. -/
def turning (s : Text) : Allowance ν where
  allows := TurnStep s
  refl := TurnStep.refl
  trans _ _ _ := TurnStep.trans

/-- Code for a session, in sequence. -/
def minding (mayClose : Text → Prop) (s : Text) : Allowance ν where
  allows := SessionStep mayClose s
  refl := SessionStep.refl
  trans _ _ _ := SessionStep.trans

end Code
namespace Segment
variable {α : Type} {mayClose : Text → Prop} {s : Text} {segment : Segment ν α}

theorem Within.isolating (h : Within (minding (fun _ => True) s) segment) : Within (isolating s) segment :=
  fun p => (h p).isolated

theorem Within.sparing (h : Within (minding (fun _ => True) s) segment) : Within sparingProofs segment :=
  fun p => (h p).proofs

theorem Within.closing (h : Within (minding mayClose s) segment) : Within (closing mayClose) segment := fun p => (h p).safe

/-- Code that leaves the sessions alone. -/
theorem within_neutral {f : OmnigentHttpProvider ν → OmnigentHttpProvider ν} (h : ∀ p, (f p).sessions = p.sessions) :
    Within (closing mayClose) (change f) := within_change fun p => safeStep_of_sessions_eq (h p)

theorem within_turns {f : OmnigentHttpProvider ν → OmnigentHttpProvider ν} (h : ∀ p, TurnStep s p (f p)) :
    Within (minding mayClose s) (change f) := within_change fun p => (h p).session

end Segment
end OmniagentPlus.OmnigentTransport
