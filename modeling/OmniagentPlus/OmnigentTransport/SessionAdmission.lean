import OmniagentPlus.OmnigentTransport.BooksApart

/-! Which sends and which events of a session are let through is decided by what the provider keeps of
that session. -/
namespace OmniagentPlus.OmnigentTransport
open OmniagentPlus.Foundation OmniagentPlus.CoreContracts
variable {ν : Type}

variable {α β : Type} {R : OmnigentHttpProvider ν → OmnigentHttpProvider ν → Prop} {t : Text}

/-- Code that gives the same for providers that are alike, and leaves them so. -/
def Segment.Alike (R : OmnigentHttpProvider ν → OmnigentHttpProvider ν → Prop) (segment : Segment ν α) : Prop :=
  ∀ p q, R p q → (segment p).1 = (segment q).1 ∧ R (segment p).2 (segment q).2

namespace Segment

theorem alike_pure (a : α) : Alike R (pure a : Segment ν α) := fun _ _ h => ⟨rfl,h⟩

theorem Alike.bind {x : Segment ν α} {f : α → Segment ν β} (hx : Alike R x) (hf : ∀ a, Alike R (f a)) :
    Alike R (x >>= f) := by
  intro p q h
  have hstep : ∀ p, (x >>= f) p = ExceptT.bindCont f (x p).1 (x p).2 := fun _ => rfl
  obtain ⟨hresult,hleft⟩ := hx p q h
  rw [hstep, hstep, hresult]
  cases (x q).1 with
  | ok a => exact hf a _ _ hleft
  | error e => exact ⟨rfl,hleft⟩

theorem alike_look {f : OmnigentHttpProvider ν → α} (hf : ∀ p q, R p q → f p = f q) : Alike R (look f) :=
  fun p q h => ⟨congrArg Except.ok (hf p q h),h⟩

theorem alike_change {f : OmnigentHttpProvider ν → OmnigentHttpProvider ν} (hf : ∀ p q, R p q → R (f p) (f q)) :
    Alike R (change f) := fun p q h => ⟨rfl,hf p q h⟩

theorem alike_require (c : Bool) (e : ProviderError ν) : Alike R (require c e) := by
  intro p q h
  unfold require
  split_ifs
  · exact ⟨rfl,h⟩
  · exact ⟨rfl,h⟩

theorem alike_check {f : OmnigentHttpProvider ν → Bool} (e : ProviderError ν) (hf : ∀ p q, R p q → f p = f q) :
    Alike R (check f e) := (alike_look hf).bind fun _ => alike_require _ e

end Segment

/-- What decides whether a send on the session is let through. -/
structure SameAdmission (t : Text) (p q : OmnigentHttpProvider ν) : Prop where
  reservation : p.cancellationReservations.get? t = q.cancellationReservations.get? t
  quarantine : p.hasCancelledTurnQuarantine t = q.hasCancelledTurnQuarantine t
  session : p.sessions.get? t = q.sessions.get? t

namespace OmnigentHttpProvider
variable (p : OmnigentHttpProvider ν)

theorem sessions_installShared (state : OmnigentSessionMutationFenceState) :
    (p.installSharedSessionMutationState t state).sessions = (p.closeTracked t state.closed).sessions := by
  have hclose : ∀ q : OmnigentHttpProvider ν, q.sessions = p.sessions →
      (q.closeTracked t state.closed).sessions = (p.closeTracked t state.closed).sessions := by
    intro q hq
    unfold closeTracked updateSession
    rw [hq]
    split_ifs
    · split
      · simp only [setSession, hq]
      · exact hq
    · exact hq
  unfold installSharedSessionMutationState
  rw [(turnStep_quarantineShared state.cancellation).sessions]
  exact hclose _ (((turnStep_bindOfficialTurns _).trans (turnStep_keepQuarantineOf _)).trans
    (turnStep_rejectSharedTurns state)).sessions

@[simp] theorem quarantineKeys_onStreams (call : OmnigentSseNormalizer → OmnigentSseNormalizer) :
    (p.onStreams t call).cancelledTurnQuarantineKeys = p.cancelledTurnQuarantineKeys := by
  unfold onStreams
  split <;> rfl

@[simp] theorem quarantineKeys_closeTracked (closed : Bool) : (p.closeTracked t closed).cancelledTurnQuarantineKeys = p.cancelledTurnQuarantineKeys := by
  unfold closeTracked updateSession
  split_ifs
  · split <;> rfl
  · rfl

@[simp] theorem quarantineKeys_rejectSharedTurns (state : OmnigentSessionMutationFenceState) :
    (p.rejectSharedTurns t state).cancelledTurnQuarantineKeys = p.cancelledTurnQuarantineKeys := by
  unfold rejectSharedTurns
  induction state.rejectedTurnIds generalizing p with
  | nil => rfl
  | cons turnId turnIds ih =>
    rw [List.foldl_cons, ih]
    dsimp only
    split_ifs
    · rfl
    · exact quarantineKeys_onStreams _ _

theorem reservations_installShared (state : OmnigentSessionMutationFenceState) :
    (p.installSharedSessionMutationState t state).cancellationReservations = p.cancellationReservations := by
  have hstep : SessionStep (fun _ => True) t p (p.installSharedSessionMutationState t state) :=
    sessionStep_installSharedSessionMutationState state fun _ => trivial
  exact congrArg Prod.fst hstep.proofs

/-- Once the shared fence is installed the session has a quarantined turn just where the fence has one. -/
theorem hasCancelledTurnQuarantine_installShared (state : OmnigentSessionMutationFenceState) :
    (p.installSharedSessionMutationState t state).hasCancelledTurnQuarantine t = state.cancellation.isSome := by
  unfold hasCancelledTurnQuarantine installSharedSessionMutationState quarantineShared
  cases hstate : state.cancellation with
  | none =>
    dsimp only
    rw [quarantineKeys_closeTracked, quarantineKeys_rejectSharedTurns, keepQuarantineOf]
    simp [Dictionary.filterEntries, Dictionary.keys]
  | some fence =>
    dsimp only
    rw [quarantineKeys_onStreams]
    refine List.any_eq_true.mpr ⟨sessionKey t fence.turnId,?_,hasKeyPrefix_sessionKey t fence.turnId⟩
    rw [Dictionary.mem_keys_iff]
    simp [KeySet.add]

end OmnigentHttpProvider

/-- The shared fence leaves providers alike that are. -/
theorem SameAdmission.installShared {p q : OmnigentHttpProvider ν} (h : SameAdmission t p q)
    (state : OmnigentSessionMutationFenceState) :
    SameAdmission t (p.installSharedSessionMutationState t state) (q.installSharedSessionMutationState t state) where
  reservation := by rw [p.reservations_installShared, q.reservations_installShared, h.reservation]
  quarantine := by rw [p.hasCancelledTurnQuarantine_installShared, q.hasCancelledTurnQuarantine_installShared]
  session := by
    rw [p.sessions_installShared, q.sessions_installShared]
    unfold OmnigentHttpProvider.closeTracked OmnigentHttpProvider.updateSession
    rw [h.session]
    split_ifs
    · cases hq : q.sessions.get? t with
      | none => exact h.session
      | some info => simp [OmnigentHttpProvider.setSession]
    · exact h.session

theorem alike_admitTurn {options : OmnigentHttpClientOptions} {request : SendTurnRequest}
    (sharedState : Option OmnigentSessionMutationFenceState) :
    Segment.Alike (ν := ν) (SameAdmission request.sessionId) (admitTurn options request sharedState) := by
  have hfence : Segment.Alike (ν := ν) (SameAdmission request.sessionId) (heedFence request sharedState) := by
    cases sharedState with
    | none => exact Segment.alike_pure ()
    | some state => exact (Segment.alike_change fun p q h => h.installShared state).bind fun _ => Segment.alike_require _ _
  refine hfence.bind fun _ => (Segment.alike_check _ fun p q h => ?_).bind fun _ => ?_
  · rw [h.reservation]
  refine (Segment.alike_check _ fun p q h => ?_).bind fun _ => (Segment.alike_check _ fun p q h => ?_).bind fun _ => ?_
  · rw [h.quarantine]
  · rw [OmnigentHttpProvider.isClosed, OmnigentHttpProvider.isClosed, h.session]
  · exact (Segment.alike_look fun p q h => h.session).bind fun _ => Segment.alike_require _ _

section Open
open Segment
variable {options : OmnigentHttpClientOptions} {request : SendTurnRequest} {handle : MutableTurnHandle}

/-- A send that is let through saw a fence that is open, and a session that is not closed. -/
theorem admitTurn_ensures (sharedState : Option OmnigentSessionMutationFenceState) :
    Ensures (ν := ν) (fun _ => True) (fun _ p => (∀ state, sharedState = some state → state.closed = false) ∧
      p.isClosed request.sessionId = false) (admitTurn options request sharedState) := by
  have hfence : Ensures (ν := ν) (fun _ => True) (fun _ _ => ∀ state, sharedState = some state → state.closed = false)
      (heedFence request sharedState) := by
    cases sharedState with
    | none => exact fun _ _ _ _ _ hstate => by cases hstate
    | some state =>
      refine Ensures.bind (K := fun _ _ => True) (fun _ _ _ _ => trivial) fun _ => ?_
      refine (ensures_require _ _).weaken fun _ _ hopen state' hstate => ?_
      cases hstate
      rw [Bool.not_eq_true', Bool.or_eq_false_iff] at hopen
      exact hopen.2.1
  refine hfence.bind fun _ => (ensures_check _ _).bind fun _ => (ensures_check _ _).bind fun _ => ?_
  refine (ensures_check _ _).bind fun _ => (ensures_look _).bind fun _ => ?_
  refine (ensures_require _ _).weaken fun _ p h => ?_
  obtain ⟨⟨⟨⟨hopen,-⟩,-⟩,hclosed⟩,-⟩ := h
  exact ⟨hopen,by simpa using hclosed⟩

/-- A cancellation that is let through saw an open fence. -/
theorem admitCancellation_ensures (sharedState : OmnigentSessionMutationFenceState) :
    Ensures (ν := ν) (fun _ => True) (fun _ _ => sharedState.closed = false) (admitCancellation handle sharedState) := by
  unfold admitCancellation
  refine Ensures.bind (K := fun _ _ => True) (fun _ _ _ _ => trivial) fun _ => ?_
  refine (ensures_require _ _).bind fun _ => (ensures_require _ _).bind fun _ => ?_
  refine (ensures_check _ _).weaken fun _ _ h => ?_
  obtain ⟨⟨⟨-,hopen⟩,-⟩,-⟩ := h
  rw [Bool.not_eq_true', Bool.or_eq_false_iff] at hopen
  exact hopen.1

end Open

/-- What a provider keeps of a session decides on its sends. -/
theorem sameAdmission_of_part {p q : OmnigentHttpProvider ν} (h : q.part t = p.part t) : SameAdmission t q p where
  reservation := by
    have hget := congrArg (fun p => p.cancellationReservations.get? t) h
    simpa [OmnigentHttpProvider.part, Dictionary.get?_restrict, isSession] using hget
  quarantine := by
    have hkeys := congrArg (fun p => p.hasCancelledTurnQuarantine t) h
    simpa [OmnigentHttpProvider.part, Dictionary.keys_restrict, OmnigentHttpProvider.hasCancelledTurnQuarantine] using hkeys
  session := by
    have hget := congrArg (fun p => p.sessions.get? t) h
    simpa [OmnigentHttpProvider.part, Dictionary.get?_restrict, isSession] using hget

/-- What is kept of the session is the same, and so what is let through of it. -/
structure Unaffected (t : Text) (p q : OmnigentHttpProvider ν) : Prop where
  part : q.part t = p.part t
  handles : ∀ (i : ℕ) (handle : MutableTurnHandle), handle.sessionId = t → (q.handles[i]? = some handle ↔ p.handles[i]? = some handle)
  admits : ∀ options sharedState request, request.sessionId = t →
    (admitTurn options request sharedState q).1 = (admitTurn options request sharedState p).1
  rejects : ∀ event, q.eventIsRejected t event = p.eventIsRejected t event

theorem unaffected_of_part {p q : OmnigentHttpProvider ν} (h : q.part t = p.part t)
    (hhandles : ∀ (i : ℕ) (handle : MutableTurnHandle), handle.sessionId = t →
      (q.handles[i]? = some handle ↔ p.handles[i]? = some handle)) : Unaffected t p q where
  part := h
  handles := hhandles
  admits options sharedState request hrequest := by
    subst hrequest
    exact (alike_admitTurn sharedState q p (sameAdmission_of_part h)).1
  rejects event := by
    have hhas : ∀ id, q.rejectedTurnKeys.has (sessionKey t id) = p.rejectedTurnKeys.has (sessionKey t id) := by
      intro id
      have hget := congrArg (fun p => p.rejectedTurnKeys.has (sessionKey t id)) h
      simpa [OmnigentHttpProvider.part, KeySet.has, Dictionary.get?_restrict, hasKeyPrefix_sessionKey] using hget
    simp only [OmnigentHttpProvider.eventIsRejected, hhas]

end OmniagentPlus.OmnigentTransport
