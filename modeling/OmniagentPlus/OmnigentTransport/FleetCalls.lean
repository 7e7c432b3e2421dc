import OmniagentPlus.OmnigentTransport.FleetRules
import OmniagentPlus.OmnigentTransport.SegmentsApart
import OmniagentPlus.OmnigentTransport.SessionAdmission

/-! Each call of a client guards the fences while any number of others are under way: it asks for nothing
that the fence does not allow, and takes a fence away only where it may. -/
namespace OmniagentPlus.OmnigentTransport
open OmniagentPlus.Foundation OmniagentPlus.CoreContracts
variable {ν : Type}
namespace Fleet

/-- The fence lets messages through. -/
def Open (f : OmnigentSessionMutationFenceState) : Prop := f.cancellation = none ∧ f.closing = false ∧ f.closed = false

/-- The fence is at most one of the turn's cancellation. -/
def Cancels (turnId : Text) (f : OmnigentSessionMutationFenceState) : Prop :=
  (∀ fence, f.cancellation = some fence → fence.turnId = turnId) ∧ f.closing = false ∧ f.closed = false

section Segments
open Segment

/-- A send that is let through saw an open fence. -/
theorem admitTurn_open {o : OmnigentHttpClientOptions} {request : SendTurnRequest}
    (sharedState : Option OmnigentSessionMutationFenceState) :
    Ensures (ν := ν) (fun _ => True) (fun _ _ => ∀ state, sharedState = some state → Open state)
      (admitTurn o request sharedState) := by
  have hfence : Ensures (ν := ν) (fun _ => True) (fun _ p => ∀ state, sharedState = some state →
      state.closing = false ∧ state.closed = false ∧
        p.hasCancelledTurnQuarantine request.sessionId = state.cancellation.isSome) (heedFence request sharedState) := by
    cases sharedState with
    | none => exact fun _ _ _ _ _ hstate => by cases hstate
    | some state =>
      have hinstalled : Ensures (ν := ν) (fun _ => True)
          (fun _ p => p.hasCancelledTurnQuarantine request.sessionId = state.cancellation.isSome)
          (change fun p => p.installSharedSessionMutationState request.sessionId state) :=
        ensures_change fun p _ => p.hasCancelledTurnQuarantine_installShared state
      refine hinstalled.bind fun _ => ?_
      refine (ensures_require _ _).weaken fun _ p hopen state' hstate => ?_
      cases hstate
      obtain ⟨hquarantine,hopen⟩ := hopen
      rw [Bool.not_eq_true', Bool.or_eq_false_iff] at hopen
      exact ⟨hopen.2,hopen.1,hquarantine⟩
  refine hfence.bind fun _ => (ensures_check _ _).bind fun _ => (ensures_check _ _).bind fun _ => ?_
  refine (ensures_check _ _).bind fun _ => (ensures_look _).bind fun _ => ?_
  refine (ensures_require _ _).weaken fun _ p h state hstate => ?_
  obtain ⟨⟨⟨⟨hstates,-⟩,hlifted⟩,-⟩,-⟩ := h
  obtain ⟨hclosing,hclosed,hquarantine⟩ := hstates state hstate
  rw [hquarantine, Bool.not_eq_true', Option.isSome_eq_false_iff, Option.isNone_iff_eq_none] at hlifted
  exact ⟨hlifted,hclosing,hclosed⟩

/-- A cancellation that is let through saw an open fence. -/
theorem admitCancellation_open {handle : MutableTurnHandle} (sharedState : OmnigentSessionMutationFenceState) :
    Ensures (ν := ν) (fun _ => True) (fun _ _ => Open sharedState) (admitCancellation handle sharedState) := by
  unfold admitCancellation
  refine Ensures.bind (K := fun _ _ => True) (fun _ _ _ _ => trivial) fun _ => ?_
  refine (ensures_require _ _).bind fun _ => (ensures_require _ _).bind fun _ => ?_
  refine (ensures_check _ _).weaken fun _ _ h => ?_
  obtain ⟨⟨⟨-,hopen⟩,hnone⟩,-⟩ := h
  rw [Bool.not_eq_true', Bool.or_eq_false_iff] at hopen
  exact ⟨Option.isNone_iff_eq_none.mp hnone,hopen.2,hopen.1⟩

theorem fenceCancellation_turnId {handle : MutableTurnHandle} (snapshot : OmnigentSessionSnapshot ν) :
    Ensures (fun _ => True) (fun fence _ => fence.turnId = handle.turnId) (fenceCancellation handle snapshot) := by
  unfold fenceCancellation
  refine (ensures_check _ _).bind fun _ => (ensures_check _ _).bind fun _ => (ensures_check _ _).bind fun _ => ?_
  intro p fence _ hfence
  cases hfence
  rfl

/-- A close that is let through saw no cancellation. -/
theorem admitClose_uncancelled {sessionId : Text} (sharedState : OmnigentSessionMutationFenceState) :
    Ensures (ν := ν) (fun _ => True) (fun _ _ => sharedState.cancellation = none) (admitClose sessionId sharedState) := by
  unfold admitClose
  refine Ensures.bind (K := fun _ _ => True) (fun _ _ _ _ => trivial) fun _ => ?_
  exact (ensures_require _ _).weaken fun _ _ h => Option.isNone_iff_eq_none.mp h.2

/-- What an interrupt that was answered comes to. -/
theorem confirmInterrupt_outcome {handle : MutableTurnHandle} (ack : OmnigentEventAck) (p : OmnigentHttpProvider ν) :
    (∃ e, controlEventFailure ack = some e ∧ (confirmInterrupt handle ack p).1 = .error e) ∨
      (ack = .handled ∧ ∃ observed, (confirmInterrupt handle ack p).1 =
        .ok (observed,p.earlyCancellationProofKeys.has (cancelKey handle))) := by
  cases ack with
  | accepted item_id pending_id => exact Or.inl ⟨_,rfl,rfl⟩
  | denied reason => exact Or.inl ⟨_,rfl,rfl⟩
  | handled =>
    refine Or.inr ⟨rfl,observedOfficialTurnIds handle p,?_⟩
    have hkept : ∀ l : List Text, (l.foldl (fun p officialTurnId =>
        (p.rejectTurnKey handle.sessionId officialTurnId).onStreams handle.sessionId
          (fun stream => stream.rejectTurnId officialTurnId)) p).proofBooks = p.proofBooks :=
      fun l => (OmnigentHttpProvider.turnStep_rejectTurns l p).proofs
    have hearly := congrArg Prod.snd (hkept (observedOfficialTurnIds handle p))
    exact congrArg (fun keys : KeySet => Except.ok (observedOfficialTurnIds handle p,keys.has (cancelKey handle))) hearly

/-- Code after which what a client noted still goes back to its handles. -/
def noting (C : MutableTurnHandle → Prop) : Allowance ν where
  allows p q := ∀ saw, Noted C saw p → Noted C saw q
  refl _ _ h := h
  trans _ _ _ h h' saw hp := h' saw (h saw hp)

theorem noting_of_eq {C : MutableTurnHandle → Prop} {p q : OmnigentHttpProvider ν} (h : q.proofBooks = p.proofBooks) :
    (noting C).allows p q := by
  intro saw hp
  simp only [OmnigentHttpProvider.proofBooks, Prod.mk.injEq] at h
  exact ⟨by rw [h.1]; exact hp.reservations,by rw [h.2]; exact hp.proofs⟩

theorem noting_reserveCancellation {C : MutableTurnHandle → Prop} {handle : MutableTurnHandle} (hC : C handle) :
    Within (ν := ν) (noting C) (reserveCancellation handle) := by
  refine Within.bind (within_check _ _) fun _ => within_change fun p saw hp => ⟨fun sessionId turnId h => ?_,hp.proofs⟩
  rw [Dictionary.get?_set] at h
  split_ifs at h with hs
  · exact ⟨handle,hC,hs.symm,Option.some.inj h⟩
  · exact hp.reservations sessionId turnId h

/-- What is forgotten is noted no more. -/
theorem noting_unreserve {C : MutableTurnHandle → Prop} (sessionId : Text) (p : OmnigentHttpProvider ν) :
    (noting C).allows p { p with cancellationReservations := p.cancellationReservations.erase sessionId } := by
  refine fun saw hp => ⟨fun s turnId h => hp.reservations s turnId ?_,hp.proofs⟩
  rw [Dictionary.get?_erase] at h
  split_ifs at h
  exact h

theorem noting_releaseReservation {C : MutableTurnHandle → Prop} {handle : MutableTurnHandle} :
    Within (ν := ν) (noting C) (change (releaseReservation handle)) := by
  refine within_change fun p saw hp => ⟨(noting_unreserve handle.sessionId p saw hp).reservations,fun key h => ?_⟩
  refine hp.proofs key ?_
  simp only [releaseReservation, KeySet.has, Dictionary.get?_erase] at h
  split_ifs at h
  · cases h
  · exact h

theorem noting_reconcileDenied {C : MutableTurnHandle → Prop} {handle : MutableTurnHandle} (observed : List Text)
    (now : Text) : Within (ν := ν) (noting C) (change (fun p => observed.foldl (fun p officialTurnId =>
      p.reconcileTurn handle.sessionId handle.turnId officialTurnId now)
      { p with cancellationReservations := p.cancellationReservations.erase handle.sessionId })) := by
  refine within_change fun p => (noting C).trans _ _ _ (noting_unreserve handle.sessionId p) (noting_of_eq ?_)
  exact (sessionStep_reconcileOfficial observed now _ : SessionStep (fun _ => True) handle.sessionId _ _).proofs

/-- A turn whose quarantine an event ends is one that the event concerns. -/
theorem quarantinedTurnOf_concerns {p : OmnigentHttpProvider ν} {sessionId turnId : Text} {event : OmnigentRawEvent ν}
    (h : p.quarantinedTurnOf sessionId event = some turnId) : Concerns event turnId := by
  unfold OmnigentHttpProvider.quarantinedTurnOf at h
  dsimp only at h
  split at h
  · next named hnamed =>
    cases h
    have hfound := (Option.filter_eq_some_iff.mp hnamed).1
    obtain ⟨id,hid,hfilter⟩ := List.exists_of_findSome?_eq_some hfound
    obtain ⟨rfl,-⟩ := Option.filter_eq_some_iff.mp hfilter
    simp only [List.mem_cons, List.not_mem_nil, or_false] at hid
    exact Or.inr (hid.elim (fun h => Or.inr h.symm) fun h => Or.inl h.symm)
  · split_ifs at h with hinterrupted
    exact Or.inl hinterrupted

theorem consumed_concerns {p : OmnigentHttpProvider ν} {sessionId turnId : Text} {event : OmnigentRawEvent ν}
    {officialTurnId : Option Text}
    (h : (p.consumeCancelledTurnQuarantine sessionId event).1 = some (turnId,officialTurnId)) : Concerns event turnId := by
  unfold OmnigentHttpProvider.consumeCancelledTurnQuarantine at h
  dsimp only at h
  split at h
  · cases h
  · next hquarantined =>
    split_ifs at h
    cases h
    exact quarantinedTurnOf_concerns hquarantined

/-- An event is noted for the turn that is being cancelled, where it concerns that. -/
theorem Noted.consume {C : MutableTurnHandle → Prop} {saw : Text → Text → Prop} {p : OmnigentHttpProvider ν}
    (h : Noted C saw p) (sessionId : Text) (event : OmnigentRawEvent ν)
    (hsaw : ∀ turnId, Concerns event turnId → saw sessionId turnId) :
    Noted C saw (p.consumeCancelledTurnQuarantine sessionId event).2 := by
  have hnoted : Noted C saw (p.noteEarlyProof sessionId event) := by
    unfold OmnigentHttpProvider.noteEarlyProof
    split
    · next turnId hreserved =>
      split_ifs with hconcerns
      · refine ⟨h.reservations,fun key hkey => ?_⟩
        simp only [KeySet.has, KeySet.add, Dictionary.get?_set] at hkey
        split_ifs at hkey with hsame
        · subst hsame
          have hfound := (Option.filter_eq_some_iff.mp hreserved).1
          obtain ⟨handle,hC,rfl,rfl⟩ := h.reservations sessionId turnId hfound
          refine ⟨handle,hC,rfl,hsaw _ ?_⟩
          obtain hinterrupted | ⟨-,halias | hnamed⟩ := hconcerns
          · exact Or.inl hinterrupted
          · exact Or.inr (Or.inr halias)
          · exact Or.inr (Or.inl hnamed)
        · exact h.proofs key hkey
      · exact h
    · exact h
  have hended : ∀ turnId official, Noted C saw ((p.noteEarlyProof sessionId event).endQuarantine sessionId event turnId
      official) := by
    intro turnId official
    exact noting_of_eq (OmnigentHttpProvider.turnStep_endQuarantine event turnId official).proofs saw hnoted
  unfold OmnigentHttpProvider.consumeCancelledTurnQuarantine
  dsimp only
  split
  · exact hnoted
  · split_ifs
    · exact hnoted
    · exact hended _ _

end Segments
/-- The process keeps the contract, whatever is known when it starts. -/
def Careful [JsNumber ν] {α : Type} (C : ℕ → MutableTurnHandle → Prop) (op : Operation) (x : Async ν α) : Prop :=
  ∀ pid, (contract C).Keeps (steadyWorld ν) pid op (fun _ _ => True) x.run (fun _ => True)

variable [JsNumber ν] {C : ℕ → MutableTurnHandle → Prop} {pid : ℕ} {op : Operation} {α β : Type} {o : OmnigentHttpClientOptions}

section Rules

theorem Quiet.careful {x : Async ν α} (hx : Quiet C op x) : Careful C op x :=
  fun pid => (hx pid _ (enduring_const True).known).weaken fun _ _ _ _ => trivial

theorem Careful.bind {x : Async ν β} {f : β → Async ν α} (hx : Careful C op x) (hf : ∀ b, Careful C op (f b)) :
    Careful C op (x >>= f) := fun pid => (hx pid).exceptBind (fun b => hf b pid) fun _ _ _ _ => trivial

theorem Careful.attempt {x : Async ν α} (hx : Careful C op x) : Careful C op (Process.attempt x) :=
  fun pid => Contract.Keeps.bind (x := x) (hx pid) fun _ _ _ _ => trivial

theorem Careful.finally' {x : Async ν α} {cleanup : Async ν Unit} (hx : Careful C op x) (hcleanup : Careful C op cleanup) :
    Careful C op (Process.finally' x cleanup) :=
  hx.attempt.bind fun _ => hcleanup.bind fun _ _ => Contract.keeps_settleWith _ fun _ _ _ => trivial

/-- What lasts outlasts the process. -/
theorem Careful.keeping {P : Fleet ν → Prop} {x : Async ν α} (hx : Careful C op x) (hP : Enduring P) :
    (contract C).Keeps (steadyWorld ν) pid op (fun _ => P) x.run P := by
  have hframed : (contract C).Keeps (steadyWorld ν) pid op (fun _ F => True ∧ P F) x.run (fun F => True ∧ P F) :=
    (hx pid).frame fun other op F F' _ hg => hP F F' hg.observed
  exact (hframed.weaken fun _ _ _ h => h.2).strengthen fun _ _ h => ⟨trivial,h⟩

theorem careful_sync {segment : Segment ν α} (h : segment.Within sparingProofs) : Careful C op (Async.sync segment) :=
  (quiet_sync h).careful

theorem careful_noting {segment : Segment ν α} (h : segment.Within (noting (C op.client))) :
    Careful C op (Async.sync segment) :=
  fun pid => keeps_sync (fun _ hF _ => h _ _ (hF.noted op.client)) (fun _ _ _ _ _ _ => trivial)
    fun _ => (contract C).stable_true pid

theorem careful_idle {x : Action ν (Except (ProviderError ν) α)} (hx : x.isIdle = true) : Careful C op (perform x) :=
  (quiet_idle hx).careful

/-- What is done under the lease, knowing that it is held. -/
theorem careful_withLease {sessionId : Text} {operation : Async ν α}
    (h : ∀ pid, (contract C).Keeps (steadyWorld ν) pid op (fun _ _ => True) operation.run
      (Holds pid sessionId fun _ _ => True)) : Careful C op (withExclusiveSessionLease sessionId operation) :=
  fun pid => keeps_withLease (enduring_const True) ((h pid).strengthen fun _ _ hF => hF.1)

end Rules

section Fences
variable {sessionId : Text} {P : Fleet ν → Prop}
  {A : OmnigentSessionMutationFenceState → Option (Except (ProviderError ν) OmnigentEventAck) → Prop}

theorem keeps_readSharedState (hP : Enduring P) :
    (contract C).Keeps (steadyWorld ν) pid op
      (fun r F => Holds pid sessionId (fun f reply => A f reply ∧ ∀ state, r = .ok state → f = state) F ∧ P F)
      (readSharedState o sessionId : Async ν _).run (fun F => Holds pid sessionId A F ∧ P F) := by
  have hstore : Quiet (ν := ν) C op (requireStore o) := by
    unfold requireStore
    split_ifs
    · exact quiet_pure ()
    · exact quiet_throw _
  refine (hstore pid _ (known_holds.and hP.known)).exceptBind (fun _ => keeps_readFence hP) fun e F _ hF => ?_
  exact ⟨hF.1.weaken fun f reply hA => ⟨hA,fun _ hstate => by cases hstate⟩,hF.2⟩

theorem careful_refreshSharedSessionMutationState :
    Careful (ν := ν) C op (refreshSharedSessionMutationState o sessionId) := by
  unfold refreshSharedSessionMutationState
  split_ifs
  · refine Careful.bind (careful_withLease fun pid => ?_) fun state => careful_sync (Segment.Within.sparing (Segment.within_change
      fun p => OmnigentHttpProvider.sessionStep_installSharedSessionMutationState state fun _ => trivial))
    exact ((keeps_readSharedState (enduring_const True)).weaken fun _ _ _ _ => trivial).strengthen fun _ _ h => ⟨h,trivial⟩
  · exact (quiet_pure ()).careful

/-- The fence of a turn is taken away of which the client saw an event, or whose session it saw interrupted. -/
theorem keeps_resolveSharedCancellationFence (cancelledTurnId : Text) (officialTurnId : Option Text) :
    (contract C).Keeps (steadyWorld ν) pid op (fun _ _ => True)
      (resolveSharedCancellationFence o sessionId cancelledTurnId officialTurnId).run
      (fun F => F.SawEventOf op.client sessionId cancelledTurnId) := by
  have hseen := enduring_sawEventOf (ν := ν) op.client sessionId cancelledTurnId
  unfold resolveSharedCancellationFence
  split_ifs
  · refine keeps_withLease hseen ?_
    refine (keeps_readSharedState hseen).exceptBind (fun state => ?_) fun _ _ _ _ => trivial
    split_ifs with hcancelled
    · refine (keeps_writeFence (B := fun _ _ _ => True) hseen (fun F hF hA hsaw => ?_) (fun _ _ _ => trivial)
        fun _ _ _ _ _ _ _ => trivial).weaken fun _ _ _ _ => trivial
      have hstate : F.fences sessionId = state := hA.2 state rfl
      refine ⟨fun h => (by cases h),fun fence hfence => Or.inr (Or.inr ?_),fun hclosing => ?_⟩
      · rw [hstate] at hfence
        rw [hfence, Option.any_some, decide_eq_true_eq] at hcancelled
        rw [hcancelled]
        exact hsaw
      · obtain ⟨fence,hfence,-⟩ := (Option.any_eq_true _ _).mp hcancelled
        have hopen := (hF.fences sessionId (by rw [hstate, hfence]; rfl)).1
        rw [hopen] at hclosing
        cases hclosing
    · exact Contract.keeps_pure () fun _ _ _ => trivial
  · exact Contract.keeps_pure () fun _ _ _ => trivial

theorem careful_reopenSharedCancellationFence (cancelledTurnId : Text) :
    Careful (ν := ν) C op (reopenSharedCancellationFence o sessionId cancelledTurnId) := by
  unfold reopenSharedCancellationFence
  split_ifs
  · refine careful_withLease fun pid => ?_
    refine Contract.Keeps.strengthen (P := fun F => Holds pid sessionId (fun _ _ => True) F ∧ True) ?_
      fun _ _ h => ⟨h,trivial⟩
    refine (keeps_readSharedState (enduring_const True)).exceptBind (fun state => ?_) fun _ _ _ _ => trivial
    split_ifs with hopen
    · refine (keeps_writeFence (B := fun _ _ _ => True) (enduring_const True) (fun F hF hA _ => ?_) (fun _ _ _ => trivial)
        fun _ _ _ _ _ _ _ => trivial).weaken fun _ _ _ _ => trivial
      have hstate : F.fences sessionId = state := hA.2 state rfl
      simp only [Bool.not_eq_true', Bool.or_eq_false_iff, Option.isSome_eq_false_iff, Option.isNone_iff_eq_none] at hopen
      refine ⟨fun _ => ⟨hopen.1.2,hopen.1.1⟩,fun fence hfence => ?_,fun hclosing => ?_⟩
      · rw [hstate, hopen.2] at hfence
        cases hfence
      · rw [hstate, hopen.1.2] at hclosing
        cases hclosing
    · exact Contract.keeps_pure () fun _ _ _ => trivial
  · exact (quiet_pure ()).careful

end Fences

section Reading
variable {sessionId : Text}

theorem careful_getSessionInfo : Careful (ν := ν) C op (getSessionInfo o sessionId) :=
  careful_refreshSharedSessionMutationState.bind fun _ => (careful_idle rfl).bind fun snapshot =>
    careful_sync (minding_refreshInfo snapshot).sparing

variable (isDatetime : Text → Bool) (afterSequence : Option ℕ)

theorem careful_readHistory (limit : Option ℕ) :
    Careful (ν := ν) C op (readHistory o sessionId isDatetime afterSequence limit) :=
  careful_refreshSharedSessionMutationState.bind fun _ => (careful_idle rfl).bind fun items =>
    (careful_idle rfl).bind fun snapshot =>
      careful_sync (minding_readHistorySegment isDatetime afterSequence limit snapshot items).sparing

theorem careful_deliverEvents (messageId : Option Text) (events : List (RuntimeEventEnvelope ν)) :
    Careful C op (deliverEvents sessionId messageId events) := by
  induction events with
  | nil => exact (quiet_pure ()).careful
  | cons event events ih =>
    unfold deliverEvents
    exact Careful.bind (careful_sync (Segment.within_change fun _ => rfl)) fun _ => (careful_idle rfl).bind fun _ => ih

/-- What the client of a stream does about the fence with an event that it saw. -/
theorem keeps_settleFences (stream : ℕ) (items : List (OmnigentConversationItem ν)) (event : OmnigentRawEvent ν) :
    (contract C).Keeps (steadyWorld ν) pid op (fun _ _ => True) (settleFences sessionId o stream items event).run
      (fun F => F.observed op.client sessionId event) := by
  have hobserved := enduring_observed op.client sessionId event
  have hconsumed : (contract C).Keeps (steadyWorld ν) pid op
      (fun r F => ∀ turn, r = .ok (some turn) → F.SawEventOf op.client sessionId turn.1)
      (Async.sync (Segment.take fun p => p.consumeCancelledTurnQuarantine sessionId event)).run
      (fun F => F.observed op.client sessionId event) := by
    refine keeps_sync (fun F hF hseen => ?_) (fun F F' _ hseen _ hperformed turn hturn => ?_) fun r => ?_
    · exact (hF.noted op.client).consume sessionId event fun turnId hconcerns => ⟨event,hseen,hconcerns⟩
    · exact ⟨event,hperformed.observed hseen,consumed_concerns (Except.ok.inj hturn)⟩
    · exact fun other op F F' _ _ hg h turn hturn => (h turn hturn).mono (hg.observed _ _)
  unfold settleFences
  refine ((quiet_sync (minding_recordConsumedPendingItem stream event items).sparing) pid _ hobserved.known).exceptBind
    (fun reopened => ?_) fun _ _ _ _ => trivial
  cases reopened
  case' some turnId =>
    refine ((careful_reopenSharedCancellationFence turnId).keeping hobserved).exceptBind (fun _ => ?_) fun _ _ _ _ => trivial
  all_goals
    refine hconsumed.exceptBind (fun ended => ?_) fun _ _ _ _ => trivial
    cases ended with
    | none => exact Contract.keeps_pure () fun _ _ _ => trivial
    | some turn => exact (keeps_resolveSharedCancellationFence _ _).strengthen fun F _ h => h turn rfl

/-- The client of a stream sees the events that its frames are. -/
theorem keeps_normalizeFrame (hcall : op.call = .streamEvents sessionId afterSequence) (stream : ℕ)
    (frame : OmnigentTaggedSseEvent ν × Text) :
    (contract C).Keeps (steadyWorld ν) pid op (fun r F => ∀ event, r = .ok (some event) →
      F.observed op.client sessionId event) (Async.sync (normalizeFrame sessionId stream frame.1 frame.2)).run
      (fun _ => True) := by
  refine keeps_sync (fun F hF _ => hF.noted_of_eq ((minding_normalizeFrame _ _).sparing _)) (fun F F' _ _ _ hperformed event hevent => ?_)
    fun r => ?_
  · rw [hevent] at hperformed
    exact hperformed.sees (Observes.frame hcall)
  · exact fun other op F F' _ _ hg h event hevent => hg.observed _ _ _ (h event hevent)

theorem careful_liveLoop (hcall : op.call = .streamEvents sessionId afterSequence) (stream : ℕ)
    (items : List (OmnigentConversationItem ν)) (mapper : OmnigentEventMapper)
    (frames : List (OmnigentTaggedSseEvent ν × Text)) :
    Careful C op (liveLoop sessionId isDatetime o stream afterSequence items mapper frames) := by
  induction frames generalizing mapper with
  | nil => exact (quiet_pure ()).careful
  | cons frame frames ih =>
    unfold liveLoop
    refine (careful_idle rfl).bind fun _ pid => ?_
    refine (keeps_normalizeFrame afterSequence hcall stream frame).exceptBind (fun event => ?_) fun _ _ _ _ => trivial
    cases event with
    | none => exact Contract.keeps_pure () fun _ _ _ => trivial
    | some event =>
      dsimp only
      split_ifs
      · exact (ih mapper pid).strengthen fun _ _ _ => trivial
      · refine ((keeps_settleFences stream items event).strengthen fun F _ h => h event rfl).exceptBind (fun _ => ?_)
          fun _ _ _ _ => trivial
        refine (careful_sync (minding_mapLiveEvent isDatetime afterSequence mapper event).sparing).bind (fun mapped => ?_) pid
        exact (careful_deliverEvents _ _).bind fun _ => ih mapped.1

theorem careful_streamBody (hcall : op.call = .streamEvents sessionId afterSequence) (stream : ℕ)
    (frames : List (OmnigentTaggedSseEvent ν × Text)) :
    Careful C op (streamBody sessionId isDatetime o stream afterSequence frames) := by
  have hread : Careful (ν := ν) C op (withExclusiveSessionLease sessionId (readSharedState o sessionId)) :=
    careful_withLease fun pid => ((keeps_readSharedState (enduring_const True)).weaken fun _ _ _ _ => trivial).strengthen
      fun _ _ h => ⟨h,trivial⟩
  unfold streamBody
  split_ifs
  case' pos =>
    refine hread.bind fun state => (careful_sync (Segment.Within.sparing (Segment.within_change
      fun p => OmnigentHttpProvider.sessionStep_installSharedSessionMutationState state fun _ => trivial))).bind fun _ => ?_
  all_goals
    refine (careful_sync (Segment.within_take fun p => (turnStep_prepareStream p).proofs)).bind fun prepared => ?_
    refine (careful_idle rfl).bind fun items => (careful_idle rfl).bind fun snapshot => ?_
    refine (careful_sync (minding_openHistory isDatetime afterSequence prepared snapshot items).sparing).bind fun opened => ?_
    refine (careful_deliverEvents _ _).bind fun _ => (careful_sync (Segment.within_look _)).bind fun start => ?_
    exact careful_liveLoop isDatetime afterSequence hcall stream items _ frames

theorem careful_streamEvents (hcall : op.call = .streamEvents sessionId afterSequence) :
    Careful (ν := ν) C op (streamEvents sessionId isDatetime o afterSequence) := by
  refine (careful_idle rfl).bind fun frames => ?_
  refine (careful_sync (Segment.within_take (f := addOpenStream sessionId) fun p => rfl)).bind fun stream => ?_
  exact (careful_streamBody isDatetime afterSequence hcall stream frames).finally' (careful_sync (Segment.within_change fun p =>
    (turnStep_removeOpenStream p).proofs))

end Reading

section Sending

theorem careful_createSession (request : CreateSessionRequest) : Careful (ν := ν) C op (createSession request) := by
  have hclaim : Segment.Within (ν := ν) sparingProofs (Segment.take (claimCreate request)) := by
    refine Segment.within_take fun p => ?_
    unfold claimCreate
    split <;> rfl
  have honce : Careful (ν := ν) C op (createSessionOnce request) := by
    refine (careful_idle rfl).bind fun snapshot => ?_
    exact Careful.bind (careful_sync (Segment.within_change fun _ => rfl)) fun _ => (quiet_pure _).careful
  unfold createSession
  refine (careful_sync hclaim).bind fun claimed => ?_
  cases claimed with
  | inl existing => exact careful_idle rfl
  | inr pending =>
    refine honce.attempt.bind fun outcome => ?_
    refine Careful.bind (careful_sync (Segment.within_change fun _ => rfl)) fun _ => ?_
    cases outcome with
    | ok session => exact (quiet_pure session).careful
    | error e =>
      exact Careful.bind (careful_sync (Segment.within_change fun _ => rfl)) fun _ => (quiet_throw e).careful

variable {request : SendTurnRequest}

/-- The process goes on while it holds the lease of an open fence. -/
def LeavesOpen (C : ℕ → MutableTurnHandle → Prop) (op : Operation) (sessionId : Text) (x : Async ν α) : Prop :=
  ∀ pid, (contract C).Keeps (steadyWorld ν) pid op (fun _ F => Holds pid sessionId (fun f _ => Open f) F ∧ True) x.run
    (fun F => Holds pid sessionId (fun f _ => Open f) F ∧ True)

theorem Quiet.leavesOpen {x : Async ν α} (hx : Quiet C op x) (sessionId : Text) : LeavesOpen C op sessionId x :=
  fun pid => hx pid _ (known_holds.and (enduring_const True).known)

theorem LeavesOpen.bind {sessionId : Text} {x : Async ν β} {f : β → Async ν α} (hx : LeavesOpen C op sessionId x)
    (hf : ∀ b, LeavesOpen C op sessionId (f b)) : LeavesOpen C op sessionId (x >>= f) :=
  fun pid => (hx pid).exceptBind (fun b => hf b pid) fun _ _ _ h => h

theorem leavesOpen_persistRejectedTurnIdentities (sessionId : Text) (turnIds : List Text) :
    LeavesOpen (ν := ν) C op sessionId (persistRejectedTurnIdentities o sessionId turnIds) := by
  unfold persistRejectedTurnIdentities
  split_ifs
  · intro pid
    refine (keeps_readFence (enduring_const True)).exceptBind (fun state => ?_) fun e F _ hF =>
      ⟨hF.1.weaken fun _ _ h => h.1,trivial⟩
    refine (keeps_writeFence (B := fun _ f _ => Open f) (enduring_const True) (fun F _ hA _ => ?_) (fun f reply hA => ?_)
      fun e f g reply _ hA hg => ?_)
    · have hstate : F.fences sessionId = state := hA.2 state rfl
      obtain ⟨hnone,hclosing,-⟩ := hA.1
      rw [hstate] at hnone hclosing
      refine ⟨fun h => ?_,fun fence hfence => ?_,fun h => ?_⟩
      · rw [hnone] at h
        cases h
      · rw [hstate, hnone] at hfence
        cases hfence
      · rw [hstate, hclosing] at h
        cases h
    · obtain ⟨hopen,hstate⟩ := hA
      rw [hstate state rfl] at hopen
      exact hopen
    · obtain ⟨hopen,hstate⟩ := hA
      obtain rfl | rfl := hg
      · exact hopen
      · rw [hstate state rfl] at hopen
        exact hopen
  · exact (quiet_pure ()).leavesOpen sessionId

/-- The message is posted while the fence is open. -/
theorem leavesOpen_postTurn (registered : RegisteredTurn ν) : LeavesOpen C op request.sessionId (postTurn request registered) := by
  unfold postTurn
  intro pid
  have hposted : (contract C).Keeps (steadyWorld ν) pid op
      (fun _ F => Holds pid request.sessionId (fun f _ => Open f) F ∧ True) (perform (.sendTurn request)).run
      (fun F => Holds pid request.sessionId (fun f _ => Open f) F ∧ True) := by
    refine (keeps_request rfl (enduring_const True) fun F hopen _ _ hrequest => ?_).weaken fun _ _ _ h =>
      ⟨h.1.weaken fun _ _ hB => hB.1,trivial⟩
    cases hrequest
    exact hopen
  refine hposted.exceptBind (fun ack => ?_) fun _ _ _ h => h
  refine (?_ : LeavesOpen C op request.sessionId _) pid
  cases ack with
  | denied reason => exact (quiet_throw _).leavesOpen _
  | handled => exact (quiet_sync (Segment.Within.sparing (Segment.within_change (sessionStep_acknowledgeTurn _ _ _)))).leavesOpen _
  | accepted item_id pending_id => exact (quiet_sync (Segment.Within.sparing (Segment.within_change (sessionStep_acknowledgeTurn _ _ _)))).leavesOpen _

theorem leavesOpen_sendRegisteredTurn (registered : RegisteredTurn ν) :
    LeavesOpen C op request.sessionId (sendRegisteredTurn o request registered) := by
  unfold sendRegisteredTurn
  intro pid
  refine (leavesOpen_postTurn registered pid).attemptBind fun posted => ?_
  refine (?_ : LeavesOpen C op request.sessionId _) pid
  cases posted with
  | ok u => exact (quiet_pure _).leavesOpen _
  | error e =>
    refine ((quiet_sync (Segment.Within.sparing (Segment.within_take (sessionStep_failSend registered e)))).leavesOpen _).bind fun failed => ?_
    cases failed with
    | keptHandle => exact (quiet_pure _).leavesOpen _
    | rolledBack => exact (quiet_throw e).leavesOpen _
    | persist currentTurnId =>
      refine (leavesOpen_persistRejectedTurnIdentities _ _).bind fun _ => ?_
      refine ((quiet_sync (Segment.Within.sparing (Segment.within_change (sessionStep_rollbackSend registered)))).leavesOpen _).bind fun _ => ?_
      exact (quiet_throw e).leavesOpen _

theorem keeps_sharedStateOfSend (hleased : o.withExclusiveSessionLease = true) :
    (contract C).Keeps (steadyWorld ν) pid op
      (fun r F => ∀ shared, r = .ok shared → Holds pid request.sessionId (fun f _ => shared = some f) F ∧ True)
      (sharedStateOfSend o request : Async ν _).run (Holds pid request.sessionId fun _ _ => True) := by
  unfold sharedStateOfSend
  rw [if_pos hleased]
  refine Contract.Keeps.strengthen (P := fun F => Holds pid request.sessionId (fun _ _ => True) F ∧ True) ?_
    fun _ _ h => ⟨h,trivial⟩
  refine (keeps_readSharedState (enduring_const True)).exceptBind (fun state => ?_) fun e F _ _ _ h => (by cases h)
  refine Contract.keeps_pure _ fun F _ hF shared hshared => ?_
  cases hshared
  exact ⟨hF.1.weaken fun f _ hA => by rw [hA.2 state rfl],trivial⟩

/-- A check of the fence that was read, which lets through where it is open. -/
theorem keeps_admitted {sessionId : Text} {shared : Option OmnigentSessionMutationFenceState} {segment : Segment ν α}
    (hsparing : segment.Within sparingProofs)
    (hopen : segment.Ensures (fun _ => True) (fun _ _ => ∀ state, shared = some state → Open state)) :
    (contract C).Keeps (steadyWorld ν) pid op
      (fun r F => ∀ a, r = .ok a → Holds pid sessionId (fun f _ => Open f) F ∧ True) (Async.sync segment).run
      (fun F => Holds pid sessionId (fun f _ => shared = some f) F ∧ True) := by
  refine (keeps_segment (K := fun r => ∀ a, r = .ok a → ∀ state, shared = some state → Open state) hsparing
    (fun p a ha => hopen p a trivial ha) (known_holds.and (enduring_const True).known)).weaken fun r F _ hF a ha => ?_
  exact ⟨hF.1.1.weaken fun f _ hshared => hF.2 a ha f hshared,trivial⟩

theorem keeps_sendTurnWithExclusiveLease (hleased : o.withExclusiveSessionLease = true) :
    (contract C).Keeps (steadyWorld ν) pid op (fun _ _ => True) (sendTurnWithExclusiveLease o request : Async ν ℕ).run
      (Holds pid request.sessionId fun _ _ => True) := by
  have hsends : ∀ registered : RegisteredTurn ν, (contract C).Keeps (steadyWorld ν) pid op (fun _ _ => True)
      (sendRegisteredTurn o request registered).run
      (fun F => Holds pid request.sessionId (fun f _ => Open f) F ∧ True) :=
    fun registered => (leavesOpen_sendRegisteredTurn registered pid).weaken fun _ _ _ _ => trivial
  unfold sendTurnWithExclusiveLease
  refine (keeps_sharedStateOfSend hleased).exceptBind (fun shared => ?_) fun _ _ _ _ => trivial
  refine Contract.Keeps.strengthen (P := fun F => Holds pid request.sessionId (fun f _ => shared = some f) F ∧ True) ?_
    fun F _ hF => hF shared rfl
  split_ifs
  · refine (keeps_admitted (minding_admitTurn shared fun _ _ _ => trivial).sparing (admitTurn_open shared)).exceptBind (fun u => ?_) fun _ _ _ _ => trivial
    have hopen : Known C pid fun F : Fleet ν => Holds pid request.sessionId (fun f _ => Open f) F ∧ True :=
      known_holds.and (enduring_const True).known
    refine ((quiet_idle rfl pid _ hopen).strengthen fun F _ hF => hF u rfl).exceptBind (fun snapshot => ?_)
      fun _ _ _ _ => trivial
    refine (quiet_idle rfl pid _ hopen).exceptBind (fun now => ?_) fun _ _ _ _ => trivial
    refine ((quiet_sync ?_) pid _ hopen).exceptBind (fun registered => hsends registered) fun _ _ _ _ => trivial
    exact Segment.Within.bind (Segment.within_require _ _) fun _ => Segment.within_take (proofBooks_registerTurn now)
  · refine (quiet_idle rfl pid _ (known_holds.and (enduring_const True).known)).exceptBind (fun now => ?_)
      fun _ _ _ _ => trivial
    refine Contract.Keeps.exceptBind (keeps_admitted ?_ ((admitTurn_open shared).bind fun _ =>
      Segment.ensures_take fun _ hopen => hopen)) (fun registered => ?_) fun _ _ _ _ => trivial
    · exact Segment.Within.bind (minding_admitTurn shared fun _ _ _ => trivial).sparing fun _ => Segment.within_take (proofBooks_registerTurn now)
    · exact (hsends registered).strengthen fun F _ hF => hF registered rfl

/-- A client that heeds the leases sends only where it saw an open fence, under the lease. -/
theorem careful_sendTurn (hleased : o.withExclusiveSessionLease = true) : Careful (ν := ν) C op (sendTurn o request) := by
  have hclaim : Segment.Within (ν := ν) sparingProofs (Segment.take (claimSend request)) := by
    refine Segment.within_take fun p => ?_
    unfold claimSend
    dsimp only
    split <;> rfl
  have hmutation : Careful (ν := ν) C op
      (runSessionMutation o request.sessionId (sendTurnWithExclusiveLease o request)) := by
    unfold runSessionMutation
    rw [if_pos hleased]
    exact careful_withLease fun pid => keeps_sendTurnWithExclusiveLease hleased
  unfold sendTurn
  refine (careful_sync hclaim).bind fun claimed => ?_
  cases claimed with
  | inl existing => exact careful_idle rfl
  | inr pending =>
    refine hmutation.attempt.bind fun outcome => ?_
    refine Careful.bind (careful_sync (Segment.within_change fun _ => rfl)) fun _ => ?_
    cases outcome with
    | ok handle => exact (quiet_pure handle).careful
    | error e =>
      dsimp only
      split_ifs
      · exact Careful.bind (careful_sync (Segment.within_change fun _ => rfl)) fun _ => (quiet_throw e).careful
      · exact (quiet_throw e).careful

end Sending

section Cancelling
variable {handle : MutableTurnHandle} {sharedState : OmnigentSessionMutationFenceState} (hcall : op.call = .cancelTurn handle)
include hcall

omit [JsNumber ν] in
/-- The holder of the lease puts a fence of the turn in the place of another, or takes it away after an explicit
denial or an event of the turn. -/
theorem mayWrite_cancels {F : Fleet ν} {state : OmnigentSessionMutationFenceState}
    (hF : Cancels handle.turnId (F.fences handle.sessionId))
    (hstate : state.cancellation.isSome = true → state.closing = false ∧ state.closed = false)
    (hkept : state.cancellation.map (·.turnId) = some handle.turnId ∨ (F.replies pid).any isDenial = true ∨
      F.SawEventOf op.client handle.sessionId handle.turnId) : MayWrite pid op handle.sessionId state F := by
  refine ⟨hstate,fun fence hfence => ?_,fun hclosing => ?_⟩
  · rw [hF.1 fence hfence]
    exact hkept.imp_right fun h => h.imp_left fun hdenied => ⟨handle,hcall,rfl,rfl,hdenied⟩
  · rw [hF.2.1] at hclosing
    cases hclosing

/-- After an error the fence of the turn stays, unless the interrupt was denied. -/
theorem keeps_failCancellation (hopen : Open sharedState) (rejectedTurnIds : List Text) (error : ProviderError ν) :
    (contract C).Keeps (steadyWorld ν) pid op (fun _ _ => True)
      (failCancellation handle sharedState rejectedTurnIds error).run
      (fun F => Holds pid handle.sessionId (fun f reply => Cancels handle.turnId f ∧
        (isPolicyDenied error = true → reply.any isDenial = true)) F ∧ True) := by
  unfold failCancellation
  refine ((quiet_sync (Segment.within_look _)) pid _ (known_holds.and (enduring_const True).known)).exceptBind
    (fun observed => ?_) fun _ _ _ _ => trivial
  split_ifs with hdenied
  · refine (keeps_writeFence (B := fun _ _ _ => True) (enduring_const True) (fun F _ hA _ => ?_) (fun _ _ _ => trivial)
      fun _ _ _ _ _ _ _ => trivial).exceptBind (fun _ => ?_) fun _ _ _ _ => trivial
    · refine mayWrite_cancels hcall hA.1 (fun h => ?_) (Or.inr (Or.inl (hA.2 hdenied)))
      rw [hopen.1] at h
      cases h
    · refine ((careful_idle rfl).bind (fun now => ?_) pid).strengthen fun _ _ _ => trivial
      exact (careful_noting (noting_reconcileDenied observed now)).bind fun _ => (quiet_throw error).careful
  · refine (keeps_writeFence (B := fun _ _ _ => True) (enduring_const True) (fun F _ hA _ => ?_) (fun _ _ _ => trivial)
      fun _ _ _ _ _ _ _ => trivial).exceptBind (fun _ => Contract.keeps_throw error fun _ _ _ => trivial)
      fun _ _ _ _ => trivial
    exact mayWrite_cancels hcall hA.1 (fun _ => hopen.2) (Or.inl rfl)

/-- What is written after an accepted interrupt: a write that is denied cannot come. -/
theorem keeps_settleInterrupt (hopen : Open sharedState) (rejectedTurnIds observed : List Text)
    (cancellationProofObserved : Bool) :
    (contract C).Keeps (steadyWorld ν) pid op
      (fun r F => Holds pid handle.sessionId (fun f _ => Cancels handle.turnId f ∧
        ∀ e, r = .error e → isPolicyDenied e = false) F ∧ True)
      (settleInterrupt handle sharedState rejectedTurnIds observed cancellationProofObserved).run
      (fun F => Holds pid handle.sessionId (fun f reply => Cancels handle.turnId f ∧ reply.any isAcceptance = true) F ∧
        (cancellationProofObserved = true → F.SawEventOf op.client handle.sessionId handle.turnId)) := by
  have hproof : Enduring (ν := ν) fun F => cancellationProofObserved = true →
      F.SawEventOf op.client handle.sessionId handle.turnId := fun F F' ho h hproof => (h hproof).mono (ho _ _)
  have hknown : Known C pid fun F : Fleet ν => Holds pid handle.sessionId (fun f _ => Cancels handle.turnId f) F :=
    known_holds
  have hfinish : (contract C).Keeps (steadyWorld ν) pid op
      (fun r F => Holds pid handle.sessionId (fun f _ => Cancels handle.turnId f ∧
        ∀ e, r = .error e → isPolicyDenied e = false) F ∧ True)
      (do
        let now ← perform .now
        Async.sync (Segment.take (finishCancellation handle cancellationProofObserved now)) : Async ν ℕ).run
      (Holds pid handle.sessionId fun f _ => Cancels handle.turnId f) := by
    refine Contract.Keeps.exceptBind (keeps_idle (K := fun r => ∀ e, r ≠ .error e) rfl (fun w c b w' h e he => ?_) hknown)
      (fun now => ?_) fun e _ _ h => absurd rfl (h.2 e)
    · subst he
      cases c <;> simp only [World.answer, Option.some.injEq, Prod.mk.injEq, reduceCtorEq, false_and] at h
    · refine Contract.Keeps.weaken (Contract.Keeps.strengthen (keeps_segment (K := fun r => ∀ e, r ≠ .error e)
        (Segment.Within.sparing (Segment.within_take (sessionStep_finishCancellation _ now))) (fun p e h => ?_) hknown) fun F _ h => h.1) fun r F _ h =>
          ⟨h.1.weaken fun f _ hf => ⟨hf,fun e he => absurd he (h.2 e)⟩,trivial⟩
      cases h
  -- a write whose reply is an error leaves the fence as it was or as it was to be, and is not denied
  have hwrites : ∀ state, Cancels handle.turnId state →
      (state.cancellation.isSome = true → state.closing = false ∧ state.closed = false) →
      (state.cancellation.map (·.turnId) = some handle.turnId ∨ cancellationProofObserved = true) →
      (contract C).Keeps (steadyWorld ν) pid op
        (fun r F => Holds pid handle.sessionId (fun f _ => Cancels handle.turnId f ∧
          ∀ e, r = .error e → isPolicyDenied e = false) F ∧
            (cancellationProofObserved = true → F.SawEventOf op.client handle.sessionId handle.turnId))
        (perform (.writeFence handle.sessionId state) : Async ν Unit).run
        (fun F => Holds pid handle.sessionId (fun f reply => Cancels handle.turnId f ∧ reply.any isAcceptance = true) F ∧
          (cancellationProofObserved = true → F.SawEventOf op.client handle.sessionId handle.turnId)) := by
    intro state hcancels hsound hkept
    refine keeps_writeFence hproof (fun F _ hA hsaw => ?_) (fun f reply _ => ⟨hcancels,fun _ h => (by cases h)⟩)
      fun e f g reply hsteady hA hg => ⟨?_,fun e' he' => ?_⟩
    · exact mayWrite_cancels hcall hA.1 hsound (hkept.imp_right fun h => Or.inr (hsaw h))
    · obtain rfl | rfl := hg
      · exact hA.1
      · exact hcancels
    · cases he'
      refine Bool.eq_false_iff.mpr fun hdenied => ?_
      rw [hsteady hdenied] at hA
      cases hA.2
  have hnext : ∀ e (F : Fleet ν), (Holds pid handle.sessionId (fun f _ => Cancels handle.turnId f ∧
      ∀ e', (Except.error e : Except (ProviderError ν) Unit) = .error e' → isPolicyDenied e' = false) F) →
      Holds pid handle.sessionId (fun f _ => Cancels handle.turnId f ∧
        ∀ e', (Except.error e : Except (ProviderError ν) ℕ) = .error e' → isPolicyDenied e' = false) F :=
    fun e F h => h.weaken fun f _ hf => ⟨hf.1,fun e' he' => hf.2 e' (by cases he'; rfl)⟩
  unfold settleInterrupt
  split_ifs with hproved hobserved
  · refine Contract.Keeps.exceptBind (hwrites _ ?_ ?_ (Or.inr hproved))
      (fun _ => hfinish.strengthen fun F _ h => h.1.weaken fun f _ hf => hf.1) fun e F _ h => ⟨hnext e F h.1,trivial⟩
    · exact ⟨fun _ h => (by cases h),rfl,hopen.2.2⟩
    · exact fun h => by cases h
  · refine Contract.Keeps.exceptBind (hwrites _ ⟨fun fence h => ?_,?_⟩ (fun _ => ?_) (Or.inl ?_))
      (fun _ => hfinish.strengthen fun F _ h => h.1.weaken fun f _ hf => hf.1) fun e F _ h => ⟨hnext e F h.1,trivial⟩
    · cases h
      rfl
    · exact hopen.2
    · exact hopen.2
    · rfl
  · exact hfinish.strengthen fun F _ h => h.1.weaken fun f _ hf => hf.1

omit [JsNumber ν] hcall in
theorem isDenial_of_failure {ack : OmnigentEventAck} {e : ProviderError ν} (h : controlEventFailure ack = some e)
    (hdenied : isPolicyDenied e = true) : isDenial (.ok ack : Except (ProviderError ν) _) = true := by
  cases ack with
  | denied reason => rfl
  | accepted item_id pending_id =>
    cases h
    cases hdenied
  | handled => cases h

/-- The fence of the turn is up. -/
abbrev Raised (turnId : Text) (f : OmnigentSessionMutationFenceState) : Prop :=
  f.cancellation.map (·.turnId) = some turnId ∧ f.closing = false ∧ f.closed = false

omit hcall in
theorem Raised.cancels {turnId : Text} {f : OmnigentSessionMutationFenceState} (h : Raised turnId f) : Cancels turnId f := by
  refine ⟨fun fence hfence => ?_,h.2⟩
  rw [Raised, hfence] at h
  exact Option.some.inj h.1

/-- What the process knows once its interrupt has come to something. -/
def Interrupted (pid client : ℕ) (handle : MutableTurnHandle) (r : Except (ProviderError ν) (List Text × Bool))
    (F : Fleet ν) : Prop :=
  Holds pid handle.sessionId (fun f reply => Cancels handle.turnId f ∧
    (∀ e, r = .error e → isPolicyDenied e = true → reply.any isDenial = true) ∧
      ∀ a, r = .ok a → reply.any isAcceptance = true) F ∧
    ∀ a, r = .ok a → a.2 = true → F.SawEventOf client handle.sessionId handle.turnId

omit hcall in
/-- What the client saw of the turn by the time the interrupt is confirmed. -/
theorem keeps_confirmInterrupt
    (hunique : ∀ other, C op.client other → cancelKey other = cancelKey handle → other.sessionId = handle.sessionId)
    (ack : OmnigentEventAck) :
    (contract C).Keeps (steadyWorld ν) pid op (Interrupted pid op.client handle)
      (Async.sync (confirmInterrupt handle ack)).run
      (Holds pid handle.sessionId fun f reply => Raised handle.turnId f ∧ reply = some (.ok ack)) := by
  refine keeps_sync (fun F hF _ => hF.noted_of_eq ((minding_confirmInterrupt ack).sparing _)) (fun F F' hF hheld hworld hperformed => ?_)
    fun r => ?_
  · have hknown : Holds pid handle.sessionId (fun f reply => Raised handle.turnId f ∧ reply = some (.ok ack)) F' := by
      refine hperformed.known (C := C) known_holds rfl rfl ?_ ?_ hheld
      · rw [hworld]
        rfl
      · unfold Fleet.fences
        rw [hworld]
        rfl
    obtain ⟨e,hfailure,he⟩ | ⟨rfl,observed,hseen⟩ := confirmInterrupt_outcome ack (F.world.providers op.client)
    · rw [he]
      refine ⟨hknown.weaken fun f reply h => ⟨h.1.cancels,fun e' he' hdenied => ?_,fun _ h => (by cases h)⟩,
        fun _ h => (by cases h)⟩
      cases he'
      rw [h.2]
      exact isDenial_of_failure hfailure hdenied
    · rw [hseen]
      refine ⟨hknown.weaken fun f reply h => ⟨h.1.cancels,fun _ h => (by cases h),fun _ _ => ?_⟩,fun a ha hproof => ?_⟩
      · rw [h.2]
        rfl
      · cases ha
        obtain ⟨other,hother,hkey,hsaw⟩ := (hF.noted op.client).proofs _ hproof
        have hsession := hunique other hother hkey
        have hturn : other.turnId = handle.turnId := by
          unfold cancelKey sessionKey at hkey
          rw [hsession] at hkey
          exact List.append_cancel_left hkey
        rw [hsession, hturn] at hsaw
        exact hsaw.mono fun _ => hperformed.observed
  · refine known_holds.stable.and _ ?_
    exact fun other op' F F' _ _ hg h a ha hproof => (h a ha hproof).mono (hg.observed _ _)

/-- An interrupt is sent under the fence of the turn, and what it comes to decides what becomes of that. -/
theorem keeps_interruptTurn
    (hunique : ∀ other, C op.client other → cancelKey other = cancelKey handle → other.sessionId = handle.sessionId)
    (hopen : Open sharedState) (rejectedTurnIds : List Text) :
    (contract C).Keeps (steadyWorld ν) pid op (fun _ _ => True)
      (interruptTurn handle sharedState rejectedTurnIds : Async ν ℕ).run
      (fun F => Holds pid handle.sessionId (fun f _ => Raised handle.turnId f) F ∧ True) := by
  unfold interruptTurn
  refine Contract.Keeps.attemptBind (K := Interrupted pid op.client handle) ?_ fun interrupted => ?_
  · refine (keeps_request rfl (enduring_const True) fun F hraised _ _ hrequest => ?_).exceptBind (fun ack => ?_)
      fun e F _ hF => ?_
    · cases hrequest
      exact ⟨handle,hcall,rfl,hraised.1⟩
    · exact (keeps_confirmInterrupt hunique ack).strengthen fun F _ hF =>
        hF.1.weaken fun f reply h => ⟨h.1,h.2 _ rfl⟩
    · refine ⟨hF.1.weaken fun f reply h => ⟨h.1.cancels,fun e' he' hdenied => ?_,fun _ h => (by cases h)⟩,
        fun _ h => (by cases h)⟩
      cases he'
      rw [h.2 _ rfl]
      exact hdenied
  · cases interrupted with
    | error error =>
      exact (keeps_failCancellation hcall hopen _ error).strengthen fun F _ hF =>
        ⟨hF.1.weaken fun f reply h => ⟨h.1,h.2.1 error rfl⟩,trivial⟩
    | ok seen =>
      refine ((keeps_settleInterrupt hcall hopen _ seen.1 seen.2).strengthen fun F _ hF =>
        ⟨hF.1.weaken fun f reply h => ⟨h.1,h.2.2 seen rfl⟩,hF.2 seen rfl⟩).attemptBind fun settled => ?_
      cases settled with
      | ok cancelled => exact Contract.keeps_pure cancelled fun _ _ _ => trivial
      | error error =>
        refine (keeps_failCancellation hcall hopen _ error).strengthen fun F _ hF =>
          ⟨hF.1.weaken fun f reply h => ⟨h.1,fun hdenied => ?_⟩,trivial⟩
        rw [h.2 error rfl] at hdenied
        cases hdenied

theorem keeps_cancelTurnWithExclusiveLease
    (hunique : ∀ other, C op.client other → cancelKey other = cancelKey handle → other.sessionId = handle.sessionId) :
    (contract C).Keeps (steadyWorld ν) pid op (fun _ _ => True) (cancelTurnWithExclusiveLease handle o : Async ν ℕ).run
      (Holds pid handle.sessionId fun _ _ => True) := by
  unfold cancelTurnWithExclusiveLease
  refine Contract.Keeps.strengthen (P := fun F => Holds pid handle.sessionId (fun _ _ => True) F ∧ True) ?_
    fun _ _ h => ⟨h,trivial⟩
  refine (keeps_readSharedState (enduring_const True)).exceptBind (fun sharedState => ?_) fun _ _ _ _ => trivial
  have hknown : Known C pid fun F : Fleet ν => Holds pid handle.sessionId (fun f _ => f = sharedState) F := known_holds
  refine Contract.Keeps.strengthen (P := Holds pid handle.sessionId fun f _ => f = sharedState) ?_
    fun F _ hF => hF.1.weaken fun f _ h => h.2 sharedState rfl
  refine (keeps_segment (K := fun r => r = .ok () → Open sharedState) (minding_admitCancellation sharedState fun _ => trivial).sparing
    (fun p hp => admitCancellation_open sharedState p () trivial hp) hknown).exceptBind (fun u => ?_) fun _ _ _ _ => trivial
  refine Contract.Keeps.strengthen (Contract.Keeps.assume fun hopen => ?_) fun F _ hF =>
    (⟨hF.2 rfl,hF.1⟩ : Open sharedState ∧ Holds pid handle.sessionId (fun f _ => f = sharedState) F)
  refine (quiet_idle rfl pid _ hknown).exceptBind (fun snapshot => ?_) fun _ _ _ _ => trivial
  refine (keeps_segment (K := fun r => ∀ fence, r = .ok fence → fence.turnId = handle.turnId)
    (minding_fenceCancellation snapshot).sparing (fun p fence hp => fenceCancellation_turnId snapshot p fence trivial hp)
    hknown).exceptBind (fun fence => ?_) fun _ _ _ _ => trivial
  refine Contract.Keeps.strengthen (Contract.Keeps.assume fun hfence => ?_) fun F _ hF =>
    (⟨hF.2 fence rfl,hF.1,trivial⟩ : fence.turnId = handle.turnId ∧
      Holds pid handle.sessionId (fun f _ => f = sharedState) F ∧ True)
  refine Contract.Keeps.exceptBind (keeps_writeFence (B := fun r f _ => r = .ok () → Raised handle.turnId f)
    (enduring_const True) (fun F _ hA _ => ⟨fun _ => hopen.2,fun other hother => ?_,fun hclosing => ?_⟩)
    (fun f reply _ _ => ⟨?_,hopen.2⟩) fun _ _ _ _ _ _ _ h => (by cases h)) (fun _ => ?_) fun _ _ _ _ => trivial
  · rw [hA, hopen.1] at hother
    cases hother
  · rw [hA, hopen.2.1] at hclosing
    cases hclosing
  · rw [Option.map_some, hfence]
  · exact (keeps_interruptTurn hcall hunique hopen _).strengthen fun F _ hF =>
      ⟨hF.1.weaken fun f _ h => h rfl,trivial⟩

theorem careful_cancelTurn (hC : C op.client handle)
    (hunique : ∀ other, C op.client other → cancelKey other = cancelKey handle → other.sessionId = handle.sessionId) :
    Careful (ν := ν) C op (cancelTurn handle o) := by
  unfold cancelTurn
  split_ifs
  · refine (careful_noting (noting_reserveCancellation hC)).bind fun _ => ?_
    refine Careful.finally' (careful_withLease fun pid => ?_) (careful_noting noting_releaseReservation)
    exact keeps_cancelTurnWithExclusiveLease hcall hunique
  · exact (quiet_throw _).careful

end Cancelling

section Closing
variable {sessionId : Text} {sharedState : OmnigentSessionMutationFenceState}
  (hcall : op.call = .closeSession sessionId)
include hcall

omit [JsNumber ν] in
/-- The holder of the lease puts another fence in the place of one that does not cancel. -/
theorem mayWrite_closes {F : Fleet ν} {state : OmnigentSessionMutationFenceState}
    (hF : (F.fences sessionId).cancellation = none) (hstate : state.cancellation = none)
    (hkept : (F.fences sessionId).closing = true → state.closing = true ∨ state.closed = true ∨
      (F.replies pid).any isDenial = true) : MayWrite pid op sessionId state F := by
  refine ⟨fun h => ?_,fun fence hfence => ?_,fun hclosing => ?_⟩
  · rw [hstate] at h
    cases h
  · rw [hF] at hfence
    cases hfence
  · exact (hkept hclosing).imp_right fun h => h.imp_right fun hdenied => ⟨hcall,hdenied⟩

/-- The session is stopped while its fence closes it; an error that is a denial is one of the request. -/
theorem keeps_stopSession (hnone : sharedState.cancellation = none) :
    (contract C).Keeps (steadyWorld ν) pid op
      (fun r F => Holds pid sessionId (fun f reply => f.cancellation = none ∧
        ∀ e, r = .error e → isPolicyDenied e = true → reply.any isDenial = true) F ∧ True)
      (stopSession sessionId sharedState : Async ν Unit).run
      (fun F => Holds pid sessionId (fun f _ => f.cancellation = none ∧ f.closing = true) F ∧ True) := by
  unfold stopSession
  refine (keeps_request rfl (enduring_const True) fun F hclosing _ _ hrequest => ?_).exceptBind (fun ack => ?_)
    fun e F _ hF => ⟨hF.1.weaken fun f reply h => ⟨h.1.1,fun e' he' hdenied => ?_⟩,trivial⟩
  · cases hrequest
    exact ⟨hcall,hclosing.2⟩
  · cases hfailure : controlEventFailure (ν := ν) ack with
    | some e =>
      refine Contract.keeps_throw e fun F _ hF => ⟨hF.1.weaken fun f reply h => ⟨h.1.1,fun e' he' hdenied => ?_⟩,trivial⟩
      cases he'
      rw [h.2 _ rfl]
      exact isDenial_of_failure hfailure hdenied
    | none =>
      have haccepted : isAcceptance (.ok ack : Except (ProviderError ν) _) = true := by
        cases ack with
        | handled => rfl
        | accepted item_id pending_id => cases hfailure
        | denied reason => cases hfailure
      refine keeps_writeFence (enduring_const True) (fun F _ hA _ => ?_) (fun f reply hA => ⟨hnone,fun _ h => (by cases h)⟩)
        fun e f g reply hsteady hA hg => ⟨?_,fun e' he' hdenied => ?_⟩
      · exact mayWrite_closes hcall hA.1.1 hnone fun _ => Or.inr (Or.inl rfl)
      · obtain rfl | rfl := hg
        · exact hA.1.1
        · exact hnone
      · cases he'
        have hnot := hsteady hdenied
        rw [hA.2 _ rfl, Option.any_some, haccepted] at hnot
        cases hnot
  · cases he'
    rw [h.2 _ rfl]
    exact hdenied

theorem keeps_closeSessionWithExclusiveLease :
    (contract C).Keeps (steadyWorld ν) pid op (fun _ _ => True) (closeSessionWithExclusiveLease o sessionId : Async ν Unit).run
      (Holds pid sessionId fun _ _ => True) := by
  unfold closeSessionWithExclusiveLease
  refine Contract.Keeps.strengthen (P := fun F => Holds pid sessionId (fun _ _ => True) F ∧ True) ?_
    fun _ _ h => ⟨h,trivial⟩
  refine (keeps_readSharedState (enduring_const True)).exceptBind (fun sharedState => ?_) fun _ _ _ _ => trivial
  have hknown : Known C pid fun F : Fleet ν => Holds pid sessionId (fun f _ => f = sharedState) F := known_holds
  refine Contract.Keeps.strengthen (P := Holds pid sessionId fun f _ => f = sharedState) ?_
    fun F _ hF => hF.1.weaken fun f _ h => h.2 sharedState rfl
  refine (keeps_segment (K := fun r => r = .ok () → sharedState.cancellation = none) (minding_admitClose sharedState fun _ => trivial).sparing
    (fun p hp => admitClose_uncancelled sharedState p () trivial hp) hknown).exceptBind (fun u => ?_) fun _ _ _ _ => trivial
  refine Contract.Keeps.strengthen (Contract.Keeps.assume fun hnone => ?_) fun F _ hF =>
    (⟨hF.2 rfl,hF.1,trivial⟩ : sharedState.cancellation = none ∧
      Holds pid sessionId (fun f _ => f = sharedState) F ∧ True)
  split_ifs
  · refine Contract.Keeps.exceptBind (keeps_writeFence (B := fun r f _ => r = .ok () →
      f.cancellation = none ∧ f.closing = true) (enduring_const True) (fun F _ hA _ => ?_) (fun f reply _ _ => ⟨hnone,rfl⟩)
      fun _ _ _ _ _ _ _ h => (by cases h)) (fun u => ?_) fun _ _ _ _ => trivial
    · exact mayWrite_closes hcall (by rw [hA]; exact hnone) hnone fun _ => Or.inl rfl
    refine Contract.Keeps.attemptBind ((keeps_stopSession hcall hnone).strengthen fun F _ hF =>
      ⟨hF.1.weaken fun f _ h => h rfl,trivial⟩) fun stopped => ?_
    cases stopped with
    | ok u =>
      refine ((careful_idle rfl).bind (fun now => ?_) pid).strengthen fun _ _ _ => trivial
      exact careful_sync (Segment.within_change fun p => OmnigentHttpProvider.proofBooks_updateSession _)
    | error error =>
      dsimp only
      split_ifs with hdenied
      · refine Contract.Keeps.exceptBind (keeps_writeFence (B := fun _ _ _ => True) (enduring_const True)
          (fun F _ hA _ => ?_) (fun _ _ _ => trivial) fun _ _ _ _ _ _ _ => trivial)
          (fun _ => Contract.keeps_throw error fun _ _ _ => trivial) fun _ _ _ _ => trivial
        exact mayWrite_closes hcall hA.1 hnone fun _ => Or.inr (Or.inr (hA.2 error rfl hdenied))
      · exact Contract.keeps_throw error fun _ _ _ => trivial
  · exact Contract.keeps_pure () fun _ _ _ => trivial

theorem careful_closeSession : Careful (ν := ν) C op (closeSession o sessionId) := by
  unfold closeSession
  split_ifs
  · exact careful_withLease fun pid => keeps_closeSessionWithExclusiveLease hcall
  · exact (quiet_throw _).careful

end Closing

end Fleet
end OmniagentPlus.OmnigentTransport
