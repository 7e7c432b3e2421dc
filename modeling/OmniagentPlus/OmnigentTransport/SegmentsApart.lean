import OmniagentPlus.OmnigentTransport.BooksApart

/-! The stretches of code that run for a session, one by one: they leave what is kept of the others alone and the
notes on cancellations under way, and keep a closed session closed. Only the shared fence and `closeSession` close one. -/
namespace OmniagentPlus.OmnigentTransport
open OmniagentPlus.Foundation OmniagentPlus.CoreContracts
open Segment OmnigentHttpProvider
variable {ν : Type} {mayClose : Text → Prop} {sessionId : Text} {p : OmnigentHttpProvider ν}

section Replay

/-- Code that changes what is known of the events that were handed out. -/
theorem turnStep_setReplay {replay : EventReplay} (h : ∀ t, Apart sessionId t →
      replay.eventSequences.restrict (isSession t) = p.replay.eventSequences.restrict (isSession t) ∧
      replay.nextEventSequences.restrict (isSession t) = p.replay.nextEventSequences.restrict (isSession t) ∧
      replay.deliveredTextEventsByTurnIds.restrict (hasKeyPrefix t) =
        p.replay.deliveredTextEventsByTurnIds.restrict (hasKeyPrefix t)) :
    TurnStep sessionId p { p with replay := replay } := by
  refine .of_part rfl rfl fun t ht => ?_
  obtain ⟨hsequences,hnext,hdelivered⟩ := h t ht
  simp only [part, hsequences, hnext, hdelivered]

theorem turnStep_resequence (events : List (RuntimeEventEnvelope ν)) (sequenceFloor : ℕ) :
    TurnStep sessionId p { p with
      replay := (p.replay.resequenceRuntimeEvents sessionId events sequenceFloor).2 } :=
  turnStep_setReplay fun t ht => by
    simp only [EventReplay.resequenceRuntimeEvents, Dictionary.restrict_set_of_not, ht.session, and_self]

theorem turnStep_recordDeliveredText (events : List (RuntimeEventEnvelope ν)) (messageId : Option Text) :
    TurnStep sessionId p { p with replay := p.replay.recordDeliveredText sessionId events messageId } := by
  refine turnStep_setReplay fun t ht => ?_
  unfold EventReplay.recordDeliveredText
  generalize p.replay = replay
  induction events generalizing replay with
  | nil => exact ⟨rfl,rfl,rfl⟩
  | cons event events ih =>
    obtain ⟨hsequences,hnext,hdelivered⟩ := ih (EventReplay.recordText sessionId messageId replay event)
    rw [List.foldl_cons, hsequences, hnext, hdelivered]
    unfold EventReplay.recordText
    split
    · exact ⟨rfl,rfl,rfl⟩
    · dsimp only
      split_ifs
      · exact ⟨rfl,rfl,rfl⟩
      · exact ⟨rfl,rfl,Dictionary.restrict_set_of_not _ _ (ht.key _)⟩

end Replay

section Reconciliation

theorem turnStep_claimHistoryItem (itemId : Text) : TurnStep sessionId p { p with
    claimedHistoryItemKeys := p.claimedHistoryItemKeys.add (sessionKey sessionId itemId) } :=
  .of_part rfl rfl fun t ht => by
    simp only [KeySet.add, part, Dictionary.restrict_set_of_not, ht.key]

theorem turnStep_setPendingItem (itemId turnId : Text) : TurnStep sessionId p { p with
    pendingItemTurnIds := p.pendingItemTurnIds.set (sessionKey sessionId itemId) turnId } :=
  .of_part rfl rfl fun t ht => by
    simp only [part, Dictionary.restrict_set_of_not, ht.key]

theorem restrict_observeItems {t : Text} (ht : Apart sessionId t) (items : List (OmnigentConversationItem ν))
    (keys : KeySet) :
    (observeItems sessionId items keys).restrict (hasKeyPrefix t) = Dictionary.restrict keys (hasKeyPrefix t) := by
  unfold observeItems
  induction items generalizing keys with
  | nil => rfl
  | cons item items ih =>
    rw [List.foldl_cons, ih, KeySet.add, Dictionary.restrict_set_of_not _ _ (ht.key _)]

theorem turnStep_observeItems (items : List (OmnigentConversationItem ν)) : TurnStep sessionId p { p with
    observedHistoryItemKeys := observeItems sessionId items p.observedHistoryItemKeys } :=
  .of_part rfl rfl fun t ht => by
    simp only [part, restrict_observeItems ht]

theorem minding_observeHistory (items : List (OmnigentConversationItem ν)) :
    Within (minding mayClose sessionId) (observeHistory sessionId items) := by
  refine within_turns fun p => ?_
  split_ifs
  · exact turnStep_observeItems items
  · exact .refl p

variable [JsNumber ν] {stream : Option ℕ}

theorem minding_reconcileItem (item : OmnigentConversationItem ν) (turnId : Text) :
    Within (minding mayClose sessionId) (reconcileItem sessionId stream item turnId) := by
  unfold reconcileItem
  refine Within.bind (within_turns fun p => turnStep_onGivenStream _ _) fun _ => ?_
  refine Within.bind (within_ofOption _) fun updatedAt => ?_
  exact within_change fun p => sessionStep_reconcileTurn _ _ _

theorem minding_reconcileTurnsFromHistory (items : List (OmnigentConversationItem ν)) :
    Within (minding mayClose sessionId) (reconcileTurnsFromHistory sessionId stream items) := by
  induction items with
  | nil => exact within_pure ()
  | cons item items ih =>
    unfold reconcileTurnsFromHistory
    refine Within.bind (within_look _) fun turn => ?_
    cases turn with
    | none => exact ih
    | some turnId =>
      refine Within.bind (within_turns fun p => turnStep_claimHistoryItem item.id) fun _ => ?_
      exact Within.bind (minding_reconcileItem item turnId) fun _ => ih

theorem minding_bindConsumedTurns (turns : List (Text × OmnigentConversationItem ν)) :
    Within (minding mayClose sessionId) (bindConsumedTurns sessionId stream turns) := by
  induction turns with
  | nil => exact within_pure ()
  | cons turn turns ih =>
    unfold bindConsumedTurns
    refine Within.bind (within_turns fun p => turnStep_setPendingItem turn.2.id turn.1) fun _ => ?_
    exact Within.bind (minding_reconcileItem _ _) fun _ => ih

theorem minding_reconcilePendingTurnsFromSnapshot (snapshot : OmnigentSessionSnapshot ν)
    (items : List (OmnigentConversationItem ν)) :
    Within (minding mayClose sessionId) (reconcilePendingTurnsFromSnapshot sessionId stream snapshot items) := by
  unfold reconcilePendingTurnsFromSnapshot
  refine Within.bind (within_look _) fun consumedPending => Within.bind (within_look _) fun candidates => ?_
  split_ifs
  · exact minding_observeHistory items
  · exact Within.bind (minding_bindConsumedTurns _) fun _ => minding_observeHistory items
  · exact within_pure ()

theorem minding_recordConsumedPendingItem (stream : ℕ) (event : OmnigentRawEvent ν)
    (items : List (OmnigentConversationItem ν)) :
    Within (minding mayClose sessionId) (recordConsumedPendingItem sessionId stream event items) := by
  unfold recordConsumedPendingItem
  split
  · refine Within.bind (within_look _) fun cancelled => ?_
    split_ifs
    · refine Within.bind (within_turns fun p => ?_) fun _ => within_pure _
      refine TurnStep.trans (.of_part ?_ ?_ fun t ht => ?_) (turnStep_onStreams _)
      · rfl
      · rfl
      · simp only [KeySet.add, part, Dictionary.restrict_set_of_not, ht.key]
    · refine Within.bind (within_turns fun p => turnStep_setPendingItem _ _) fun _ => ?_
      split
      · exact Within.bind (minding_reconcileItem _ _) fun _ => within_pure _
      · exact Within.bind (within_turns fun p => turnStep_onStream _ _) fun _ => within_pure _
  · exact within_pure _

theorem minding_mapHistory (isDatetime : Text → Bool) (snapshot : OmnigentSessionSnapshot ν)
    (items : List (OmnigentConversationItem ν)) :
    Within (minding mayClose sessionId) (mapHistory sessionId isDatetime snapshot items) := by
  unfold mapHistory
  refine Within.bind (within_ofOption _) fun mapped => ?_
  refine Within.bind (within_change fun p => ?_) fun _ => within_pure _
  exact (sessionStep_refreshTrackedSession snapshot _).trans (sessionStep_applyMappedHistoryState _)

theorem minding_readHistorySegment (isDatetime : Text → Bool) (afterSequence limit : Option ℕ)
    (snapshot : OmnigentSessionSnapshot ν) (items : List (OmnigentConversationItem ν)) :
    Within (minding mayClose sessionId) (readHistorySegment sessionId isDatetime afterSequence limit snapshot items) := by
  unfold readHistorySegment
  refine Within.bind (minding_reconcileTurnsFromHistory items) fun _ => ?_
  refine Within.bind (minding_reconcilePendingTurnsFromSnapshot snapshot items) fun _ => ?_
  refine Within.bind (minding_mapHistory isDatetime snapshot items) fun mapped => ?_
  refine within_take fun p => TurnStep.session ?_
  unfold EventReplay.replayHistory
  dsimp only
  exact (turnStep_resequence _ _).trans (turnStep_recordDeliveredText _ _)

end Reconciliation

section Sending
variable {options : OmnigentHttpClientOptions} {request : SendTurnRequest}

theorem minding_admitTurn (sharedState : Option OmnigentSessionMutationFenceState)
    (h : ∀ state, sharedState = some state → state.closed = true → mayClose request.sessionId) :
    Within (ν := ν) (minding mayClose request.sessionId) (admitTurn options request sharedState) := by
  have hfence : Within (ν := ν) (minding mayClose request.sessionId) (heedFence request sharedState) := by
    cases sharedState with
    | none => exact within_pure ()
    | some state =>
      refine Within.bind (within_change fun p => ?_) fun _ => within_require _ _
      exact sessionStep_installSharedSessionMutationState state (h state rfl)
  refine Within.bind hfence fun _ => Within.bind (within_check _ _) fun _ => ?_
  refine Within.bind (within_check _ _) fun _ => Within.bind (within_check _ _) fun _ => ?_
  exact Within.bind (within_look _) fun _ => within_require _ _

/-- A new handle of the session. -/
theorem turnStep_addHandle {handle : MutableTurnHandle} (hs : handle.sessionId = sessionId) :
    TurnStep sessionId p { p with handles := p.handles ++ [handle] } := by
  refine ⟨fun hp => ?_,rfl,rfl⟩
  have hkeeps : KeepsOthers MutableTurnHandle.sessionId sessionId p.handles (p.handles ++ [handle]) :=
    keepsOthers_append hs
  refine ⟨⟨fun id h hq => ?_,hp.sends,fun k h hk ho => ?_⟩,fun _ _ => rfl,hkeeps,keepsOthers_refl _⟩
  · exact KeepsOthers.handleSession (q := { p with handles := p.handles ++ [handle] }) hkeeps (hp.turns id h hq)
  · exact KeepsOthers.handleSession (q := { p with handles := p.handles ++ [handle] }) hkeeps (hp.outcomes k h hk ho)

theorem handleSession_last (handle : MutableTurnHandle) :
    ({ p with handles := p.handles ++ [handle] } : OmnigentHttpProvider ν).handleSession p.handles.length =
      some handle.sessionId := by
  simp [handleSession]

/-- A new handle of the session, for one of its turns. -/
theorem turnStep_addTurn (turnId : Text) (handle : MutableTurnHandle) (hs : handle.sessionId = sessionId) :
    TurnStep sessionId p { p with
      handles := p.handles ++ [handle]
      turns := p.turns.set (sessionKey sessionId turnId) p.handles.length } := by
  refine TurnStep.trans (turnStep_addHandle hs) (turnStep_setTurn turnId fun _ => ?_)
  rw [handleSession_last, hs]

/-- A new promise of the session, for one of its requests. -/
theorem turnStep_addPromise (key : Text) (promise : SendPromise ν) (hs : promise.sessionId = sessionId)
    (houtcome : ∀ handle, promise.outcome = some (.ok handle) → p.handleSession handle = some sessionId) :
    TurnStep sessionId p { p with
      sends := p.sends.set (sessionKey sessionId key) p.sendPromises.length
      sendPromises := p.sendPromises ++ [promise] } := by
  refine ⟨fun hp => ?_,rfl,rfl⟩
  have hkeeps : KeepsOthers SendPromise.sessionId sessionId p.sendPromises (p.sendPromises ++ [promise]) :=
    keepsOthers_append hs
  refine ⟨⟨hp.turns,fun id k hq => ?_,fun k handle hk ho => ?_⟩,fun t ht => ?_,keepsOthers_refl _,hkeeps⟩
  · simp only [Dictionary.get?_set] at hq
    split_ifs at hq
    · cases hq
      simp [promiseSession, hs]
    · obtain ⟨a,ha,hat⟩ := Option.map_eq_some_iff.mp (hp.sends id k hq)
      obtain ⟨b,hb,hba⟩ := hkeeps.kept k a ha
      rw [promiseSession, hb, Option.map_some, hba, hat]
  · simp only [promiseSession, sendOutcome, List.getElem?_append] at hk ho
    split_ifs at hk ho with hlt
    · exact hp.outcomes k handle hk ho
    · obtain ⟨a,ha,hao⟩ := Option.bind_eq_some_iff.mp ho
      have hpa : a = promise := by simpa using List.mem_of_getElem? ha
      exact houtcome handle (hpa ▸ hao)
  · simp only [part, Dictionary.restrict_set_of_not, ht.key]

/-- A promise of the session is settled. -/
theorem turnStep_settleSend {pending : ℕ} {outcome : Except (ProviderError ν) ℕ}
    (hs : p.promiseSession pending = some sessionId)
    (houtcome : ∀ handle, outcome = .ok handle → p.handleSession handle = some sessionId) :
    TurnStep sessionId p (p.settleSend pending outcome) := by
  refine ⟨fun hp => ?_,rfl,rfl⟩
  have hkeeps : KeepsOthers SendPromise.sessionId sessionId p.sendPromises (p.settleSend pending outcome).sendPromises := by
    refine keepsOthers_modify (fun a ha => ?_) fun _ => rfl
    rw [promiseSession, ha] at hs
    exact Option.some.inj hs
  refine ⟨⟨hp.turns,fun id k hq => hkeeps.promiseSession (hp.sends id k hq),fun k handle hk ho => ?_⟩,fun _ _ => rfl,
    keepsOthers_refl _,hkeeps⟩
  by_cases hk' : pending = k
  · subst hk'
    obtain ⟨a,ha,hao⟩ := Option.bind_eq_some_iff.mp ho
    obtain ⟨b,hb,rfl⟩ := Option.map_eq_some_iff.mp (List.getElem?_modify _ _ _ _ ▸ ha)
    exact houtcome handle (by simpa using hao)
  · refine hp.outcomes k handle ?_ ?_
    · simpa [promiseSession, settleSend, List.getElem?_modify, hk'] using hk
    · simpa [sendOutcome, settleSend, List.getElem?_modify, hk'] using ho

/-- A turn is registered by code for the turns of the session around a change that makes the session active. -/
theorem registerTurn_steps (request : SendTurnRequest) (now : Text) (p : OmnigentHttpProvider ν) :
    ∃ (q : OmnigentHttpProvider ν) (change : AgentSessionInfo ν → AgentSessionInfo ν)
      (call : OmnigentSseNormalizer → OmnigentSseNormalizer), TurnStep request.sessionId p q ∧
      (∀ a, (change a).state = .turnActive) ∧
      (registerTurn request now p).2 = (q.updateSession request.sessionId change).onStreams request.sessionId call := by
  have hnoted : ∀ turnId order, TurnStep request.sessionId p { p with
      rejectedTurnKeys := p.rejectedTurnKeys.erase (sessionKey request.sessionId turnId)
      provisionalTurnKeys := p.provisionalTurnKeys.add (sessionKey request.sessionId turnId)
      provisionalTurnOrder := p.provisionalTurnOrder.set request.sessionId order
      latestTurnIds := p.latestTurnIds.set request.sessionId turnId } := by
    intro turnId order
    refine .of_part rfl rfl fun t ht => ?_
    simp only [KeySet.add, part, Dictionary.restrict_set_of_not, Dictionary.restrict_erase_of_not, ht.key, ht.session]
  refine ⟨_,_,_,(hnoted (provisionalTurnId request)
    ((p.provisionalTurnOrder.get? request.sessionId).getD [] ++ [provisionalTurnId request])).trans
      (turnStep_addTurn (provisionalTurnId request) _ rfl),?_,rfl⟩
  exact fun _ => rfl

theorem isolated_registerTurn (now : Text) (p : OmnigentHttpProvider ν) :
    Isolated request.sessionId p (registerTurn request now p).2 := by
  obtain ⟨q,change,call,hturns,-,hregistered⟩ := registerTurn_steps request now p
  rw [hregistered]
  exact (hturns.isolated.trans (isolated_updateSession change)).trans (turnStep_onStreams call).isolated

theorem proofBooks_registerTurn (now : Text) (p : OmnigentHttpProvider ν) :
    (registerTurn request now p).2.proofBooks = p.proofBooks := by
  obtain ⟨q,change,call,hturns,-,hregistered⟩ := registerTurn_steps request now p
  rw [hregistered]
  exact (turnStep_onStreams call).proofs.trans ((proofBooks_updateSession change).trans hturns.proofs)

theorem safeStep_registerTurn (now : Text) (p : OmnigentHttpProvider ν) (hopen : p.isClosed request.sessionId ≠ true) :
    SafeStep mayClose p (registerTurn request now p).2 := by
  obtain ⟨q,change,call,hturns,hactive,hregistered⟩ := registerTurn_steps request now p
  rw [hregistered]
  refine ((hturns.session.safe).trans (safeStep_updateSession fun a ha _ => ?_)).trans (turnStep_onStreams call).session.safe
  · have ha' : a.state ≠ .closed := by
      intro hclosed
      refine hopen ?_
      rw [isClosed, ← hturns.sessions, ha]
      simpa using hclosed
    exact ⟨fun hc => by simp [hactive] at hc,fun hc => absurd hc ha',fun hc => by simp [hactive] at hc⟩

/-- The handle of a turn that is registered is a handle of the session. -/
theorem handleSession_registerTurn (now : Text) (p : OmnigentHttpProvider ν) :
    (registerTurn request now p).2.handleSession (registerTurn request now p).1.handle = some request.sessionId := by
  have hhandles : ∀ (q : OmnigentHttpProvider ν) (change : AgentSessionInfo ν → AgentSessionInfo ν) (call : _),
      ((q.updateSession request.sessionId change).onStreams request.sessionId call).handles = q.handles := by
    intro q change call
    unfold onStreams updateSession
    split <;> split <;> rfl
  unfold registerTurn
  dsimp only
  rw [handleSession, hhandles]
  simp

theorem sessionStep_rollbackSend (registered : RegisteredTurn ν) (p : OmnigentHttpProvider ν) :
    SessionStep mayClose request.sessionId p (rollbackSend request registered p) :=
  sessionStep_rollbackTurnRegistration _ _ _ _

theorem sessionStep_failSend (registered : RegisteredTurn ν) (error : ProviderError ν) (p : OmnigentHttpProvider ν) :
    SessionStep mayClose request.sessionId p (failSend request registered error p).2 := by
  unfold failSend
  dsimp only
  split_ifs
  · exact (turnStep_rejectTurnIdentities _ _).session
  · exact (turnStep_rejectTurnIdentities _ _).session.trans (sessionStep_rollbackSend registered _)
  · exact .refl p
  · exact sessionStep_rollbackSend registered p

theorem turnStep_queueTurn (turnId : Text) : TurnStep request.sessionId p (queueTurn request turnId p) := by
  refine .of_part rfl rfl fun t ht => ?_
  unfold queueTurn
  dsimp only
  split_ifs
  · simp only [KeySet.add, part, Dictionary.restrict_set_of_not, ht.key]
  · simp only [KeySet.add, part, Dictionary.restrict_set_of_not, ht.key, ht.session]

theorem turnStep_notePendingTurn (turnId : Text) : TurnStep sessionId p { p with
    nativePendingTurnKeys := p.nativePendingTurnKeys.add (sessionKey sessionId turnId) } :=
  .of_part rfl rfl fun t ht => by
    simp only [KeySet.add, part, Dictionary.restrict_set_of_not, ht.key]

theorem sessionStep_acknowledgeTurn (handle : ℕ) (item_id pending_id : Option Text) (p : OmnigentHttpProvider ν) :
    SessionStep mayClose request.sessionId p (acknowledgeTurn request handle item_id pending_id p) := by
  have hclaim : TurnStep request.sessionId p (claimItem request item_id p) := by
    unfold claimItem
    split
    · exact turnStep_claimHistoryItem _
    · exact .refl p
  have hname : ∀ p : OmnigentHttpProvider ν,
      SessionStep mayClose request.sessionId p (nameAcknowledgedTurn request handle item_id pending_id p) := by
    intro p
    unfold nameAcknowledgedTurn
    dsimp only
    split
    · split_ifs
      · exact sessionStep_replaceProvisionalTurnId _ _ _
      · exact .refl p
    · exact .refl p
  have hnote : ∀ p : OmnigentHttpProvider ν,
      TurnStep request.sessionId p (notePendingInput request handle item_id pending_id p) := by
    intro p
    unfold notePendingInput
    split
    · dsimp only
      split_ifs
      · exact (turnStep_onStreams _).trans (turnStep_notePendingTurn _)
      · exact turnStep_onStreams _
    · exact .refl p
    · split_ifs
      · exact turnStep_queueTurn _
      · exact .refl p
  exact hclaim.session.trans ((hname _).trans (hnote _).session)

/-- The promise that is new is one of the session. -/
theorem turnStep_claimSend (p : OmnigentHttpProvider ν) : TurnStep request.sessionId p (claimSend request p).2 := by
  unfold claimSend
  dsimp only
  split
  · exact .refl p
  · exact turnStep_addPromise _ _ rfl fun _ h => by cases h

theorem turnStep_forgetSend (key : Text) :
    TurnStep sessionId p { p with sends := p.sends.erase (sessionKey sessionId key) } := by
  refine ⟨fun hp => ?_,rfl,rfl⟩
  refine ⟨⟨hp.turns,fun id k hq => ?_,hp.outcomes⟩,fun t ht => ?_,keepsOthers_refl _,keepsOthers_refl _⟩
  · simp only [Dictionary.get?_erase] at hq
    split_ifs at hq
    exact hp.sends id k hq
  · simp only [part, Dictionary.restrict_erase_of_not, ht.key]

/-- The promise that a send waits for or settles is one of the session. -/
theorem promiseSession_claimSend (p : OmnigentHttpProvider ν) (hp : Owned request.sessionId p) :
    ∀ promise, ((claimSend request p).1 = .inl promise ∨ (claimSend request p).1 = .inr promise) →
      (claimSend request p).2.promiseSession promise = some request.sessionId := by
  intro promise h
  unfold claimSend at h ⊢
  dsimp only at h ⊢
  split at h
  · next existing hexisting =>
    obtain rfl : existing = promise := by simpa using h
    exact hp.sends _ _ hexisting
  · next hnone =>
    obtain rfl : p.sendPromises.length = promise := by simpa using h
    simp [promiseSession]

end Sending

section Controls
variable {handle : MutableTurnHandle}

theorem noteStep_reserve (turnId : Text) : NoteStep sessionId p { p with
    cancellationReservations := p.cancellationReservations.set sessionId turnId } :=
  ⟨isolated_of_part rfl fun t ht => by simp only [part, Dictionary.restrict_set_of_not, ht.session],rfl⟩

theorem noteStep_unreserve : NoteStep sessionId p { p with
    cancellationReservations := p.cancellationReservations.erase sessionId } :=
  ⟨isolated_of_part rfl fun t ht => by simp only [part, Dictionary.restrict_erase_of_not, ht.session],rfl⟩

theorem noteStep_releaseReservation (p : OmnigentHttpProvider ν) : NoteStep handle.sessionId p (releaseReservation handle p) :=
  ⟨isolated_of_part rfl fun t ht => by
    simp only [releaseReservation, cancelKey, part, Dictionary.restrict_erase_of_not, ht.session, ht.key],rfl⟩

theorem minding_admitCancellation (sharedState : OmnigentSessionMutationFenceState)
    (h : sharedState.closed = true → mayClose handle.sessionId) :
    Within (ν := ν) (minding mayClose handle.sessionId) (admitCancellation handle sharedState) := by
  unfold admitCancellation
  refine Within.bind (within_change fun p => ?_) fun _ => ?_
  · exact sessionStep_installSharedSessionMutationState sharedState h
  refine Within.bind (within_require _ _) fun _ => Within.bind (within_require _ _) fun _ => ?_
  exact within_check _ _

theorem minding_fenceCancellation (snapshot : OmnigentSessionSnapshot ν) :
    Within (minding mayClose handle.sessionId) (fenceCancellation handle snapshot) :=
  Within.bind (within_check _ _) fun _ => Within.bind (within_check _ _) fun _ =>
    Within.bind (within_check _ _) fun _ => within_look _

theorem minding_confirmInterrupt (ack : OmnigentEventAck) :
    Within (ν := ν) (minding mayClose handle.sessionId) (confirmInterrupt handle ack) := by
  unfold confirmInterrupt
  split
  · exact within_throw _
  · refine Within.bind (within_look _) fun observed => ?_
    refine Within.bind (within_turns fun p => ?_) fun _ => Within.bind (within_look _) fun _ => within_pure _
    exact turnStep_rejectTurns observed p

theorem sessionStep_finishCancellation (cancellationProofObserved : Bool) (now : Text) (p : OmnigentHttpProvider ν) :
    SessionStep mayClose handle.sessionId p (finishCancellation handle cancellationProofObserved now p).2 := by
  unfold finishCancellation
  dsimp only
  refine SessionStep.trans (TurnStep.session ?_) (sessionStep_changeActiveTurn _ fun _ _ => by simp)
  refine TurnStep.trans ?_ (turnStep_retireCancelledTurn _ _)
  refine TurnStep.trans (turnStep_addTurn handle.turnId { handle with state := .cancelled, updatedAt := now } rfl) ?_
  refine turnStep_addPromise _ _ rfl fun h hh => ?_
  cases hh
  simp [handleSession]

/-- The official ids of a turn whose cancellation was denied are reconciled. -/
theorem sessionStep_reconcileOfficial (observed : List Text) (now : Text) (p : OmnigentHttpProvider ν) :
    SessionStep mayClose handle.sessionId p (observed.foldl (fun p officialTurnId =>
      p.reconcileTurn handle.sessionId handle.turnId officialTurnId now) p) :=
  Allowance.foldl (R := minding mayClose handle.sessionId) (fun _ _ => sessionStep_reconcileTurn _ _ _) p observed

theorem minding_admitClose (sharedState : OmnigentSessionMutationFenceState)
    (h : sharedState.closed = true → mayClose sessionId) :
    Within (ν := ν) (minding mayClose sessionId) (admitClose sessionId sharedState) :=
  Within.bind (within_change fun _ => sessionStep_installSharedSessionMutationState sharedState h) fun _ =>
    within_require _ _

theorem minding_refreshInfo (snapshot : OmnigentSessionSnapshot ν) :
    Within (minding mayClose sessionId) (refreshInfo sessionId snapshot) := by
  intro p
  unfold refreshInfo
  split
  · exact .refl p
  · next existing hexisting =>
    exact sessionStep_setSession hexisting fun _ => safeChange_resolveSessionInfo _ _ _

end Controls

section Stream
variable {stream : ℕ}

theorem turnStep_addOpenStream (p : OmnigentHttpProvider ν) : TurnStep sessionId p (addOpenStream sessionId p).2 :=
  .of_part rfl rfl fun t ht => by
    simp only [addOpenStream, part, Dictionary.restrict_set_of_not, ht.session]

theorem turnStep_removeOpenStream (p : OmnigentHttpProvider ν) :
    TurnStep sessionId p (removeOpenStream sessionId stream p) := by
  unfold removeOpenStream
  split
  · refine .of_part rfl rfl fun t ht => ?_
    dsimp only
    split_ifs
    · simp only [part, Dictionary.restrict_erase_of_not, ht.session]
    · simp only [part, Dictionary.restrict_set_of_not, ht.session]
  · exact .refl p

/-- Calls of the stream's normalizer, in a loop. -/
theorem turnStep_callStream {α : Type} (calls : α → OmnigentSseNormalizer → OmnigentSseNormalizer) (l : List α)
    (p : OmnigentHttpProvider ν) : TurnStep sessionId p (l.foldl (fun p a => p.onStream sessionId stream (calls a)) p) :=
  Allowance.foldl (R := turning sessionId) (fun _ _ => turnStep_onStream _ _) p l

theorem turnStep_prepareStream (p : OmnigentHttpProvider ν) :
    TurnStep sessionId p (prepareStream sessionId stream p).2 :=
  (turnStep_callStream _ _ p).trans (turnStep_callStream _ _ _)

variable [JsNumber ν]

theorem minding_openHistory (isDatetime : Text → Bool) (afterSequence : Option ℕ)
    (prepared : Option Text × List Text) (snapshot : OmnigentSessionSnapshot ν) (items : List (OmnigentConversationItem ν)) :
    Within (minding mayClose sessionId) (openHistory sessionId isDatetime stream afterSequence prepared snapshot items) := by
  have hresponse : ∀ p : OmnigentHttpProvider ν,
      TurnStep sessionId p (setActiveResponse sessionId stream snapshot prepared.1 prepared.2 p) := by
    intro p
    refine TurnStep.trans ?_ (turnStep_onStream _ _)
    split
    · split_ifs
      · exact turnStep_onStream _ _
      · exact .refl p
    · exact .refl p
  unfold openHistory
  refine Within.bind (minding_reconcileTurnsFromHistory items) fun _ => ?_
  refine Within.bind (minding_reconcilePendingTurnsFromSnapshot snapshot items) fun _ => ?_
  refine Within.bind (within_turns fun p => ?_) fun _ => ?_
  · exact TurnStep.trans (turnStep_callStream _ _ p) (hresponse _)
  refine Within.bind (minding_mapHistory isDatetime snapshot items) fun mapped => ?_
  exact Within.bind (within_take fun p => (turnStep_resequence _ _).session) fun _ => within_pure _

theorem minding_normalizeFrame (tagged : OmnigentTaggedSseEvent ν) (now : Text) :
    Within (minding mayClose sessionId) (normalizeFrame sessionId stream tagged now) := by
  unfold normalizeFrame
  refine Within.bind (within_look _) fun normalizer => ?_
  split
  · exact within_pure _
  · exact Within.bind (within_turns fun p => turnStep_onStream _ _) fun _ =>
      Within.bind (within_ofOption _) fun _ => within_pure _

omit [JsNumber ν] in
theorem sessionStep_applyToSession (event : OmnigentRawEvent ν) (events : List (RuntimeEventEnvelope ν))
    (p : OmnigentHttpProvider ν) : SessionStep mayClose sessionId p (applyToSession sessionId event events p) := by
  have hnoted : TurnStep sessionId p (noteStartedTurn sessionId event p) := by
    unfold noteStartedTurn
    split
    · split_ifs
      · exact turnStep_setLatestTurn _
      · exact .refl p
    · exact .refl p
  have hended : ∀ p, TurnStep sessionId p (endCandidate sessionId event p) := by
    intro p
    unfold endCandidate
    split
    · dsimp only
      split_ifs
      · exact turnStep_failProvisionalTurnCandidate _ _
      · exact (turnStep_failProvisionalTurnCandidate _ _).trans (turnStep_retireProvisionalTurnCandidate _)
      · exact .refl p
      · exact turnStep_retireProvisionalTurnCandidate _
    · exact .refl p
  unfold applyToSession
  dsimp only
  refine hnoted.session.trans ?_
  split_ifs
  · refine (hended _).session.trans ?_
    unfold endActiveTurn
    split_ifs
    · exact sessionStep_failActiveTurn _ _ _
    · exact sessionStep_clearActiveTurn _ _
  · exact (hended _).session
  · split
    · exact sessionStep_setActiveTurn _ _
    · exact .refl _

omit [JsNumber ν] in
theorem sessionStep_applyEvent (event : OmnigentRawEvent ν) (events : List (RuntimeEventEnvelope ν))
    (p : OmnigentHttpProvider ν) : SessionStep mayClose sessionId p (applyEvent sessionId event events p) := by
  have hreconciled : SessionStep mayClose sessionId p (reconcileEvent sessionId event p) := by
    unfold reconcileEvent
    split
    · split_ifs
      · exact sessionStep_reconcileTurn _ _ _
      · exact .refl p
    · exact .refl p
  unfold applyEvent
  dsimp only
  refine hreconciled.trans ?_
  split_ifs
  · exact sessionStep_applyToSession event events _
  · exact .refl _

theorem minding_mapLiveEvent (isDatetime : Text → Bool) (afterSequence : Option ℕ) (mapper : OmnigentEventMapper)
    (event : OmnigentRawEvent ν) :
    Within (minding mayClose sessionId) (mapLiveEvent sessionId isDatetime afterSequence mapper event) := by
  unfold mapLiveEvent
  refine Within.bind (within_look _) fun rejected => ?_
  split_ifs
  · exact within_pure _
  · refine Within.bind (within_ofOption _) fun mappedEvents => ?_
    refine Within.bind (within_take fun p => (turnStep_resequence _ _).session) fun resequenced => ?_
    exact Within.bind (within_change (sessionStep_applyEvent event _)) fun _ => within_pure _

end Stream
end OmniagentPlus.OmnigentTransport
