import OmniagentPlus.OmnigentTransport.SessionSteps

/-! Everything that the provider does to the books of a session leaves those of the others alone, and the notes on
cancellations under way; and a session that is closed stays closed. -/
namespace OmniagentPlus.OmnigentTransport
open OmniagentPlus.Foundation OmniagentPlus.CoreContracts
variable {ν : Type}

/-- A book without some of the entries of a session. -/
theorem Apart.restrict_without {β : Type} {s t : Text} (h : Apart s t) (d : Dictionary Text β) (c : Text → β → Bool) :
    (d.filterEntries (fun key v => !(hasKeyPrefix s key && c key v))).restrict (hasKeyPrefix t) =
      d.restrict (hasKeyPrefix t) :=
  Dictionary.restrict_filterEntries d fun key v hkey => by rw [h.disjoint hkey]; rfl

namespace OmnigentHttpProvider
variable {p : OmnigentHttpProvider ν} {s : Text}

section Streams

theorem turnStep_setStreams (streams : Dictionary ℕ OmnigentSseNormalizer) :
    TurnStep s p { p with openStreams := p.openStreams.set s streams } :=
  .of_part rfl rfl fun t ht => by
    simp only [part, Dictionary.restrict_set_of_not, ht.session]

theorem turnStep_onStreams (call : OmnigentSseNormalizer → OmnigentSseNormalizer) : TurnStep s p (p.onStreams s call) := by
  unfold onStreams
  split
  · exact turnStep_setStreams _
  · exact .refl p

theorem turnStep_onStream (stream : ℕ) (call : OmnigentSseNormalizer → OmnigentSseNormalizer) :
    TurnStep s p (p.onStream s stream call) := by
  unfold onStream
  dsimp only
  split
  · exact turnStep_setStreams _
  · exact .refl p

theorem turnStep_onGivenStream (stream : Option ℕ) (call : OmnigentSseNormalizer → OmnigentSseNormalizer) :
    TurnStep s p (p.onGivenStream s stream call) := by
  cases stream with
  | none => exact .refl p
  | some stream => exact turnStep_onStream stream call

end Streams

section Turns

theorem turnStep_forgetAliasesOf (turnId : Text) : TurnStep s p (p.forgetAliasesOf s turnId) :=
  .of_part rfl rfl fun t ht => by
    simp only [forgetAliasesOf, part, ht.restrict_without]

theorem turnStep_forgetAlias (turnId : Text) :
    TurnStep s p { p with provisionalTurnAliases := p.provisionalTurnAliases.erase (sessionKey s turnId) } :=
  .of_part rfl rfl fun t ht => by
    simp only [part, Dictionary.restrict_erase_of_not, ht.key]

theorem turnStep_forgetPendingTurn (turnId : Text) : TurnStep s p (p.forgetPendingTurn s turnId) :=
  .of_part rfl rfl fun t ht => by
    simp only [forgetPendingTurn, part, Dictionary.restrict_erase_of_not, ht.key]

theorem turnStep_rejectTurnKey (turnId : Text) : TurnStep s p (p.rejectTurnKey s turnId) :=
  .of_part rfl rfl fun t ht => by
    simp only [rejectTurnKey, KeySet.add, part, Dictionary.restrict_set_of_not, ht.key]

/-- Turn ids are rejected in the book and at the streams. -/
theorem turnStep_rejectTurns (turnIds : List Text) (p : OmnigentHttpProvider ν) :
    TurnStep s p (turnIds.foldl (fun p turnId => (p.rejectTurnKey s turnId).onStreams s
      fun stream => stream.rejectTurnId turnId) p) :=
  Allowance.foldl (R := turning s) (fun _ turnId => (turnStep_rejectTurnKey turnId).trans (turnStep_onStreams _)) p turnIds

theorem turnStep_setOrder (order : List Text) :
    TurnStep s p { p with provisionalTurnOrder := p.provisionalTurnOrder.set s order } :=
  .of_part rfl rfl fun t ht => by
    simp only [part, Dictionary.restrict_set_of_not, ht.session]

theorem turnStep_retainOrder (order : List Text) :
    TurnStep s p { p with provisionalTurnOrder := if order.isEmpty then p.provisionalTurnOrder.erase s
      else p.provisionalTurnOrder.set s order } := by
  refine .of_part rfl rfl fun t ht => ?_
  split_ifs
  · simp only [part, Dictionary.restrict_erase_of_not, ht.session]
  · simp only [part, Dictionary.restrict_set_of_not, ht.session]

theorem turnStep_removeProvisionalTurn (turnId : Text) : TurnStep s p (p.removeProvisionalTurn s turnId) := by
  unfold removeProvisionalTurn
  split
  · split_ifs
    · exact turnStep_retainOrder _
    · exact .refl p
  · exact .refl p

theorem turnStep_setLatestTurn (turnId : Text) : TurnStep s p { p with latestTurnIds := p.latestTurnIds.set s turnId } :=
  .of_part rfl rfl fun t ht => by
    simp only [part, Dictionary.restrict_set_of_not, ht.session]

theorem turnStep_forgetLatestTurn : TurnStep s p { p with latestTurnIds := p.latestTurnIds.erase s } :=
  .of_part rfl rfl fun t ht => by
    simp only [part, Dictionary.restrict_erase_of_not, ht.session]

/-- The latest turn of the session, where it is the one, is forgotten. -/
theorem turnStep_dropLatestTurn (turnId : Text) :
    TurnStep s p (if p.latestTurnIds.get? s = some turnId then { p with latestTurnIds := p.latestTurnIds.erase s }
      else p) := by
  split_ifs
  · exact turnStep_forgetLatestTurn
  · exact .refl p

theorem turnStep_renameLatestTurn (turnId nextTurnId : Text) : TurnStep s p (p.renameLatestTurn s turnId nextTurnId) := by
  unfold renameLatestTurn
  split_ifs
  · exact turnStep_setLatestTurn nextTurnId
  · exact .refl p

theorem turnStep_setProvisionalOrder (order : Option (List Text)) : TurnStep s p (p.setProvisionalOrder s order) := by
  cases order with
  | none => exact .refl p
  | some order => exact turnStep_setOrder order

/-- A handle of the session changes. -/
theorem turnStep_changeHandle {handle : ℕ} {change : MutableTurnHandle → MutableTurnHandle}
    (hs : Owned s p → p.handleSession handle = some s) (hchange : ∀ h, (change h).sessionId = h.sessionId) :
    TurnStep s p (p.changeHandle handle change) := by
  refine ⟨fun hp => ?_,rfl,rfl⟩
  have hkeeps : KeepsOthers MutableTurnHandle.sessionId s p.handles (p.changeHandle handle change).handles := by
    refine keepsOthers_modify (fun h hh => ?_) hchange
    have hs := hs hp
    rw [handleSession, hh] at hs
    exact Option.some.inj hs
  refine ⟨⟨fun id h hq => ?_,hp.sends,fun k h hk ho => ?_⟩,fun _ _ => rfl,hkeeps,keepsOthers_refl _⟩
  · exact hkeeps.handleSession (hp.turns id h hq)
  · exact hkeeps.handleSession (hp.outcomes k h hk ho)

/-- A turn of the session gets a handle of it. -/
theorem turnStep_setTurn {handle : ℕ} (turnId : Text) (hs : Owned s p → p.handleSession handle = some s) :
    TurnStep s p { p with turns := p.turns.set (sessionKey s turnId) handle } := by
  refine ⟨fun hp => ?_,rfl,rfl⟩
  refine ⟨⟨fun id h hq => ?_,hp.sends,hp.outcomes⟩,fun t ht => ?_,keepsOthers_refl _,keepsOthers_refl _⟩
  · simp only [Dictionary.get?_set] at hq
    split_ifs at hq
    · cases hq
      exact hs hp
    · exact hp.turns id h hq
  · simp only [part, Dictionary.restrict_set_of_not, ht.key]

theorem turnStep_forgetTurn (turnId : Text) : TurnStep s p (p.forgetTurn s turnId) := by
  refine ⟨fun hp => ?_,rfl,rfl⟩
  refine ⟨⟨fun id h hq => ?_,hp.sends,hp.outcomes⟩,fun t ht => ?_,keepsOthers_refl _,keepsOthers_refl _⟩
  · simp only [forgetTurn, Dictionary.get?_erase] at hq
    split_ifs at hq
    exact hp.turns id h hq
  · simp only [forgetTurn, part, Dictionary.restrict_erase_of_not, ht.key]

theorem turnStep_moveHandle (turnId nextTurnId : Text) {change : MutableTurnHandle → MutableTurnHandle}
    (hchange : ∀ h, (change h).sessionId = h.sessionId) : TurnStep s p (p.moveHandle s turnId nextTurnId change) := by
  unfold moveHandle
  split
  case h_2 => exact .refl p
  case h_1 handle hhandle =>
    -- the handle that is moved is found under the session's key, so it is one of the session
    refine ⟨fun hp => ?_,rfl,rfl⟩
    have hs : p.handleSession handle = some s := hp.turns turnId handle hhandle
    have hmoved := (turnStep_forgetTurn turnId).trans (turnStep_setTurn (p := p.forgetTurn s turnId) nextTurnId fun _ => hs)
    exact (hmoved.trans (turnStep_changeHandle (fun _ => hs) hchange)).isolated hp

theorem turnStep_retireProvisionalTurnCandidate (turnId : Text) : TurnStep s p (p.retireProvisionalTurnCandidate s turnId) := by
  unfold retireProvisionalTurnCandidate
  split_ifs
  · exact turnStep_removeProvisionalTurn turnId
  · exact .refl p

theorem turnStep_failProvisionalTurnCandidate (turnId updatedAt : Text) :
    TurnStep s p (p.failProvisionalTurnCandidate s turnId updatedAt).2 := by
  unfold failProvisionalTurnCandidate
  dsimp only
  split_ifs
  · have hforgotten : TurnStep s p ((p.retireProvisionalTurnCandidate s turnId).forgetPendingTurn s turnId) :=
      (turnStep_retireProvisionalTurnCandidate turnId).trans (turnStep_forgetPendingTurn turnId)
    split
    · next handle hhandle =>
      exact hforgotten.trans (turnStep_changeHandle (fun hq => hq.turns turnId handle hhandle) fun _ => rfl)
    · exact hforgotten
  · exact .refl p

theorem turnStep_withoutProvisionalTurns (turnIds : List Text) : TurnStep s p (p.withoutProvisionalTurns s turnIds) := by
  unfold withoutProvisionalTurns
  split
  · exact turnStep_retainOrder _
  · exact .refl p

theorem turnStep_noteOfficialTurn (turnId : Text) :
    TurnStep s p { p with officialResponseTurnKeys := p.officialResponseTurnKeys.add (sessionKey s turnId) } :=
  .of_part rfl rfl fun t ht => by
    simp only [KeySet.add, part, Dictionary.restrict_set_of_not, ht.key]

theorem turnStep_rejectTurnIdentities (turnId currentTurnId : Text) :
    TurnStep s p (p.rejectTurnIdentities s turnId currentTurnId) := turnStep_rejectTurns _ p

theorem turnStep_unregisterTurns (turnId currentTurnId : Text) : TurnStep s p (p.unregisterTurns s turnId currentTurnId) := by
  unfold unregisterTurns
  refine TurnStep.trans ?_ (turnStep_withoutProvisionalTurns _)
  refine TurnStep.trans ?_ (turnStep_forgetAliasesOf _)
  refine TurnStep.trans ?_ (turnStep_forgetAlias turnId)
  exact Allowance.foldl (R := turning s)
    (fun _ turnId => (turnStep_forgetTurn turnId).trans (turnStep_forgetPendingTurn turnId)) p _

theorem turnStep_retainLatestTurn (turnId currentTurnId : Text) (previousLatestTurnId : Option Text) :
    TurnStep s p (p.retainLatestTurn s turnId currentTurnId previousLatestTurnId) := by
  unfold retainLatestTurn
  dsimp only
  split_ifs
  · split
    · exact turnStep_setLatestTurn _
    · exact turnStep_forgetLatestTurn
  · exact .refl p

theorem turnStep_retireCancelledTurn (turnId : Text) (cancellationProofObserved : Bool) :
    TurnStep s p (p.retireCancelledTurn s turnId cancellationProofObserved) := by
  have hfenced : ∀ p : OmnigentHttpProvider ν, ∀ known : Bool, TurnStep s p { p with
      cancelledTurnQuarantineKeys := p.cancelledTurnQuarantineKeys.add (sessionKey s turnId)
      cancelledTurnAwaitingIdentityKeys := if known then p.cancelledTurnAwaitingIdentityKeys
        else p.cancelledTurnAwaitingIdentityKeys.add (sessionKey s turnId) } := by
    intro p known
    refine .of_part rfl rfl fun t ht => ?_
    cases known <;>
    simp only [KeySet.add, part, Dictionary.restrict_set_of_not, ht.key, if_true, Bool.false_eq_true, if_false]
  have hunaliased : ∀ p : OmnigentHttpProvider ν, TurnStep s p { p with
      provisionalTurnAliases := p.provisionalTurnAliases.erase (sessionKey s turnId)
      pendingItemTurnIds := p.pendingItemTurnIds.filterEntries
        (fun itemKey pendingTurnId => !(hasKeyPrefix s itemKey && decide (pendingTurnId = turnId))) } := by
    intro p
    refine .of_part rfl rfl fun t ht => ?_
    simp only [part, Dictionary.restrict_erase_of_not, ht.key, ht.restrict_without]
  have hretired : TurnStep s p ((p.retireProvisionalTurnCandidate s turnId).forgetPendingTurn s turnId) :=
    (turnStep_retireProvisionalTurnCandidate turnId).trans (turnStep_forgetPendingTurn turnId)
  unfold retireCancelledTurn
  dsimp only
  refine TurnStep.trans ?_ (turnStep_onStreams _)
  refine TurnStep.trans ?_ (turnStep_dropLatestTurn turnId)
  refine TurnStep.trans ?_ (turnStep_forgetAliasesOf turnId)
  refine TurnStep.trans ?_ (hunaliased _)
  refine TurnStep.trans ?_ (turnStep_rejectTurnKey turnId)
  cases cancellationProofObserved with
  | true => exact hretired
  | false => exact hretired.trans (hfenced _ _)

end Turns

section Sessions
variable {mayClose : Text → Prop}

theorem isolated_setSession (info : AgentSessionInfo ν) : Isolated s p (p.setSession s info) :=
  isolated_of_part rfl fun t ht => by
    simp only [setSession, part, Dictionary.restrict_set_of_not, ht.session]

theorem isolated_updateSession (change : AgentSessionInfo ν → AgentSessionInfo ν) :
    Isolated s p (p.updateSession s change) := by
  unfold updateSession
  split
  · exact isolated_setSession _
  · exact isolated_refl p

theorem proofBooks_updateSession (change : AgentSessionInfo ν → AgentSessionInfo ν) :
    (p.updateSession s change).proofBooks = p.proofBooks := by
  unfold updateSession
  split <;> rfl

/-- A tracked session gets another info. -/
theorem sessionStep_setSession {a info : AgentSessionInfo ν} (ha : p.sessions.get? s = some a)
    (h : (a.state = .closed → a.activeTurnId = none) → SafeChange (mayClose s) a info) :
    SessionStep mayClose s p (p.setSession s info) := ⟨isolated_setSession info,safeStep_setSession ha h,rfl⟩

/-- One session changes. -/
theorem sessionStep_updateSession {change : AgentSessionInfo ν → AgentSessionInfo ν}
    (h : ∀ a, p.sessions.get? s = some a → (a.state = .closed → a.activeTurnId = none) →
      SafeChange (mayClose s) a (change a)) : SessionStep mayClose s p (p.updateSession s change) :=
  ⟨isolated_updateSession change,safeStep_updateSession h,proofBooks_updateSession change⟩

/-- A session that has an active turn is not closed, and takes a change that does not close it. -/
theorem sessionStep_changeActiveTurn (turnId : Text) {change : AgentSessionInfo ν → AgentSessionInfo ν}
    (h : ∀ a, a.state ≠ .closed → (change a).state ≠ .closed) :
    SessionStep mayClose s p (p.changeActiveTurn s turnId change) := by
  unfold changeActiveTurn
  split_ifs with hactive
  · refine sessionStep_updateSession fun a ha htidy => ?_
    have hopen : a.state ≠ .closed := by
      intro hclosed
      rw [activeTurnId, ha, Option.bind_some, htidy hclosed] at hactive
      cases hactive
    exact ⟨fun hc => absurd hc (h a hopen),fun hc => absurd hc hopen,fun hc => absurd hc (h a hopen)⟩
  · exact .refl p

theorem sessionStep_replaceProvisionalTurnId (turnId nextTurnId : Text) (restoreOrder : Bool) :
    SessionStep mayClose s p (p.replaceProvisionalTurnId s turnId nextTurnId restoreOrder) := by
  have hrenamed : ∀ p : OmnigentHttpProvider ν, TurnStep s p { p with
      provisionalTurnKeys := KeySet.add (p.provisionalTurnKeys.erase (sessionKey s turnId)) (sessionKey s nextTurnId)
      provisionalTurnAliases := p.provisionalTurnAliases.set (sessionKey s turnId) nextTurnId } := by
    intro p
    refine .of_part rfl rfl fun t ht => ?_
    simp only [KeySet.add, part, Dictionary.restrict_set_of_not, Dictionary.restrict_erase_of_not, ht.key]
  unfold replaceProvisionalTurnId
  dsimp only
  split_ifs
  · refine SessionStep.trans ?_ (turnStep_onStreams _).session
    refine SessionStep.trans (TurnStep.session ?_) (sessionStep_changeActiveTurn turnId fun _ ha => ha)
    refine TurnStep.trans ?_ (turnStep_renameLatestTurn turnId nextTurnId)
    refine TurnStep.trans ?_ (turnStep_setProvisionalOrder _)
    refine TurnStep.trans ?_ (hrenamed _)
    exact turnStep_moveHandle turnId nextTurnId fun _ => rfl
  · exact .refl p

theorem sessionStep_reconcileTurn (turnId officialTurnId updatedAt : Text) :
    SessionStep mayClose s p (p.reconcileTurn s turnId officialTurnId updatedAt) := by
  unfold reconcileTurn
  dsimp only
  split
  · refine TurnStep.session (.of_part rfl rfl fun t ht => ?_)
    simp only [KeySet.add, part, Dictionary.restrict_set_of_not, ht.key]
  split
  · exact (turnStep_noteOfficialTurn officialTurnId).session
  · refine SessionStep.trans (TurnStep.session ?_) (sessionStep_changeActiveTurn _ fun _ ha => ha)
    refine TurnStep.trans ?_ (turnStep_renameLatestTurn _ officialTurnId)
    refine TurnStep.trans ?_ (turnStep_removeProvisionalTurn _)
    refine TurnStep.trans ?_ (turnStep_forgetAliasesOf _)
    refine TurnStep.trans ?_ (turnStep_forgetAlias turnId)
    refine TurnStep.trans ((turnStep_noteOfficialTurn officialTurnId).trans ?_) (turnStep_forgetPendingTurn _)
    exact turnStep_moveHandle _ officialTurnId fun _ => rfl

/-- The info that is put back is not closed, and the one that it takes the place of has an active turn. -/
theorem sessionStep_restoreSession (turnId currentTurnId : Text) (previousSession : Option (AgentSessionInfo ν)) :
    SessionStep mayClose s p (p.restoreSession s turnId currentTurnId previousSession) := by
  unfold restoreSession
  dsimp only
  split
  case h_2 => exact .refl p
  case h_1 previous =>
    split_ifs with hactive
    · have hsome : (p.activeTurnId s).isSome = true := by
        obtain h | h := hactive <;> rw [h] <;> rfl
      cases ha : p.sessions.get? s with
      | none => simp [activeTurnId, ha] at hsome
      | some a =>
        have hopen : (p.restoredSession s previous).state ≠ .closed := by
          unfold restoredSession
          dsimp only
          split_ifs <;> exact fun h => by cases h
        refine sessionStep_setSession ha fun htidy => ?_
        have ha' : a.state ≠ .closed := by
          intro hclosed
          simp [activeTurnId, ha, htidy hclosed] at hsome
        exact ⟨fun hc => absurd hc hopen,fun hc => absurd hc ha',fun hc => absurd hc hopen⟩
    · exact .refl p

theorem sessionStep_rollbackTurnRegistration (turnId currentTurnId : Text) (previousLatestTurnId : Option Text)
    (previousSession : Option (AgentSessionInfo ν)) : SessionStep mayClose s p
      (p.rollbackTurnRegistration s turnId currentTurnId previousLatestTurnId previousSession) := by
  refine SessionStep.trans ?_ (turnStep_onStreams _).session
  refine SessionStep.trans (TurnStep.session ?_) (sessionStep_restoreSession turnId currentTurnId previousSession)
  exact (turnStep_unregisterTurns turnId currentTurnId).trans (turnStep_retainLatestTurn _ _ _)

end Sessions

section Snapshots
variable {mayClose : Text → Prop}

theorem turnStep_forgetFailure : TurnStep s p { p with latestFailureTurnIds := p.latestFailureTurnIds.erase s } :=
  .of_part rfl rfl fun t ht => by
    simp only [part, Dictionary.restrict_erase_of_not, ht.session]

theorem turnStep_noteFailure (turnId : Text) :
    TurnStep s p { p with latestFailureTurnIds := p.latestFailureTurnIds.set s turnId } :=
  .of_part rfl rfl fun t ht => by
    simp only [part, Dictionary.restrict_set_of_not, ht.session]

theorem sessionStep_updateOpenSession {change : AgentSessionInfo ν → AgentSessionInfo ν}
    (h : ∀ a, a.state ≠ .closed → (change a).state ≠ .closed) :
    SessionStep mayClose s p (p.updateOpenSession s change) := by
  refine sessionStep_updateSession fun a _ htidy => ?_
  split_ifs with hclosed
  · exact ⟨htidy,id,Or.inl⟩
  · exact ⟨fun hc => absurd hc (h a hclosed),fun hc => absurd hc hclosed,fun hc => absurd hc (h a hclosed)⟩

theorem sessionStep_setActiveTurn (turnId updatedAt : Text) : SessionStep mayClose s p (p.setActiveTurn s turnId updatedAt) :=
  (turnStep_setLatestTurn turnId).session.trans (sessionStep_updateOpenSession fun _ _ => by simp)

theorem sessionStep_clearActiveTurn (updatedAt : Text) (turnId : Option Text) :
    SessionStep mayClose s p (p.clearActiveTurn s updatedAt turnId) := by
  unfold clearActiveTurn
  refine SessionStep.trans (TurnStep.session ?_) (sessionStep_updateOpenSession fun a _ => ?_)
  · split_ifs
    · exact turnStep_forgetFailure
    · exact .refl p
  · cases turnId.isSome && decide (p.latestFailureTurnIds.get? s = turnId) <;> simp

theorem sessionStep_failActiveTurn (updatedAt : Text) (lastError : Option (RuntimeFailure ν)) (turnId : Option Text) :
    SessionStep mayClose s p (p.failActiveTurn s updatedAt lastError turnId) := by
  unfold failActiveTurn
  refine SessionStep.trans (TurnStep.session ?_) (sessionStep_updateOpenSession fun _ _ => by simp)
  cases turnId with
  | none => exact .refl p
  | some turnId =>
    dsimp only
    split_ifs
    · exact turnStep_noteFailure turnId
    · exact .refl p

/-- A snapshot leaves a closed session closed, and closes none. -/
theorem safeChange_resolveSessionInfo {mayClose : Prop} (a : AgentSessionInfo ν) (snapshot : OmnigentSessionSnapshot ν)
    (preserveActiveIdentity : Bool) : SafeChange mayClose a (resolveSessionInfo a snapshot preserveActiveIdentity) := by
  have hnext : a.state ≠ .closed → (toSessionInfo snapshot (some a)).state ≠ .closed := by
    intro hopen
    simp only [toSessionInfo, Option.map_some]
    split_ifs
    · exact hopen
    · cases snapshot.status <;> simp [mapSessionState]
  unfold resolveSessionInfo
  dsimp only
  split_ifs with hclosed
  · exact ⟨fun _ => rfl,fun _ => rfl,fun _ => Or.inl hclosed⟩
  · exact ⟨fun hc => absurd hc hclosed,fun hc => absurd hc hclosed,fun hc => absurd hc hclosed⟩
  · exact ⟨fun hc => absurd hc (hnext hclosed),fun hc => absurd hc hclosed,fun hc => absurd hc (hnext hclosed)⟩

theorem sessionStep_refreshTrackedSession (snapshot : OmnigentSessionSnapshot ν) (preserveActiveIdentity : Bool) :
    SessionStep mayClose s p (p.refreshTrackedSession s snapshot preserveActiveIdentity) :=
  sessionStep_updateSession fun a _ _ => safeChange_resolveSessionInfo a snapshot preserveActiveIdentity

/-- The end of a turn makes a session that is open idle or failed. -/
theorem sessionStep_applyLifecycle (event : RuntimeEventEnvelope ν) (hopen : p.isClosed s ≠ true) :
    SessionStep mayClose s p (p.applyLifecycle s event) := by
  have hidle : SessionStep mayClose s p (if (p.sessions.get? s).isSome = true then
      { p with latestFailureTurnIds := p.latestFailureTurnIds.erase s }.updateSession s (fun session =>
        { session with activeTurnId := none, lastError := none, state := .idle, updatedAt := event.occurredAt })
      else p) := by
    split_ifs
    · refine turnStep_forgetFailure.session.trans (sessionStep_updateSession fun a ha _ => ?_)
      have ha' : a.state ≠ .closed := by
        intro hclosed
        refine hopen ?_
        rw [isClosed, show p.sessions.get? s = some a from ha]
        simpa using hclosed
      exact ⟨fun _ => rfl,fun hc => absurd hc ha',(by simp)⟩
    · exact .refl p
  unfold applyLifecycle
  split
  · exact sessionStep_failActiveTurn _ _ _
  · exact hidle
  · exact hidle
  · exact .refl p

theorem sessionStep_applyMappedHistoryState (events : List (RuntimeEventEnvelope ν)) :
    SessionStep mayClose s p (p.applyMappedHistoryState s events) := by
  unfold applyMappedHistoryState
  split_ifs with hclosed
  · exact .refl p
  split
  · exact .refl p
  split_ifs
  · exact .refl p
  · exact .refl p
  · exact sessionStep_applyLifecycle _ hclosed

end Snapshots

section Fences
variable {mayClose : Text → Prop}

theorem turnStep_bindOfficialTurns (cancellation : Option OmnigentCancellationFence) :
    TurnStep s p (p.bindOfficialTurns s cancellation) := by
  cases cancellation with
  | none => exact .refl p
  | some fence => exact turnStep_onStreams _

theorem turnStep_keepQuarantineOf (cancellation : Option OmnigentCancellationFence) :
    TurnStep s p (p.keepQuarantineOf s cancellation) :=
  .of_part rfl rfl fun t ht => by
    simp only [keepQuarantineOf, part, Bool.and_assoc, ht.restrict_without]

theorem turnStep_rejectSharedTurns (state : OmnigentSessionMutationFenceState) :
    TurnStep s p (p.rejectSharedTurns s state) := by
  refine Allowance.foldl (R := turning s) (fun p turnId => ?_) p _
  change TurnStep s p _
  dsimp only
  split_ifs
  · exact turnStep_rejectTurnKey turnId
  · exact (turnStep_rejectTurnKey turnId).trans (turnStep_onStreams _)

theorem sessionStep_closeTracked {closed : Bool} (h : closed = true → mayClose s) :
    SessionStep mayClose s p (p.closeTracked s closed) := by
  unfold closeTracked
  split_ifs with hclosed
  · exact sessionStep_updateSession fun a _ _ => ⟨fun _ => rfl,fun _ => rfl,fun _ => Or.inr (h hclosed)⟩
  · exact .refl p

theorem turnStep_quarantineShared (cancellation : Option OmnigentCancellationFence) :
    TurnStep s p (p.quarantineShared s cancellation) := by
  cases cancellation with
  | none => exact .refl p
  | some fence =>
    refine TurnStep.trans (.of_part ?_ ?_ fun t ht => ?_) (turnStep_onStreams _)
    · rfl
    · rfl
    · cases fence.awaitingIdentity <;>
      simp only [KeySet.add, part, Dictionary.restrict_set_of_not, ht.key, if_true, Bool.false_eq_true, if_false]

/-- The shared fence may close the session that it is the fence of. -/
theorem sessionStep_installSharedSessionMutationState (state : OmnigentSessionMutationFenceState)
    (h : state.closed = true → mayClose s) : SessionStep mayClose s p (p.installSharedSessionMutationState s state) := by
  refine SessionStep.trans ?_ (turnStep_quarantineShared _).session
  refine SessionStep.trans (TurnStep.session ?_) (sessionStep_closeTracked h)
  exact ((turnStep_bindOfficialTurns _).trans (turnStep_keepQuarantineOf _)).trans (turnStep_rejectSharedTurns _)

end Fences

section Cancellation

theorem noteStep_noteEarlyProof (event : OmnigentRawEvent ν) : NoteStep s p (p.noteEarlyProof s event) := by
  unfold noteEarlyProof
  split
  · split_ifs
    · refine ⟨isolated_of_part rfl fun t ht => ?_,rfl⟩
      simp only [KeySet.add, part, Dictionary.restrict_set_of_not, ht.key]
    · exact (TurnStep.refl p).note
  · exact (TurnStep.refl p).note

theorem turnStep_endQuarantine (event : OmnigentRawEvent ν) (turnId : Text) (confirmedOfficialIdentity : Bool) :
    TurnStep s p (p.endQuarantine s event turnId confirmedOfficialIdentity) := by
  have hlifted : ∀ q, TurnStep s p q → TurnStep s p ({ q with
      cancelledTurnAwaitingIdentityKeys := q.cancelledTurnAwaitingIdentityKeys.erase (sessionKey s turnId)
      cancelledTurnQuarantineKeys := q.cancelledTurnQuarantineKeys.erase (sessionKey s turnId)
      }.onStreams s (fun stream => stream.removeFallbackTurnId turnId)) := by
    intro q hq
    refine hq.trans (TurnStep.trans ?_ (turnStep_onStreams _))
    refine .of_part rfl rfl fun t ht => ?_
    simp only [part, Dictionary.restrict_erase_of_not, ht.key]
  have hrejected : ∀ (q : OmnigentHttpProvider ν) (rejected : Text), TurnStep s q
      ((q.rejectTurnKey s rejected).onStreams s (fun stream => stream.rejectTurnId rejected)) :=
    fun q rejected => (turnStep_rejectTurnKey _).trans (turnStep_onStreams _)
  have hkept := hlifted p (.refl p)
  unfold endQuarantine
  cases confirmedOfficialIdentity <;> cases Text.truthy event.turnId <;> dsimp only
  · exact hkept
  · exact hkept.trans (hrejected _ _)
  · exact hkept
  · exact (hlifted _ (turnStep_noteOfficialTurn _)).trans (hrejected _ _)

theorem noteStep_consumeCancelledTurnQuarantine (event : OmnigentRawEvent ν) :
    NoteStep s p (p.consumeCancelledTurnQuarantine s event).2 := by
  have hnoted := noteStep_noteEarlyProof (s := s) (p := p) event
  unfold consumeCancelledTurnQuarantine
  dsimp only
  split
  · exact hnoted
  · split_ifs
    · exact hnoted
    · exact hnoted.trans (turnStep_endQuarantine _ _ _).note

end Cancellation
end OmnigentHttpProvider
end OmniagentPlus.OmnigentTransport
