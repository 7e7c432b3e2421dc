import OmniagentPlus.OmnigentTransport.ProviderState

/-! The books of `OmnigentHttpProvider` on turns: how a turn that was sent becomes the one that the
server names, and what is kept of one that was cancelled, rejected or taken back. -/
namespace OmniagentPlus.OmnigentTransport
open OmniagentPlus.Foundation OmniagentPlus.CoreContracts
namespace OmnigentHttpProvider
variable {ν : Type} (p : OmnigentHttpProvider ν) (sessionId : Text)

def hasCancelledTurnQuarantine : Bool := p.cancelledTurnQuarantineKeys.keys.any (hasKeyPrefix sessionId)

def eventIsRejected (event : OmnigentRawEvent ν) : Bool :=
  [event.turnId,event.turnAliasId].any (fun turnId => turnId.any (fun id =>
    p.rejectedTurnKeys.has (sessionKey sessionId id)))

def eventConcernsActiveTurn (event : OmnigentRawEvent ν) : Bool :=
  match (p.activeTurnId sessionId).or (p.latestTurnIds.get? sessionId) with
  | none => true
  | some activeTurnId => decide (event.turnAliasId = some activeTurnId) || decide (event.turnId = some activeTurnId)

section Parts

/-- The provisional names that stand for a turn of the session are dropped. -/
def forgetAliasesOf (turnId : Text) : OmnigentHttpProvider ν :=
  { p with
    provisionalTurnAliases := p.provisionalTurnAliases.filterEntries
      (fun key aliasedTurnId => !(hasKeyPrefix sessionId key && decide (aliasedTurnId = turnId))) }

/-- The handle of one turn becomes the handle of another. -/
def moveHandle (previousTurnId nextTurnId : Text) (change : MutableTurnHandle → MutableTurnHandle) :
    OmnigentHttpProvider ν :=
  match p.turns.get? (sessionKey sessionId previousTurnId) with
  | some handle =>
    { p with turns := (p.turns.erase (sessionKey sessionId previousTurnId)).set (sessionKey sessionId nextTurnId) handle
      }.changeHandle handle change
  | none => p

/-- The turn is taken off the order, and an empty order is dropped. -/
def removeProvisionalTurn (turnId : Text) : OmnigentHttpProvider ν :=
  match p.provisionalTurnOrder.get? sessionId with
  | some order =>
    if turnId ∈ order then
      let retained := order.erase turnId
      { p with provisionalTurnOrder := if retained.isEmpty then p.provisionalTurnOrder.erase sessionId
          else p.provisionalTurnOrder.set sessionId retained }
    else p
  | none => p

/-- The latest turn of the session, where it is the one, is another. -/
def renameLatestTurn (previousTurnId nextTurnId : Text) : OmnigentHttpProvider ν :=
  if p.latestTurnIds.get? sessionId = some previousTurnId then
    { p with latestTurnIds := p.latestTurnIds.set sessionId nextTurnId }
  else p

/-- The active turn of the session, where it is the one, changes. -/
def changeActiveTurn (previousTurnId : Text) (change : AgentSessionInfo ν → AgentSessionInfo ν) :
    OmnigentHttpProvider ν :=
  if p.activeTurnId sessionId = some previousTurnId then p.updateSession sessionId change else p

/-- The turn is no longer one that waits for its name. -/
def forgetPendingTurn (turnId : Text) : OmnigentHttpProvider ν :=
  let turnKey := sessionKey sessionId turnId
  { p with
    provisionalTurnKeys := p.provisionalTurnKeys.erase turnKey
    nativePendingTurnKeys := p.nativePendingTurnKeys.erase turnKey
    queuedOnlyTurnKeys := p.queuedOnlyTurnKeys.erase turnKey }

/-- `this.rejectedTurnKeys.add(...)` -/
def rejectTurnKey (turnId : Text) : OmnigentHttpProvider ν :=
  { p with rejectedTurnKeys := p.rejectedTurnKeys.add (sessionKey sessionId turnId) }

end Parts

/-- The order with the turn under its next name; a turn that is not there is put last on request. -/
def renamedOrder (order : Option (List Text)) (previousTurnId nextTurnId : Text) (restoreOrder : Bool) :
    Option (List Text) :=
  match order with
  | some order =>
    if previousTurnId ∈ order then some (order.set (order.idxOf previousTurnId) nextTurnId)
    else if restoreOrder then some (order ++ [nextTurnId]) else some order
  | none => if restoreOrder then some [nextTurnId] else none

def setProvisionalOrder (order : Option (List Text)) : OmnigentHttpProvider ν :=
  match order with
  | some order => { p with provisionalTurnOrder := p.provisionalTurnOrder.set sessionId order }
  | none => p

def replaceProvisionalTurnId (previousTurnId nextTurnId : Text) (restoreOrder : Bool) : OmnigentHttpProvider ν :=
  let previousKey := sessionKey sessionId previousTurnId
  if p.provisionalTurnKeys.has previousKey then
    let moved := p.moveHandle sessionId previousTurnId nextTurnId (fun handle => { handle with turnId := nextTurnId })
    let renamed := { moved with
      provisionalTurnKeys := KeySet.add (moved.provisionalTurnKeys.erase previousKey) (sessionKey sessionId nextTurnId)
      provisionalTurnAliases := moved.provisionalTurnAliases.set previousKey nextTurnId }
    let ordered := renamed.setProvisionalOrder sessionId
      (renamedOrder (renamed.provisionalTurnOrder.get? sessionId) previousTurnId nextTurnId restoreOrder)
    ((ordered.renameLatestTurn sessionId previousTurnId nextTurnId).changeActiveTurn sessionId previousTurnId
      (fun session => { session with activeTurnId := some nextTurnId })).onStreams sessionId
        (fun stream => stream.replaceFallbackTurnId previousTurnId nextTurnId)
  else p

def retireProvisionalTurnCandidate (provisionalTurnId : Text) : OmnigentHttpProvider ν :=
  if p.provisionalTurnKeys.has (sessionKey sessionId provisionalTurnId) then
    p.removeProvisionalTurn sessionId provisionalTurnId
  else p

/-- Whether there was such a turn, too. -/
def failProvisionalTurnCandidate (provisionalTurnId updatedAt : Text) : Bool × OmnigentHttpProvider ν :=
  let turnKey := sessionKey sessionId provisionalTurnId
  if p.provisionalTurnKeys.has turnKey then
    let forgotten := (p.retireProvisionalTurnCandidate sessionId provisionalTurnId).forgetPendingTurn sessionId
      provisionalTurnId
    match forgotten.turns.get? turnKey with
    | some handle => (true,forgotten.changeHandle handle (fun h => { h with state := .failed, updatedAt := updatedAt }))
    | none => (true,forgotten)
  else (false,p)

/-- A provisional turn is found to be the official one; while it is being cancelled that is only noted. -/
def reconcileTurn (provisionalTurnId officialTurnId updatedAt : Text) : OmnigentHttpProvider ν :=
  let suppliedProvisionalKey := sessionKey sessionId provisionalTurnId
  let official := { p with
    officialResponseTurnKeys := p.officialResponseTurnKeys.add (sessionKey sessionId officialTurnId) }
  let currentTurnId := (p.provisionalTurnAliases.get? suppliedProvisionalKey).getD provisionalTurnId
  let turnKey := sessionKey sessionId currentTurnId
  if p.cancellationReservations.get? sessionId = some currentTurnId then
    let officialTurnIds := (p.cancellationOfficialTurnIds.get? turnKey).getD []
    { official with
      cancellationOfficialTurnIds := p.cancellationOfficialTurnIds.set turnKey
        (if officialTurnId ∈ officialTurnIds then officialTurnIds else officialTurnIds ++ [officialTurnId]) }
  else if currentTurnId = officialTurnId ∨ p.provisionalTurnKeys.has turnKey = false then official
  else
    let moved := (official.moveHandle sessionId currentTurnId officialTurnId (fun handle =>
      { handle with turnId := officialTurnId, updatedAt := updatedAt })).forgetPendingTurn sessionId currentTurnId
    let unaliased := { moved with
      provisionalTurnAliases := moved.provisionalTurnAliases.erase suppliedProvisionalKey
      }.forgetAliasesOf sessionId currentTurnId
    ((unaliased.removeProvisionalTurn sessionId currentTurnId).renameLatestTurn sessionId currentTurnId
      officialTurnId).changeActiveTurn sessionId currentTurnId
        (fun session => { session with activeTurnId := some officialTurnId, updatedAt := updatedAt })

def rejectTurnIdentities (originalTurnId currentTurnId : Text) : OmnigentHttpProvider ν :=
  (if currentTurnId = originalTurnId then [originalTurnId] else [originalTurnId,currentTurnId]).foldl
    (fun p turnId => (p.rejectTurnKey sessionId turnId).onStreams sessionId (fun stream => stream.rejectTurnId turnId)) p

/-- The latest turn that is left when one is taken back. -/
def retainedLatestTurnId (activeTurnWasRemoved : Bool) (previousLatestTurnId : Option Text) : Option Text :=
  let known := fun turnId => (p.turns.get? (sessionKey sessionId turnId)).isSome
  match (p.activeTurnId sessionId).filter (fun turnId => !activeTurnWasRemoved && known turnId),
    previousLatestTurnId.filter known with
  | some turnId, _ => some turnId
  | none, some turnId => some turnId
  | none, none => (p.provisionalTurnOrder.get? sessionId).bind List.getLast?

/-- The session as it was before a send that is taken back. -/
def restoredSession (previousSession : AgentSessionInfo ν) : AgentSessionInfo ν :=
  let restoredActiveTurnId := previousSession.activeTurnId.filter
    (fun turnId => (p.turns.get? (sessionKey sessionId turnId)).isSome)
  { previousSession with
    activeTurnId := restoredActiveTurnId
    state := if restoredActiveTurnId.isSome then .turnActive
      else if previousSession.state = .failed then .failed else .idle }

/-- The order without the turns of a send that is taken back. -/
def withoutProvisionalTurns (turnIds : List Text) : OmnigentHttpProvider ν :=
  match p.provisionalTurnOrder.get? sessionId with
  | some order =>
    let retained := order.filter (fun turnId => decide (turnId ∉ turnIds))
    { p with provisionalTurnOrder := if retained.isEmpty then p.provisionalTurnOrder.erase sessionId
        else p.provisionalTurnOrder.set sessionId retained }
  | none => p

/-- `this.turns.delete(...)` -/
def forgetTurn (turnId : Text) : OmnigentHttpProvider ν :=
  { p with turns := p.turns.erase (sessionKey sessionId turnId) }

/-- Every registry forgets the two turns. -/
def unregisterTurns (originalTurnId currentTurnId : Text) : OmnigentHttpProvider ν :=
  let removed := [originalTurnId,currentTurnId].foldl
    (fun p turnId => (p.forgetTurn sessionId turnId).forgetPendingTurn sessionId turnId) p
  ({ removed with
    provisionalTurnAliases := removed.provisionalTurnAliases.erase (sessionKey sessionId originalTurnId)
    }.forgetAliasesOf sessionId currentTurnId).withoutProvisionalTurns sessionId [originalTurnId,currentTurnId]

/-- The latest turn, where it was taken back, is one that is left. -/
def retainLatestTurn (originalTurnId currentTurnId : Text) (previousLatestTurnId : Option Text) :
    OmnigentHttpProvider ν :=
  let takenBack := fun turnId : Option Text => decide (turnId = some originalTurnId) || decide (turnId = some currentTurnId)
  if takenBack (p.latestTurnIds.get? sessionId) then
    { p with
      latestTurnIds := match p.retainedLatestTurnId sessionId (takenBack (p.activeTurnId sessionId)) previousLatestTurnId with
        | some turnId => p.latestTurnIds.set sessionId turnId
        | none => p.latestTurnIds.erase sessionId }
  else p

/-- The session, where the turn that was taken back is the active one, is as it was before the send. -/
def restoreSession (originalTurnId currentTurnId : Text) (previousSession : Option (AgentSessionInfo ν)) :
    OmnigentHttpProvider ν :=
  let activeTurnId := p.activeTurnId sessionId
  match previousSession with
  | some previous => if activeTurnId = some originalTurnId ∨ activeTurnId = some currentTurnId then
      p.setSession sessionId (p.restoredSession sessionId previous) else p
  | none => p

def rollbackTurnRegistration (originalTurnId currentTurnId : Text) (previousLatestTurnId : Option Text)
    (previousSession : Option (AgentSessionInfo ν)) : OmnigentHttpProvider ν :=
  (((p.unregisterTurns sessionId originalTurnId currentTurnId).retainLatestTurn sessionId originalTurnId currentTurnId
    previousLatestTurnId).restoreSession sessionId originalTurnId currentTurnId previousSession).onStreams sessionId
      (fun stream => (stream.removeFallbackTurnId originalTurnId).removeFallbackTurnId currentTurnId)

def retireCancelledTurn (turnId : Text) (cancellationProofObserved : Bool) : OmnigentHttpProvider ν :=
  let turnKey := sessionKey sessionId turnId
  let hasOfficialResponseIdentity := p.officialResponseTurnKeys.has turnKey
  let retired := (p.retireProvisionalTurnCandidate sessionId turnId).forgetPendingTurn sessionId turnId
  let fenced := if cancellationProofObserved then retired
    else { retired with
      cancelledTurnQuarantineKeys := retired.cancelledTurnQuarantineKeys.add turnKey
      cancelledTurnAwaitingIdentityKeys := if hasOfficialResponseIdentity then retired.cancelledTurnAwaitingIdentityKeys
        else retired.cancelledTurnAwaitingIdentityKeys.add turnKey }
  let rejected := fenced.rejectTurnKey sessionId turnId
  let unaliased := { rejected with
    provisionalTurnAliases := rejected.provisionalTurnAliases.erase turnKey
    pendingItemTurnIds := rejected.pendingItemTurnIds.filterEntries
      (fun itemKey pendingTurnId => !(hasKeyPrefix sessionId itemKey && decide (pendingTurnId = turnId)))
    }.forgetAliasesOf sessionId turnId
  let latest := if unaliased.latestTurnIds.get? sessionId = some turnId then
      { unaliased with latestTurnIds := unaliased.latestTurnIds.erase sessionId }
    else unaliased
  latest.onStreams sessionId (fun stream => if cancellationProofObserved then stream.rejectTurnId turnId
    else stream.quarantineFallbackTurnId turnId)

end OmnigentHttpProvider
end OmniagentPlus.OmnigentTransport
