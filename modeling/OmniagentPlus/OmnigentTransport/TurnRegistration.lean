import OmniagentPlus.OmnigentTransport.ProviderOperations

/-! The registries that a turn enters when it is sent, and what a send that is taken back leaves in
them: they are as before where the turn was in none of them and what it replaced is still known. -/
namespace OmniagentPlus.OmnigentTransport
open OmniagentPlus.Foundation OmniagentPlus.CoreContracts
variable {ν : Type}

/-- The registries of turns, with the sessions. -/
structure TurnRegistration (ν : Type) where
  sessions : Dictionary Text (AgentSessionInfo ν)
  latestTurnIds : Dictionary Text Text
  turns : Dictionary Text ℕ
  provisionalTurnKeys : KeySet
  nativePendingTurnKeys : KeySet
  queuedOnlyTurnKeys : KeySet
  provisionalTurnAliases : Dictionary Text Text
  provisionalTurnOrder : Dictionary Text (List Text)

def OmnigentHttpProvider.registration (p : OmnigentHttpProvider ν) : TurnRegistration ν :=
  ⟨p.sessions,p.latestTurnIds,p.turns,p.provisionalTurnKeys,p.nativePendingTurnKeys,p.queuedOnlyTurnKeys,
    p.provisionalTurnAliases,p.provisionalTurnOrder⟩

/-- The state and the active turn of the session, its latest turn and all registries are the same. -/
structure SameTurns (sessionId : Text) (r r' : TurnRegistration ν) : Prop where
  info : (r'.sessions.get? sessionId).map (fun info => (info.state,info.activeTurnId)) =
    (r.sessions.get? sessionId).map (fun info => (info.state,info.activeTurnId))
  latest : r'.latestTurnIds.get? sessionId = r.latestTurnIds.get? sessionId
  turns : ∀ key, r'.turns.get? key = r.turns.get? key
  provisional : ∀ key, r'.provisionalTurnKeys.get? key = r.provisionalTurnKeys.get? key
  nativePending : ∀ key, r'.nativePendingTurnKeys.get? key = r.nativePendingTurnKeys.get? key
  queuedOnly : ∀ key, r'.queuedOnlyTurnKeys.get? key = r.queuedOnlyTurnKeys.get? key
  aliases : ∀ key, r'.provisionalTurnAliases.get? key = r.provisionalTurnAliases.get? key
  order : ∀ key, r'.provisionalTurnOrder.get? key = r.provisionalTurnOrder.get? key

theorem SameTurns.refl (sessionId : Text) (r : TurnRegistration ν) : SameTurns sessionId r r :=
  ⟨rfl,rfl,fun _ => rfl,fun _ => rfl,fun _ => rfl,fun _ => rfl,fun _ => rfl,fun _ => rfl⟩

namespace TurnRegistration
variable (r : TurnRegistration ν) (sessionId : Text)

def knows (turnId : Text) : Bool := (r.turns.get? (sessionKey sessionId turnId)).isSome

/-- No registry has the turn, and no alias stands for it. -/
structure Fresh (turnId : Text) : Prop where
  turns : r.turns.get? (sessionKey sessionId turnId) = none
  provisional : r.provisionalTurnKeys.get? (sessionKey sessionId turnId) = none
  nativePending : r.nativePendingTurnKeys.get? (sessionKey sessionId turnId) = none
  queuedOnly : r.queuedOnlyTurnKeys.get? (sessionKey sessionId turnId) = none
  unaliased : r.provisionalTurnAliases.get? (sessionKey sessionId turnId) = none
  aliased : ∀ key, hasKeyPrefix sessionId key = true → r.provisionalTurnAliases.get? key ≠ some turnId
  ordered : ∀ order, r.provisionalTurnOrder.get? sessionId = some order → turnId ∉ order ∧ order ≠ []

/-- The latest turn has a handle or ends the order; without one there is no order. -/
def LatestKnown : Prop :=
  match r.latestTurnIds.get? sessionId with
  | some turnId => r.knows sessionId turnId = true ∨
      (r.provisionalTurnOrder.get? sessionId).bind List.getLast? = some turnId
  | none => r.provisionalTurnOrder.get? sessionId = none

/-- The active turn has a handle and makes the session active; without one the session is idle or failed. -/
def ActiveKnown : Prop :=
  ∀ info, r.sessions.get? sessionId = some info → match info.activeTurnId with
    | some turnId => r.knows sessionId turnId = true ∧ info.state = .turnActive
    | none => info.state = .idle ∨ info.state = .failed

/-- A send of the turn can be taken back. -/
structure Restorable (turnId : Text) : Prop where
  fresh : r.Fresh sessionId turnId
  latest : r.LatestKnown sessionId
  active : r.ActiveKnown sessionId

end TurnRegistration

section Quiet
variable (p : OmnigentHttpProvider ν) (sessionId : Text)

@[simp] theorem registration_onStreams (call : OmnigentSseNormalizer → OmnigentSseNormalizer) :
    (p.onStreams sessionId call).registration = p.registration := by
  unfold OmnigentHttpProvider.onStreams
  split <;> rfl

theorem registration_foldl {α : Type} {f : OmnigentHttpProvider ν → α → OmnigentHttpProvider ν}
    (h : ∀ p a, (f p a).registration = p.registration) (as : List α) :
    (as.foldl f p).registration = p.registration := by
  induction as generalizing p with
  | nil => rfl
  | cons a as ih => exact (ih (f p a)).trans (h p a)

@[simp] theorem registration_rejectTurnIdentities (originalTurnId currentTurnId : Text) :
    (p.rejectTurnIdentities sessionId originalTurnId currentTurnId).registration = p.registration :=
  registration_foldl p (fun q turnId => registration_onStreams (q.rejectTurnKey sessionId turnId) sessionId _) _

theorem registration_setSession (info : AgentSessionInfo ν) :
    (p.setSession sessionId info).registration =
      { p.registration with sessions := p.registration.sessions.set sessionId info } := rfl

theorem registration_closeTracked_congr {q : OmnigentHttpProvider ν} (h : q.registration = p.registration)
    (closed : Bool) : (q.closeTracked sessionId closed).registration = (p.closeTracked sessionId closed).registration := by
  have hs : q.sessions = p.sessions := congrArg TurnRegistration.sessions h
  unfold OmnigentHttpProvider.closeTracked OmnigentHttpProvider.updateSession
  rw [hs]
  split_ifs
  · cases p.sessions.get? sessionId with
    | none => exact h
    | some info => simp only [registration_setSession, h]
  · exact h

/-- A shared fence changes the registries only where it closes the session. -/
theorem registration_installShared (state : OmnigentSessionMutationFenceState) :
    (p.installSharedSessionMutationState sessionId state).registration =
      (p.closeTracked sessionId state.closed).registration := by
  have hquarantine : ∀ q : OmnigentHttpProvider ν,
      (q.quarantineShared sessionId state.cancellation).registration = q.registration := by
    intro q
    unfold OmnigentHttpProvider.quarantineShared
    split
    · exact registration_onStreams _ sessionId _
    · rfl
  have hbind : (p.bindOfficialTurns sessionId state.cancellation).registration = p.registration := by
    unfold OmnigentHttpProvider.bindOfficialTurns
    split
    · exact registration_onStreams p sessionId _
    · rfl
  have hkeep : ((p.bindOfficialTurns sessionId state.cancellation).keepQuarantineOf sessionId
      state.cancellation).registration = p.registration := hbind
  have hreject : ∀ q : OmnigentHttpProvider ν, (q.rejectSharedTurns sessionId state).registration = q.registration := by
    refine fun q => registration_foldl q (fun q turnId => ?_) state.rejectedTurnIds
    dsimp only
    split_ifs
    · rfl
    · exact registration_onStreams (q.rejectTurnKey sessionId turnId) sessionId _
  rw [OmnigentHttpProvider.installSharedSessionMutationState, hquarantine]
  exact registration_closeTracked_congr p sessionId ((hreject _).trans hkeep) state.closed

end Quiet

section TakenBack
variable (p : OmnigentHttpProvider ν) (sessionId turnId : Text)

@[simp] theorem registration_restoreSession (previousSession : Option (AgentSessionInfo ν)) :
    (p.restoreSession sessionId turnId turnId previousSession).registration = { p.registration with
      sessions := (p.restoreSession sessionId turnId turnId previousSession).sessions } := by
  unfold OmnigentHttpProvider.restoreSession
  dsimp only
  split
  · split_ifs <;> rfl
  · rfl

@[simp] theorem registration_retainLatestTurn (previousLatestTurnId : Option Text) :
    (p.retainLatestTurn sessionId turnId turnId previousLatestTurnId).registration = { p.registration with
      latestTurnIds := (p.retainLatestTurn sessionId turnId turnId previousLatestTurnId).latestTurnIds } := by
  unfold OmnigentHttpProvider.retainLatestTurn
  dsimp only
  split_ifs <;> rfl

@[simp] theorem registration_withoutProvisionalTurns (turnIds : List Text) :
    (p.withoutProvisionalTurns sessionId turnIds).registration = { p.registration with
      provisionalTurnOrder := (p.withoutProvisionalTurns sessionId turnIds).provisionalTurnOrder } := by
  unfold OmnigentHttpProvider.withoutProvisionalTurns
  split <;> rfl

/-- What is left of the registries once a turn was registered and taken back. -/
structure TakenBack (sessionId turnId : Text) (r r' : TurnRegistration ν) : Prop where
  turns : ∀ key, r'.turns.get? key = if key = sessionKey sessionId turnId then none else r.turns.get? key
  provisional : ∀ key, r'.provisionalTurnKeys.get? key =
    if key = sessionKey sessionId turnId then none else r.provisionalTurnKeys.get? key
  nativePending : ∀ key, r'.nativePendingTurnKeys.get? key =
    if key = sessionKey sessionId turnId then none else r.nativePendingTurnKeys.get? key
  queuedOnly : ∀ key, r'.queuedOnlyTurnKeys.get? key =
    if key = sessionKey sessionId turnId then none else r.queuedOnlyTurnKeys.get? key
  aliases : ∀ key, r'.provisionalTurnAliases.get? key = if key = sessionKey sessionId turnId then none
    else (r.provisionalTurnAliases.get? key).filter (fun aliased => !(hasKeyPrefix sessionId key && decide (aliased = turnId)))
  order : ∀ key, r'.provisionalTurnOrder.get? key = if key = sessionId then
      (some (((r.provisionalTurnOrder.get? sessionId).getD []).filter (fun id => decide (id ≠ turnId)))).filter
        (fun order => !order.isEmpty)
    else r.provisionalTurnOrder.get? key
  latest : r'.latestTurnIds.get? sessionId = ((r.latestTurnIds.get? sessionId).filter (r'.knows sessionId)).or
    ((r'.provisionalTurnOrder.get? sessionId).bind List.getLast?)
  info : (r'.sessions.get? sessionId).map (fun info => (info.state,info.activeTurnId)) =
    (r.sessions.get? sessionId).map (fun previous =>
      let active := previous.activeTurnId.filter (r'.knows sessionId)
      (if active.isSome then .turnActive else if previous.state = .failed then .failed else .idle,active))

variable {sessionId turnId}

theorem TakenBack.knows {r r' : TurnRegistration ν} (h : TakenBack sessionId turnId r r') (id : Text) :
    r'.knows sessionId id = (!decide (id = turnId) && r.knows sessionId id) := by
  have hkey : sessionKey sessionId id = sessionKey sessionId turnId ↔ id = turnId := List.append_right_inj _
  simp only [TurnRegistration.knows, h.turns, hkey]
  split_ifs with hid <;> simp [hid]

/-- Taking out what is not there changes nothing. -/
theorem get?_absent {β : Type} {d : Dictionary Text β} {k key : Text} (h : d.get? k = none) :
    (if key = k then none else d.get? key) = d.get? key := by
  split_ifs with hkey
  · rw [hkey, h]
  · rfl

section Exact
variable {r r' : TurnRegistration ν} (h : TakenBack sessionId turnId r r')
include h

theorem TakenBack.order_fresh {order : List Text} (hfresh : turnId ∉ order ∧ order ≠ [])
    (horder : r.provisionalTurnOrder.get? sessionId = some order) :
    r'.provisionalTurnOrder.get? sessionId = some order := by
  have hkept : order.filter (fun id => decide (id ≠ turnId)) = order :=
    List.filter_eq_self.mpr fun id hid => decide_eq_true fun heq => hfresh.1 (heq ▸ hid)
  have hsome : (!order.isEmpty) = true := by simpa using hfresh.2
  rw [h.order, if_pos rfl, horder, Option.getD_some, hkept, Option.filter_some, if_pos hsome]

theorem TakenBack.fresh (hs : SameTurns sessionId r r') : r.Fresh sessionId turnId where
  turns := by rw [← hs.turns, h.turns, if_pos rfl]
  provisional := by rw [← hs.provisional, h.provisional, if_pos rfl]
  nativePending := by rw [← hs.nativePending, h.nativePending, if_pos rfl]
  queuedOnly := by rw [← hs.queuedOnly, h.queuedOnly, if_pos rfl]
  unaliased := by rw [← hs.aliases, h.aliases, if_pos rfl]
  aliased key hkey halias := by
    have hleft := hs.aliases key
    rw [h.aliases, halias] at hleft
    split_ifs at hleft
    simp [Option.filter, hkey] at hleft
  ordered order horder := by
    have hleft := hs.order sessionId
    rw [h.order, if_pos rfl, horder, Option.getD_some, Option.filter_some] at hleft
    split_ifs at hleft with hsome
    have hkept := Option.some.inj hleft
    refine ⟨fun hmem => ?_,fun hnil => by simp [hnil] at hsome⟩
    rw [← hkept] at hmem
    simpa using (List.mem_filter.mp hmem).2

theorem TakenBack.latestKnown (hs : SameTurns sessionId r r') : r.LatestKnown sessionId := by
  have hlatest := h.latest
  rw [hs.latest, hs.order] at hlatest
  unfold TurnRegistration.LatestKnown
  cases hl : r.latestTurnIds.get? sessionId with
  | none =>
    rw [hl, Option.filter_none, Option.none_or] at hlatest
    cases ho : r.provisionalTurnOrder.get? sessionId with
    | none => rfl
    | some order =>
      rw [ho, Option.bind_some, eq_comm, List.getLast?_eq_none_iff] at hlatest
      exact absurd hlatest ((h.fresh hs).ordered order ho).2
  | some id =>
    rw [hl, Option.filter_some] at hlatest
    split_ifs at hlatest with hknown
    · rw [h.knows, Bool.and_eq_true] at hknown
      exact .inl hknown.2
    · exact .inr hlatest.symm

theorem TakenBack.activeKnown (hs : SameTurns sessionId r r') : r.ActiveKnown sessionId := by
  intro info hinfo
  have hleft := hs.info
  rw [h.info, hinfo, Option.map_some, Option.map_some, Option.some.injEq, Prod.mk.injEq] at hleft
  obtain ⟨hstate,hactive⟩ := hleft
  cases ha : info.activeTurnId with
  | none =>
    simp only [ha, Option.filter_none, Option.isSome_none, Bool.false_eq_true, if_false] at hstate
    split_ifs at hstate with hfailed
    · exact .inr hfailed
    · exact .inl hstate.symm
  | some id =>
    rw [ha, Option.filter_some] at hactive
    split_ifs at hactive with hknown
    rw [ha, Option.filter_some, if_pos hknown] at hstate
    rw [h.knows, Bool.and_eq_true] at hknown
    exact ⟨hknown.2,hstate.symm⟩

theorem TakenBack.knows_of_fresh (hfresh : r.Fresh sessionId turnId) (id : Text) :
    r'.knows sessionId id = r.knows sessionId id := by
  rw [h.knows]
  by_cases hid : id = turnId
  · subst hid
    simp [TurnRegistration.knows, hfresh.turns]
  · simp [hid]

theorem TakenBack.sameTurns (hr : r.Restorable sessionId turnId) : SameTurns sessionId r r' := by
  have horder : ∀ key, r'.provisionalTurnOrder.get? key = r.provisionalTurnOrder.get? key := by
    intro key
    by_cases hkey : key = sessionId
    · subst hkey
      cases ho : r.provisionalTurnOrder.get? key with
      | none => simp [h.order, ho]
      | some order => exact h.order_fresh (hr.fresh.ordered order ho) ho
    · rw [h.order, if_neg hkey]
  have hknows : r'.knows sessionId = r.knows sessionId := funext (h.knows_of_fresh hr.fresh)
  refine ⟨?_,?_,fun key => ?_,fun key => ?_,fun key => ?_,fun key => ?_,fun key => ?_,horder⟩
  · rw [h.info, hknows]
    cases hi : r.sessions.get? sessionId with
    | none => rfl
    | some info =>
      have hactive := hr.active info hi
      cases ha : info.activeTurnId with
      | none =>
        rw [ha] at hactive
        rcases hactive with hstate | hstate <;> simp [ha, hstate]
      | some id =>
        rw [ha] at hactive
        simp [ha, hactive.1, hactive.2]
  · have hlatest := hr.latest
    unfold TurnRegistration.LatestKnown at hlatest
    rw [h.latest, hknows, horder]
    cases hl : r.latestTurnIds.get? sessionId with
    | none =>
      rw [hl] at hlatest
      simp [hlatest]
    | some id =>
      rw [hl] at hlatest
      by_cases hknown : r.knows sessionId id = true
      · simp [hknown]
      · rw [Option.filter_some, if_neg hknown, Option.none_or]
        exact hlatest.resolve_left hknown
  · rw [h.turns, get?_absent hr.fresh.turns]
  · rw [h.provisional, get?_absent hr.fresh.provisional]
  · rw [h.nativePending, get?_absent hr.fresh.nativePending]
  · rw [h.queuedOnly, get?_absent hr.fresh.queuedOnly]
  · rw [h.aliases]
    cases ha : r.provisionalTurnAliases.get? key with
    | none => simp
    | some aliased =>
      have hkey : key ≠ sessionKey sessionId turnId := by
        rintro rfl
        rw [hr.fresh.unaliased] at ha
        cases ha
      by_cases hp : hasKeyPrefix sessionId key = true
      · have hne : aliased ≠ turnId := fun heq => hr.fresh.aliased key hp (heq ▸ ha)
        simp [hkey, hne]
      · simp [hkey, hp]

end Exact

/-- The registries are as they were exactly where the send could be taken back. -/
theorem TakenBack.sameTurns_iff {r r' : TurnRegistration ν} (h : TakenBack sessionId turnId r r') :
    SameTurns sessionId r r' ↔ r.Restorable sessionId turnId :=
  ⟨fun hs => ⟨h.fresh hs,h.latestKnown hs,h.activeKnown hs⟩,h.sameTurns⟩

end TakenBack

section Rollback
variable (request : SendTurnRequest) (now : Text) (p : OmnigentHttpProvider ν)

theorem registration_registerTurn : (registerTurn request now p).2.registration =
    { sessions := match p.sessions.get? request.sessionId with
        | some session => p.sessions.set request.sessionId { session with
            activeTurnId := some (provisionalTurnId request), state := .turnActive, updatedAt := now }
        | none => p.sessions
      latestTurnIds := p.latestTurnIds.set request.sessionId (provisionalTurnId request)
      turns := p.turns.set (sessionKey request.sessionId (provisionalTurnId request)) p.handles.length
      provisionalTurnKeys := p.provisionalTurnKeys.add (sessionKey request.sessionId (provisionalTurnId request))
      nativePendingTurnKeys := p.nativePendingTurnKeys
      queuedOnlyTurnKeys := p.queuedOnlyTurnKeys
      provisionalTurnAliases := p.provisionalTurnAliases
      provisionalTurnOrder := p.provisionalTurnOrder.set request.sessionId
        ((p.provisionalTurnOrder.get? request.sessionId).getD [] ++ [provisionalTurnId request]) } := by
  simp only [registerTurn, registration_onStreams, OmnigentHttpProvider.updateSession]
  cases p.sessions.get? request.sessionId <;> rfl

variable {request now p} {q : OmnigentHttpProvider ν}

/-- The registries forget a turn, and the order what is left out of it. -/
theorem registration_unregisterTurns (q : OmnigentHttpProvider ν) (sessionId turnId : Text) :
    (q.unregisterTurns sessionId turnId turnId).registration = { q.registration with
      turns := (q.turns.erase (sessionKey sessionId turnId)).erase (sessionKey sessionId turnId)
      provisionalTurnKeys := Dictionary.erase (Dictionary.erase q.provisionalTurnKeys (sessionKey sessionId turnId))
        (sessionKey sessionId turnId)
      nativePendingTurnKeys := Dictionary.erase (Dictionary.erase q.nativePendingTurnKeys (sessionKey sessionId turnId))
        (sessionKey sessionId turnId)
      queuedOnlyTurnKeys := Dictionary.erase (Dictionary.erase q.queuedOnlyTurnKeys (sessionKey sessionId turnId))
        (sessionKey sessionId turnId)
      provisionalTurnAliases := (q.provisionalTurnAliases.erase (sessionKey sessionId turnId)).filterEntries
        (fun key aliased => !(hasKeyPrefix sessionId key && decide (aliased = turnId)))
      provisionalTurnOrder := (q.withoutProvisionalTurns sessionId [turnId,turnId]).provisionalTurnOrder } := by
  unfold OmnigentHttpProvider.unregisterTurns OmnigentHttpProvider.withoutProvisionalTurns
  dsimp only [List.foldl, OmnigentHttpProvider.forgetTurn, OmnigentHttpProvider.forgetPendingTurn,
    OmnigentHttpProvider.forgetAliasesOf]
  cases q.provisionalTurnOrder.get? sessionId <;> rfl

theorem order_withoutProvisionalTurns (q : OmnigentHttpProvider ν) {sessionId turnId : Text} {order : List Text}
    (h : q.provisionalTurnOrder.get? sessionId = some order) (key : Text) :
    (q.withoutProvisionalTurns sessionId [turnId,turnId]).provisionalTurnOrder.get? key = if key = sessionId then
        (some (order.filter (fun id => decide (id ≠ turnId)))).filter (fun order => !order.isEmpty)
      else q.provisionalTurnOrder.get? key := by
  have hin : (fun id => decide (id ∉ [turnId,turnId])) = fun id => decide (id ≠ turnId) := by
    funext id
    simp
  unfold OmnigentHttpProvider.withoutProvisionalTurns
  rw [h]
  dsimp only
  rw [hin]
  generalize order.filter (fun id => decide (id ≠ turnId)) = retained
  cases hempty : retained.isEmpty with
  | true => simp [Dictionary.get?_erase, Option.filter, hempty]
  | false => simp [Dictionary.get?_set, Option.filter, hempty]

/-- The latest turn was the one that is taken back, and so was the active one of the session, if it is tracked. -/
theorem latest_retainLatestTurn {sessionId turnId : Text} (previous : Option Text)
    (hlatest : q.latestTurnIds.get? sessionId = some turnId)
    (hactive : ∀ id, q.activeTurnId sessionId = some id → id = turnId) :
    (q.retainLatestTurn sessionId turnId turnId previous).latestTurnIds.get? sessionId =
      (previous.filter (q.registration.knows sessionId)).or
        ((q.provisionalTurnOrder.get? sessionId).bind List.getLast?) := by
  have hretained : q.retainedLatestTurnId sessionId (decide (q.activeTurnId sessionId = some turnId) ||
      decide (q.activeTurnId sessionId = some turnId)) previous = (previous.filter (q.registration.knows sessionId)).or
        ((q.provisionalTurnOrder.get? sessionId).bind List.getLast?) := by
    have hnone : (q.activeTurnId sessionId).filter (fun id => !(decide (q.activeTurnId sessionId = some turnId) ||
        decide (q.activeTurnId sessionId = some turnId)) && (q.turns.get? (sessionKey sessionId id)).isSome) = none := by
      cases ha : q.activeTurnId sessionId with
      | none => rfl
      | some id => simp [hactive id ha]
    unfold OmnigentHttpProvider.retainedLatestTurnId
    dsimp only
    rw [hnone]
    have hknows : previous.filter (fun id => (q.turns.get? (sessionKey sessionId id)).isSome) =
        previous.filter (q.registration.knows sessionId) := rfl
    rw [hknows]
    cases previous.filter (q.registration.knows sessionId) <;> rfl
  unfold OmnigentHttpProvider.retainLatestTurn
  dsimp only
  rw [hlatest, hretained, if_pos (by simp)]
  cases h : (previous.filter (q.registration.knows sessionId)).or ((q.provisionalTurnOrder.get? sessionId).bind List.getLast?) with
  | none => simp [Dictionary.get?_erase]
  | some id => simp

/-- A tracked session whose active turn is taken back is as it was, but for a turn without a handle. -/
theorem info_restoreSession {sessionId turnId : Text} {previous : Option (AgentSessionInfo ν)}
    (htracked : ∀ info, previous = some info → q.activeTurnId sessionId = some turnId)
    (huntracked : previous = none → q.sessions.get? sessionId = none) :
    ((q.restoreSession sessionId turnId turnId previous).sessions.get? sessionId).map
        (fun info => (info.state,info.activeTurnId)) = previous.map (fun info =>
      let active := info.activeTurnId.filter (q.registration.knows sessionId)
      (if active.isSome then .turnActive else if info.state = .failed then .failed else .idle,active)) := by
  unfold OmnigentHttpProvider.restoreSession
  cases previous with
  | none => simp [huntracked rfl]
  | some info =>
    dsimp only
    rw [if_pos (.inl (htracked info rfl))]
    simp only [OmnigentHttpProvider.setSession, Dictionary.get?_set_self, Option.map_some]
    rfl

/-- The registries of a send that is taken back. -/
theorem registration_rollbackSend {registered : RegisteredTurn ν}
    (hid : handleTurnId q registered.handle = some (provisionalTurnId request)) :
    (rollbackSend request registered q).registration =
      { (q.unregisterTurns request.sessionId (provisionalTurnId request) (provisionalTurnId request)).registration with
        latestTurnIds := ((q.unregisterTurns request.sessionId (provisionalTurnId request)
          (provisionalTurnId request)).retainLatestTurn request.sessionId (provisionalTurnId request)
            (provisionalTurnId request) registered.previousLatestTurnId).latestTurnIds
        sessions := (((q.unregisterTurns request.sessionId (provisionalTurnId request)
          (provisionalTurnId request)).retainLatestTurn request.sessionId (provisionalTurnId request)
            (provisionalTurnId request) registered.previousLatestTurnId).restoreSession request.sessionId
              (provisionalTurnId request) (provisionalTurnId request) registered.previousSession).sessions } := by
  unfold rollbackSend OmnigentHttpProvider.rollbackTurnRegistration
  rw [hid]
  dsimp only [Option.getD_some]
  rw [registration_onStreams, registration_restoreSession, registration_retainLatestTurn]

theorem takenBack_rollbackSend (hq : q.registration = (registerTurn request now p).2.registration)
    (hid : handleTurnId q (registerTurn request now p).1.handle = some (provisionalTurnId request)) :
    TakenBack request.sessionId (provisionalTurnId request) p.registration
      (rollbackSend request (registerTurn request now p).1 q).registration := by
  obtain ⟨hsessions,hlatest,hturns,hprovisional,hnative,hqueued,haliases,horder⟩ :=
    TurnRegistration.mk.inj (hq.trans (registration_registerTurn request now p))
  rw [registration_rollbackSend hid]
  have hu := registration_unregisterTurns q request.sessionId (provisionalTurnId request)
  generalize q.unregisterTurns request.sessionId (provisionalTurnId request) (provisionalTurnId request) = u at hu ⊢
  have hus : u.sessions = q.sessions := congrArg TurnRegistration.sessions hu
  have hul : u.latestTurnIds = q.latestTurnIds := congrArg TurnRegistration.latestTurnIds hu
  have hv := registration_retainLatestTurn u request.sessionId (provisionalTurnId request)
    (registerTurn request now p).1.previousLatestTurnId
  have hactive : ∀ info, p.sessions.get? request.sessionId = some info →
      q.activeTurnId request.sessionId = some (provisionalTurnId request) := by
    intro info hinfo
    have hset : q.sessions = _ := hsessions
    rw [hinfo] at hset
    simp [OmnigentHttpProvider.activeTurnId, hset]
  have huntracked : p.sessions.get? request.sessionId = none → q.sessions.get? request.sessionId = none := by
    intro hnone
    have hset : q.sessions = _ := hsessions
    rw [hnone] at hset
    rw [hset, hnone]
  have hqactive : ∀ id, u.activeTurnId request.sessionId = some id → id = provisionalTurnId request := by
    intro id hid'
    cases hp : p.sessions.get? request.sessionId with
    | none => simp [OmnigentHttpProvider.activeTurnId, hus, huntracked hp] at hid'
    | some info =>
      have h := hactive info hp
      unfold OmnigentHttpProvider.activeTurnId at h hid'
      rw [hus, h] at hid'
      exact (Option.some.inj hid').symm
  refine ⟨fun key => ?_,fun key => ?_,fun key => ?_,fun key => ?_,fun key => ?_,fun key => ?_,?_,?_⟩
  · rw [hu]
    simp only [Dictionary.get?_erase, (hturns : q.turns = _), Dictionary.get?_set]
    split_ifs <;> rfl
  · rw [hu]
    simp only [Dictionary.get?_erase, (hprovisional : q.provisionalTurnKeys = _), KeySet.add, Dictionary.get?_set]
    split_ifs <;> rfl
  · rw [hu]
    simp only [Dictionary.get?_erase, (hnative : q.nativePendingTurnKeys = _)]
    split_ifs <;> rfl
  · rw [hu]
    simp only [Dictionary.get?_erase, (hqueued : q.queuedOnlyTurnKeys = _)]
    split_ifs <;> rfl
  · rw [hu]
    simp only [Dictionary.get?_filterEntries, Dictionary.get?_erase, (haliases : q.provisionalTurnAliases = _)]
    split_ifs <;> rfl
  · have hq' : q.provisionalTurnOrder.get? request.sessionId =
        some ((p.provisionalTurnOrder.get? request.sessionId).getD [] ++ [provisionalTurnId request]) := by
      rw [(horder : q.provisionalTurnOrder = _), Dictionary.get?_set_self]
    have hlast : [provisionalTurnId request].filter (fun id => decide (id ≠ provisionalTurnId request)) = [] := by simp
    rw [hu]
    refine (order_withoutProvisionalTurns q hq' key).trans ?_
    rw [List.filter_append, hlast, List.append_nil]
    split_ifs with hkey
    · rfl
    · rw [(horder : q.provisionalTurnOrder = _), Dictionary.get?_set_of_ne _ _ hkey]
      rfl
  · refine latest_retainLatestTurn _ ?_ hqactive
    rw [hul, (hlatest : q.latestTurnIds = _), Dictionary.get?_set_self]
  · have hvs : (u.retainLatestTurn request.sessionId (provisionalTurnId request) (provisionalTurnId request)
        (registerTurn request now p).1.previousLatestTurnId).sessions = q.sessions := (congrArg TurnRegistration.sessions hv).trans hus
    have hvt : ∀ id, (u.retainLatestTurn request.sessionId (provisionalTurnId request) (provisionalTurnId request)
        (registerTurn request now p).1.previousLatestTurnId).registration.knows request.sessionId id =
          u.registration.knows request.sessionId id := by
      intro id
      rw [hv]
      rfl
    refine (info_restoreSession (fun info hinfo => ?_) (fun hnone => ?_)).trans ?_
    · unfold OmnigentHttpProvider.activeTurnId
      rw [hvs]
      exact hactive info hinfo
    · rw [hvs]
      exact huntracked hnone
    · rw [funext hvt]
      rfl

end Rollback
end OmniagentPlus.OmnigentTransport
