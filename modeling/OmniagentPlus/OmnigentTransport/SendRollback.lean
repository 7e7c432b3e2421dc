import OmniagentPlus.OmnigentTransport.TurnRegistration
import OmniagentPlus.OmnigentTransport.ProviderSystem
import OmniagentPlus.OmnigentTransport.SessionAdmission

/-! A send that fails while nothing else happens on its session: exactly when the session and the
registries of turns are as they were before it. -/
namespace OmniagentPlus.OmnigentTransport
open OmniagentPlus.Foundation OmniagentPlus.CoreContracts
variable {ν : Type}

section Inputs

/-- The message goes to the server. -/
def posts : Exchange (Action ν) → Bool
  | ⟨_,.sendTurn _,_⟩ => true
  | _ => false

/-- The server takes the message. -/
def accepts : Exchange (Action ν) → Bool
  | ⟨_,.sendTurn _,.ok (.accepted _ _)⟩ | ⟨_,.sendTurn _,.ok .handled⟩ => true
  | _ => false

/-- The store of fences fails. -/
def failsStore : Exchange (Action ν) → Bool
  | ⟨_,.readFence _,.error _⟩ | ⟨_,.writeFence _ _,.error _⟩ => true
  | _ => false

/-- The store of fences says that the session was closed. -/
def closes : Exchange (Action ν) → Bool
  | ⟨_,.readFence _,.ok state⟩ => state.closed
  | _ => false

/-- Nothing of the kind. -/
def Silent (trace : List (Exchange (Action ν))) : Prop :=
  trace.any posts = false ∧ trace.any accepts = false ∧ trace.any failsStore = false ∧ trace.any closes = false

/-- The session is closed already, or not known. -/
def TurnRegistration.ClosedAlready (r : TurnRegistration ν) (sessionId : Text) : Prop :=
  ∀ info, r.sessions.get? sessionId = some info → info.state = .closed ∧ info.activeTurnId = none

/-- A message that went out was not taken, its turn is one that can be taken back, and the store of fences
did not fail; a message that did not go out was not kept from it by news that the session is closed. -/
def Undoes (request : SendTurnRequest) (r : TurnRegistration ν) (trace : List (Exchange (Action ν))) : Prop :=
  if trace.any posts then r.Restorable request.sessionId (provisionalTurnId request) ∧ trace.any accepts = false ∧
    trace.any failsStore = false
  else trace.any closes = true → r.ClosedAlready request.sessionId

theorem undoes_of_posts {request : SendTurnRequest} {r : TurnRegistration ν} {trace : List (Exchange (Action ν))}
    (hposts : trace.any posts = true) (hr : r.Restorable request.sessionId (provisionalTurnId request))
    (haccepts : trace.any accepts = false) (hfails : trace.any failsStore = false) : Undoes request r trace := by
  unfold Undoes
  rw [if_pos hposts]
  exact ⟨hr,haccepts,hfails⟩

end Inputs

section Ends
variable (request : SendTurnRequest)

def TurnRegistration.orderLength (r : TurnRegistration ν) (sessionId : Text) : ℕ :=
  ((r.provisionalTurnOrder.get? sessionId).getD []).length

/-- What a send whose message went out leaves: the turn stands, or is taken back. -/
def PostedEnds (r : TurnRegistration ν) (trace : List (Exchange (Action ν))) (r' : TurnRegistration ν) : Prop :=
  trace.any posts = true ∧
    ((trace.any accepts = true ∨ trace.any failsStore = true) ∧ r.orderLength request.sessionId < r'.orderLength request.sessionId ∨
      trace.any accepts = false ∧ trace.any failsStore = false ∧
        TakenBack request.sessionId (provisionalTurnId request) r r')

/-- What a send leaves. -/
def SendEnds (r : TurnRegistration ν) (trace : List (Exchange (Action ν))) (r' : TurnRegistration ν) : Prop :=
  PostedEnds request r trace r' ∨ trace.any posts = false ∧ ∃ p : OmnigentHttpProvider ν, p.registration = r ∧
    r' = (p.closeTracked request.sessionId (trace.any closes)).registration

variable {request} {r r' : TurnRegistration ν} {trace rest : List (Exchange (Action ν))}

theorem SendEnds.append_silent (h : SendEnds request r trace r') (hrest : Silent rest) :
    SendEnds request r (trace ++ rest) r' := by
  obtain ⟨hposts,haccepts,hfails,hcloses⟩ := hrest
  simp only [SendEnds, PostedEnds, List.any_append, hposts, haccepts, hfails, hcloses, Bool.or_false]
  exact h

theorem SendEnds.silent_append (h : SendEnds request r trace r') (hrest : Silent rest) :
    SendEnds request r (rest ++ trace) r' := by
  obtain ⟨hposts,haccepts,hfails,hcloses⟩ := hrest
  simp only [SendEnds, PostedEnds, List.any_append, hposts, haccepts, hfails, hcloses, Bool.false_or]
  exact h

theorem Silent.append (h : Silent trace) (hrest : Silent rest) : Silent (trace ++ rest) := by
  obtain ⟨hposts,haccepts,hfails,hcloses⟩ := h
  obtain ⟨hposts',haccepts',hfails',hcloses'⟩ := hrest
  simp [Silent, hposts, haccepts, hfails, hcloses, hposts', haccepts', hfails', hcloses']

theorem PostedEnds.append_before (h : PostedEnds request r trace r') (hposts : rest.any posts = false)
    (haccepts : rest.any accepts = false) (hfails : rest.any failsStore = false) :
    PostedEnds request r (rest ++ trace) r' := by
  simp only [PostedEnds, List.any_append, hposts, haccepts, hfails, Bool.false_or]
  exact h

/-- The order shows that a turn still stands. -/
theorem not_sameTurns (sessionId : Text) (h : r.orderLength sessionId < r'.orderLength sessionId) :
    ¬SameTurns sessionId r r' := by
  intro hs
  rw [TurnRegistration.orderLength, TurnRegistration.orderLength, hs.order] at h
  omega

/-- A session that is closed by news of it is as before where it was closed. -/
theorem sameTurns_closeTracked (p : OmnigentHttpProvider ν) (sessionId : Text) :
    SameTurns sessionId p.registration (p.closeTracked sessionId true).registration ↔
      p.registration.ClosedAlready sessionId := by
  unfold OmnigentHttpProvider.closeTracked OmnigentHttpProvider.updateSession TurnRegistration.ClosedAlready
  rw [if_pos rfl]
  cases hp : p.sessions.get? sessionId with
  | none =>
    refine ⟨fun _ info hinfo => ?_,fun _ => SameTurns.refl sessionId _⟩
    rw [show p.registration.sessions.get? sessionId = none from hp] at hinfo
    cases hinfo
  | some info =>
    constructor
    · intro hs info' hinfo
      obtain rfl : info = info' := Option.some.inj (hp.symm.trans hinfo)
      have h := hs.info
      simp only [registration_setSession, Dictionary.get?_set_self, Option.map_some,
        show p.registration.sessions.get? sessionId = some info from hp, Option.some.injEq, Prod.mk.injEq] at h
      exact ⟨h.1.symm,h.2.symm⟩
    · intro hclosed
      obtain ⟨hstate,hactive⟩ := hclosed info hp
      refine ⟨?_,rfl,fun _ => rfl,fun _ => rfl,fun _ => rfl,fun _ => rfl,fun _ => rfl,fun _ => rfl⟩
      simp [registration_setSession, show p.registration.sessions.get? sessionId = some info from hp, hstate, hactive]

theorem SendEnds.sameTurns_iff (h : SendEnds request r trace r') :
    SameTurns request.sessionId r r' ↔ Undoes request r trace := by
  unfold Undoes
  rcases h with ⟨hposts,⟨hstands,hlength⟩ | ⟨haccepts,hfails,hback⟩⟩ | ⟨hposts,p,rfl,rfl⟩
  · rw [if_pos hposts]
    refine iff_of_false (not_sameTurns _ hlength) ?_
    rintro ⟨-,haccepts,hfails⟩
    rcases hstands with h | h
    · rw [haccepts] at h
      cases h
    · rw [hfails] at h
      cases h
  · rw [if_pos hposts, hback.sameTurns_iff]
    exact ⟨fun hr => ⟨hr,haccepts,hfails⟩,fun hr => hr.1⟩
  · rw [if_neg (by simp [hposts])]
    cases hcloses : trace.any closes with
    | false => exact iff_of_true (SameTurns.refl _ _) (fun h => by cases h)
    | true => exact (sameTurns_closeTracked p request.sessionId).trans ⟨fun h _ => h,fun h => h rfl⟩

end Ends

section Parts
variable {α : Type} {w : World ν} {pid : ℕ} {op : Operation}
  {E : List (Exchange (Action ν)) → Except (ProviderError ν) α → World ν → Prop}

@[simp] theorem World.providers_setProvider_self (w : World ν) (client : ℕ) (p : OmnigentHttpProvider ν) :
    (w.setProvider client p).providers client = p := Function.update_self _ _ _

theorem World.providers_release (w : World ν) (pid : ℕ) (sessionId : Text) :
    (w.release pid sessionId).providers = w.providers := by
  unfold World.release
  split_ifs <;> rfl

theorem alone_sync {segment : Segment ν α}
    (h : E [⟨_,.sync segment,(segment (w.providers op.client)).1⟩] (segment (w.providers op.client)).1
      (w.setProvider op.client (segment (w.providers op.client)).2)) :
    Process.AloneEnsures (anyWorld ν) pid op (Async.sync segment).run w E := by
  refine Process.aloneEnsures_action fun c outcome t hx => ?_
  replace hx : World.answer pid op.client _ w c = some (outcome,t) := hx
  cases c <;> simp only [World.answer, Option.some.injEq, Prod.mk.injEq, reduceCtorEq] at hx
  obtain ⟨rfl,rfl⟩ := hx
  exact h

/-- An action that leaves the world as it is. -/
theorem alone_quiet {x : Action ν (Except (ProviderError ν) α)} (hx : x.isQuiet = true)
    (h : ∀ outcome, E [⟨_,x,outcome⟩] outcome w) : Process.AloneEnsures (anyWorld ν) pid op (perform x).run w E := by
  refine Process.aloneEnsures_action fun c outcome t hstep => ?_
  obtain rfl := World.answer_quiet hx hstep
  exact h outcome

theorem alone_now : Process.AloneEnsures (anyWorld ν) pid op (perform .now).run w
    (fun trace outcome w' => w' = w ∧ Silent trace ∧ ∃ now, outcome = .ok now) := by
  refine Process.aloneEnsures_action fun c outcome t hx => ?_
  replace hx : World.answer pid op.client _ w c = some (outcome,t) := hx
  cases c <;> simp only [World.answer, Option.some.injEq, Prod.mk.injEq, reduceCtorEq] at hx
  obtain ⟨rfl,rfl⟩ := hx
  exact ⟨rfl,⟨rfl,rfl,rfl,rfl⟩,_,rfl⟩

variable {options : OmnigentHttpClientOptions} {request : SendTurnRequest} {r : TurnRegistration ν}
  {registered : RegisteredTurn ν}

theorem length_renamedOrder {order : Option (List Text)} {previousTurnId nextTurnId : Text} {restoreOrder : Bool}
    {renamed : List Text} (h : OmnigentHttpProvider.renamedOrder order previousTurnId nextTurnId restoreOrder = some renamed) :
    (order.getD []).length ≤ renamed.length := by
  unfold OmnigentHttpProvider.renamedOrder at h
  split at h
  · split_ifs at h <;> cases h <;> simp
  · simp

theorem orderLength_setProvisionalOrder (p : OmnigentHttpProvider ν) (sessionId other previousTurnId nextTurnId : Text)
    (restoreOrder : Bool) : p.registration.orderLength other ≤ (p.setProvisionalOrder sessionId
      (OmnigentHttpProvider.renamedOrder (p.provisionalTurnOrder.get? sessionId) previousTurnId nextTurnId
        restoreOrder)).registration.orderLength other := by
  unfold OmnigentHttpProvider.setProvisionalOrder TurnRegistration.orderLength
  split
  case h_1 renamed hrenamed =>
    have hlength := length_renamedOrder hrenamed
    by_cases hother : other = sessionId
    · subst hother
      simpa [OmnigentHttpProvider.registration] using hlength
    · simp [OmnigentHttpProvider.registration, Dictionary.get?_set_of_ne _ _ hother]
  case h_2 => exact le_rfl

theorem orderLength_moveHandle (p : OmnigentHttpProvider ν) (sessionId other previousTurnId nextTurnId : Text)
    (change : MutableTurnHandle → MutableTurnHandle) :
    (p.moveHandle sessionId previousTurnId nextTurnId change).registration.orderLength other =
      p.registration.orderLength other := by
  unfold OmnigentHttpProvider.moveHandle
  split <;> rfl

theorem orderLength_renameLatestTurn (p : OmnigentHttpProvider ν) (sessionId other previousTurnId nextTurnId : Text) :
    (p.renameLatestTurn sessionId previousTurnId nextTurnId).registration.orderLength other =
      p.registration.orderLength other := by
  unfold OmnigentHttpProvider.renameLatestTurn
  split_ifs <;> rfl

theorem orderLength_changeActiveTurn (p : OmnigentHttpProvider ν) (sessionId other previousTurnId : Text)
    (change : AgentSessionInfo ν → AgentSessionInfo ν) :
    (p.changeActiveTurn sessionId previousTurnId change).registration.orderLength other =
      p.registration.orderLength other := by
  unfold OmnigentHttpProvider.changeActiveTurn OmnigentHttpProvider.updateSession
  split_ifs
  · split <;> rfl
  · rfl

theorem orderLength_queueTurn (p : OmnigentHttpProvider ν) (sessionId turnId : Text) :
    p.registration.orderLength sessionId ≤ (queueTurn request turnId p).registration.orderLength sessionId := by
  unfold queueTurn TurnRegistration.orderLength
  dsimp only [OmnigentHttpProvider.registration]
  split_ifs
  · exact le_rfl
  · by_cases hs : sessionId = request.sessionId
    · subst hs
      simp
    · rw [Dictionary.get?_set_of_ne _ _ hs]

theorem orderLength_replaceProvisionalTurnId (p : OmnigentHttpProvider ν) (sessionId other previousTurnId nextTurnId : Text)
    (restoreOrder : Bool) : p.registration.orderLength other ≤
      (p.replaceProvisionalTurnId sessionId previousTurnId nextTurnId restoreOrder).registration.orderLength other := by
  unfold OmnigentHttpProvider.replaceProvisionalTurnId
  dsimp only
  split_ifs
  · rw [registration_onStreams, orderLength_changeActiveTurn, orderLength_renameLatestTurn]
    refine le_trans (le_of_eq ?_) (orderLength_setProvisionalOrder _ _ _ _ _ _)
    exact (orderLength_moveHandle p sessionId other previousTurnId nextTurnId _).symm
  · exact le_rfl

theorem orderLength_notePendingInput (p : OmnigentHttpProvider ν) (sessionId : Text) (handle : ℕ)
    (item_id pending_id : Option Text) : p.registration.orderLength sessionId ≤
      (notePendingInput request handle item_id pending_id p).registration.orderLength sessionId := by
  unfold notePendingInput
  split
  case h_1 pendingId _ =>
    have hstreams : (p.onStreams request.sessionId (fun stream => stream.removeFallbackTurnId pendingId)
        ).registration.orderLength sessionId = p.registration.orderLength sessionId := by rw [registration_onStreams]
    dsimp only
    split_ifs
    · exact hstreams.ge
    · exact hstreams.ge
  case h_2 => exact le_rfl
  case h_3 =>
    split_ifs
    · exact orderLength_queueTurn _ _ _
    · exact le_rfl

theorem orderLength_acknowledgeTurn (p : OmnigentHttpProvider ν) (sessionId : Text) (handle : ℕ) (item_id pending_id : Option Text) :
    p.registration.orderLength sessionId ≤
      (acknowledgeTurn request handle item_id pending_id p).registration.orderLength sessionId := by
  have hclaim : (claimItem request item_id p).registration = p.registration := by
    unfold claimItem
    split <;> rfl
  have hname : (claimItem request item_id p).registration.orderLength sessionId ≤
      (nameAcknowledgedTurn request handle item_id pending_id (claimItem request item_id p)).registration.orderLength
        sessionId := by
    unfold nameAcknowledgedTurn
    dsimp only
    split
    · split_ifs
      · exact orderLength_replaceProvisionalTurnId _ _ _ _ _ _
      · exact le_rfl
    · exact le_rfl
  rw [← hclaim]
  exact hname.trans (orderLength_notePendingInput _ _ _ _ _)

theorem postTurn_ends : Process.AloneEnsures (anyWorld ν) pid op (postTurn request registered).run w
    (fun trace outcome w' => trace.any posts = true ∧ trace.any failsStore = false ∧ match outcome with
      | .ok _ => trace.any accepts = true ∧ (w.providers op.client).registration.orderLength request.sessionId ≤
          (w'.providers op.client).registration.orderLength request.sessionId
      | .error _ => trace.any accepts = false ∧ w' = w) := by
  refine Process.AloneEnsures.exceptBind (K := fun trace outcome w' => w' = w ∧ trace = [⟨_,.sendTurn request,outcome⟩])
    (alone_quiet rfl fun outcome => ⟨rfl,rfl⟩) ?_ ?_
  · rintro _ ack _ ⟨rfl,rfl⟩
    cases ack with
    | denied reason => exact Process.aloneEnsures_throw ⟨rfl,rfl,rfl,rfl⟩
    | handled =>
      refine alone_sync ⟨rfl,rfl,rfl,?_⟩
      rw [World.providers_setProvider_self]
      exact orderLength_acknowledgeTurn _ _ _ _ _
    | accepted item_id pending_id =>
      refine alone_sync ⟨rfl,rfl,rfl,?_⟩
      rw [World.providers_setProvider_self]
      exact orderLength_acknowledgeTurn _ _ _ _ _
  · rintro _ e _ ⟨rfl,rfl⟩
    exact ⟨rfl,rfl,rfl,rfl⟩

theorem persistRejectedTurnIdentities_ends (sessionId : Text) (turnIds : List Text) :
    Process.AloneEnsures (anyWorld ν) pid op (persistRejectedTurnIdentities options sessionId turnIds).run w
      (fun trace outcome w' => trace.any posts = false ∧ trace.any accepts = false ∧ w'.providers = w.providers ∧
        match outcome with
        | .ok _ => trace.any failsStore = false
        | .error _ => trace.any failsStore = true) := by
  unfold persistRejectedTurnIdentities
  split_ifs
  · refine Process.AloneEnsures.exceptBind (K := fun trace outcome w' => w' = w ∧
      trace = [⟨_,.readFence sessionId,outcome⟩]) (alone_quiet rfl fun outcome => ⟨rfl,rfl⟩) ?_ ?_
    · rintro _ state _ ⟨rfl,rfl⟩
      refine Process.aloneEnsures_action fun c outcome t hx => ?_
      replace hx : World.answer pid op.client _ _ c = some (outcome,t) := hx
      cases c <;> simp only [World.answer, Option.some.injEq, Prod.mk.injEq, reduceCtorEq] at hx
      all_goals
        obtain ⟨rfl,rfl⟩ := hx
        exact ⟨rfl,rfl,rfl,rfl⟩
    · rintro _ e _ ⟨rfl,rfl⟩
      exact ⟨rfl,rfl,rfl,rfl⟩
  · exact Process.aloneEnsures_pure ⟨rfl,rfl,rfl,rfl⟩

variable (request) in
/-- The turn is added to the order. -/
theorem orderLength_registerTurn (now : Text) (p : OmnigentHttpProvider ν) :
    (registerTurn request now p).2.registration.orderLength request.sessionId =
      p.registration.orderLength request.sessionId + 1 := by
  rw [registration_registerTurn]
  simp [TurnRegistration.orderLength, OmnigentHttpProvider.registration]

theorem handles_onStreams (p : OmnigentHttpProvider ν) (sessionId : Text) (call : OmnigentSseNormalizer → OmnigentSseNormalizer) :
    (p.onStreams sessionId call).handles = p.handles := by
  unfold OmnigentHttpProvider.onStreams
  split <;> rfl

variable (request) in
theorem handleTurnId_registerTurn (now : Text) (p : OmnigentHttpProvider ν) :
    handleTurnId (registerTurn request now p).2 (registerTurn request now p).1.handle = some (provisionalTurnId request) := by
  simp only [handleTurnId, registerTurn, handles_onStreams, OmnigentHttpProvider.updateSession]
  cases p.sessions.get? request.sessionId <;> simp [OmnigentHttpProvider.setSession]

theorem handles_rejectTurnIdentities (p : OmnigentHttpProvider ν) (sessionId turnId : Text) :
    (p.rejectTurnIdentities sessionId turnId turnId).handles = p.handles := by
  unfold OmnigentHttpProvider.rejectTurnIdentities
  rw [if_pos rfl]
  exact handles_onStreams (p.rejectTurnKey sessionId turnId) sessionId _

/-- A turn that still has its provisional name is rejected or not, and then taken back, at once or once that is durable. -/
theorem failSend_cases {q : OmnigentHttpProvider ν} (hid : handleTurnId q registered.handle = some (provisionalTurnId request))
    (error : ProviderError ν) : ∃ q', q'.registration = q.registration ∧
      handleTurnId q' registered.handle = some (provisionalTurnId request) ∧
        (failSend request registered error q = (.persist (provisionalTurnId request),q') ∨
          failSend request registered error q = (.rolledBack,rollbackSend request registered q')) := by
  unfold failSend
  simp only [hid, Option.getD_some, ne_eq, not_true_eq_false, decide_false, Bool.or_false, if_false]
  split_ifs
  · refine ⟨_,registration_rejectTurnIdentities q _ _ _,?_,.inl rfl⟩
    rwa [handleTurnId, handles_rejectTurnIdentities]
  · refine ⟨_,registration_rejectTurnIdentities q _ _ _,?_,.inr rfl⟩
    rwa [handleTurnId, handles_rejectTurnIdentities]
  · exact ⟨q,rfl,hid,.inr rfl⟩

theorem sendRegisteredTurn_ends {now : Text} {p : OmnigentHttpProvider ν}
    (hw : w.providers op.client = (registerTurn request now p).2) :
    Process.AloneEnsures (anyWorld ν) pid op (sendRegisteredTurn options request (registerTurn request now p).1).run w
      (fun trace _ w' => PostedEnds request p.registration trace (w'.providers op.client).registration) := by
  have hid := handleTurnId_registerTurn request now p
  have hlength := orderLength_registerTurn request now p
  refine Process.AloneEnsures.attemptBind postTurn_ends fun trace outcome w' hpost => ?_
  obtain ⟨hposts,hfails,hpost⟩ := hpost
  cases outcome with
  | ok _ =>
    refine Process.aloneEnsures_pure ⟨by simp [hposts],.inl ⟨.inl (by simp [hpost.1]),?_⟩⟩
    have hle := hpost.2
    rw [hw] at hle
    omega
  | error error =>
    obtain ⟨haccepts,rfl⟩ := hpost
    obtain ⟨q,hq,hidq,hcases⟩ := failSend_cases hid error
    have hback := takenBack_rollbackSend hq hidq
    refine Process.AloneEnsures.exceptBind (K := fun rest outcome w'' => Silent rest ∧
      outcome = .ok (failSend request (registerTurn request now p).1 error (registerTurn request now p).2).1 ∧
      w''.providers op.client = (failSend request (registerTurn request now p).1 error (registerTurn request now p).2).2)
      (alone_sync ?_) ?_ ?_
    · rw [hw, World.providers_setProvider_self]
      exact ⟨⟨rfl,rfl,rfl,rfl⟩,rfl,rfl⟩
    · rintro rest failed w'' ⟨⟨hrposts,hraccepts,hrfails,-⟩,hfailed,hw''⟩
      cases hfailed
      rcases hcases with hcase | hcase
      · rw [hcase] at hw'' ⊢
        refine Process.AloneEnsures.exceptBind (persistRejectedTurnIdentities_ends _ _) ?_ ?_
        · rintro more _ v ⟨hmposts,hmaccepts,hproviders,hmfails⟩
          refine Process.AloneEnsures.exceptBind (K := fun last outcome v' => Silent last ∧ outcome = .ok () ∧
            v'.providers op.client = rollbackSend request (registerTurn request now p).1 q) (alone_sync ?_) ?_ ?_
          · rw [hproviders, hw'', World.providers_setProvider_self]
            exact ⟨⟨rfl,rfl,rfl,rfl⟩,rfl,rfl⟩
          · rintro last _ v' ⟨⟨hlposts,hlaccepts,hlfails,-⟩,-,hv'⟩
            refine Process.aloneEnsures_throw ⟨by simp [hposts],.inr ⟨?_,?_,?_⟩⟩
            · simp [haccepts, hraccepts, hmaccepts, hlaccepts]
            · simp [hfails, hrfails, hmfails, hlfails]
            · rw [hv']
              exact hback
          · rintro last e v' ⟨-,⟨⟩,-⟩
        · rintro more e v ⟨hmposts,hmaccepts,hproviders,hmfails⟩
          refine ⟨by simp [hposts],.inl ⟨.inr (by simp [hmfails]),?_⟩⟩
          rw [hproviders, hw'', hq]
          omega
      · rw [hcase] at hw'' ⊢
        refine Process.aloneEnsures_throw ⟨by simp [hposts],.inr ⟨?_,?_,?_⟩⟩
        · simp [haccepts, hraccepts]
        · simp [hfails, hrfails]
        · rw [hw'']
          exact hback
    · rintro rest e w'' ⟨-,⟨⟩,-⟩

/-- Code that leaves the registries alone. -/
def unregistering (ν : Type) : Allowance ν where
  allows p q := q.registration = p.registration
  refl _ := rfl
  trans _ _ _ h h' := h'.trans h

theorem registration_heedFence (sharedState : Option OmnigentSessionMutationFenceState) (p : OmnigentHttpProvider ν) :
    (heedFence request sharedState p).2.registration =
      (p.closeTracked request.sessionId (sharedState.any (·.closed))).registration := by
  cases sharedState with
  | none => rfl
  | some state =>
    refine Eq.trans ?_ (registration_installShared p request.sessionId state)
    exact Segment.within_require (R := unregistering ν) _ _ (p.installSharedSessionMutationState request.sessionId state)

theorem allows_after {β : Type} {R : Allowance ν} {x : Segment ν α} {f : α → Segment ν β} (hf : ∀ a, (f a).Within R)
    (p : OmnigentHttpProvider ν) : R.allows (x p).2 ((x >>= f) p).2 := by
  have hstep : (x >>= f) p = ExceptT.bindCont f (x p).1 (x p).2 := rfl
  rw [hstep]
  cases (x p).1 with
  | ok a => exact hf a _
  | error e => exact R.refl _

variable (options request) in
/-- Of what a send is checked against only news that the session is closed changes the registries. -/
theorem registration_admitTurn (sharedState : Option OmnigentSessionMutationFenceState) (p : OmnigentHttpProvider ν) :
    (admitTurn options request sharedState p).2.registration =
      (p.closeTracked request.sessionId (sharedState.any (·.closed))).registration := by
  rw [← registration_heedFence]
  refine allows_after (R := unregistering ν) (fun _ => ?_) p
  refine Segment.Within.bind (Segment.within_check _ _) fun _ => Segment.Within.bind (Segment.within_check _ _) fun _ => ?_
  refine Segment.Within.bind (Segment.within_check _ _) fun _ => Segment.Within.bind (Segment.within_look _) fun _ => ?_
  exact Segment.within_require _ _

variable (request) in
/-- A turn is registered once a check lets it. -/
theorem register_cases (x : Segment ν Unit) (now : Text) (p : OmnigentHttpProvider ν) :
    ((x p).1 = .ok () ∧ (do x; Segment.take (registerTurn request now) : Segment ν (RegisteredTurn ν)) p =
        (.ok (registerTurn request now (x p).2).1,(registerTurn request now (x p).2).2)) ∨
      ∃ e, (do x; Segment.take (registerTurn request now) : Segment ν (RegisteredTurn ν)) p = (.error e,(x p).2) := by
  have hstep : (do x; Segment.take (registerTurn request now) : Segment ν (RegisteredTurn ν)) p =
    ExceptT.bindCont (fun _ => Segment.take (registerTurn request now)) (x p).1 (x p).2 := rfl
  rw [hstep]
  cases hx : (x p).1 with
  | ok _ => exact .inl ⟨rfl,rfl⟩
  | error e => exact .inr ⟨e,rfl⟩

theorem sharedStateOfSend_ends : Process.AloneEnsures (anyWorld ν) pid op (sharedStateOfSend options request).run w
    (fun trace outcome w' => w' = w ∧ trace.any posts = false ∧ trace.any accepts = false ∧ match outcome with
      | .ok shared => trace.any failsStore = false ∧ trace.any closes = shared.any (·.closed)
      | .error _ => trace.any closes = false) := by
  unfold sharedStateOfSend
  split_ifs
  · refine Process.AloneEnsures.exceptBind (K := fun trace outcome w' => w' = w ∧ match outcome with
      | .ok state => trace = [⟨_,.readFence request.sessionId,.ok state⟩]
      | .error _ => trace.any posts = false ∧ trace.any accepts = false ∧ trace.any closes = false) ?_ ?_ ?_
    · refine Process.AloneEnsures.exceptBind (K := fun trace _ w' => w' = w ∧ trace = []) ?_ ?_ ?_
      · unfold requireStore
        split_ifs
        · exact Process.aloneEnsures_pure ⟨rfl,rfl⟩
        · exact Process.aloneEnsures_throw ⟨rfl,rfl⟩
      · rintro _ _ _ ⟨rfl,rfl⟩
        refine alone_quiet rfl fun outcome => ⟨rfl,?_⟩
        cases outcome with
        | ok state => rfl
        | error e => exact ⟨rfl,rfl,rfl⟩
      · rintro _ e _ ⟨rfl,rfl⟩
        exact ⟨rfl,rfl,rfl,rfl⟩
    · rintro _ state _ ⟨rfl,rfl⟩
      exact Process.aloneEnsures_pure ⟨rfl,rfl,rfl,rfl,by simp [closes]⟩
    · rintro trace e _ ⟨rfl,hposts,haccepts,hcloses⟩
      exact ⟨rfl,hposts,haccepts,hcloses⟩
  · exact Process.aloneEnsures_pure ⟨rfl,rfl,rfl,rfl,rfl⟩

/-- The turn is registered and sent where a check lets it. -/
theorem registered_ends (x : Segment ν Unit)
    (hx : (x (w.providers op.client)).1 = .ok () → (x (w.providers op.client)).2.registration =
      (w.providers op.client).registration) :
    Process.AloneEnsures (anyWorld ν) pid op (do
      let now ← perform .now
      let registered ← Async.sync (do
        x
        Segment.take (registerTurn request now))
      sendRegisteredTurn options request registered : Async ν ℕ).run w (fun trace _ w' =>
        PostedEnds request (w.providers op.client).registration trace (w'.providers op.client).registration ∨
          Silent trace ∧ (w'.providers op.client).registration = (x (w.providers op.client)).2.registration) := by
  refine Process.AloneEnsures.exceptBind (alone_now (w := w)) ?_ ?_
  · rintro first now v ⟨hv,⟨hposts,haccepts,hfails,hcloses⟩,-⟩
    obtain rfl : v = w := hv
    refine Process.AloneEnsures.exceptBind (K := fun trace outcome w' => Silent trace ∧ outcome =
      ((do x; Segment.take (registerTurn request now) : Segment ν (RegisteredTurn ν)) (v.providers op.client)).1 ∧
        w'.providers op.client =
          ((do x; Segment.take (registerTurn request now) : Segment ν (RegisteredTurn ν)) (v.providers op.client)).2)
      (alone_sync ⟨⟨rfl,rfl,rfl,rfl⟩,rfl,World.providers_setProvider_self _ _ _⟩) ?_ ?_
    · rintro second registered v' ⟨⟨hposts',haccepts',hfails',hcloses'⟩,hregistered,hv'⟩
      rcases register_cases request x now (v.providers op.client) with ⟨hok,hcase⟩ | ⟨e,hcase⟩
      · rw [hcase] at hregistered hv'
        cases hregistered
        refine (sendRegisteredTurn_ends hv').weaken fun rest _ w' hends => .inl ?_
        rw [hx hok] at hends
        exact (hends.append_before hposts' haccepts' hfails').append_before hposts haccepts hfails
      · rw [hcase] at hregistered
        cases hregistered
    · rintro second e v' ⟨⟨hposts',haccepts',hfails',hcloses'⟩,herror,hv'⟩
      refine .inr ⟨?_,?_⟩
      · simp [Silent, hposts, haccepts, hfails, hcloses, hposts', haccepts', hfails', hcloses']
      · rcases register_cases request x now (v.providers op.client) with ⟨hok,hcase⟩ | ⟨e',hcase⟩
        · rw [hcase] at herror
          cases herror
        · rw [hv', hcase]
  · rintro first e v ⟨-,-,_,⟨⟩⟩

theorem sendTurnWithExclusiveLease_ends :
    Process.AloneEnsures (anyWorld ν) pid op (sendTurnWithExclusiveLease options request).run w
      (fun trace _ w' => SendEnds request (w.providers op.client).registration trace (w'.providers op.client).registration) := by
  refine Process.AloneEnsures.exceptBind sharedStateOfSend_ends ?_ ?_
  · rintro trace shared v ⟨hv,hposts,haccepts,hfails,hcloses⟩
    obtain rfl : v = w := hv
    have hadmitted := registration_admitTurn options request shared (v.providers op.client)
    have hopen : (admitTurn options request shared (v.providers op.client)).1 = .ok () →
        shared.any (·.closed) = false := by
      intro hok
      obtain ⟨hshared,-⟩ := admitTurn_ensures shared (v.providers op.client) () trivial hok
      cases shared with
      | none => rfl
      | some state => exact hshared state rfl
    have hrefuses : ∀ {r' : TurnRegistration ν}, r' = ((v.providers op.client).closeTracked request.sessionId
        (shared.any (·.closed))).registration → SendEnds request (v.providers op.client).registration trace r' :=
      fun h => .inr ⟨hposts,_,rfl,by rw [h, hcloses]⟩
    split_ifs
    · refine Process.AloneEnsures.exceptBind (K := fun rest outcome v' => Silent rest ∧
        outcome = (admitTurn options request shared (v.providers op.client)).1 ∧
          v'.providers op.client = (admitTurn options request shared (v.providers op.client)).2)
        (alone_sync ⟨⟨rfl,rfl,rfl,rfl⟩,rfl,World.providers_setProvider_self _ _ _⟩) ?_ ?_
      · rintro rest _ v' ⟨⟨hposts',haccepts',hfails',hcloses'⟩,hok,hv'⟩
        have hsame' : (v'.providers op.client).registration = ((v.providers op.client).closeTracked request.sessionId
            (shared.any (·.closed))).registration := by rw [hv', hadmitted]
        have hsame : (v'.providers op.client).registration = (v.providers op.client).registration := by
          rw [hsame', hopen hok.symm]
          rfl
        refine Process.AloneEnsures.exceptBind (K := fun trace _ w' => w' = v' ∧ Silent trace)
          (alone_quiet rfl fun outcome => ⟨rfl,rfl,rfl,rfl,rfl⟩) ?_ ?_
        · rintro more snapshot v'' ⟨hv'',hmore⟩
          obtain rfl : v'' = v' := hv''
          have hupstream := Segment.within_require (R := unregistering ν)
          refine (registered_ends _ fun _ => hupstream _ _ (v''.providers op.client)).weaken ?_
          rintro last _ w' (hends | ⟨hlast,hrefused⟩)
          · rw [hsame] at hends
            refine .inl (PostedEnds.append_before ?_ hposts haccepts hfails)
            exact (hends.append_before hmore.1 hmore.2.1 hmore.2.2.1).append_before hposts' haccepts' hfails'
          · refine SendEnds.append_silent ?_ (Silent.append ⟨hposts',haccepts',hfails',hcloses'⟩ (hmore.append hlast))
            exact hrefuses ((hrefused.trans (hupstream _ _ _)).trans (hsame'))
        · rintro more e v'' ⟨hv'',hmore⟩
          obtain rfl : v'' = v' := hv''
          exact SendEnds.append_silent (hrefuses hsame') (Silent.append ⟨hposts',haccepts',hfails',hcloses'⟩ hmore)
      · rintro rest e v' ⟨hsilent,-,hv'⟩
        exact SendEnds.append_silent (hrefuses (by rw [hv', hadmitted])) hsilent
    · refine (registered_ends _ ?_).weaken ?_
      · intro hok
        rw [hadmitted, hopen hok]
        rfl
      · rintro rest _ w' (hends | ⟨hsilent,hrefused⟩)
        · exact .inl (hends.append_before hposts haccepts hfails)
        · exact SendEnds.append_silent (hrefuses (hrefused.trans hadmitted)) hsilent
  · rintro trace e v ⟨hv,hposts,haccepts,hcloses⟩
    obtain rfl : v = w := hv
    refine .inr ⟨hposts,_,rfl,?_⟩
    rw [hcloses]
    rfl

/-- Nothing was done yet, or nothing that the registries show. -/
theorem sendEnds_silent {p : OmnigentHttpProvider ν} {trace : List (Exchange (Action ν))} (h : Silent trace) :
    SendEnds request p.registration trace p.registration := by
  refine .inr ⟨h.1,p,rfl,?_⟩
  rw [h.2.2.2]
  rfl

/-- The lease around a send is silent, whether or not it can be taken and given back. -/
theorem runSessionMutation_ends {operation : Async ν ℕ} (h : ∀ w : World ν, Process.AloneEnsures (anyWorld ν) pid op operation.run w
      (fun trace _ w' => SendEnds request (w.providers op.client).registration trace (w'.providers op.client).registration)) :
    Process.AloneEnsures (anyWorld ν) pid op (runSessionMutation options request.sessionId operation).run w
      (fun trace _ w' => SendEnds request (w.providers op.client).registration trace (w'.providers op.client).registration) := by
  unfold runSessionMutation
  split_ifs
  · refine Process.AloneEnsures.exceptBind (K := fun trace _ w' => w'.providers = w.providers ∧ Silent trace) ?_ ?_ ?_
    · refine Process.aloneEnsures_action fun c outcome t hx => ?_
      replace hx : World.answer pid op.client _ w c = some (outcome,t) := hx
      cases c <;> simp only [World.answer, Option.some.injEq, Prod.mk.injEq, reduceCtorEq] at hx
      all_goals
        obtain ⟨rfl,rfl⟩ := hx
        exact ⟨rfl,rfl,rfl,rfl,rfl⟩
    · rintro trace _ v ⟨hv,hsilent⟩
      have hends := h v
      rw [hv] at hends
      refine Process.AloneEnsures.attemptBind hends fun rest outcome v' hsend => ?_
      refine Process.AloneEnsures.exceptBind (K := fun more _ w' => w'.providers = v'.providers ∧ Silent more) ?_ ?_ ?_
      · refine Process.aloneEnsures_action fun c released t hx => ?_
        replace hx : World.answer pid op.client _ v' c = some (released,t) := hx
        cases c <;> simp only [World.answer, Option.some.injEq, Prod.mk.injEq, reduceCtorEq] at hx
        all_goals
          obtain ⟨rfl,rfl⟩ := hx
          exact ⟨World.providers_release _ _ _,rfl,rfl,rfl,rfl⟩
      · rintro more _ v'' ⟨hv'',hmore⟩
        refine Process.aloneEnsures_done ?_
        rw [List.append_nil, hv'']
        exact (hsend.append_silent hmore).silent_append hsilent
      · rintro more e v'' ⟨hv'',hmore⟩
        rw [hv'']
        exact (hsend.append_silent hmore).silent_append hsilent
    · rintro trace e v ⟨hv,hsilent⟩
      rw [hv]
      exact sendEnds_silent hsilent
  · exact h w

theorem sendTurn_ends : Process.AloneEnsures (anyWorld ν) pid op (sendTurn options request).run w
    (fun trace _ w' => SendEnds request (w.providers op.client).registration trace (w'.providers op.client).registration) := by
  have hclaim : ∀ p : OmnigentHttpProvider ν, (claimSend request p).2.registration = p.registration := by
    intro p
    unfold claimSend
    dsimp only
    split <;> rfl
  refine Process.AloneEnsures.exceptBind (K := fun trace _ w' =>
    (w'.providers op.client).registration = (w.providers op.client).registration ∧ Silent trace) (alone_sync ?_) ?_ ?_
  · rw [World.providers_setProvider_self]
    exact ⟨hclaim _,rfl,rfl,rfl,rfl⟩
  · rintro trace claimed v ⟨hv,hsilent⟩
    cases claimed with
    | inl existing =>
      refine alone_quiet rfl fun outcome => ?_
      rw [hv]
      exact sendEnds_silent (hsilent.append ⟨rfl,rfl,rfl,rfl⟩)
    | inr pending =>
      refine Process.AloneEnsures.attemptBind (runSessionMutation_ends fun _ => sendTurnWithExclusiveLease_ends) ?_
      rintro rest outcome v' hsend
      rw [hv] at hsend
      have hend : ∀ (more : List (Exchange (Action ν))) (w' : World ν), (w'.providers op.client).registration =
          (v'.providers op.client).registration → Silent more →
            SendEnds request (w.providers op.client).registration (trace ++ (rest ++ more)) (w'.providers op.client).registration := by
        intro more w' hw' hmore
        rw [hw']
        exact (hsend.append_silent hmore).silent_append hsilent
      refine Process.AloneEnsures.exceptBind (K := fun more _ w' =>
        (w'.providers op.client).registration = (v'.providers op.client).registration ∧ Silent more) (alone_sync ?_) ?_ ?_
      · rw [World.providers_setProvider_self]
        exact ⟨rfl,rfl,rfl,rfl,rfl⟩
      · rintro more _ v'' ⟨hv'',hmore⟩
        cases outcome with
        | ok handle => exact Process.aloneEnsures_pure (hend _ _ hv'' (hmore.append ⟨rfl,rfl,rfl,rfl⟩))
        | error error =>
          dsimp only
          split_ifs
          · refine Process.AloneEnsures.exceptBind (K := fun last _ w' =>
              (w'.providers op.client).registration = (v'.providers op.client).registration ∧ Silent last)
              (alone_sync ?_) ?_ ?_
            · rw [World.providers_setProvider_self]
              exact ⟨hv'',rfl,rfl,rfl,rfl⟩
            · rintro last _ v₃ ⟨hv₃,hlast⟩
              exact Process.aloneEnsures_throw (hend _ _ hv₃ (hmore.append (hlast.append ⟨rfl,rfl,rfl,rfl⟩)))
            · rintro last e v₃ ⟨hv₃,hlast⟩
              exact hend _ _ hv₃ (hmore.append hlast)
          · exact Process.aloneEnsures_throw (hend _ _ hv'' (hmore.append ⟨rfl,rfl,rfl,rfl⟩))
      · rintro more e v'' ⟨hv'',hmore⟩
        exact hend _ _ hv'' hmore
  · rintro trace e v ⟨hv,hsilent⟩
    rw [hv]
    exact sendEnds_silent hsilent

/-- A send that fails with nothing in between leaves the session and the registries of turns as they were
exactly where it could be undone. -/
theorem failedSend_undone_iff {w' : World ν} {trace : List (Exchange (Action ν))} {error : ProviderError ν}
    (hrun : Process.Alone (anyWorld ν) pid op (sendTurn options request).run w trace (.error error) w') :
    SameTurns request.sessionId (w.providers op.client).registration (w'.providers op.client).registration ↔
      Undoes request (w.providers op.client).registration trace :=
  (sendTurn_ends trace (.error error) w' hrun).sameTurns_iff

end Parts

section Samples

/-- A client without a lease whose turns may queue. -/
def queueing : OmnigentHttpClientOptions := ⟨true,false,false⟩

def sampleCreate : CreateSessionRequest := ⟨Text.of "c",Text.of "title"⟩

def sampleSend : SendTurnRequest := ⟨Text.of "s",Text.of "k",Text.of "hello"⟩

/-- The session as the server has it, with a response that some other client asked for, or none. -/
def sampleSnapshot (status : OmnigentSessionStatus) (activeResponseId : Option Text) : OmnigentSessionSnapshot Unit :=
  ⟨activeResponseId,none,Text.of "t",Text.of "s",[],[],status,Text.of "title",Text.of "t"⟩

/-- The client sends on a connection that breaks. -/
def brokenSend : List (Answer Unit) :=
  [.proceeds,.time (Text.of "t"),.proceeds,.fails .network,.proceeds,.proceeds,.proceeds]

def idleWorld : World Unit := (World.initial fun _ => {}).setProvider 0
  (OmnigentHttpProvider.setSession {} (Text.of "s") (toSessionInfo (sampleSnapshot .idle none) none))

/-- An idle session is left idle. -/
theorem failedSend_undone_idle : ∃ trace w', Process.Alone (anyWorld Unit) 1 ⟨0,.sendTurn sampleSend⟩
      (sendTurn queueing sampleSend).run idleWorld trace (.error .network) w' ∧
    SameTurns sampleSend.sessionId (idleWorld.providers 0).registration (w'.providers 0).registration := by
  have hrun := (rfl : Process.runAlone (anyWorld Unit) 1 ⟨0,.sendTurn sampleSend⟩ (sendTurn queueing sampleSend).run
    idleWorld brokenSend = some _)
  refine ⟨_,_,Process.alone_runAlone _ _ _ hrun,?_⟩
  refine (failedSend_undone_iff (Process.alone_runAlone _ _ _ hrun)).mpr ?_
  refine undoes_of_posts rfl ⟨⟨rfl,rfl,rfl,rfl,rfl,?_,?_⟩,rfl,?_⟩ rfl rfl
  · intro key _ h
    cases h
  · intro order h
    cases h
  · intro info h
    cases h
    exact .inl rfl

/-- The session as it is once it was created. -/
def foreignWorld : Option (World Unit) :=
  (Process.runAlone (anyWorld Unit) 0 ⟨0,.createSession sampleCreate⟩ (createSession sampleCreate).run (World.initial fun _ => {})
    [.proceeds,.snapshot (sampleSnapshot .running (some (Text.of "r"))),.proceeds,.proceeds]).map (·.2.2)

/-- A session with a response that this client did not ask for loses it, and is no longer active, once a send fails. -/
theorem foreignTurn_lost : ∃ w trace w', foreignWorld = some w ∧
    Process.Alone (anyWorld Unit) 1 ⟨0,.sendTurn sampleSend⟩ (sendTurn queueing sampleSend).run w trace (.error .network) w' ∧
    ¬SameTurns sampleSend.sessionId (w.providers 0).registration (w'.providers 0).registration := by
  have hworld := (rfl : foreignWorld = some _)
  have hrun := (rfl : Process.runAlone (anyWorld Unit) 1 ⟨0,.sendTurn sampleSend⟩ (sendTurn queueing sampleSend).run
    (foreignWorld.get rfl) brokenSend = some _)
  refine ⟨_,_,_,hworld,Process.alone_runAlone _ _ _ hrun,?_⟩
  intro h
  have hinfo : some (AgentSessionState.idle,(none : Option Text)) = some (.turnActive,some (Text.of "r")) := h.info
  cases hinfo

end Samples
end OmniagentPlus.OmnigentTransport
