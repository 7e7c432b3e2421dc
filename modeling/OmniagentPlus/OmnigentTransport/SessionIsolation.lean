import OmniagentPlus.OmnigentTransport.SegmentsApart
import OmniagentPlus.OmnigentTransport.SessionAdmission
import OmniagentPlus.OmnigentTransport.ProviderSystem
import OmniagentPlus.OmnigentTransport.HistoryLifecycle

/-! Calls for sessions that share no keys: each leaves what is kept of the other sessions as it is,
and a send returns a handle of its own session, whatever else is under way. -/
namespace OmniagentPlus.OmnigentTransport
open OmniagentPlus.Foundation OmniagentPlus.CoreContracts
variable {ν : Type}

/-- The session that a call names. -/
def ProviderCall.sessionId : ProviderCall → Option Text
  | .createSession _ => none
  | .sendTurn request => some request.sessionId
  | .cancelTurn handle => some handle.sessionId
  | .closeSession sessionId | .getSessionInfo sessionId | .readHistory sessionId _ _ | .streamEvents sessionId _ =>
    some sessionId

section Guarantee

/-- Everything that is kept of sessions is as before. -/
structure Spares (p q : OmnigentHttpProvider ν) : Prop where
  part : ∀ t, q.part t = p.part t
  tables : q.turnTables = p.turnTables

/-- What is kept of the other sessions is as before. -/
structure Touches (s : Text) (p q : OmnigentHttpProvider ν) : Prop where
  part : ∀ t, Apart s t → q.part t = p.part t
  handles : KeepsOthers MutableTurnHandle.sessionId s p.handles q.handles
  promises : KeepsOthers SendPromise.sessionId s p.sendPromises q.sendPromises

variable {p q : OmnigentHttpProvider ν} {s t : Text}

theorem spares_refl (p : OmnigentHttpProvider ν) : Spares p p := ⟨fun _ => rfl,rfl⟩

theorem Spares.isolated (h : Spares p q) : Isolated s p q := isolated_of_part h.tables fun t _ => h.part t

theorem Spares.handles (h : Spares p q) : q.handles = p.handles := congrArg (·.2.1) h.tables

theorem Spares.promises (h : Spares p q) : q.sendPromises = p.sendPromises := congrArg (·.2.2.2) h.tables

theorem Beside.touches (h : Beside s p q) : Touches s p q := ⟨h.part,h.handles,h.promises⟩

theorem Spares.unaffected (h : Spares p q) : Unaffected t p q :=
  unaffected_of_part (h.part t) fun _ _ _ => by rw [h.handles]

theorem Touches.unaffected (h : Touches s p q) (ht : Apart s t) : Unaffected t p q :=
  unaffected_of_part (h.part t ht) fun i handle hs => h.handles.others i handle (by rw [hs]; exact ht.ne.symm)

variable (S : Text → Prop)

/-- An operation works on one session at most: the one it names, or one that the server gave out. -/
def Permitted (op : Operation) (s : Text) : Prop := S s ∧ (op.call.sessionId = none ∨ op.call.sessionId = some s)

/-- The keys of the sessions lead to handles of theirs, and each step works on one of them at most. -/
def isolationContract : Contract Operation (World ν) where
  Invariant w := ∀ client s, S s → Owned s (w.providers client)
  Guarantee _ op w w' := ∀ client, Spares (w.providers client) (w'.providers client) ∨
    ∃ s, Permitted S op s ∧ Touches s (w.providers client) (w'.providers client)

/-- The sessions that are worked on are some of these. -/
def Suitable (op : Operation) (w : World ν) : Prop :=
  (∀ s, op.call.sessionId = some s → S s) ∧ ∀ s, (w.created s).isSome = true → S s

/-- Any server, lease and store, as far as the sessions are these. -/
noncomputable def sessionWorld : Interpreter (Action ν) Operation (World ν) (Answer ν) :=
  (anyWorld ν).guarded (Suitable S)

variable {S} {w w' : World ν} {pid : ℕ} {op : Operation}

/-- What no step makes false. -/
def Lasting (S : Text → Prop) (F : World ν → Prop) : Prop :=
  ∀ pid op w w', (isolationContract S).Guarantee pid op w w' → F w → F w'

/-- The handle is one of the session. -/
def HandleOf (client handle : ℕ) (s : Text) (w : World ν) : Prop := (w.providers client).handleSession handle = some s

/-- The promise is one of the session. -/
def PromiseOf (client promise : ℕ) (s : Text) (w : World ν) : Prop :=
  (w.providers client).promiseSession promise = some s

theorem lasting_handleOf {client handle : ℕ} : Lasting (ν := ν) S (HandleOf client handle t) := by
  intro _ _ w w' hg h
  obtain hspared | ⟨_,-,htouched⟩ := hg client
  · unfold HandleOf OmnigentHttpProvider.handleSession
    rw [hspared.handles]
    exact h
  · exact htouched.handles.handleSession h

theorem lasting_promiseOf {client promise : ℕ} : Lasting (ν := ν) S (PromiseOf client promise t) := by
  intro _ _ w w' hg h
  obtain hspared | ⟨_,-,htouched⟩ := hg client
  · unfold PromiseOf OmnigentHttpProvider.promiseSession
    rw [hspared.promises]
    exact h
  · exact htouched.promises.promiseSession h

theorem lasting_true : Lasting (ν := ν) S fun _ => True := fun _ _ _ _ _ _ => trivial

theorem Lasting.stable {F : World ν → Prop} (h : Lasting S F) : (isolationContract S).Stable pid F :=
  fun other op w w' _ _ => h other op w w'

end Guarantee

section Rules
variable {S : Text → Prop} {op : Operation} {α β : Type} {P P' : World ν → Prop} {Q : α → World ν → Prop}
  {K : β → World ν → Prop}

/-- The process keeps the contract, and what it returns meets `Q`. -/
def Confined (S : Text → Prop) (op : Operation) (P : World ν → Prop) (x : Async ν α) (Q : α → World ν → Prop) : Prop :=
  ∀ pid, (isolationContract S).Keeps (sessionWorld S) pid op (fun r w => ∀ a, r = .ok a → Q a w) x.run P

/-- The process keeps the contract. -/
abbrev Local (S : Text → Prop) (op : Operation) (x : Async ν α) : Prop :=
  Confined S op (fun _ => True) x fun _ _ => True

theorem confined_pure (a : α) (h : ∀ w, P w → Q a w) : Confined S op P (pure a) Q :=
  fun _ => Contract.keeps_pure a fun w _ hw _ ha => by cases ha; exact h w hw

theorem confined_throw (e : ProviderError ν) : Confined S op P (throw e) Q :=
  fun _ => Contract.keeps_throw e fun _ _ _ _ ha => by cases ha

theorem Confined.strengthen {x : Async ν α} (h : Confined S op P x Q) (hP : ∀ w, P' w → P w) : Confined S op P' x Q :=
  fun pid => (h pid).strengthen fun w _ => hP w

theorem Confined.weaken {x : Async ν α} {R : α → World ν → Prop} (h : Confined S op P x Q) (hR : ∀ a w, Q a w → R a w) :
    Confined S op P x R := fun pid => (h pid).weaken fun _ w _ hQ a ha => hR a w (hQ a ha)

theorem Confined.bind {x : Async ν β} {f : β → Async ν α} (hx : Confined S op P x K)
    (hf : ∀ b, Confined S op (K b) (f b) Q) : Confined S op P (x >>= f) Q :=
  fun pid => (hx pid).exceptBind (fun b => (hf b pid).strengthen fun _ _ hK => hK b rfl) fun _ _ _ _ _ ha => by cases ha

/-- What lasts outlasts the process. -/
theorem Confined.keeping {F : World ν → Prop} {x : Async ν α} (hF : Lasting S F) (h : Confined S op P x Q) :
    Confined S op (fun w => P w ∧ F w) x fun a w => Q a w ∧ F w := by
  refine fun pid => Contract.Keeps.weaken ((h pid).frame fun other op w w' _ => hF other op w w') fun r w _ hw a ha => ?_
  exact ⟨hw.1 a ha,hw.2⟩

theorem Local.keeping {F : World ν → Prop} {x : Async ν α} (h : Local S op x) (hF : Lasting S F) :
    Confined S op F x fun _ => F :=
  ((Confined.keeping hF h).strengthen fun _ hw => ⟨trivial,hw⟩).weaken fun _ _ hw => hw.2

theorem Confined.attempt {x : Async ν α} (h : Confined S op P x Q) :
    Confined S op P (Process.attempt x) fun r w => ∀ a, r = .ok a → Q a w :=
  fun pid => Contract.Keeps.bind (x := x) (h pid) fun _ _ _ hQ _ hr => by cases hr; exact hQ

theorem Confined.finally' {x : Async ν α} {cleanup : Async ν Unit} (h : Confined S op P x Q) (hQ : ∀ a, Lasting S (Q a))
    (hcleanup : Local S op cleanup) : Confined S op P (Process.finally' x cleanup) Q := by
  refine h.attempt.bind fun r => Confined.bind (hcleanup.keeping fun pid op w w' hg hw a ha => ?_) fun _ pid => ?_
  · exact hQ a pid op w w' hg (hw a ha)
  · exact Contract.keeps_settleWith r fun _ _ hw => hw

/-- Not a stretch of the client's own code. -/
def Action.isRemote : {γ : Type} → Action ν γ → Bool
  | _, .sync _ => false
  | _, _ => true

theorem World.answer_providers {pid client : ℕ} {γ : Type} {x : Action ν γ} (hx : x.isRemote = true) {w w' : World ν}
    {c : Answer ν} {b : γ} (h : World.answer pid client x w c = some (b,w')) : w'.providers = w.providers := by
  have hrelease : ∀ sessionId, (w.release pid sessionId).providers = w.providers := by
    intro sessionId
    unfold World.release
    split_ifs <;> rfl
  cases x
  case sync => cases hx
  case releaseLease sessionId =>
    cases c <;> simp only [World.answer, Option.some.injEq, Prod.mk.injEq, reduceCtorEq] at h
    all_goals rw [← h.2, hrelease]
  case awaitSend =>
    cases c <;> simp only [World.answer, Option.map_eq_some_iff, Prod.mk.injEq, reduceCtorEq] at h
    obtain ⟨_,-,-,rfl⟩ := h
    rfl
  case awaitCreate =>
    cases c <;> simp only [World.answer, Option.map_eq_some_iff, Prod.mk.injEq, reduceCtorEq] at h
    obtain ⟨_,-,-,rfl⟩ := h
    rfl
  all_goals
    cases c <;> simp only [World.answer, Option.some.injEq, Prod.mk.injEq, reduceCtorEq] at h
    all_goals
      obtain ⟨-,rfl⟩ := h
      rfl

/-- A request of the client, by what is known with the answer. -/
theorem confined_remote {x : Action ν (Except (ProviderError ν) α)} (hx : x.isRemote = true)
    (hQ : ∀ pid w c a w', (isolationContract S).Invariant w → Suitable S op w' → P w →
      World.answer pid op.client x w c = some (.ok a,w') → Q a w') (hlast : ∀ a, Lasting S (Q a)) :
    Confined S op P (perform x) Q := by
  refine fun pid => Contract.keeps_action (fun w c b w' hw hP h => ?_) fun r => ?_
  · obtain ⟨hanswer,hsuitable⟩ := (Interpreter.guarded_perform _ _).mp h
    have hproviders := World.answer_providers hx hanswer
    refine ⟨fun client s hs => by rw [hproviders]; exact hw client s hs,fun client => Or.inl ?_,fun a ha => ?_⟩
    · rw [hproviders]
      exact spares_refl _
    · subst ha
      exact hQ pid w c a w' hw hsuitable hP hanswer
  · exact fun other op w w' _ _ hg hr a ha => hlast a other op w w' hg (hr a ha)

theorem local_remote {x : Action ν (Except (ProviderError ν) α)} (hx : x.isRemote = true) : Local S op (perform x) :=
  confined_remote hx (fun _ _ _ _ _ _ _ _ _ => trivial) fun _ => lasting_true

theorem World.setProvider_self (w : World ν) (client : ℕ) (p : OmnigentHttpProvider ν) :
    (w.setProvider client p).providers client = p := Function.update_self ..

theorem World.setProvider_other (w : World ν) {client other : ℕ} (p : OmnigentHttpProvider ν) (h : other ≠ client) :
    (w.setProvider client p).providers other = w.providers other := Function.update_of_ne h ..

variable (hS : ∀ s t, S s → S t → s ≠ t → Apart s t)

include hS in
/-- A stretch of code, by what it does to the client and what is known after it. -/
theorem confined_sync {segment : Segment ν α}
    (hstep : ∀ w, (isolationContract S).Invariant w → Suitable S op w → P w →
      Spares (w.providers op.client) (segment (w.providers op.client)).2 ∨
        ∃ s, Permitted S op s ∧ Isolated s (w.providers op.client) (segment (w.providers op.client)).2)
    (hQ : ∀ w a, (isolationContract S).Invariant w → Suitable S op w → P w →
      (segment (w.providers op.client)).1 = .ok a → Q a (w.setProvider op.client (segment (w.providers op.client)).2))
    (hlast : ∀ a, Lasting S (Q a)) : Confined S op P (Async.sync segment) Q := by
  refine fun pid => Contract.keeps_action (fun w c b w' hw hP h => ?_) fun r => ?_
  · obtain ⟨hanswer,hsuitable⟩ := (Interpreter.guarded_perform _ _).mp h
    change World.answer pid op.client (.sync segment) w c = _ at hanswer
    cases c <;> simp only [World.answer, Option.some.injEq, Prod.mk.injEq, reduceCtorEq] at hanswer
    obtain ⟨rfl,rfl⟩ := hanswer
    have hdone := hstep w hw hsuitable hP
    refine ⟨fun client s hs => ?_,fun client => ?_,fun a ha => hQ w a hw hsuitable hP ha⟩
    · by_cases hclient : client = op.client
      · subst hclient
        rw [World.setProvider_self]
        obtain hspared | ⟨s₀,hs₀,htouched⟩ := hdone
        · exact (hspared.isolated (hw _ s hs)).owned
        · have hbeside := htouched (hw _ s₀ hs₀.1)
          by_cases hss : s₀ = s
          · exact hss ▸ hbeside.owned
          · exact hbeside.owned_apart (hS s₀ s hs₀.1 hs hss) (hw _ s hs)
      · rw [World.setProvider_other _ _ hclient]
        exact hw client s hs
    · by_cases hclient : client = op.client
      · subst hclient
        rw [World.setProvider_self]
        obtain hspared | ⟨s₀,hs₀,htouched⟩ := hdone
        · exact Or.inl hspared
        · exact Or.inr ⟨s₀,hs₀,(htouched (hw _ s₀ hs₀.1)).touches⟩
      · rw [World.setProvider_other _ _ hclient]
        exact Or.inl (spares_refl _)
  · exact fun other op w w' _ _ hg hr a ha => hlast a other op w w' hg (hr a ha)

include hS in
/-- A stretch of code for the session that the call names. -/
theorem local_sync {s : Text} (hs : op.call.sessionId = some s) {segment : Segment ν α}
    (h : segment.Within (isolating s)) : Local S op (Async.sync segment) :=
  confined_sync hS (fun _ _ hsuitable _ => Or.inr ⟨s,⟨hsuitable.1 s hs,Or.inr hs⟩,h _⟩) (fun _ _ _ _ _ _ => trivial)
    fun _ => lasting_true

include hS in
/-- A change of the books of the session that the call names. -/
theorem local_change {s : Text} (hs : op.call.sessionId = some s) {f : OmnigentHttpProvider ν → OmnigentHttpProvider ν}
    (h : ∀ p, Isolated s p (f p)) : Local S op (Async.sync (Segment.change f)) :=
  local_sync hS hs (Segment.within_change h)

include hS in
theorem local_minding {s : Text} (hs : op.call.sessionId = some s) {segment : Segment ν α}
    (h : segment.Within (minding (fun _ => True) s)) : Local S op (Async.sync segment) := local_sync hS hs h.isolating

end Rules

section Fences
variable {S : Text → Prop} {op : Operation} {α : Type} {P : World ν → Prop} {Q : α → World ν → Prop} {sessionId : Text}
  {o : OmnigentHttpClientOptions}

/-- A process that may lay hands on a fence or a lease, with what follows it. -/
theorem Local.bind {β : Type} {x : Async ν β} {f : β → Async ν α} (hx : Local S op x) (hf : ∀ b, Local S op (f b)) :
    Local S op (x >>= f) := Confined.bind hx hf

theorem local_pure (a : α) : Local (ν := ν) S op (pure a) := confined_pure a fun _ _ => trivial

theorem local_throw (e : ProviderError ν) : Local (α := α) S op (throw e) := confined_throw e

theorem Local.attempt {x : Async ν α} (h : Local S op x) : Local S op (Process.attempt x) :=
  (Confined.attempt h).weaken fun _ _ _ => trivial

theorem confined_withLease {operation : Async ν α} (h : Confined S op (fun _ => True) operation Q)
    (hQ : ∀ a, Lasting S (Q a)) : Confined S op (fun _ => True) (withExclusiveSessionLease sessionId operation) Q :=
  Confined.bind (local_remote rfl) fun _ => h.finally' hQ (local_remote rfl)

theorem confined_sessionMutation {operation : Async ν α} (h : Confined S op (fun _ => True) operation Q)
    (hQ : ∀ a, Lasting S (Q a)) : Confined S op (fun _ => True) (runSessionMutation o sessionId operation) Q := by
  unfold runSessionMutation
  split_ifs
  · exact confined_withLease h hQ
  · exact h

theorem local_readSharedState : Local (ν := ν) S op (readSharedState o sessionId) := by
  unfold readSharedState requireStore
  refine Local.bind ?_ fun _ => local_remote rfl
  split_ifs
  · exact local_pure ()
  · exact local_throw _

theorem local_resolveSharedCancellationFence (cancelledTurnId : Text) (officialTurnId : Option Text) :
    Local (ν := ν) S op (resolveSharedCancellationFence o sessionId cancelledTurnId officialTurnId) := by
  unfold resolveSharedCancellationFence
  split_ifs
  · refine confined_withLease (Local.bind local_readSharedState fun state => ?_) fun _ => lasting_true
    split_ifs
    · exact local_remote rfl
    · exact local_pure ()
  · exact local_pure ()

theorem local_reopenSharedCancellationFence (cancelledTurnId : Text) :
    Local (ν := ν) S op (reopenSharedCancellationFence o sessionId cancelledTurnId) := by
  unfold reopenSharedCancellationFence
  split_ifs
  · refine confined_withLease (Local.bind local_readSharedState fun state => ?_) fun _ => lasting_true
    split_ifs
    · exact local_remote rfl
    · exact local_pure ()
  · exact local_pure ()

variable (hS : ∀ s t, S s → S t → s ≠ t → Apart s t)

include hS in
theorem local_refreshSharedSessionMutationState (hs : op.call.sessionId = some sessionId) :
    Local (ν := ν) S op (refreshSharedSessionMutationState o sessionId) := by
  unfold refreshSharedSessionMutationState
  split_ifs
  · refine Local.bind (confined_withLease local_readSharedState fun _ => lasting_true) fun state => ?_
    exact local_minding hS hs (Segment.within_change fun p =>
      OmnigentHttpProvider.sessionStep_installSharedSessionMutationState state fun _ => trivial)
  · exact local_pure ()

end Fences

section Reading
variable {S : Text → Prop} {op : Operation} {sessionId : Text} {o : OmnigentHttpClientOptions}
  (hS : ∀ s t, S s → S t → s ≠ t → Apart s t) (hs : op.call.sessionId = some sessionId)
include hS hs

theorem local_getSessionInfo : Local (ν := ν) S op (getSessionInfo o sessionId) :=
  (local_refreshSharedSessionMutationState hS hs).bind fun _ => (local_remote rfl).bind fun snapshot =>
    local_minding hS hs (minding_refreshInfo snapshot)

variable [JsNumber ν] (isDatetime : Text → Bool) (afterSequence : Option ℕ)

theorem local_readHistory (limit : Option ℕ) :
    Local (ν := ν) S op (readHistory o sessionId isDatetime afterSequence limit) :=
  (local_refreshSharedSessionMutationState hS hs).bind fun _ => (local_remote rfl).bind fun items =>
    (local_remote rfl).bind fun snapshot =>
      local_minding hS hs (minding_readHistorySegment isDatetime afterSequence limit snapshot items)

omit [JsNumber ν] in
theorem local_deliverEvents (messageId : Option Text) (events : List (RuntimeEventEnvelope ν)) :
    Local S op (deliverEvents sessionId messageId events) := by
  induction events with
  | nil => exact local_pure ()
  | cons event events ih =>
    unfold deliverEvents
    refine Local.bind ?_ fun _ => (local_remote rfl).bind fun _ => ih
    exact local_change hS hs fun p => (turnStep_recordDeliveredText _ _).isolated

theorem local_settleFences (stream : ℕ) (items : List (OmnigentConversationItem ν)) (event : OmnigentRawEvent ν) :
    Local S op (settleFences sessionId o stream items event) := by
  unfold settleFences
  refine (local_minding hS hs (minding_recordConsumedPendingItem stream event items)).bind fun reopened => ?_
  cases reopened
  case' some turnId => refine (local_reopenSharedCancellationFence turnId).bind fun _ => ?_
  all_goals
    refine Local.bind (local_sync hS hs (Segment.within_take fun p =>
      (OmnigentHttpProvider.noteStep_consumeCancelledTurnQuarantine event).isolated)) fun ended => ?_
    cases ended with
    | none => exact local_pure ()
    | some turn => exact local_resolveSharedCancellationFence _ _

theorem local_liveLoop (stream : ℕ) (items : List (OmnigentConversationItem ν)) (mapper : OmnigentEventMapper)
    (frames : List (OmnigentTaggedSseEvent ν × Text)) :
    Local S op (liveLoop sessionId isDatetime o stream afterSequence items mapper frames) := by
  induction frames generalizing mapper with
  | nil => exact local_pure ()
  | cons frame frames ih =>
    unfold liveLoop
    refine (local_remote rfl).bind fun _ => ?_
    refine (local_minding hS hs (minding_normalizeFrame frame.1 frame.2)).bind fun event => ?_
    cases event with
    | none => exact local_pure ()
    | some event =>
      dsimp only
      split_ifs
      · exact ih mapper
      · refine (local_settleFences hS hs stream items event).bind fun _ => ?_
        refine (local_minding hS hs (minding_mapLiveEvent isDatetime afterSequence mapper event)).bind fun mapped => ?_
        exact (local_deliverEvents hS hs _ _).bind fun _ => ih mapped.1

theorem local_streamBody (stream : ℕ) (frames : List (OmnigentTaggedSseEvent ν × Text)) :
    Local S op (streamBody sessionId isDatetime o stream afterSequence frames) := by
  unfold streamBody
  split_ifs with hleased
  case' pos =>
    refine Local.bind (confined_withLease local_readSharedState fun _ => lasting_true) fun state => ?_
    refine Local.bind (local_minding hS hs (Segment.within_change fun p =>
      OmnigentHttpProvider.sessionStep_installSharedSessionMutationState state fun _ => trivial)) fun _ => ?_
  all_goals
    refine (local_sync hS hs (Segment.within_take fun p => (turnStep_prepareStream p).isolated)).bind fun prepared => ?_
    refine (local_remote rfl).bind fun items => (local_remote rfl).bind fun snapshot => ?_
    refine (local_minding hS hs (minding_openHistory isDatetime afterSequence prepared snapshot items)).bind
      fun opened => ?_
    refine (local_deliverEvents hS hs _ _).bind fun _ => ?_
    exact (local_sync hS hs (Segment.within_look _)).bind fun start => local_liveLoop hS hs _ _ _ _ _ _

theorem local_streamEvents : Local (ν := ν) S op (streamEvents sessionId isDatetime o afterSequence) := by
  refine (local_remote rfl).bind fun frames => ?_
  refine (local_sync hS hs (Segment.within_take fun p => (turnStep_addOpenStream p).isolated)).bind fun stream => ?_
  refine Confined.finally' (local_streamBody hS hs isDatetime afterSequence stream frames) (fun _ => lasting_true) ?_
  exact local_change hS hs fun p => (turnStep_removeOpenStream p).isolated

end Reading

section Creating
variable {S : Text → Prop} {op : Operation} {o : OmnigentHttpClientOptions}
  (hS : ∀ s t, S s → S t → s ≠ t → Apart s t)
include hS

/-- A stretch of code that leaves alone what is kept of sessions. -/
theorem local_spared {α : Type} {segment : Segment ν α} (h : ∀ p, Spares p (segment p).2) :
    Local S op (Async.sync segment) :=
  confined_sync hS (fun _ _ _ _ => Or.inl (h _)) (fun _ _ _ _ _ _ => trivial) fun _ => lasting_true

variable (hnone : op.call.sessionId = none) (request : CreateSessionRequest)
include hnone

/-- The session that the server gives out is the one that is tracked. -/
theorem local_createSessionOnce : Local (ν := ν) S op (createSessionOnce request) := by
  have hgiven : Confined (ν := ν) S op (fun _ => True) (perform (.createSession request)) fun snapshot _ =>
      S snapshot.id := by
    refine confined_remote rfl (fun pid w c snapshot w' _ hsuitable _ h => hsuitable.2 snapshot.id ?_)
      fun _ _ _ _ _ _ => id
    cases c <;> simp only [World.answer, Option.some.injEq, Prod.mk.injEq, Except.ok.injEq, reduceCtorEq, false_and] at h
    obtain ⟨rfl,rfl⟩ := h
    simp [World.give]
  refine hgiven.bind fun snapshot => Confined.bind ?_ fun _ => local_pure _
  refine confined_sync hS (fun w _ _ hsession => Or.inr ⟨snapshot.id,⟨hsession,Or.inl hnone⟩,?_⟩)
    (fun _ _ _ _ _ _ => trivial) fun _ => lasting_true
  exact (turnStep_observeItems snapshot.items).isolated.trans (OmnigentHttpProvider.isolated_setSession _)

theorem local_createSession : Local (ν := ν) S op (createSession request) := by
  unfold createSession
  refine Local.bind (local_spared hS fun p => ?_) fun claimed => ?_
  · change Spares p (claimCreate request p).2
    unfold claimCreate
    split
    · exact spares_refl p
    · exact ⟨fun _ => rfl,rfl⟩
  cases claimed with
  | inl existing => exact local_remote rfl
  | inr pending =>
    refine (local_createSessionOnce hS hnone request).attempt.bind fun outcome => ?_
    refine Local.bind (local_spared hS fun p => ⟨fun _ => rfl,rfl⟩) fun _ => ?_
    cases outcome with
    | ok session => exact local_pure session
    | error error => exact (local_spared hS fun p => ⟨fun _ => rfl,rfl⟩).bind fun _ => local_throw error

end Creating

section Sending
variable {S : Text → Prop} {op : Operation} {o : OmnigentHttpClientOptions} {request : SendTurnRequest}
  (hS : ∀ s t, S s → S t → s ≠ t → Apart s t) (hs : op.call.sessionId = some request.sessionId)

theorem local_persistRejectedTurnIdentities (sessionId : Text) (turnIds : List Text) :
    Local (ν := ν) S op (persistRejectedTurnIdentities o sessionId turnIds) := by
  unfold persistRejectedTurnIdentities
  split_ifs
  · exact (local_remote rfl).bind fun state => local_remote rfl
  · exact local_pure ()

include hS hs

theorem local_postTurn (registered : RegisteredTurn ν) : Local S op (postTurn request registered) := by
  unfold postTurn
  refine (local_remote rfl).bind fun ack => ?_
  cases ack with
  | denied reason => exact local_throw _
  | handled => exact local_minding hS hs (Segment.within_change fun p => sessionStep_acknowledgeTurn _ _ _ p)
  | accepted item_id pending_id => exact local_minding hS hs (Segment.within_change fun p => sessionStep_acknowledgeTurn _ _ _ p)

theorem confined_sendRegisteredTurn (registered : RegisteredTurn ν) :
    Confined S op (HandleOf op.client registered.handle request.sessionId) (sendRegisteredTurn o request registered)
      fun handle => HandleOf op.client handle request.sessionId := by
  unfold sendRegisteredTurn
  refine Confined.bind ((local_postTurn hS hs registered).attempt.keeping lasting_handleOf) fun posted => ?_
  cases posted with
  | ok u => exact confined_pure _ fun _ => id
  | error error =>
    refine Confined.bind ((local_minding hS hs (Segment.within_take (sessionStep_failSend registered error))).keeping
      lasting_handleOf) fun failed => ?_
    cases failed with
    | keptHandle => exact confined_pure _ fun _ => id
    | rolledBack => exact confined_throw error
    | persist currentTurnId =>
      refine Confined.strengthen ?_ fun _ _ => trivial
      refine Confined.bind (local_persistRejectedTurnIdentities _ _) fun _ => ?_
      exact Confined.bind (local_minding hS hs (Segment.within_change (sessionStep_rollbackSend registered))) fun _ => confined_throw error

/-- The turn that is registered, once it is let through, has a handle of the session. -/
theorem confined_registerTurn {admission : Segment ν Unit} (hadmission : admission.Within (isolating request.sessionId)) (now : Text) :
    Confined S op (fun _ => True) (Async.sync (do
        admission
        Segment.take (registerTurn request now)))
      fun registered => HandleOf op.client registered.handle request.sessionId := by
  refine confined_sync hS (fun w _ hsuitable _ => Or.inr ⟨_,⟨hsuitable.1 _ hs,Or.inr hs⟩,?_⟩) (fun w a _ _ _ ha => ?_)
    fun _ => lasting_handleOf
  · exact Segment.Within.bind hadmission (fun _ => Segment.within_take (isolated_registerTurn now)) _
  · rw [HandleOf, World.setProvider_self]
    refine Segment.Ensures.bind (P := fun _ => True) (K := fun _ _ => True)
      (Q := fun registered p => p.handleSession registered.handle = some request.sessionId) (fun _ _ _ _ => trivial)
      (fun _ => Segment.ensures_take fun p _ => handleSession_registerTurn now p) _ a trivial ha

theorem confined_sendTurnWithExclusiveLease :
    Confined (ν := ν) S op (fun _ => True) (sendTurnWithExclusiveLease o request)
      fun handle => HandleOf op.client handle request.sessionId := by
  have hshared : Local (ν := ν) S op (sharedStateOfSend o request) := by
    unfold sharedStateOfSend
    split_ifs
    · exact Local.bind local_readSharedState fun state => local_pure _
    · exact local_pure _
  unfold sendTurnWithExclusiveLease
  refine Confined.bind hshared fun sharedState => ?_
  split_ifs
  · refine Confined.bind (local_minding hS hs (minding_admitTurn sharedState fun _ _ _ => trivial)) fun _ => ?_
    refine Confined.bind (local_remote rfl) fun snapshot => Confined.bind (local_remote rfl) fun now => ?_
    exact Confined.bind (confined_registerTurn hS hs (Segment.within_require _ _) now)
      (confined_sendRegisteredTurn hS hs)
  · refine Confined.bind (local_remote rfl) fun now => ?_
    exact Confined.bind (confined_registerTurn hS hs (minding_admitTurn sharedState fun _ _ _ => trivial).isolating now)
      (confined_sendRegisteredTurn hS hs)

theorem confined_claimSend : Confined (ν := ν) S op (fun _ => True) (Async.sync (Segment.take (claimSend request)))
    fun claimed w => ∀ promise, claimed = .inl promise ∨ claimed = .inr promise →
      PromiseOf op.client promise request.sessionId w := by
  refine confined_sync hS (fun w _ hsuitable _ => Or.inr ⟨_,⟨hsuitable.1 _ hs,Or.inr hs⟩,?_⟩)
    (fun w claimed hw hsuitable _ h promise hpromise => ?_) fun _ pid op w w' hg hF promise hpromise =>
      lasting_promiseOf pid op w w' hg (hF promise hpromise)
  · exact (turnStep_claimSend _).isolated
  · cases h
    rw [PromiseOf, World.setProvider_self]
    exact promiseSession_claimSend _ (hw _ _ (hsuitable.1 _ hs)) promise hpromise

omit hS in
/-- A settled promise of a session gives a handle of it. -/
theorem confined_awaitSend (promise : ℕ) : Confined (ν := ν) S op (PromiseOf op.client promise request.sessionId)
    (perform (.awaitSend promise)) fun handle => HandleOf op.client handle request.sessionId := by
  refine confined_remote rfl (fun pid w c handle w' hw hsuitable hP h => ?_) fun _ => lasting_handleOf
  cases c <;> simp only [World.answer, Option.map_eq_some_iff, Prod.mk.injEq, reduceCtorEq] at h
  obtain ⟨outcome,houtcome,rfl,rfl⟩ := h
  exact (hw op.client _ (hsuitable.1 _ hs)).outcomes promise handle hP houtcome

theorem confined_settleSend {pending : ℕ} {outcome : Except (ProviderError ν) ℕ} :
    Confined S op (fun w => (∀ handle, outcome = .ok handle → HandleOf op.client handle request.sessionId w) ∧
        PromiseOf op.client pending request.sessionId w)
      (Async.sync (Segment.change fun p => p.settleSend pending outcome))
      fun _ w => ∀ handle, outcome = .ok handle → HandleOf op.client handle request.sessionId w := by
  refine confined_sync hS (fun w _ hsuitable hP => Or.inr ⟨_,⟨hsuitable.1 _ hs,Or.inr hs⟩,?_⟩)
    (fun w _ _ _ hP _ handle hhandle => ?_) fun _ pid op w w' hg hF handle hhandle =>
      lasting_handleOf pid op w w' hg (hF handle hhandle)
  · exact (turnStep_settleSend hP.2 hP.1).isolated
  · rw [HandleOf, World.setProvider_self]
    exact hP.1 handle hhandle

/-- A send returns a handle of its session. -/
theorem confined_sendTurn : Confined (ν := ν) S op (fun _ => True) (sendTurn o request)
    fun handle => HandleOf op.client handle request.sessionId := by
  unfold sendTurn
  refine Confined.bind (confined_claimSend hS hs) fun claimed => ?_
  cases claimed with
  | inl existing => exact (confined_awaitSend hs existing).strengthen fun w hw => hw existing (Or.inl rfl)
  | inr pending =>
    have hmutation : Confined (ν := ν) S op (fun _ => True)
        (runSessionMutation o request.sessionId (sendTurnWithExclusiveLease o request))
        fun handle => HandleOf op.client handle request.sessionId :=
      confined_sessionMutation (confined_sendTurnWithExclusiveLease hS hs) fun _ => lasting_handleOf
    have hpromise : Lasting (ν := ν) S (PromiseOf op.client pending request.sessionId) := lasting_promiseOf
    have hsent := hmutation.attempt.keeping hpromise
    refine Confined.strengthen (Confined.bind hsent fun outcome => ?_) fun w hw => ⟨trivial,hw pending (Or.inr rfl)⟩
    refine Confined.bind (confined_settleSend hS hs) fun _ => ?_
    cases outcome with
    | ok handle => exact confined_pure handle fun w hw => hw handle rfl
    | error error =>
      refine Confined.strengthen ?_ fun _ _ => trivial
      dsimp only
      split_ifs
      · exact Confined.bind (local_change hS hs fun p => (turnStep_forgetSend _).isolated) fun _ => confined_throw error
      · exact confined_throw error

end Sending

section Controls
variable {S : Text → Prop} {op : Operation} {o : OmnigentHttpClientOptions} {handle : MutableTurnHandle} {sessionId : Text}
  {sharedState : OmnigentSessionMutationFenceState} (hS : ∀ s t, S s → S t → s ≠ t → Apart s t)
include hS

section Cancelling
variable (hs : op.call.sessionId = some handle.sessionId)
include hs

theorem local_settleInterrupt (rejectedTurnIds observed : List Text) (cancellationProofObserved : Bool) :
    Local (ν := ν) S op (settleInterrupt handle sharedState rejectedTurnIds observed cancellationProofObserved) := by
  have hfinish : Local (ν := ν) S op (do
      let now ← perform .now
      Async.sync (Segment.take (finishCancellation handle cancellationProofObserved now))) :=
    (local_remote rfl).bind fun now =>
      local_minding hS hs (Segment.within_take (sessionStep_finishCancellation cancellationProofObserved now))
  unfold settleInterrupt
  split_ifs
  · exact (local_remote rfl).bind fun _ => hfinish
  · exact (local_remote rfl).bind fun _ => hfinish
  · exact hfinish

theorem local_failCancellation (rejectedTurnIds : List Text) (error : ProviderError ν) :
    Local S op (failCancellation handle sharedState rejectedTurnIds error) := by
  unfold failCancellation
  refine Local.bind (local_sync hS hs (Segment.within_look _)) fun observed => ?_
  split_ifs
  · refine (local_remote rfl).bind fun _ => (local_remote rfl).bind fun now => ?_
    refine Local.bind (local_change hS hs fun p => noteStep_unreserve.isolated.trans ?_) fun _ => local_throw error
    exact (sessionStep_reconcileOfficial observed now _ : SessionStep (fun _ => True) handle.sessionId _ _).isolated
  · exact (local_remote rfl).bind fun _ => local_throw error

theorem local_interruptTurn (rejectedTurnIds : List Text) :
    Local (ν := ν) S op (interruptTurn handle sharedState rejectedTurnIds) := by
  unfold interruptTurn
  refine Local.bind (Local.attempt ((local_remote rfl).bind fun ack =>
    local_minding hS hs (minding_confirmInterrupt ack))) fun interrupted => ?_
  cases interrupted with
  | error error => exact local_failCancellation hS hs _ error
  | ok confirmed =>
    refine Local.bind (local_settleInterrupt hS hs _ _ _).attempt fun settled => ?_
    cases settled with
    | ok cancelled => exact local_pure cancelled
    | error error => exact local_failCancellation hS hs _ error

theorem local_cancelTurn : Local (ν := ν) S op (cancelTurn handle o) := by
  unfold cancelTurn
  split_ifs
  · refine Local.bind (local_sync hS hs (Segment.Within.bind (Segment.within_check _ _) fun _ =>
      Segment.within_change fun p => (noteStep_reserve _).isolated)) fun _ => ?_
    refine Confined.finally' (confined_withLease ?_ fun _ => lasting_true) (fun _ => lasting_true)
      (local_change hS hs fun p => (noteStep_releaseReservation p).isolated)
    refine Local.bind local_readSharedState fun sharedState => ?_
    refine Local.bind (local_minding hS hs (minding_admitCancellation sharedState fun _ => trivial)) fun _ => ?_
    refine (local_remote rfl).bind fun snapshot => ?_
    refine Local.bind (local_minding hS hs (minding_fenceCancellation snapshot)) fun fence => ?_
    exact (local_remote rfl).bind fun _ => local_interruptTurn hS hs _
  · exact local_throw _

end Cancelling

theorem local_closeSession (hs : op.call.sessionId = some sessionId) : Local (ν := ν) S op (closeSession o sessionId) := by
  have hstop : ∀ sharedState, Local (ν := ν) S op (stopSession sessionId sharedState) := by
    intro sharedState
    refine (local_remote rfl).bind fun ack => ?_
    split
    · exact local_throw _
    · exact local_remote rfl
  unfold closeSession closeSessionWithExclusiveLease
  split_ifs
  · refine confined_withLease (Local.bind local_readSharedState fun sharedState => ?_) fun _ => lasting_true
    refine Local.bind (local_minding hS hs (minding_admitClose sharedState fun _ => trivial)) fun _ => ?_
    split_ifs
    · refine (local_remote rfl).bind fun _ => (hstop sharedState).attempt.bind fun stopped => ?_
      cases stopped with
      | ok u =>
        refine (local_remote rfl).bind fun now => ?_
        exact local_change hS hs fun p => OmnigentHttpProvider.isolated_updateSession _
      | error error =>
        dsimp only
        split_ifs
        · exact (local_remote rfl).bind fun _ => local_throw error
        · exact local_throw error
    · exact local_pure ()
  · exact local_throw _

end Controls

/-- The session of a send that has returned, and the session of the handle that it returned. -/
def sentHandle (w : ProviderSystem ν) (pid : ℕ) : Option (Text × Option Text) :=
  match w.processes[pid]? with
  | some (⟨client,.sendTurn request⟩,.done (.ok (.handle handle))) =>
    some (request.sessionId,(w.shared.providers client).handleSession handle)
  | _ => none

/-- A call that was made names the session, or the server gave it out. -/
def WorksOn (w : ProviderSystem ν) (s : Text) : Prop :=
  (∃ (pid : ℕ) (op : Operation) (x : _), w.processes[pid]? = some (op,x) ∧ op.call.sessionId = some s) ∨
    (w.shared.created s).isSome = true

section Runs
variable [JsNumber ν] {S : Text → Prop} {options : ℕ → OmnigentHttpClientOptions} {isDatetime : Text → Bool}

/-- What a call comes to: the handle that a send returns is one of its session. -/
def Result (op : Operation) (r : Except (ProviderError ν) (CallResult ν)) (w : World ν) : Prop :=
  ∀ request handle, op.call = .sendTurn request → r = .ok (.handle handle) → HandleOf op.client handle request.sessionId w

omit [JsNumber ν] in
theorem Local.result {op : Operation} {x : Async ν (CallResult ν)} (h : Local S op x)
    (hcall : ∀ request, op.call ≠ .sendTurn request) (pid : ℕ) :
    (isolationContract S).Keeps (sessionWorld S) pid op (Result op) x.run fun _ => True :=
  (h pid).weaken fun _ _ _ _ request _ hrequest => absurd hrequest (hcall request)

theorem keeps_operationProcess (hS : ∀ s t, S s → S t → s ≠ t → Apart s t) (pid : ℕ) (op : Operation) :
    (isolationContract S).Keeps (sessionWorld S) pid op (Result op) (operationProcess (ν := ν) options isDatetime op)
      fun _ => True := by
  obtain ⟨client,call⟩ := op
  have hdone : ∀ {α : Type} {x : Async ν α} (f : α → CallResult ν), Local S ⟨client,call⟩ x →
      Local S ⟨client,call⟩ (do return f (← x)) := fun f hx => hx.bind fun a => local_pure (f a)
  cases call with
  | createSession request =>
    exact (hdone _ (local_createSession hS rfl request)).result (fun _ h => by cases h) pid
  | sendTurn request =>
    refine Contract.Keeps.weaken (Confined.bind (Q := fun r w => ∀ handle, r = CallResult.handle handle →
      HandleOf client handle request.sessionId w) (confined_sendTurn hS rfl) (fun handle => ?_) pid)
        fun r w _ hr request' handle hrequest hhandle => ?_
    · exact confined_pure _ fun w hw _ h => by cases h; exact hw
    · cases hrequest
      exact hr _ hhandle handle rfl
  | cancelTurn handle => exact (hdone _ (local_cancelTurn hS rfl)).result (fun _ h => by cases h) pid
  | closeSession sessionId =>
    refine Local.result (Local.bind (local_closeSession hS rfl) fun _ => local_pure _) (fun _ h => by cases h) pid
  | getSessionInfo sessionId => exact (hdone _ (local_getSessionInfo hS rfl)).result (fun _ h => by cases h) pid
  | readHistory sessionId afterSequence limit =>
    exact (hdone _ (local_readHistory hS rfl isDatetime afterSequence limit)).result (fun _ h => by cases h) pid
  | streamEvents sessionId afterSequence =>
    refine Local.result (Local.bind (local_streamEvents hS rfl isDatetime afterSequence) fun _ => local_pure _)
      (fun _ h => by cases h) pid

omit [JsNumber ν] in
theorem initial_isolated (fences : Text → OmnigentSessionMutationFenceState) :
    (ProviderSystem.initial (ν := ν) fences).Outlined (sessionWorld S) (isolationContract S) Result where
  inv := fun _ _ _ => ⟨fun _ _ h => (by cases h),fun _ _ h => (by cases h),fun _ _ h => (by cases h)⟩
  outline _ _ _ h := by cases h

omit [JsNumber ν] in
/-- The server gives out a session id with the snapshot of a new session. -/
theorem World.answer_created {pid client : ℕ} {γ : Type} {x : Action ν γ} {w w' : World ν} {c : Answer ν} {b : γ}
    (h : World.answer pid client x w c = some (b,w')) :
    w'.created = w.created ∨ ∃ snapshot, c = .snapshot snapshot ∧ w' = w.give pid snapshot.id := by
  have hrelease : ∀ sessionId, (w.release pid sessionId).created = w.created := by
    intro sessionId
    unfold World.release
    split_ifs <;> rfl
  cases x
  case releaseLease sessionId =>
    cases c <;> simp only [World.answer, Option.some.injEq, Prod.mk.injEq, reduceCtorEq] at h
    all_goals
      rw [← h.2, hrelease]
      exact Or.inl rfl
  case awaitSend =>
    cases c <;> simp only [World.answer, Option.map_eq_some_iff, Prod.mk.injEq, reduceCtorEq] at h
    obtain ⟨_,-,-,rfl⟩ := h
    exact Or.inl rfl
  case awaitCreate =>
    cases c <;> simp only [World.answer, Option.map_eq_some_iff, Prod.mk.injEq, reduceCtorEq] at h
    obtain ⟨_,-,-,rfl⟩ := h
    exact Or.inl rfl
  case createSession request =>
    cases c <;> simp only [World.answer, Option.some.injEq, Prod.mk.injEq, reduceCtorEq] at h
    case snapshot snapshot => exact Or.inr ⟨snapshot,rfl,h.2.symm⟩
    case fails => exact Or.inl (h.2 ▸ rfl)
  all_goals
    cases c <;> simp only [World.answer, Option.some.injEq, Prod.mk.injEq, reduceCtorEq] at h
    all_goals
      obtain ⟨-,rfl⟩ := h
      exact Or.inl rfl

omit [JsNumber ν] in
theorem World.created_give (w : World ν) (pid : ℕ) (sessionId s : Text) :
    ((w.give pid sessionId).created s).isSome = (decide (s = sessionId) || (w.created s).isSome) := by
  simp only [World.give, Function.update_apply]
  split_ifs with h <;> simp [h]

/-- The sessions that are worked on are so from then on. -/
theorem suits_back {w w' : ProviderSystem ν} {m : Move Operation (Answer ν)}
    (h : Concurrent.step (anyWorld ν) (operationProcess options isDatetime) w m = some w')
    (hsuits : w'.Suits (Suitable S)) : w.Suits (Suitable S) := by
  intro pid op x hpid
  obtain ⟨x',hpid'⟩ := Concurrent.step_processes h hpid
  have hop := hsuits pid op x' hpid'
  refine ⟨hop.1,fun s hs => hop.2 s ?_⟩
  cases m with
  | start op =>
    cases h
    exact hs
  | resume other answer =>
    rw [Concurrent.step] at h
    split at h
    case h_2 => cases h
    case h_1 =>
      obtain ⟨⟨b,u⟩,hanswer,rfl⟩ := Option.map_eq_some_iff.mp h
      obtain hsame | ⟨snapshot,-,rfl⟩ := World.answer_created hanswer
      · exact (congrArg (fun created => (created s).isSome) hsame).trans hs
      · rw [World.created_give, hs, Bool.or_true]

/-- Where no two of the sessions worked on share keys, a step changes nothing that is kept of any but one of
them, the one that its call names or that the server gives out, and every send returns a handle of its session. -/
theorem sessions_isolated {fences : Text → OmnigentSessionMutationFenceState} {w w' : ProviderSystem ν}
    {before : List (Move Operation (Answer ν))} {pid : ℕ} {answer : Answer ν}
    (hbefore : run (Concurrent.step (anyWorld ν) (operationProcess options isDatetime))
      (ProviderSystem.initial fences) before = some w)
    (hstep : Concurrent.step (anyWorld ν) (operationProcess options isDatetime) w (.resume pid answer) = some w')
    (hapart : ∀ s t, WorksOn w' s → WorksOn w' t → s ≠ t → Apart s t) :
    (∃ op x, w.processes[pid]? = some (op,x) ∧ ∀ client, ∃ s, (op.call.sessionId = none ∨ op.call.sessionId = some s) ∧
      ∀ t, WorksOn w' t → t ≠ s → Unaffected t (w.shared.providers client) (w'.shared.providers client)) ∧
    ∀ other s u, sentHandle w' other = some (s,u) → u = some s := by
  have hsuits : w'.Suits (Suitable (WorksOn w')) :=
    fun other op x hpid => ⟨fun s hs => Or.inl ⟨other,op,x,hpid,hs⟩,fun s hs => Or.inr hs⟩
  obtain ⟨hrun,-⟩ := Concurrent.run_guarded (anyWorld ν) (operationProcess options isDatetime)
    (fun _ _ _ => suits_back) hbefore (suits_back hstep hsuits)
  have hw := Concurrent.run_outlined (initial_isolated fences) (keeps_operationProcess hapart) hrun
  obtain ⟨hw',op,x,hpid,hguarantee⟩ := Concurrent.resume_spec hw (Concurrent.step_guarded _ _ hstep hsuits)
  refine ⟨⟨op,x,hpid,fun client => ?_⟩,fun other s u hsent => ?_⟩
  · obtain hspared | ⟨s,⟨hs,hop⟩,htouched⟩ := hguarantee client
    · cases hop : op.call.sessionId with
      | none => exact ⟨[],Or.inl rfl,fun t _ _ => hspared.unaffected⟩
      | some s => exact ⟨s,Or.inr rfl,fun t _ _ => hspared.unaffected⟩
    · exact ⟨s,hop,fun t ht hne => htouched.unaffected (hapart s t hs ht hne.symm)⟩
  · unfold sentHandle at hsent
    split at hsent
    · next client request handle hdone =>
      cases hsent
      exact hw'.finished hdone request handle rfl rfl
    · cases hsent

/-- The sessions that come up with a move. -/
def namedSessions : Move Operation (Answer ν) → List Text
  | .start op => op.call.sessionId.toList
  | .resume _ (.snapshot snapshot) => [snapshot.id]
  | .resume _ _ => []

theorem worksOn_step {w w' : ProviderSystem ν} {m : Move Operation (Answer ν)}
    (h : Concurrent.step (anyWorld ν) (operationProcess options isDatetime) w m = some w') {s : Text}
    (hs : WorksOn w' s) : WorksOn w s ∨ s ∈ namedSessions m := by
  cases m with
  | start op =>
    cases h
    obtain ⟨pid,op',x,hpid,hop⟩ | hcreated := hs
    · rw [List.getElem?_append] at hpid
      split_ifs at hpid
      · exact Or.inl (Or.inl ⟨pid,op',x,hpid,hop⟩)
      · have hnew := List.mem_of_getElem? hpid
        simp only [List.mem_singleton, Prod.mk.injEq] at hnew
        obtain ⟨rfl,-⟩ := hnew
        exact Or.inr (by simp [namedSessions, hop])
    · exact Or.inl (Or.inr hcreated)
  | resume pid answer =>
    rw [Concurrent.step] at h
    split at h
    case h_2 => cases h
    case h_1 op β x next hpid =>
      obtain ⟨⟨b,u⟩,hanswer,rfl⟩ := Option.map_eq_some_iff.mp h
      obtain ⟨other,op',y,hother,hop⟩ | hcreated := hs
      · by_cases hne : pid = other
        · subst hne
          rw [List.getElem?_set_self (List.getElem?_eq_some_iff.mp hpid).1] at hother
          cases hother
          exact Or.inl (Or.inl ⟨pid,op,_,hpid,hop⟩)
        · rw [List.getElem?_set_ne hne] at hother
          exact Or.inl (Or.inl ⟨other,op',y,hother,hop⟩)
      · obtain hsame | ⟨snapshot,rfl,rfl⟩ := World.answer_created hanswer
        · exact Or.inl (Or.inr (hsame ▸ hcreated))
        · rw [World.created_give, Bool.or_eq_true, decide_eq_true_eq] at hcreated
          exact hcreated.symm.imp Or.inr fun h => by simp [namedSessions, h]

/-- The sessions that a run works on come up in its moves. -/
theorem worksOn_run {fences : Text → OmnigentSessionMutationFenceState} {w : ProviderSystem ν}
    {moves : List (Move Operation (Answer ν))}
    (h : run (Concurrent.step (anyWorld ν) (operationProcess options isDatetime)) (ProviderSystem.initial fences) moves =
      some w) {s : Text} (hs : WorksOn w s) : s ∈ moves.flatMap namedSessions := by
  have hrun : ∀ (ms : List (Move Operation (Answer ν))) (v : ProviderSystem ν),
      run (Concurrent.step (anyWorld ν) (operationProcess options isDatetime)) v ms = some w →
        WorksOn v s ∨ s ∈ ms.flatMap namedSessions := by
    intro ms
    induction ms with
    | nil =>
      intro v hv
      cases hv
      exact Or.inl hs
    | cons m ms ih =>
      intro v hv
      obtain ⟨u,hstep,hrest⟩ := (run_cons_eq_some _).mp hv
      rw [List.flatMap_cons, List.mem_append]
      obtain hu | hnamed := ih u hrest
      · exact (worksOn_step hstep hu).imp_right Or.inl
      · exact Or.inr (Or.inr hnamed)
  obtain hinitial | hnamed := hrun moves _ h
  · obtain ⟨_,_,_,hpid,-⟩ | hcreated := hinitial
    · cases hpid
    · cases hcreated
  · exact hnamed

end Runs

/-- Clients that heed neither leases nor fences. -/
def plainSystem : ProviderSystem ℕ → Move Operation (Answer ℕ) → Option (ProviderSystem ℕ) :=
  Concurrent.step (anyWorld ℕ) (operationProcess (fun _ => ⟨false,false,false⟩) (fun _ => true))

/-- A send that is accepted at once. -/
def sendMoves (pid : ℕ) (request : SendTurnRequest) : List (Move Operation (Answer ℕ)) :=
  [.start ⟨0,.sendTurn request⟩,.resume pid .proceeds,.resume pid (.time startOfEpoch),.resume pid .proceeds,
    .resume pid (.ack .handled),.resume pid .proceeds,.resume pid .proceeds]

/-- The session "a:b" and the key "k" make the key that "a" and "b:k" do. -/
theorem sharedKey_sendsOther : ∃ w : ProviderSystem ℕ,
    run plainSystem (ProviderSystem.initial fun _ => {})
      (sendMoves 0 ⟨Text.of "a",Text.of "b:k",Text.of "one"⟩ ++
        [.start ⟨0,.sendTurn ⟨Text.of "a:b",Text.of "k",Text.of "two"⟩⟩,.resume 1 .proceeds,.resume 1 .proceeds]) = some w ∧
      sentHandle w 1 = some (Text.of "a:b",some (Text.of "a")) := by
  have hsent : (run plainSystem (ProviderSystem.initial fun _ => {})
      (sendMoves 0 ⟨Text.of "a",Text.of "b:k",Text.of "one"⟩ ++
        [.start ⟨0,.sendTurn ⟨Text.of "a:b",Text.of "k",Text.of "two"⟩⟩,.resume 1 .proceeds,.resume 1 .proceeds])).any
      (fun w => decide (sentHandle w 1 = some (Text.of "a:b",some (Text.of "a")))) = true := by decide +kernel
  obtain ⟨w,hw,h⟩ := (Option.any_eq_true _ _).mp hsent
  exact ⟨w,hw,of_decide_eq_true h⟩

/-- The moves of a send on the session "a" and then of one on "ab", but for the last. -/
def twoSends : List (Move Operation (Answer ℕ)) :=
  sendMoves 0 ⟨Text.of "a",Text.of "b:k",Text.of "one"⟩ ++
    (sendMoves 1 ⟨Text.of "ab",Text.of "k",Text.of "two"⟩).dropLast

theorem sessions_isolated_twoSends : ∃ w w' : ProviderSystem ℕ,
    run plainSystem (ProviderSystem.initial fun _ => {}) twoSends = some w ∧
      plainSystem w (.resume 1 .proceeds) = some w' ∧
      Unaffected (Text.of "a") (w.shared.providers 0) (w'.shared.providers 0) ∧
      ∃ u, sentHandle w' 1 = some (Text.of "ab",u) ∧ u = some (Text.of "ab") := by
  have hruns : (run plainSystem (ProviderSystem.initial fun _ => {}) twoSends).any (fun w =>
      decide ((w.processes[1]?).map (fun process => process.1.call.sessionId) = some (some (Text.of "ab"))) &&
        (plainSystem w (.resume 1 .proceeds)).any (fun w' =>
          decide ((sentHandle w' 1).map Prod.fst = some (Text.of "ab")) &&
            decide ((w'.processes[0]?).map (fun process => process.1.call.sessionId) = some (some (Text.of "a"))))) =
      true := by decide +kernel
  obtain ⟨w,hw,h⟩ := (Option.any_eq_true _ _).mp hruns
  obtain ⟨hprocess,hstep⟩ := (Bool.and_eq_true _ _ ▸ h : _ ∧ _)
  obtain ⟨w',hw',h'⟩ := (Option.any_eq_true _ _).mp hstep
  obtain ⟨hsent,hfirst⟩ := (Bool.and_eq_true _ _ ▸ h' : _ ∧ _)
  have hnamed : ∀ s, WorksOn w' s → s ∈ (twoSends ++ [Move.resume 1 Answer.proceeds]).flatMap namedSessions := by
    have hrun : run plainSystem (ProviderSystem.initial fun _ => {}) (twoSends ++ [Move.resume 1 Answer.proceeds]) =
        some w' := by
      rw [run_append, hw]
      exact (run_cons_eq_some _).mpr ⟨w',hw',rfl⟩
    exact fun s hs => worksOn_run hrun hs
  have hapart : ∀ s t, WorksOn w' s → WorksOn w' t → s ≠ t → Apart s t := by
    have hall : ∀ s ∈ (twoSends ++ [Move.resume 1 Answer.proceeds]).flatMap namedSessions,
        ∀ t ∈ (twoSends ++ [Move.resume 1 Answer.proceeds]).flatMap namedSessions, s ≠ t → Apart s t := by
      decide +kernel
    exact fun s t hs ht => hall s (hnamed s hs) t (hnamed t ht)
  obtain ⟨⟨op,x,hop,hkept⟩,hsends⟩ := sessions_isolated hw hw' hapart
  obtain ⟨s,hs,hkept⟩ := hkept 0
  refine ⟨w,w',hw,hw',hkept (Text.of "a") ?_ ?_,?_⟩
  · obtain ⟨⟨op,x⟩,hop,ha⟩ := Option.map_eq_some_iff.mp (of_decide_eq_true hfirst)
    exact Or.inl ⟨0,op,x,hop,ha⟩
  · have hab : op.call.sessionId = some (Text.of "ab") := by simpa [hop] using of_decide_eq_true hprocess
    rw [hab] at hs
    obtain hs | hs := hs
    · cases hs
    · exact fun ha => absurd (Option.some.inj hs |>.trans ha.symm) (by decide)
  · obtain ⟨⟨a,u⟩,hau,rfl⟩ := Option.map_eq_some_iff.mp (of_decide_eq_true hsent)
    exact ⟨u,hau,hsends 1 _ u hau⟩

end OmniagentPlus.OmnigentTransport
