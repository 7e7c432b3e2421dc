import OmniagentPlus.OmnigentTransport.FenceLeases
import OmniagentPlus.OmnigentTransport.SegmentsApart
import OmniagentPlus.OmnigentTransport.SessionAdmission
import OmniagentPlus.OmnigentTransport.HistoryLifecycle

/-! Each call of a provider leaves closed sessions closed while any number of others are under way, and
so does every run of them all. -/
namespace OmniagentPlus.OmnigentTransport
open OmniagentPlus.Foundation OmniagentPlus.CoreContracts
variable {ν : Type}

/-- The process keeps the contract, whatever is known when it starts. -/
def Harmless {α : Type} (options : ℕ → OmnigentHttpClientOptions) (op : Operation) (x : Async ν α) : Prop :=
  ∀ pid, (closedContract options).Keeps (orderlyWorld ν) pid op (fun _ _ => True) x.run (fun _ => True)

section Rules
variable {options : ℕ → OmnigentHttpClientOptions} {pid : ℕ} {op : Operation} {α β : Type} {sessionId : Text}
  {P : World ν → Prop}

theorem Harmless.bind {x : Async ν β} {f : β → Async ν α} (hx : Harmless options op x)
    (hf : ∀ b, Harmless options op (f b)) : Harmless options op (x >>= f) :=
  fun pid => (hx pid).exceptBind (fun b => hf b pid) fun _ _ _ _ => trivial

theorem Neutral.harmless {x : Async ν α} (hx : Neutral options op x) : Harmless options op x :=
  fun pid => hx pid _ ((closedContract options).stable_true pid) fun _ _ _ _ => trivial

theorem Harmless.attempt {x : Async ν α} (hx : Harmless options op x) : Harmless options op (Process.attempt x) :=
  fun pid => Contract.Keeps.bind (x := x) (hx pid) fun _ _ _ _ => trivial

theorem Harmless.finally' {x : Async ν α} {cleanup : Async ν Unit} (hx : Harmless options op x)
    (hcleanup : Harmless options op cleanup) : Harmless options op (Process.finally' x cleanup) :=
  hx.attempt.bind fun _ => hcleanup.bind fun _ _ => Contract.keeps_settleWith _ fun _ _ _ => trivial

/-- Under the lease the process has to keep what it knows of the fence; nothing else is asked of it. -/
theorem harmless_withLease {operation : Async ν α}
    (h : ∀ pid, (closedContract options).Keeps (orderlyWorld ν) pid op (fun _ => Holds pid sessionId fun _ _ => True)
      operation.run (Holds pid sessionId fun f b => b = f.closed)) :
    Harmless options op (withExclusiveSessionLease sessionId operation) :=
  fun pid => keeps_withLease (fun _ _ _ _ _ => trivial) (fun _ _ => trivial)
    ((h pid).weaken fun _ _ _ hw => ⟨hw.1,trivial⟩)

/-- What follows a neutral part knows what the part knew. -/
theorem Neutral.keepsBind {x : Async ν β} {f : β → Async ν α} {Q : Except (ProviderError ν) α → World ν → Prop}
    (hx : Neutral options op x) (hstable : (closedContract options).Stable pid P) (hblind : Blind P)
    (hf : ∀ b, (closedContract options).Keeps (orderlyWorld ν) pid op Q (f b).run P)
    (hthrow : ∀ e w, P w → Q (.error e) w) :
    (closedContract options).Keeps (orderlyWorld ν) pid op Q (x >>= f).run P :=
  (hx pid P hstable hblind).exceptBind hf fun e _ _ hw => hthrow e _ hw

/-- A stretch of code that throws or goes on with what it ensures. -/
theorem keeps_segment {segment : Segment ν α} {K : α → Prop}
    (hstep : ∀ w, FencesClosed options w → P w →
      SafeStep (sealedFor options w op.client) (w.providers op.client) (segment (w.providers op.client)).2)
    (hK : ∀ p a, (segment p).1 = .ok a → K a) (hstable : (closedContract options).Stable pid P) (hblind : Blind P) :
    (closedContract options).Keeps (orderlyWorld ν) pid op (fun r w => P w ∧ ∀ a, r = .ok a → K a)
      (Async.sync segment).run P :=
  keeps_sync hstep (fun _ _ hP => ⟨hblind _ _ _ hP,fun a ha => hK _ a ha⟩) fun _ other q w _ hne hw hl h =>
    ⟨hstable other q w _ hne hw hl h.1,h.2⟩

end Rules

section Fences
variable {options : ℕ → OmnigentHttpClientOptions} {pid : ℕ} {op : Operation} {sessionId : Text}
  {A : OmnigentSessionMutationFenceState → Bool → Prop} {o : OmnigentHttpClientOptions}

theorem neutral_requireStore : Neutral (ν := ν) options op (requireStore o) := by
  unfold requireStore
  split_ifs
  · exact neutral_pure ()
  · exact neutral_throw _

/-- The holder of the lease reads its fence. -/
theorem keeps_readSharedState :
    (closedContract options).Keeps (orderlyWorld ν) pid op
      (fun r => Holds pid sessionId (fun f b => A f b ∧ ∀ state, r = .ok state → f = state))
      (readSharedState o sessionId : Async ν _).run (Holds pid sessionId A) := by
  refine neutral_requireStore.keepsBind stable_holds blind_holds (fun _ => keeps_readFence) fun _ _ hw => ?_
  exact ⟨hw.1,hw.2,(by simp)⟩

/-- What is read of the fence under the lease stays true of a session that is closed. -/
theorem keeps_readUnderLease :
    (closedContract options).Keeps (orderlyWorld ν) pid op
      (fun r w => ∀ state, r = .ok state → state.closed = true → w.isSealed sessionId = true)
      (withExclusiveSessionLease sessionId (readSharedState o sessionId) : Async ν _).run (fun _ => True) := by
  refine keeps_withLease (fun r w w' hseals h state hr hc => hseals _ (h state hr hc)) (fun _ _ => (by simp)) ?_
  refine keeps_readSharedState.weaken fun r w _ hw => ⟨hw.1,fun state hr hc => ?_⟩
  obtain ⟨-,hb,hf⟩ := hw
  rw [hb, hf state hr]
  exact hc

/-- The fence that was read is installed. -/
theorem keeps_installShared {state : OmnigentSessionMutationFenceState}
    (hleased : (options op.client).withExclusiveSessionLease = true) :
    (closedContract options).Keeps (orderlyWorld ν) pid op (fun _ _ => True)
      (Async.sync (Segment.change fun p => p.installSharedSessionMutationState sessionId state)).run
      (fun w => state.closed = true → w.isSealed sessionId = true) := by
  refine keeps_sync (fun w _ hw => ?_) (fun _ _ _ => trivial) fun _ => (closedContract options).stable_true pid
  exact (OmnigentHttpProvider.sessionStep_installSharedSessionMutationState _ fun hc => ⟨hw hc,hleased⟩).safe

theorem harmless_refreshSharedSessionMutationState :
    Harmless (ν := ν) options op (refreshSharedSessionMutationState (options op.client) sessionId) := by
  unfold refreshSharedSessionMutationState
  split_ifs with hleased
  · intro pid
    refine keeps_readUnderLease.exceptBind (fun state => ?_) fun _ _ _ _ => trivial
    exact (keeps_installShared hleased).strengthen fun w _ h => h state rfl
  · exact (neutral_pure ()).harmless

/-- A fence that closes the session where the one before it does. -/
theorem keeps_writeAlike {state state' : OmnigentSessionMutationFenceState} (hA : ∀ f b, A f b → f = state)
    (h : state'.closed = state.closed) :
    (closedContract options).Keeps (orderlyWorld ν) pid op (fun _ => Holds pid sessionId fun _ _ => True)
      (perform (.writeFence sessionId state') : Async ν Unit).run (Holds pid sessionId A) := by
  refine keeps_writeFence (B := fun _ _ _ => True) (fun f b hf hb hsealed => ?_) (fun _ _ _ => trivial)
    (fun _ _ _ _ => trivial) fun _ _ _ _ => trivial
  rw [h, ← hA f b hf]
  exact hb hsealed

theorem harmless_resolveSharedCancellationFence (cancelledTurnId : Text) (officialTurnId : Option Text) :
    Harmless (ν := ν) options op (resolveSharedCancellationFence o sessionId cancelledTurnId officialTurnId) := by
  unfold resolveSharedCancellationFence
  split_ifs
  · refine harmless_withLease fun pid => ?_
    refine keeps_readSharedState.exceptBind (fun state => ?_) fun e w _ hw => ⟨hw.1,trivial⟩
    split_ifs
    · exact keeps_writeAlike (fun f b hf => hf.2 state rfl) rfl
    · exact Contract.keeps_pure () fun w _ hw => ⟨hw.1,trivial⟩
  · exact (neutral_pure ()).harmless

theorem harmless_reopenSharedCancellationFence (cancelledTurnId : Text) :
    Harmless (ν := ν) options op (reopenSharedCancellationFence o sessionId cancelledTurnId) := by
  unfold reopenSharedCancellationFence
  split_ifs
  · refine harmless_withLease fun pid => ?_
    refine keeps_readSharedState.exceptBind (fun state => ?_) fun e w _ hw => ⟨hw.1,trivial⟩
    split_ifs
    · exact keeps_writeAlike (fun f b hf => hf.2 state rfl) rfl
    · exact Contract.keeps_pure () fun w _ hw => ⟨hw.1,trivial⟩
  · exact (neutral_pure ()).harmless

end Fences

section Reading
variable {options : ℕ → OmnigentHttpClientOptions} {pid : ℕ} {op : Operation} {sessionId : Text}

theorem harmless_getSessionInfo : Harmless (ν := ν) options op (getSessionInfo (options op.client) sessionId) :=
  harmless_refreshSharedSessionMutationState.bind fun _ => (neutral_perform rfl).harmless.bind fun snapshot =>
    (neutral_sync (minding_refreshInfo snapshot).closing).harmless

variable [JsNumber ν] (isDatetime : Text → Bool) (afterSequence : Option ℕ)

theorem harmless_readHistory (limit : Option ℕ) :
    Harmless (ν := ν) options op (readHistory (options op.client) sessionId isDatetime afterSequence limit) :=
  harmless_refreshSharedSessionMutationState.bind fun _ => (neutral_perform rfl).harmless.bind fun items =>
    (neutral_perform rfl).harmless.bind fun snapshot =>
      (neutral_sync (minding_readHistorySegment isDatetime afterSequence limit snapshot items).closing).harmless

omit [JsNumber ν] in
theorem neutral_deliverEvents (messageId : Option Text) (events : List (RuntimeEventEnvelope ν)) :
    Neutral options op (deliverEvents sessionId messageId events) := by
  induction events with
  | nil => exact neutral_pure ()
  | cons event events ih =>
    unfold deliverEvents
    refine Neutral.bind ?_ fun _ => Neutral.bind (neutral_perform rfl) fun _ => ih
    exact neutral_sync (Segment.within_neutral fun _ => rfl)

theorem harmless_settleFences (stream : ℕ) (items : List (OmnigentConversationItem ν)) (event : OmnigentRawEvent ν) :
    Harmless options op (settleFences sessionId (options op.client) stream items event) := by
  unfold settleFences
  refine (neutral_sync (minding_recordConsumedPendingItem stream event items).closing).harmless.bind fun reopened => ?_
  cases reopened
  case' some turnId => refine (harmless_reopenSharedCancellationFence turnId).bind fun _ => ?_
  all_goals
    refine (neutral_sync (Segment.within_take fun p =>
      (OmnigentHttpProvider.noteStep_consumeCancelledTurnQuarantine event).safe)).harmless.bind fun ended => ?_
    cases ended with
    | none => exact (neutral_pure ()).harmless
    | some turn => exact harmless_resolveSharedCancellationFence _ _

theorem harmless_liveLoop (stream : ℕ) (items : List (OmnigentConversationItem ν)) (mapper : OmnigentEventMapper)
    (frames : List (OmnigentTaggedSseEvent ν × Text)) :
    Harmless options op (liveLoop sessionId isDatetime (options op.client) stream afterSequence items mapper frames) := by
  induction frames generalizing mapper with
  | nil => exact (neutral_pure ()).harmless
  | cons frame frames ih =>
    unfold liveLoop
    refine (neutral_perform rfl).harmless.bind fun _ => ?_
    refine (neutral_sync (minding_normalizeFrame frame.1 frame.2).closing).harmless.bind fun event => ?_
    cases event with
    | none => exact (neutral_pure ()).harmless
    | some event =>
      dsimp only
      split_ifs
      · exact ih mapper
      · refine (harmless_settleFences stream items event).bind fun _ => ?_
        refine (neutral_sync (minding_mapLiveEvent isDatetime afterSequence mapper event).closing).harmless.bind fun mapped => ?_
        exact (neutral_deliverEvents _ _).harmless.bind fun _ => ih mapped.1

theorem harmless_streamBody (stream : ℕ) (frames : List (OmnigentTaggedSseEvent ν × Text)) :
    Harmless options op (streamBody sessionId isDatetime (options op.client) stream afterSequence frames) := by
  unfold streamBody
  split_ifs with hleased
  case' pos =>
    intro pid
    refine keeps_readUnderLease.exceptBind (fun state => ?_) fun _ _ _ _ => trivial
    refine Contract.Keeps.exceptBind (K := fun _ _ => True)
      ((keeps_installShared hleased).strengthen fun w _ h => h state rfl) (fun _ => ?_) fun _ _ _ _ => trivial
    refine (?_ : Harmless options op _) pid
  all_goals
    refine (neutral_sync (Segment.within_take fun p => (turnStep_prepareStream p).note.safe)).harmless.bind
      fun prepared => ?_
    refine (neutral_perform rfl).harmless.bind fun items => (neutral_perform rfl).harmless.bind fun snapshot => ?_
    refine (neutral_sync (minding_openHistory isDatetime afterSequence prepared snapshot items).closing).harmless.bind
      fun opened => ?_
    refine (neutral_deliverEvents _ _).harmless.bind fun _ => ?_
    exact (neutral_sync (Segment.within_look _)).harmless.bind fun start => harmless_liveLoop _ _ _ _ _ _

theorem harmless_streamEvents :
    Harmless (ν := ν) options op (streamEvents sessionId isDatetime (options op.client) afterSequence) := by
  refine (neutral_perform rfl).harmless.bind fun frames => ?_
  refine (neutral_sync (Segment.within_take fun p => safeStep_of_sessions_eq rfl)).harmless.bind fun stream => ?_
  refine Harmless.finally' (harmless_streamBody isDatetime afterSequence stream frames) ?_
  exact (neutral_sync (Segment.within_neutral fun p => (turnStep_removeOpenStream p).sessions)).harmless

end Reading

section Creating
variable {options : ℕ → OmnigentHttpClientOptions} {pid client : ℕ} {op : Operation} {w : World ν}

/-- The process was given the session id, which no client tracks so far. -/
def Fresh (pid : ℕ) (sessionId : Text) (w : World ν) : Prop :=
  w.created sessionId = some pid ∧ ∀ client, w.tracked client sessionId = none

theorem stable_fresh {sessionId : Text} : (closedContract options).Stable pid (Fresh (ν := ν) pid sessionId) := by
  intro other _ w w' hne _ hleaves h
  refine ⟨hleaves.created sessionId pid h.1,fun client => hleaves.untracked client sessionId ?_ (h.2 client)⟩
  rw [h.1]
  exact fun heq => hne (Option.some.inj heq).symm

theorem FencesClosed.give (h : FencesClosed options w) {sessionId : Text} (hnone : w.created sessionId = none) :
    FencesClosed options (w.give pid sessionId) ∧ LeavesClosed pid w (w.give pid sessionId) := by
  constructor
  · refine ⟨h.tidy,h.closed,h.fence,fun s hs => h.created s ?_⟩
    simp only [World.give, Function.update_apply] at hs
    split_ifs at hs
    exact hs
  · refine h.leaves_of_providers_eq rfl (fun _ => id) (fun _ _ _ hl => ⟨hl,rfl,rfl⟩) fun s other hs => ?_
    simp only [World.give, Function.update_apply]
    split_ifs with hss
    · rw [hss, hnone] at hs
      cases hs
    · exact hs

/-- A fresh session is tracked as it is first seen, which is open. -/
theorem FencesClosed.track (h : FencesClosed options w) {sessionId : Text} (hfresh : Fresh pid sessionId w)
    (client : ℕ) (q : OmnigentHttpProvider ν) {info : AgentSessionInfo ν} (hopen : info.state ≠ .closed)
    (hq : q.sessions = (w.providers client).sessions.set sessionId info) :
    FencesClosed options (w.setProvider client q) ∧ LeavesClosed pid w (w.setProvider client q) := by
  have htracked : ∀ c s, (w.setProvider client q).tracked c s =
      if c = client ∧ s = sessionId then some info else w.tracked c s := by
    intro c s
    rw [tracked_setProvider, hq, Dictionary.get?_set]
    by_cases hc : c = client
    · by_cases hs : s = sessionId
      · simp [hc, hs]
      · simp [hc, hs, World.tracked]
    · simp [hc]
  have hclosed : ∀ c s i, (w.setProvider client q).tracked c s = some i → i.state = .closed → w.tracked c s = some i := by
    intro c s i hi hc
    rw [htracked] at hi
    split_ifs at hi
    · cases hi
      exact absurd hc hopen
    · exact hi
  constructor
  · refine ⟨fun c s i hi hc => ?_,fun c s i hi hc => h.closed c s i (hclosed c s i hi hc) hc,h.fence,fun s hs c => ?_⟩
    · exact h.tidy c s i (hclosed c s i hi hc) hc
    · rw [htracked, if_neg ?_]
      · exact h.created s hs c
      · rintro ⟨-,rfl⟩
        exact absurd (hs.symm.trans hfresh.1) (by simp)
  · refine ⟨fun _ => id,fun _ _ _ hl => ⟨hl,rfl,rfl⟩,fun _ _ => id,fun c s hs hn => ?_,fun c s i hi hc => ?_⟩
    · rw [htracked, if_neg ?_]
      · exact hn
      · rintro ⟨-,rfl⟩
        exact hs hfresh.1
    · refine ⟨i,?_,hc,h.tidy c s i hi hc⟩
      rw [htracked, if_neg ?_]
      · exact hi
      · rintro ⟨-,rfl⟩
        rw [hfresh.2] at hi
        cases hi

theorem toSessionInfo_none_state (snapshot : OmnigentSessionSnapshot ν) : (toSessionInfo snapshot none).state ≠ .closed := by
  have hstate : (toSessionInfo snapshot none).state = mapSessionState snapshot.status := by simp [toSessionInfo]
  rw [hstate]
  cases snapshot.status <;> simp [mapSessionState]

theorem harmless_createSessionOnce (request : CreateSessionRequest) :
    Harmless (ν := ν) options op (createSessionOnce request) := by
  intro pid
  refine Contract.Keeps.exceptBind (K := fun r w => ∀ snapshot, r = .ok snapshot → Fresh pid snapshot.id w) ?_
    (fun snapshot => ?_) fun _ _ _ _ => trivial
  · refine Contract.keeps_action (fun w c b w' hw _ h => ?_) fun r other q w w' hne hw hleaves hfresh snapshot hr => ?_
    · obtain ⟨hadmits,hanswer⟩ := orderlyWorld_perform h
      cases c <;> simp only [World.answer, Option.some.injEq, Prod.mk.injEq, reduceCtorEq] at hanswer
      case snapshot snapshot =>
        obtain ⟨rfl,rfl⟩ := hanswer
        have hnone : w.created snapshot.id = none := Option.isNone_iff_eq_none.mp hadmits
        refine and_assoc.mp ⟨hw.give hnone,fun s hs => ?_⟩
        cases hs
        exact ⟨by simp [World.give],hw.created _ hnone⟩
      case fails e =>
        obtain ⟨rfl,rfl⟩ := hanswer
        exact ⟨hw,hw.leaves pid,(by simp)⟩
    · exact stable_fresh other q w w' hne hw hleaves (hfresh snapshot hr)
  · refine Contract.Keeps.exceptBind (K := fun _ _ => True) ?_ (fun _ => Contract.keeps_pure _ fun _ _ _ => trivial)
      fun _ _ _ _ => trivial
    refine Contract.keeps_action (fun w c b w' hw hP h => ?_) fun _ => (closedContract options).stable_true pid
    obtain ⟨-,hanswer⟩ := orderlyWorld_perform h
    cases c <;> simp only [World.answer, Option.some.injEq, Prod.mk.injEq, reduceCtorEq] at hanswer
    obtain ⟨rfl,rfl⟩ := hanswer
    exact and_assoc.mp ⟨hw.track (hP snapshot rfl) op.client _ (toSessionInfo_none_state snapshot) rfl,trivial⟩

theorem harmless_createSession (request : CreateSessionRequest) :
    Harmless (ν := ν) options op (createSession request) := by
  unfold createSession
  refine Harmless.bind (neutral_sync (Segment.within_take fun p => safeStep_of_sessions_eq ?_)).harmless fun claimed => ?_
  · unfold claimCreate
    split <;> rfl
  cases claimed with
  | inl existing => exact (neutral_perform rfl).harmless
  | inr pending =>
    refine (harmless_createSessionOnce request).attempt.bind fun outcome => ?_
    refine Harmless.bind ?_ fun _ => ?_
    · exact Neutral.harmless (neutral_sync (Segment.within_neutral fun _ => rfl))
    cases outcome with
    | ok session => exact (neutral_pure session).harmless
    | error error =>
      refine Harmless.bind ?_ fun _ => (neutral_throw error).harmless
      exact Neutral.harmless (neutral_sync (Segment.within_neutral fun _ => rfl))

end Creating

section Sending
variable {options : ℕ → OmnigentHttpClientOptions} {pid : ℕ} {op : Operation} {sessionId : Text} {request : SendTurnRequest}
  {A : OmnigentSessionMutationFenceState → Bool → Prop} {w : World ν}

/-- A session whose fence is open is closed for no client. -/
theorem FencesClosed.isOpen (h : FencesClosed options w) (hopen : (w.fences sessionId).closed = false) (client : ℕ) :
    (w.providers client).isClosed sessionId ≠ true := by
  intro hclosed
  unfold OmnigentHttpProvider.isClosed at hclosed
  cases hs : (w.providers client).sessions.get? sessionId with
  | none =>
    rw [hs] at hclosed
    cases hclosed
  | some info =>
    rw [hs] at hclosed
    have hsealed := (h.closed client sessionId info hs (by simpa using hclosed)).1
    rw [h.fence sessionId hsealed] at hopen
    cases hopen

/-- The lease is held, if the client heeds one. -/
def Guarded (options : ℕ → OmnigentHttpClientOptions) (op : Operation) (pid : ℕ) (sessionId : Text)
    (A : OmnigentSessionMutationFenceState → Bool → Prop) (w : World ν) : Prop :=
  (options op.client).withExclusiveSessionLease = true → Holds pid sessionId A w

theorem stable_guarded : (closedContract options).Stable pid (Guarded (ν := ν) options op pid sessionId A) :=
  fun other q w w' hne hw hl h hleased => stable_holds other q w w' hne hw hl (h hleased)

theorem blind_guarded : Blind (Guarded (ν := ν) options op pid sessionId A) := fun _ _ _ h => h

/-- The fence is open. -/
abbrev OpenFence (f : OmnigentSessionMutationFenceState) (_ : Bool) : Prop := f.closed = false

/-- An open fence in the place of an open one. -/
theorem keeps_writeOpen {state : OmnigentSessionMutationFenceState} (hA : ∀ f b, A f b → f.closed = false)
    (h : state.closed = false) :
    (closedContract options).Keeps (orderlyWorld ν) pid op (fun _ => Holds pid sessionId OpenFence)
      (perform (.writeFence sessionId state) : Async ν Unit).run (Holds pid sessionId A) := by
  refine keeps_writeFence (B := fun _ => OpenFence) (fun f b hf hb hsealed => ?_) (fun _ _ _ => h) (fun _ f b hf => hA f b hf)
    fun _ _ _ _ => h
  have hclosed := hb hsealed
  rw [hA f b hf] at hclosed
  cases hclosed

theorem keeps_persistRejectedTurnIdentities (turnIds : List Text) :
    (closedContract options).Keeps (orderlyWorld ν) pid op (fun _ => Guarded options op pid sessionId OpenFence)
      (persistRejectedTurnIdentities (options op.client) sessionId turnIds : Async ν Unit).run
      (Guarded options op pid sessionId OpenFence) := by
  unfold persistRejectedTurnIdentities
  split_ifs with hoptions
  · obtain ⟨hleased,-⟩ := (Bool.and_eq_true _ _ ▸ hoptions : _ ∧ _)
    refine Contract.Keeps.strengthen ?_ fun w _ hw => hw hleased
    refine keeps_readFence.exceptBind (fun state => ?_) fun e w _ hw _ => ⟨hw.1,hw.2.1⟩
    refine Contract.Keeps.strengthen (Contract.Keeps.assume fun hstate => ?_) fun w _ hw =>
      (⟨by rw [← hw.2.2 state rfl]; exact hw.2.1,hw⟩ : state.closed = false ∧ _)
    refine Contract.Keeps.weaken (keeps_writeOpen ?_ hstate) fun _ _ _ hw _ => hw
    exact fun f b hf => hf.1
  · exact Contract.keeps_pure () fun _ _ h => h

theorem neutral_postTurn (registered : RegisteredTurn ν) : Neutral options op (postTurn request registered) := by
  unfold postTurn
  refine Neutral.bind (neutral_perform rfl) fun ack => ?_
  cases ack with
  | denied reason => exact neutral_throw _
  | handled => exact neutral_sync (Segment.within_change fun p => (sessionStep_acknowledgeTurn _ _ _ p).safe)
  | accepted item_id pending_id => exact neutral_sync (Segment.within_change fun p => (sessionStep_acknowledgeTurn _ _ _ p).safe)

/-- Once its turn is registered a send leaves the fence open. -/
theorem keeps_sendRegisteredTurn (registered : RegisteredTurn ν) :
    (closedContract options).Keeps (orderlyWorld ν) pid op (fun _ => Guarded options op pid request.sessionId OpenFence)
      (sendRegisteredTurn (options op.client) request registered).run (Guarded options op pid request.sessionId OpenFence) := by
  unfold sendRegisteredTurn
  refine Neutral.keepsBind (neutral_postTurn registered).attempt stable_guarded blind_guarded (fun outcome => ?_)
    fun _ _ h => h
  cases outcome with
  | ok u => exact Contract.keeps_pure _ fun _ _ h => h
  | error error =>
    refine Neutral.keepsBind (neutral_sync (Segment.within_take fun p => (sessionStep_failSend registered error p).safe))
      stable_guarded blind_guarded (fun failed => ?_) fun _ _ h => h
    cases failed with
    | keptHandle => exact Contract.keeps_pure _ fun _ _ h => h
    | rolledBack => exact Contract.keeps_throw _ fun _ _ h => h
    | persist currentTurnId =>
      refine (keeps_persistRejectedTurnIdentities _).exceptBind (fun _ => ?_) fun _ _ _ h => h
      refine Neutral.keepsBind (neutral_sync (Segment.within_change fun p => (sessionStep_rollbackSend registered p).safe))
        stable_guarded blind_guarded (fun _ => ?_) fun _ _ h => h
      exact Contract.keeps_throw _ fun _ _ h => h

/-- What is known of the fence that a send heeds. -/
def Heeds (options : ℕ → OmnigentHttpClientOptions) (op : Operation) (pid : ℕ) (sessionId : Text)
    (sharedState : Option OmnigentSessionMutationFenceState) : World ν → Prop :=
  Guarded options op pid sessionId fun f b => b = f.closed ∧ sharedState = some f

theorem keeps_sharedStateOfSend :
    (closedContract options).Keeps (orderlyWorld ν) pid op
      (fun r w => Guarded options op pid request.sessionId (fun _ _ => True) w ∧ ∀ sharedState, r = .ok sharedState →
        Heeds options op pid request.sessionId sharedState w ∧
        (sharedState.isSome = true → (options op.client).withExclusiveSessionLease = true))
      (sharedStateOfSend (options op.client) request : Async ν _).run
      (Guarded options op pid request.sessionId fun f b => b = f.closed) := by
  unfold sharedStateOfSend
  split_ifs with hleased
  · refine Contract.Keeps.strengthen ?_ fun w _ hw => hw hleased
    refine keeps_readSharedState.exceptBind (fun state => ?_) fun e w _ hw => ⟨fun _ => ⟨hw.1,trivial⟩,(by simp)⟩
    refine Contract.keeps_pure _ fun w _ hw => ⟨fun _ => ⟨hw.1,trivial⟩,fun sharedState hs => ?_⟩
    cases hs
    exact ⟨fun _ => ⟨hw.1,hw.2.1,by rw [hw.2.2 state rfl]⟩,fun _ => hleased⟩
  · refine Contract.keeps_pure _ fun w _ _ => ⟨fun h => absurd h hleased,fun sharedState hs => ?_⟩
    cases hs
    exact ⟨fun h => absurd h hleased,(by simp)⟩

/-- A send that is let through heeds an open fence. -/
theorem Heeds.isOpen {sharedState : Option OmnigentSessionMutationFenceState}
    (h : Heeds options op pid sessionId sharedState w) (hopen : ∀ state, sharedState = some state → state.closed = false) :
    Guarded options op pid sessionId OpenFence w :=
  fun hleased => ⟨(h hleased).1,hopen _ (h hleased).2.2⟩

/-- The fence that a send heeds may close the session. -/
theorem Heeds.sealedFor {sharedState : Option OmnigentSessionMutationFenceState}
    (h : Heeds options op pid sessionId sharedState w)
    (hleased : sharedState.isSome = true → (options op.client).withExclusiveSessionLease = true)
    {state : OmnigentSessionMutationFenceState} (hstate : sharedState = some state) (hclosed : state.closed = true) :
    sealedFor options w op.client sessionId := by
  subst hstate
  obtain ⟨-,hb,hf⟩ := h (hleased rfl)
  cases hf
  exact ⟨hb.trans hclosed,hleased rfl⟩

section Registering
variable {mayClose : Text → Prop}

/-- A turn is registered in a session that is open once the server has none under way. -/
theorem registerAdmitted_safe (snapshot : OmnigentSessionSnapshot ν) (now : Text) (p : OmnigentHttpProvider ν)
    (hopen : p.isClosed request.sessionId ≠ true) :
    SafeStep mayClose p ((do
      admitUpstream request snapshot
      Segment.take (registerTurn request now) : Segment ν (RegisteredTurn ν)) p).2 := by
  refine Segment.allows_bind (R := closing mayClose) (P := fun p => p.isClosed request.sessionId ≠ true)
    (fun p _ => Segment.within_require _ _ p) (Segment.ensures_require _ _) (fun _ p hp => ?_) p hopen
  exact safeStep_registerTurn now p hp.1

theorem registerTurn_safe (sharedState : Option OmnigentSessionMutationFenceState) (now : Text)
    (h : ∀ state, sharedState = some state → state.closed = true → mayClose request.sessionId)
    {options : OmnigentHttpClientOptions} (p : OmnigentHttpProvider ν) :
    SafeStep mayClose p ((do
      admitTurn options request sharedState
      Segment.take (registerTurn request now) : Segment ν (RegisteredTurn ν)) p).2 := by
  refine Segment.allows_bind (R := closing mayClose) (fun p _ => (minding_admitTurn sharedState h).closing p)
    (admitTurn_ensures sharedState) (fun _ p hp => ?_) p trivial
  refine safeStep_registerTurn now p ?_
  rw [hp.2]
  simp

theorem admitRegister_ensures (sharedState : Option OmnigentSessionMutationFenceState) (now : Text)
    {options : OmnigentHttpClientOptions} :
    Segment.Ensures (ν := ν) (fun _ => True) (fun _ _ => ∀ state, sharedState = some state → state.closed = false) (do
      admitTurn options request sharedState
      Segment.take (registerTurn request now)) :=
  (admitTurn_ensures sharedState).bind fun _ _ _ hp _ => hp.1

end Registering

/-- The lease is held all through a send. -/
theorem keeps_sendTurnWithExclusiveLease :
    (closedContract options).Keeps (orderlyWorld ν) pid op
      (fun _ => Guarded options op pid request.sessionId fun _ _ => True)
      (sendTurnWithExclusiveLease (options op.client) request).run
      (Guarded options op pid request.sessionId fun f b => b = f.closed) := by
  have hdone : (closedContract options).Stable pid
      (Guarded (ν := ν) options op pid request.sessionId fun _ _ => True) := stable_guarded
  have hopen : ∀ w : World ν, Guarded options op pid request.sessionId OpenFence w →
      Guarded options op pid request.sessionId (fun _ _ => True) w := fun w h hleased => ⟨(h hleased).1,trivial⟩
  have hsend : ∀ registered : RegisteredTurn ν, (closedContract options).Keeps (orderlyWorld ν) pid op
      (fun _ => Guarded options op pid request.sessionId fun _ _ => True)
      (sendRegisteredTurn (options op.client) request registered).run (Guarded options op pid request.sessionId OpenFence) :=
    fun registered => (keeps_sendRegisteredTurn registered).weaken fun _ w _ => hopen w
  unfold sendTurnWithExclusiveLease
  refine keeps_sharedStateOfSend.exceptBind (fun sharedState => ?_) fun e w _ hw => hw.1
  refine Contract.Keeps.strengthen (Contract.Keeps.assume fun hleased => ?_) fun w _ hw =>
    (⟨(hw.2 _ rfl).2,(hw.2 _ rfl).1⟩ : (sharedState.isSome = true → _) ∧ _)
  have hheeds : ∀ w : World ν, Heeds options op pid request.sessionId sharedState w →
      Guarded options op pid request.sessionId (fun _ _ => True) w := fun w h hleased => ⟨(h hleased).1,trivial⟩
  split_ifs with hqueued
  · refine Contract.Keeps.exceptBind (keeps_segment (fun w _ hw => ?_) (fun p a ha => ?_) stable_guarded blind_guarded)
      (fun admitted => Contract.Keeps.strengthen ?_ fun w _ hw => hw.1.isOpen (hw.2 _ rfl)) fun e w _ hw => hheeds w hw.1
    · exact (minding_admitTurn sharedState fun _ hs hc => hw.sealedFor hleased hs hc).closing _
    · exact (admitTurn_ensures sharedState p a trivial ha).1
    refine Neutral.keepsBind (neutral_perform rfl) stable_guarded blind_guarded (fun snapshot => ?_) fun _ => hopen
    refine Neutral.keepsBind (neutral_perform rfl) stable_guarded blind_guarded (fun now => ?_) fun _ => hopen
    refine Contract.Keeps.exceptBind (keeps_sync (Q := fun _ => Guarded options op pid request.sessionId OpenFence)
      (fun w hw hw' => ?_) (fun _ _ h => h) fun _ => stable_guarded) hsend fun e w _ => hopen w
    exact registerAdmitted_safe snapshot now _ (hw.isOpen (hw' (Bool.and_eq_true _ _ ▸ hqueued : _ ∧ _).1).2 _)
  · refine Neutral.keepsBind (neutral_perform rfl) stable_guarded blind_guarded (fun now => ?_) fun _ => hheeds
    refine Contract.Keeps.exceptBind (keeps_segment (fun w _ hw => ?_) (fun p a ha => ?_) stable_guarded blind_guarded)
      (fun registered => (hsend registered).strengthen fun w _ hw => hw.1.isOpen (hw.2 _ rfl)) fun e w _ hw => hheeds w hw.1
    · exact registerTurn_safe sharedState now (fun _ hs hc => hw.sealedFor hleased hs hc) _
    · exact admitRegister_ensures sharedState now p a trivial ha

theorem harmless_sendTurn : Harmless (ν := ν) options op (sendTurn (options op.client) request) := by
  unfold sendTurn
  refine Harmless.bind (neutral_sync (Segment.within_take fun p => safeStep_of_sessions_eq ?_)).harmless fun claimed => ?_
  · unfold claimSend
    dsimp only
    split <;> rfl
  have hmutation : Harmless (ν := ν) options op (runSessionMutation (options op.client) request.sessionId
      (sendTurnWithExclusiveLease (options op.client) request)) := by
    unfold runSessionMutation
    split_ifs with hleased
    · refine harmless_withLease fun pid => ?_
      exact (keeps_sendTurnWithExclusiveLease.strengthen fun _ _ h _ => h).weaken fun _ _ _ h => h hleased
    · intro pid
      exact (keeps_sendTurnWithExclusiveLease.strengthen fun _ _ _ h => absurd h hleased).weaken fun _ _ _ _ => trivial
  cases claimed with
  | inl existing => exact (neutral_perform rfl).harmless
  | inr pending =>
    refine hmutation.attempt.bind fun outcome => ?_
    refine Harmless.bind ?_ fun _ => ?_
    · exact Neutral.harmless (neutral_sync (Segment.within_neutral fun _ => rfl))
    cases outcome with
    | ok handle => exact (neutral_pure handle).harmless
    | error error =>
      dsimp only
      split_ifs
      · refine Harmless.bind ?_ fun _ => (neutral_throw error).harmless
        exact Neutral.harmless (neutral_sync (Segment.within_neutral fun _ => rfl))
      · exact (neutral_throw error).harmless

end Sending

section Controls
variable {options : ℕ → OmnigentHttpClientOptions} {pid : ℕ} {op : Operation} {sessionId : Text} {handle : MutableTurnHandle}
  {o : OmnigentHttpClientOptions} {sharedState : OmnigentSessionMutationFenceState}

/-- The part leaves the fence open. -/
def LeavesOpen {α : Type} (options : ℕ → OmnigentHttpClientOptions) (op : Operation) (pid : ℕ) (sessionId : Text)
    (x : Async ν α) : Prop :=
  (closedContract options).Keeps (orderlyWorld ν) pid op (fun _ => Holds pid sessionId OpenFence) x.run
    (Holds pid sessionId OpenFence)

theorem LeavesOpen.bind {α β : Type} {x : Async ν β} {f : β → Async ν α} (hx : LeavesOpen options op pid sessionId x)
    (hf : ∀ b, LeavesOpen options op pid sessionId (f b)) : LeavesOpen options op pid sessionId (x >>= f) :=
  Contract.Keeps.exceptBind hx hf fun _ _ _ h => h

theorem Neutral.leavesOpen {α : Type} {x : Async ν α} (hx : Neutral options op x) : LeavesOpen options op pid sessionId x :=
  hx pid _ stable_holds blind_holds

theorem leavesOpen_attempt {α : Type} {x : Async ν α} (hx : LeavesOpen options op pid sessionId x) :
    LeavesOpen options op pid sessionId (Process.attempt x) :=
  Contract.Keeps.bind (x := x) hx fun _ _ _ h => h

theorem leavesOpen_writeFence {state : OmnigentSessionMutationFenceState} (h : state.closed = false) :
    LeavesOpen (ν := ν) options op pid sessionId (perform (.writeFence sessionId state)) :=
  keeps_writeOpen (fun _ _ hf => hf) h

section Cancelling
variable (hopen : sharedState.closed = false)
include hopen

theorem leavesOpen_settleInterrupt (rejectedTurnIds observed : List Text) (cancellationProofObserved : Bool) :
    LeavesOpen (ν := ν) options op pid handle.sessionId
      (settleInterrupt handle sharedState rejectedTurnIds observed cancellationProofObserved) := by
  have hfinish : LeavesOpen (ν := ν) options op pid handle.sessionId (do
      let now ← perform .now
      Async.sync (Segment.take (finishCancellation handle cancellationProofObserved now))) :=
    (neutral_perform rfl).leavesOpen.bind fun now => Neutral.leavesOpen
      (neutral_sync (Segment.within_take fun p =>
        (sessionStep_finishCancellation cancellationProofObserved now p).safe))
  unfold settleInterrupt
  split_ifs
  · refine LeavesOpen.bind ?_ fun _ => hfinish
    exact leavesOpen_writeFence hopen
  · refine LeavesOpen.bind ?_ fun _ => hfinish
    exact leavesOpen_writeFence hopen
  · exact hfinish

theorem leavesOpen_failCancellation (rejectedTurnIds : List Text) (error : ProviderError ν) :
    LeavesOpen options op pid handle.sessionId (failCancellation handle sharedState rejectedTurnIds error) := by
  unfold failCancellation
  refine LeavesOpen.bind (neutral_sync (Segment.within_look _)).leavesOpen fun observed => ?_
  split_ifs
  · refine (leavesOpen_writeFence hopen).bind fun _ => (neutral_perform rfl).leavesOpen.bind fun now => ?_
    exact LeavesOpen.bind (neutral_sync (Segment.within_change fun p =>
      noteStep_unreserve.safe.trans (sessionStep_reconcileOfficial observed now _).safe)).leavesOpen fun _ =>
      (neutral_throw error).leavesOpen
  · refine LeavesOpen.bind ?_ fun _ => (neutral_throw error).leavesOpen
    exact leavesOpen_writeFence hopen

theorem leavesOpen_interruptTurn (rejectedTurnIds : List Text) :
    LeavesOpen (ν := ν) options op pid handle.sessionId (interruptTurn handle sharedState rejectedTurnIds) := by
  unfold interruptTurn
  refine LeavesOpen.bind (Neutral.leavesOpen (Neutral.attempt ((neutral_perform rfl).bind fun ack =>
    neutral_sync (minding_confirmInterrupt ack).closing))) fun interrupted => ?_
  cases interrupted with
  | error error => exact leavesOpen_failCancellation hopen _ error
  | ok confirmed =>
    refine LeavesOpen.bind (leavesOpen_attempt (leavesOpen_settleInterrupt hopen _ _ _)) fun settled => ?_
    cases settled with
    | ok cancelled => exact (neutral_pure cancelled).leavesOpen
    | error error => exact leavesOpen_failCancellation hopen _ error

end Cancelling

/-- What the holder of the lease has just read of the fence. -/
abbrev ReadFence (state : OmnigentSessionMutationFenceState) (f : OmnigentSessionMutationFenceState) (b : Bool) : Prop :=
  b = f.closed ∧ f = state

/-- The fence is read first, under the lease. -/
theorem keeps_afterRead {α : Type} {f : OmnigentSessionMutationFenceState → Async ν α}
    (hf : ∀ state, (closedContract options).Keeps (orderlyWorld ν) pid op (fun _ => Holds pid sessionId fun _ _ => True)
      (f state).run (Holds pid sessionId (ReadFence state))) :
    (closedContract options).Keeps (orderlyWorld ν) pid op (fun _ => Holds pid sessionId fun _ _ => True)
      (readSharedState o sessionId >>= f).run (Holds pid sessionId fun f b => b = f.closed) := by
  refine keeps_readSharedState.exceptBind (fun state => ?_) fun e w _ hw => ⟨hw.1,trivial⟩
  exact (hf state).strengthen fun w _ hw => ⟨hw.1,hw.2.1,hw.2.2 state rfl⟩

theorem Holds.sealed {w : World ν} (h : Holds pid sessionId (ReadFence sharedState) w) (hclosed : sharedState.closed = true) :
    w.isSealed sessionId = true := by
  rw [h.2.1, h.2.2]
  exact hclosed

theorem keeps_cancelTurnWithExclusiveLease (hleased : (options op.client).withExclusiveSessionLease = true) :
    (closedContract options).Keeps (orderlyWorld ν) pid op (fun _ => Holds pid handle.sessionId fun _ _ => True)
      (cancelTurnWithExclusiveLease handle (options op.client) : Async ν ℕ).run
      (Holds pid handle.sessionId fun f b => b = f.closed) := by
  refine keeps_afterRead fun sharedState => ?_
  have hheld : ∀ w : World ν, Holds pid handle.sessionId OpenFence w → Holds pid handle.sessionId (fun _ _ => True) w :=
    fun w h => ⟨h.1,trivial⟩
  refine Contract.Keeps.exceptBind (keeps_segment (fun w _ hw => ?_) (fun p a => admitCancellation_ensures sharedState p a trivial)
    stable_holds blind_holds) (fun admitted => ?_) fun e w _ hw => ⟨hw.1.1,trivial⟩
  · exact (minding_admitCancellation sharedState fun hc => ⟨hw.sealed hc,hleased⟩).closing _
  refine Contract.Keeps.strengthen (Contract.Keeps.assume fun hopen => ?_) fun w _ hw =>
    (⟨hw.2 _ rfl,hw.1.1,by rw [OpenFence, hw.1.2.2]; exact hw.2 _ rfl⟩ :
      sharedState.closed = false ∧ Holds pid handle.sessionId OpenFence w)
  refine Contract.Keeps.weaken ?_ fun _ w _ => hheld w
  refine LeavesOpen.bind (neutral_perform rfl).leavesOpen fun snapshot => ?_
  refine LeavesOpen.bind (neutral_sync (minding_fenceCancellation snapshot).closing).leavesOpen fun fence => ?_
  refine LeavesOpen.bind ?_ fun _ => leavesOpen_interruptTurn hopen _
  exact leavesOpen_writeFence hopen

theorem harmless_cancelTurn : Harmless (ν := ν) options op (cancelTurn handle (options op.client)) := by
  unfold cancelTurn
  split_ifs with hoptions
  · obtain ⟨hleased,-⟩ := (Bool.and_eq_true _ _ ▸ hoptions : _ ∧ _)
    have hreserve : (reserveCancellation handle : Segment ν Unit).Within (closing fun _ => False) :=
      Segment.Within.bind (Segment.within_check _ _) fun _ => Segment.within_neutral fun _ => rfl
    refine Harmless.bind (neutral_sync hreserve).harmless fun _ => Harmless.finally' ?_ ?_
    · exact harmless_withLease fun pid => keeps_cancelTurnWithExclusiveLease hleased
    · exact Neutral.harmless (neutral_sync (Segment.within_neutral fun _ => rfl))
  · exact (neutral_throw _).harmless

/-- A fence that is not closed for good may be written in any way. -/
theorem keeps_writeUnsealed {state : OmnigentSessionMutationFenceState} (hopen : state.closed = false) :
    (closedContract options).Keeps (orderlyWorld ν) pid op (fun _ => Holds pid sessionId fun _ b => b = false)
      (perform (.writeFence sessionId state) : Async ν Unit).run (Holds pid sessionId fun _ b => b = false) := by
  refine keeps_writeFence (B := fun _ _ b => b = false) (fun f b hb _ hsealed => ?_) (fun f b hb => ?_)
    (fun _ _ _ hb => hb) fun _ _ _ hb => hb
  · rw [hb] at hsealed
    cases hsealed
  · rw [hb, hopen]
    rfl

/-- A session that is stopped has a fence that is closed for good once the mark of it is acknowledged. -/
theorem keeps_stopSession :
    (closedContract options).Keeps (orderlyWorld ν) pid op (fun r => Holds pid sessionId fun _ b => b = r.isOk)
      (stopSession sessionId sharedState : Async ν Unit).run (Holds pid sessionId fun _ b => b = false) := by
  unfold stopSession
  refine Neutral.keepsBind (neutral_perform rfl) stable_holds blind_holds (fun ack => ?_) fun _ _ h => h
  split
  · exact Contract.keeps_throw _ fun _ _ h => h
  · refine keeps_writeFence (B := fun r _ b => b = r.isOk) (fun _ _ _ _ _ => rfl) (fun f b _ => ?_) (fun _ _ _ hb => hb)
      fun _ _ _ hb => hb
    exact Bool.or_true b

theorem keeps_closeSessionWithExclusiveLease (hleased : (options op.client).withExclusiveSessionLease = true) :
    (closedContract options).Keeps (orderlyWorld ν) pid op (fun _ => Holds pid sessionId fun _ _ => True)
      (closeSessionWithExclusiveLease (options op.client) sessionId : Async ν Unit).run
      (Holds pid sessionId fun f b => b = f.closed) := by
  refine keeps_afterRead fun sharedState => ?_
  refine Contract.Keeps.exceptBind (keeps_segment (K := fun _ => True) (fun w _ hw => ?_) (fun _ _ _ => trivial)
    stable_holds blind_holds) (fun admitted => ?_) fun e w _ hw => ⟨hw.1.1,trivial⟩
  · exact (minding_admitClose sharedState fun hc => ⟨hw.sealed hc,hleased⟩).closing _
  dsimp only
  split_ifs with hclosed
  · have hopen : sharedState.closed = false := by simpa using hclosed
    have hdone : ∀ (A : OmnigentSessionMutationFenceState → Bool → Prop) (w : World ν), Holds pid sessionId A w →
        Holds pid sessionId (fun _ _ => True) w := fun A w h => ⟨h.1,trivial⟩
    refine Contract.Keeps.strengthen (P := Holds pid sessionId fun _ b => b = false) ?_ fun w _ hw =>
      ⟨hw.1.1,by rw [hw.1.2.1, hw.1.2.2]; exact hopen⟩
    refine Contract.Keeps.exceptBind (K := fun _ => Holds pid sessionId fun _ b => b = false) ?_ (fun _ => ?_)
      fun _ w _ => hdone _ w
    · exact keeps_writeUnsealed hopen
    refine keeps_stopSession.attemptBind fun stopped => ?_
    cases stopped with
    | ok u =>
      refine Neutral.keepsBind (neutral_perform rfl) stable_holds blind_holds (fun now => ?_) fun _ w => hdone _ w
      refine keeps_sync (fun w _ hw => ?_) (fun w _ hw => hdone _ w hw) fun _ => stable_holds
      exact safeStep_updateSession fun a _ _ =>
        ⟨fun _ => rfl,fun _ => rfl,fun _ => Or.inr ⟨hw.2,hleased⟩⟩
    | error error =>
      dsimp only
      split_ifs
      · refine Contract.Keeps.exceptBind (K := fun _ => Holds pid sessionId fun _ b => b = false) ?_
          (fun _ => Contract.keeps_throw error fun w _ => hdone _ w) fun _ w _ => hdone _ w
        exact keeps_writeUnsealed hopen
      · exact Contract.keeps_throw error fun w _ => hdone _ w
  · exact Contract.keeps_pure () fun w _ hw => ⟨hw.1.1,trivial⟩

theorem harmless_closeSession : Harmless (ν := ν) options op (closeSession (options op.client) sessionId) := by
  unfold closeSession
  split_ifs with hoptions
  · obtain ⟨hleased,-⟩ := (Bool.and_eq_true _ _ ▸ hoptions : _ ∧ _)
    exact harmless_withLease fun pid => keeps_closeSessionWithExclusiveLease hleased
  · exact (neutral_throw _).harmless

end Controls

section Runs
variable [JsNumber ν] {options : ℕ → OmnigentHttpClientOptions} {isDatetime : Text → Bool}

theorem harmless_callProcess (op : Operation) :
    Harmless (ν := ν) options op (callProcess isDatetime (options op.client) op.call) := by
  have hdone : ∀ {α : Type} {x : Async ν α} (f : α → CallResult ν), Harmless options op x →
      Harmless options op (do return f (← x)) := fun f hx => hx.bind fun a => (neutral_pure (f a)).harmless
  cases hcall : op.call with
  | createSession request => exact hdone _ (harmless_createSession request)
  | sendTurn request => exact hdone _ harmless_sendTurn
  | cancelTurn handle => exact hdone _ harmless_cancelTurn
  | closeSession sessionId => exact hdone _ harmless_closeSession
  | getSessionInfo sessionId => exact hdone _ harmless_getSessionInfo
  | readHistory sessionId afterSequence limit => exact hdone _ (harmless_readHistory isDatetime afterSequence limit)
  | streamEvents sessionId afterSequence => exact hdone _ (harmless_streamEvents isDatetime afterSequence)

omit [JsNumber ν] in
theorem initial_outlined (fences : Text → OmnigentSessionMutationFenceState) :
    (ProviderSystem.initial (ν := ν) fences).Outlined (orderlyWorld ν) (closedContract options) fun _ _ _ => True where
  inv := ⟨fun _ _ _ h => (by cases h),fun _ _ _ h => (by cases h),fun _ h => h,fun _ _ _ => rfl⟩
  outline _ _ _ h := by cases h

/-- Once a session is closed no call gives it another state or an active turn. -/
theorem closed_absorbing {fences : Text → OmnigentSessionMutationFenceState} {w w' : ProviderSystem ν}
    {before after : List (Move Operation (Answer ν))}
    (hbefore : run (Concurrent.step (orderlyWorld ν) (operationProcess options isDatetime))
      (ProviderSystem.initial fences) before = some w)
    (hafter : run (Concurrent.step (orderlyWorld ν) (operationProcess options isDatetime)) w after = some w')
    {client : ℕ} {sessionId : Text} {info : AgentSessionInfo ν} (htracked : w.shared.tracked client sessionId = some info)
    (hclosed : info.state = .closed) :
    ∃ info', w'.shared.tracked client sessionId = some info' ∧ info'.state = .closed ∧ info'.activeTurnId = none := by
  have hboot : ∀ pid op, (closedContract options).Keeps (orderlyWorld ν) pid op (fun _ _ => True)
      (operationProcess options isDatetime op) (fun _ => True) := fun pid op => harmless_callProcess op pid
  have hw := Concurrent.run_outlined (initial_outlined fences) hboot hbefore
  have hsteps : ∀ pid op (s t : World ν), (closedContract options).Guarantee pid op s t →
      ∀ info, s.tracked client sessionId = some info → info.state = .closed ∧ info.activeTurnId = none →
        ∃ info', t.tracked client sessionId = some info' ∧ info'.state = .closed ∧ info'.activeTurnId = none :=
    fun pid op s t hg info hi h => hg.closed client sessionId info hi h.1
  refine Concurrent.run_guarantee (T := fun s t => ∀ info, s.tracked client sessionId = some info →
    info.state = .closed ∧ info.activeTurnId = none → ∃ info', t.tracked client sessionId = some info' ∧
      info'.state = .closed ∧ info'.activeTurnId = none) (fun s info hi h => ⟨info,hi,h⟩) (fun s t u hst htu info hi h => ?_)
    hsteps hw hboot hafter info htracked
    ⟨hclosed,hw.inv.tidy client sessionId info htracked hclosed⟩
  obtain ⟨info',hi',h'⟩ := hst info hi h
  exact htu info' hi' h'

end Runs

/-- The server's view of the session "s" with an active response. -/
def runningSnapshot : OmnigentSessionSnapshot ℕ where
  activeResponseId := some (Text.of "r")
  activeTurnId := none
  createdAt := startOfEpoch
  id := Text.of "s"
  items := []
  pendingInputs := []
  status := .running
  title := Text.of "title"
  updatedAt := startOfEpoch

/-- A client closes a session that it has just created. -/
def closingMoves : List (Move Operation (Answer ℕ)) :=
  [.start ⟨0,.createSession ⟨Text.of "k",Text.of "title"⟩⟩,.resume 0 .proceeds,.resume 0 (.snapshot runningSnapshot),
    .resume 0 .proceeds,.resume 0 .proceeds,.start ⟨0,.closeSession (Text.of "s")⟩,.resume 1 .proceeds,.resume 1 .proceeds,
    .resume 1 .proceeds,.resume 1 .proceeds,.resume 1 (.ack .handled),.resume 1 .proceeds,.resume 1 (.time startOfEpoch),
    .resume 1 .proceeds]

/-- A snapshot of the session as running comes after that. -/
def lateSnapshotMoves : List (Move Operation (Answer ℕ)) :=
  [.resume 1 .proceeds,.start ⟨0,.getSessionInfo (Text.of "s")⟩,.resume 2 .proceeds,.resume 2 .proceeds,.resume 2 .proceeds,
    .resume 2 .proceeds,.resume 2 (.snapshot runningSnapshot),.resume 2 .proceeds]

/-- Clients that heed the lease and the fences. -/
def leasingSystem : ProviderSystem ℕ → Move Operation (Answer ℕ) → Option (ProviderSystem ℕ) :=
  Concurrent.step (orderlyWorld ℕ) (operationProcess (fun _ => ⟨false,true,true⟩) (fun _ => true))

theorem closed_absorbing_lateSnapshot : ∃ w' : ProviderSystem ℕ,
    (run leasingSystem (ProviderSystem.initial fun _ => {}) closingMoves).bind (run leasingSystem · lateSnapshotMoves) =
      some w' ∧ ∃ info, w'.shared.tracked 0 (Text.of "s") = some info ∧ info.state = .closed ∧ info.activeTurnId = none := by
  have hclosed : (run leasingSystem (ProviderSystem.initial fun _ => {}) closingMoves).any (fun w =>
      (w.shared.tracked 0 (Text.of "s")).any (fun info => decide (info.state = .closed)) &&
        (run leasingSystem w lateSnapshotMoves).isSome) = true := by decide +kernel
  obtain ⟨w,hw,h⟩ := (Option.any_eq_true _ _).mp hclosed
  obtain ⟨htracked,hlate⟩ := (Bool.and_eq_true _ _ ▸ h : _ ∧ _)
  obtain ⟨info,hinfo,hstate⟩ := (Option.any_eq_true _ _).mp htracked
  obtain ⟨w',hw'⟩ := Option.isSome_iff_exists.mp hlate
  refine ⟨w',by rw [hw]; exact hw',?_⟩
  exact closed_absorbing hw hw' hinfo (of_decide_eq_true hstate)

end OmniagentPlus.OmnigentTransport
