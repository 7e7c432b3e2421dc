import OmniagentPlus.OmnigentTransport.FencedFleet

/-! What every process of the fleet relies on and guarantees: it writes a fence only under the lease, and
takes one away only where it may. -/
namespace OmniagentPlus.OmnigentTransport
open OmniagentPlus.Foundation OmniagentPlus.CoreContracts
variable {ν : Type}
namespace Fleet

/-- What a client has noted of its cancellations goes back to a handle that it is to cancel and, where an
event of the turn is noted, to one that was seen. -/
structure Noted (C : MutableTurnHandle → Prop) (saw : Text → Text → Prop) (p : OmnigentHttpProvider ν) : Prop where
  reservations : ∀ sessionId turnId, p.cancellationReservations.get? sessionId = some turnId →
    ∃ handle, C handle ∧ handle.sessionId = sessionId ∧ handle.turnId = turnId
  proofs : ∀ key, p.earlyCancellationProofKeys.has key = true →
    ∃ handle, C handle ∧ cancelKey handle = key ∧ saw handle.sessionId handle.turnId

/-- A fence that cancels a turn neither closes the session nor has closed it. -/
structure Sound (C : ℕ → MutableTurnHandle → Prop) (F : Fleet ν) : Prop where
  fences : ∀ sessionId, (F.fences sessionId).cancellation.isSome = true →
    (F.fences sessionId).closing = false ∧ (F.fences sessionId).closed = false
  noted : ∀ client, Noted (C client) (F.SawEventOf client) (F.world.providers client)

/-- What a step of a process does to what the others rely on. -/
structure Guards (pid : ℕ) (op : Operation) (F F' : Fleet ν) : Prop where
  crashed : ∀ other, F.crashed other = true → F'.crashed other = true
  held : ∀ sessionId other, other ≠ pid → F.world.leases sessionId = some other →
    F'.crashed other = true ∨ (F'.world.leases sessionId = some other ∧ F'.fences sessionId = F.fences sessionId)
  replies : ∀ other, other ≠ pid → F'.replies other = F.replies other
  observed : ∀ client sessionId event, F.observed client sessionId event → F'.observed client sessionId event
  asked : ∀ request, F'.asked = some request → request.Fenced op F.fences
  keeps : KeepsFences pid op F F'

/-- Each client is to cancel only the handles that `C` has. -/
def contract (C : ℕ → MutableTurnHandle → Prop) : Contract Operation (Fleet ν) where
  Invariant := Sound C
  Guarantee := Guards

section Knowledge
variable {C : ℕ → MutableTurnHandle → Prop} {pid : ℕ} {P Q : Fleet ν → Prop}

/-- What a process knows lasts through the steps of the others, and through its own as long as they leave
fences and leases alone. -/
structure Known (C : ℕ → MutableTurnHandle → Prop) (pid : ℕ) (P : Fleet ν → Prop) : Prop where
  stable : (contract C).Stable pid P
  blind : ∀ F F' : Fleet ν, F'.world.leases = F.world.leases → F'.fences = F.fences → F'.crashed = F.crashed →
    F'.replies pid = F.replies pid → (∀ client sessionId event, F.observed client sessionId event →
      F'.observed client sessionId event) → P F → P F'

/-- What lasts as long as nothing that was seen is forgotten. -/
def Enduring (P : Fleet ν → Prop) : Prop := ∀ F F' : Fleet ν, (∀ client sessionId event,
  F.observed client sessionId event → F'.observed client sessionId event) → P F → P F'

theorem Enduring.known (h : Enduring P) : Known C pid P where
  stable _ _ F F' _ _ hg hP := h F F' hg.observed hP
  blind F F' _ _ _ _ ho hP := h F F' ho hP

theorem known_const (c : Prop) : Known (ν := ν) C pid fun _ => c :=
  ⟨fun _ _ _ _ _ _ _ h => h,fun _ _ _ _ _ _ _ h => h⟩

theorem enduring_const (c : Prop) : Enduring (ν := ν) fun _ => c := fun _ _ _ h => h

theorem Known.and (hP : Known C pid P) (hQ : Known C pid Q) : Known C pid fun F => P F ∧ Q F where
  stable := hP.stable.and _ hQ.stable
  blind F F' hl hf hc hr ho h := ⟨hP.blind F F' hl hf hc hr ho h.1,hQ.blind F F' hl hf hc hr ho h.2⟩

theorem SawEventOf.mono {F F' : Fleet ν} {client : ℕ} {sessionId turnId : Text} (h : F.SawEventOf client sessionId turnId)
    (ho : ∀ event, F.observed client sessionId event → F'.observed client sessionId event) :
    F'.SawEventOf client sessionId turnId := by
  obtain ⟨event,hseen,hconcerns⟩ := h
  exact ⟨event,ho event hseen,hconcerns⟩

theorem enduring_observed (client : ℕ) (sessionId : Text) (event : OmnigentRawEvent ν) :
    Enduring fun F => F.observed client sessionId event := fun _ _ ho h => ho _ _ _ h

theorem enduring_sawEventOf (client : ℕ) (sessionId turnId : Text) :
    Enduring (ν := ν) fun F => F.SawEventOf client sessionId turnId := fun _ _ ho h => h.mono (ho client sessionId)

/-- The process crashed, or it holds the session's lease and knows `A` of its fence and of what its control
request came to. -/
def Holds (pid : ℕ) (sessionId : Text)
    (A : OmnigentSessionMutationFenceState → Option (Except (ProviderError ν) OmnigentEventAck) → Prop) (F : Fleet ν) : Prop :=
  F.crashed pid = true ∨ (F.world.leases sessionId = some pid ∧ A (F.fences sessionId) (F.replies pid))

variable {sessionId : Text}
  {A B : OmnigentSessionMutationFenceState → Option (Except (ProviderError ν) OmnigentEventAck) → Prop}

theorem Holds.weaken {F : Fleet ν} (h : Holds pid sessionId A F) (hAB : ∀ f r, A f r → B f r) : Holds pid sessionId B F :=
  h.imp_right fun hA => ⟨hA.1,hAB _ _ hA.2⟩

theorem Holds.live {F : Fleet ν} (h : Holds pid sessionId A F) (hlive : F.crashed pid = false) :
    F.world.leases sessionId = some pid ∧ A (F.fences sessionId) (F.replies pid) := by
  obtain hcrashed | hA := h
  · rw [hlive] at hcrashed
    cases hcrashed
  · exact hA

theorem known_holds : Known C pid (Holds pid sessionId A) where
  stable other op F F' hne _ hg h := by
    obtain hcrashed | ⟨hl,hA⟩ := h
    · exact Or.inl (hg.crashed pid hcrashed)
    · refine (hg.held sessionId pid (Ne.symm hne) hl).imp_right fun hheld => ⟨hheld.1,?_⟩
      rw [hheld.2, hg.replies pid (Ne.symm hne)]
      exact hA
  blind F F' hl hf hc hr _ h := by
    unfold Holds
    rw [hl, hf, hc, hr]
    exact h

end Knowledge

section Steps
variable [JsNumber ν] {C : ℕ → MutableTurnHandle → Prop} {pid : ℕ} {op : Operation} {β : Type} {x : Action ν β} {c : Answer ν} {b : β}
  {F F' : Fleet ν}

/-- What an answered action does. -/
structure Performed (pid : ℕ) (op : Operation) {β : Type} (x : Action ν β) (c : Answer ν) (b : β) (F F' : Fleet ν) : Prop where
  live : F.crashed pid = false
  holder : x.holder F.world c ≠ some pid
  answer : World.answer pid op.client x F.world c = some (b,F'.world)
  written : F' = F.after pid op x c b F'.world
  steady : (x.writeError c).any isPolicyDenied = true → (F.replies pid).any isAcceptance = false

theorem performed (h : (steadyWorld ν).perform pid op x F c = some (b,F')) : Performed pid op x c b F F' := by
  simp only [steadyWorld, Fleet.answer] at h
  split_ifs at h with hsteady hlive
  obtain ⟨⟨b',w⟩,hanswer,heq⟩ := Option.map_eq_some_iff.mp h
  cases heq
  rw [Bool.not_eq_true, Bool.or_eq_false_iff, decide_eq_false_iff_not] at hlive
  rw [Bool.and_eq_true, not_and] at hsteady
  exact ⟨hlive.1,hlive.2,hanswer,rfl,fun hdenied => Bool.eq_false_iff.mpr (hsteady hdenied)⟩

namespace Performed

theorem crashed (h : Performed pid op x c b F F') (other : ℕ) :
    F'.crashed other = (F.crashed other || decide (x.holder F.world c = some other)) := by
  rw [h.written]
  rfl

theorem crashed_eq (h : Performed pid op x c b F F') (hnone : x.holder F.world c = none) : F'.crashed = F.crashed := by
  funext other
  rw [h.crashed, hnone]
  simp

theorem asked (h : Performed pid op x c b F F') : F'.asked = x.asks := by
  rw [h.written]
  rfl

theorem replies (h : Performed pid op x c b F F') {other : ℕ} (hne : other ≠ pid) : F'.replies other = F.replies other := by
  rw [h.written]
  exact if_neg hne

theorem reply (h : Performed pid op x c b F F') : F'.replies pid = (x.controlReply b).or (F.replies pid) := by
  rw [h.written]
  exact if_pos rfl

theorem observed (h : Performed pid op x c b F F') {client : ℕ} {sessionId : Text} {event : OmnigentRawEvent ν}
    (hseen : F.observed client sessionId event) : F'.observed client sessionId event := by
  rw [h.written]
  exact Or.inl hseen

theorem sees (h : Performed pid op x c b F F') {sessionId : Text} {event : OmnigentRawEvent ν}
    (hsees : Observes op sessionId event x b) : F'.observed op.client sessionId event := by
  rw [h.written]
  exact Or.inr ⟨rfl,hsees⟩

/-- A step that writes no fence guards them all. -/
theorem guards (h : Performed pid op x c b F F') (hfences : F'.fences = F.fences)
    (hheld : ∀ sessionId other, other ≠ pid → F.world.leases sessionId = some other →
      F'.crashed other = true ∨ F'.world.leases sessionId = some other)
    (hasks : ∀ request, x.asks = some request → request.Fenced op F.fences) : Guards pid op F F' where
  crashed other hcrashed := by
    rw [h.crashed, hcrashed, Bool.true_or]
  held sessionId other hne hl := (hheld sessionId other hne hl).imp_right fun hl' => ⟨hl',congrFun hfences sessionId⟩
  replies _ := h.replies
  observed _ _ _ := h.observed
  asked request hrequest := hasks request (h.asked ▸ hrequest)
  keeps := by
    refine ⟨fun sessionId fence hfence => Or.inl ?_,fun sessionId hclosing => Or.inl ?_⟩
    · rw [hfences, hfence]
      rfl
    · rw [hfences]
      exact hclosing

end Performed

omit [JsNumber ν] in
/-- What the clients noted stays true while they see more. -/
theorem Noted.mono {C : MutableTurnHandle → Prop} {saw saw' : Text → Text → Prop} {p : OmnigentHttpProvider ν}
    (h : Noted C saw p) (hsaw : ∀ s t, saw s t → saw' s t) : Noted C saw' p where
  reservations := h.reservations
  proofs key hkey := by
    obtain ⟨handle,hC,hcancel,hseen⟩ := h.proofs key hkey
    exact ⟨handle,hC,hcancel,hsaw _ _ hseen⟩

theorem Sound.step (h : Sound C F) (hperformed : Performed pid op x c b F F') (hfences : F'.fences = F.fences)
    (hproviders : F'.world.providers = F.world.providers) : Sound C F' where
  fences := by
    rw [hfences]
    exact h.fences
  noted client := by
    rw [hproviders]
    exact (h.noted client).mono fun _ _ hsaw => hsaw.mono fun _ => hperformed.observed

/-- A request changes nothing but what is written down. -/
theorem Performed.world (h : Performed pid op x c b F F') (hx : x.isQuiet = true) : F'.world = F.world :=
  World.answer_quiet hx h.answer

/-- What a process knows lasts where neither a fence nor a lease nor its control reply changes. -/
theorem Performed.known (h : Performed pid op x c b F F') {P : Fleet ν → Prop} (hP : Known C pid P)
    (hholder : x.holder F.world c = none) (hreply : x.controlReply b = none) (hleases : F'.world.leases = F.world.leases)
    (hfences : F'.fences = F.fences) (hF : P F) : P F' := by
  refine hP.blind F F' hleases hfences (h.crashed_eq hholder) ?_ (fun _ _ _ => h.observed) hF
  rw [h.reply, hreply]
  rfl

end Steps

section Rules
variable [JsNumber ν] {C : ℕ → MutableTurnHandle → Prop} {pid : ℕ} {op : Operation} {α β : Type} {P : Fleet ν → Prop}

/-- A stretch of code, by what the client notes in it and what is known after it. -/
theorem keeps_sync {segment : Segment ν α} {Q : Except (ProviderError ν) α → Fleet ν → Prop}
    (hnoted : ∀ F, Sound C F → P F →
      Noted (C op.client) (F.SawEventOf op.client) (segment (F.world.providers op.client)).2)
    (hQ : ∀ F F', Sound C F → P F → F'.world = F.world.setProvider op.client (segment (F.world.providers op.client)).2 →
      Performed pid op (.sync segment) .proceeds (segment (F.world.providers op.client)).1 F F' →
        Q (segment (F.world.providers op.client)).1 F')
    (hstable : ∀ r, (contract C).Stable pid (Q r)) :
    (contract C).Keeps (steadyWorld ν) pid op Q (Async.sync segment).run P := by
  refine Contract.keeps_action (fun F c b F' hF hP h => ?_) hstable
  have hperformed := performed h
  have hanswer := hperformed.answer
  change World.answer pid op.client (.sync segment) F.world c = _ at hanswer
  cases c <;> simp only [World.answer, Option.some.injEq, Prod.mk.injEq, reduceCtorEq] at hanswer
  obtain ⟨rfl,hworld⟩ := hanswer
  have hfences : F'.fences = F.fences := by
    unfold Fleet.fences
    rw [← hworld]
    rfl
  refine ⟨⟨?_,fun client => ?_⟩,hperformed.guards hfences (fun _ _ _ hl => Or.inr ?_) fun _ hrequest => (by cases hrequest),
    hQ F F' hF hP hworld.symm hperformed⟩
  · rw [hfences]
    exact hF.fences
  · rw [← hworld]
    by_cases hclient : client = op.client
    · subst hclient
      simp only [World.setProvider, Function.update_self]
      exact (hnoted F hF hP).mono fun _ _ hsaw => hsaw.mono fun _ => hperformed.observed
    · simp only [World.setProvider, Function.update_of_ne hclient]
      exact (hF.noted client).mono fun _ _ hsaw => hsaw.mono fun _ => hperformed.observed
  · rw [← hworld]
    exact hl

omit [JsNumber ν] in
theorem Sound.noted_of_eq {F : Fleet ν} (h : Sound C F) {client : ℕ} {q : OmnigentHttpProvider ν}
    (hq : q.proofBooks = (F.world.providers client).proofBooks) : Noted (C client) (F.SawEventOf client) q := by
  simp only [OmnigentHttpProvider.proofBooks, Prod.mk.injEq] at hq
  refine ⟨?_,?_⟩
  · rw [hq.1]
    exact (h.noted client).reservations
  · rw [hq.2]
    exact (h.noted client).proofs

/-- A stretch of code that leaves the notes of cancellations alone, by what it returns. -/
theorem keeps_segment {segment : Segment ν α} {K : Except (ProviderError ν) α → Prop}
    (hsparing : segment.Within sparingProofs) (hK : ∀ p, K (segment p).1) (hP : Known C pid P) :
    (contract C).Keeps (steadyWorld ν) pid op (fun r F => P F ∧ K r) (Async.sync segment).run P := by
  refine keeps_sync (fun F hF _ => hF.noted_of_eq (hsparing _)) (fun F F' _ hPF hworld hperformed => ⟨?_,?_⟩) fun r => ?_
  · refine hperformed.known hP rfl rfl ?_ ?_ hPF
    · rw [hworld]
      rfl
    · unfold Fleet.fences
      rw [hworld]
      rfl
  · exact hK _
  · exact (hP.and (known_const _)).stable

/-- A process that leaves what is known of fences and leases as it is. -/
def Quiet (C : ℕ → MutableTurnHandle → Prop) (op : Operation) (x : Async ν α) : Prop :=
  ∀ pid P, Known C pid P → (contract C).Keeps (steadyWorld ν) pid op (fun _ => P) x.run P

theorem quiet_pure (a : α) : Quiet (ν := ν) C op (pure a) := fun _ _ _ => Contract.keeps_pure a fun _ _ h => h

theorem quiet_throw (e : ProviderError ν) : Quiet (α := α) C op (throw e) :=
  fun _ _ _ => Contract.keeps_throw e fun _ _ h => h

theorem quiet_sync {segment : Segment ν α} (h : segment.Within sparingProofs) : Quiet C op (Async.sync segment) :=
  fun _ _ hP => (keeps_segment (K := fun _ => True) h (fun _ => trivial) hP).weaken fun _ _ _ h => h.1

omit [JsNumber ν] in
/-- An idle action, in the world. -/
theorem answer_idle {client : ℕ} {x : Action ν β} (hx : x.isIdle = true) {w w' : World ν} {c : Answer ν} {b : β}
    (h : World.answer pid client x w c = some (b,w')) :
    w'.providers = w.providers ∧ w'.fences = w.fences ∧ w'.leases = w.leases ∧ x.holder w c = none ∧ x.asks = none ∧
      x.controlReply b = none := by
  cases x
  case createSession request =>
    cases c <;> simp only [World.answer, Option.some.injEq, Prod.mk.injEq, reduceCtorEq] at h
    all_goals
      obtain ⟨-,rfl⟩ := h
      exact ⟨rfl,rfl,rfl,rfl,rfl,rfl⟩
  case sync | acquireLease | releaseLease | writeFence | sendTurn | interrupt | stopSession => cases hx
  all_goals
    obtain rfl := World.answer_quiet rfl h
    exact ⟨rfl,rfl,rfl,rfl,rfl,rfl⟩

/-- An idle action, by what it returns. -/
theorem keeps_idle {x : Action ν (Except (ProviderError ν) α)} {K : Except (ProviderError ν) α → Prop}
    (hx : x.isIdle = true) (hK : ∀ w c b w', World.answer pid op.client x w c = some (b,w') → K b) (hP : Known C pid P) :
    (contract C).Keeps (steadyWorld ν) pid op (fun r F => P F ∧ K r) (perform x).run P := by
  refine Contract.keeps_action (fun F c b F' hF hPF h => ?_) fun r => ?_
  · have hperformed := performed h
    obtain ⟨hproviders,hworld,hleases,hholder,hasks,hreply⟩ := answer_idle hx hperformed.answer
    have hfences : F'.fences = F.fences := hworld
    refine ⟨hF.step hperformed hfences hproviders,hperformed.guards hfences (fun s other _ hl => Or.inr ?_) ?_,
      hperformed.known hP hholder hreply hleases hfences hPF,hK _ _ _ _ hperformed.answer⟩
    · rw [hleases]
      exact hl
    · intro request hrequest
      rw [hasks] at hrequest
      cases hrequest
  · exact (hP.and (known_const _)).stable

theorem quiet_idle {x : Action ν (Except (ProviderError ν) α)} (hx : x.isIdle = true) : Quiet C op (perform x) :=
  fun _ _ hP => (keeps_idle (K := fun _ => True) hx (fun _ _ _ _ _ => trivial) hP).weaken fun _ _ _ h => h.1

end Rules

section Leases
variable [JsNumber ν] {C : ℕ → MutableTurnHandle → Prop} {pid : ℕ} {op : Operation} {α β : Type} {P : Fleet ν → Prop}
  {sessionId : Text} {A : OmnigentSessionMutationFenceState → Option (Except (ProviderError ν) OmnigentEventAck) → Prop}

theorem keeps_acquireLease (hP : Enduring P) :
    (contract C).Keeps (steadyWorld ν) pid op (fun r F => P F ∧ ∀ u, r = .ok u → Holds pid sessionId (fun _ _ => True) F)
      (perform (.acquireLease sessionId) : Async ν Unit).run P := by
  refine Contract.keeps_action (fun F c b F' hF hPF h => ?_) fun r => ?_
  · have hperformed := performed h
    have hanswer := hperformed.answer
    have hPF' := hP F F' (fun _ _ _ => hperformed.observed) hPF
    cases c <;> simp only [World.answer, Option.some.injEq, Prod.mk.injEq, reduceCtorEq] at hanswer
    case proceeds =>
      obtain ⟨rfl,hworld⟩ := hanswer
      have hfences : F'.fences = F.fences := (congrArg World.fences hworld).symm
      refine ⟨hF.step hperformed hfences (congrArg World.providers hworld).symm,
        hperformed.guards hfences (fun s other hne hl => ?_) (fun _ hrequest => (by cases hrequest)),hPF',
        fun _ _ => Or.inr ⟨?_,trivial⟩⟩
      · by_cases hs : s = sessionId
        · subst hs
          refine Or.inl ?_
          rw [hperformed.crashed]
          simp only [Action.holder, hl, decide_true, Bool.or_true]
        · refine Or.inr ?_
          rw [← hworld]
          simp only [World.acquire, Function.update_of_ne hs]
          exact hl
      · rw [← hworld]
        exact Function.update_self ..
    case fails e =>
      obtain ⟨rfl,hworld⟩ := hanswer
      have hfences : F'.fences = F.fences := (congrArg World.fences hworld).symm
      refine ⟨hF.step hperformed hfences (congrArg World.providers hworld).symm,
        hperformed.guards hfences (fun s other _ hl => Or.inr ?_) (fun _ hrequest => (by cases hrequest)),hPF',
        fun _ hu => by cases hu⟩
      rw [← hworld]
      exact hl
  · refine hP.known.stable.and _ ?_
    exact fun other q F F' hne hF hg hheld u hu => known_holds.stable other q F F' hne hF hg (hheld u hu)

theorem keeps_releaseLease :
    (contract C).Keeps (steadyWorld ν) pid op (fun _ _ => True) (perform (.releaseLease sessionId) : Async ν Unit).run
      (fun _ => True) := by
  refine Contract.keeps_action (fun F c b F' hF _ h => ?_) fun _ => (contract C).stable_true pid
  have hperformed := performed h
  have hanswer := hperformed.answer
  have hrelease : F'.world = F.world.release pid sessionId := by
    cases c <;> simp only [World.answer, Option.some.injEq, Prod.mk.injEq, reduceCtorEq] at hanswer
    all_goals exact hanswer.2.symm
  have hfences : F'.fences = F.fences := by
    unfold Fleet.fences
    rw [hrelease]
    unfold World.release
    split_ifs <;> rfl
  have hproviders : F'.world.providers = F.world.providers := by
    rw [hrelease]
    unfold World.release
    split_ifs <;> rfl
  refine ⟨hF.step hperformed hfences hproviders,
    hperformed.guards hfences (fun s other hne hl => Or.inr ?_) (fun _ hrequest => (by cases hrequest)),trivial⟩
  rw [hrelease]
  unfold World.release
  split_ifs with hheld
  · have hs : s ≠ sessionId := by
      rintro rfl
      rw [hheld] at hl
      exact hne (Option.some.inj hl).symm
    exact (Function.update_of_ne hs ..).trans hl
  · exact hl

/-- What is done under the lease knows that the lease is held. -/
theorem keeps_withLease {operation : Async ν α} (hP : Enduring P)
    (hbody : (contract C).Keeps (steadyWorld ν) pid op (fun _ _ => True) operation.run
      (fun F => Holds pid sessionId (fun _ _ => True) F ∧ P F)) :
    (contract C).Keeps (steadyWorld ν) pid op (fun _ _ => True) (withExclusiveSessionLease sessionId operation).run P := by
  refine (keeps_acquireLease hP).exceptBind (fun u => ?_) fun _ _ _ _ => trivial
  refine Contract.Keeps.finally' (K := fun _ _ => True) (D := fun _ _ _ => True)
    (hbody.strengthen fun F _ h => ⟨h.2 u rfl,h.1⟩) (fun _ => keeps_releaseLease) (fun _ _ _ _ => trivial)
    fun _ _ _ _ _ => trivial

/-- The holder of the lease reads the fence. -/
theorem keeps_readFence (hP : Enduring P) :
    (contract C).Keeps (steadyWorld ν) pid op
      (fun r F => Holds pid sessionId (fun f reply => A f reply ∧ ∀ state, r = .ok state → f = state) F ∧ P F)
      (perform (.readFence sessionId) : Async ν _).run (fun F => Holds pid sessionId A F ∧ P F) := by
  refine Contract.keeps_action (fun F c b F' hF hPF h => ?_) fun _ => known_holds.stable.and _ hP.known.stable
  have hperformed := performed h
  have hworld := hperformed.world rfl
  have hfences : F'.fences = F.fences := congrArg World.fences hworld
  have hknown : Holds pid sessionId A F' ∧ P F' :=
    hperformed.known (C := C) (known_holds.and hP.known) rfl rfl (congrArg World.leases hworld) hfences hPF
  refine ⟨hF.step hperformed hfences (congrArg World.providers hworld),
    hperformed.guards hfences (fun s other _ hl => Or.inr (hworld ▸ hl)) (fun _ hrequest => (by cases hrequest)),?_,hknown.2⟩
  refine hknown.1.imp_right fun hheld => ⟨hheld.1,hheld.2,fun state hstate => ?_⟩
  have hanswer := hperformed.answer
  cases c <;> simp only [World.answer, Option.some.injEq, Prod.mk.injEq, reduceCtorEq] at hanswer
  case proceeds =>
    obtain ⟨rfl,-⟩ := hanswer
    cases hstate
    exact congrFun hfences sessionId
  case fails e =>
    obtain ⟨rfl,-⟩ := hanswer
    cases hstate

/-- The holder of the lease may put the fence in the place of the one that it knows. -/
structure MayWrite (pid : ℕ) (op : Operation) (sessionId : Text) (state : OmnigentSessionMutationFenceState)
    (F : Fleet ν) : Prop where
  sound : state.cancellation.isSome = true → state.closing = false ∧ state.closed = false
  cancellation : ∀ fence, (F.fences sessionId).cancellation = some fence →
    state.cancellation.map (·.turnId) = some fence.turnId ∨ F.Released pid op sessionId fence.turnId
  closing : (F.fences sessionId).closing = true → state.closing = true ∨ state.closed = true ∨
    (op.call = .closeSession sessionId ∧ (F.replies pid).any isDenial = true)

/-- A fence that is written, and lasts or not. -/
theorem Performed.writes {F F' : Fleet ν} {c : Answer ν} {b : Except (ProviderError ν) Unit}
    {state : OmnigentSessionMutationFenceState} (h : Performed pid op (.writeFence sessionId state) c b F F') :
    F'.world.providers = F.world.providers ∧ F'.world.leases = F.world.leases ∧
      (F'.fences = F.fences ∨ F'.fences = Function.update F.fences sessionId state) := by
  have hanswer := h.answer
  cases c <;> simp only [World.answer, Option.some.injEq, Prod.mk.injEq, reduceCtorEq] at hanswer
  case proceeds =>
    unfold Fleet.fences
    rw [← hanswer.2]
    exact ⟨rfl,rfl,Or.inr rfl⟩
  case fails e =>
    unfold Fleet.fences
    rw [← hanswer.2]
    exact ⟨rfl,rfl,Or.inl rfl⟩
  case losesReply e =>
    unfold Fleet.fences
    rw [← hanswer.2]
    exact ⟨rfl,rfl,Or.inr rfl⟩

/-- A fence that its holder may write is kept as it may be. -/
theorem Performed.guardsWritten {F F' : Fleet ν} {c : Answer ν} {b : Except (ProviderError ν) Unit}
    {state : OmnigentSessionMutationFenceState} (h : Performed pid op (.writeFence sessionId state) c b F F')
    (hF : Sound C F) (hheld : F.world.leases sessionId = some pid) (hmay : MayWrite pid op sessionId state F)
    (hfences : F'.fences = Function.update F.fences sessionId state) : Sound C F' ∧ Guards pid op F F' := by
  obtain ⟨hproviders,hleases,-⟩ := h.writes
  have hat : F'.fences sessionId = state := by
    rw [hfences]
    exact Function.update_self ..
  have hother : ∀ s, s ≠ sessionId → F'.fences s = F.fences s := by
    intro s hs
    rw [hfences]
    exact Function.update_of_ne hs ..
  refine ⟨⟨fun s => ?_,fun client => ?_⟩,⟨fun other hcrashed => ?_,fun s other hne hl => Or.inr ⟨?_,hother s ?_⟩,
    fun other hne => h.replies hne,fun _ _ _ => h.observed,fun request hrequest => ?_,⟨fun s fence hfence => ?_,
      fun s hclosing => ?_⟩⟩⟩
  · by_cases hs : s = sessionId
    · rw [hs, hat]
      exact hmay.sound
    · rw [hother s hs]
      exact hF.fences s
  · rw [hproviders]
    exact (hF.noted client).mono fun _ _ hsaw => hsaw.mono fun _ => h.observed
  · rw [h.crashed, hcrashed, Bool.true_or]
  · rw [hleases]
    exact hl
  · rintro rfl
    rw [hheld] at hl
    exact hne (Option.some.inj hl).symm
  · rw [h.asked] at hrequest
    cases hrequest
  · by_cases hs : s = sessionId
    · subst hs
      rw [hat]
      exact hmay.cancellation fence hfence
    · rw [hother s hs, hfence]
      exact Or.inl rfl
  · by_cases hs : s = sessionId
    · subst hs
      rw [hat]
      exact hmay.closing hclosing
    · rw [hother s hs]
      exact Or.inl hclosing

/-- The holder of the lease writes the fence: acknowledged, failed, or with its reply lost. -/
theorem keeps_writeFence {state : OmnigentSessionMutationFenceState}
    {B : Except (ProviderError ν) Unit → OmnigentSessionMutationFenceState →
      Option (Except (ProviderError ν) OmnigentEventAck) → Prop} (hP : Enduring P)
    (hmay : ∀ F, Sound C F → A (F.fences sessionId) (F.replies pid) → P F → MayWrite pid op sessionId state F)
    (hok : ∀ f reply, A f reply → B (.ok ()) state reply)
    (herror : ∀ e f g reply, (isPolicyDenied e = true → reply.any isAcceptance = false) → A f reply → g = f ∨ g = state →
      B (.error e) g reply) :
    (contract C).Keeps (steadyWorld ν) pid op (fun r F => Holds pid sessionId (B r) F ∧ P F)
      (perform (.writeFence sessionId state) : Async ν Unit).run (fun F => Holds pid sessionId A F ∧ P F) := by
  refine Contract.keeps_action (fun F c b F' hF hPF h => ?_) fun _ => known_holds.stable.and _ hP.known.stable
  have hperformed := performed h
  obtain ⟨hheld,hA⟩ := hPF.1.live hperformed.live
  obtain ⟨hproviders,hleases,hwritten⟩ := hperformed.writes
  have hreply : F'.replies pid = F.replies pid := hperformed.reply
  have hguards : Sound C F' ∧ Guards pid op F F' := by
    obtain hsame | hupdated := hwritten
    · refine ⟨hF.step hperformed hsame hproviders,hperformed.guards hsame (fun s other _ hl => Or.inr ?_)
        (fun _ hrequest => (by cases hrequest))⟩
      rw [hleases]
      exact hl
    · exact hperformed.guardsWritten hF hheld (hmay F hF hA hPF.2) hupdated
  refine ⟨hguards.1,hguards.2,Or.inr ⟨?_,?_⟩,hP F F' (fun _ _ _ => hperformed.observed) hPF.2⟩
  · rw [hleases]
    exact hheld
  · rw [hreply]
    have hanswer := hperformed.answer
    have hsteady := hperformed.steady
    cases c <;> simp only [World.answer, Option.some.injEq, Prod.mk.injEq, reduceCtorEq] at hanswer
    case proceeds =>
      obtain ⟨rfl,hworld⟩ := hanswer
      have hat : F'.fences sessionId = state := by
        unfold Fleet.fences
        rw [← hworld]
        exact Function.update_self ..
      rw [hat]
      exact hok _ _ hA
    all_goals
      obtain ⟨rfl,-⟩ := hanswer
      refine herror _ _ _ _ (fun he => hsteady he) hA ?_
      obtain hsame | hupdated := hwritten
      · exact Or.inl (congrFun hsame sessionId)
      · refine Or.inr ?_
        rw [hupdated]
        exact Function.update_self ..

/-- The holder of the lease makes a request that depends on the fence. -/
theorem keeps_request {B : OmnigentSessionMutationFenceState → Prop} {x : Action ν (Except (ProviderError ν) α)}
    (hx : x.isQuiet = true) (hP : Enduring P)
    (hasks : ∀ F : Fleet ν, B (F.fences sessionId) → P F → ∀ request, x.asks = some request → request.Fenced op F.fences) :
    (contract C).Keeps (steadyWorld ν) pid op
      (fun r F => Holds pid sessionId (fun f reply => B f ∧ ∀ control, x.controlReply r = some control →
        reply = some control) F ∧ P F)
      (perform x).run (fun F => Holds pid sessionId (fun f _ => B f) F ∧ P F) := by
  refine Contract.keeps_action (fun F c b F' hF hPF h => ?_) fun _ => known_holds.stable.and _ hP.known.stable
  have hperformed := performed h
  obtain ⟨hheld,hB⟩ := hPF.1.live hperformed.live
  have hworld := hperformed.world hx
  have hfences : F'.fences = F.fences := congrArg World.fences hworld
  refine ⟨hF.step hperformed hfences (congrArg World.providers hworld),
    hperformed.guards hfences (fun s other _ hl => Or.inr (hworld ▸ hl)) (hasks F hB hPF.2),Or.inr ⟨hworld ▸ hheld,?_,?_⟩,
    hP F F' (fun _ _ _ => hperformed.observed) hPF.2⟩
  · rw [hfences]
    exact hB
  · intro control hcontrol
    rw [hperformed.reply, hcontrol]
    rfl

end Leases
end Fleet
end OmniagentPlus.OmnigentTransport
