import OmniagentPlus.CoreContracts.FakeLifecycle

/-! Runs of the fake runtime: a session has an active turn exactly while one runs, and a close is final
unless a turn was started while it waited. -/
namespace OmniagentPlus.CoreContracts.FakeRuntime
open OmniagentPlus.Foundation OmniagentPlus.CoreContracts
variable {ν : Type} {isDatetime : Text → Bool}

namespace FakeAgentRuntimeProvider
variable {p p' : FakeAgentRuntimeProvider ν} {sessionId : Text} {r : FakeSessionRecord ν}

structure Sound (p : FakeAgentRuntimeProvider ν) : Prop where
  records : ∀ sessionId r, p.sessionsById.get? sessionId = some r → r.Sound ∧ r.session.id = sessionId
  keys : ∀ key sessionId, p.sessionsByCreateKey.get? key = some sessionId → sessionId = sessionIdOf key
  fresh : ∀ key, p.sessionsByCreateKey.get? key = none → p.sessionsById.get? (sessionIdOf key) = none

/-- A fulfilled close has closed its session. -/
def Kept (p : FakeAgentRuntimeProvider ν) : Prop :=
  ∀ sessionId r, p.sessionsById.get? sessionId = some r → r.closePromise = some .fulfilled → r.session.state = .closed

/-- Where a close goes on after its wait, no turn has become active in the meantime. -/
def Undisturbed (p : FakeAgentRuntimeProvider ν) : FakeMove → Prop
  | .call _ _ => True
  | .resumeClose _ sessionId => ∀ r, p.sessionsById.get? sessionId = some r → r.session.activeTurnId = none

instance decidableUndisturbed (p : FakeAgentRuntimeProvider ν) : ∀ m, Decidable (p.Undisturbed m)
  | .call _ _ => isTrue trivial
  | .resumeClose _ sessionId =>
    decidable_of_iff ((p.sessionsById.get? sessionId).all (fun r => r.session.activeTurnId.isNone) = true)
      (by simp [Undisturbed, Option.all_eq_true])

/-- What a step does to each session that is there before it. -/
def Follows (p p' : FakeAgentRuntimeProvider ν) : Prop :=
  ∀ sessionId r, p.sessionsById.get? sessionId = some r →
    ∃ r', p'.sessionsById.get? sessionId = some r' ∧ r.Follows r'

lemma Sound.onRecord (h : p.Sound) (sessionId : Text) {change : FakeSessionRecord ν → FakeSessionRecord ν}
    (hchange : ∀ r, p.sessionsById.get? sessionId = some r → r.Follows (change r)) :
    (p.onRecord sessionId change).Sound ∧ p.Follows (p.onRecord sessionId change) := by
  unfold FakeAgentRuntimeProvider.onRecord
  cases hr : p.sessionsById.get? sessionId with
  | none => exact ⟨h,fun id r hid => ⟨r,hid,(h.records id r hid).1.follows_self⟩⟩
  | some r =>
    obtain ⟨hsound,hid⟩ := h.records sessionId r hr
    have hnext := hchange r hr
    constructor
    · constructor
      · intro id r' hr'
        rw [Dictionary.get?_set] at hr'
        split_ifs at hr' with hsame
        · cases hr'
          exact ⟨hnext.sound,by rw [hnext.sessionId, hid, hsame]⟩
        · exact h.records id r' hr'
      · exact h.keys
      · intro key hkey
        have hnone := h.fresh key hkey
        rw [Dictionary.get?_set, if_neg ?_]
        · exact hnone
        · rintro rfl
          rw [hr] at hnone
          cases hnone
    · intro id r' hr'
      by_cases hsame : id = sessionId
      · subst hsame
        rw [hr] at hr'
        cases hr'
        exact ⟨change r,Dictionary.get?_set_self _ _ _,hnext⟩
      · refine ⟨r',?_,(h.records id r' hr').1.follows_self⟩
        rw [Dictionary.get?_set, if_neg hsame]
        exact hr'

lemma Kept.onRecord (hkept : p.Kept) {change : FakeSessionRecord ν → FakeSessionRecord ν}
    (hchange : ∀ r, p.sessionsById.get? sessionId = some r → r.Follows (change r) ∧
      ((change r).closePromise = some .fulfilled → r.closePromise = some .fulfilled ∨ (change r).session.state = .closed)) :
    (p.onRecord sessionId change).Kept := by
  unfold FakeAgentRuntimeProvider.onRecord
  cases hr : p.sessionsById.get? sessionId with
  | none => exact hkept
  | some r =>
    obtain ⟨hnext,hsettles⟩ := hchange r hr
    intro id r' hr' hfulfilled
    rw [Dictionary.get?_set] at hr'
    split_ifs at hr'
    · cases hr'
      rcases hsettles hfulfilled with hbefore | hclosed
      · have hclosed := hkept sessionId r hr hbefore
        rw [hnext.closed hclosed]
        exact hclosed
      · exact hclosed
    · exact hkept id r' hr' hfulfilled

lemma sessionIdOf_injective {key key' : Text} (h : sessionIdOf key = sessionIdOf key') : key = key' :=
  List.append_cancel_left h

section Steps
variable [JsNumber ν] {now : Text}

/-- A session that is created is new, idle and without turns. -/
lemma createSession_spec (h : p.Sound) (hnow : isDatetime now = true) (request : CreateSessionRequest) :
    (createSession isDatetime now p request).Sound ∧ p.Follows (createSession isDatetime now p request) ∧
      (p.Kept → (createSession isDatetime now p request).Kept) := by
  have hsame : p.Follows p := fun id r hid => ⟨r,hid,(h.records id r hid).1.follows_self⟩
  unfold createSession
  dsimp only
  split_ifs with hparses hexisting
  · exact ⟨h,hsame,fun hk => hk⟩
  · exact ⟨h,hsame,fun hk => hk⟩
  · have hkey : p.sessionsByCreateKey.get? request.idempotencyKey = none := by
      cases hget : p.sessionsByCreateKey.get? request.idempotencyKey with
      | none => rfl
      | some id =>
        refine absurd ?_ hexisting
        have hid : id ≠ [] := by
          rw [h.keys _ id hget]
          simp [sessionIdOf, Text.of, Text.ofChar]
        rw [Text.truthy_eq_some.mpr ⟨hget,hid⟩]
        rfl
    have hnew := h.fresh _ hkey
    have hid : sessionIdOf request.idempotencyKey ≠ [] := by simp [sessionIdOf, Text.of, Text.ofChar]
    have hvalid : Valid isDatetime (createdEvent (ν := ν) now (sessionIdOf request.idempotencyKey) request.title) := by
      intro sequence hsequence
      have htitle : request.title ≠ [] := by
        have := hparses
        simp only [CreateSessionRequest.parses] at this
        simp_all
      simp [RuntimeEventEnvelope.parses, createdEvent, optionalNonempty, hid, hnow, hsequence, htitle,
        RuntimeEventPayload.parses]
    obtain ⟨stream,hcreated,hstream⟩ := Extends.created (s := ⟨sessionIdOf request.idempotencyKey,
      sessionIdOf request.idempotencyKey ++ Text.of "-bootstrap",[],1⟩) Nat.one_pos hvalid rfl
    rw [hcreated]
    dsimp only
    have hsound : FakeSessionRecord.Sound (ν := ν)
        { session := ⟨none,now,stream.lastSequence,sessionIdOf request.idempotencyKey,
            sessionIdOf request.idempotencyKey,.idle,request.title,now⟩
          stream := stream
          createKey := request.idempotencyKey } := by
      refine ⟨hid,hstream.1 ▸ hid,hstream.2.1,?_,?_,?_,.resting (Or.inl rfl) rfl ?_,?_⟩
      · exact fun k hk => absurd hk List.not_mem_nil
      · exact fun k hk => absurd hk List.not_mem_nil
      · intro t i ht
        cases ht
      · exact fun k hk => absurd hk List.not_mem_nil
      · obtain ⟨-,-,new,hnew,hmap⟩ := hstream
        obtain ⟨e,rfl,he⟩ := List.map_eq_singleton_iff.mp hmap
        refine ⟨(by simp),?_⟩
        simp [FakeSessionRecord.closedEvents, hnew, he, createdEvent, RuntimeEventPayload.type]
    refine ⟨⟨?_,?_,?_⟩,?_,?_⟩
    · intro id r hr
      rw [Dictionary.get?_set] at hr
      split_ifs at hr with hsame
      · cases hr
        exact ⟨hsound,hsame.symm⟩
      · exact h.records id r hr
    · intro key id hget
      rw [Dictionary.get?_set] at hget
      split_ifs at hget with hsame
      · cases hget
        rw [hsame]
      · exact h.keys key id hget
    · intro key hget
      rw [Dictionary.get?_set] at hget
      split_ifs at hget with hsame
      rw [Dictionary.get?_set, if_neg fun he => hsame (sessionIdOf_injective he)]
      exact h.fresh key hget
    · intro id r hr
      refine ⟨r,?_,(h.records id r hr).1.follows_self⟩
      rw [Dictionary.get?_set, if_neg ?_]
      · exact hr
      · rintro rfl
        rw [hnew] at hr
        cases hr
    · intro hkept id r hr hfulfilled
      rw [Dictionary.get?_set] at hr
      split_ifs at hr
      · cases hr
        cases hfulfilled
      · exact hkept id r hr hfulfilled

theorem call_spec (h : p.Sound) (hnow : isDatetime now = true) (c : FakeCall) :
    (call isDatetime now p c).Sound ∧ p.Follows (call isDatetime now p c) ∧
      (p.Kept → (call isDatetime now p c).Kept) := by
  have hrecord : ∀ {sessionId} (change : FakeSessionRecord ν → FakeSessionRecord ν),
      (∀ r : FakeSessionRecord ν, r.Sound → r.Follows (change r) ∧
        ((change r).closePromise = some .fulfilled →
          r.closePromise = some .fulfilled ∨ (change r).session.state = .closed)) →
      (p.onRecord sessionId change).Sound ∧ p.Follows (p.onRecord sessionId change) ∧
        (p.Kept → (p.onRecord sessionId change).Kept) := by
    intro sessionId change hchange
    have hfollows := h.onRecord sessionId fun r hr => (hchange r (h.records _ r hr).1).1
    exact ⟨hfollows.1,hfollows.2,fun hk => hk.onRecord fun r hr => hchange r (h.records _ r hr).1⟩
  cases c with
  | createSession request => exact createSession_spec h hnow request
  | sendTurn request =>
    unfold call
    dsimp only
    split_ifs with hparses
    · refine hrecord _ fun r hr => ?_
      obtain ⟨hfollows,hpromise⟩ := FakeSessionRecord.sendTurn_follows hr hnow hparses
      exact ⟨hfollows,fun hf => Or.inl (hpromise ▸ hf)⟩
    · exact ⟨h,fun id r hid => ⟨r,hid,(h.records id r hid).1.follows_self⟩,fun hk => hk⟩
  | cancelTurn sessionId turnId =>
    refine hrecord _ fun r hr => ?_
    obtain ⟨hfollows,hpromise⟩ := FakeSessionRecord.cancelTurn_follows hr hnow turnId
    exact ⟨hfollows,fun hf => Or.inl (hpromise ▸ hf)⟩
  | completeTurn sessionId turnId =>
    refine hrecord _ fun r hr => ?_
    obtain ⟨hfollows,hpromise⟩ := FakeSessionRecord.completeTurn_follows hr hnow turnId
    exact ⟨hfollows,fun hf => Or.inl (hpromise ▸ hf)⟩
  | closeSession sessionId => exact hrecord _ fun r hr => FakeSessionRecord.closeSession_follows hr hnow

theorem step_spec (h : p.Sound) {m : FakeMove} (hnow : isDatetime m.now = true) (hstep : step isDatetime p m = some p') :
    p'.Sound ∧ p.Follows p' ∧ (p.Undisturbed m → p.Kept → p'.Kept) := by
  cases m with
  | call now c =>
    cases hstep
    obtain ⟨hsound,hfollows,hkept⟩ := call_spec h hnow c
    exact ⟨hsound,hfollows,fun _ => hkept⟩
  | resumeClose now sessionId =>
    obtain ⟨r,hr,hstep⟩ := Option.bind_eq_some_iff.mp hstep
    split at hstep
    · rename_i cancelled hwaiting
      cases hstep
      have hsame : ∀ r', p.sessionsById.get? sessionId = some r' → r' = r := fun r' hr' =>
        Option.some.inj (hr'.symm.trans hr)
      obtain ⟨hfollows,-,hdone⟩ := FakeSessionRecord.resumeClose_follows (h.records _ r hr).1 hnow hwaiting
      have honRecord := h.onRecord sessionId fun r' hr' => (hsame r' hr').symm ▸ hfollows
      refine ⟨honRecord.1,honRecord.2,fun hfree hkept => hkept.onRecord fun r' hr' => ?_⟩
      rw [hsame r' hr']
      exact ⟨hfollows,fun _ => Or.inr (hdone.mp (hfree r hr))⟩
    · cases hstep

/-- A close that goes on while a turn is active is fulfilled, and its session is not closed. -/
lemma disturbed_not_kept (h : p.Sound) {m : FakeMove} (hnow : isDatetime m.now = true) (hm : ¬p.Undisturbed m)
    (hstep : step isDatetime p m = some p') : ¬p'.Kept := by
  cases m with
  | call now c => exact absurd trivial hm
  | resumeClose now sessionId =>
    simp only [Undisturbed, not_forall] at hm
    obtain ⟨r₀,hr₀,hactive⟩ := hm
    obtain ⟨r,hr,hstep⟩ := Option.bind_eq_some_iff.mp hstep
    obtain rfl : r₀ = r := Option.some.inj (hr₀.symm.trans hr)
    split at hstep
    · rename_i cancelled hwaiting
      cases hstep
      obtain ⟨-,hfulfilled,hclosed⟩ := FakeSessionRecord.resumeClose_follows (h.records _ r₀ hr).1 hnow hwaiting
      intro hkept
      have hget : (p.onRecord sessionId fun r => r.resumeClose isDatetime now cancelled).sessionsById.get? sessionId =
          some (r₀.resumeClose isDatetime now cancelled) := by
        simp [FakeAgentRuntimeProvider.onRecord, hr]
      exact hactive (hclosed.mpr (hkept _ _ hget hfulfilled))
    · cases hstep

omit [JsNumber ν] in
lemma sound_init : ({} : FakeAgentRuntimeProvider ν).Sound where
  records _ _ hr := by cases hr
  keys _ _ hget := by cases hget
  fresh _ _ := rfl

/-- The readings of the clock in a run are date-times. -/
def Clocked (isDatetime : Text → Bool) (moves : List FakeMove) : Prop := ∀ m ∈ moves, isDatetime m.now = true

lemma run_sound {moves : List FakeMove} (hmoves : Clocked isDatetime moves) (h : p.Sound)
    (hrun : run (step isDatetime) p moves = some p') : p'.Sound := by
  induction moves generalizing p with
  | nil =>
    cases hrun
    exact h
  | cons m moves ih =>
    obtain ⟨q,hq,hrun⟩ := (run_cons_eq_some _).mp hrun
    exact ih (fun m' hm' => hmoves m' (List.mem_cons_of_mem m hm'))
      (step_spec h (hmoves m List.mem_cons_self) hq).1 hrun

/-- A closed session stays as it is to the end of a run. -/
lemma run_closed {moves : List FakeMove} (hmoves : Clocked isDatetime moves) (h : p.Sound)
    (hrun : run (step isDatetime) p moves = some p') (hr : p.sessionsById.get? sessionId = some r)
    (hclosed : r.session.state = .closed) : p'.sessionsById.get? sessionId = some r := by
  induction moves generalizing p with
  | nil =>
    cases hrun
    exact hr
  | cons m moves ih =>
    obtain ⟨q,hq,hrun⟩ := (run_cons_eq_some _).mp hrun
    obtain ⟨hsound,hfollows,-⟩ := step_spec h (hmoves m List.mem_cons_self) hq
    obtain ⟨r',hr',hnext⟩ := hfollows sessionId r hr
    rw [hnext.closed hclosed] at hr'
    exact ih (fun m' hm' => hmoves m' (List.mem_cons_of_mem m hm')) hsound hrun hr'

lemma run_kept {moves : List FakeMove} (hmoves : Clocked isDatetime moves) (h : p.Sound) (hkept : p.Kept)
    (hfree : Meets (step isDatetime) Undisturbed p moves) (hrun : run (step isDatetime) p moves = some p') : p'.Kept := by
  induction moves generalizing p with
  | nil =>
    cases hrun
    exact hkept
  | cons m moves ih =>
    obtain ⟨q,hq,hrun⟩ := (run_cons_eq_some _).mp hrun
    obtain ⟨hsound,-,hkeeps⟩ := step_spec h (hmoves m List.mem_cons_self) hq
    exact ih (fun m' hm' => hmoves m' (List.mem_cons_of_mem m hm')) hsound (hkeeps hfree.1 hkept) (hfree.2 q hq) hrun

end Steps

/-- What a fulfilled close promises: the session is closed with one closing event, and it and its turns
are the same from then on. -/
def CloseFinal [JsNumber ν] (isDatetime : Text → Bool) (p : FakeAgentRuntimeProvider ν) : Prop :=
  ∀ sessionId r, p.sessionsById.get? sessionId = some r → r.closePromise = some .fulfilled →
    r.session.state = .closed ∧ r.closedEvents = 1 ∧
      ∀ later p', Clocked isDatetime later → run (step isDatetime) p later = some p' →
        p'.sessionsById.get? sessionId = some r

section Runs
variable [JsNumber ν]

/-- In every state of a run a session has an active turn exactly while it is active, and that is exactly
while one of its turns runs. A fulfilled close is final in every state exactly where no close of the run
goes on, after its wait, over a turn that has become active. -/
theorem fakeRuntime_lifecycle {moves : List FakeMove} (hmoves : Clocked isDatetime moves) {p : FakeAgentRuntimeProvider ν}
    (hrun : run (step isDatetime) {} moves = some p) :
    (∀ sessionId r, p.sessionsById.get? sessionId = some r →
      (r.session.activeTurnId.isSome ↔ r.session.state = .turnActive) ∧
        (r.session.state = .turnActive ↔ r.runningHandles.length = 1)) ∧
      (Meets (step isDatetime) Undisturbed ({} : FakeAgentRuntimeProvider ν) moves ↔
        ∀ before after (q : FakeAgentRuntimeProvider ν), moves = before ++ after →
          run (step isDatetime) {} before = some q → CloseFinal isDatetime q) := by
  refine ⟨fun sessionId r hr => ((run_sound hmoves sound_init hrun).records sessionId r hr).1.lifecycle,?_,?_⟩
  · intro hfree before after q hsplit hq sessionId r hr hfulfilled
    subst hsplit
    have hbefore : Clocked isDatetime before := fun m hm => hmoves m (List.mem_append_left _ hm)
    have hsound := run_sound hbefore sound_init hq
    have hinit : ({} : FakeAgentRuntimeProvider ν).Kept := fun _ _ hr => by cases hr
    have hclosed := run_kept hbefore sound_init hinit (meets_start _ hfree) hq sessionId r hr hfulfilled
    refine ⟨hclosed,?_,fun later p' hlater hrun' => run_closed hlater hsound hrun' hr hclosed⟩
    have hclose := (hsound.records sessionId r hr).1.close
    unfold FakeSessionRecord.ClosePhase at hclose
    rwa [hfulfilled] at hclose
  · intro hfinal
    refine meets_of_at _ fun before m after q hsplit hq => ?_
    by_contra hm
    subst hsplit
    rw [run_append, hq, Option.bind_some, run_cons_eq_some] at hrun
    obtain ⟨q',hq',-⟩ := hrun
    have hbefore : Clocked isDatetime before := fun m hm => hmoves m (List.mem_append_left _ hm)
    have hnow : isDatetime m.now = true := hmoves m (List.mem_append_right _ List.mem_cons_self)
    refine disturbed_not_kept (run_sound hbefore sound_init hq) hnow hm hq' ?_
    have hfinal' := hfinal (before ++ [m]) after q' (by simp) (by rw [run_append, hq, Option.bind_some, run, hq']; rfl)
    exact fun sessionId r hr hfulfilled => (hfinal' sessionId r hr hfulfilled).1

/-- A session with a turn is closed, and while the close waits another turn is started. -/
def closeOverTurn : List FakeMove :=
  let now := Text.of "2026-01-01T00:00:00.000Z"
  let sessionId := Text.of "session-s"
  [.call now (.createSession ⟨Text.of "s",Text.of "title"⟩),
    .call now (.sendTurn ⟨sessionId,none,Text.of "first",[]⟩),
    .call now (.closeSession sessionId),
    .call now (.sendTurn ⟨sessionId,none,Text.of "second",[]⟩),
    .resumeClose now sessionId]

/-- The same without the turn in between. -/
def closeAlone : List FakeMove := closeOverTurn.eraseIdx 3

end Runs

/-- No number occurs in the sample runs. -/
instance sampleNumber : JsNumber Bool where
  ofLiteral _ := false
  isFinite _ := true
  isInteger _ := true
  isNonnegative _ := true
  toText _ := []
  epochToIso _ := none

/-- The close is fulfilled while the second turn runs. -/
theorem closeOverTurn_not_final : ¬∀ p : FakeAgentRuntimeProvider Bool,
    run (step fun _ => true) {} closeOverTurn = some p → CloseFinal (fun _ => true) p := by
  intro h
  have hfinal := h _ rfl (Text.of "session-s") _ rfl rfl
  exact absurd hfinal.1 (by decide)

theorem fakeRuntime_lifecycle_closeAlone : ∃ p : FakeAgentRuntimeProvider Bool,
    run (step fun _ => true) {} closeAlone = some p ∧ CloseFinal (fun _ => true) p := by
  have hmoves : Clocked (fun _ => true) closeAlone := fun _ _ => rfl
  refine ⟨_,rfl,?_⟩
  refine (fakeRuntime_lifecycle hmoves rfl).2.mp ?_ closeAlone [] _ (List.append_nil _).symm rfl
  decide +kernel

end FakeAgentRuntimeProvider
end OmniagentPlus.CoreContracts.FakeRuntime
