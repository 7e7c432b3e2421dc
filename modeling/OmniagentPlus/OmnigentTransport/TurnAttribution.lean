import OmniagentPlus.OmnigentTransport.TurnCorrelation
import OmniagentPlus.OmnigentTransport.HistoryLifecycle

/-! After any calls and frames no turn has two responses, and a terminal frame that names no
response ends a turn only where no other turn waits for one. -/
namespace OmniagentPlus.OmnigentTransport
open OmniagentPlus.Foundation OmniagentPlus.CoreContracts
namespace OmnigentSseNormalizer

section Tracking
variable (s : OmnigentSseNormalizer) (turnId : Text)

lemma apart_trackUnboundTurnId (h : s.Apart) : (s.trackUnboundTurnId turnId).Apart := by
  unfold trackUnboundTurnId
  split_ifs with htracked
  · exact h
  · rw [not_or, not_or, Dictionary.mem_values_iff] at htracked
    exact UnboundApart.announce h htracked.1 htracked.2.1 htracked.2.2

/-- Which response is active is nothing that the lists or the bindings depend on. -/
lemma setActiveResponseId_lists (responseId : Option Text) :
    (s.setActiveResponseId responseId).unboundTurnIds = s.unboundTurnIds ∧
      (s.setActiveResponseId responseId).pendingTerminalTurnIds = s.pendingTerminalTurnIds ∧
        (s.setActiveResponseId responseId).responseAliases = s.responseAliases := by
  cases responseId with
  | none => exact ⟨rfl,rfl,rfl⟩
  | some responseId =>
    simp only [setActiveResponseId]
    split_ifs
    · exact ⟨rfl,rfl,rfl⟩
    · exact ⟨rfl,rfl,rfl⟩
    · split
      · exact ⟨rfl,rfl,rfl⟩
      · exact ⟨rfl,rfl,rfl⟩

lemma rejectTurnId_lists : (s.rejectTurnId turnId).unboundTurnIds = (s.removeFallbackTurnId turnId).unboundTurnIds ∧
    (s.rejectTurnId turnId).pendingTerminalTurnIds = (s.removeFallbackTurnId turnId).pendingTerminalTurnIds ∧
      (s.rejectTurnId turnId).responseAliases = (s.removeFallbackTurnId turnId).responseAliases := by
  simp only [rejectTurnId]
  split_ifs
  · exact ⟨rfl,rfl,rfl⟩
  · exact ⟨rfl,rfl,rfl⟩

lemma apart_removeFallbackTurnId (h : s.Apart) : (s.removeFallbackTurnId turnId).Apart := by
  have herased : UnboundApart (s.unboundTurnIds.erase turnId) (s.pendingTerminalTurnIds.erase turnId)
      s.responseAliases := UnboundApart.sublist h List.erase_sublist List.erase_sublist
  exact herased.filter fun aliasId => decide (aliasId ≠ turnId)

lemma injective_removeFallbackTurnId (h : s.Injective) : (s.removeFallbackTurnId turnId).Injective := by
  have herased : PendingApart (s.pendingTerminalTurnIds.erase turnId) s.responseAliases :=
    PendingApart.subset h List.erase_subset
  exact herased.filter fun aliasId => decide (aliasId ≠ turnId)

lemma replaceFallbackTurnId_lists {previousTurnId nextTurnId : Text} (h : previousTurnId ≠ nextTurnId) :
    (s.replaceFallbackTurnId previousTurnId nextTurnId).unboundTurnIds =
        replaceTrackedTurnId s.unboundTurnIds previousTurnId nextTurnId ∧
      (s.replaceFallbackTurnId previousTurnId nextTurnId).pendingTerminalTurnIds =
          replaceTrackedTurnId s.pendingTerminalTurnIds previousTurnId nextTurnId ∧
        (s.replaceFallbackTurnId previousTurnId nextTurnId).responseAliases =
          s.responseAliases.mapValues (renamed previousTurnId nextTurnId) := by
  rw [replaceFallbackTurnId, if_neg h]
  exact ⟨rfl,rfl,rfl⟩

end Tracking

variable {ν : Type} {s : OmnigentSseNormalizer}

/-- A replacement of a turn looks at every list. -/
def RenamesApart (s : OmnigentSseNormalizer) : NormalizerCall ν → Prop
  | .replaceFallbackTurnId previousTurnId nextTurnId => previousTurnId ≠ nextTurnId →
      RenamesUnbound s.unboundTurnIds s.pendingTerminalTurnIds s.responseAliases previousTurnId nextTurnId
  | _ => True

/-- The caller keeps the binding injective. -/
def BindsInjectively (s : OmnigentSseNormalizer) : NormalizerCall ν → Prop
  | .bindResponseId responseId turnId => responseId ∈ s.rejectedTurnIds ∨
      ∀ other, s.responseAliases.get? other = some turnId → other = responseId
  | _ => True

/-- The normalizer looks at the turns that responses have: where it replaces a turn, where a response
takes the turn kept for it, and where a terminal frame ends the fallback turn. -/
def LooksAtBound (s : OmnigentSseNormalizer) : NormalizerCall ν → Prop
  | .replaceFallbackTurnId previousTurnId nextTurnId => previousTurnId ≠ nextTurnId →
      RenamesUnbound s.unboundTurnIds s.pendingTerminalTurnIds s.responseAliases previousTurnId nextTurnId ∧
        RenamesBound s.pendingTerminalTurnIds s.responseAliases previousTurnId nextTurnId
  | .normalize tagged _ =>
      tagged.type ≠ .responseElicitationResolved → s.TentativeFree tagged ∧ s.FallbackFree tagged
  | _ => True

lemma renamesApart_of_looksAtBound (c : NormalizerCall ν) (h : s.LooksAtBound c) : s.RenamesApart c := by
  cases c with
  | replaceFallbackTurnId previousTurnId nextTurnId => exact fun hne => (h hne).1
  | _ => trivial

lemma injective_trackUnboundTurnId (turnId : Text) (h : s.Injective) : (s.trackUnboundTurnId turnId).Injective := by
  unfold trackUnboundTurnId
  split_ifs
  · exact h
  · exact h

variable [JsNumber ν]

lemma apart_call (c : NormalizerCall ν) (h : s.Apart) (hrename : s.RenamesApart c) : (s.call c).Apart := by
  cases c with
  | setActiveResponseId responseId =>
    obtain ⟨hunbound,hpending,haliases⟩ := setActiveResponseId_lists s responseId
    rw [call, Apart, hunbound, hpending, haliases]
    exact h
  | bindResponseId responseId turnId =>
    simp only [call, bindResponseId]
    split_ifs
    · exact h
    · exact UnboundApart.bind h responseId turnId
  | setFallbackTurnId turnId =>
    cases turnId with
    | none => exact h
    | some turnId =>
      simp only [call, setFallbackTurnId]
      split_ifs
      · exact h
      · exact apart_trackUnboundTurnId _ turnId h
      · exact apart_trackUnboundTurnId _ turnId h
  | removeFallbackTurnId turnId => exact apart_removeFallbackTurnId s turnId h
  | quarantineFallbackTurnId turnId => exact apart_trackUnboundTurnId _ turnId h
  | rejectTurnId turnId =>
    obtain ⟨hunbound,hpending,haliases⟩ := rejectTurnId_lists s turnId
    rw [call, Apart, hunbound, hpending, haliases]
    exact apart_removeFallbackTurnId s turnId h
  | restoreRejectedTurnId turnId => exact h
  | replaceFallbackTurnId previousTurnId nextTurnId =>
    by_cases heq : previousTurnId = nextTurnId
    · rw [call, replaceFallbackTurnId, if_pos heq]
      exact h
    · obtain ⟨hunbound,hpending,haliases⟩ := replaceFallbackTurnId_lists s heq
      rw [call, Apart, hunbound, hpending, haliases]
      exact UnboundApart.replace h (hrename heq)
  | normalize tagged now => exact apart_normalize tagged now h

lemma injective_call (c : NormalizerCall ν) (hapart : s.Apart) (h : s.Injective) (hbind : s.BindsInjectively c)
    (hlooks : s.LooksAtBound c) : (s.call c).Injective := by
  cases c with
  | setActiveResponseId responseId =>
    obtain ⟨-,hpending,haliases⟩ := setActiveResponseId_lists s responseId
    rw [call, Injective, hpending, haliases]
    exact h
  | bindResponseId responseId turnId =>
    simp only [call, bindResponseId]
    split_ifs with hrejected
    · exact h
    · exact PendingApart.bind h hapart.pendingNodup (hbind.resolve_left hrejected)
  | setFallbackTurnId turnId =>
    cases turnId with
    | none => exact h
    | some turnId =>
      simp only [call, setFallbackTurnId]
      split_ifs
      · exact h
      · exact injective_trackUnboundTurnId turnId h
      · exact injective_trackUnboundTurnId turnId h
  | removeFallbackTurnId turnId => exact injective_removeFallbackTurnId s turnId h
  | quarantineFallbackTurnId turnId => exact injective_trackUnboundTurnId turnId h
  | rejectTurnId turnId =>
    obtain ⟨-,hpending,haliases⟩ := rejectTurnId_lists s turnId
    rw [call, Injective, hpending, haliases]
    exact injective_removeFallbackTurnId s turnId h
  | restoreRejectedTurnId turnId => exact h
  | replaceFallbackTurnId previousTurnId nextTurnId =>
    by_cases heq : previousTurnId = nextTurnId
    · rw [call, replaceFallbackTurnId, if_pos heq]
      exact h
    · obtain ⟨-,hpending,haliases⟩ := replaceFallbackTurnId_lists s heq
      rw [call, Injective, hpending, haliases]
      exact PendingApart.replace h hapart.pendingNodup (hlooks heq).2
  | normalize tagged now => exact injective_normalize tagged now hapart h hlooks

/-- A response is bound to no turn of another one, and a turn is on at most one list, once. -/
structure BindsOnce (s : OmnigentSseNormalizer) : Prop where
  injective : InjectiveBinding s.responseAliases
  unboundNodup : s.unboundTurnIds.Nodup
  pendingNodup : s.pendingTerminalTurnIds.Nodup
  disjoint : s.unboundTurnIds.Disjoint s.pendingTerminalTurnIds

lemma apart_new (sessionId : Text) (syntheticEventIdPrefix : Option Text) :
    (newOmnigentSseNormalizer sessionId syntheticEventIdPrefix).Apart :=
  ⟨List.nodup_nil,List.nodup_nil,fun _ h => by cases h⟩

lemma injective_new (sessionId : Text) (syntheticEventIdPrefix : Option Text) :
    (newOmnigentSseNormalizer sessionId syntheticEventIdPrefix).Injective :=
  ⟨fun _ h => (by cases h),fun _ _ _ h => (by cases h)⟩

/-- The binding of responses to turns stays injective, and the lists apart. -/
theorem bindsOnce_of_looksAtBound {sessionId : Text} {syntheticEventIdPrefix : Option Text}
    {calls : List (NormalizerCall ν)}
    (hbind : Meets callStep BindsInjectively (newOmnigentSseNormalizer sessionId syntheticEventIdPrefix) calls)
    (hlooks : Meets callStep LooksAtBound (newOmnigentSseNormalizer sessionId syntheticEventIdPrefix) calls)
    (h : run callStep (newOmnigentSseNormalizer sessionId syntheticEventIdPrefix) calls = some s) : s.BindsOnce := by
  have hrun : s.Apart ∧ s.Injective := by
    apply run_invariant_of_meets callStep _ _ (meets_and callStep hbind hlooks) h
    · intro u c t hu hmeets hstep
      cases hstep
      exact ⟨apart_call c hu.1 (renamesApart_of_looksAtBound c hmeets.2),injective_call c hu.1 hu.2 hmeets.1 hmeets.2⟩
    · exact ⟨apart_new sessionId syntheticEventIdPrefix,injective_new sessionId syntheticEventIdPrefix⟩
  obtain ⟨hapart,hinjective⟩ := hrun
  exact ⟨hinjective.injective,hapart.unboundNodup,hapart.pendingNodup,
    fun turnId hunbound hpending => (hapart.apart turnId hunbound).1 hpending⟩

/-- What the calls of a run and their events tell is what the lists say. -/
theorem correlation_run {calls : List (NormalizerCall ν)} {t : OmnigentSseNormalizer} (hapart : s.Apart)
    (hrename : Meets callStep RenamesApart s calls) (hrun : run callStep s calls = some t) :
    t.Apart ∧ t.correlation = s.correlation.after (s.told calls) := by
  induction calls generalizing s with
  | nil =>
    cases hrun
    exact ⟨hapart,rfl⟩
  | cons c calls ih =>
    obtain ⟨u,hstep,hrest⟩ := (run_cons_eq_some callStep).mp hrun
    cases hstep
    obtain ⟨hafter,hsame⟩ := ih (apart_call c hapart hrename.1) (hrename.2 _ rfl) hrest
    refine ⟨hafter,?_⟩
    rw [hsame, correlation_call c hapart]
    rfl

/-- The event of a frame is terminal and names the fallback turn, though the frame names no response,
none is active and no turn is in quarantine. -/
structure EndsFallbackTurn (s : OmnigentSseNormalizer) (tagged : OmnigentTaggedSseEvent ν) (now turnId : Text) : Prop where
  official : tagged.officialTurnId = none
  current : s.currentResponseId = none
  quarantine : s.identityFreeQuarantineTurnId = none
  fallback : s.fallbackTurnId = some turnId
  terminal : (s.normalize tagged now).2.bind (fun event => event.terminal) = some true
  turn : (s.normalize tagged now).2.bind (fun event => event.turnId) = some turnId

section Attribution
variable {tagged : OmnigentTaggedSseEvent ν} {now turnId : Text}

lemma EndsFallbackTurn.not_elicitation (h : s.EndsFallbackTurn tagged now turnId) :
    tagged.type ≠ .responseElicitationResolved := by
  intro helicitation
  have hterminal := h.terminal
  rw [normalize, if_pos helicitation] at hterminal
  cases hterminal

lemma normalize_event (h : tagged.type ≠ .responseElicitationResolved) :
    ∃ quarantine, (tagged.officialTurnId = none → quarantine = s.identityFreeQuarantineTurnId) ∧
      ∀ event, (s.normalize tagged now).2 = some event →
        event.terminal = some tagged.terminal ∧ event.turnId = (s.observed quarantine).turnIdFor tagged := by
  obtain ⟨quarantine,hobserve,hsame⟩ := observeTurn_eq tagged s
  refine ⟨quarantine,hsame,?_⟩
  intro event hevent
  unfold normalize at hevent
  dsimp only at hevent
  rw [if_neg h, hobserve] at hevent
  cases htime : tagged.occurredAt now with
  | none =>
    rw [htime] at hevent
    cases hevent
  | some occurredAt =>
    rw [htime] at hevent
    cases hevent
    exact ⟨rfl,rfl⟩

/-- The list of unbound turns has one turn then, whichever that is. -/
lemma EndsFallbackTurn.single (h : s.EndsFallbackTurn tagged now turnId) : s.unboundTurnIds.length = 1 := by
  obtain ⟨quarantine,hsame,hevent⟩ : ∃ quarantine,
      (tagged.officialTurnId = none → quarantine = s.identityFreeQuarantineTurnId) ∧
      ∀ event, (s.normalize tagged now).2 = some event →
        event.terminal = some tagged.terminal ∧ event.turnId = (s.observed quarantine).turnIdFor tagged :=
    normalize_event h.not_elicitation
  obtain ⟨event,hsome,hterminal⟩ := Option.bind_eq_some_iff.mp h.terminal
  have hturn := h.turn
  rw [hsome, Option.bind_some, (hevent event hsome).2, hsame h.official, h.quarantine, turnIdFor, h.official] at hturn
  rw [(hevent event hsome).1, Option.some.injEq] at hterminal
  split_ifs at hturn with hpassive hbare
  · have hofficial := h.official
    rw [OmnigentTaggedSseEvent.officialTurnId, Option.or_eq_none_iff] at hofficial
    rw [hofficial.2] at hturn
    cases hturn
  · by_contra hlength
    simp [fallbackTurnIdFor, observed, h.official, h.current, hterminal, hlength] at hturn

/-- A terminal frame that names no response ends the only local turn that waits for one, exactly
where the fallback turn it ends is one that waits. -/
theorem endsOnlyWaitingTurn_iff {sessionId : Text} {syntheticEventIdPrefix : Option Text}
    {calls : List (NormalizerCall ν)}
    (hrename : Meets callStep RenamesApart (newOmnigentSseNormalizer sessionId syntheticEventIdPrefix) calls)
    (hrun : run callStep (newOmnigentSseNormalizer sessionId syntheticEventIdPrefix) calls = some s)
    (h : s.EndsFallbackTurn tagged now turnId) :
    (Correlation.start.after ((newOmnigentSseNormalizer sessionId syntheticEventIdPrefix).told calls)).waitingTurns =
        {turnId} ↔ turnId ∈ s.unboundTurnIds := by
  obtain ⟨hapart,hsame⟩ := correlation_run (apart_new sessionId syntheticEventIdPrefix) hrename hrun
  have hwaiting : ∀ other, other ∈ (Correlation.start.after
      ((newOmnigentSseNormalizer sessionId syntheticEventIdPrefix).told calls)).waitingTurns ↔ other ∈ s.unboundTurnIds := by
    intro other
    rw [← hapart.mem_waitingTurns, hsame]
    rfl
  obtain ⟨only,honly⟩ := List.length_eq_one_iff.mp h.single
  constructor
  · intro heq
    rw [← hwaiting, heq]
    exact Finset.mem_singleton_self turnId
  · intro hmem
    ext other
    rw [hwaiting, honly, List.mem_singleton, Finset.mem_singleton]
    rw [honly, List.mem_singleton] at hmem
    rw [hmem]

end Attribution

/-- A response is created under its id. -/
def createdFrame (id : String) : OmnigentTaggedSseEvent ℕ :=
  ⟨.responseCreated,[(Text.of "type",.string (Text.of "response.created")),
    (Text.of "response",.object [(Text.of "id",.string (Text.of id))])]⟩

/-- The session fails, of whichever turn. -/
def failedStatusFrame : OmnigentTaggedSseEvent ℕ :=
  ⟨.sessionStatus,[(Text.of "type",.string (Text.of "session.status")),(Text.of "status",.string (Text.of "failed"))]⟩

def freshNormalizer : OmnigentSseNormalizer := newOmnigentSseNormalizer (Text.of "s") none

/-- A turn gets its response, and the next one waits. -/
def oneAfterAnother : List (NormalizerCall ℕ) :=
  [.setFallbackTurnId (some (Text.of "t1")),.bindResponseId (Text.of "r1") (Text.of "t1"),
    .setFallbackTurnId (some (Text.of "t2"))]

theorem oneAfterAnother_bindsOnce :
    ((oneAfterAnother ++ [NormalizerCall.normalize (createdFrame "r2") startOfEpoch]).foldl call freshNormalizer).BindsOnce := by
  have hrun : run callStep (newOmnigentSseNormalizer (Text.of "s") none)
      (oneAfterAnother ++ [NormalizerCall.normalize (createdFrame "r2") startOfEpoch]) = some _ := rfl
  refine bindsOnce_of_looksAtBound ?_ ?_ hrun
  · refine ⟨trivial,fun t ht => ⟨Or.inr fun other hother => ?_,fun _ _ => ⟨trivial,fun _ _ => ⟨trivial,fun _ _ => trivial⟩⟩⟩⟩
    cases ht
    cases hother
  · refine ⟨trivial,fun _ ht => ⟨trivial,fun _ hu => ⟨trivial,fun v hv => ⟨fun _ => ⟨?_,?_⟩,fun _ _ => trivial⟩⟩⟩⟩
    · cases ht
      cases hu
      cases hv
      intro id turnId _ _ _ htentative
      cases htentative
    · exact fun hterminal => absurd hterminal (by decide +kernel)

/-- A frame gives a turn its response, and the next one waits. -/
def createdThenNext : List (NormalizerCall ℕ) :=
  [.setFallbackTurnId (some (Text.of "t1")),.normalize (createdFrame "r1") startOfEpoch,.setActiveResponseId none,
    .setFallbackTurnId (some (Text.of "t2"))]

theorem createdThenNext_ended :
    (Correlation.start.after (freshNormalizer.told createdThenNext)).waitingTurns = {Text.of "t2"} := by
  have hends : (createdThenNext.foldl call freshNormalizer).EndsFallbackTurn failedStatusFrame startOfEpoch (Text.of "t2") :=
    ⟨by decide +kernel,by decide +kernel,by decide +kernel,by decide +kernel,by decide +kernel,by decide +kernel⟩
  exact (endsOnlyWaitingTurn_iff (by simp [createdThenNext, Meets, RenamesApart]) rfl hends).mpr (by decide +kernel)

/-- Two responses become active while one turn waits: it is kept for both, and both get it. -/
def tentativeTwice : List (NormalizerCall ℕ) :=
  [.setFallbackTurnId (some (Text.of "t")),.setActiveResponseId (some (Text.of "r1")),
    .setActiveResponseId (some (Text.of "r2")),.normalize (createdFrame "r1") startOfEpoch,
    .normalize (createdFrame "r2") startOfEpoch]

theorem tentativeTwice_bindsTwice : ¬ ∀ (calls : List (NormalizerCall ℕ)) (s : OmnigentSseNormalizer),
    Meets callStep BindsInjectively freshNormalizer calls → run callStep freshNormalizer calls = some s →
      s.BindsOnce := by
  intro h
  have hbind : Meets callStep BindsInjectively freshNormalizer tentativeTwice := by
    simp [tentativeTwice, Meets, BindsInjectively]
  have hrun := h tentativeTwice _ hbind rfl
  have hsame := hrun.injective (Text.of "r1") (Text.of "r2") (Text.of "t") (by decide +kernel) (by decide +kernel)
  exact absurd hsame (by decide)

/-- A later fallback turn gets a response while an earlier one waits, and then the session fails. -/
def boundFallback : List (NormalizerCall ℕ) :=
  [.setFallbackTurnId (some (Text.of "t1")),.setFallbackTurnId (some (Text.of "t2")),
    .bindResponseId (Text.of "r2") (Text.of "t2")]

theorem boundFallback_ended : ¬ ∀ (calls : List (NormalizerCall ℕ)) (s : OmnigentSseNormalizer)
    (tagged : OmnigentTaggedSseEvent ℕ) (now turnId : Text), run callStep freshNormalizer calls = some s →
      s.EndsFallbackTurn tagged now turnId →
        (Correlation.start.after (freshNormalizer.told calls)).waitingTurns = {turnId} := by
  intro h
  have hwaiting := h boundFallback _ failedStatusFrame startOfEpoch (Text.of "t2") rfl
    ⟨by decide +kernel,by decide +kernel,by decide +kernel,by decide +kernel,by decide +kernel,by decide +kernel⟩
  exact absurd hwaiting (by decide +kernel)

end OmnigentSseNormalizer
end OmniagentPlus.OmnigentTransport
