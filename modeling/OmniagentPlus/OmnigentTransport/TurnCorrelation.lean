import OmniagentPlus.OmnigentTransport.ResponseBinding
import Mathlib.Data.Finset.Basic
import Mathlib.Data.Finset.Dedup
import Mathlib.Data.Finset.Filter

/-! The local turns that wait for a response, told from the calls of a normalizer, its frames and
the turns that the events of the frames name, without its lists; and that the lists say the same. -/
namespace OmniagentPlus.OmnigentTransport
open OmniagentPlus.Foundation OmniagentPlus.CoreContracts

/-- The turns that the event of a frame names: its own, and the one behind its response. -/
structure NamedTurns where
  turnId : Option Text
  turnAliasId : Option Text
  turnAliasConfirmed : Bool
  deriving DecidableEq

/-- What the calls and the events have told of responses and turns. -/
@[ext] structure Correlation where
  rejected : Finset Text
  current : Option Text
  fallback : Option Text
  /-- The turn of a response. -/
  bound : Dictionary Text Text
  /-- The turns that a terminal frame without a response has ended. -/
  ended : Finset Text
  /-- The turns that were announced, until they have a response or end. -/
  announced : Finset Text

/-- One turn of some under a new name. -/
def renamedIn (turnIds : Finset Text) (previousTurnId nextTurnId : Text) : Finset Text :=
  if previousTurnId ∈ turnIds then insert nextTurnId (turnIds.erase previousTurnId) else turnIds

namespace Correlation

def start : Correlation := ⟨∅,none,none,.empty,∅,∅⟩

variable (g : Correlation)

/-- The local turns that wait for a response: neither has a response such a turn, nor has it ended. -/
def waitingTurns : Finset Text :=
  g.announced.filter (fun turnId => turnId ∉ g.ended ∧ turnId ∉ g.bound.values)

def leave (turnId : Text) : Correlation :=
  { g with ended := g.ended.erase turnId, announced := g.announced.erase turnId }

/-- A turn that has ended, or that a response has, is not announced once more. -/
def announce (turnId : Text) : Correlation :=
  if turnId ∈ g.ended ∨ turnId ∈ g.bound.values then g
  else { g with announced := insert turnId g.announced }

@[simp] lemma leave_leave (turnId : Text) : (g.leave turnId).leave turnId = g.leave turnId := by
  simp [leave]

def bind (responseId turnId : Text) : Correlation :=
  { g.leave turnId with bound := g.bound.set responseId turnId }

/-- A response takes a turn where that is sure; where it is not, the turn is off the lists all the same. -/
def take (responseId : Text) : Option Text → Bool → Correlation
  | some turnId, true => g.bind responseId turnId
  | some turnId, false => g.leave turnId
  | none, _ => g

/-- A turn is taken back: nothing is known of it any more. -/
def takeBack (turnId : Text) : Correlation :=
  { g.leave turnId with
    fallback := if g.fallback = some turnId then none else g.fallback
    bound := g.bound.filter (fun aliasId => decide (aliasId ≠ turnId)) }

def replace (previousTurnId nextTurnId : Text) : Correlation :=
  if previousTurnId = nextTurnId then g
  else { g with
    fallback := if g.fallback = some previousTurnId then some nextTurnId else g.fallback
    bound := g.bound.mapValues (renamed previousTurnId nextTurnId)
    ended := renamedIn g.ended previousTurnId nextTurnId
    announced := renamedIn g.announced previousTurnId nextTurnId }

section Frame
variable {ν : Type} (tagged : OmnigentTaggedSseEvent ν) (named : NamedTurns)

/-- A response that has no turn gets the one that the event names. -/
def respond : Correlation :=
  match tagged.officialTurnId with
  | none => g
  | some responseId =>
    if responseId ∈ g.rejected ∨ (g.bound.get? responseId).isSome then g
    else g.take responseId named.turnAliasId named.turnAliasConfirmed

/-- A terminal frame that names no response ends the fallback turn where none is active. -/
def endFallback : Correlation :=
  match tagged.officialTurnId, g.current, named.turnId with
  | none, none, some turnId =>
    if g.fallback = some turnId then { g.leave turnId with ended := insert turnId g.ended } else g
  | _, _, _ => g

/-- What is active after a terminal frame, and which turn is the fallback. -/
def finish : Correlation :=
  let ended := tagged.officialTurnId = g.current ∨ (tagged.officialTurnId = none ∧ named.turnId = g.current)
  { g with
    current := if ended then none else g.current
    fallback := if named.turnId = g.fallback ∨ named.turnAliasId = g.fallback then none else g.fallback }

def settle : Correlation :=
  if tagged.terminal then
    let left := match named.turnAliasId, named.turnAliasConfirmed with
      | some turnId, true => (g.endFallback tagged named).leave turnId
      | _, _ => g.endFallback tagged named
    left.finish tagged named
  else
    match tagged.officialTurnId with
    | none => g
    | some responseId => if responseId ∈ g.rejected then g else { g with current := some responseId }

variable [JsNumber ν]

/-- A frame whose time is out of range makes no event, though its response has a turn by then. -/
def hear (now : Text) : Correlation :=
  if tagged.type = .responseElicitationResolved then g
  else
    match tagged.occurredAt now with
    | none => g.respond tagged named
    | some _ => (g.respond tagged named).settle tagged named

end Frame

variable {ν : Type} [JsNumber ν]

def next (named : NamedTurns) : NormalizerCall ν → Correlation
  | .setActiveResponseId none => { g with current := none }
  | .setActiveResponseId (some responseId) =>
    { g with current := if responseId ∈ g.rejected then none else some responseId }
  | .bindResponseId responseId turnId => if responseId ∈ g.rejected then g else g.bind responseId turnId
  | .setFallbackTurnId none => { g with fallback := none }
  | .setFallbackTurnId (some turnId) =>
    if turnId ∈ g.rejected then g else { g with fallback := some turnId }.announce turnId
  | .removeFallbackTurnId turnId => g.takeBack turnId
  | .quarantineFallbackTurnId turnId => { g with rejected := insert turnId g.rejected }.announce turnId
  | .rejectTurnId turnId =>
    { g.takeBack turnId with
      rejected := insert turnId g.rejected
      current := if g.current = some turnId then none else g.current }
  | .restoreRejectedTurnId turnId => { g with rejected := g.rejected.erase turnId }
  | .replaceFallbackTurnId previousTurnId nextTurnId => g.replace previousTurnId nextTurnId
  | .normalize tagged now => g.hear tagged named now

/-- The calls in order, each with the turns that its event names. -/
def after (g : Correlation) (told : List (NormalizerCall ν × NamedTurns)) : Correlation :=
  told.foldl (fun g entry => g.next entry.2 entry.1) g

end Correlation

namespace OmnigentSseNormalizer

section Told
variable {ν : Type} [JsNumber ν]

/-- The turns that the event of a call names, none where it has no event. -/
def namedTurns (s : OmnigentSseNormalizer) : NormalizerCall ν → NamedTurns
  | .normalize tagged _ =>
    if tagged.type = .responseElicitationResolved then ⟨none,none,false⟩
    else
      let s := { s with frameOrdinal := s.frameOrdinal + 1 }.observeTurn tagged
      ⟨s.turnIdFor tagged,(s.resolveTurnAlias tagged).2.1,(s.resolveTurnAlias tagged).2.2⟩
  | _ => ⟨none,none,false⟩

/-- The event of a frame carries them. -/
theorem namedTurns_event (s : OmnigentSseNormalizer) (tagged : OmnigentTaggedSseEvent ν) (now : Text)
    {event : OmnigentRawEvent ν} (h : (s.normalize tagged now).2 = some event) :
    s.namedTurns (.normalize tagged now) = ⟨event.turnId,event.turnAliasId,event.turnAliasConfirmed.getD false⟩ := by
  rw [namedTurns]
  unfold normalize at h
  dsimp only at h
  split_ifs at h ⊢ with helicitation
  · cases h
    rfl
  · cases htime : tagged.occurredAt now with
    | none =>
      rw [htime] at h
      cases h
    | some occurredAt =>
      rw [htime] at h
      cases h
      rfl

def told (s : OmnigentSseNormalizer) : List (NormalizerCall ν) → List (NormalizerCall ν × NamedTurns)
  | [] => []
  | c :: calls => (c,s.namedTurns c) :: told (s.call c) calls

end Told

/-- What the fields of a normalizer say of responses and turns. -/
def correlation (s : OmnigentSseNormalizer) : Correlation where
  rejected := s.rejectedTurnIds
  current := s.currentResponseId
  fallback := s.fallbackTurnId
  bound := s.responseAliases
  ended := s.pendingTerminalTurnIds.toFinset
  announced := s.unboundTurnIds.toFinset

/-- No list has a turn twice. -/
structure Listed (s : OmnigentSseNormalizer) : Prop where
  unbound : s.unboundTurnIds.Nodup
  pending : s.pendingTerminalTurnIds.Nodup

lemma Apart.listed {s : OmnigentSseNormalizer} (h : s.Apart) : s.Listed := ⟨h.unboundNodup,h.pendingNodup⟩

lemma toFinset_erase {turnIds : List Text} (h : turnIds.Nodup) (turnId : Text) :
    (turnIds.erase turnId).toFinset = turnIds.toFinset.erase turnId := by
  ext other
  rw [List.mem_toFinset, h.mem_erase_iff, Finset.mem_erase, List.mem_toFinset]

lemma toFinset_append_singleton (turnIds : List Text) (turnId : Text) :
    (turnIds ++ [turnId]).toFinset = insert turnId turnIds.toFinset := by
  ext other
  rw [List.mem_toFinset, List.mem_append, List.mem_singleton, Finset.mem_insert, List.mem_toFinset, or_comm]

lemma toFinset_replaceTrackedTurnId {turnIds : List Text} (h : turnIds.Nodup) (previousTurnId nextTurnId : Text) :
    (replaceTrackedTurnId turnIds previousTurnId nextTurnId).toFinset =
      renamedIn turnIds.toFinset previousTurnId nextTurnId := by
  ext other
  rw [List.mem_toFinset, mem_replaceTrackedTurnId h, renamedIn]
  split_ifs with hprevious
  · rw [List.mem_toFinset] at hprevious
    rw [Finset.mem_insert, Finset.mem_erase, List.mem_toFinset]
    tauto
  · rw [List.mem_toFinset] at hprevious ⊢
    constructor
    · exact fun hor => hor.elim And.left fun hnew => absurd hnew.2 hprevious
    · exact fun hmem => Or.inl ⟨hmem,fun heq => hprevious (heq ▸ hmem)⟩

section Fields
variable {s : OmnigentSseNormalizer}

lemma correlation_trackUnboundTurnId (s : OmnigentSseNormalizer) (turnId : Text) :
    (s.trackUnboundTurnId turnId).correlation = s.correlation.announce turnId := by
  have hlisted : turnId ∈ s.correlation.ended ∨ turnId ∈ s.correlation.bound.values ↔
      turnId ∈ s.pendingTerminalTurnIds ∨ turnId ∈ s.responseAliases.values := by
    rw [correlation, List.mem_toFinset]
  rw [trackUnboundTurnId, Correlation.announce, if_congr hlisted rfl rfl]
  by_cases hout : turnId ∈ s.pendingTerminalTurnIds ∨ turnId ∈ s.responseAliases.values
  · rw [if_pos (Or.inr hout), if_pos hout]
  · rw [if_neg hout]
    by_cases hin : turnId ∈ s.unboundTurnIds
    · have hsame : insert turnId s.correlation.announced = s.correlation.announced :=
        Finset.insert_eq_of_mem (List.mem_toFinset.mpr hin)
      rw [if_pos (Or.inl hin), hsame]
    · rw [if_neg (not_or.mpr ⟨hin,hout⟩)]
      exact Correlation.ext rfl rfl rfl rfl rfl (toFinset_append_singleton s.unboundTurnIds turnId)

lemma Listed.correlation_leave (h : s.Listed) (turnId : Text) :
    ((s.removeUnboundTurnId turnId).removePendingTerminalTurnId turnId).correlation = s.correlation.leave turnId := by
  exact Correlation.ext rfl rfl rfl rfl (toFinset_erase h.pending turnId) (toFinset_erase h.unbound turnId)

lemma Listed.correlation_bindResponseAlias (h : s.Listed) (responseId turnId : Text) :
    (s.bindResponseAlias responseId turnId).correlation = s.correlation.bind responseId turnId := by
  exact Correlation.ext rfl rfl rfl rfl (toFinset_erase h.pending turnId) (toFinset_erase h.unbound turnId)

lemma Listed.correlation_removeFallbackTurnId (h : s.Listed) (turnId : Text) :
    (s.removeFallbackTurnId turnId).correlation = s.correlation.takeBack turnId := by
  exact Correlation.ext rfl rfl rfl rfl (toFinset_erase h.pending turnId) (toFinset_erase h.unbound turnId)

lemma Listed.correlation_replaceFallbackTurnId (h : s.Listed) (previousTurnId nextTurnId : Text) :
    (s.replaceFallbackTurnId previousTurnId nextTurnId).correlation =
      s.correlation.replace previousTurnId nextTurnId := by
  rw [replaceFallbackTurnId, Correlation.replace]
  by_cases hsame : previousTurnId = nextTurnId
  · rw [if_pos hsame, if_pos hsame]
  · rw [if_neg hsame, if_neg hsame]
    exact Correlation.ext rfl rfl rfl rfl (toFinset_replaceTrackedTurnId h.pending previousTurnId nextTurnId)
      (toFinset_replaceTrackedTurnId h.unbound previousTurnId nextTurnId)

lemma correlation_setActiveResponseId (s : OmnigentSseNormalizer) (responseId : Text) :
    (s.setActiveResponseId (some responseId)).correlation =
      { s.correlation with current := if responseId ∈ s.rejectedTurnIds then none else some responseId } := by
  simp only [setActiveResponseId]
  split_ifs with hrejected hempty
  · rfl
  · rfl
  · split
    · rfl
    · rfl

lemma Listed.correlation_rejectTurnId (h : s.Listed) (turnId : Text) : (s.rejectTurnId turnId).correlation =
    { s.correlation.takeBack turnId with
      rejected := insert turnId s.rejectedTurnIds
      current := if s.currentResponseId = some turnId then none else s.currentResponseId } := by
  have hbase := h.correlation_removeFallbackTurnId turnId
  rw [← hbase, rejectTurnId]
  dsimp only
  by_cases hcurrent : s.currentResponseId = some turnId
  · have hsame : (({ s with rejectedTurnIds := insert turnId s.rejectedTurnIds } : OmnigentSseNormalizer).removeFallbackTurnId
        turnId).currentResponseId = some turnId := hcurrent
    rw [if_pos hcurrent, if_pos hsame]
    rfl
  · have hsame : ¬ (({ s with rejectedTurnIds := insert turnId s.rejectedTurnIds } : OmnigentSseNormalizer).removeFallbackTurnId
        turnId).currentResponseId = some turnId := hcurrent
    rw [if_neg hcurrent, if_neg hsame]
    rfl

end Fields

section Frames
variable {ν : Type} {s : OmnigentSseNormalizer}

/-- A turn that is taken for a response: off its list at once where that is unsure, and with the
binding where it is sure. -/
structure Takes (s : OmnigentSseNormalizer) (claimed : OmnigentSseNormalizer × Option Text × Bool) : Prop where
  listed : claimed.1.Listed
  none : claimed.2.1 = none → claimed.1.correlation = s.correlation
  unsure : ∀ turnId, claimed.2 = (some turnId,false) → claimed.1.correlation = s.correlation.leave turnId
  sure : ∀ turnId, claimed.2 = (some turnId,true) → claimed.1.correlation.leave turnId = s.correlation.leave turnId

lemma takes_none (h : s.Listed) : Takes s (s,none,false) :=
  ⟨h,fun _ => rfl,fun _ heq => (by cases heq),fun _ heq => (by cases heq)⟩

lemma takes_some {t : OmnigentSseNormalizer} {turnId : Text} {sure : Bool} (h : t.Listed)
    (hunsure : sure = false → t.correlation = s.correlation.leave turnId)
    (hsure : sure = true → t.correlation.leave turnId = s.correlation.leave turnId) : Takes s (t,some turnId,sure) := by
  refine ⟨h,fun heq => (by cases heq),fun other heq => ?_,fun other heq => ?_⟩
  · rw [Prod.mk.injEq, Option.some.injEq] at heq
    exact heq.1 ▸ hunsure heq.2
  · rw [Prod.mk.injEq, Option.some.injEq] at heq
    exact heq.1 ▸ hsure heq.2

lemma Listed.leave_head (h : s.Listed) {turnId : Text} {rest : List Text} (hunbound : s.unboundTurnIds = turnId :: rest) :
    Takes s ({ s with unboundTurnIds := rest },some turnId,true) := by
  have hnodup := hunbound ▸ h.unbound
  have hleft : ({ s with unboundTurnIds := rest } : OmnigentSseNormalizer).correlation.leave turnId =
      s.correlation.leave turnId := by
    refine Correlation.ext rfl rfl rfl rfl rfl ?_
    change rest.toFinset.erase turnId = s.unboundTurnIds.toFinset.erase turnId
    rw [hunbound, List.toFinset_cons, Finset.erase_insert_eq_erase]
  exact takes_some ⟨(List.nodup_cons.mp hnodup).2,h.pending⟩ (fun heq => by cases heq) fun _ => hleft

/-- The first turn that has ended, while none waits. -/
lemma Listed.leave_ended (h : s.Listed) {turnId : Text} {rest : List Text} (hunbound : s.unboundTurnIds = [])
    (hpending : s.pendingTerminalTurnIds = turnId :: rest) (ambiguous sure : Bool) :
    Takes s ({ s with pendingTerminalTurnIds := rest, pendingTerminalAmbiguous := ambiguous },some turnId,sure) := by
  obtain ⟨hnotMem,hrest⟩ := List.nodup_cons.mp (hpending ▸ h.pending)
  have hleft : ({ s with pendingTerminalTurnIds := rest, pendingTerminalAmbiguous := ambiguous } :
      OmnigentSseNormalizer).correlation = s.correlation.leave turnId := by
    refine Correlation.ext rfl rfl rfl rfl ?_ ?_
    · change rest.toFinset = s.pendingTerminalTurnIds.toFinset.erase turnId
      rw [hpending, ← toFinset_erase (hpending ▸ h.pending), List.erase_cons_head]
    · change s.unboundTurnIds.toFinset = s.unboundTurnIds.toFinset.erase turnId
      rw [hunbound]
      rfl
  refine takes_some ⟨h.unbound,hrest⟩ (fun _ => hleft) fun _ => ?_
  rw [hleft, Correlation.leave_leave]

lemma Listed.takes_claimTurn (h : s.Listed) (terminal : Bool) : Takes s (s.claimTurn terminal) := by
  unfold claimTurn
  dsimp only
  split_ifs with hlive hended hwaiting
  · cases hunbound : s.unboundTurnIds with
    | nil =>
      have hsame : ({ s with unboundTurnIds := [] } : OmnigentSseNormalizer) = s := by rw [← hunbound]
      rw [List.tail_nil, hsame]
      exact takes_none h
    | cons turnId rest => exact h.leave_head hunbound
  · rw [Bool.and_eq_true, List.isEmpty_iff] at hended
    cases hpending : s.pendingTerminalTurnIds with
    | nil => simp [hpending] at hended
    | cons turnId rest => exact h.leave_ended hended.2 hpending _ _
  · cases hunbound : s.unboundTurnIds with
    | nil => simp [hunbound] at hwaiting
    | cons turnId rest =>
      exact takes_some h (fun heq => by cases heq) fun _ => rfl
  · exact takes_none h

lemma Takes.correlation_bind {t : OmnigentSseNormalizer} {turnId : Text} (h : Takes s (t,some turnId,true)) (id : Text) :
    (t.bindResponseAlias id turnId).correlation = s.correlation.bind id turnId := by
  have hleft : t.correlation.leave turnId = s.correlation.leave turnId := h.sure turnId rfl
  have hbound : (t.correlation.leave turnId).bound = (s.correlation.leave turnId).bound := by rw [hleft]
  change t.correlation.bound = s.correlation.bound at hbound
  have hlisted : t.Listed := h.listed
  rw [hlisted.correlation_bindResponseAlias, Correlation.bind, Correlation.bind, hleft, hbound]

lemma Listed.correlation_aliasNewResponse (h : s.Listed) (id : Text) (terminal : Bool) :
    (s.aliasNewResponse id terminal).1.correlation =
      s.correlation.take id (s.aliasNewResponse id terminal).2.1 (s.aliasNewResponse id terminal).2.2 := by
  unfold aliasNewResponse
  cases htentative : s.tentativeResponseAliases.get? id with
  | some turnId => exact h.correlation_bindResponseAlias id turnId
  | none =>
    dsimp only
    split_ifs with hknown
    · rfl
    · have htakes := h.takes_claimTurn terminal
      generalize s.claimTurn terminal = claim at htakes ⊢
      obtain ⟨claimed,turn,sure⟩ := claim
      cases turn with
      | none => exact htakes.none rfl
      | some turnId =>
        cases sure with
        | true => exact htakes.correlation_bind id
        | false => exact htakes.unsure turnId rfl

variable (tagged : OmnigentTaggedSseEvent ν)

lemma officialTurnRejected_eq {id : Text} (h : tagged.officialTurnId = some id) :
    s.officialTurnRejected tagged = decide (id ∈ s.correlation.rejected) := by
  rw [officialTurnRejected, h]
  rfl

lemma Listed.correlation_resolveTurnAlias (h : s.Listed) (turnId : Option Text) :
    (s.resolveTurnAlias tagged).1.correlation =
      s.correlation.respond tagged ⟨turnId,(s.resolveTurnAlias tagged).2.1,(s.resolveTurnAlias tagged).2.2⟩ := by
  unfold resolveTurnAlias Correlation.respond
  cases hofficial : tagged.officialTurnId with
  | none => rfl
  | some id =>
    have hknown : s.knownAlias tagged = s.correlation.bound.get? id := knownAlias_of_officialTurnId tagged hofficial
    dsimp only
    rw [officialTurnRejected_eq tagged hofficial, hknown]
    by_cases hin : id ∈ s.correlation.rejected
    · rw [decide_eq_true hin, if_pos rfl, if_pos (Or.inl hin)]
    · rw [decide_eq_false hin, if_neg Bool.false_ne_true]
      cases hbound : s.correlation.bound.get? id with
      | some turnId =>
        rw [if_pos (Or.inr Option.isSome_some)]
        rfl
      | none =>
        have hnew : ¬ (id ∈ s.correlation.rejected ∨ (none : Option Text).isSome = true) :=
          not_or.mpr ⟨hin,Bool.false_ne_true⟩
        rw [if_neg hnew]
        exact h.correlation_aliasNewResponse id tagged.terminal

lemma Listed.correlation_awaitTerminal (h : s.Listed) (turnId : Text) (hfallback : s.fallbackTurnId = some turnId) :
    (s.awaitTerminal (some turnId)).correlation =
      { s.correlation.leave turnId with ended := insert turnId s.correlation.ended } := by
  rw [awaitTerminal, if_pos hfallback]
  dsimp only
  split_ifs with hended
  · refine Correlation.ext rfl rfl rfl rfl ?_ (toFinset_erase h.unbound turnId)
    exact (Finset.insert_eq_of_mem (List.mem_toFinset.mpr hended)).symm
  · exact Correlation.ext rfl rfl rfl rfl (toFinset_append_singleton s.pendingTerminalTurnIds turnId)
      (toFinset_erase h.unbound turnId)

lemma awaitTerminal_of_ne {turnId : Text} (h : s.fallbackTurnId ≠ some turnId) : s.awaitTerminal (some turnId) = s := by
  rw [awaitTerminal, if_neg h]

/-- The end of the fallback turn, as the frame's event tells it. -/
lemma Listed.correlation_endFallback (h : s.Listed) (named : NamedTurns) :
    (if tagged.officialTurnId.isNone && s.currentResponseId.isNone then s.awaitTerminal named.turnId else s).correlation =
      s.correlation.endFallback tagged named := by
  unfold Correlation.endFallback
  change _ = match tagged.officialTurnId, s.currentResponseId, named.turnId with
    | none, none, some turnId => _
    | _, _, _ => _
  cases tagged.officialTurnId with
  | some id => rfl
  | none =>
    cases s.currentResponseId with
    | some id => rfl
    | none =>
      cases named.turnId with
      | none => rfl
      | some turnId =>
        dsimp only
        by_cases hfallback : s.fallbackTurnId = some turnId
        · have hsame : s.correlation.fallback = some turnId := hfallback
          rw [if_pos hsame]
          exact h.correlation_awaitTerminal turnId hfallback
        · have hother : ¬ s.correlation.fallback = some turnId := hfallback
          rw [if_neg hother]
          exact congrArg correlation (awaitTerminal_of_ne hfallback)

/-- The fallback turn ends on the lists and nowhere else. -/
lemma awaitTerminal_frame (h : s.Listed) (turnId : Option Text) :
    (s.awaitTerminal turnId).Listed ∧ (s.awaitTerminal turnId).currentResponseId = s.currentResponseId := by
  unfold awaitTerminal
  cases turnId with
  | none => exact ⟨h,rfl⟩
  | some turnId =>
    dsimp only
    split_ifs with hfallback hended
    · exact ⟨⟨h.unbound.erase turnId,h.pending⟩,rfl⟩
    · have hnodup : (s.pendingTerminalTurnIds ++ [turnId]).Nodup :=
        List.nodup_append'.mpr ⟨h.pending,List.nodup_singleton turnId,List.disjoint_singleton.mpr hended⟩
      exact ⟨⟨h.unbound.erase turnId,hnodup⟩,rfl⟩
    · exact ⟨h,rfl⟩

lemma Listed.correlation_settle (h : s.Listed) (named : NamedTurns) :
    (s.settle tagged s.currentResponseId named.turnId named.turnAliasId named.turnAliasConfirmed).correlation =
      s.correlation.settle tagged named := by
  unfold settle Correlation.settle
  by_cases hterminal : tagged.terminal = true
  · rw [if_pos hterminal, if_pos hterminal, ← h.correlation_endFallback tagged named]
    have hawaiting : (if tagged.officialTurnId.isNone && s.currentResponseId.isNone then
          s.awaitTerminal named.turnId else s).Listed ∧
        (if tagged.officialTurnId.isNone && s.currentResponseId.isNone then
          s.awaitTerminal named.turnId else s).currentResponseId = s.currentResponseId := by
      split_ifs
      · exact awaitTerminal_frame h named.turnId
      · exact ⟨h,rfl⟩
    generalize (if tagged.officialTurnId.isNone && s.currentResponseId.isNone then
      s.awaitTerminal named.turnId else s) = awaiting at hawaiting ⊢
    obtain ⟨hlisted,hcurrent⟩ := hawaiting
    rw [← hcurrent]
    obtain ⟨turnId,turnAliasId,turnAliasConfirmed⟩ := named
    cases turnAliasId with
    | none => rfl
    | some id =>
      cases turnAliasConfirmed with
      | false => rfl
      | true =>
        dsimp only
        rw [← hlisted.correlation_leave id]
        rfl
  · rw [if_neg hterminal, if_neg hterminal]
    cases hofficial : tagged.officialTurnId with
    | none => rfl
    | some id =>
      dsimp only
      rw [officialTurnRejected_eq tagged hofficial]
      by_cases hin : id ∈ s.correlation.rejected
      · rw [decide_eq_true hin, if_pos rfl, if_pos hin]
      · rw [decide_eq_false hin, if_neg Bool.false_ne_true, if_neg hin]
        rfl

lemma Correlation.respond_current (g : Correlation) (named : NamedTurns) : (g.respond tagged named).current = g.current := by
  unfold Correlation.respond
  cases tagged.officialTurnId with
  | none => rfl
  | some id =>
    dsimp only
    split_ifs
    · rfl
    · unfold Correlation.take
      split
      · rfl
      · rfl
      · rfl

variable [JsNumber ν]

/-- A frame changes the lists as its event tells. -/
lemma correlation_normalize (h : s.Apart) (now : Text) :
    (s.normalize tagged now).1.correlation =
      s.correlation.hear tagged (s.namedTurns (.normalize tagged now)) now := by
  by_cases helicitation : tagged.type = .responseElicitationResolved
  · rw [normalize_of_elicitation tagged s now helicitation, Correlation.hear, if_pos helicitation]
    rfl
  · obtain ⟨quarantine,hobserve,-,hcases⟩ := normalize_cases tagged s now helicitation
    have hnamed : s.namedTurns (.normalize tagged now) = ⟨(s.observed quarantine).turnIdFor tagged,
        ((s.observed quarantine).resolveTurnAlias tagged).2.1,((s.observed quarantine).resolveTurnAlias tagged).2.2⟩ := by
      rw [namedTurns, if_neg helicitation]
      dsimp only
      rw [hobserve]
    have hobserved : (s.observed quarantine).Apart := h
    have hresolved : ((s.observed quarantine).resolveTurnAlias tagged).1.correlation =
        s.correlation.respond tagged (s.namedTurns (.normalize tagged now)) := by
      rw [hnamed]
      exact hobserved.listed.correlation_resolveTurnAlias tagged _
    rw [Correlation.hear, if_neg helicitation]
    cases hcases with
    | inl hthrown =>
      rw [hthrown.1, hthrown.2]
      exact hresolved
    | inr hmade =>
      obtain ⟨occurredAt,htime⟩ := Option.isSome_iff_exists.mp hmade.1
      have hcurrent : ((s.observed quarantine).resolveTurnAlias tagged).1.currentResponseId = s.currentResponseId := by
        have hsame := congrArg Correlation.current hresolved
        rw [Correlation.respond_current] at hsame
        exact hsame
      have hsettled := (apart_resolveTurnAlias tagged hobserved).listed.correlation_settle tagged
        (s.namedTurns (.normalize tagged now))
      rw [hcurrent, hresolved] at hsettled
      rw [htime, hmade.2, ← hsettled, hnamed]

/-- One call changes the lists as it and its event tell. -/
theorem correlation_call (c : NormalizerCall ν) (h : s.Apart) :
    (s.call c).correlation = s.correlation.next (s.namedTurns c) c := by
  cases c with
  | setActiveResponseId responseId =>
    cases responseId with
    | none => rfl
    | some responseId => exact correlation_setActiveResponseId s responseId
  | bindResponseId responseId turnId =>
    change (s.bindResponseId responseId turnId).correlation = if responseId ∈ s.rejectedTurnIds then _ else _
    rw [bindResponseId]
    split_ifs with hrejected
    · rfl
    · exact h.listed.correlation_bindResponseAlias responseId turnId
  | setFallbackTurnId turnId =>
    cases turnId with
    | none => rfl
    | some turnId =>
      change (s.setFallbackTurnId (some turnId)).correlation = if turnId ∈ s.rejectedTurnIds then _ else _
      rw [setFallbackTurnId]
      by_cases hrejected : turnId ∈ s.rejectedTurnIds
      · rw [if_pos hrejected, if_pos hrejected]
      · rw [if_neg hrejected, if_neg hrejected]
        exact correlation_trackUnboundTurnId _ turnId
  | removeFallbackTurnId turnId => exact h.listed.correlation_removeFallbackTurnId turnId
  | quarantineFallbackTurnId turnId => exact correlation_trackUnboundTurnId _ turnId
  | rejectTurnId turnId => exact h.listed.correlation_rejectTurnId turnId
  | restoreRejectedTurnId turnId => rfl
  | replaceFallbackTurnId previousTurnId nextTurnId =>
    exact h.listed.correlation_replaceFallbackTurnId previousTurnId nextTurnId
  | normalize tagged now => exact correlation_normalize tagged h now

/-- The turns that wait are those of the list, where the lists are apart. -/
lemma Apart.mem_waitingTurns (h : s.Apart) (turnId : Text) :
    turnId ∈ s.correlation.waitingTurns ↔ turnId ∈ s.unboundTurnIds := by
  change turnId ∈ s.unboundTurnIds.toFinset.filter (fun turnId =>
    turnId ∉ s.pendingTerminalTurnIds.toFinset ∧ turnId ∉ s.responseAliases.values) ↔ _
  rw [Finset.mem_filter, List.mem_toFinset, List.mem_toFinset, Dictionary.mem_values_iff]
  exact ⟨And.left,fun hmem => ⟨hmem,h.apart turnId hmem⟩⟩

end Frames

end OmnigentSseNormalizer
end OmniagentPlus.OmnigentTransport
