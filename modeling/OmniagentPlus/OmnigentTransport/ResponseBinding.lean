import OmniagentPlus.OmnigentTransport.NormalizerCalls

/-! The turns of an `OmnigentSseNormalizer`: which wait for a response, which a terminal frame has
ended before one came, and which a response is bound to, after any calls and frames. -/
namespace OmniagentPlus.OmnigentTransport
open OmniagentPlus.Foundation OmniagentPlus.CoreContracts

def Bound (aliases : Dictionary Text Text) (turnId : Text) : Prop := ∃ responseId, aliases.get? responseId = some turnId

/-- No two responses have the same turn. -/
def InjectiveBinding (aliases : Dictionary Text Text) : Prop :=
  ∀ responseId other turnId, aliases.get? responseId = some turnId → aliases.get? other = some turnId →
    responseId = other

/-- A turn is on one list, and it is not one that waits once a response has it. -/
structure UnboundApart (unbound pending : List Text) (aliases : Dictionary Text Text) : Prop where
  unboundNodup : unbound.Nodup
  pendingNodup : pending.Nodup
  apart : ∀ turnId ∈ unbound, turnId ∉ pending ∧ ¬ Bound aliases turnId

/-- Nor one that has ended; and no two responses have one turn. -/
structure PendingApart (pending : List Text) (aliases : Dictionary Text Text) : Prop where
  free : ∀ turnId ∈ pending, ¬ Bound aliases turnId
  injective : InjectiveBinding aliases

section Binding
variable {unbound pending : List Text} {aliases : Dictionary Text Text} {responseId turnId : Text}

lemma bound_set_iff {other : Text} (h : Bound (aliases.set responseId turnId) other) : other = turnId ∨ Bound aliases other := by
  obtain ⟨id,hid⟩ := h
  rw [Dictionary.get?_set] at hid
  split_ifs at hid with heq
  · exact Or.inl (Option.some.inj hid).symm
  · exact Or.inr ⟨id,hid⟩

lemma bound_filter {p : Text → Bool} {other : Text} (h : Bound (aliases.filter p) other) : Bound aliases other := by
  obtain ⟨id,hid⟩ := h
  rw [Dictionary.get?_filter] at hid
  exact ⟨id,(Option.filter_eq_some_iff.mp hid).1⟩

lemma bound_mapValues_iff {f : Text → Text} {other : Text} :
    Bound (aliases.mapValues f) other ↔ ∃ aliasId, Bound aliases aliasId ∧ f aliasId = other := by
  simp only [Bound, Dictionary.get?_mapValues, Option.map_eq_some_iff]
  constructor
  · intro h
    obtain ⟨id,aliasId,hid,heq⟩ := h
    exact ⟨aliasId,⟨id,hid⟩,heq⟩
  · intro h
    obtain ⟨aliasId,⟨id,hid⟩,heq⟩ := h
    exact ⟨id,aliasId,hid,heq⟩

lemma UnboundApart.sublist (h : UnboundApart unbound pending aliases) {unbound' pending' : List Text}
    (hu : unbound'.Sublist unbound) (hp : pending'.Sublist pending) : UnboundApart unbound' pending' aliases := by
  refine ⟨hu.nodup h.unboundNodup,hp.nodup h.pendingNodup,fun turnId hmem => ?_⟩
  obtain ⟨hpending,hfree⟩ := h.apart turnId (hu.subset hmem)
  exact ⟨fun hin => hpending (hp.subset hin),hfree⟩

lemma PendingApart.subset (h : PendingApart pending aliases) {pending' : List Text}
    (hp : pending' ⊆ pending) : PendingApart pending' aliases :=
  ⟨fun turnId hmem => h.free turnId (hp hmem),h.injective⟩

/-- The turn of a response leaves both lists. -/
lemma UnboundApart.bind (h : UnboundApart unbound pending aliases) (responseId turnId : Text) :
    UnboundApart (unbound.erase turnId) (pending.erase turnId) (aliases.set responseId turnId) := by
  refine ⟨h.unboundNodup.erase turnId,h.pendingNodup.erase turnId,fun other hmem => ?_⟩
  obtain ⟨hne,hother⟩ := h.unboundNodup.mem_erase_iff.mp hmem
  obtain ⟨hpending,hfree⟩ := h.apart other hother
  exact ⟨fun hin => hpending (List.mem_of_mem_erase hin),fun hbound => (bound_set_iff hbound).elim hne hfree⟩

lemma PendingApart.bind (h : PendingApart pending aliases) (hpending : pending.Nodup)
    (hnew : ∀ other, aliases.get? other = some turnId → other = responseId) :
    PendingApart (pending.erase turnId) (aliases.set responseId turnId) := by
  refine ⟨fun other hmem => ?_,fun id other aliasId hid hother => ?_⟩
  · obtain ⟨hne,hin⟩ := hpending.mem_erase_iff.mp hmem
    exact fun hbound => (bound_set_iff hbound).elim hne (h.free other hin)
  · rw [Dictionary.get?_set] at hid hother
    split_ifs at hid hother with h₁ h₂ h₂
    · rw [h₁, h₂]
    · cases hid
      rw [h₁, hnew other hother]
    · cases hother
      rw [h₂, hnew id hid]
    · exact h.injective id other aliasId hid hother

lemma UnboundApart.announce (h : UnboundApart unbound pending aliases) (hunbound : turnId ∉ unbound)
    (hpending : turnId ∉ pending) (hfree : ¬ Bound aliases turnId) :
    UnboundApart (unbound ++ [turnId]) pending aliases := by
  refine ⟨List.nodup_append'.mpr ⟨h.unboundNodup,List.nodup_singleton turnId,?_⟩,h.pendingNodup,fun other hmem => ?_⟩
  · exact List.disjoint_singleton.mpr hunbound
  · rw [List.mem_append, List.mem_singleton] at hmem
    cases hmem with
    | inl hin => exact h.apart other hin
    | inr heq => exact heq ▸ ⟨hpending,hfree⟩

/-- A turn that has ended goes over to the other list. -/
lemma UnboundApart.await (h : UnboundApart unbound pending aliases) (hnew : turnId ∉ pending) :
    UnboundApart (unbound.erase turnId) (pending ++ [turnId]) aliases := by
  refine ⟨h.unboundNodup.erase turnId,List.nodup_append'.mpr ⟨h.pendingNodup,List.nodup_singleton turnId,
    List.disjoint_singleton.mpr hnew⟩,fun other hmem => ?_⟩
  obtain ⟨hne,hother⟩ := h.unboundNodup.mem_erase_iff.mp hmem
  obtain ⟨hpending,hfree⟩ := h.apart other hother
  refine ⟨fun hin => ?_,hfree⟩
  rw [List.mem_append, List.mem_singleton] at hin
  exact hin.elim hpending hne

lemma PendingApart.await (h : PendingApart pending aliases) (hfree : ¬ Bound aliases turnId) :
    PendingApart (pending ++ [turnId]) aliases := by
  refine ⟨fun other hmem => ?_,h.injective⟩
  rw [List.mem_append, List.mem_singleton] at hmem
  cases hmem with
  | inl hin => exact h.free other hin
  | inr heq => exact heq ▸ hfree

lemma UnboundApart.filter (h : UnboundApart unbound pending aliases) (p : Text → Bool) :
    UnboundApart unbound pending (aliases.filter p) := by
  refine ⟨h.unboundNodup,h.pendingNodup,fun turnId hmem => ?_⟩
  obtain ⟨hpending,hfree⟩ := h.apart turnId hmem
  exact ⟨hpending,fun hbound => hfree (bound_filter hbound)⟩

lemma PendingApart.filter (h : PendingApart pending aliases) (p : Text → Bool) :
    PendingApart pending (aliases.filter p) := by
  refine ⟨fun turnId hmem hbound => h.free turnId hmem (bound_filter hbound),
    fun id other aliasId hid hother => ?_⟩
  rw [Dictionary.get?_filter, Option.filter_eq_some_iff] at hid hother
  exact h.injective id other aliasId hid.1 hother.1

end Binding

section Replacing
variable {turnIds : List Text} {previousTurnId nextTurnId : Text}

lemma nodup_replaceTrackedTurnId (h : turnIds.Nodup) :
    (replaceTrackedTurnId turnIds previousTurnId nextTurnId).Nodup := by
  unfold replaceTrackedTurnId
  dsimp only
  split_ifs with hprevious hnext
  · exact h.erase previousTurnId
  · have hle : turnIds.idxOf previousTurnId ≤ (turnIds.erase previousTurnId).length := by
      have hlt := List.idxOf_lt_length_iff.mpr hprevious
      rw [List.length_erase_of_mem hprevious]
      omega
    exact (List.perm_insertIdx nextTurnId _ hle).nodup_iff.mpr (List.nodup_cons.mpr ⟨hnext,h.erase previousTurnId⟩)
  · exact h

/-- The turns of the list, the one under its new name. -/
lemma mem_replaceTrackedTurnId (h : turnIds.Nodup) {turnId : Text} :
    turnId ∈ replaceTrackedTurnId turnIds previousTurnId nextTurnId ↔
      (turnId ∈ turnIds ∧ turnId ≠ previousTurnId) ∨ (turnId = nextTurnId ∧ previousTurnId ∈ turnIds) := by
  unfold replaceTrackedTurnId
  dsimp only
  split_ifs with hprevious hnext
  · rw [h.mem_erase_iff]
    constructor
    · exact fun hmem => Or.inl ⟨hmem.2,hmem.1⟩
    · intro hmem
      cases hmem with
      | inl hold => exact ⟨hold.2,hold.1⟩
      | inr hnew => exact hnew.1 ▸ h.mem_erase_iff.mp hnext
  · have hle : turnIds.idxOf previousTurnId ≤ (turnIds.erase previousTurnId).length := by
      have hlt := List.idxOf_lt_length_iff.mpr hprevious
      rw [List.length_erase_of_mem hprevious]
      omega
    rw [List.mem_insertIdx hle, h.mem_erase_iff]
    tauto
  · constructor
    · exact fun hmem => Or.inl ⟨hmem,fun heq => hprevious (heq ▸ hmem)⟩
    · intro hmem
      cases hmem with
      | inl hold => exact hold.1
      | inr hnew => exact absurd hnew.2 hprevious

/-- A new name for a turn that waits is none of a turn that has ended or that a response has, and
the other way round. -/
def RenamesUnbound (unbound pending : List Text) (aliases : Dictionary Text Text)
    (previousTurnId nextTurnId : Text) : Prop :=
  (previousTurnId ∈ unbound → nextTurnId ∉ pending ∧ ¬ Bound aliases nextTurnId) ∧
    (previousTurnId ∈ pending ∨ Bound aliases previousTurnId → nextTurnId ∉ unbound)

/-- The same between the turns that have ended and those that a response has; and no two of the
latter get one name. -/
def RenamesBound (pending : List Text) (aliases : Dictionary Text Text) (previousTurnId nextTurnId : Text) : Prop :=
  (previousTurnId ∈ pending → ¬ Bound aliases nextTurnId) ∧
    (Bound aliases previousTurnId → nextTurnId ∉ pending ∧ ¬ Bound aliases nextTurnId)

def renamed (previousTurnId nextTurnId aliasId : Text) : Text :=
  if aliasId = previousTurnId then nextTurnId else aliasId

variable {unbound pending : List Text} {aliases : Dictionary Text Text}

lemma bound_renamed {turnId : Text} (h : Bound (aliases.mapValues (renamed previousTurnId nextTurnId)) turnId) :
    (turnId = nextTurnId ∧ Bound aliases previousTurnId) ∨ Bound aliases turnId := by
  obtain ⟨aliasId,hbound,heq⟩ := bound_mapValues_iff.mp h
  rw [renamed] at heq
  split_ifs at heq with hprevious
  · exact Or.inl ⟨heq.symm,hprevious ▸ hbound⟩
  · exact Or.inr (heq ▸ hbound)

lemma UnboundApart.replace (h : UnboundApart unbound pending aliases)
    (hnew : RenamesUnbound unbound pending aliases previousTurnId nextTurnId) :
    UnboundApart (replaceTrackedTurnId unbound previousTurnId nextTurnId)
      (replaceTrackedTurnId pending previousTurnId nextTurnId)
      (aliases.mapValues (renamed previousTurnId nextTurnId)) := by
  refine ⟨nodup_replaceTrackedTurnId h.unboundNodup,nodup_replaceTrackedTurnId h.pendingNodup,fun turnId hmem => ?_⟩
  rw [mem_replaceTrackedTurnId h.pendingNodup]
  cases (mem_replaceTrackedTurnId h.unboundNodup).mp hmem with
  | inl hold =>
    obtain ⟨hnot,hfree⟩ := h.apart turnId hold.1
    constructor
    · intro hin
      cases hin with
      | inl hin => exact hnot hin.1
      | inr hin => exact hnew.2 (Or.inl hin.2) (hin.1 ▸ hold.1)
    · intro hbound
      cases bound_renamed hbound with
      | inl hin => exact hnew.2 (Or.inr hin.2) (hin.1 ▸ hold.1)
      | inr hin => exact hfree hin
  | inr hnext =>
    obtain ⟨heq,hprevious⟩ := hnext
    obtain ⟨hnot,hfree⟩ := h.apart previousTurnId hprevious
    obtain ⟨hnextNot,hnextFree⟩ := hnew.1 hprevious
    subst heq
    exact ⟨fun hin => hin.elim (fun hin => hnextNot hin.1) (fun hin => hnot hin.2),
      fun hbound => (bound_renamed hbound).elim (fun hin => hfree hin.2) hnextFree⟩

lemma PendingApart.replace (h : PendingApart pending aliases) (hpending : pending.Nodup)
    (hnew : RenamesBound pending aliases previousTurnId nextTurnId) :
    PendingApart (replaceTrackedTurnId pending previousTurnId nextTurnId)
      (aliases.mapValues (renamed previousTurnId nextTurnId)) := by
  refine ⟨fun turnId hmem hbound => ?_,fun id other turnId hid hother => ?_⟩
  · cases (mem_replaceTrackedTurnId hpending).mp hmem with
    | inl hold =>
      cases bound_renamed hbound with
      | inl hin => exact (hnew.2 hin.2).1 (hin.1 ▸ hold.1)
      | inr hin => exact h.free turnId hold.1 hin
    | inr hnext =>
      cases bound_renamed hbound with
      | inl hin => exact h.free previousTurnId hnext.2 hin.2
      | inr hin => exact hnew.1 hnext.2 (hnext.1 ▸ hin)
  · rw [Dictionary.get?_mapValues, Option.map_eq_some_iff] at hid hother
    obtain ⟨first,hfirst,heq⟩ := hid
    obtain ⟨second,hsecond,rfl⟩ := hother
    rw [renamed, renamed] at heq
    split_ifs at heq with h₁ h₂ h₂
    · exact h.injective id other first hfirst (h₂.trans h₁.symm ▸ hsecond)
    · exact absurd ⟨other,heq ▸ hsecond⟩ (hnew.2 ⟨id,h₁ ▸ hfirst⟩).2
    · exact absurd ⟨id,heq ▸ hfirst⟩ (hnew.2 ⟨other,h₂ ▸ hsecond⟩).2
    · exact h.injective id other first hfirst (heq ▸ hsecond)

end Replacing

namespace OmnigentSseNormalizer
variable {s : OmnigentSseNormalizer}

def Apart (s : OmnigentSseNormalizer) : Prop :=
  UnboundApart s.unboundTurnIds s.pendingTerminalTurnIds s.responseAliases

def Injective (s : OmnigentSseNormalizer) : Prop := PendingApart s.pendingTerminalTurnIds s.responseAliases

/-- A turn that is taken off the lists for a response. -/
structure Claims (s t : OmnigentSseNormalizer) : Prop where
  aliases : t.responseAliases = s.responseAliases
  unbound : t.unboundTurnIds.Sublist s.unboundTurnIds
  pending : t.pendingTerminalTurnIds.Sublist s.pendingTerminalTurnIds

lemma Claims.apart {t : OmnigentSseNormalizer} (h : Claims s t) (hapart : s.Apart) : t.Apart := by
  rw [Apart, h.aliases]
  exact hapart.sublist h.unbound h.pending

lemma claims_claimTurn (s : OmnigentSseNormalizer) (terminal : Bool) : Claims s (s.claimTurn terminal).1 := by
  unfold claimTurn
  dsimp only
  split_ifs
  · exact ⟨rfl,List.tail_sublist _,List.Sublist.refl _⟩
  · exact ⟨rfl,List.Sublist.refl _,List.tail_sublist _⟩
  · exact ⟨rfl,List.Sublist.refl _,List.Sublist.refl _⟩
  · exact ⟨rfl,List.Sublist.refl _,List.Sublist.refl _⟩

/-- The turn that a new response takes is on one of the lists. -/
lemma claimTurn_tracked {terminal : Bool} {turnId : Text} (h : (s.claimTurn terminal).2.1 = some turnId) :
    turnId ∈ s.unboundTurnIds ∨ turnId ∈ s.pendingTerminalTurnIds := by
  unfold claimTurn at h
  dsimp only at h
  split_ifs at h
  · exact Or.inl (List.mem_of_mem_head? h)
  · exact Or.inr (List.mem_of_mem_head? h)
  · exact Or.inl (List.mem_of_mem_head? h)

lemma apart_aliasNewResponse (responseId : Text) (terminal : Bool) (h : s.Apart) :
    (s.aliasNewResponse responseId terminal).1.Apart := by
  unfold aliasNewResponse
  cases s.tentativeResponseAliases.get? responseId with
  | some turnId => exact UnboundApart.bind h responseId turnId
  | none =>
    dsimp only
    split_ifs
    · exact h
    · have hclaimed := (claims_claimTurn s terminal).apart h
      generalize s.claimTurn terminal = claim at hclaimed ⊢
      obtain ⟨claimed,turn,sure⟩ := claim
      split
      · rename_i turnId hsure
        cases hsure
        exact UnboundApart.bind hclaimed responseId turnId
      · exact hclaimed

/-- No turn is bound twice where the tentative turn of the response is not bound already. -/
lemma injective_aliasNewResponse {responseId : Text} (terminal : Bool) (hapart : s.Apart) (h : s.Injective)
    (htentative : ∀ turnId, s.tentativeResponseAliases.get? responseId = some turnId → ¬ Bound s.responseAliases turnId) :
    (s.aliasNewResponse responseId terminal).1.Injective := by
  unfold aliasNewResponse
  cases hturn : s.tentativeResponseAliases.get? responseId with
  | some turnId =>
    exact PendingApart.bind h hapart.pendingNodup fun other hother => absurd ⟨other,hother⟩ (htentative turnId hturn)
  | none =>
    dsimp only
    split_ifs with hknown
    · exact h
    · have hclaims := claims_claimTurn s terminal
      have htracked : ∀ turnId, (s.claimTurn terminal).2.1 = some turnId →
          turnId ∈ s.unboundTurnIds ∨ turnId ∈ s.pendingTerminalTurnIds := fun turnId => claimTurn_tracked
      generalize s.claimTurn terminal = claim at hclaims htracked ⊢
      obtain ⟨claimed,turn,sure⟩ := claim
      have hclaimed : PendingApart claimed.pendingTerminalTurnIds claimed.responseAliases :=
        hclaims.aliases ▸ PendingApart.subset h hclaims.pending.subset
      split
      · rename_i turnId hsure
        cases hsure
        refine hclaimed.bind (hclaims.pending.nodup hapart.pendingNodup) fun other hother => ?_
        rw [hclaims.aliases] at hother
        cases htracked _ rfl with
        | inl hin => exact absurd ⟨other,hother⟩ (hapart.apart _ hin).2
        | inr hin => exact absurd ⟨other,hother⟩ (h.free _ hin)
      · exact hclaimed

section Frames
variable {ν : Type} (tagged : OmnigentTaggedSseEvent ν)

lemma isPassiveSessionMetadata_of_officialTurnId {tagged : OmnigentTaggedSseEvent ν} {id : Text}
    (h : tagged.officialTurnId = some id) : tagged.isPassiveSessionMetadata = false := by
  rw [Bool.eq_false_iff]
  intro hpassive
  simp [OmnigentTaggedSseEvent.officialTurnId, OmnigentTaggedSseEvent.nestedResponseId,
    OmnigentTaggedSseEvent.explicitResponseId, OmnigentTaggedSseEvent.isIdentityFreeEvent, hpassive] at h

lemma knownAlias_of_officialTurnId {id : Text} (h : tagged.officialTurnId = some id) :
    s.knownAlias tagged = s.responseAliases.get? id := by
  rw [knownAlias, isPassiveSessionMetadata_of_officialTurnId h, h]
  rfl

lemma apart_resolveTurnAlias (h : s.Apart) : (s.resolveTurnAlias tagged).1.Apart := by
  unfold resolveTurnAlias
  cases tagged.officialTurnId with
  | none => exact h
  | some id =>
    dsimp only
    split_ifs
    · exact h
    · cases s.knownAlias tagged with
      | some turnId => exact h
      | none => exact apart_aliasNewResponse id tagged.terminal h

/-- The tentative turn of the response of a frame is not bound to another one. -/
def TentativeFree (s : OmnigentSseNormalizer) (tagged : OmnigentTaggedSseEvent ν) : Prop :=
  ∀ id turnId, tagged.officialTurnId = some id → id ∉ s.rejectedTurnIds → s.responseAliases.get? id = none →
    s.tentativeResponseAliases.get? id = some turnId → ¬ Bound s.responseAliases turnId

lemma injective_resolveTurnAlias (hapart : s.Apart) (h : s.Injective) (hfree : s.TentativeFree tagged) :
    (s.resolveTurnAlias tagged).1.Injective := by
  unfold resolveTurnAlias
  cases hofficial : tagged.officialTurnId with
  | none => exact h
  | some id =>
    dsimp only
    split_ifs with hrejected
    · exact h
    · cases hknown : s.knownAlias tagged with
      | some turnId => exact h
      | none =>
        rw [knownAlias_of_officialTurnId tagged hofficial] at hknown
        refine injective_aliasNewResponse tagged.terminal hapart h fun turnId => hfree id turnId hofficial ?_ hknown
        intro hin
        exact hrejected (by simp [officialTurnRejected, hofficial, hin])

lemma apart_awaitTerminal (turnId : Option Text) (h : s.Apart) : (s.awaitTerminal turnId).Apart := by
  unfold awaitTerminal
  cases turnId with
  | none => exact h
  | some turnId =>
    dsimp only
    split_ifs with hfallback hpending
    · exact UnboundApart.sublist h List.erase_sublist (List.Sublist.refl _)
    · exact UnboundApart.await h hpending
    · exact h

lemma injective_awaitTerminal {turnId : Option Text} (h : s.Injective)
    (hfree : ∀ id, turnId = some id → s.fallbackTurnId = some id → ¬ Bound s.responseAliases id) :
    (s.awaitTerminal turnId).Injective := by
  unfold awaitTerminal
  cases turnId with
  | none => exact h
  | some turnId =>
    dsimp only
    split_ifs with hfallback hpending
    · exact h
    · exact PendingApart.await h (hfree turnId rfl hfallback)
    · exact h

variable {previousResponseId turnId turnAliasId : Option Text} {turnAliasConfirmed : Bool}

lemma apart_settle (h : s.Apart) : (s.settle tagged previousResponseId turnId turnAliasId turnAliasConfirmed).Apart := by
  unfold settle
  by_cases hterminal : tagged.terminal = true
  · rw [if_pos hterminal]
    have hawaiting : (if tagged.officialTurnId.isNone && previousResponseId.isNone then
        s.awaitTerminal turnId else s).Apart := by
      split_ifs
      · exact apart_awaitTerminal turnId h
      · exact h
    generalize (if tagged.officialTurnId.isNone && previousResponseId.isNone then
        s.awaitTerminal turnId else s) = awaiting at hawaiting ⊢
    dsimp only
    split
    · exact UnboundApart.sublist hawaiting List.erase_sublist List.erase_sublist
    · exact hawaiting
  · rw [if_neg hterminal]
    cases tagged.officialTurnId with
    | none => exact h
    | some id =>
      dsimp only
      split_ifs
      · exact h
      · exact h

/-- A bound turn does not end for want of a response where the fallback turn that does is not bound. -/
lemma injective_settle (h : s.Injective) (hfree : tagged.terminal = true → tagged.officialTurnId = none →
      previousResponseId = none → ∀ id, turnId = some id → s.fallbackTurnId = some id → ¬ Bound s.responseAliases id) :
    (s.settle tagged previousResponseId turnId turnAliasId turnAliasConfirmed).Injective := by
  unfold settle
  by_cases hterminal : tagged.terminal = true
  · rw [if_pos hterminal]
    have hawaiting : (if tagged.officialTurnId.isNone && previousResponseId.isNone then
        s.awaitTerminal turnId else s).Injective := by
      split_ifs with hnone
      · rw [Bool.and_eq_true, Option.isNone_iff_eq_none, Option.isNone_iff_eq_none] at hnone
        exact injective_awaitTerminal h (hfree hterminal hnone.1 hnone.2)
      · exact h
    generalize (if tagged.officialTurnId.isNone && previousResponseId.isNone then
        s.awaitTerminal turnId else s) = awaiting at hawaiting ⊢
    dsimp only
    split
    · exact PendingApart.subset hawaiting List.erase_subset
    · exact hawaiting
  · rw [if_neg hterminal]
    cases tagged.officialTurnId with
    | none => exact h
    | some id =>
      dsimp only
      split_ifs
      · exact h
      · exact h

/-- The state in which a frame looks for its turn: one frame on, its quarantine as it says. -/
def observed (s : OmnigentSseNormalizer) (quarantine : Option Text) : OmnigentSseNormalizer :=
  { s with frameOrdinal := s.frameOrdinal + 1, identityFreeQuarantineTurnId := quarantine }

lemma observeTurn_eq (s : OmnigentSseNormalizer) :
    ∃ quarantine, { s with frameOrdinal := s.frameOrdinal + 1 }.observeTurn tagged = s.observed quarantine ∧
      (tagged.officialTurnId = none → quarantine = s.identityFreeQuarantineTurnId) := by
  unfold observeTurn
  cases tagged.officialTurnId with
  | none => exact ⟨_,rfl,fun _ => rfl⟩
  | some id => exact ⟨_,rfl,fun h => by cases h⟩

lemma resolveTurnAlias_of_none (s : OmnigentSseNormalizer) (h : tagged.officialTurnId = none) :
    (s.resolveTurnAlias tagged).1 = s := by
  rw [resolveTurnAlias, h]

variable [JsNumber ν]

/-- A frame resolves its turn and then settles, or it throws in between where its time is out of range. -/
theorem normalize_cases (s : OmnigentSseNormalizer) (now : Text) (h : tagged.type ≠ .responseElicitationResolved) :
    ∃ quarantine, { s with frameOrdinal := s.frameOrdinal + 1 }.observeTurn tagged = s.observed quarantine ∧
      (tagged.officialTurnId = none → quarantine = s.identityFreeQuarantineTurnId) ∧
      (tagged.occurredAt now = none ∧
          (s.normalize tagged now).1 = ((s.observed quarantine).resolveTurnAlias tagged).1 ∨
        (tagged.occurredAt now).isSome ∧
          (s.normalize tagged now).1 = settle ((s.observed quarantine).resolveTurnAlias tagged).1 tagged
            s.currentResponseId ((s.observed quarantine).turnIdFor tagged)
            ((s.observed quarantine).resolveTurnAlias tagged).2.1 ((s.observed quarantine).resolveTurnAlias tagged).2.2) := by
  obtain ⟨quarantine,hobserve,hsame⟩ := observeTurn_eq tagged s
  refine ⟨quarantine,hobserve,hsame,?_⟩
  unfold normalize
  dsimp only
  rw [if_neg h, hobserve]
  cases tagged.occurredAt now with
  | none => exact Or.inl ⟨rfl,rfl⟩
  | some occurredAt => exact Or.inr ⟨rfl,rfl⟩

lemma normalize_of_elicitation (s : OmnigentSseNormalizer) (now : Text) (h : tagged.type = .responseElicitationResolved) :
    (s.normalize tagged now).1 = s.observed s.identityFreeQuarantineTurnId := by
  unfold normalize
  dsimp only
  rw [if_pos h]
  rfl

lemma apart_normalize (now : Text) (h : s.Apart) : (s.normalize tagged now).1.Apart := by
  by_cases helicitation : tagged.type = .responseElicitationResolved
  · rw [normalize_of_elicitation tagged s now helicitation]
    exact h
  · obtain ⟨quarantine,-,-,hcases⟩ := normalize_cases tagged s now helicitation
    have hobserved : (s.observed quarantine).Apart := h
    cases hcases with
    | inl hthrown =>
      rw [hthrown.2]
      exact apart_resolveTurnAlias tagged hobserved
    | inr hmade =>
      rw [hmade.2]
      exact apart_settle tagged (apart_resolveTurnAlias tagged hobserved)

/-- A frame that names the fallback turn for want of a response names one that is not bound. -/
def FallbackFree (s : OmnigentSseNormalizer) (tagged : OmnigentTaggedSseEvent ν) : Prop :=
  tagged.terminal = true → tagged.officialTurnId = none → s.currentResponseId = none →
    ∀ id, s.turnIdFor tagged = some id → s.fallbackTurnId = some id → ¬ Bound s.responseAliases id

lemma injective_normalize (now : Text) (hapart : s.Apart) (h : s.Injective)
    (hfree : tagged.type ≠ .responseElicitationResolved → s.TentativeFree tagged ∧ s.FallbackFree tagged) :
    (s.normalize tagged now).1.Injective := by
  by_cases helicitation : tagged.type = .responseElicitationResolved
  · rw [normalize_of_elicitation tagged s now helicitation]
    exact h
  · obtain ⟨htentative,hfallback⟩ := hfree helicitation
    obtain ⟨quarantine,-,hsame,hcases⟩ := normalize_cases tagged s now helicitation
    have hresolved : ((s.observed quarantine).resolveTurnAlias tagged).1.Injective :=
      injective_resolveTurnAlias tagged hapart h htentative
    cases hcases with
    | inl hthrown =>
      rw [hthrown.2]
      exact hresolved
    | inr hmade =>
      rw [hmade.2]
      apply injective_settle tagged hresolved
      intro hterminal hofficial hcurrent id hturn hfall
      rw [resolveTurnAlias_of_none tagged _ hofficial] at hfall ⊢
      rw [hsame hofficial] at hturn
      exact hfallback hterminal hofficial hcurrent id hturn hfall

end Frames
end OmnigentSseNormalizer
end OmniagentPlus.OmnigentTransport
