import OmniagentPlus.OmnigentTransport.ProviderStream
import OmniagentPlus.OmnigentTransport.SegmentRules

/-! What the provider keeps of one session, and code for a session that leaves what is kept of the
others alone. Two sessions share a key only where what the keys of one start with starts those of the other. -/
namespace OmniagentPlus.OmnigentTransport
open OmniagentPlus.Foundation OmniagentPlus.CoreContracts
variable {ν : Type}

/-- No key of one session is a key of the other. -/
def Apart (s t : Text) : Prop := ¬keyPrefix s <+: keyPrefix t ∧ ¬keyPrefix t <+: keyPrefix s

instance instDecidableApart (s t : Text) : Decidable (Apart s t) := inferInstanceAs (Decidable (_ ∧ _))

/-- A book with an entry for each session. -/
def isSession (t key : Text) : Bool := decide (key = t)

section Keys
variable {s t : Text}

theorem hasKeyPrefix_sessionKey (s id : Text) : hasKeyPrefix s (sessionKey s id) = true :=
  List.isPrefixOf_iff_prefix.mpr (List.prefix_append _ _)

theorem Apart.symm (h : Apart s t) : Apart t s := ⟨h.2,h.1⟩

theorem Apart.ne (h : Apart s t) : s ≠ t := by
  rintro rfl
  exact h.1 (List.prefix_refl _)

theorem Apart.disjoint (h : Apart s t) {key : Text} (ht : hasKeyPrefix t key = true) : hasKeyPrefix s key = false := by
  rw [Bool.eq_false_iff]
  intro hs
  have hst := List.prefix_or_prefix_of_prefix (List.isPrefixOf_iff_prefix.mp hs) (List.isPrefixOf_iff_prefix.mp ht)
  exact hst.elim h.1 h.2

theorem Apart.key (h : Apart s t) (id : Text) : hasKeyPrefix t (sessionKey s id) = false :=
  h.symm.disjoint (hasKeyPrefix_sessionKey s id)

theorem Apart.session (h : Apart s t) : isSession t s = false := decide_eq_false h.ne

end Keys

section Lists
variable {α : Type} {f : α → Text} {s : Text} {l l' l'' : List α}

/-- A list that grows by entries of a session and whose others stay what they are. -/
structure KeepsOthers (f : α → Text) (s : Text) (l l' : List α) : Prop where
  kept : ∀ (i : ℕ) (a : α), l[i]? = some a → ∃ a', l'[i]? = some a' ∧ f a' = f a
  others : ∀ (i : ℕ) (a : α), f a ≠ s → (l'[i]? = some a ↔ l[i]? = some a)

theorem keepsOthers_refl (l : List α) : KeepsOthers f s l l := ⟨fun _ a h => ⟨a,h,rfl⟩,fun _ _ _ => Iff.rfl⟩

theorem KeepsOthers.trans (h : KeepsOthers f s l l') (h' : KeepsOthers f s l' l'') : KeepsOthers f s l l'' where
  kept i a ha := by
    obtain ⟨a',ha',hf⟩ := h.kept i a ha
    obtain ⟨a'',ha'',hf'⟩ := h'.kept i a' ha'
    exact ⟨a'',ha'',hf'.trans hf⟩
  others i a ha := (h'.others i a ha).trans (h.others i a ha)

theorem keepsOthers_append {a : α} (ha : f a = s) : KeepsOthers f s l (l ++ [a]) where
  kept i b hb := ⟨b,by rw [List.getElem?_append_left (List.getElem?_eq_some_iff.mp hb).1]; exact hb,rfl⟩
  others i b hb := by
    rw [List.getElem?_append]
    split_ifs with hi
    · exact Iff.rfl
    · rw [List.getElem?_eq_none (Nat.le_of_not_lt hi)]
      refine ⟨fun h => ?_,fun h => by cases h⟩
      have hba : b = a := by simpa using List.mem_of_getElem? h
      exact absurd (hba ▸ ha) hb

/-- An entry of the session changes. -/
theorem keepsOthers_modify {i : ℕ} {change : α → α} (hs : ∀ a, l[i]? = some a → f a = s) (hf : ∀ a, f (change a) = f a) :
    KeepsOthers f s l (l.modify i change) where
  kept j a ha := by
    rw [List.getElem?_modify, ha]
    split_ifs
    · exact ⟨change a,rfl,hf a⟩
    · exact ⟨a,rfl,rfl⟩
  others j a ha := by
    rw [List.getElem?_modify]
    split_ifs with hij
    · subst hij
      cases hl : l[i]? with
      | none => simp
      | some b =>
        have hb := hs b hl
        have hchanged : change b ≠ a := fun h => ha (by rw [← h, hf, hb])
        have hsame : b ≠ a := fun h => ha (by rw [← h, hb])
        simp [hchanged, hsame]
    · simp

end Lists

namespace OmnigentHttpProvider
variable (p : OmnigentHttpProvider ν)

/-- The provider as far as the session goes: of every book what is under its keys. -/
def part (t : Text) : OmnigentHttpProvider ν where
  cancellationReservations := p.cancellationReservations.restrict (isSession t)
  cancellationOfficialTurnIds := p.cancellationOfficialTurnIds.restrict (hasKeyPrefix t)
  cancelledTurnAwaitingIdentityKeys := p.cancelledTurnAwaitingIdentityKeys.restrict (hasKeyPrefix t)
  cancelledTurnQuarantineKeys := p.cancelledTurnQuarantineKeys.restrict (hasKeyPrefix t)
  claimedHistoryItemKeys := p.claimedHistoryItemKeys.restrict (hasKeyPrefix t)
  earlyCancellationProofKeys := p.earlyCancellationProofKeys.restrict (hasKeyPrefix t)
  latestTurnIds := p.latestTurnIds.restrict (isSession t)
  latestFailureTurnIds := p.latestFailureTurnIds.restrict (isSession t)
  observedHistoryItemKeys := p.observedHistoryItemKeys.restrict (hasKeyPrefix t)
  officialResponseTurnKeys := p.officialResponseTurnKeys.restrict (hasKeyPrefix t)
  openStreams := p.openStreams.restrict (isSession t)
  nativePendingTurnKeys := p.nativePendingTurnKeys.restrict (hasKeyPrefix t)
  pendingItemTurnIds := p.pendingItemTurnIds.restrict (hasKeyPrefix t)
  provisionalTurnOrder := p.provisionalTurnOrder.restrict (isSession t)
  provisionalTurnAliases := p.provisionalTurnAliases.restrict (hasKeyPrefix t)
  provisionalTurnKeys := p.provisionalTurnKeys.restrict (hasKeyPrefix t)
  queuedOnlyTurnKeys := p.queuedOnlyTurnKeys.restrict (hasKeyPrefix t)
  rejectedTurnKeys := p.rejectedTurnKeys.restrict (hasKeyPrefix t)
  sends := p.sends.restrict (hasKeyPrefix t)
  sessions := p.sessions.restrict (isSession t)
  turns := p.turns.restrict (hasKeyPrefix t)
  replay := {
    eventSequences := p.replay.eventSequences.restrict (isSession t)
    nextEventSequences := p.replay.nextEventSequences.restrict (isSession t)
    deliveredTextEventsByTurnIds := p.replay.deliveredTextEventsByTurnIds.restrict (hasKeyPrefix t) }

def handleSession (handle : ℕ) : Option Text := (p.handles[handle]?).map (·.sessionId)

def promiseSession (promise : ℕ) : Option Text := (p.sendPromises[promise]?).map (·.sessionId)

/-- The handles and the promises, and what leads to them. -/
def turnTables : Dictionary Text ℕ × List MutableTurnHandle × Dictionary Text ℕ × List (SendPromise ν) :=
  (p.turns,p.handles,p.sends,p.sendPromises)

end OmnigentHttpProvider

/-- The handles that the session's keys lead to are handles of it. -/
structure Owned (s : Text) (p : OmnigentHttpProvider ν) : Prop where
  turns : ∀ id handle, p.turns.get? (sessionKey s id) = some handle → p.handleSession handle = some s
  sends : ∀ id promise, p.sends.get? (sessionKey s id) = some promise → p.promiseSession promise = some s
  outcomes : ∀ promise handle, p.promiseSession promise = some s → p.sendOutcome promise = some (.ok handle) →
    p.handleSession handle = some s

/-- What was done for a session is beside the other ones. -/
structure Beside (s : Text) (p q : OmnigentHttpProvider ν) : Prop where
  owned : Owned s q
  part : ∀ t, Apart s t → q.part t = p.part t
  handles : KeepsOthers MutableTurnHandle.sessionId s p.handles q.handles
  promises : KeepsOthers SendPromise.sessionId s p.sendPromises q.sendPromises

/-- Code for the session. -/
def Isolated (s : Text) (p q : OmnigentHttpProvider ν) : Prop := Owned s p → Beside s p q

section Isolated
variable {p q r : OmnigentHttpProvider ν} {s t : Text}

theorem isolated_refl (p : OmnigentHttpProvider ν) : Isolated s p p :=
  fun h => ⟨h,fun _ _ => rfl,keepsOthers_refl _,keepsOthers_refl _⟩

theorem Isolated.trans (h : Isolated s p q) (h' : Isolated s q r) : Isolated s p r := by
  intro hp
  have hq := h hp
  have hr := h' hq.owned
  exact ⟨hr.owned,fun t ht => (hr.part t ht).trans (hq.part t ht),hq.handles.trans hr.handles,
    hq.promises.trans hr.promises⟩

/-- Isolated code, in sequence. -/
def isolating (s : Text) : Allowance ν where
  allows := Isolated s
  refl := isolated_refl
  trans _ _ _ := Isolated.trans

theorem KeepsOthers.handleSession (h : KeepsOthers MutableTurnHandle.sessionId s p.handles q.handles) {handle : ℕ}
    (ht : p.handleSession handle = some t) : q.handleSession handle = some t := by
  obtain ⟨a,ha,hat⟩ := Option.map_eq_some_iff.mp ht
  obtain ⟨b,hb,hba⟩ := h.kept handle a ha
  rw [OmnigentHttpProvider.handleSession, hb, Option.map_some, hba, hat]

theorem KeepsOthers.promiseSession (h : KeepsOthers SendPromise.sessionId s p.sendPromises q.sendPromises) {promise : ℕ}
    (ht : p.promiseSession promise = some t) : q.promiseSession promise = some t := by
  obtain ⟨a,ha,hat⟩ := Option.map_eq_some_iff.mp ht
  obtain ⟨b,hb,hba⟩ := h.kept promise a ha
  rw [OmnigentHttpProvider.promiseSession, hb, Option.map_some, hba, hat]

/-- Code that changes books but neither handles nor promises. -/
theorem isolated_of_part (htables : q.turnTables = p.turnTables) (h : ∀ t, Apart s t → q.part t = p.part t) :
    Isolated s p q := by
  intro hp
  simp only [OmnigentHttpProvider.turnTables, Prod.mk.injEq] at htables
  obtain ⟨hturns,hhandles,hsends,hpromises⟩ := htables
  refine ⟨⟨?_,?_,?_⟩,h,hhandles ▸ keepsOthers_refl _,hpromises ▸ keepsOthers_refl _⟩
  · simpa only [hturns, OmnigentHttpProvider.handleSession, hhandles] using hp.turns
  · simpa only [hsends, OmnigentHttpProvider.promiseSession, hpromises] using hp.sends
  · simpa only [OmnigentHttpProvider.promiseSession, OmnigentHttpProvider.sendOutcome,
      OmnigentHttpProvider.handleSession, hhandles, hpromises] using hp.outcomes

/-- The turns of another session are as they were. -/
theorem Beside.owned_apart (h : Beside s p q) (ht : Apart s t) (hp : Owned t p) : Owned t q := by
  have hpart := h.part t ht
  have hturns : ∀ id, q.turns.get? (sessionKey t id) = p.turns.get? (sessionKey t id) := by
    intro id
    have hget := congrArg (fun p => p.turns.get? (sessionKey t id)) hpart
    simpa only [OmnigentHttpProvider.part, Dictionary.get?_restrict, hasKeyPrefix_sessionKey, if_true] using hget
  have hsends : ∀ id, q.sends.get? (sessionKey t id) = p.sends.get? (sessionKey t id) := by
    intro id
    have hget := congrArg (fun p => p.sends.get? (sessionKey t id)) hpart
    simpa only [OmnigentHttpProvider.part, Dictionary.get?_restrict, hasKeyPrefix_sessionKey, if_true] using hget
  refine ⟨fun id handle hq => ?_,fun id promise hq => ?_,fun promise handle hq ho => ?_⟩
  · rw [hturns] at hq
    exact h.handles.handleSession (hp.turns id handle hq)
  · rw [hsends] at hq
    exact h.promises.promiseSession (hp.sends id promise hq)
  · obtain ⟨a,ha,hat⟩ := Option.map_eq_some_iff.mp hq
    have hap := (h.promises.others promise a (by rw [hat]; exact ht.ne.symm)).mp ha
    refine h.handles.handleSession (hp.outcomes promise handle ?_ ?_)
    · rw [OmnigentHttpProvider.promiseSession, hap, Option.map_some, hat]
    · simpa only [OmnigentHttpProvider.sendOutcome, ha, hap] using ho

end Isolated
end OmniagentPlus.OmnigentTransport
