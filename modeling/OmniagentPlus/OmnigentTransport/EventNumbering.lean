import OmniagentPlus.Foundation.Emission
import OmniagentPlus.OmnigentTransport.HistoryReplay

/-! The numbers that the provider gives to events: one for each key, never changed, each new one
above all before it. -/
namespace OmniagentPlus.OmnigentTransport
open OmniagentPlus.Foundation OmniagentPlus.CoreContracts

/-- Keys under different numbers below the next one. -/
structure Numbering (sequences : Dictionary Text ℕ) (next : ℕ) : Prop where
  positive : 0 < next
  bounds : ∀ key n, sequences.get? key = some n → 0 < n ∧ n < next
  injective : ∀ key other n, sequences.get? key = some n → sequences.get? other = some n → key = other

theorem Numbering.empty : Numbering .empty 1 where
  positive := Nat.one_pos
  bounds key n h := by cases h
  injective key other n h := by cases h

theorem Numbering.mono {sequences : Dictionary Text ℕ} {next next' : ℕ} (h : Numbering sequences next) (hle : next ≤ next') :
    Numbering sequences next' where
  positive := Nat.lt_of_lt_of_le h.positive hle
  bounds key n hn := ⟨(h.bounds key n hn).1,Nat.lt_of_lt_of_le (h.bounds key n hn).2 hle⟩
  injective := h.injective

theorem Numbering.set {sequences : Dictionary Text ℕ} {next : ℕ} (h : Numbering sequences next) (key : Text) :
    Numbering (sequences.set key next) (next + 1) where
  positive := Nat.succ_pos next
  bounds k n hn := by
    rw [Dictionary.get?_set] at hn
    split_ifs at hn
    · cases hn
      exact ⟨h.positive,Nat.lt_succ_self _⟩
    · exact ⟨(h.bounds k n hn).1,Nat.lt_succ_of_lt (h.bounds k n hn).2⟩
  injective k l n hk hl := by
    rw [Dictionary.get?_set] at hk hl
    split_ifs at hk hl with hk' hl'
    · exact hk'.trans hl'.symm
    · cases hk
      exact absurd (h.bounds l _ hl).2 (Nat.lt_irrefl _)
    · cases hl
      exact absurd (h.bounds k _ hk).2 (Nat.lt_irrefl _)
    · exact h.injective k l n hk hl

section Resequencing
variable {ν : Type}

/-- The event under the number that its key has. -/
def renumber (sequences : Dictionary Text ℕ) (e : RuntimeEventEnvelope ν) : RuntimeEventEnvelope ν :=
  { e with sequence := (sequences.get? (runtimeEventSequenceKey e)).getD 0 }

/-- What numbering a list of events does. -/
structure Resequenced (sequences : Dictionary Text ℕ) (next : ℕ) (es : List (RuntimeEventEnvelope ν))
    (r : List (RuntimeEventEnvelope ν) × Dictionary Text ℕ × ℕ) : Prop where
  numbering : Numbering r.2.1 r.2.2
  events : r.1 = es.map (renumber r.2.1)
  numbered : ∀ e ∈ es, (r.2.1.get? (runtimeEventSequenceKey e)).isSome = true
  kept : ∀ key n, sequences.get? key = some n → r.2.1.get? key = some n
  new : ∀ key n, r.2.1.get? key = some n → sequences.get? key = some n ∨
    (sequences.get? key = none ∧ next ≤ n ∧ ∃ e ∈ es, runtimeEventSequenceKey e = key)
  le : next ≤ r.2.2

lemma resequenceEvent_spec {sequences : Dictionary Text ℕ} {next : ℕ} (h : Numbering sequences next)
    (e : RuntimeEventEnvelope ν) : Resequenced sequences next [e]
      ([(EventReplay.resequenceEvent sequences next e).1],(EventReplay.resequenceEvent sequences next e).2) := by
  unfold EventReplay.resequenceEvent
  cases hkey : sequences.get? (runtimeEventSequenceKey e) with
  | some n =>
    exact {
      numbering := h
      events := by simp [renumber, hkey]
      numbered := by simp [hkey]
      kept := fun _ _ hn => hn
      new := fun _ _ hn => Or.inl hn
      le := Nat.le_refl _ }
  | none =>
    exact {
      numbering := h.set _
      events := by simp [renumber]
      numbered := by simp
      kept := by
        intro key n hn
        dsimp only
        rw [Dictionary.get?_set_of_ne _ _ (by rintro rfl; rw [hkey] at hn; cases hn)]
        exact hn
      new := by
        intro key n hn
        dsimp only at hn
        rw [Dictionary.get?_set] at hn
        split_ifs at hn with hk
        · cases hn
          exact Or.inr ⟨hk ▸ hkey,Nat.le_refl _,e,List.mem_singleton_self e,hk.symm⟩
        · exact Or.inl hn
      le := Nat.le_succ _ }

/-- Renumbering by a table and by one that extends it is the same for events that have numbers. -/
lemma renumber_congr {sequences sequences' : Dictionary Text ℕ} {e : RuntimeEventEnvelope ν}
    (hsome : (sequences.get? (runtimeEventSequenceKey e)).isSome = true)
    (hkept : ∀ key n, sequences.get? key = some n → sequences'.get? key = some n) :
    renumber sequences e = renumber sequences' e := by
  obtain ⟨n,hn⟩ := Option.isSome_iff_exists.mp hsome
  rw [renumber, renumber, hn, hkept _ n hn]

theorem resequenceList_spec {sequences : Dictionary Text ℕ} {next : ℕ} (h : Numbering sequences next)
    (es : List (RuntimeEventEnvelope ν)) :
    Resequenced sequences next es (EventReplay.resequenceList sequences next es) := by
  induction es generalizing sequences next with
  | nil => exact ⟨h,rfl,by simp,fun _ _ hn => hn,fun _ _ hn => Or.inl hn,Nat.le_refl _⟩
  | cons e es ih =>
    have hfirst := resequenceEvent_spec h e
    have hrest := ih hfirst.numbering
    have hevent := hfirst.numbered e (List.mem_singleton_self e)
    exact {
      numbering := hrest.numbering
      events := by
        have hhead : (EventReplay.resequenceEvent sequences next e).1 =
            renumber (EventReplay.resequenceEvent sequences next e).2.1 e := by
          simpa using hfirst.events
        rw [EventReplay.resequenceList, List.map_cons, hrest.events, hhead, renumber_congr hevent hrest.kept]
      numbered := by
        intro x hx
        obtain rfl | hx := List.mem_cons.mp hx
        · obtain ⟨n,hn⟩ := Option.isSome_iff_exists.mp hevent
          rw [EventReplay.resequenceList, hrest.kept _ n hn]
          rfl
        · exact hrest.numbered x hx
      kept := fun key n hn => hrest.kept key n (hfirst.kept key n hn)
      new := by
        intro key n hn
        obtain hold | ⟨hnone,hle,x,hx,hkey⟩ := hrest.new key n hn
        · obtain hold | ⟨hnone,hle,x,hx,hkey⟩ := hfirst.new key n hold
          · exact Or.inl hold
          · exact Or.inr ⟨hnone,hle,x,List.mem_cons.mpr (Or.inl (List.mem_singleton.mp hx)),hkey⟩
        · refine Or.inr ⟨?_,hfirst.le.trans hle,x,List.mem_cons_of_mem e hx,hkey⟩
          cases hsome : sequences.get? key with
          | none => rfl
          | some m =>
            rw [hfirst.kept key m hsome] at hnone
            cases hnone
      le := hfirst.le.trans hrest.le }

/-- Of events that share no new key, one that had no number gets one above those before it. -/
theorem resequenceList_order {sequences : Dictionary Text ℕ} {next : ℕ} (h : Numbering sequences next)
    {es : List (RuntimeEventEnvelope ν)} (hkeys : es.Pairwise fun a b => sequences.get? (runtimeEventSequenceKey b) = none →
      runtimeEventSequenceKey a ≠ runtimeEventSequenceKey b) :
    es.Pairwise fun a b => sequences.get? (runtimeEventSequenceKey b) = none →
      (renumber (EventReplay.resequenceList sequences next es).2.1 a).sequence <
        (renumber (EventReplay.resequenceList sequences next es).2.1 b).sequence := by
  induction es generalizing sequences next with
  | nil => exact List.Pairwise.nil
  | cons e es ih =>
    have hfirst := resequenceEvent_spec h e
    have hrest := resequenceList_spec hfirst.numbering es
    obtain ⟨hhead,htail⟩ := List.pairwise_cons.mp hkeys
    have hunnumbered : ∀ b ∈ es, sequences.get? (runtimeEventSequenceKey b) = none →
        (EventReplay.resequenceEvent sequences next e).2.1.get? (runtimeEventSequenceKey b) = none := by
      intro b hb hnone
      cases hsome : (EventReplay.resequenceEvent sequences next e).2.1.get? (runtimeEventSequenceKey b) with
      | none => rfl
      | some n =>
        obtain hold | ⟨-,-,x,hx,hkey⟩ := hfirst.new _ n hsome
        · rw [hnone] at hold
          cases hold
        · obtain rfl := List.mem_singleton.mp hx
          exact absurd hkey (hhead b hb hnone)
    have hkept : ∀ b : RuntimeEventEnvelope ν,
        (EventReplay.resequenceEvent sequences next e).2.1.get? (runtimeEventSequenceKey b) = none →
          sequences.get? (runtimeEventSequenceKey b) = none := by
      intro b hnone
      cases hsome : sequences.get? (runtimeEventSequenceKey b) with
      | none => rfl
      | some n =>
        rw [hfirst.kept _ n hsome] at hnone
        cases hnone
    refine List.pairwise_cons.mpr ⟨fun b hb hnone => ?_,?_⟩
    · obtain ⟨m,hm⟩ := Option.isSome_iff_exists.mp (hfirst.numbered e (List.mem_singleton_self e))
      obtain ⟨n,hn⟩ := Option.isSome_iff_exists.mp (hrest.numbered b hb)
      have hlow := (hfirst.numbering.bounds _ m hm).2
      have hhigh : (EventReplay.resequenceEvent sequences next e).2.2 ≤ n := by
        obtain hold | ⟨-,hle,-⟩ := hrest.new _ n hn
        · rw [hunnumbered b hb hnone] at hold
          cases hold
        · exact hle
      rw [EventReplay.resequenceList]
      simp only [renumber, hrest.kept _ m hm, hn, Option.getD_some]
      exact Nat.lt_of_lt_of_le hlow hhigh
    · exact (ih hfirst.numbering (htail.imp fun hkey hnone => hkey (hkept _ hnone))).imp_of_mem
        fun _ hb hlt hnone => hlt (hunnumbered _ hb hnone)

end Resequencing

section Calls
variable {ν : Type}

/-- A call of `resequenceRuntimeEvents`. -/
structure ResequenceCall (ν : Type) where
  sessionId : Text
  events : List (RuntimeEventEnvelope ν)
  sequenceFloor : ℕ

/-- The number given for a key, and the session and floor of the call that gave it. -/
structure GivenNumber where
  sessionId : Text
  key : Text
  number : ℕ
  sequenceFloor : ℕ

def givenNumber (sessionId : Text) (sequenceFloor : ℕ) (e : RuntimeEventEnvelope ν) : GivenNumber :=
  ⟨sessionId,runtimeEventSequenceKey e,e.sequence,sequenceFloor⟩

def EventReplay.resequenceCall (s : EventReplay) (c : ResequenceCall ν) : EventReplay × List GivenNumber :=
  let resequenced := s.resequenceRuntimeEvents c.sessionId c.events c.sequenceFloor
  (resequenced.2,resequenced.1.map (givenNumber c.sessionId c.sequenceFloor))

/-- The numbers that a session's events were given by the calls, from the first one on. -/
def givenNumbers (calls : List (ResequenceCall ν)) (sessionId : Text) : List GivenNumber :=
  (emitAll EventReplay.resequenceCall EventReplay.init calls).2.filter (fun g => g.sessionId == sessionId)

/-- A number given for a new key is above the floor and above every number before it. -/
def GivenUpwards (given : List GivenNumber) : Prop :=
  ∀ front g back, given = front ++ g :: back → (∀ b ∈ front, b.key ≠ g.key) →
    g.sequenceFloor < g.number ∧ ∀ b ∈ front, b.number < g.number

lemma GivenUpwards.concat {given : List GivenNumber} (h : GivenUpwards given) {g : GivenNumber}
    (hg : (∀ b ∈ given, b.key ≠ g.key) → g.sequenceFloor < g.number ∧ ∀ b ∈ given, b.number < g.number) :
    GivenUpwards (given ++ [g]) := by
  intro front x back hsplit hnew
  obtain rfl | ⟨back',last,rfl⟩ := List.eq_nil_or_concat' back
  · obtain ⟨rfl,hx⟩ := List.append_inj' hsplit rfl
    cases hx
    exact hg hnew
  · rw [← List.cons_append, ← List.append_assoc] at hsplit
    obtain ⟨hgiven,-⟩ := List.append_inj' hsplit rfl
    exact h front x back' hgiven hnew

/-- The table holds the numbers given, and they were given upwards. -/
structure Tracks (sequences : Dictionary Text ℕ) (next : ℕ) (given : List GivenNumber) : Prop where
  numbering : Numbering sequences next
  agrees : ∀ key n, sequences.get? key = some n ↔ ∃ g ∈ given, g.key = key ∧ g.number = n
  upwards : GivenUpwards given

namespace Tracks
variable {sequences : Dictionary Text ℕ} {next : ℕ} {given : List GivenNumber}

lemma empty : Tracks .empty 1 [] where
  numbering := Numbering.empty
  agrees key n := by simp
  upwards front g back h := by simp at h

lemma mono (h : Tracks sequences next given) {next' : ℕ} (hle : next ≤ next') : Tracks sequences next' given :=
  { h with numbering := h.numbering.mono hle }

lemma resequenceEvent (h : Tracks sequences next given) (sessionId : Text) {sequenceFloor : ℕ}
    (hfloor : sequenceFloor < next) (e : RuntimeEventEnvelope ν) :
    Tracks (EventReplay.resequenceEvent sequences next e).2.1 (EventReplay.resequenceEvent sequences next e).2.2
      (given ++ [givenNumber sessionId sequenceFloor (EventReplay.resequenceEvent sequences next e).1]) := by
  have hspec := resequenceEvent_spec h.numbering e
  obtain ⟨n,hn⟩ := Option.isSome_iff_exists.mp (hspec.numbered e (List.mem_singleton_self e))
  have hevent : givenNumber sessionId sequenceFloor (EventReplay.resequenceEvent sequences next e).1 =
      ⟨sessionId,runtimeEventSequenceKey e,n,sequenceFloor⟩ := by
    rw [List.singleton_inj.mp hspec.events, givenNumber, renumber, hn]
    rfl
  rw [hevent]
  refine ⟨hspec.numbering,fun key m => ⟨fun hm => ?_,?_⟩,h.upwards.concat fun hnew => ?_⟩
  · obtain hold | ⟨-,-,x,hx,hkey⟩ := hspec.new key m hm
    · obtain ⟨g,hg,hgk⟩ := (h.agrees key m).mp hold
      exact ⟨g,List.mem_append_left _ hg,hgk⟩
    · obtain rfl := List.mem_singleton.mp hx
      rw [← hkey, hn] at hm
      exact ⟨_,List.mem_append_right _ (List.mem_singleton_self _),hkey,Option.some.inj hm⟩
  · rintro ⟨g,hg,rfl,rfl⟩
    obtain hg | hg := List.mem_append.mp hg
    · exact hspec.kept _ _ ((h.agrees _ _).mpr ⟨g,hg,rfl,rfl⟩)
    · obtain rfl := List.mem_singleton.mp hg
      exact hn
  · obtain hold | ⟨-,hle,-⟩ := hspec.new _ n hn
    · obtain ⟨g,hg,hkey,-⟩ := (h.agrees _ n).mp hold
      exact absurd hkey (hnew g hg)
    · refine ⟨hfloor.trans_le hle,fun b hb => ?_⟩
      have hbound := h.numbering.bounds b.key b.number ((h.agrees _ _).mpr ⟨b,hb,rfl,rfl⟩)
      exact hbound.2.trans_le hle

lemma resequenceList (h : Tracks sequences next given) (sessionId : Text) {sequenceFloor : ℕ}
    (hfloor : sequenceFloor < next) (es : List (RuntimeEventEnvelope ν)) :
    Tracks (EventReplay.resequenceList sequences next es).2.1 (EventReplay.resequenceList sequences next es).2.2
      (given ++ (EventReplay.resequenceList sequences next es).1.map (givenNumber sessionId sequenceFloor)) := by
  induction es generalizing sequences next given with
  | nil => simpa [EventReplay.resequenceList] using h
  | cons e es ih =>
    have hnext := hfloor.trans_le (resequenceEvent_spec h.numbering e).le
    have hrest := ih (h.resequenceEvent sessionId hfloor e) hnext
    rw [List.append_assoc] at hrest
    exact hrest

end Tracks

/-- The numbers given so far are those that the provider's tables hold. -/
def EventReplay.Tracked (s : EventReplay) (given : List GivenNumber) : Prop :=
  ∀ sessionId, Tracks ((s.eventSequences.get? sessionId).getD .empty) ((s.nextEventSequences.get? sessionId).getD 1)
    (given.filter (fun g => g.sessionId == sessionId))

lemma EventReplay.Tracked.resequenceCall {s : EventReplay} {given : List GivenNumber} (h : s.Tracked given)
    (c : ResequenceCall ν) : (s.resequenceCall c).1.Tracked (given ++ (s.resequenceCall c).2) := by
  intro sessionId
  rw [List.filter_append]
  by_cases hsession : sessionId = c.sessionId
  · subst hsession
    have hstart := (h c.sessionId).mono (le_max_left _ (c.sequenceFloor + 1))
    have hcall := hstart.resequenceList c.sessionId (le_max_right _ (c.sequenceFloor + 1)) c.events
    have hown : (s.resequenceCall c).2.filter (fun g => g.sessionId == c.sessionId) = (s.resequenceCall c).2 := by
      simp [EventReplay.resequenceCall, givenNumber]
    rw [hown]
    simpa [EventReplay.resequenceCall, EventReplay.resequenceRuntimeEvents] using hcall
  · have hother : (s.resequenceCall c).2.filter (fun g => g.sessionId == sessionId) = [] := by
      simp [EventReplay.resequenceCall, givenNumber, Ne.symm hsession]
    rw [hother, List.append_nil]
    simpa [EventReplay.resequenceCall, EventReplay.resequenceRuntimeEvents, Dictionary.get?_set_of_ne _ _ hsession]
      using h sessionId

lemma tracked_calls (calls : List (ResequenceCall ν)) :
    (emitAll EventReplay.resequenceCall EventReplay.init calls).1.Tracked
      (emitAll EventReplay.resequenceCall EventReplay.init calls).2 := by
  have hrun : ∀ given, EventReplay.init.Tracked given →
      (emitAll EventReplay.resequenceCall EventReplay.init calls).1.Tracked
        (given ++ (emitAll EventReplay.resequenceCall EventReplay.init calls).2) :=
    emitAll_of_step (R := fun (s t : EventReplay) out => ∀ given, s.Tracked given → t.Tracked (given ++ out))
      (fun s given h => by rwa [List.append_nil])
      (fun hfirst hsecond given h => by
        rw [← List.append_assoc]
        exact hsecond _ (hfirst given h))
      (fun s c given h => h.resequenceCall c) EventReplay.init calls
  exact hrun [] fun sessionId => Tracks.empty

lemma resequenceList_events (sequences : Dictionary Text ℕ) (next : ℕ) (es : List (RuntimeEventEnvelope ν)) :
    List.Forall₂ (fun e r => r = { e with sequence := r.sequence }) es
      (EventReplay.resequenceList sequences next es).1 := by
  induction es generalizing sequences next with
  | nil => exact List.Forall₂.nil
  | cons e es ih =>
    refine List.Forall₂.cons ?_ (ih _ _)
    unfold EventReplay.resequenceEvent
    split <;> rfl

/-- Every call returns its events with nothing but the numbers changed. In a session two keys have the
same number only if they are the same, and a key keeps its number; a new key's number is above
the floor of the call and above all numbers given before. -/
theorem resequenceRuntimeEvents_stable (calls : List (ResequenceCall ν)) (sessionId : Text) :
    (∀ s : EventReplay, ∀ c ∈ calls, List.Forall₂ (fun e r => r = { e with sequence := r.sequence }) c.events
      (s.resequenceRuntimeEvents c.sessionId c.events c.sequenceFloor).1) ∧
    (∀ g ∈ givenNumbers calls sessionId, ∀ g' ∈ givenNumbers calls sessionId, g.key = g'.key ↔ g.number = g'.number) ∧
    GivenUpwards (givenNumbers calls sessionId) := by
  have htracks := tracked_calls calls sessionId
  refine ⟨fun s c _ => resequenceList_events _ _ _,fun g hg g' hg' => ?_,htracks.upwards⟩
  have hnumber := (htracks.agrees _ _).mpr ⟨g,hg,rfl,rfl⟩
  have hnumber' := (htracks.agrees _ _).mpr ⟨g',hg',rfl,rfl⟩
  constructor
  · intro hkey
    rw [hkey, hnumber'] at hnumber
    exact (Option.some.inj hnumber).symm
  · intro hnum
    rw [← hnum] at hnumber'
    exact htracks.numbering.injective _ _ _ hnumber hnumber'

end Calls
end OmniagentPlus.OmnigentTransport
