import OmniagentPlus.OmnigentTransport.HistoryReplay

/-! The groups that `groupTextEvents` makes of a history's text events: for each turn and message
the texts of the message in order, with their places in the history. -/
namespace OmniagentPlus.OmnigentTransport
open OmniagentPlus.Foundation OmniagentPlus.CoreContracts

section Chunks
variable {ν : Type} (sourceMessageId : Option Text)

/-- The message id of a text event. -/
def eventMessageId (e : RuntimeEventEnvelope ν) : Option Text := sourceMessageId.or (runtimeTextMessageId e.eventId)

/-- The text of an event, where it is one of the message in the turn. -/
def chunk (turnId key : Text) (e : RuntimeEventEnvelope ν) : Option Text :=
  (turnText e).bind fun p =>
    if p.1 = turnId ∧ (eventMessageId sourceMessageId e).getD identityFree = key then some p.2 else none

/-- The texts of a message with their places. -/
def chunkPlaces (turnId key : Text) (events : List (RuntimeEventEnvelope ν × ℕ)) : List (ℕ × Text) :=
  events.filterMap fun p => (chunk sourceMessageId turnId key p.1).map fun delta => (p.2,delta)

/-- The text of a message in a history. -/
def currentText (events : List (RuntimeEventEnvelope ν)) (turnId key : Text) : Text :=
  (events.filterMap (chunk sourceMessageId turnId key)).flatten

variable {sourceMessageId}

theorem chunk_eq_some {turnId key delta : Text} {e : RuntimeEventEnvelope ν} :
    chunk sourceMessageId turnId key e = some delta ↔
      turnText e = some (turnId,delta) ∧ (eventMessageId sourceMessageId e).getD identityFree = key := by
  unfold chunk
  cases h : turnText e with
  | none => simp
  | some p =>
    obtain ⟨t,d⟩ := p
    simp only [Option.bind_some, Option.some.injEq, Prod.mk.injEq]
    constructor
    · intro hif
      split at hif
      · rename_i hboth
        exact ⟨⟨hboth.1,Option.some.inj hif⟩,hboth.2⟩
      · cases hif
    · intro hboth
      rw [if_pos ⟨hboth.1.1,hboth.2⟩, hboth.1.2]

lemma chunkPlaces_cons (turnId key : Text) (p : RuntimeEventEnvelope ν × ℕ) (l : List (RuntimeEventEnvelope ν × ℕ)) :
    chunkPlaces sourceMessageId turnId key (p :: l) =
      ((chunk sourceMessageId turnId key p.1).map fun delta => (p.2,delta)).toList ++
        chunkPlaces sourceMessageId turnId key l := by
  cases h : chunk sourceMessageId turnId key p.1 <;> simp [chunkPlaces, h]

lemma chunkPlaces_append (turnId key : Text) (l r : List (RuntimeEventEnvelope ν × ℕ)) :
    chunkPlaces sourceMessageId turnId key (l ++ r) =
      chunkPlaces sourceMessageId turnId key l ++ chunkPlaces sourceMessageId turnId key r := by
  simp [chunkPlaces, List.filterMap_append]

lemma chunkPlaces_concat (turnId key : Text) (events : List (RuntimeEventEnvelope ν × ℕ)) (p : RuntimeEventEnvelope ν × ℕ) :
    chunkPlaces sourceMessageId turnId key (events ++ [p]) = chunkPlaces sourceMessageId turnId key events ++
      ((chunk sourceMessageId turnId key p.1).map fun delta => (p.2,delta)).toList := by
  rw [chunkPlaces_append, chunkPlaces_cons]
  exact congrArg _ (List.append_nil _)

lemma chunkPlaces_concat_none {turnId key : Text} {p : RuntimeEventEnvelope ν × ℕ}
    (h : chunk sourceMessageId turnId key p.1 = none) (events : List (RuntimeEventEnvelope ν × ℕ)) :
    chunkPlaces sourceMessageId turnId key (events ++ [p]) = chunkPlaces sourceMessageId turnId key events := by
  rw [chunkPlaces_concat, h]
  exact List.append_nil _

theorem currentText_append (l r : List (RuntimeEventEnvelope ν)) (turnId key : Text) :
    currentText sourceMessageId (l ++ r) turnId key =
      currentText sourceMessageId l turnId key ++ currentText sourceMessageId r turnId key := by
  simp [currentText, List.filterMap_append]

theorem currentText_cons (e : RuntimeEventEnvelope ν) (es : List (RuntimeEventEnvelope ν)) (turnId key : Text) :
    currentText sourceMessageId (e :: es) turnId key =
      (chunk sourceMessageId turnId key e).getD [] ++ currentText sourceMessageId es turnId key := by
  cases h : chunk sourceMessageId turnId key e <;> simp [currentText, h]

lemma chunkPlaces_texts (turnId key : Text) (events : List (RuntimeEventEnvelope ν)) (n : ℕ) :
    ((chunkPlaces sourceMessageId turnId key (events.zipIdx n)).map Prod.snd).flatten =
      currentText sourceMessageId events turnId key := by
  induction events generalizing n with
  | nil => rfl
  | cons e es ih =>
    rw [List.zipIdx_cons, chunkPlaces_cons, List.map_append, List.flatten_append, ih, currentText_cons]
    cases h : chunk sourceMessageId turnId key e <;> simp

lemma chunkPlaces_places (turnId key : Text) (events : List (RuntimeEventEnvelope ν × ℕ)) :
    ((chunkPlaces sourceMessageId turnId key events).map Prod.fst).Sublist (events.map Prod.snd) := by
  induction events with
  | nil => exact List.Sublist.refl _
  | cons p l ih =>
    rw [chunkPlaces_cons, List.map_append]
    cases h : chunk sourceMessageId turnId key p.1 with
    | none => exact ih.cons _
    | some delta => exact ih.cons_cons _

lemma mem_chunkPlaces {turnId key : Text} {events : List (RuntimeEventEnvelope ν)} {place : ℕ} {delta : Text} :
    (place,delta) ∈ chunkPlaces sourceMessageId turnId key events.zipIdx ↔
      ∃ e, events[place]? = some e ∧ chunk sourceMessageId turnId key e = some delta := by
  simp only [chunkPlaces, List.mem_filterMap, Option.map_eq_some_iff, Prod.mk.injEq]
  constructor
  · intro h
    obtain ⟨⟨e,n⟩,hmem,d,hchunk,hn,hd⟩ := h
    subst hn hd
    exact ⟨e,List.mk_mem_zipIdx_iff_getElem?.mp hmem,hchunk⟩
  · intro h
    obtain ⟨e,hplace,hchunk⟩ := h
    exact ⟨(e,place),List.mk_mem_zipIdx_iff_getElem?.mpr hplace,delta,hchunk,rfl,rfl⟩

lemma chunkPlaces_ne_nil {turnId key : Text} {events : List (RuntimeEventEnvelope ν)} :
    chunkPlaces sourceMessageId turnId key events.zipIdx ≠ [] ↔
      ∃ e ∈ events, (chunk sourceMessageId turnId key e).isSome = true := by
  constructor
  · intro h
    obtain ⟨⟨place,delta⟩,hmem⟩ := List.exists_mem_of_ne_nil _ h
    obtain ⟨e,hplace,hchunk⟩ := mem_chunkPlaces.mp hmem
    exact ⟨e,List.mem_of_getElem? hplace,by rw [hchunk]; rfl⟩
  · intro h
    obtain ⟨e,hmem,hchunk⟩ := h
    obtain ⟨place,hplace⟩ := List.mem_iff_getElem?.mp hmem
    obtain ⟨delta,hdelta⟩ := Option.isSome_iff_exists.mp hchunk
    exact List.ne_nil_of_mem (mem_chunkPlaces.mpr ⟨e,hplace,hdelta⟩)

lemma chunkPlaces_split (before after : List (RuntimeEventEnvelope ν)) {e : RuntimeEventEnvelope ν}
    {turnId key delta : Text} (h : chunk sourceMessageId turnId key e = some delta) :
    chunkPlaces sourceMessageId turnId key (before ++ e :: after).zipIdx =
      chunkPlaces sourceMessageId turnId key before.zipIdx ++
        (before.length,delta) :: chunkPlaces sourceMessageId turnId key (after.zipIdx (before.length + 1)) := by
  rw [List.zipIdx_append, chunkPlaces_append, List.zipIdx_cons, chunkPlaces_cons, h, Nat.zero_add]
  rfl

end Chunks
section Grouping
variable {ν : Type} {sourceMessageId : Option Text}

def groupAt (groups : Dictionary Text (Dictionary Text RuntimeTextGroup)) (turnId key : Text) : Option RuntimeTextGroup :=
  (groups.get? turnId).bind (·.get? key)

/-- The group of a message holds the message's texts, and has the id of one of its events. -/
structure MessageGroup (sourceMessageId : Option Text) (numbered : List (RuntimeEventEnvelope ν × ℕ)) (turnId key : Text)
    (g : RuntimeTextGroup) : Prop where
  events : g.events = chunkPlaces sourceMessageId turnId key numbered
  text : g.text = ((chunkPlaces sourceMessageId turnId key numbered).map Prod.snd).flatten
  source : ∃ p ∈ numbered, (chunk sourceMessageId turnId key p.1).isSome = true ∧
    g.messageId = eventMessageId sourceMessageId p.1

def GroupedBy (sourceMessageId : Option Text) (events : List (RuntimeEventEnvelope ν × ℕ))
    (groups : Dictionary Text (Dictionary Text RuntimeTextGroup)) : Prop :=
  ∀ turnId key, (groupAt groups turnId key = none → chunkPlaces sourceMessageId turnId key events = []) ∧
    ∀ g, groupAt groups turnId key = some g → MessageGroup sourceMessageId events turnId key g

lemma groupAt_addTextEvent {groups : Dictionary Text (Dictionary Text RuntimeTextGroup)} {p : RuntimeEventEnvelope ν × ℕ}
    {t delta : Text} (h : turnText p.1 = some (t,delta)) (turnId key : Text) :
    groupAt (addTextEvent sourceMessageId groups p) turnId key =
      if t = turnId ∧ (eventMessageId sourceMessageId p.1).getD identityFree = key then
        some { events := ((groupAt groups turnId key).map (·.events)).getD [] ++ [(p.2,delta)]
               messageId := eventMessageId sourceMessageId p.1
               occurredAt := ((groupAt groups turnId key).map (·.occurredAt)).getD p.1.occurredAt
               text := ((groupAt groups turnId key).map (·.text)).getD [] ++ delta }
      else groupAt groups turnId key := by
  have hid : sourceMessageId.or (runtimeTextMessageId p.1.eventId) = eventMessageId sourceMessageId p.1 := rfl
  simp only [groupAt, addTextEvent, h, hid, Dictionary.get?_set, addToGroup]
  by_cases ht : turnId = t
  · subst ht
    rw [if_pos rfl, Option.bind_some, Dictionary.get?_set]
    by_cases hk : key = (eventMessageId sourceMessageId p.1).getD identityFree
    · rw [if_pos hk, if_pos ⟨rfl,hk.symm⟩]
      subst hk
      cases hg : groups.get? turnId <;> rfl
    · rw [if_neg hk, if_neg (fun hboth => hk hboth.2.symm)]
      cases hg : groups.get? turnId <;> rfl
  · rw [if_neg ht, if_neg (fun hboth => ht hboth.1.symm)]

lemma MessageGroup.concat {events : List (RuntimeEventEnvelope ν × ℕ)} {turnId key : Text} {g : RuntimeTextGroup}
    (h : MessageGroup sourceMessageId events turnId key g) {p : RuntimeEventEnvelope ν × ℕ}
    (hnone : chunk sourceMessageId turnId key p.1 = none) : MessageGroup sourceMessageId (events ++ [p]) turnId key g := by
  obtain ⟨q,hq,hsource⟩ := h.source
  refine ⟨?_,?_,q,List.mem_append_left _ hq,hsource⟩
  · rw [chunkPlaces_concat_none hnone, h.events]
  · rw [chunkPlaces_concat_none hnone, h.text]

lemma groupedBy_addTextEvent {events : List (RuntimeEventEnvelope ν × ℕ)}
    {groups : Dictionary Text (Dictionary Text RuntimeTextGroup)} (h : GroupedBy sourceMessageId events groups)
    (p : RuntimeEventEnvelope ν × ℕ) :
    GroupedBy sourceMessageId (events ++ [p]) (addTextEvent sourceMessageId groups p) := by
  intro turnId key
  cases ht : turnText p.1 with
  | none =>
    have hnone : chunk sourceMessageId turnId key p.1 = none := by rw [chunk, ht]; rfl
    rw [addTextEvent, ht, chunkPlaces_concat_none hnone]
    exact ⟨(h turnId key).1,fun g hg => ((h turnId key).2 g hg).concat hnone⟩
  | some q =>
    obtain ⟨t,delta⟩ := q
    rw [groupAt_addTextEvent ht]
    by_cases hhere : t = turnId ∧ (eventMessageId sourceMessageId p.1).getD identityFree = key
    · obtain ⟨rfl,rfl⟩ := hhere
      have hchunk : chunk sourceMessageId t ((eventMessageId sourceMessageId p.1).getD identityFree) p.1 = some delta :=
        chunk_eq_some.mpr ⟨ht,rfl⟩
      rw [if_pos ⟨rfl,rfl⟩]
      refine ⟨fun hnone => (nomatch hnone),fun g hg => ?_⟩
      cases hg
      have hlast : ∃ q ∈ events ++ [p], (chunk sourceMessageId t ((eventMessageId sourceMessageId p.1).getD identityFree)
          q.1).isSome = true ∧ eventMessageId sourceMessageId p.1 = eventMessageId sourceMessageId q.1 :=
        ⟨p,List.mem_append_right _ List.mem_cons_self,by rw [hchunk]; rfl,rfl⟩
      obtain ⟨hnone,hsome⟩ := h t ((eventMessageId sourceMessageId p.1).getD identityFree)
      cases hold : groupAt groups t ((eventMessageId sourceMessageId p.1).getD identityFree) with
      | none =>
        have hplaces := hnone hold
        refine ⟨?_,?_,hlast⟩
        · rw [chunkPlaces_concat, hchunk, hplaces]
          rfl
        · rw [chunkPlaces_concat, hchunk, hplaces]
          exact (List.append_nil delta).symm
      | some old =>
        have hof := hsome old hold
        refine ⟨?_,?_,hlast⟩
        · rw [chunkPlaces_concat, hchunk, ← hof.events]
          rfl
        · rw [chunkPlaces_concat, hchunk, List.map_append, List.flatten_append, ← hof.text]
          exact congrArg _ (List.append_nil delta).symm
    · have hnone : chunk sourceMessageId turnId key p.1 = none := by
        cases hp : chunk sourceMessageId turnId key p.1 with
        | none => rfl
        | some d =>
          obtain ⟨htext,hkey⟩ := chunk_eq_some.mp hp
          rw [ht] at htext
          cases htext
          exact absurd ⟨rfl,hkey⟩ hhere
      rw [if_neg hhere, chunkPlaces_concat_none hnone]
      exact ⟨(h turnId key).1,fun g hg => ((h turnId key).2 g hg).concat hnone⟩

theorem groupedBy_groupTextEvents (events : List (RuntimeEventEnvelope ν)) (sourceMessageId : Option Text) :
    GroupedBy sourceMessageId events.zipIdx (groupTextEvents events sourceMessageId) := by
  have hfold : ∀ (l done : List (RuntimeEventEnvelope ν × ℕ)) (groups : Dictionary Text (Dictionary Text RuntimeTextGroup)),
      GroupedBy sourceMessageId done groups →
        GroupedBy sourceMessageId (done ++ l) (l.foldl (addTextEvent sourceMessageId) groups) := by
    intro l
    induction l with
    | nil => simp
    | cons p l ih =>
      intro done groups h
      have hnext := ih (done ++ [p]) _ (groupedBy_addTextEvent h p)
      rwa [List.append_assoc] at hnext
  refine hfold events.zipIdx [] .empty fun turnId key => ⟨fun _ => rfl,fun g hg => ?_⟩
  cases hg

end Grouping
section Members
variable {ν : Type} {sourceMessageId : Option Text} {events : List (RuntimeEventEnvelope ν)} {turnId key : Text}
  {g : RuntimeTextGroup}

/-- The turns with text in a history. -/
def turnsOf (events : List (RuntimeEventEnvelope ν)) : List Text := (events.filterMap turnText).map Prod.fst

lemma mem_turnsOf : turnId ∈ turnsOf events ↔ ∃ e ∈ events, ∃ delta, turnText e = some (turnId,delta) := by
  simp only [turnsOf, List.mem_map, List.mem_filterMap]
  constructor
  · rintro ⟨⟨_,delta⟩,⟨e,he,htext⟩,rfl⟩
    exact ⟨e,he,delta,htext⟩
  · rintro ⟨e,he,delta,htext⟩
    exact ⟨(turnId,delta),⟨e,he,htext⟩,rfl⟩

/-- Only a turn with text has groups. -/
lemma turn_of_groups {groups : Dictionary Text RuntimeTextGroup}
    (h : (groupTextEvents events sourceMessageId).get? turnId = some groups) : turnId ∈ turnsOf events := by
  have hfold : ∀ (l : List (RuntimeEventEnvelope ν × ℕ)) (all : Dictionary Text (Dictionary Text RuntimeTextGroup)),
      ((l.foldl (addTextEvent sourceMessageId) all).get? turnId).isSome = true →
        (all.get? turnId).isSome = true ∨ ∃ p ∈ l, ∃ delta, turnText p.1 = some (turnId,delta) := by
    intro l
    induction l with
    | nil => exact fun _ hsome => Or.inl hsome
    | cons p l ih =>
      intro all hsome
      obtain hall | ⟨q,hq,hturn⟩ := ih _ hsome
      · unfold addTextEvent at hall
        cases ht : turnText p.1 with
        | none =>
          rw [ht] at hall
          exact Or.inl hall
        | some q =>
          rw [ht] at hall
          dsimp only at hall
          rw [Dictionary.get?_set] at hall
          split_ifs at hall with hkey
          · exact Or.inr ⟨p,List.mem_cons_self,q.2,by rw [ht, hkey]⟩
          · exact Or.inl hall
      · exact Or.inr ⟨q,List.mem_cons_of_mem p hq,hturn⟩
  obtain hnone | ⟨p,hp,hturn⟩ := hfold events.zipIdx .empty (by rw [← groupTextEvents, h]; rfl)
  · cases hnone
  · exact mem_turnsOf.mpr ⟨p.1,List.fst_mem_of_mem_zipIdx hp,hturn⟩

/-- A group is one of a message that occurs. -/
lemma MessageGroup.occurs (h : MessageGroup sourceMessageId events.zipIdx turnId key g) :
    ∃ e ∈ events, (chunk sourceMessageId turnId key e).isSome = true ∧ g.messageId = eventMessageId sourceMessageId e := by
  obtain ⟨p,hp,hsource⟩ := h.source
  exact ⟨p.1,List.fst_mem_of_mem_zipIdx hp,hsource⟩

lemma MessageGroup.named (h : MessageGroup sourceMessageId events.zipIdx turnId key g) : g.messageId.getD identityFree = key := by
  obtain ⟨e,-,hchunk,hid⟩ := h.occurs
  obtain ⟨delta,hdelta⟩ := Option.isSome_iff_exists.mp hchunk
  rw [hid]
  exact (chunk_eq_some.mp hdelta).2

/-- A message that occurs has a group. -/
lemma exists_group (h : ∃ e ∈ events, (chunk sourceMessageId turnId key e).isSome = true) :
    ∃ g, groupAt (groupTextEvents events sourceMessageId) turnId key = some g := by
  have hplaces := chunkPlaces_ne_nil.mpr h
  cases hat : groupAt (groupTextEvents events sourceMessageId) turnId key with
  | none => exact absurd ((groupedBy_groupTextEvents events sourceMessageId turnId key).1 hat) hplaces
  | some g => exact ⟨g,rfl⟩

end Members
end OmniagentPlus.OmnigentTransport
