import OmniagentPlus.OmnigentTransport.Deliveries

/-! What `trimDeliveredHistoryText` leaves of each message, however the delivered and the current text
are cut into pieces, where the delivered messages are all there under their ids. -/
namespace OmniagentPlus.OmnigentTransport
open OmniagentPlus.Foundation OmniagentPlus.CoreContracts

section Matching

theorem sameMessageId_iff {c : RuntimeTextGroup} {d : DeliveredTextGroup} :
    sameMessageId c d = true ↔ ∃ messageId, c.messageId = some messageId ∧ d.messageId = some messageId := by
  rw [sameMessageId, Bool.and_eq_true, beq_iff_eq, Option.isSome_iff_exists]
  constructor
  · rintro ⟨⟨messageId,hc⟩,hsame⟩
    exact ⟨messageId,hc,hsame ▸ hc⟩
  · rintro ⟨messageId,hc,hd⟩
    exact ⟨⟨messageId,hc⟩,hc.trans hd.symm⟩

/-- Where each delivered group has a current one under its id, groups are matched by their ids. -/
lemma mem_matchDeliveredTextGroups_of_known {cs : List RuntimeTextGroup} {ds : List DeliveredTextGroup}
    (hcs : cs.Pairwise fun c c' => c.messageId.getD identityFree ≠ c'.messageId.getD identityFree)
    (hds : ds.Pairwise fun d d' : DeliveredTextGroup => d.messageId ≠ d'.messageId)
    (hknown : ∀ d ∈ ds, ∃ c ∈ cs, sameMessageId c d = true) (c : RuntimeTextGroup) (d : DeliveredTextGroup) :
    (c,d) ∈ matchDeliveredTextGroups cs ds ↔ c ∈ cs ∧ d ∈ ds ∧ sameMessageId c d = true := by
  have hpairing : Pairing sameMessageId cs ds ((TextMatching.mk [] cs ds).round sameMessageId) := by
    refine matchGroups_pairing ?_ ?_
    · refine hcs.imp fun hne d hd hmatch => Bool.eq_false_iff.mpr fun hmatch' => hne ?_
      obtain ⟨messageId,hc,hd⟩ := sameMessageId_iff.mp hmatch
      obtain ⟨other,hc',hd'⟩ := sameMessageId_iff.mp hmatch'
      rw [hc, hc', hd.symm.trans hd']
    · refine hds.imp fun hne c hc hmatch => Bool.eq_false_iff.mpr fun hmatch' => hne ?_
      obtain ⟨messageId,hc,hd⟩ := sameMessageId_iff.mp hmatch
      obtain ⟨other,hc',hd'⟩ := sameMessageId_iff.mp hmatch'
      rw [hd, hd', hc.symm.trans hc']
  rw [matchDeliveredTextGroups]
  generalize (TextMatching.mk [] cs ds).round sameMessageId = m at hpairing ⊢
  have hnone : ∀ d, d ∉ m.remainingDelivered := by
    intro d hd
    obtain ⟨hmem,hfalse⟩ := hpairing.delivered d hd
    obtain ⟨c,hc,hmatch⟩ := hknown d hmem
    rw [hfalse c hc] at hmatch
    cases hmatch
  have hround : ∀ p, m.round p = m := fun p => round_of_false fun c _ d hd => absurd hd (hnone d)
  rw [hround, hround, hround]
  exact hpairing.matched c d

end Matching
section Cutting

/-- Of the texts of a message that was delivered whole nothing is left. -/
lemma cutGroup_covered (remaining : Text) (l : List (ℕ × Text)) (d : Dictionary ℕ Text) {place : ℕ}
    (hfront : (l.map Prod.snd).flatten <+: remaining) (hplaces : (l.map Prod.fst).Nodup)
    (hmem : place ∈ l.map Prod.fst) : (cutGroup remaining l d).get? place = some [] := by
  induction l generalizing remaining d with
  | nil => cases hmem
  | cons p l ih =>
    obtain ⟨q,delta⟩ := p
    rw [List.map_cons, List.flatten_cons] at hfront
    obtain ⟨hnot,hnodup⟩ := List.nodup_cons.mp hplaces
    obtain ⟨rest,hrest⟩ := hfront
    have hdelta : delta.isPrefixOf remaining = true :=
      List.isPrefixOf_iff_prefix.mpr ⟨_,(List.append_assoc _ _ _).symm.trans hrest⟩
    rw [cutGroup, if_pos hdelta]
    obtain rfl | hmem := List.mem_cons.mp hmem
    · rw [cutGroup_other _ _ _ hnot, Dictionary.get?_set_self]
    · refine ih _ _ ⟨rest,?_⟩ hnodup hmem
      rw [← hrest, List.append_assoc, List.drop_left]

end Cutting
section Histories
variable {ν : Type} {s : EventReplay} {sessionId : Text} {cursor : ℕ} {events : List (RuntimeEventEnvelope ν)}
  {sourceMessageId : Option Text}

namespace EventReplay

/-- The groups of a turn up to the cursor have ids, and are in the history under these. -/
structure KnownTurn (s : EventReplay) (sessionId : Text) (cursor : ℕ) (events : List (RuntimeEventEnvelope ν))
    (sourceMessageId : Option Text) (turnId : Text) : Prop where
  named : ∀ key d, (s.deliveredGroups (turnKey sessionId turnId) cursor).get? key = some d → d.messageId = some key
  occurs : ∀ key d, (s.deliveredGroups (turnKey sessionId turnId) cursor).get? key = some d →
    ∃ e ∈ events, (chunk sourceMessageId turnId key e).isSome = true
  current : ∀ key d, (s.deliveredGroups (turnKey sessionId turnId) cursor).get? key = some d →
    ∀ e ∈ events, (chunk sourceMessageId turnId key e).isSome = true → eventMessageId sourceMessageId e = some key

def Known (s : EventReplay) (sessionId : Text) (cursor : ℕ) (events : List (RuntimeEventEnvelope ν))
    (sourceMessageId : Option Text) : Prop :=
  ∀ turnId ∈ turnsOf events, s.KnownTurn sessionId cursor events sourceMessageId turnId

/-- What each matched message takes off its text events. -/
def textJobs (s : EventReplay) (sessionId : Text) (events : List (RuntimeEventEnvelope ν)) (cursor : ℕ)
    (sourceMessageId : Option Text) : List (Text × List (ℕ × Text)) :=
  (groupTextEvents events sourceMessageId).entries.flatMap fun turn =>
    (matchDeliveredTextGroups turn.2.values (s.deliveredTextForCursor (turnKey sessionId turn.1) cursor)).map
      fun pair => (pair.2.text,pair.1.events)

lemma remainingByEvent_eq_foldl (s : EventReplay) (sessionId : Text) (events : List (RuntimeEventEnvelope ν)) (cursor : ℕ)
    (sourceMessageId : Option Text) : s.remainingByEvent sessionId events cursor sourceMessageId =
      (s.textJobs sessionId events cursor sourceMessageId).foldl (fun d job => cutGroup job.1 job.2 d) .empty := by
  simp only [remainingByEvent, textJobs, List.foldl_flatMap, List.foldl_map]

/-- In a turn each message is matched with what was delivered of it. -/
lemma KnownTurn.mem_pairs {turnId : Text} (h : s.KnownTurn sessionId cursor events sourceMessageId turnId)
    {groups : Dictionary Text RuntimeTextGroup} (hgroups : (groupTextEvents events sourceMessageId).get? turnId = some groups)
    (c : RuntimeTextGroup) (d : DeliveredTextGroup) :
    (c,d) ∈ matchDeliveredTextGroups groups.values (s.deliveredTextForCursor (turnKey sessionId turnId) cursor) ↔
      ∃ key, groups.get? key = some c ∧ (s.deliveredGroups (turnKey sessionId turnId) cursor).get? key = some d := by
  have hof : ∀ {key g}, groups.get? key = some g → MessageGroup sourceMessageId events.zipIdx turnId key g := by
    intro key g hg
    apply (groupedBy_groupTextEvents events sourceMessageId turnId key).2
    rw [groupAt, hgroups, Option.bind_some, hg]
  have hcurrent : ∀ {key d}, (s.deliveredGroups (turnKey sessionId turnId) cursor).get? key = some d →
      ∃ g, groups.get? key = some g ∧ g.messageId = some key := by
    intro key d hd
    obtain ⟨g,hg⟩ := exists_group (h.occurs key d hd)
    rw [groupAt, hgroups, Option.bind_some] at hg
    obtain ⟨e,he,hchunk,hid⟩ := (hof hg).occurs
    exact ⟨g,hg,hid.trans (h.current key d hd e he hchunk)⟩
  rw [mem_matchDeliveredTextGroups_of_known, Dictionary.mem_values_iff, deliveredTextForCursor, Dictionary.mem_values_iff]
  · constructor
    · rintro ⟨⟨key,hc⟩,⟨other,hd⟩,hsame⟩
      obtain ⟨messageId,hcid,hdid⟩ := sameMessageId_iff.mp hsame
      have hkey := (hof hc).named
      rw [hcid, Option.getD_some] at hkey
      rw [h.named other d hd] at hdid
      rw [← hkey, ← Option.some.inj hdid] at hc
      exact ⟨other,hc,hd⟩
    · rintro ⟨key,hc,hd⟩
      obtain ⟨g,hg,hid⟩ := hcurrent hd
      rw [hc] at hg
      cases hg
      exact ⟨⟨key,hc⟩,⟨key,hd⟩,sameMessageId_iff.mpr ⟨key,hid,h.named key d hd⟩⟩
  · apply Dictionary.pairwise_values
    intro k v l w hv hw hne
    rw [(hof hv).named, (hof hw).named]
    exact hne
  · apply Dictionary.pairwise_values
    intro k v l w hv hw hne heq
    rw [h.named k v hv, h.named l w hw] at heq
    exact hne (Option.some.inj heq)
  · intro d hd
    obtain ⟨key,hd⟩ := (Dictionary.mem_values_iff _ _).mp hd
    obtain ⟨g,hg,hid⟩ := hcurrent hd
    exact ⟨g,(Dictionary.mem_values_iff _ _).mpr ⟨key,hg⟩,sameMessageId_iff.mpr ⟨key,hid,h.named key d hd⟩⟩

lemma mem_textJobs (h : s.Known sessionId cursor events sourceMessageId) {job : Text × List (ℕ × Text)} :
    job ∈ s.textJobs sessionId events cursor sourceMessageId ↔ ∃ turnId ∈ turnsOf events, ∃ key text,
      s.deliveredTo sessionId (some cursor) turnId key = some text ∧
        job = (text,chunkPlaces sourceMessageId turnId key events.zipIdx) := by
  simp only [textJobs, List.mem_flatMap, List.mem_map]
  constructor
  · rintro ⟨⟨turnId,groups⟩,hturn,⟨c,d⟩,hpair,rfl⟩
    have hgroups := (Dictionary.mem_entries_iff _ _ _).mp hturn
    have hturn := turn_of_groups hgroups
    obtain ⟨key,hc,hd⟩ := ((h turnId hturn).mem_pairs hgroups c d).mp hpair
    have hat : groupAt (groupTextEvents events sourceMessageId) turnId key = some c := by
      rw [groupAt, hgroups, Option.bind_some, hc]
    refine ⟨turnId,hturn,key,d.text,?_,?_⟩
    · rw [deliveredTo, Option.bind_some, hd]
      rfl
    · rw [((groupedBy_groupTextEvents events sourceMessageId turnId key).2 c hat).events]
  · rintro ⟨turnId,hturn,key,text,hdelivered,rfl⟩
    obtain ⟨d,hd,rfl⟩ := Option.map_eq_some_iff.mp hdelivered
    obtain ⟨c,hat⟩ := exists_group ((h turnId hturn).occurs key d hd)
    have hof := (groupedBy_groupTextEvents events sourceMessageId turnId key).2 c hat
    obtain ⟨groups,hgroups,hc⟩ := Option.bind_eq_some_iff.mp hat
    exact ⟨(turnId,groups),(Dictionary.mem_entries_iff _ _ _).mpr hgroups,(c,d),
      ((h turnId hturn).mem_pairs hgroups c d).mpr ⟨key,hc,hd⟩,by rw [hof.events]⟩

/-- Of the messages that hold a place there is one job, if one was delivered. -/
lemma textJobs_at (h : s.Known sessionId cursor events sourceMessageId) {place : ℕ} {e : RuntimeEventEnvelope ν}
    (hplace : events[place]? = some e) {turnId delta : Text} (htext : turnText e = some (turnId,delta))
    {job : Text × List (ℕ × Text)} (hjob : job ∈ s.textJobs sessionId events cursor sourceMessageId)
    (hin : place ∈ job.2.map Prod.fst) :
    ∃ text, s.deliveredTo sessionId (some cursor) turnId ((eventMessageId sourceMessageId e).getD identityFree) = some text ∧
      job = (text,chunkPlaces sourceMessageId turnId ((eventMessageId sourceMessageId e).getD identityFree)
        events.zipIdx) := by
  obtain ⟨t,-,key,text,hdelivered,rfl⟩ := (mem_textJobs h).mp hjob
  obtain ⟨⟨q,d⟩,hmem,rfl⟩ := List.mem_map.mp hin
  obtain ⟨e',hget,hchunk⟩ := mem_chunkPlaces.mp hmem
  rw [hplace] at hget
  cases hget
  obtain ⟨htext',hkey⟩ := chunk_eq_some.mp hchunk
  rw [htext] at htext'
  cases htext'
  subst hkey
  exact ⟨text,hdelivered,rfl⟩

/-- Nothing is taken off a message that was not delivered. -/
lemma remainingByEvent_undelivered (h : s.Known sessionId cursor events sourceMessageId) {place : ℕ}
    {e : RuntimeEventEnvelope ν} (hplace : events[place]? = some e) {turnId delta : Text}
    (htext : turnText e = some (turnId,delta))
    (hnone : s.deliveredTo sessionId (some cursor) turnId ((eventMessageId sourceMessageId e).getD identityFree) = none) :
    (s.remainingByEvent sessionId events cursor sourceMessageId).get? place = none := by
  rw [remainingByEvent_eq_foldl, foldl_cutGroup_other]
  · rfl
  · intro job hjob hin
    obtain ⟨text,hsome,-⟩ := textJobs_at h hplace htext hjob hin
    rw [hnone] at hsome
    cases hsome

/-- What is left of an event of a delivered message is what cutting its group leaves. -/
lemma remainingByEvent_delivered (h : s.Known sessionId cursor events sourceMessageId) {place : ℕ}
    {e : RuntimeEventEnvelope ν} (hplace : events[place]? = some e) {turnId delta text rest : Text}
    (htext : turnText e = some (turnId,delta))
    (hsome : s.deliveredTo sessionId (some cursor) turnId ((eventMessageId sourceMessageId e).getD identityFree) = some text)
    (hcut : ∀ d, (cutGroup text (chunkPlaces sourceMessageId turnId
      ((eventMessageId sourceMessageId e).getD identityFree) events.zipIdx) d).get? place = some rest) :
    (s.remainingByEvent sessionId events cursor sourceMessageId).get? place = some rest := by
  rw [remainingByEvent_eq_foldl]
  apply foldl_cutGroup
  · intro job hjob hin d
    obtain ⟨text',hsome',rfl⟩ := textJobs_at h hplace htext hjob hin
    rw [hsome] at hsome'
    cases hsome'
    exact hcut d
  · have hturn := mem_turnsOf.mpr ⟨e,List.mem_of_getElem? hplace,delta,htext⟩
    refine Or.inr ⟨_,(mem_textJobs h).mpr ⟨turnId,hturn,_,text,hsome,rfl⟩,?_⟩
    exact List.mem_map.mpr ⟨(place,delta),mem_chunkPlaces.mpr ⟨e,hplace,chunk_eq_some.mpr ⟨htext,rfl⟩⟩,rfl⟩

lemma nodup_chunkPlaces (turnId key : Text) (events : List (RuntimeEventEnvelope ν)) (sourceMessageId : Option Text) :
    ((chunkPlaces sourceMessageId turnId key events.zipIdx).map Prod.fst).Nodup := by
  refine (chunkPlaces_places turnId key _).nodup ?_
  rw [List.zipIdx_map_snd]
  exact List.nodup_range'

/-- Of a message that goes on after the delivered text what stands behind that text is left. -/
theorem remainingByEvent_front {before after : List (RuntimeEventEnvelope ν)} {e : RuntimeEventEnvelope ν}
    (h : s.Known sessionId cursor (before ++ e :: after) sourceMessageId) {turnId key delta text : Text}
    (hchunk : chunk sourceMessageId turnId key e = some delta)
    (hsome : s.deliveredTo sessionId (some cursor) turnId key = some text)
    (hfront : text <+: currentText sourceMessageId (before ++ e :: after) turnId key) :
    (s.remainingByEvent sessionId (before ++ e :: after) cursor sourceMessageId).get? before.length =
      some (delta.drop (text.length - (currentText sourceMessageId before turnId key).length)) := by
  obtain ⟨htext,rfl⟩ := chunk_eq_some.mp hchunk
  have hplace : (before ++ e :: after)[before.length]? = some e := by simp
  refine remainingByEvent_delivered h hplace htext hsome fun d => ?_
  have hsplit := chunkPlaces_split before after hchunk
  rw [← chunkPlaces_texts turnId _ before 0, hsplit]
  apply cutGroup_here
  · rw [← hsplit, chunkPlaces_texts]
    exact hfront
  · rw [← hsplit]
    exact nodup_chunkPlaces turnId _ _ _

/-- Of a message within the delivered text nothing is left. -/
theorem remainingByEvent_covered (h : s.Known sessionId cursor events sourceMessageId) {place : ℕ}
    {e : RuntimeEventEnvelope ν} (hplace : events[place]? = some e) {turnId key delta text : Text}
    (hchunk : chunk sourceMessageId turnId key e = some delta)
    (hsome : s.deliveredTo sessionId (some cursor) turnId key = some text)
    (hcovered : currentText sourceMessageId events turnId key <+: text) :
    (s.remainingByEvent sessionId events cursor sourceMessageId).get? place = some [] := by
  obtain ⟨htext,rfl⟩ := chunk_eq_some.mp hchunk
  refine remainingByEvent_delivered h hplace htext hsome fun d => ?_
  apply cutGroup_covered
  · rwa [chunkPlaces_texts]
  · exact nodup_chunkPlaces turnId _ _ _
  · exact List.mem_map.mpr ⟨(place,delta),mem_chunkPlaces.mpr ⟨e,hplace,hchunk⟩,rfl⟩

end EventReplay

/-- What trimming may return for an event: the event, the rest of its text, or nothing. -/
inductive Returned (e : RuntimeEventEnvelope ν) : List (RuntimeEventEnvelope ν) → Prop
  | whole : Returned e [e]
  | dropped {p : Text × Text} (h : turnText e = some p) : Returned e []
  | rest {p : Text × Text} {rest : Text} (h : turnText e = some p) (hne : rest ≠ []) :
      Returned e [EventReplay.continuation e p.2.length rest]

/-- What is returned for the events of a message. -/
def survivors (sourceMessageId : Option Text) (events : List (RuntimeEventEnvelope ν))
    (outs : List (List (RuntimeEventEnvelope ν))) (turnId key : Text) : List (RuntimeEventEnvelope ν) :=
  ((events.zip outs).filter fun p => (chunk sourceMessageId turnId key p.1).isSome).flatMap (·.2)

/-- The texts of events, one after another. -/
def deltasOf (events : List (RuntimeEventEnvelope ν)) : Text := (events.filterMap turnText).flatMap (·.2)

/-- What is returned for an event at its place. -/
def returned (remaining : Dictionary ℕ Text) (p : RuntimeEventEnvelope ν × ℕ) : List (RuntimeEventEnvelope ν) :=
  match turnText p.1 with
  | none => [p.1]
  | some (_,delta) =>
    match remaining.get? p.2 with
    | none => [p.1]
    | some rest => if rest.isEmpty then [] else [EventReplay.continuation p.1 delta.length rest]

lemma trimDeliveredHistoryText_eq_flatMap (s : EventReplay) (sessionId : Text) (events : List (RuntimeEventEnvelope ν))
    (cursor : ℕ) (sourceMessageId : Option Text) :
    s.trimDeliveredHistoryText sessionId events cursor sourceMessageId =
      events.zipIdx.flatMap (returned (s.remainingByEvent sessionId events cursor sourceMessageId)) := rfl

variable {remaining : Dictionary ℕ Text}

lemma returned_returned (p : RuntimeEventEnvelope ν × ℕ) : Returned p.1 (returned remaining p) := by
  unfold returned
  cases h : turnText p.1 with
  | none => exact .whole
  | some q =>
    cases hrest : remaining.get? p.2 with
    | none => exact .whole
    | some rest =>
      dsimp only
      split_ifs with hempty
      · exact .dropped h
      · exact .rest h (by simpa using hempty)

lemma forall₂_returned (es : List (RuntimeEventEnvelope ν)) (n : ℕ) :
    List.Forall₂ Returned es ((es.zipIdx n).map (returned remaining)) := by
  induction es generalizing n with
  | nil => exact .nil
  | cons e es ih => exact .cons (returned_returned (e,n)) (ih (n + 1))

lemma mem_zip_returned {e : RuntimeEventEnvelope ν} {out es : List (RuntimeEventEnvelope ν)} {n : ℕ}
    (h : (e,out) ∈ es.zip ((es.zipIdx n).map (returned remaining))) :
    ∃ i, es[i]? = some e ∧ out = returned remaining (e,n + i) := by
  induction es generalizing n with
  | nil => cases h
  | cons e' es ih =>
    rw [List.zipIdx_cons, List.map_cons, List.zip_cons_cons, List.mem_cons] at h
    obtain h | h := h
    · cases h
      exact ⟨0,rfl,rfl⟩
    · obtain ⟨i,hi,rfl⟩ := ih h
      refine ⟨i + 1,hi,?_⟩
      rw [Nat.add_assoc, Nat.add_comm 1 i]

/-- The text of what is returned for an event of which `rest` is left. -/
lemma deltasOf_returned {p : RuntimeEventEnvelope ν × ℕ} {turnId delta rest : Text} (h : turnText p.1 = some (turnId,delta))
    (hrest : remaining.get? p.2 = some rest) : deltasOf (returned remaining p) = rest := by
  unfold returned
  rw [h]
  dsimp only
  rw [hrest]
  dsimp only
  split_ifs with hempty
  · exact (List.isEmpty_iff.mp hempty).symm
  · have hturn : Text.truthy p.1.turnId = some turnId := by
      unfold turnText at h
      split at h
      · rename_i hturn
        cases h
        exact hturn
      · cases h
    have hcontinued : turnText (EventReplay.continuation p.1 delta.length rest) = some (turnId,rest) := by
      simp [turnText, EventReplay.continuation, hturn]
    simp [deltasOf, hcontinued]

lemma deltasOf_append (l r : List (RuntimeEventEnvelope ν)) : deltasOf (l ++ r) = deltasOf l ++ deltasOf r := by
  simp [deltasOf, List.filterMap_append]

/-- The survivors of a message, event by event. -/
lemma survivors_zipIdx (turnId key : Text) (es : List (RuntimeEventEnvelope ν)) (n : ℕ) :
    survivors sourceMessageId es ((es.zipIdx n).map (returned remaining)) turnId key =
      (es.zipIdx n).flatMap fun p => if (chunk sourceMessageId turnId key p.1).isSome then returned remaining p else [] := by
  induction es generalizing n with
  | nil => rfl
  | cons e es ih =>
    have hrest := ih (n + 1)
    unfold survivors at hrest ⊢
    rw [List.zipIdx_cons, List.map_cons, List.zip_cons_cons, List.filter_cons, List.flatMap_cons, ← hrest]
    split_ifs <;> simp

/-- Behind the events before, what survives of a message is its text without what is left of the delivered one. -/
lemma deltasOf_survivors {turnId key text : Text}
    (hleft : ∀ before e after delta, events = before ++ e :: after → chunk sourceMessageId turnId key e = some delta →
      remaining.get? before.length = some (delta.drop (text.length - (currentText sourceMessageId before turnId key).length)))
    (before after : List (RuntimeEventEnvelope ν)) (heq : events = before ++ after) :
    deltasOf ((after.zipIdx before.length).flatMap fun p =>
        if (chunk sourceMessageId turnId key p.1).isSome then returned remaining p else []) =
      (currentText sourceMessageId after turnId key).drop
        (text.length - (currentText sourceMessageId before turnId key).length) := by
  induction after generalizing before with
  | nil => exact (List.drop_nil).symm
  | cons e after ih =>
    have hnext := ih (before ++ [e]) (by rw [heq, List.append_assoc]; rfl)
    rw [List.length_append, List.length_singleton] at hnext
    rw [List.zipIdx_cons, List.flatMap_cons, deltasOf_append, hnext, currentText_append, currentText_cons e [],
      currentText_cons e after]
    cases hchunk : chunk sourceMessageId turnId key e with
    | none => simp [deltasOf, currentText]
    | some delta =>
      have hrest := hleft before e after delta heq hchunk
      obtain ⟨htext,-⟩ := chunk_eq_some.mp hchunk
      rw [Option.isSome_some, if_pos rfl, deltasOf_returned htext hrest, Option.getD_some, List.drop_append]
      congr 2
      simp only [List.length_append, currentText, List.filterMap_nil, List.flatten_nil, List.append_nil]
      omega

section Handed
variable {ds : List Delivery} {turnId : Text}

/-- Every message of the session that was handed out up to the cursor has an id, and is in the history under that id. -/
def SameIds (ds : List Delivery) (sessionId : Text) (cursor : ℕ) (events : List (RuntimeEventEnvelope ν))
    (sourceMessageId : Option Text) : Prop :=
  ∀ d ∈ firstDeliveries ds, d.sessionId = sessionId → d.sequence ≤ cursor → d.messageId.isSome = true ∧
    ∃ e ∈ events, (turnText e).map Prod.fst = some d.turnId ∧ eventMessageId sourceMessageId e = d.messageId

instance decidableSameIds (ds : List Delivery) (sessionId : Text) (cursor : ℕ) (events : List (RuntimeEventEnvelope ν))
    (sourceMessageId : Option Text) : Decidable (SameIds ds sessionId cursor events sourceMessageId) :=
  inferInstanceAs (Decidable (∀ d ∈ firstDeliveries ds, _))

/-- No other session's turn is spelled as a turn of the history, and the placeholder for texts without an
id is not the id of a message. -/
structure TextsApart (ds : List Delivery) (sessionId : Text) (events : List (RuntimeEventEnvelope ν))
    (sourceMessageId : Option Text) : Prop where
  spelled : ∀ turnId ∈ turnsOf events, SpelledApart ds sessionId turnId
  identified : ∀ d ∈ firstDeliveries ds, d.sessionId = sessionId → d.messageId = some identityFree →
    ∀ e ∈ events, (turnText e).map Prod.fst = some d.turnId → (eventMessageId sourceMessageId e).isSome = true

lemma knownTurn (hbook : s.Books ds sessionId turnId)
    (hids : ∀ d ∈ firstDeliveries ds, d.inTurn sessionId turnId = true → d.sequence ≤ cursor → d.messageId.isSome = true ∧
      ∃ e ∈ events, (turnText e).map Prod.fst = some turnId ∧ eventMessageId sourceMessageId e = d.messageId)
    (hidentified : ∀ d ∈ firstDeliveries ds, d.inTurn sessionId turnId = true → d.messageId = some identityFree →
      ∀ e ∈ events, (turnText e).map Prod.fst = some turnId → (eventMessageId sourceMessageId e).isSome = true) :
    s.KnownTurn sessionId cursor events sourceMessageId turnId := by
  have hgroup : ∀ {key g}, (s.deliveredGroups (EventReplay.turnKey sessionId turnId) cursor).get? key = some g →
      g.messageId = some key ∧ ∃ d ∈ firstDeliveries ds, d.inTurn sessionId turnId = true ∧ d.messageId = some key ∧
        ∃ e ∈ events, (turnText e).map Prod.fst = some turnId ∧ eventMessageId sourceMessageId e = some key := by
    intro key g hg
    obtain ⟨d,hd,hturn,hle,hid,hkey⟩ := hbook.group_mem hg
    obtain ⟨hsome,e,he,htext,hmessage⟩ := hids d hd hturn hle
    obtain ⟨messageId,hmessageId⟩ := Option.isSome_iff_exists.mp hsome
    have hkey : messageId = key := by
      rw [← hkey, Delivery.messageKey, hmessageId]
      rfl
    subst hkey
    exact ⟨hid.symm.trans hmessageId,d,hd,hturn,hmessageId,e,he,htext,hmessage.trans hmessageId⟩
  refine ⟨fun key g hg => (hgroup hg).1,fun key g hg => ?_,fun key g hg e he hchunk => ?_⟩
  · obtain ⟨-,d,-,-,-,e,he,htext,hmessage⟩ := hgroup hg
    obtain ⟨⟨t,delta⟩,hdelta,ht⟩ := Option.map_eq_some_iff.mp htext
    subst ht
    have hchunk : chunk sourceMessageId t key e = some delta := chunk_eq_some.mpr ⟨hdelta,by rw [hmessage]; rfl⟩
    exact ⟨e,he,by rw [hchunk]; rfl⟩
  · obtain ⟨-,d,hd,hturn,hid,-⟩ := hgroup hg
    obtain ⟨delta,hdelta⟩ := Option.isSome_iff_exists.mp hchunk
    obtain ⟨htext,hkey⟩ := chunk_eq_some.mp hdelta
    cases hmessage : eventMessageId sourceMessageId e with
    | some messageId =>
      rw [hmessage, Option.getD_some] at hkey
      rw [hkey]
    | none =>
      rw [hmessage, Option.getD_none] at hkey
      subst hkey
      have hsome := hidentified d hd hturn hid e he (by rw [htext]; rfl)
      rw [hmessage] at hsome
      cases hsome

end Handed

section Exact
variable {operations : List (ReplayOperation ν)}

lemma known_operations (hapart : TextsApart (deliveriesOf operations) sessionId events sourceMessageId)
    (hids : SameIds (deliveriesOf operations) sessionId cursor events sourceMessageId) :
    (EventReplay.after operations).Known sessionId cursor events sourceMessageId := by
  intro turnId hturn
  refine knownTurn (EventReplay.books_operations operations (hapart.spelled turnId hturn)) ?_ ?_
  · intro d hd hin hle
    rw [Delivery.inTurn, Bool.and_eq_true, beq_iff_eq, beq_iff_eq] at hin
    obtain ⟨hsession,rfl⟩ := hin
    exact hids d hd hsession hle
  · intro d hd hin hid
    rw [Delivery.inTurn, Bool.and_eq_true, beq_iff_eq, beq_iff_eq] at hin
    obtain ⟨hsession,rfl⟩ := hin
    exact hapart.identified d hd hsession hid

/-- A message of which text was handed out is in the history. -/
lemma SameIds.turn {ds : List Delivery} (h : SameIds ds sessionId cursor events sourceMessageId) {turnId key text : Text}
    (htext : deliveredText ds sessionId (some cursor) turnId key = some text) : turnId ∈ turnsOf events := by
  rw [deliveredText, Option.bind_some] at htext
  dsimp only at htext
  split_ifs at htext with hempty
  obtain ⟨d,hd⟩ := List.exists_mem_of_ne_nil _ (mt List.isEmpty_iff.mpr hempty)
  rw [deliveriesTo, List.mem_insertionSort] at hd
  obtain ⟨hfirst,hkept⟩ := List.mem_filter.mp hd
  simp only [Delivery.inTurn, Bool.and_eq_true, beq_iff_eq, decide_eq_true_eq] at hkept
  obtain ⟨⟨⟨hsession,rfl⟩,-⟩,hle⟩ := hkept
  obtain ⟨-,e,he,hturn,-⟩ := h d hfirst hsession hle
  obtain ⟨⟨_,delta⟩,hdelta,rfl⟩ := Option.map_eq_some_iff.mp hturn
  exact mem_turnsOf.mpr ⟨e,he,delta,hdelta⟩

/-- After any recorded texts trimming is exact where those of the session are in the history under their ids: of a
message that goes on after the delivered text the rest survives, of one within it nothing, and all else
is returned as it is. -/
theorem trimDeliveredHistoryText_exact (hapart : TextsApart (deliveriesOf operations) sessionId events sourceMessageId)
    (hids : SameIds (deliveriesOf operations) sessionId cursor events sourceMessageId) :
    ∃ outs : List (List (RuntimeEventEnvelope ν)),
      (EventReplay.after operations).trimDeliveredHistoryText sessionId events cursor sourceMessageId =
        outs.flatten ∧
      List.Forall₂ Returned events outs ∧
      (∀ turnId key text, deliveredText (deliveriesOf operations) sessionId (some cursor) turnId key = some text →
        (text <+: currentText sourceMessageId events turnId key →
          deltasOf (survivors sourceMessageId events outs turnId key) =
            (currentText sourceMessageId events turnId key).drop text.length) ∧
        (currentText sourceMessageId events turnId key <+: text →
          survivors sourceMessageId events outs turnId key = [])) ∧
      ∀ e out, (e,out) ∈ events.zip outs →
        (∀ turnId delta, turnText e = some (turnId,delta) → deliveredText (deliveriesOf operations) sessionId (some cursor)
          turnId ((eventMessageId sourceMessageId e).getD identityFree) = none) →
        out = [e] := by
  have h := known_operations hapart hids
  have hbook : ∀ turnId ∈ turnsOf events, ∀ key, (EventReplay.after operations).deliveredTo sessionId
      (some cursor) turnId key = deliveredText (deliveriesOf operations) sessionId (some cursor) turnId key :=
    fun turnId hturn key => (EventReplay.books_operations operations (hapart.spelled turnId hturn)).deliveredTo_eq _ key
  generalize EventReplay.after operations = s at h hbook ⊢
  refine ⟨events.zipIdx.map (returned (s.remainingByEvent sessionId events cursor sourceMessageId)),?_,?_,?_,?_⟩
  · rw [trimDeliveredHistoryText_eq_flatMap, List.flatMap_def]
  · exact forall₂_returned events 0
  · intro turnId key text hdelivered
    rw [← hbook turnId (hids.turn hdelivered)] at hdelivered
    rw [survivors_zipIdx]
    constructor
    · intro hfront
      have hleft : ∀ before e after delta, events = before ++ e :: after →
          chunk sourceMessageId turnId key e = some delta →
          (s.remainingByEvent sessionId events cursor sourceMessageId).get? before.length =
            some (delta.drop (text.length - (currentText sourceMessageId before turnId key).length)) := by
        intro before e after delta heq hchunk
        subst heq
        exact EventReplay.remainingByEvent_front h hchunk hdelivered hfront
      exact deltasOf_survivors hleft [] events rfl
    · intro hcovered
      rw [List.flatMap_eq_nil_iff]
      intro p hp
      split_ifs with hsome
      · obtain ⟨delta,hchunk⟩ := Option.isSome_iff_exists.mp hsome
        have hleft := EventReplay.remainingByEvent_covered h (List.mem_zipIdx_iff_getElem?.mp hp) hchunk hdelivered hcovered
        unfold returned
        rw [(chunk_eq_some.mp hchunk).1]
        dsimp only
        rw [hleft]
        rfl
      · rfl
  · intro e out hmem hnone
    obtain ⟨i,hi,rfl⟩ := mem_zip_returned hmem
    unfold returned
    cases htext : turnText e with
    | none => rfl
    | some p =>
      have hturn := mem_turnsOf.mpr ⟨e,List.mem_of_getElem? hi,p.2,htext⟩
      have hundelivered := (hbook p.1 hturn _).trans (hnone p.1 p.2 htext)
      dsimp only
      rw [Nat.zero_add, EventReplay.remainingByEvent_undelivered h hi htext hundelivered]

end Exact
end Histories

/-- A text event. -/
def textEvent (sessionId turnId eventId delta : String) (sequence : ℕ) : RuntimeEventEnvelope ℕ :=
  ⟨Text.of eventId,sequence,Text.of sessionId,some (Text.of turnId),Text.of "2026-01-01T00:00:00Z",
    .textDelta (Text.of delta),.contentAllowed,false⟩

/-- The message was delivered in two pieces, and its history is cut elsewhere. -/
theorem trimDeliveredHistoryText_greeting :
    let greeted := [ReplayOperation.record (Text.of "s")
      [textEvent "s" "t" "m:text:0" "Hel" 1,textEvent "s" "t" "m:text:1" "lo" 2] none]
    let history := [textEvent "s" "t" "m:text:0" "Hello w" 1,textEvent "s" "t" "m:text:1" "orld" 2]
    ∃ outs : List (List (RuntimeEventEnvelope ℕ)),
      (EventReplay.after greeted).trimDeliveredHistoryText (Text.of "s") history 2 none = outs.flatten ∧
        deltasOf (survivors none history outs (Text.of "t") (Text.of "m")) = Text.of " world" := by
  intro greeted history
  have hapart : TextsApart (deliveriesOf greeted) (Text.of "s") history none :=
    ⟨by decide +kernel,by decide +kernel⟩
  have hids : SameIds (deliveriesOf greeted) (Text.of "s") 2 history none := by
    decide +kernel
  obtain ⟨outs,hflat,-,hmessages,-⟩ := trimDeliveredHistoryText_exact hapart hids
  refine ⟨outs,hflat,?_⟩
  have hdelivered : deliveredText (deliveriesOf greeted) (Text.of "s") (some 2) (Text.of "t") (Text.of "m") =
      some (Text.of "Hello") := by
    decide +kernel
  have hcurrent : currentText none history (Text.of "t") (Text.of "m") = Text.of "Hello world" := by
    decide +kernel
  obtain ⟨hrest,-⟩ := hmessages _ _ _ hdelivered
  rw [hcurrent] at hrest
  rw [hrest (List.isPrefixOf_iff_prefix.mp rfl)]
  rfl

/-- A text handed out in turn `c` of session `a:b` hides that of turn `b:c` of session `a`, to whose readers nothing was
handed. -/
theorem trimDeliveredHistoryText_sharedSpelling :
    let delivered := [ReplayOperation.record (Text.of "a:b") [textEvent "a:b" "c" "m1:text:0" "OK" 1] none]
    let history := [textEvent "a" "b:c" "m2:text:0" "OK" 1]
    SameIds (deliveriesOf delivered) (Text.of "a") 1 history none ∧
      deliveredText (deliveriesOf delivered) (Text.of "a") (some 1) (Text.of "b:c") (Text.of "m2") = none ∧
      (EventReplay.after delivered).trimDeliveredHistoryText (Text.of "a") history 1 none = [] := by
  refine ⟨by decide +kernel,by decide +kernel,?_⟩
  exact List.length_eq_zero_iff.mp (by decide +kernel)

end OmniagentPlus.OmnigentTransport
