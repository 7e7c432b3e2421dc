import OmniagentPlus.OmnigentTransport.MatchedHistory

/-! What a reader lacks of a history, by the texts and events it was handed: as it takes what is due,
from the front on, the rest stays due. -/
namespace OmniagentPlus.OmnigentTransport
open OmniagentPlus.Foundation OmniagentPlus.CoreContracts

section Readers
variable {ν : Type}

/-- An event without text, or with one of no characters. -/
def isPlain (e : RuntimeEventEnvelope ν) : Bool := (turnText e).all fun p => p.2.isEmpty

/-- What a reader was handed: the text of each message, and the other events by their keys. -/
structure Reader where
  texts : Text → Text → Option Text
  handed : List Text

/-- What of an event shows to a reader: not its number, nor how its text was cut. -/
def content (e : RuntimeEventEnvelope ν) : RuntimeEventEnvelope ν :=
  { e with eventId := if isPlain e then e.eventId else messageKey e, sequence := 0 }

namespace Reader

def start : Reader := ⟨fun _ _ => none,[]⟩

def has (r : Reader) (e : RuntimeEventEnvelope ν) : Bool := isPlain e && r.handed.contains (runtimeEventSequenceKey e)

def addText (r : Reader) (e : RuntimeEventEnvelope ν) : Text → Text → Option Text :=
  match turnText e with
  | none => r.texts
  | some (turnId,delta) => fun t key =>
    if t = turnId ∧ key = messageKey e then some ((r.texts t key).getD [] ++ delta) else r.texts t key

def take (r : Reader) (e : RuntimeEventEnvelope ν) : Reader where
  texts := r.addText e
  handed := if isPlain e then runtimeEventSequenceKey e :: r.handed else r.handed

def receive (r : Reader) (page : List (RuntimeEventEnvelope ν)) : Reader := page.foldl take r

def textLength (r : Reader) (turnId key : Text) : ℕ := ((r.texts turnId key).getD []).length

/-- What the reader lacks of an event, with the events `before` it. -/
def lacking (r : Reader) (before : List (RuntimeEventEnvelope ν)) (e : RuntimeEventEnvelope ν) :
    List (RuntimeEventEnvelope ν) :=
  if isPlain e then if r.has e then [] else [e]
  else (turnText e).toList.flatMap fun p =>
    let rest := p.2.drop (r.textLength p.1 (messageKey e) - (currentText none before p.1 (messageKey e)).length)
    if rest.isEmpty then [] else [{ e with payload := .textDelta rest }]

def dueFrom (r : Reader) : List (RuntimeEventEnvelope ν) → List (RuntimeEventEnvelope ν) → List (RuntimeEventEnvelope ν)
  | _, [] => []
  | before, e :: es => r.lacking before e ++ r.dueFrom (before ++ [e]) es

/-- What the reader lacks of a history. -/
def due (r : Reader) (events : List (RuntimeEventEnvelope ν)) : List (RuntimeEventEnvelope ν) := r.dueFrom [] events

end Reader

lemma isPlain_of_text {e : RuntimeEventEnvelope ν} {turnId delta : Text} (h : turnText e = some (turnId,delta)) :
    isPlain e = delta.isEmpty := by
  rw [isPlain, h]
  rfl

lemma text_of_not_isPlain {e : RuntimeEventEnvelope ν} (h : isPlain e = false) :
    ∃ turnId delta, turnText e = some (turnId,delta) ∧ delta ≠ [] := by
  cases ht : turnText e with
  | none => simp [isPlain, ht] at h
  | some p =>
    obtain ⟨turnId,delta⟩ := p
    rw [isPlain_of_text ht] at h
    exact ⟨turnId,delta,rfl,by simpa using h⟩

lemma turnText_withText {e : RuntimeEventEnvelope ν} {turnId delta : Text} (h : turnText e = some (turnId,delta))
    (eventId rest : Text) :
    turnText ({ e with eventId := eventId, payload := .textDelta rest } : RuntimeEventEnvelope ν) = some (turnId,rest) := by
  have hturn : Text.truthy e.turnId = some turnId := by
    unfold turnText at h
    split at h
    · rename_i hturn
      cases h
      exact hturn
    · cases h
  simp [turnText, hturn]

lemma withText_self {e : RuntimeEventEnvelope ν} {turnId delta : Text} (h : turnText e = some (turnId,delta)) :
    ({ e with payload := .textDelta delta } : RuntimeEventEnvelope ν) = e := by
  unfold turnText at h
  split at h
  · rename_i hpayload hturn
    cases h
    rw [← hpayload]
  · cases h

lemma content_eq {a b : RuntimeEventEnvelope ν} (h : content a = content b) :
    turnText a = turnText b ∧ isPlain a = isPlain b ∧ messageKey a = messageKey b ∧
      (isPlain a = true → runtimeEventSequenceKey a = runtimeEventSequenceKey b) := by
  have hpayload : a.payload = b.payload := (RuntimeEventEnvelope.mk.inj h).2.2.2.2.2.1
  have hturn : a.turnId = b.turnId := (RuntimeEventEnvelope.mk.inj h).2.2.2.1
  have hid : (if isPlain a then a.eventId else messageKey a) = if isPlain b then b.eventId else messageKey b :=
    (RuntimeEventEnvelope.mk.inj h).1
  have htext : turnText a = turnText b := by rw [turnText, turnText, hpayload, hturn]
  have hplain : isPlain a = isPlain b := by rw [isPlain, isPlain, htext]
  rw [← hplain] at hid
  refine ⟨htext,hplain,?_,fun hp => ?_⟩
  · cases hp : isPlain a with
    | true =>
      rw [hp] at hid
      exact congrArg (fun eventId => (runtimeTextMessageId eventId).getD identityFree) hid
    | false =>
      rw [hp] at hid
      exact hid
  · rw [hp] at hid
    have hid : a.eventId = b.eventId := hid
    rw [runtimeEventSequenceKey, runtimeEventSequenceKey, hpayload, hturn, hid]

namespace Reader
variable {r : Reader}

lemma take_congr {a b : RuntimeEventEnvelope ν} (h : content a = content b) : r.take a = r.take b := by
  obtain ⟨htext,hplain,hmessage,hkey⟩ := content_eq h
  unfold take addText
  rw [htext, hplain, hmessage]
  congr 1
  split_ifs with hp
  · rw [hkey (hplain.trans hp)]
  · rfl

lemma lacking_plain {before : List (RuntimeEventEnvelope ν)} {e : RuntimeEventEnvelope ν} (h : isPlain e = true) :
    r.lacking before e = if r.handed.contains (runtimeEventSequenceKey e) then [] else [e] := by
  rw [lacking, if_pos h, has, h, Bool.true_and]

lemma lacking_text {before : List (RuntimeEventEnvelope ν)} {e : RuntimeEventEnvelope ν} {turnId delta : Text}
    (h : turnText e = some (turnId,delta)) (hne : delta ≠ []) : r.lacking before e =
      let rest := delta.drop (r.textLength turnId (messageKey e) - (currentText none before turnId (messageKey e)).length)
      if rest.isEmpty then [] else [{ e with payload := .textDelta rest }] := by
  rw [lacking, if_neg (by rw [isPlain_of_text h]; simpa using hne), h]
  exact List.append_nil _

lemma lacking_text_nil {before : List (RuntimeEventEnvelope ν)} {e : RuntimeEventEnvelope ν} {turnId delta : Text}
    (h : turnText e = some (turnId,delta)) (hne : delta ≠ []) : r.lacking before e = [] ↔
      delta.length ≤ r.textLength turnId (messageKey e) - (currentText none before turnId (messageKey e)).length := by
  rw [lacking_text h hne, ← List.drop_eq_nil_iff, ← List.isEmpty_iff]
  dsimp only
  split_ifs with hempty
  · exact ⟨fun _ => List.isEmpty_iff.mp hempty,fun _ => rfl⟩
  · exact ⟨fun hcons => (nomatch hcons),fun hnil => absurd (List.isEmpty_iff.mpr hnil) hempty⟩

/-- An event is lacking once at most. -/
lemma lacking_cases (before : List (RuntimeEventEnvelope ν)) (e : RuntimeEventEnvelope ν) :
    r.lacking before e = [] ∨ ∃ x, r.lacking before e = [x] := by
  cases hp : isPlain e with
  | true =>
    rw [lacking_plain hp]
    split_ifs
    · exact Or.inl rfl
    · exact Or.inr ⟨e,rfl⟩
  | false =>
    obtain ⟨turnId,delta,ht,hne⟩ := text_of_not_isPlain hp
    rw [lacking_text ht hne]
    dsimp only
    split_ifs
    · exact Or.inl rfl
    · exact Or.inr ⟨_,rfl⟩

lemma dueFrom_append (before l m : List (RuntimeEventEnvelope ν)) :
    r.dueFrom before (l ++ m) = r.dueFrom before l ++ r.dueFrom (before ++ l) m := by
  induction l generalizing before with
  | nil => simp [dueFrom]
  | cons e l ih => simp [dueFrom, ih]

lemma dueFrom_eq_nil {before es : List (RuntimeEventEnvelope ν)} :
    r.dueFrom before es = [] ↔ ∀ l e m, es = l ++ e :: m → r.lacking (before ++ l) e = [] := by
  constructor
  · intro h l e m hsplit
    rw [hsplit, dueFrom_append, List.append_eq_nil_iff, dueFrom, List.append_eq_nil_iff] at h
    exact h.2.1
  · intro h
    induction es generalizing before with
    | nil => rfl
    | cons e es ih =>
      have hhead := h [] e es rfl
      rw [List.append_nil] at hhead
      rw [dueFrom, hhead]
      refine ih fun l f m hsplit => ?_
      have htail := h (e :: l) f m (congrArg (e :: ·) hsplit)
      rwa [List.append_cons] at htail

lemma dueFrom_congr {r' : Reader} {before es : List (RuntimeEventEnvelope ν)}
    (h : ∀ l e m, es = l ++ e :: m → r'.lacking (before ++ l) e = r.lacking (before ++ l) e) :
    r'.dueFrom before es = r.dueFrom before es := by
  induction es generalizing before with
  | nil => rfl
  | cons e es ih =>
    have hhead := h [] e es rfl
    rw [List.append_nil] at hhead
    rw [dueFrom, dueFrom, hhead, ih]
    intro l f m hsplit
    have htail := h (e :: l) f m (congrArg (e :: ·) hsplit)
    rwa [List.append_cons] at htail

/-- The first event of what is due. -/
lemma dueFrom_cons {before es rest : List (RuntimeEventEnvelope ν)} {x : RuntimeEventEnvelope ν}
    (h : r.dueFrom before es = x :: rest) : ∃ front e after, es = front ++ e :: after ∧ r.dueFrom before front = [] ∧
      r.lacking (before ++ front) e = [x] ∧ rest = r.dueFrom (before ++ front ++ [e]) after := by
  induction es generalizing before with
  | nil => cases h
  | cons e es ih =>
    rw [dueFrom] at h
    obtain hnil | ⟨y,hy⟩ := r.lacking_cases before e
    · rw [hnil, List.nil_append] at h
      obtain ⟨front,f,after,rfl,hfront,hf,hrest⟩ := ih h
      refine ⟨e :: front,f,after,rfl,?_,?_,?_⟩
      · rw [dueFrom, hnil, hfront, List.append_nil]
      · rwa [List.append_cons]
      · rwa [← List.append_cons] at hrest
    · rw [hy, List.singleton_append] at h
      obtain ⟨rfl,hrest⟩ := List.cons.inj h
      exact ⟨[],e,es,rfl,rfl,by rwa [List.append_nil],by rw [List.append_nil]; exact hrest.symm⟩

/-- With an event goes its text, or its key. -/
lemma take_plain {e : RuntimeEventEnvelope ν} (h : isPlain e = true) : (∀ turnId key,
    (r.take e).textLength turnId key = r.textLength turnId key) ∧
      (r.take e).handed = runtimeEventSequenceKey e :: r.handed := by
  refine ⟨fun turnId key => ?_,if_pos h⟩
  unfold textLength take addText
  dsimp only
  cases ht : turnText e with
  | none => rfl
  | some p =>
    obtain ⟨t,delta⟩ := p
    have hdelta : delta = [] := by
      rw [isPlain_of_text ht] at h
      exact List.isEmpty_iff.mp h
    subst hdelta
    dsimp only
    split_ifs
    · rw [Option.getD_some, List.append_nil]
    · rfl

lemma take_text {e : RuntimeEventEnvelope ν} {turnId delta : Text} (h : turnText e = some (turnId,delta)) (hne : delta ≠ []) :
    (∀ t key, (r.take e).textLength t key =
      if t = turnId ∧ key = messageKey e then r.textLength t key + delta.length else r.textLength t key) ∧
      (r.take e).handed = r.handed := by
  refine ⟨fun t key => ?_,if_neg (by rw [isPlain_of_text h]; simpa using hne)⟩
  unfold textLength take addText
  dsimp only
  rw [h]
  dsimp only
  split_ifs
  · rw [Option.getD_some, List.length_append]
  · rfl

/-- Of a message of which nothing is due the reader has all the text. -/
lemma length_le_of_due_nil {turnId key : Text} {before es : List (RuntimeEventEnvelope ν)}
    (h : (currentText none before turnId key).length ≤ r.textLength turnId key) (hdue : r.dueFrom before es = []) :
    (currentText none (before ++ es) turnId key).length ≤ r.textLength turnId key := by
  induction es generalizing before with
  | nil => rwa [List.append_nil]
  | cons e es ih =>
    rw [dueFrom, List.append_eq_nil_iff] at hdue
    rw [List.append_cons]
    refine ih ?_ hdue.2
    rw [currentText_append, currentText_cons, List.length_append]
    cases hchunk : chunk none turnId key e with
    | none => simpa [currentText] using h
    | some delta =>
      obtain ⟨ht,hkey⟩ := chunk_eq_some.mp hchunk
      have hkey : messageKey e = key := hkey
      subst hkey
      by_cases hne : delta = []
      · subst hne
        simpa [currentText] using h
      · have hle := (lacking_text_nil ht hne).mp hdue.1
        simp only [Option.getD_some, currentText, List.filterMap_nil, List.flatten_nil, List.append_nil] at hle h ⊢
        omega

lemma dueFrom_take_plain {front after : List (RuntimeEventEnvelope ν)} {e : RuntimeEventEnvelope ν} (h : isPlain e = true)
    (hfront : r.dueFrom [] front = []) (hother : ∀ x ∈ r.dueFrom (front ++ [e]) after,
      isPlain x = true → runtimeEventSequenceKey e ≠ runtimeEventSequenceKey x) :
    (r.take e).due (front ++ e :: after) = r.dueFrom (front ++ [e]) after := by
  obtain ⟨hlength,hhanded⟩ := r.take_plain h
  have hsame : ∀ (before : List (RuntimeEventEnvelope ν)) f, (isPlain f = true → runtimeEventSequenceKey e = runtimeEventSequenceKey f → r.lacking before f = []) →
      (r.take e).lacking before f = r.lacking before f := by
    intro before f hf
    cases hp : isPlain f with
    | true =>
      have hf := hf hp
      rw [lacking_plain hp] at hf ⊢
      rw [lacking_plain hp, hhanded, List.contains_cons]
      by_cases hkey : runtimeEventSequenceKey e = runtimeEventSequenceKey f
      · rw [hf hkey, hkey, beq_self_eq_true, Bool.true_or, if_pos rfl]
      · rw [beq_false_of_ne (Ne.symm hkey), Bool.false_or]
    | false =>
      obtain ⟨turnId,delta,ht,hne⟩ := text_of_not_isPlain hp
      rw [lacking_text ht hne, lacking_text ht hne, hlength]
  rw [due, dueFrom_append, dueFrom, dueFrom_congr fun l f m hsplit => hsame _ f fun _ _ => ?_, hfront, lacking_plain h,
    hhanded, List.contains_cons, beq_self_eq_true, Bool.true_or, if_pos rfl, List.nil_append, List.nil_append]
  · refine dueFrom_congr fun l f m hsplit => hsame _ f fun hp hkey => ?_
    obtain hnil | ⟨x,hx⟩ := r.lacking_cases (front ++ [e] ++ l) f
    · exact hnil
    · have hfx : x = f := by
        rw [lacking_plain hp] at hx
        split_ifs at hx
        exact (List.singleton_inj.mp hx).symm
      subst hfx
      refine absurd hkey (hother x ?_ hp)
      rw [hsplit, dueFrom_append, dueFrom, hx]
      simp
  · exact (dueFrom_eq_nil.mp hfront) l f m hsplit

lemma dueFrom_take_text {front after : List (RuntimeEventEnvelope ν)} {e x : RuntimeEventEnvelope ν} (h : isPlain e = false)
    (hfront : r.dueFrom [] front = []) (hx : r.lacking front e = [x]) :
    (r.take x).due (front ++ e :: after) = r.dueFrom (front ++ [e]) after := by
  obtain ⟨turnId,delta,ht,hne⟩ := text_of_not_isPlain h
  have hcovered : (currentText none front turnId (messageKey e)).length ≤ r.textLength turnId (messageKey e) :=
    @length_le_of_due_nil ν r turnId (messageKey e) [] front (Nat.zero_le _) hfront
  rw [lacking_text ht hne] at hx
  dsimp only at hx
  split_ifs at hx with hempty
  obtain rfl := List.singleton_inj.mp hx
  have hrest := mt List.isEmpty_iff.mpr hempty
  have htext := turnText_withText ht e.eventId
    (delta.drop (r.textLength turnId (messageKey e) - (currentText none front turnId (messageKey e)).length))
  obtain ⟨hlength,hhanded⟩ := r.take_text htext hrest
  have hmessage : messageKey ({ e with payload := .textDelta (delta.drop (r.textLength turnId (messageKey e) -
      (currentText none front turnId (messageKey e)).length)) } : RuntimeEventEnvelope ν) = messageKey e := rfl
  have hshort : r.textLength turnId (messageKey e) - (currentText none front turnId (messageKey e)).length < delta.length := by
    rw [← Nat.not_le, ← List.drop_eq_nil_iff]
    exact hrest
  rw [hmessage, List.length_drop] at hlength
  generalize ({ e with payload := .textDelta (delta.drop (r.textLength turnId (messageKey e) -
    (currentText none front turnId (messageKey e)).length)) } : RuntimeEventEnvelope ν) = x at hlength hhanded ⊢
  have hplain : ∀ (before : List (RuntimeEventEnvelope ν)) f, isPlain f = true →
      (r.take x).lacking before f = r.lacking before f := by
    intro before f hp
    rw [lacking_plain hp, lacking_plain hp, hhanded]
  rw [due, dueFrom_append, dueFrom]
  have hbefore : (r.take x).dueFrom [] front = [] := by
    refine dueFrom_eq_nil.mpr fun l f m hsplit => ?_
    have hold := (dueFrom_eq_nil.mp hfront) l f m hsplit
    cases hp : isPlain f with
    | true => rw [hplain _ f hp, hold]
    | false =>
      obtain ⟨t,d,htf,hned⟩ := text_of_not_isPlain hp
      rw [lacking_text_nil htf hned] at hold ⊢
      rw [hlength]
      split_ifs <;> omega
  have hhere : (r.take x).lacking ([] ++ front) e = [] := by
    rw [lacking_text_nil ht hne, hlength, if_pos ⟨rfl,rfl⟩, List.nil_append]
    omega
  rw [hbefore, hhere]
  simp only [List.nil_append]
  refine dueFrom_congr fun l f m hsplit => ?_
  cases hp : isPlain f with
  | true => exact hplain _ f hp
  | false =>
    obtain ⟨t,d,htf,hned⟩ := text_of_not_isPlain hp
    rw [lacking_text htf hned, lacking_text htf hned, hlength]
    split_ifs with hsame
    · obtain ⟨rfl,hkey⟩ := hsame
      have hlong : (currentText none front t (messageKey e)).length + delta.length ≤
          (currentText none (front ++ [e] ++ l) t (messageKey e)).length := by
        have hchunk : chunk none t (messageKey e) e = some delta := chunk_eq_some.mpr ⟨ht,rfl⟩
        rw [currentText_append, currentText_append, currentText_cons, hchunk]
        simp only [List.length_append, Option.getD_some]
        omega
      rw [hkey, Nat.sub_eq_zero_of_le (by omega), Nat.sub_eq_zero_of_le (by omega)]
    · rfl

/-- Once the first of what is due is taken, the rest is due. -/
theorem due_take {events rest : List (RuntimeEventEnvelope ν)} {x : RuntimeEventEnvelope ν} (h : r.due events = x :: rest)
    (hdistinct : (r.due events).Pairwise fun a b => isPlain a = true → isPlain b = true →
      runtimeEventSequenceKey a ≠ runtimeEventSequenceKey b) : (r.take x).due events = rest := by
  rw [h] at hdistinct
  obtain ⟨front,e,after,rfl,hfront,hx,rfl⟩ := dueFrom_cons h
  cases hp : isPlain e with
  | true =>
    rw [lacking_plain hp] at hx
    split_ifs at hx
    obtain rfl := List.singleton_inj.mp hx
    exact dueFrom_take_plain hp hfront fun y hy hyp => (List.pairwise_cons.mp hdistinct).1 y hy hp hyp
  | false => exact dueFrom_take_text hp hfront hx

/-- Once a page of what is due is taken, the rest is due. -/
theorem due_receive {events page : List (RuntimeEventEnvelope ν)} (h : page.map content <+: (r.due events).map content)
    (hdistinct : (r.due events).Pairwise fun a b => isPlain a = true → isPlain b = true →
      runtimeEventSequenceKey a ≠ runtimeEventSequenceKey b) :
    (r.receive page).due events = (r.due events).drop page.length := by
  induction page generalizing r with
  | nil => rfl
  | cons p page ih =>
    cases hdue : r.due events with
    | nil =>
      rw [hdue] at h
      exact absurd (List.prefix_nil.mp h) (List.cons_ne_nil _ _)
    | cons x rest =>
      rw [hdue, List.map_cons, List.map_cons, List.cons_prefix_cons] at h
      have hnext := due_take hdue hdistinct
      rw [hdue] at hdistinct
      rw [← take_congr h.1] at hnext
      rw [receive, List.foldl_cons, List.length_cons, List.drop_succ_cons, ← hnext]
      refine ih ?_ ?_
      · rw [hnext]
        exact h.2
      · rw [hnext]
        exact (List.pairwise_cons.mp hdistinct).2

lemma currentText_lacking (before : List (RuntimeEventEnvelope ν)) (e : RuntimeEventEnvelope ν) (turnId key : Text) :
    currentText none (r.lacking before e) turnId key = ((chunk none turnId key e).getD []).drop
      (r.textLength turnId key - (currentText none before turnId key).length) := by
  cases hp : isPlain e with
  | true =>
    have hchunk : (chunk none turnId key e).getD [] = [] := by
      cases hsome : chunk none turnId key e with
      | none => rfl
      | some delta =>
        rw [isPlain_of_text (chunk_eq_some.mp hsome).1] at hp
        exact List.isEmpty_iff.mp hp
    rw [lacking_plain hp, hchunk, List.drop_nil]
    split_ifs
    · rfl
    · rw [currentText_cons, hchunk]
      rfl
  | false =>
    obtain ⟨t,delta,ht,hne⟩ := text_of_not_isPlain hp
    rw [lacking_text ht hne]
    dsimp only
    by_cases hsame : t = turnId ∧ messageKey e = key
    · obtain ⟨rfl,rfl⟩ := hsame
      have hchunk : chunk none t (messageKey e) e = some delta := chunk_eq_some.mpr ⟨ht,rfl⟩
      rw [hchunk, Option.getD_some]
      split_ifs with hempty
      · exact (List.isEmpty_iff.mp hempty).symm
      · have hrest : chunk none t (messageKey e) ({ e with payload := .textDelta (delta.drop (r.textLength t (messageKey e) -
            (currentText none before t (messageKey e)).length)) } : RuntimeEventEnvelope ν) = some (delta.drop
              (r.textLength t (messageKey e) - (currentText none before t (messageKey e)).length)) :=
          chunk_eq_some.mpr ⟨turnText_withText ht e.eventId _,rfl⟩
        rw [currentText_cons, hrest]
        exact List.append_nil _
    · have hchunk : ∀ rest, chunk none turnId key ({ e with payload := .textDelta rest } : RuntimeEventEnvelope ν) = none := by
        intro rest
        rw [chunk, turnText_withText ht e.eventId rest, Option.bind_some]
        exact if_neg hsame
      have hnone : chunk none turnId key e = none := by
        rw [chunk, ht, Option.bind_some]
        exact if_neg hsame
      rw [hnone, Option.getD_none, List.drop_nil]
      split_ifs
      · rfl
      · rw [currentText_cons, hchunk]
        rfl

/-- Of each message is due what lies behind the text that the reader has. -/
lemma currentText_dueFrom (before es : List (RuntimeEventEnvelope ν)) (turnId key : Text) :
    currentText none (r.dueFrom before es) turnId key = (currentText none es turnId key).drop
      (r.textLength turnId key - (currentText none before turnId key).length) := by
  induction es generalizing before with
  | nil => exact List.drop_nil.symm
  | cons e es ih =>
    have hone : currentText none [e] turnId key = (chunk none turnId key e).getD [] := by
      rw [currentText_cons]
      exact List.append_nil _
    rw [dueFrom, currentText_append, currentText_lacking, ih, currentText_append, hone, currentText_cons, List.drop_append,
      List.length_append, Nat.sub_sub]

theorem currentText_due (events : List (RuntimeEventEnvelope ν)) (turnId key : Text) :
    currentText none (r.due events) turnId key = (currentText none events turnId key).drop (r.textLength turnId key) :=
  r.currentText_dueFrom [] events turnId key

end Reader

lemma currentText_congr {l l' : List (RuntimeEventEnvelope ν)} (h : l.map content = l'.map content) (turnId key : Text) :
    currentText none l turnId key = currentText none l' turnId key := by
  induction l generalizing l' with
  | nil =>
    obtain rfl := List.map_eq_nil_iff.mp h.symm
    rfl
  | cons e l ih =>
    cases l' with
    | nil => cases h
    | cons e' l' =>
      obtain ⟨he,hl⟩ := List.cons.inj h
      obtain ⟨htext,-,hmessage,-⟩ := content_eq he
      have hchunk : chunk none turnId key e = chunk none turnId key e' := by
        have hmessage : (eventMessageId none e).getD identityFree = (eventMessageId none e').getD identityFree := hmessage
        rw [chunk, chunk, htext, hmessage]
      rw [currentText_cons, currentText_cons, hchunk, ih hl]

end Readers
end OmniagentPlus.OmnigentTransport
