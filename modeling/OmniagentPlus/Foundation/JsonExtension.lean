import OmniagentPlus.Foundation.JsonParse

/-! The texts that the JSON machine has not rejected are those that can be completed: from each state
that it reaches some text leads to a value. -/
namespace OmniagentPlus.Foundation
namespace JsonParse
variable {ν : Type}

/-- The innermost frame is an object. -/
def InObject (frames : List (JsonFrame ν)) : Prop := ∃ fields key outer, frames = .object fields key :: outer

/-- The place and the innermost frame go together. -/
def WellPlaced (s : JsonState ν) : Prop :=
  match s.mode with
  | .value | .number _ _ => True
  | .valueOrEnd => ∃ items outer, s.frames = .array items :: outer
  | .key | .keyOrEnd | .colon => InObject s.frames
  | .comma => s.frames ≠ []
  | .string isKey _ | .escape isKey _ => isKey = true → InObject s.frames
  | .hex isKey _ digits => digits.length < 4 ∧ (isKey = true → InObject s.frames)
  | .literal rest _ => rest ≠ [] ∧ ∀ u ∈ rest, u < 0x80
  | .done _ => s.frames = []

theorem wellPlaced_complete (frames : List (JsonFrame ν)) (v : Json ν) : WellPlaced (complete frames v) := by
  cases frames with
  | nil => exact rfl
  | cons frame frames => cases frame <;> exact List.cons_ne_nil _ _

theorem wellPlaced_close {frames : List (JsonFrame ν)} {s : JsonState ν} (h : close frames = some s) : WellPlaced s := by
  cases frames with
  | nil => cases h
  | cons frame frames =>
    cases frame <;> cases h <;> exact wellPlaced_complete _ _

lemma ascii_of_all {rest : Text} (h : (rest.all fun u => decide (u < 0x80)) = true) : ∀ u ∈ rest, u < 0x80 := by
  simpa using h

theorem wellPlaced_startValue {frames : List (JsonFrame ν)} {u : UInt16} {s : JsonState ν}
    (h : startValue frames u = some s) : WellPlaced s := by
  unfold startValue at h
  split_ifs at h
  case neg =>
    obtain ⟨part,-,rfl⟩ := Option.map_eq_some_iff.mp h
    trivial
  all_goals cases h
  · exact ⟨_,_,_,rfl⟩
  · exact ⟨_,_,rfl⟩
  · exact fun hk => by cases hk
  · exact ⟨by decide,ascii_of_all rfl⟩
  · exact ⟨by decide,ascii_of_all rfl⟩
  · exact ⟨by decide,ascii_of_all rfl⟩

theorem wellPlaced_afterValue {s s' : JsonState ν} {u : UInt16} (hs : WellPlaced s) (h : afterValue s u = some s') :
    WellPlaced s' := by
  unfold afterValue at h
  by_cases hspace : isWhitespace u = true
  · rw [if_pos hspace] at h
    cases h
    exact hs
  · rw [if_neg hspace] at h
    split at h
    case h_1 items outer _ hframes =>
      rw [hframes] at h
      split_ifs at h
      · cases h
        trivial
      · exact wellPlaced_close h
    case h_2 fields key outer _ hframes =>
      rw [hframes] at h
      split_ifs at h
      · cases h
        exact ⟨_,_,_,rfl⟩
      · exact wellPlaced_close h
    case h_3 => cases h

theorem wellPlaced_endString {frames : List (JsonFrame ν)} {isKey : Bool} {read : Text} {s : JsonState ν}
    (h : endString frames isKey read = some s) : WellPlaced s := by
  unfold endString at h
  split_ifs at h
  · split at h
    · cases h
      exact ⟨_,_,_,rfl⟩
    · cases h
  · cases h
    exact wellPlaced_complete _ _

variable [JsNumber ν]

theorem step_wellPlaced {s s' : JsonState ν} {u : UInt16} (hs : WellPlaced s) (h : step s u = some s') : WellPlaced s' := by
  obtain ⟨frames,mode⟩ := s
  cases mode with
  | value =>
    simp only [step] at h
    split_ifs at h
    · cases h
      trivial
    · exact wellPlaced_startValue h
  | valueOrEnd =>
    simp only [step] at h
    split_ifs at h
    · cases h
      exact hs
    · exact wellPlaced_close h
    · exact wellPlaced_startValue h
  | key =>
    simp only [step] at h
    split_ifs at h
    · cases h
      exact hs
    · cases h
      exact fun _ => hs
  | keyOrEnd =>
    simp only [step] at h
    split_ifs at h
    · cases h
      exact hs
    · exact wellPlaced_close h
    · cases h
      exact fun _ => hs
  | colon =>
    simp only [step] at h
    split_ifs at h
    · cases h
      exact hs
    · cases h
      trivial
  | comma => exact wellPlaced_afterValue hs h
  | done v => exact wellPlaced_afterValue hs h
  | string isKey read =>
    simp only [step] at h
    split_ifs at h
    · exact wellPlaced_endString h
    · cases h
      exact hs
    · cases h
      exact hs
  | escape isKey read =>
    simp only [step] at h
    split_ifs at h
    · cases h
      exact ⟨by decide,hs⟩
    · obtain ⟨v,-,rfl⟩ := Option.map_eq_some_iff.mp h
      exact hs
  | hex isKey read digits =>
    obtain ⟨d,-,hd⟩ := Option.map_eq_some_iff.mp h
    obtain ⟨hlength,hkey⟩ := hs
    dsimp only at hd
    split_ifs at hd with hfour
    · cases hd
      exact hkey
    · cases hd
      refine ⟨?_,hkey⟩
      rw [List.length_append, List.length_singleton] at hfour ⊢
      omega
  | literal rest v =>
    cases rest with
    | nil => cases h
    | cons c rest =>
      simp only [step] at h
      split_ifs at h with hu hrest
      · cases h
        exact wellPlaced_complete _ _
      · cases h
        exact ⟨fun hnil => hrest (by rw [hnil]; rfl),fun w hw => hs.2 w (List.mem_cons_of_mem c hw)⟩
  | number part read =>
    simp only [step] at h
    split at h
    · cases h
      trivial
    · split_ifs at h
      exact wellPlaced_afterValue (wellPlaced_complete _ _) h

section Completion

/-- Some text leads from the state to a value. -/
def Completable (s : JsonState ν) : Prop :=
  ∃ (text : Text) (v : Json ν), (text.foldlM step s).bind result = some v

theorem Completable.of_step {s s' : JsonState ν} (u : UInt16) (h : step s u = some s') (hs : Completable s') :
    Completable s := by
  obtain ⟨text,v,hv⟩ := hs
  refine ⟨u :: text,v,?_⟩
  rw [List.foldlM_cons, h]
  exact hv

/-- After a value the open arrays and objects can be closed one after another. -/
theorem completable_complete (frames : List (JsonFrame ν)) (v : Json ν) : Completable (complete frames v) := by
  induction frames generalizing v with
  | nil => exact ⟨[],v,rfl⟩
  | cons frame frames ih =>
    cases frame with
    | array items => exact .of_step 0x5D rfl (ih (.array (items ++ [v])))
    | object fields key => exact .of_step 0x7D rfl (ih (.object (Dictionary.setEntry key v fields)))

theorem completable_value (frames : List (JsonFrame ν)) : Completable ⟨frames,.value⟩ :=
  .of_step 0x22 rfl (.of_step 0x22 rfl (completable_complete frames (.string [])))

theorem completable_colon {frames : List (JsonFrame ν)} : Completable ⟨frames,.colon⟩ :=
  .of_step 0x3A rfl (completable_value frames)

theorem completable_string {frames : List (JsonFrame ν)} {isKey : Bool} (h : isKey = true → InObject frames) (read : Text) :
    Completable ⟨frames,.string isKey read⟩ := by
  cases isKey with
  | false => exact .of_step 0x22 rfl (completable_complete frames (.string read))
  | true =>
    obtain ⟨fields,key,outer,rfl⟩ := h rfl
    exact .of_step 0x22 rfl completable_colon

theorem completable_hex {frames : List (JsonFrame ν)} {isKey : Bool} (h : isKey = true → InObject frames) (read : Text)
    (digits : List ℕ) (hlength : digits.length < 4) : Completable ⟨frames,.hex isKey read digits⟩ := by
  induction hleft : 3 - digits.length generalizing digits with
  | zero =>
    refine .of_step 0x30 ?_ (completable_string h (read ++ [UInt16.ofNat ((digits ++ [0]).foldl (fun n d => 16 * n + d) 0)]))
    have hfour : (digits ++ [0]).length = 4 := by simp; omega
    simp only [step, show hexDigit 0x30 = some 0 from rfl, Option.map_some, if_pos hfour]
  | succ left ih =>
    have hfour : (digits ++ [0]).length ≠ 4 := by simp; omega
    refine .of_step 0x30 ?_ (ih (digits ++ [0]) (by simp; omega) (by simp; omega))
    simp only [step, show hexDigit 0x30 = some 0 from rfl, Option.map_some, if_neg hfour]

theorem completable_literal (frames : List (JsonFrame ν)) {rest : Text} (h : rest ≠ []) (v : Json ν) :
    Completable ⟨frames,.literal rest v⟩ := by
  induction rest with
  | nil => exact absurd rfl h
  | cons c rest ih =>
    by_cases hrest : rest = []
    · subst hrest
      exact .of_step c (by simp [step]) (completable_complete frames v)
    · exact .of_step c (by simp [step, hrest]) (ih hrest)

/-- A number that may end here ends with what closes the innermost frame. -/
theorem completable_numberEnd (frames : List (JsonFrame ν)) (part : NumberPart) (h : numberEnds part = true) (read : Text) :
    Completable ⟨frames,.number part read⟩ := by
  cases frames with
  | nil => exact ⟨[],.number (JsNumber.ofLiteral read),by simp [result, h]⟩
  | cons frame frames =>
    cases frame with
    | array items =>
      refine .of_step 0x5D ?_ (completable_complete frames (.array (items ++ [.number (JsNumber.ofLiteral read)])))
      cases part <;> first | rfl | cases h
    | object fields key =>
      refine .of_step 0x7D ?_ (completable_complete frames
        (.object (Dictionary.setEntry key (.number (JsNumber.ofLiteral read)) fields)))
      cases part <;> first | rfl | cases h

/-- Another digit lets a number end. -/
theorem completable_number (frames : List (JsonFrame ν)) (part : NumberPart) (read : Text) :
    Completable ⟨frames,.number part read⟩ := by
  cases part with
  | minus => exact .of_step 0x30 rfl (completable_numberEnd frames .zero rfl _)
  | point => exact .of_step 0x30 rfl (completable_numberEnd frames .fraction rfl _)
  | exponent => exact .of_step 0x30 rfl (completable_numberEnd frames .exponentDigits rfl _)
  | exponentSign => exact .of_step 0x30 rfl (completable_numberEnd frames .exponentDigits rfl _)
  | zero => exact completable_numberEnd frames _ rfl read
  | integer => exact completable_numberEnd frames _ rfl read
  | fraction => exact completable_numberEnd frames _ rfl read
  | exponentDigits => exact completable_numberEnd frames _ rfl read

theorem WellPlaced.completable {s : JsonState ν} (h : WellPlaced s) : Completable s := by
  obtain ⟨frames,mode⟩ := s
  cases mode with
  | value => exact completable_value frames
  | valueOrEnd =>
    obtain ⟨items,outer,hframes⟩ := h
    obtain rfl : frames = _ := hframes
    exact .of_step 0x5D rfl (completable_complete outer (.array items))
  | key => exact .of_step 0x22 rfl (completable_string (fun _ => h) [])
  | keyOrEnd => exact .of_step 0x22 rfl (completable_string (fun _ => h) [])
  | colon => exact completable_colon
  | comma =>
    cases frames with
    | nil => exact absurd rfl h
    | cons frame frames =>
      cases frame with
      | array items => exact .of_step 0x5D rfl (completable_complete frames (.array items))
      | object fields key => exact .of_step 0x7D rfl (completable_complete frames (.object fields))
  | string isKey read => exact completable_string h read
  | escape isKey read => exact .of_step 0x6E rfl (completable_string h _)
  | hex isKey read digits => exact completable_hex h.2 read digits h.1
  | literal rest v => exact completable_literal frames h.1 v
  | number part read => exact completable_number frames part read
  | done v =>
    obtain rfl : frames = [] := h
    exact ⟨[],v,rfl⟩

end Completion

section Extension

/-- The state after a text; `none` where it is rejected. -/
def reading (ν : Type) [JsNumber ν] (text : Text) : Option (JsonState ν) := text.foldlM step ⟨[],.value⟩

theorem foldlM_wellPlaced {s s' : JsonState ν} {text : Text} (hs : WellPlaced s) (h : text.foldlM step s = some s') :
    WellPlaced s' := by
  induction text generalizing s with
  | nil =>
    cases h
    exact hs
  | cons u text ih =>
    rw [List.foldlM_cons] at h
    obtain ⟨t,ht,hrest⟩ := Option.bind_eq_some_iff.mp h
    exact ih (step_wellPlaced hs ht) hrest

theorem reading_wellPlaced {text : Text} {s : JsonState ν} (h : reading ν text = some s) : WellPlaced s :=
  foldlM_wellPlaced (s := ⟨[],.value⟩) trivial h

theorem parse_append (text more : Text) : Json.parse (ν := ν) (text ++ more) =
    (reading ν text).bind fun s => (more.foldlM step s).bind result := by
  rw [Json.parse, List.foldlM_append]
  unfold reading
  cases text.foldlM step (⟨[],.value⟩ : JsonState ν) <;> rfl

/-- A text that is no value begins one exactly where it was not rejected. -/
theorem extends_iff {text : Text} (h : Json.parse (ν := ν) text = none) :
    (∃ more, more ≠ [] ∧ (Json.parse (ν := ν) (text ++ more)).isSome = true) ↔ (reading ν text).isSome = true := by
  constructor
  · rintro ⟨more,-,hmore⟩
    rw [parse_append] at hmore
    cases hs : reading ν text with
    | none =>
      rw [hs] at hmore
      cases hmore
    | some s => rfl
  · intro hs
    obtain ⟨s,hs⟩ := Option.isSome_iff_exists.mp hs
    obtain ⟨more,v,hv⟩ := (reading_wellPlaced hs).completable
    have hparse : Json.parse (ν := ν) (text ++ more) = some v := by rw [parse_append, hs, Option.bind_some, hv]
    refine ⟨more,?_,by rw [hparse]; rfl⟩
    rintro rfl
    rw [List.append_nil, h] at hparse
    cases hparse

/-- In the text of a string, where any character may come. -/
def InString (s : JsonState ν) : Prop := ∃ isKey read, s.mode = .string isKey read

section NonAscii
variable {u : UInt16} (hu : 0x80 ≤ u)
include hu

theorem beq_nonAscii {c : UInt16} (hc : c < 0x80) : (u == c) = false := by
  refine beq_eq_false_iff_ne.mpr ?_
  rintro rfl
  exact absurd hu (by simpa using hc)

theorem isWhitespace_nonAscii : isWhitespace u = false := by
  simp [isWhitespace, beq_nonAscii hu (c := 0x20) (by decide), beq_nonAscii hu (c := 0x09) (by decide),
    beq_nonAscii hu (c := 0x0A) (by decide), beq_nonAscii hu (c := 0x0D) (by decide)]

theorem isDigit_nonAscii : isDigit u = false := by
  have hle : decide (u ≤ 0x39) = false := by
    refine decide_eq_false fun h => ?_
    exact absurd (UInt16.le_trans hu h) (by decide)
  rw [isDigit, hle, Bool.and_false]

omit [JsNumber ν] in
theorem startValue_nonAscii (frames : List (JsonFrame ν)) : startValue frames u = none := by
  simp [startValue, numberStart, isDigit_nonAscii hu, beq_nonAscii hu (c := 0x7B) (by decide),
    beq_nonAscii hu (c := 0x5B) (by decide), beq_nonAscii hu (c := 0x22) (by decide),
    beq_nonAscii hu (c := 0x74) (by decide), beq_nonAscii hu (c := 0x66) (by decide),
    beq_nonAscii hu (c := 0x6E) (by decide), beq_nonAscii hu (c := 0x2D) (by decide),
    beq_nonAscii hu (c := 0x30) (by decide)]

omit [JsNumber ν] in
theorem afterValue_nonAscii (s : JsonState ν) : afterValue s u = none := by
  unfold afterValue
  rw [isWhitespace_nonAscii hu]
  simp only [Bool.false_eq_true, if_false, beq_nonAscii hu (c := 0x2C) (by decide),
    beq_nonAscii hu (c := 0x5D) (by decide), beq_nonAscii hu (c := 0x7D) (by decide)]
  split <;> rfl

theorem numberNext_nonAscii (part : NumberPart) : numberNext part u = none := by
  cases part <;> simp [numberNext, isDigit_nonAscii hu, beq_nonAscii hu (c := 0x30) (by decide),
    beq_nonAscii hu (c := 0x2E) (by decide), beq_nonAscii hu (c := 0x65) (by decide),
    beq_nonAscii hu (c := 0x45) (by decide), beq_nonAscii hu (c := 0x2B) (by decide),
    beq_nonAscii hu (c := 0x2D) (by decide)]

theorem simpleEscape_nonAscii : simpleEscape u = none := by
  simp [simpleEscape, beq_nonAscii hu (c := 0x22) (by decide), beq_nonAscii hu (c := 0x5C) (by decide),
    beq_nonAscii hu (c := 0x2F) (by decide), beq_nonAscii hu (c := 0x62) (by decide),
    beq_nonAscii hu (c := 0x66) (by decide), beq_nonAscii hu (c := 0x6E) (by decide),
    beq_nonAscii hu (c := 0x72) (by decide), beq_nonAscii hu (c := 0x74) (by decide)]

theorem hexDigit_nonAscii : hexDigit u = none := by
  have hle : ∀ c : UInt16, c < 0x80 → decide (u ≤ c) = false := fun c hc =>
    decide_eq_false fun h => absurd (UInt16.lt_of_le_of_lt (UInt16.le_trans hu h) hc) (UInt16.lt_irrefl _)
  simp only [hexDigit, isDigit_nonAscii hu, hle 0x66 (by decide), hle 0x46 (by decide), Bool.and_false,
    Bool.false_eq_true, if_false]

end NonAscii

theorem step_nonAscii {s : JsonState ν} {u : UInt16} (hs : WellPlaced s) (hu : 0x80 ≤ u) :
    (step s u).isSome = true ↔ InString s := by
  obtain ⟨frames,mode⟩ := s
  have hnot : ∀ mode : JsonMode ν, (∀ isKey read, mode ≠ .string isKey read) → ¬InString (⟨frames,mode⟩ : JsonState ν) := by
    rintro mode hne ⟨isKey,read,hmode⟩
    exact hne isKey read hmode
  cases mode with
  | string isKey read =>
    refine iff_of_true ?_ ⟨isKey,read,rfl⟩
    have hcontrol : ¬u < 0x20 := fun h => absurd (UInt16.lt_of_le_of_lt hu h) (by decide)
    simp [step, beq_nonAscii hu (c := 0x22) (by decide), beq_nonAscii hu (c := 0x5C) (by decide), hcontrol]
  | literal rest v =>
    refine iff_of_false ?_ (hnot _ fun _ _ h => by cases h)
    cases rest with
    | nil => simp [step]
    | cons c rest => simp [step, beq_nonAscii hu (hs.2 c List.mem_cons_self)]
  | _ =>
    refine iff_of_false ?_ (hnot _ fun _ _ h => by cases h)
    simp [step, isWhitespace_nonAscii hu, startValue_nonAscii hu, afterValue_nonAscii hu, numberNext_nonAscii hu,
      simpleEscape_nonAscii hu, hexDigit_nonAscii hu, beq_nonAscii hu (c := 0x5D) (by decide),
      beq_nonAscii hu (c := 0x22) (by decide), beq_nonAscii hu (c := 0x7D) (by decide),
      beq_nonAscii hu (c := 0x3A) (by decide), beq_nonAscii hu (c := 0x75) (by decide)]

theorem extends_nonAscii_iff (text : Text) :
    (∃ u more, 0x80 ≤ u ∧ (Json.parse (ν := ν) (text ++ u :: more)).isSome = true) ↔
      ∃ s : JsonState ν, reading ν text = some s ∧ InString s := by
  constructor
  · rintro ⟨u,more,hu,hmore⟩
    rw [parse_append] at hmore
    obtain ⟨v,hv⟩ := Option.isSome_iff_exists.mp hmore
    obtain ⟨s,hs,hv⟩ := Option.bind_eq_some_iff.mp hv
    refine ⟨s,hs,(step_nonAscii (reading_wellPlaced hs) hu).mp ?_⟩
    rw [List.foldlM_cons] at hv
    cases hstep : step s u with
    | none =>
      rw [hstep] at hv
      cases hv
    | some s' => rfl
  · rintro ⟨s,hs,hstring⟩
    have hstep := (step_nonAscii (u := 0x80) (reading_wellPlaced hs) (by decide)).mpr hstring
    obtain ⟨s',hs'⟩ := Option.isSome_iff_exists.mp hstep
    obtain ⟨more,v,hv⟩ := (step_wellPlaced (reading_wellPlaced hs) hs').completable
    refine ⟨0x80,more,by decide,?_⟩
    rw [parse_append, hs, Option.bind_some, List.foldlM_cons, hs']
    exact Option.isSome_iff_exists.mpr ⟨v,hv⟩

/-- A value has been read outside all brackets; more digits may follow, or white space. -/
def AtEnd (s : JsonState ν) : Prop :=
  s.frames = [] ∧ ((∃ v, s.mode = .done v) ∨ ∃ part read, s.mode = .number part read)

lemma atEnd_of_result {s : JsonState ν} (h : (result s).isSome = true) : AtEnd s := by
  unfold result at h
  split at h
  case h_1 hframes hmode => exact ⟨hframes,Or.inl ⟨_,hmode⟩⟩
  case h_2 hframes hmode => exact ⟨hframes,Or.inr ⟨_,_,hmode⟩⟩
  case h_3 => cases h

omit [JsNumber ν] in
lemma afterValue_done {v : Json ν} {u : UInt16} {s : JsonState ν} (h : afterValue ⟨[],.done v⟩ u = some s) :
    AtEnd s ∧ u ≠ 0x7D := by
  unfold afterValue at h
  split_ifs at h with hspace
  cases h
  refine ⟨⟨rfl,Or.inl ⟨v,rfl⟩⟩,?_⟩
  rintro rfl
  exact absurd hspace (by decide)

lemma atEnd_step {s s' : JsonState ν} {u : UInt16} (h : AtEnd s) (hs : step s u = some s') : AtEnd s' ∧ u ≠ 0x7D := by
  obtain ⟨frames,mode⟩ := s
  obtain ⟨rfl,⟨v,rfl⟩ | ⟨part,read,rfl⟩⟩ := h
  · exact afterValue_done hs
  · simp only [step] at hs
    cases hnext : numberNext part u with
    | some next =>
      rw [hnext] at hs
      cases hs
      refine ⟨⟨rfl,Or.inr ⟨next,_,rfl⟩⟩,?_⟩
      rintro rfl
      cases part <;> cases hnext
    | none =>
      rw [hnext] at hs
      dsimp only at hs
      split_ifs at hs
      exact afterValue_done hs

lemma atEnd_foldlM {s s' : JsonState ν} {text : Text} (h : AtEnd s) (hs : text.foldlM step s = some s') :
    ∀ u ∈ text, u ≠ 0x7D := by
  induction text generalizing s with
  | nil => simp
  | cons u text ih =>
    rw [List.foldlM_cons] at hs
    obtain ⟨next,hnext,hrest⟩ := Option.bind_eq_some_iff.mp hs
    obtain ⟨hend,hu⟩ := atEnd_step h hnext
    exact List.forall_mem_cons.mpr ⟨hu,ih hend hrest⟩

/-- What comes before a closing brace is no JSON of its own. -/
theorem parse_front {front rest : Text} (hrest : (0x7D : UInt16) ∈ rest)
    (h : (Json.parse (ν := ν) (front ++ rest)).isSome = true) : Json.parse (ν := ν) front = none := by
  obtain ⟨v,hv⟩ := Option.isSome_iff_exists.mp h
  rw [parse_append] at hv
  obtain ⟨s,hs,hv⟩ := Option.bind_eq_some_iff.mp hv
  obtain ⟨s',hs',-⟩ := Option.bind_eq_some_iff.mp hv
  by_contra hparse
  obtain ⟨w,hw⟩ := Option.ne_none_iff_exists'.mp hparse
  rw [Json.parse] at hw
  change (reading ν front).bind result = some w at hw
  rw [hs, Option.bind_some] at hw
  exact atEnd_foldlM (atEnd_of_result (Option.isSome_iff_exists.mpr ⟨w,hw⟩)) hs' 0x7D hrest rfl

end Extension
end JsonParse
end OmniagentPlus.Foundation
