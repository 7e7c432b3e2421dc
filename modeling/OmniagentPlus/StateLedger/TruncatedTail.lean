import OmniagentPlus.Foundation.JsonExtension
import OmniagentPlus.Foundation.JsonNumber

/-! `truncatedJson` of `ledger-snapshot.ts`: whether a text that is no JSON may be the beginning of one.
It says so exactly of the texts that some text completes. -/
namespace OmniagentPlus.StateLedger
open OmniagentPlus.Foundation

inductive FrameKind
  | root
  | array
  | object
  deriving DecidableEq, Repr

/-- `ended` is `"end"`. -/
inductive FrameState
  | value
  | valueOrEnd
  | key
  | keyOrEnd
  | colon
  | comma
  | ended
  deriving DecidableEq, Repr

structure TailFrame where
  kind : FrameKind
  state : FrameState
  deriving DecidableEq, Repr

section Scan

def isJsonSpace : UInt16 → Bool := Regex.among "\t\n\r "

def isHexDigit : UInt16 → Bool := Regex.ranges [('0','9'),('a','f'),('A','F')]

/-- `[0-9.eE+-]` -/
def isNumberUnit (u : UInt16) : Bool := Regex.ranges [('0','9')] u || Regex.among ".eE+-" u

/-- How a string ends: with its quote and what comes after it, or not at all, in its text or in an escape. -/
inductive StringScan
  | complete (rest : Text)
  | unfinished
  | asciiUnfinished
  | invalid

/-- Where the scan of a string is: in its text, after a backslash, or at a hexadecimal digit with some more to come. -/
inductive StringPlace
  | text
  | escape
  | hex (left : ℕ)

/-- `string()` from behind the opening quote. -/
def scanString : StringPlace → Text → StringScan
  | .text, [] => .unfinished
  | .escape, [] | .hex _, [] => .asciiUnfinished
  | .text, u :: rest =>
    if u == 0x22 then .complete rest else if u < 0x20 then .invalid
    else scanString (if u == 0x5C then .escape else .text) rest
  | .escape, u :: rest =>
    if Regex.among "\"\\/bfnrt" u then scanString .text rest
    else if u == 0x75 then scanString (.hex 3) rest else .invalid
  | .hex left, u :: rest =>
    if isHexDigit u then scanString (match left with | 0 => .text | left + 1 => .hex left) rest else .invalid

/-- What one round of the loop comes to. -/
inductive ScanStep
  | next (frames : List TailFrame) (rest : Text)
  | verdict (truncated : Bool)

variable (incompleteUtf8 : Bool)

/-- What becomes of a string that the scan met. -/
def afterString (frames : List TailFrame) : StringScan → ScanStep
  | .complete rest => .next frames rest
  | .unfinished => .verdict true
  | .asciiUnfinished => .verdict !incompleteUtf8
  | .invalid => .verdict false

/-- The word of a literal that starts so. -/
def literalWord (u : UInt16) : Text :=
  if u == 0x74 then Text.of "true" else if u == 0x66 then Text.of "false" else Text.of "null"

def scanLiteral (frames : List TailFrame) (word text : Text) : ScanStep :=
  let remaining := text.take word.length
  if !remaining.isPrefixOf word then .verdict false
  else if remaining.length < word.length then .verdict !incompleteUtf8
  else .next frames (text.drop word.length)

def scanNumber (frames : List TailFrame) (u : UInt16) (rest : Text) : ScanStep :=
  let number := u :: rest.takeWhile isNumberUnit
  let after := rest.dropWhile isNumberUnit
  if (Regex.sequence [Regex.start,JsonNumber.number,Regex.finish]).test number then .next frames after
  else .verdict (!incompleteUtf8 && after.isEmpty &&
    (Regex.sequence [Regex.start,JsonNumber.begun,Regex.finish]).test number)

/-- A value starts; the frame is done with it. -/
def scanValue (frame : TailFrame) (outer : List TailFrame) (u : UInt16) (rest : Text) : ScanStep :=
  let frames := { frame with state := if frame.kind = .root then .ended else .comma } :: outer
  if u == 0x7B then .next (⟨.object,.keyOrEnd⟩ :: frames) rest
  else if u == 0x5B then .next (⟨.array,.valueOrEnd⟩ :: frames) rest
  else if u == 0x22 then afterString incompleteUtf8 frames (scanString .text rest)
  else if Regex.among "tfn" u then scanLiteral incompleteUtf8 frames (literalWord u) (u :: rest)
  else if u == 0x2D || Regex.ranges [('0','9')] u then scanNumber incompleteUtf8 frames u rest
  else .verdict false

def scanKey (frame : TailFrame) (outer : List TailFrame) (u : UInt16) (rest : Text) : ScanStep :=
  if u == 0x22 then afterString incompleteUtf8 ({ frame with state := .colon } :: outer) (scanString .text rest)
  else .verdict false

/-- One round of the loop: the next unit and the innermost frame, of which there always is one. -/
def scanStep (frames : List TailFrame) (u : UInt16) (rest : Text) : ScanStep :=
  if isJsonSpace u then .next frames rest
  else
    match frames with
    | [] => .verdict false
    | frame :: outer =>
      let closing : UInt16 := if frame.kind = .array then 0x5D else 0x7D
      match frame.state with
      | .ended => .verdict false
      | .colon => if u == 0x3A then .next ({ frame with state := .value } :: outer) rest else .verdict false
      | .comma =>
        if u == closing then .next outer rest
        else if u == 0x2C then
          .next ({ frame with state := if frame.kind = .array then .value else .key } :: outer) rest
        else .verdict false
      | .keyOrEnd => if u == closing then .next outer rest else scanKey incompleteUtf8 frame outer u rest
      | .valueOrEnd => if u == closing then .next outer rest else scanValue incompleteUtf8 frame outer u rest
      | .key => scanKey incompleteUtf8 frame outer u rest
      | .value => scanValue incompleteUtf8 frame outer u rest

/-- The loop, which takes at least one unit a round. The root is the last frame. -/
def scanFrames : ℕ → List TailFrame → Text → Bool
  | 0, _, _ => false
  | _ + 1, frames, [] =>
    !incompleteUtf8 && (decide (frames.length > 1) || decide (frames.getLast?.map (·.state) ≠ some .ended))
  | fuel + 1, frames, u :: rest =>
    match scanStep incompleteUtf8 frames u rest with
    | .next frames rest => scanFrames fuel frames rest
    | .verdict truncated => truncated

/-- `error` says that a `SyntaxError` was thrown. -/
def truncatedJson (text : Text) (error : Bool) : Bool :=
  error && scanFrames incompleteUtf8 (text.length + 1) [⟨.root,.value⟩] text

end Scan

section Verdicts
variable {ν : Type} [JsNumber ν]
open JsonParse

/-- What the scan is to say of a text, by where the machine is after it. -/
def Verdict (incompleteUtf8 : Bool) (after : Option (JsonState ν)) : Prop :=
  ∃ s, after = some s ∧ if incompleteUtf8 = true then InString s else result s = none

theorem not_verdict_none (incompleteUtf8 : Bool) : ¬Verdict (ν := ν) incompleteUtf8 none := by
  rintro ⟨s,⟨⟩,-⟩

theorem verdict_some {incompleteUtf8 : Bool} {s : JsonState ν} :
    Verdict incompleteUtf8 (some s) ↔ if incompleteUtf8 = true then InString s else result s = none := by
  constructor
  · rintro ⟨s',hs,h⟩
    cases hs
    exact h
  · exact fun h => ⟨s,rfl,h⟩

/-- In the middle of something other than the text of a string. -/
theorem verdict_unfinished {incompleteUtf8 : Bool} {s : JsonState ν} (hstring : ¬InString s) (hresult : result s = none) :
    (!incompleteUtf8) = true ↔ Verdict incompleteUtf8 (some s) := by
  rw [verdict_some]
  cases incompleteUtf8 <;> simp [hstring, hresult]

end Verdicts

section Units
open JsonParse

theorem isJsonSpace_eq (u : UInt16) : isJsonSpace u = isWhitespace u := by
  have hunits : Text.of "\t\n\r " = [0x09,0x0A,0x0D,0x20] := by decide
  rw [isJsonSpace, Regex.among, hunits, isWhitespace, Bool.eq_iff_iff]
  simp
  tauto

theorem ranges_digit (u : UInt16) : Regex.ranges [('0','9')] u = isDigit u := by
  simp [Regex.ranges, isDigit, UInt16.le_iff_toNat_le]

theorem isHexDigit_eq (u : UInt16) : isHexDigit u = (hexDigit u).isSome := by
  have hdigit : isDigit u = (decide (48 ≤ u.toNat) && decide (u.toNat ≤ 57)) := by
    simp [isDigit, UInt16.le_iff_toNat_le]
  unfold isHexDigit hexDigit
  rw [hdigit]
  simp only [Regex.ranges, UInt16.le_iff_toNat_le]
  split_ifs <;> simp_all

theorem among_escapes (u : UInt16) : Regex.among "\"\\/bfnrt" u = (simpleEscape u).isSome := by
  have hunits : Text.of "\"\\/bfnrt" = [0x22,0x5C,0x2F,0x62,0x66,0x6E,0x72,0x74] := by decide
  rw [Regex.among, hunits]
  unfold simpleEscape
  split_ifs <;> simp_all
  tauto

theorem isNumberUnit_eq (u : UInt16) : isNumberUnit u = (isDigit u || u == 0x2E || isExponent u || isSign u) := by
  have hunits : Text.of ".eE+-" = [0x2E,0x65,0x45,0x2B,0x2D] := by decide
  rw [isNumberUnit, ranges_digit, Regex.among, hunits, isExponent, isSign, Bool.eq_iff_iff]
  simp
  tauto

end Units

section Strings
variable {ν : Type} [JsNumber ν]
open JsonParse

/-- The machine is at the place in a string. -/
def AtPlace (isKey : Bool) : StringPlace → JsonMode ν → Prop
  | .text, mode => ∃ read, mode = .string isKey read
  | .escape, mode => ∃ read, mode = .escape isKey read
  | .hex left, mode => ∃ read digits, mode = .hex isKey read digits ∧ digits.length + left = 3

/-- What the machine is to come to after a text of at most so many units that starts in a string, by its scan. -/
def Scans (frames : List (JsonFrame ν)) (isKey : Bool) (length : ℕ) (after : Option (JsonState ν)) : StringScan → Prop
  | .complete rest => rest.length < length ∧
      ∃ read, after = (endString frames isKey read).bind fun s => rest.foldlM step s
  | .unfinished => ∃ s, after = some s ∧ InString s ∧ result s = none
  | .asciiUnfinished => ∃ s, after = some s ∧ ¬InString s ∧ result s = none
  | .invalid => after = none

theorem Scans.mono {frames : List (JsonFrame ν)} {isKey : Bool} {length length' : ℕ} {after : Option (JsonState ν)}
    {scan : StringScan} (h : Scans frames isKey length after scan) (hle : length ≤ length') :
    Scans frames isKey length' after scan := by
  cases scan with
  | complete rest => exact ⟨lt_of_lt_of_le h.1 hle,h.2⟩
  | _ => exact h

/-- The scan of a string finds what the machine does with it. -/
theorem scanString_scans {place : StringPlace} {text : Text} {isKey : Bool} {frames : List (JsonFrame ν)}
    {mode : JsonMode ν} (h : AtPlace isKey place mode) :
    Scans frames isKey text.length (text.foldlM step ⟨frames,mode⟩) (scanString place text) := by
  induction text generalizing place mode with
  | nil =>
    cases place with
    | text =>
      obtain ⟨read,rfl⟩ := h
      exact ⟨_,rfl,⟨isKey,read,rfl⟩,by cases frames <;> rfl⟩
    | escape =>
      obtain ⟨read,rfl⟩ := h
      refine ⟨_,rfl,?_,by cases frames <;> rfl⟩
      rintro ⟨isKey',read',hmode⟩
      cases hmode
    | hex left =>
      obtain ⟨read,digits,rfl,-⟩ := h
      refine ⟨_,rfl,?_,by cases frames <;> rfl⟩
      rintro ⟨isKey',read',hmode⟩
      cases hmode
  | cons u rest ih =>
    -- where the machine stays in the string, the rest is scanned from the next place
    have hgoes : ∀ {place' : StringPlace} {mode' : JsonMode ν}, AtPlace isKey place' mode' →
        step ⟨frames,mode⟩ u = some ⟨frames,mode'⟩ →
          Scans frames isKey (u :: rest).length ((u :: rest).foldlM step ⟨frames,mode⟩) (scanString place' rest) := by
      intro place' mode' hplace hstep
      rw [List.foldlM_cons, hstep]
      exact (ih hplace).mono (Nat.le_succ _)
    have hstops : step ⟨frames,mode⟩ u = none → (u :: rest).foldlM step (⟨frames,mode⟩ : JsonState ν) = none := by
      intro hstep
      rw [List.foldlM_cons, hstep]
      rfl
    cases place with
    | text =>
      obtain ⟨read,rfl⟩ := h
      simp only [scanString]
      split_ifs with hquote hcontrol hslash
      · refine ⟨by simp,read,?_⟩
        rw [List.foldlM_cons]
        simp only [step, hquote, if_true]
        rfl
      · refine hstops ?_
        have hslash : (u == 0x5C) = false := by
          refine beq_eq_false_iff_ne.mpr ?_
          rintro rfl
          exact absurd hcontrol (by decide)
        simp [step, hquote, hslash, hcontrol]
      · exact hgoes ⟨read,rfl⟩ (by simp [step, hquote, hslash])
      · exact hgoes ⟨read ++ [u],rfl⟩ (by simp [step, hquote, hslash, hcontrol])
    | escape =>
      obtain ⟨read,rfl⟩ := h
      have hnot : Regex.among "\"\\/bfnrt" u = true → (u == 0x75) = false := by
        intro hescape
        refine beq_eq_false_iff_ne.mpr ?_
        rintro rfl
        exact absurd hescape (by decide)
      simp only [scanString]
      split_ifs with hescape hunicode
      · obtain ⟨v,hv⟩ := Option.isSome_iff_exists.mp ((among_escapes u).symm.trans hescape)
        exact hgoes ⟨read ++ [v],rfl⟩ (by simp [step, hnot hescape, hv])
      · exact hgoes ⟨read,[],rfl,rfl⟩ (by simp [step, hunicode])
      · rw [among_escapes, Bool.not_eq_true, Option.isSome_eq_false_iff, Option.isNone_iff_eq_none] at hescape
        exact hstops (by simp [step, hunicode, hescape])
    | hex left =>
      obtain ⟨read,digits,rfl,hleft⟩ := h
      simp only [scanString]
      split_ifs with hhex
      · obtain ⟨d,hd⟩ := Option.isSome_iff_exists.mp ((isHexDigit_eq u).symm.trans hhex)
        cases left with
        | zero =>
          refine hgoes ⟨read ++ [UInt16.ofNat ((digits ++ [d]).foldl (fun n d => 16 * n + d) 0)],rfl⟩ ?_
          simp only [step, hd, Option.map_some]
          rw [if_pos (by rw [List.length_append, List.length_singleton]; omega)]
        | succ left =>
          refine hgoes ⟨read,digits ++ [d],rfl,by rw [List.length_append, List.length_singleton]; omega⟩ ?_
          simp only [step, hd, Option.map_some]
          rw [if_neg (by rw [List.length_append, List.length_singleton]; omega)]
      · rw [isHexDigit_eq, Bool.not_eq_true, Option.isSome_eq_false_iff, Option.isNone_iff_eq_none] at hhex
        exact hstops (by simp [step, hhex])

end Strings

section Tokens
variable {ν : Type} [JsNumber ν] {frames : List (JsonFrame ν)}
open JsonParse

/-- A literal is read to its end where the text goes on with the rest of it. -/
theorem foldlM_literal {word : Text} (hword : word ≠ []) (v : Json ν) (text : Text) :
    text.foldlM step ⟨frames,.literal word v⟩ =
      if (text.take word.length).isPrefixOf word then
        if text.length < word.length then some ⟨frames,.literal (word.drop text.length) v⟩
        else (text.drop word.length).foldlM step (complete frames v)
      else none := by
  induction word generalizing text with
  | nil => exact absurd rfl hword
  | cons c word ih =>
    cases text with
    | nil => simp
    | cons u text =>
      rw [List.foldlM_cons]
      by_cases hu : u = c
      · subst hu
        cases hrest : word with
        | nil => simp [step]
        | cons d word' =>
          have hstep : step ⟨frames,.literal (u :: d :: word') v⟩ u = some ⟨frames,.literal (d :: word') v⟩ := by
            simp [step]
          rw [hstep, ← hrest]
          refine (ih (by simp [hrest]) text).trans ?_
          simp
      · have hne : (u == c) = false := beq_eq_false_iff_ne.mpr hu
        simp [step, hne, List.isPrefixOf]

theorem numberNext_of_not {u : UInt16} (h : isNumberUnit u = false) (part : NumberPart) : numberNext part u = none := by
  rw [isNumberUnit_eq, isExponent, isSign] at h
  simp only [Bool.or_eq_false_iff] at h
  obtain ⟨⟨⟨hdigit,hpoint⟩,he,hE⟩,hplus,hminus⟩ := h
  have hzero : (u == 0x30) = false := by
    refine beq_eq_false_iff_ne.mpr ?_
    rintro rfl
    exact absurd hdigit (by decide)
  cases part <;> simp [numberNext, hdigit, hpoint, he, hE, hplus, hminus, hzero]

omit [JsNumber ν] in
/-- No unit of a number comes after a value. -/
theorem afterValue_number {u : UInt16} (h : isNumberUnit u = true) (s : JsonState ν) : afterValue s u = none := by
  have hne : ∀ c : UInt16, isNumberUnit c = false → (u == c) = false := by
    intro c hc
    refine beq_eq_false_iff_ne.mpr ?_
    rintro rfl
    rw [h] at hc
    cases hc
  unfold afterValue
  rw [isWhitespace, hne 0x20 (by decide), hne 0x09 (by decide), hne 0x0A (by decide), hne 0x0D (by decide)]
  simp only [Bool.or_false, Bool.false_eq_true, if_false, hne 0x2C (by decide), hne 0x5D (by decide), hne 0x7D (by decide)]
  split <;> rfl

/-- The units of a number are read as one number or not at all. -/
theorem foldlM_number (part : NumberPart) (read : Text) {run : Text} (h : ∀ u ∈ run, isNumberUnit u = true) :
    run.foldlM step ⟨frames,.number part read⟩ =
      (run.foldlM numberNext part).map fun part => (⟨frames,.number part (read ++ run)⟩ : JsonState ν) := by
  induction run generalizing part read with
  | nil => simp
  | cons u run ih =>
    rw [List.foldlM_cons, List.foldlM_cons]
    cases hnext : numberNext part u with
    | none =>
      have hstep : step (⟨frames,.number part read⟩ : JsonState ν) u = none := by
        simp only [step, hnext]
        rw [afterValue_number (h u List.mem_cons_self)]
        split_ifs <;> rfl
      rw [hstep]
      rfl
    | some next =>
      have hstep : step (⟨frames,.number part read⟩ : JsonState ν) u = some ⟨frames,.number next (read ++ [u])⟩ := by
        simp only [step, hnext]
      rw [hstep]
      refine (ih next (read ++ [u]) fun v hv => h v (List.mem_cons_of_mem u hv)).trans ?_
      rw [List.append_assoc, List.singleton_append]
      rfl

/-- After the units of a number the machine is as it is after the value. -/
theorem verdict_number {incompleteUtf8 : Bool} {part : NumberPart} (hends : numberEnds part = true) (read after : Text)
    (hafter : ∀ u ∈ after.head?, isNumberUnit u = false) :
    Verdict incompleteUtf8 (after.foldlM step (⟨frames,.number part read⟩ : JsonState ν)) ↔
      Verdict incompleteUtf8 (after.foldlM step (complete frames (.number (JsNumber.ofLiteral read)))) := by
  cases after with
  | nil =>
    have hnumber : ¬InString (⟨frames,.number part read⟩ : JsonState ν) := by
      rintro ⟨isKey,read',hmode⟩
      cases hmode
    have hcomplete : ¬InString (complete frames (.number (JsNumber.ofLiteral read)) : JsonState ν) := by
      rintro ⟨isKey,read',hmode⟩
      cases frames with
      | nil => cases hmode
      | cons frame frames => cases frame <;> cases hmode
    have hresult : result (⟨frames,.number part read⟩ : JsonState ν) = none ↔
        result (complete frames (.number (JsNumber.ofLiteral read)) : JsonState ν) = none := by
      cases frames with
      | nil => simp [result, JsonParse.complete, hends]
      | cons frame frames => cases frame <;> simp [result, JsonParse.complete]
    simp only [List.foldlM_nil]
    refine verdict_some.trans (Iff.trans ?_ verdict_some.symm)
    cases incompleteUtf8 with
    | true => simp [hnumber, hcomplete]
    | false => simpa using hresult
  | cons u after =>
    have hstep : step (⟨frames,.number part read⟩ : JsonState ν) u =
        step (complete frames (.number (JsNumber.ofLiteral read))) u := by
      have hnext := numberNext_of_not (hafter u rfl) part
      simp only [step, hnext, hends, if_true]
      cases frames with
      | nil => rfl
      | cons frame frames => cases frame <;> rfl
    rw [List.foldlM_cons, List.foldlM_cons, hstep]

end Tokens

section Simulation
variable {ν : Type} [JsNumber ν]
open JsonParse

/-- Frames whose values are complete, and the machine's, from the innermost to the root. -/
def Settled : List TailFrame → List (JsonFrame ν) → Prop
  | [⟨.root,.ended⟩], [] => True
  | ⟨.array,.comma⟩ :: outer, .array _ :: frames => Settled outer frames
  | ⟨.object,.comma⟩ :: outer, .object _ _ :: frames => Settled outer frames
  | _, _ => False

/-- The frame once its value is complete. -/
def settle (frame : TailFrame) : TailFrame := { frame with state := if frame.kind = .root then .ended else .comma }

/-- The places of the scan and of the machine. -/
def AtState : TailFrame → JsonMode ν → Prop
  | ⟨_,.value⟩, .value => True
  | ⟨.array,.valueOrEnd⟩, .valueOrEnd => True
  | ⟨.object,.key⟩, .key | ⟨.object,.keyOrEnd⟩, .keyOrEnd | ⟨.object,.colon⟩, .colon => True
  | ⟨.array,.comma⟩, .comma | ⟨.object,.comma⟩, .comma => True
  | ⟨.root,.ended⟩, .done _ => True
  | _, _ => False

/-- The scan stands where the machine does, between two tokens. -/
def Simulates : List TailFrame → JsonState ν → Prop
  | frame :: outer, s => Settled (settle frame :: outer) s.frames ∧ AtState frame s.mode
  | [], _ => False

omit [JsNumber ν] in
/-- After a complete value. -/
theorem simulates_complete {tail : List TailFrame} {frames : List (JsonFrame ν)} (h : Settled tail frames) (v : Json ν) :
    Simulates tail (complete frames v) := by
  unfold Settled at h
  split at h
  · exact ⟨trivial,trivial⟩
  · exact ⟨h,trivial⟩
  · exact ⟨h,trivial⟩
  · cases h

variable (incompleteUtf8 : Bool)

/-- What a round of the loop comes to agrees with the machine. -/
def Agrees (length : ℕ) (after : Option (JsonState ν)) : ScanStep → Prop
  | .next frames rest => rest.length ≤ length ∧ ∃ s : JsonState ν, Simulates frames s ∧
      (Verdict incompleteUtf8 after ↔ Verdict incompleteUtf8 (rest.foldlM step s))
  | .verdict truncated => truncated = true ↔ Verdict incompleteUtf8 after

variable {incompleteUtf8}

theorem agrees_reject {length : ℕ} : Agrees (ν := ν) incompleteUtf8 length none (.verdict false) :=
  iff_of_false (by simp) (not_verdict_none _)

/-- A round over one unit. -/
theorem agrees_step {s s' : JsonState ν} {u : UInt16} {frames : List TailFrame} (hs : step s u = some s')
    (hframes : Simulates frames s') (rest : Text) :
    Agrees incompleteUtf8 rest.length ((u :: rest).foldlM step s) (.next frames rest) := by
  refine ⟨le_rfl,s',hframes,?_⟩
  rw [List.foldlM_cons, hs]
  rfl

theorem agrees_none {s : JsonState ν} {u : UInt16} (hs : step s u = none) (rest : Text) :
    Agrees incompleteUtf8 rest.length ((u :: rest).foldlM step s) (.verdict false) := by
  rw [List.foldlM_cons, hs]
  exact agrees_reject

/-- A round over a string. -/
theorem agrees_string {s : JsonState ν} {u : UInt16} {rest : Text} {isKey : Bool} {frames : List (JsonFrame ν)}
    {tail : List TailFrame} (hs : step s u = some ⟨frames,.string isKey []⟩)
    (hend : ∀ read, ∃ s', endString frames isKey read = some s' ∧ Simulates tail s') :
    Agrees incompleteUtf8 rest.length ((u :: rest).foldlM step s) (afterString incompleteUtf8 tail (scanString .text rest)) := by
  have hscan : Scans frames isKey rest.length (rest.foldlM step ⟨frames,.string isKey []⟩) (scanString .text rest) :=
    scanString_scans ⟨[],rfl⟩
  rw [List.foldlM_cons, hs]
  change Agrees incompleteUtf8 rest.length (rest.foldlM step ⟨frames,.string isKey []⟩) _
  cases hplace : scanString .text rest with
  | complete after =>
    rw [hplace] at hscan
    obtain ⟨hlength,read,hafter⟩ := hscan
    obtain ⟨s',hs',hsim⟩ := hend read
    rw [hs', Option.bind_some] at hafter
    exact ⟨hlength.le,s',hsim,by rw [hafter]⟩
  | unfinished =>
    rw [hplace] at hscan
    obtain ⟨s',hs',hstring,hresult⟩ := hscan
    rw [hs']
    refine iff_of_true rfl (verdict_some.mpr ?_)
    split_ifs
    · exact hstring
    · exact hresult
  | asciiUnfinished =>
    rw [hplace] at hscan
    obtain ⟨s',hs',hstring,hresult⟩ := hscan
    rw [hs']
    exact verdict_unfinished hstring hresult
  | invalid =>
    rw [hplace] at hscan
    rw [(hscan : _ = none)]
    exact agrees_reject

/-- A round over a literal. -/
theorem agrees_literal {frames : List (JsonFrame ν)} {tail : List TailFrame} {s : JsonState ν} {u : UInt16} {word : Text}
    {v : Json ν} (hword : word ≠ []) (hs : step s u = some ⟨frames,.literal word v⟩) (hframes : Settled tail frames)
    (rest : Text) : Agrees incompleteUtf8 rest.length ((u :: rest).foldlM step s)
      (scanLiteral incompleteUtf8 tail (u :: word) (u :: rest)) := by
  rw [List.foldlM_cons, hs]
  change Agrees incompleteUtf8 rest.length (rest.foldlM step ⟨frames,.literal word v⟩) _
  rw [foldlM_literal hword]
  have htaken : ((u :: rest).take (u :: word).length).isPrefixOf (u :: word) = (rest.take word.length).isPrefixOf word := by
    simp
  have hlength : ((u :: rest).take (u :: word).length).length < (u :: word).length ↔ rest.length < word.length := by
    simp only [List.length_take, List.length_cons]
    omega
  unfold scanLiteral
  simp only [htaken, hlength]
  cases hp : (rest.take word.length).isPrefixOf word with
  | false => exact agrees_reject
  | true =>
    simp only [Bool.not_true, Bool.false_eq_true, if_false, if_true]
    split_ifs
    · refine verdict_unfinished ?_ (by cases frames <;> rfl)
      rintro ⟨isKey,read,hmode⟩
      cases hmode
    · exact ⟨by simp,_,simulates_complete hframes v,Iff.rfl⟩

/-- A round over a number. -/
theorem agrees_number {frames : List (JsonFrame ν)} {tail : List TailFrame} {s : JsonState ν} {u : UInt16}
    {part : NumberPart} (hpart : numberStart u = some part) (hs : step s u = some ⟨frames,.number part [u]⟩)
    (hframes : Settled tail frames) (rest : Text) :
    Agrees incompleteUtf8 rest.length ((u :: rest).foldlM step s) (scanNumber incompleteUtf8 tail u rest) := by
  have hplain : JsonNumber.number.Plain ∧ JsonNumber.begun.Plain := by
    simp [JsonNumber.number, JsonNumber.begun, JsonNumber.whole, JsonNumber.fraction, JsonNumber.minus, JsonNumber.point,
      JsonNumber.digits, JsonNumber.exponentMark, JsonNumber.exponentSign, Regex.sequence, Regex.oneOf, Regex.optional,
      Regex.atLeast, Regex.times, Regex.Plain]
  have hnumber : ∀ run, (Regex.sequence [Regex.start,JsonNumber.number,Regex.finish]).test (u :: run) = true ↔
      ∃ part', run.foldlM numberNext part = some part' ∧ numberEnds part' = true := by
    intro run
    rw [Regex.test_anchored hplain.1, JsonNumber.matches_number_iff, numberPart, hpart]
    rfl
  have hbegun : ∀ run, (Regex.sequence [Regex.start,JsonNumber.begun,Regex.finish]).test (u :: run) = true ↔
      ∃ part', run.foldlM numberNext part = some part' ∧ numberEnds part' = false := by
    intro run
    rw [Regex.test_anchored hplain.2, JsonNumber.matches_begun_iff, numberPart, hpart]
    rfl
  have hafter : ∀ v ∈ (rest.dropWhile isNumberUnit).head?, isNumberUnit v = false := by
    intro v hv
    have h := List.head?_dropWhile_not isNumberUnit rest
    rw [hv] at h
    simpa using h
  have hmachine : (u :: rest).foldlM step s = ((rest.takeWhile isNumberUnit).foldlM numberNext part).bind fun part =>
      (rest.dropWhile isNumberUnit).foldlM step ⟨frames,.number part (u :: rest.takeWhile isNumberUnit)⟩ := by
    have hsplit : (rest.foldlM step (⟨frames,.number part [u]⟩ : JsonState ν)) =
        (rest.takeWhile isNumberUnit ++ rest.dropWhile isNumberUnit).foldlM step ⟨frames,.number part [u]⟩ := by
      rw [List.takeWhile_append_dropWhile]
    rw [List.foldlM_cons, hs]
    refine hsplit.trans ?_
    rw [List.foldlM_append, foldlM_number part [u] fun v hv => List.mem_takeWhile_imp hv]
    cases (rest.takeWhile isNumberUnit).foldlM numberNext part <;> rfl
  have hlength : (rest.dropWhile isNumberUnit).length ≤ rest.length := (List.dropWhile_sublist _).length_le
  rw [hmachine]
  unfold scanNumber
  dsimp only
  generalize rest.takeWhile isNumberUnit = run at hmachine ⊢
  generalize rest.dropWhile isNumberUnit = after at hafter hlength ⊢
  cases hrun : run.foldlM numberNext part with
  | none =>
    have hno : ∀ b : Bool, (∃ part', run.foldlM numberNext part = some part' ∧ numberEnds part' = b) → False := by
      rintro b ⟨part',h,-⟩
      rw [hrun] at h
      cases h
    rw [if_neg fun h => hno true ((hnumber run).mp h)]
    have hfalse : (Regex.sequence [Regex.start,JsonNumber.begun,Regex.finish]).test (u :: run) = false := by
      rw [← Bool.not_eq_true]
      exact fun h => hno false ((hbegun run).mp h)
    rw [hfalse, Bool.and_false]
    exact agrees_reject
  | some part' =>
    rw [Option.bind_some]
    cases hends : numberEnds part' with
    | true =>
      rw [if_pos ((hnumber run).mpr ⟨part',hrun,hends⟩)]
      exact ⟨hlength,_,simulates_complete hframes _,verdict_number hends _ _ hafter⟩
    | false =>
      have hnot : ¬(Regex.sequence [Regex.start,JsonNumber.number,Regex.finish]).test (u :: run) = true := by
        intro h
        obtain ⟨part'',h',hends'⟩ := (hnumber run).mp h
        rw [hrun] at h'
        cases h'
        rw [hends] at hends'
        cases hends'
      rw [if_neg hnot, (hbegun run).mpr ⟨part',hrun,hends⟩, Bool.and_true]
      cases after with
      | nil =>
        rw [List.isEmpty_nil, Bool.and_true]
        refine verdict_unfinished ?_ ?_
        · rintro ⟨isKey,read,hmode⟩
          cases hmode
        · cases frames <;> simp [result, hends]
      | cons v after =>
        have hstep : step (⟨frames,.number part' (u :: run)⟩ : JsonState ν) v = none := by
          simp only [step, numberNext_of_not (hafter v rfl), hends, Bool.false_eq_true, if_false]
        rw [List.foldlM_cons, hstep, List.isEmpty_cons, Bool.and_false]
        exact agrees_reject

/-- A round that starts a value. -/
theorem agrees_value {frames : List (JsonFrame ν)} {frame : TailFrame} {outer : List TailFrame} {s : JsonState ν} {u : UInt16}
    (hs : step s u = startValue frames u) (hframes : Settled (settle frame :: outer) frames) (rest : Text) :
    Agrees incompleteUtf8 rest.length ((u :: rest).foldlM step s) (scanValue incompleteUtf8 frame outer u rest) := by
  have hunits : Text.of "tfn" = [0x74,0x66,0x6E] := by decide
  have hnot : Regex.among "tfn" u ≠ true → ∀ c ∈ [(0x74 : UInt16),0x66,0x6E], (u == c) = false := by
    intro hliteral c hc
    refine beq_eq_false_iff_ne.mpr ?_
    rintro rfl
    refine hliteral ?_
    rw [Regex.among, hunits]
    exact List.elem_iff.mpr hc
  have htail : ({ frame with state := if frame.kind = .root then .ended else .comma } : TailFrame) = settle frame := rfl
  unfold scanValue
  dsimp only
  rw [htail]
  generalize settle frame :: outer = tail at hframes ⊢
  have hword : ∀ (word : Text) {v : Json ν}, word ≠ [] → startValue frames u = some ⟨frames,.literal word v⟩ →
      Agrees incompleteUtf8 rest.length ((u :: rest).foldlM step s)
        (scanLiteral incompleteUtf8 tail (u :: word) (u :: rest)) :=
    fun word _ hne hstart => agrees_literal hne (hs.trans hstart) hframes rest
  split_ifs with hbrace hbracket hquote hliteral hnumber
  · rw [beq_iff_eq] at hbrace
    subst hbrace
    have hsim : Simulates (⟨.object,.keyOrEnd⟩ :: tail) (⟨.object [] [] :: frames,.keyOrEnd⟩ : JsonState ν) :=
      ⟨hframes,trivial⟩
    exact agrees_step (hs.trans rfl) hsim rest
  · rw [beq_iff_eq] at hbracket
    subst hbracket
    have hsim : Simulates (⟨.array,.valueOrEnd⟩ :: tail) (⟨.array [] :: frames,.valueOrEnd⟩ : JsonState ν) :=
      ⟨hframes,trivial⟩
    exact agrees_step (hs.trans rfl) hsim rest
  · rw [beq_iff_eq] at hquote
    subst hquote
    have hstring : step s 0x22 = some ⟨frames,.string false []⟩ := hs.trans rfl
    exact agrees_string hstring fun read => ⟨_,rfl,simulates_complete hframes _⟩
  · rw [Regex.among, hunits] at hliteral
    simp only [List.contains_cons, List.contains_nil, Bool.or_false, Bool.or_eq_true, beq_iff_eq] at hliteral
    rcases hliteral with rfl | rfl | rfl
    · exact hword (Text.of "rue") (by decide) rfl
    · exact hword (Text.of "alse") (by decide) rfl
    · exact hword (Text.of "ull") (by decide) rfl
  · rw [ranges_digit] at hnumber
    have hstart : ∃ part, numberStart u = some part := by
      rcases (Bool.or_eq_true _ _).mp hnumber with h | h
      · exact ⟨.minus,by simp [numberStart, h]⟩
      · unfold numberStart
        split_ifs
        · exact ⟨_,rfl⟩
        · exact ⟨_,rfl⟩
        · exact ⟨_,rfl⟩
    obtain ⟨part,hpart⟩ := hstart
    refine agrees_number hpart (hs.trans ?_) hframes rest
    simp [startValue, hbrace, hbracket, hquote, hnot hliteral 0x74 (by simp), hnot hliteral 0x66 (by simp),
      hnot hliteral 0x6E (by simp), hpart]
  · rw [ranges_digit, Bool.not_eq_true, Bool.or_eq_false_iff] at hnumber
    refine agrees_none (hs.trans ?_) rest
    have hzero : (u == 0x30) = false := by
      refine beq_eq_false_iff_ne.mpr ?_
      rintro rfl
      exact absurd hnumber.2 (by decide)
    simp [startValue, hbrace, hbracket, hquote, hnot hliteral 0x74 (by simp), hnot hliteral 0x66 (by simp),
      hnot hliteral 0x6E (by simp), numberStart, hnumber.1, hnumber.2, hzero]

/-- A round that starts a key. -/
theorem agrees_key {frames : List (JsonFrame ν)} {fields : JsonRecord ν} {key : Text} {frame : TailFrame}
    {outer : List TailFrame} {s : JsonState ν} {u : UInt16} (hkind : frame.kind = .object)
    (hs : step s u = if u == 0x22 then some ⟨.object fields key :: frames,.string true []⟩ else none)
    (hframes : Settled outer frames) (rest : Text) :
    Agrees incompleteUtf8 rest.length ((u :: rest).foldlM step s) (scanKey incompleteUtf8 frame outer u rest) := by
  obtain ⟨kind,state⟩ := frame
  obtain rfl : kind = .object := hkind
  unfold scanKey
  split_ifs with hquote
  · rw [if_pos hquote] at hs
    exact agrees_string hs fun read => ⟨_,rfl,hframes,trivial⟩
  · rw [if_neg hquote] at hs
    exact agrees_none hs rest

omit [JsNumber ν] in
theorem atState_cases {frame : TailFrame} {mode : JsonMode ν} (h : AtState frame mode) :
    (frame.state = .value ∧ mode = .value) ∨ (frame = ⟨.array,.valueOrEnd⟩ ∧ mode = .valueOrEnd) ∨
      (frame = ⟨.object,.key⟩ ∧ mode = .key) ∨ (frame = ⟨.object,.keyOrEnd⟩ ∧ mode = .keyOrEnd) ∨
      (frame = ⟨.object,.colon⟩ ∧ mode = .colon) ∨ (frame = ⟨.array,.comma⟩ ∧ mode = .comma) ∨
      (frame = ⟨.object,.comma⟩ ∧ mode = .comma) ∨ ∃ v, frame = ⟨.root,.ended⟩ ∧ mode = .done v := by
  unfold AtState at h
  split at h
  case h_9 => cases h
  all_goals simp

omit [JsNumber ν] in
theorem settled_object {outer : List TailFrame} {frames : List (JsonFrame ν)} (h : Settled (⟨.object,.comma⟩ :: outer) frames) :
    ∃ fields key rest, frames = .object fields key :: rest ∧ Settled outer rest := by
  cases frames with
  | nil => cases outer <;> cases h
  | cons frame rest =>
    cases frame with
    | array items => cases outer <;> cases h
    | object fields key => exact ⟨fields,key,rest,rfl,by cases outer <;> exact h⟩

omit [JsNumber ν] in
theorem settled_array {outer : List TailFrame} {frames : List (JsonFrame ν)} (h : Settled (⟨.array,.comma⟩ :: outer) frames) :
    ∃ items rest, frames = .array items :: rest ∧ Settled outer rest := by
  cases frames with
  | nil => cases outer <;> cases h
  | cons frame rest =>
    cases frame with
    | array items => exact ⟨items,rest,rfl,by cases outer <;> exact h⟩
    | object fields key => cases outer <;> cases h

theorem step_space {frame : TailFrame} {frames : List (JsonFrame ν)} {mode : JsonMode ν} (h : AtState frame mode) {u : UInt16}
    (hspace : isWhitespace u = true) : step ⟨frames,mode⟩ u = some ⟨frames,mode⟩ := by
  rcases atState_cases h with ⟨-,rfl⟩ | ⟨-,rfl⟩ | ⟨-,rfl⟩ | ⟨-,rfl⟩ | ⟨-,rfl⟩ | ⟨-,rfl⟩ | ⟨-,rfl⟩ | ⟨v,-,rfl⟩ <;>
    simp [step, afterValue, hspace]

variable (incompleteUtf8) in
/-- One round of the loop. -/
theorem scanStep_agrees {frames : List TailFrame} {s : JsonState ν} (h : Simulates frames s) (u : UInt16) (rest : Text) :
    Agrees incompleteUtf8 rest.length ((u :: rest).foldlM step s) (scanStep incompleteUtf8 frames u rest) := by
  cases frames with
  | nil => cases h
  | cons frame outer =>
    obtain ⟨jsonFrames,mode⟩ := s
    obtain ⟨hframes,hmode⟩ := h
    unfold scanStep
    rw [isJsonSpace_eq]
    by_cases hspace : isWhitespace u = true
    · rw [if_pos hspace]
      have hsim : Simulates (frame :: outer) (⟨jsonFrames,mode⟩ : JsonState ν) := ⟨hframes,hmode⟩
      exact agrees_step (step_space hmode hspace) hsim rest
    rw [if_neg hspace]
    rcases atState_cases hmode with ⟨hstate,rfl⟩ | ⟨rfl,rfl⟩ | ⟨rfl,rfl⟩ | ⟨rfl,rfl⟩ | ⟨rfl,rfl⟩ | ⟨rfl,rfl⟩ | ⟨rfl,rfl⟩ |
      ⟨v,rfl,rfl⟩
    · dsimp only
      rw [hstate]
      exact agrees_value (by simp [step, hspace]) hframes rest
    · obtain ⟨items,outerFrames,rfl,houter⟩ := settled_array hframes
      simp only [if_true]
      split_ifs with hclosing
      · refine agrees_step ?_ (simulates_complete houter (.array items)) rest
        simp [step, hspace, hclosing, close]
      · exact agrees_value (by simp [step, hspace, hclosing]) hframes rest
    · obtain ⟨fields,key,outerFrames,rfl,houter⟩ := settled_object hframes
      have hs : step (⟨.object fields key :: outerFrames,.key⟩ : JsonState ν) u =
          if u == 0x22 then some ⟨.object fields key :: outerFrames,.string true []⟩ else none := by simp [step, hspace]
      exact agrees_key rfl hs houter rest
    · obtain ⟨fields,key,outerFrames,rfl,houter⟩ := settled_object hframes
      simp only [reduceCtorEq, if_false]
      split_ifs with hclosing
      · refine agrees_step ?_ (simulates_complete houter (.object fields)) rest
        simp [step, hspace, hclosing, close]
      · have hs : step (⟨.object fields key :: outerFrames,.keyOrEnd⟩ : JsonState ν) u =
            if u == 0x22 then some ⟨.object fields key :: outerFrames,.string true []⟩ else none := by
          simp [step, hspace, hclosing]
        exact agrees_key rfl hs houter rest
    · dsimp only
      split_ifs with hcolon
      · have hsim : Simulates (⟨.object,.value⟩ :: outer) (⟨jsonFrames,.value⟩ : JsonState ν) := ⟨hframes,trivial⟩
        exact agrees_step (by simp [step, hspace, hcolon]) hsim rest
      · exact agrees_none (by simp [step, hspace, hcolon]) rest
    · obtain ⟨items,outerFrames,rfl,houter⟩ := settled_array hframes
      simp only [if_true]
      split_ifs with hclosing hcomma
      · have hne : (u == 0x2C) = false := by
          rw [beq_iff_eq] at hclosing
          subst hclosing
          decide
        refine agrees_step ?_ (simulates_complete houter (.array items)) rest
        simp [step, afterValue, hspace, hclosing, hne, close]
      · have hsim : Simulates (⟨.array,.value⟩ :: outer) (⟨.array items :: outerFrames,.value⟩ : JsonState ν) :=
          ⟨hframes,trivial⟩
        exact agrees_step (by simp [step, afterValue, hspace, hcomma]) hsim rest
      · exact agrees_none (by simp [step, afterValue, hspace, hcomma, hclosing]) rest
    · obtain ⟨fields,key,outerFrames,rfl,houter⟩ := settled_object hframes
      simp only [reduceCtorEq, if_false]
      split_ifs with hclosing hcomma
      · have hne : (u == 0x2C) = false := by
          rw [beq_iff_eq] at hclosing
          subst hclosing
          decide
        refine agrees_step ?_ (simulates_complete houter (.object fields)) rest
        simp [step, afterValue, hspace, hclosing, hne, close]
      · have hsim : Simulates (⟨.object,.key⟩ :: outer) (⟨.object fields key :: outerFrames,.key⟩ : JsonState ν) :=
          ⟨hframes,trivial⟩
        exact agrees_step (by simp [step, afterValue, hspace, hcomma]) hsim rest
      · exact agrees_none (by simp [step, afterValue, hspace, hcomma, hclosing]) rest
    · exact agrees_none (by simp [step, afterValue, hspace]) rest

omit [JsNumber ν] in
/-- The scan's only frame is the root's, and under it the machine has none. -/
theorem settled_root {frame : TailFrame} {frames : List (JsonFrame ν)} (h : Settled [frame] frames) :
    frame = ⟨.root,.ended⟩ ∧ frames = [] := by
  unfold Settled at h
  split at h
  case h_1 heq => exact ⟨List.singleton_injective heq,rfl⟩
  case h_2 heq =>
    cases heq
    cases h
  case h_3 heq =>
    cases heq
    cases h
  case h_4 => cases h

omit [JsNumber ν] in
theorem settled_nested {frame inner : TailFrame} {outer : List TailFrame} {frames : List (JsonFrame ν)}
    (h : Settled (frame :: inner :: outer) frames) : frames ≠ [] := by
  rintro rfl
  unfold Settled at h
  split at h <;> simp_all

omit [JsNumber ν] in
theorem not_inString {frame : TailFrame} {frames : List (JsonFrame ν)} {mode : JsonMode ν} (h : AtState frame mode) :
    ¬InString (⟨frames,mode⟩ : JsonState ν) := by
  rintro ⟨isKey,read,hmode⟩
  obtain rfl : mode = _ := hmode
  rcases atState_cases h with ⟨-,h⟩ | ⟨-,h⟩ | ⟨-,h⟩ | ⟨-,h⟩ | ⟨-,h⟩ | ⟨-,h⟩ | ⟨-,h⟩ | ⟨v,-,h⟩ <;> cases h

/-- At the end of the text the scan asks whether the root is done. -/
theorem scanEnd_agrees {frames : List TailFrame} {s : JsonState ν} (h : Simulates frames s) :
    (!incompleteUtf8 && (decide (frames.length > 1) || decide (frames.getLast?.map (·.state) ≠ some .ended))) = true ↔
      Verdict incompleteUtf8 (some s) := by
  cases frames with
  | nil => cases h
  | cons frame outer =>
    obtain ⟨jsonFrames,mode⟩ := s
    obtain ⟨hframes,hmode⟩ := h
    have hresult : result (⟨jsonFrames,mode⟩ : JsonState ν) = none ↔
        (decide ((frame :: outer).length > 1) || decide ((frame :: outer).getLast?.map (·.state) ≠ some .ended)) = true := by
      cases outer with
      | nil =>
        obtain ⟨hroot,hempty⟩ := settled_root hframes
        obtain rfl : jsonFrames = [] := hempty
        have hkind : frame.kind = .root := congrArg TailFrame.kind hroot
        rcases atState_cases hmode with ⟨hstate,rfl⟩ | ⟨rfl,rfl⟩ | ⟨rfl,rfl⟩ | ⟨rfl,rfl⟩ | ⟨rfl,rfl⟩ | ⟨rfl,rfl⟩ |
          ⟨rfl,rfl⟩ | ⟨v,rfl,rfl⟩
        · simp [result, hstate]
        · cases hkind
        · cases hkind
        · cases hkind
        · cases hkind
        · cases hkind
        · cases hkind
        · simp [result]
      | cons inner outer =>
        refine iff_of_true ?_ (by simp)
        cases hjson : jsonFrames with
        | nil => exact absurd hjson (settled_nested hframes)
        | cons => rfl
    rw [verdict_some]
    cases incompleteUtf8 <;> simp [not_inString hmode, hresult]

/-- The loop, from where the machine stands. -/
theorem scanFrames_iff {fuel : ℕ} {frames : List TailFrame} {s : JsonState ν} {text : Text} (hfuel : text.length < fuel)
    (h : Simulates frames s) :
    scanFrames incompleteUtf8 fuel frames text = true ↔ Verdict incompleteUtf8 (text.foldlM step s) := by
  induction fuel generalizing frames s text with
  | zero => omega
  | succ fuel ih =>
    cases text with
    | nil => exact scanEnd_agrees h
    | cons u rest =>
      have hagrees := scanStep_agrees incompleteUtf8 h u rest
      rw [List.length_cons] at hfuel
      unfold scanFrames
      cases hround : scanStep incompleteUtf8 frames u rest with
      | verdict truncated =>
        rw [hround] at hagrees
        exact hagrees
      | next frames' rest' =>
        rw [hround] at hagrees
        obtain ⟨hlength,s',hs',hverdict⟩ := hagrees
        exact (ih (by omega) hs').trans hverdict.symm

/-- What `truncatedJson` says of a text that is no JSON: it may be the beginning of one. -/
theorem truncatedJson_exact {text : Text} (h : Json.parse (ν := ν) text = none) :
    (truncatedJson false text true = true ↔ ∃ more, more ≠ [] ∧ (Json.parse (ν := ν) (text ++ more)).isSome = true) ∧
    (truncatedJson true text true = true ↔
      ∃ u more, 0x80 ≤ u ∧ (Json.parse (ν := ν) (text ++ u :: more)).isSome = true) := by
  have hscan : ∀ incompleteUtf8, truncatedJson incompleteUtf8 text true = true ↔
      Verdict incompleteUtf8 (reading ν text) := by
    intro incompleteUtf8
    rw [truncatedJson, Bool.true_and]
    exact scanFrames_iff (Nat.lt_succ_self _) ⟨trivial,trivial⟩
  constructor
  · rw [hscan, extends_iff h]
    cases hs : reading ν text with
    | none => exact iff_of_false (not_verdict_none _) (by simp)
    | some s =>
      refine iff_of_true (verdict_some.mpr ?_) rfl
      have hresult := h
      rw [Json.parse] at hresult
      change (reading ν text).bind result = none at hresult
      rw [hs] at hresult
      exact hresult
  · rw [hscan, extends_nonAscii_iff]
    rfl

/-- A number by its literal. -/
instance literalNumber : JsNumber Text where
  ofLiteral text := text
  isFinite _ := true
  isInteger text := text.all isDigit
  isNonnegative text := text.head? != some 0x2D
  toText text := text
  epochToIso _ := none

theorem truncatedJson_exact_object : Json.parse (ν := Text) (Text.of "\x7b\"a\":1") = none ∧
    truncatedJson false (Text.of "\x7b\"a\":1") true = true ∧
    (∃ more, more ≠ [] ∧ (Json.parse (ν := Text) (Text.of "\x7b\"a\":1" ++ more)).isSome = true) :=
  ⟨by decide,by decide,(truncatedJson_exact (ν := Text) (by decide)).1.mp (by decide)⟩

end Simulation
end OmniagentPlus.StateLedger
