import OmniagentPlus.Foundation.Json
import OmniagentPlus.Foundation.Dictionary

/-! `JSON.parse` as a machine that reads one code unit at a time: the open arrays and objects,
and the place in the innermost one. -/
namespace OmniagentPlus.Foundation

/-- What of a number has been read. -/
inductive NumberPart
  | minus
  | zero
  | integer
  | point
  | fraction
  | exponent
  | exponentSign
  | exponentDigits
  deriving DecidableEq, Repr

inductive JsonFrame (ν : Type)
  | array (items : List (Json ν))
  | object (fields : JsonRecord ν) (key : Text)

inductive JsonMode (ν : Type)
  | value
  | valueOrEnd
  | key
  | keyOrEnd
  | colon
  | comma
  | string (isKey : Bool) (read : Text)
  | escape (isKey : Bool) (read : Text)
  | hex (isKey : Bool) (read : Text) (digits : List ℕ)
  | literal (rest : Text) (result : Json ν)
  | number (part : NumberPart) (read : Text)
  | done (result : Json ν)

/-- The frames, innermost first, and where the machine is in the first. -/
structure JsonState (ν : Type) where
  frames : List (JsonFrame ν)
  mode : JsonMode ν

namespace JsonParse

/-- The code unit of an ASCII character. -/
abbrev unit (c : Char) : UInt16 := UInt16.ofNat c.toNat

def isWhitespace (u : UInt16) : Bool := u == 0x20 || u == 0x09 || u == 0x0A || u == 0x0D

def isDigit (u : UInt16) : Bool := decide (0x30 ≤ u) && decide (u ≤ 0x39)

def hexDigit (u : UInt16) : Option ℕ :=
  if isDigit u then some (u.toNat - 0x30)
  else if decide (0x61 ≤ u) && decide (u ≤ 0x66) then some (u.toNat - 0x61 + 10)
  else if decide (0x41 ≤ u) && decide (u ≤ 0x46) then some (u.toNat - 0x41 + 10)
  else none

/-- The unit that a one-letter escape stands for: quote, backslash, slash, b, f, n, r, t. -/
def simpleEscape (u : UInt16) : Option UInt16 :=
  if u == 0x22 || u == 0x5C || u == 0x2F then some u
  else if u == 0x62 then some 0x08
  else if u == 0x66 then some 0x0C
  else if u == 0x6E then some 0x0A
  else if u == 0x72 then some 0x0D
  else if u == 0x74 then some 0x09
  else none

def numberStart (u : UInt16) : Option NumberPart :=
  if u == 0x2D then some .minus else if u == 0x30 then some .zero else if isDigit u then some .integer else none

/-- The part of the number after one more unit. -/
def numberNext (part : NumberPart) (u : UInt16) : Option NumberPart :=
  let isExponent := u == 0x65 || u == 0x45
  match part with
  | .minus => if u == 0x30 then some .zero else if isDigit u then some .integer else none
  | .zero => if u == 0x2E then some .point else if isExponent then some .exponent else none
  | .integer =>
    if isDigit u then some .integer else if u == 0x2E then some .point
    else if isExponent then some .exponent else none
  | .point => if isDigit u then some .fraction else none
  | .fraction => if isDigit u then some .fraction else if isExponent then some .exponent else none
  | .exponent =>
    if u == 0x2B || u == 0x2D then some .exponentSign else if isDigit u then some .exponentDigits else none
  | .exponentSign => if isDigit u then some .exponentDigits else none
  | .exponentDigits => if isDigit u then some .exponentDigits else none

/-- A number may end here. -/
def numberEnds : NumberPart → Bool
  | .zero | .integer | .fraction | .exponentDigits => true
  | .minus | .point | .exponent | .exponentSign => false

variable {ν : Type}

/-- A value is complete: it goes into the innermost frame. A later field takes an earlier one's place. -/
def complete (frames : List (JsonFrame ν)) (v : Json ν) : JsonState ν :=
  match frames with
  | [] => ⟨[],.done v⟩
  | .array items :: frames => ⟨.array (items ++ [v]) :: frames,.comma⟩
  | .object fields key :: frames => ⟨.object (Dictionary.setEntry key v fields) key :: frames,.comma⟩

/-- The innermost frame is closed. -/
def close : List (JsonFrame ν) → Option (JsonState ν)
  | [] => none
  | .array items :: frames => some (complete frames (.array items))
  | .object fields _ :: frames => some (complete frames (.object fields))

/-- A string is complete: a key, or a value. -/
def endString (frames : List (JsonFrame ν)) (isKey : Bool) (read : Text) : Option (JsonState ν) :=
  if isKey then
    match frames with
    | .object fields _ :: frames => some ⟨.object fields read :: frames,.colon⟩
    | _ => none
  else some (complete frames (.string read))

def startValue (frames : List (JsonFrame ν)) (u : UInt16) : Option (JsonState ν) :=
  if u == 0x7B then some ⟨.object [] [] :: frames,.keyOrEnd⟩
  else if u == 0x5B then some ⟨.array [] :: frames,.valueOrEnd⟩
  else if u == 0x22 then some ⟨frames,.string false []⟩
  else if u == 0x74 then some ⟨frames,.literal (Text.of "rue") (.bool true)⟩
  else if u == 0x66 then some ⟨frames,.literal (Text.of "alse") (.bool false)⟩
  else if u == 0x6E then some ⟨frames,.literal (Text.of "ull") .null⟩
  else (numberStart u).map (fun part => ⟨frames,.number part [u]⟩)

/-- The unit after a complete value. -/
def afterValue (s : JsonState ν) (u : UInt16) : Option (JsonState ν) :=
  if isWhitespace u then some s
  else
    match s.mode, s.frames with
    | .comma, .array _ :: _ => if u == 0x2C then some ⟨s.frames,.value⟩ else if u == 0x5D then close s.frames else none
    | .comma, .object _ _ :: _ => if u == 0x2C then some ⟨s.frames,.key⟩ else if u == 0x7D then close s.frames else none
    | _, _ => none

variable [JsNumber ν]

/-- One code unit; `none` for a syntax error. -/
def step (s : JsonState ν) (u : UInt16) : Option (JsonState ν) :=
  match s.mode with
  | .value => if isWhitespace u then some s else startValue s.frames u
  | .valueOrEnd =>
    if isWhitespace u then some s else if u == 0x5D then close s.frames else startValue s.frames u
  | .key => if isWhitespace u then some s else if u == 0x22 then some ⟨s.frames,.string true []⟩ else none
  | .keyOrEnd =>
    if isWhitespace u then some s else if u == 0x7D then close s.frames
    else if u == 0x22 then some ⟨s.frames,.string true []⟩ else none
  | .colon => if isWhitespace u then some s else if u == 0x3A then some ⟨s.frames,.value⟩ else none
  | .comma | .done _ => afterValue s u
  | .string isKey read =>
    if u == 0x22 then endString s.frames isKey read
    else if u == 0x5C then some ⟨s.frames,.escape isKey read⟩
    else if u < 0x20 then none else some ⟨s.frames,.string isKey (read ++ [u])⟩
  | .escape isKey read =>
    if u == 0x75 then some ⟨s.frames,.hex isKey read []⟩
    else (simpleEscape u).map (fun v => ⟨s.frames,.string isKey (read ++ [v])⟩)
  | .hex isKey read digits =>
    (hexDigit u).map (fun d =>
      let digits := digits ++ [d]
      if digits.length = 4 then
        ⟨s.frames,.string isKey (read ++ [UInt16.ofNat (digits.foldl (fun n d => 16 * n + d) 0)])⟩
      else ⟨s.frames,.hex isKey read digits⟩)
  | .literal [] _ => none
  | .literal (c :: rest) v =>
    if u == c then (if rest.isEmpty then some (complete s.frames v) else some ⟨s.frames,.literal rest v⟩) else none
  | .number part read =>
    match numberNext part u with
    | some part => some ⟨s.frames,.number part (read ++ [u])⟩
    | none =>
      if numberEnds part then afterValue (complete s.frames (.number (JsNumber.ofLiteral read))) u else none

/-- The value where the text may end. -/
def result (s : JsonState ν) : Option (Json ν) :=
  match s.frames, s.mode with
  | [], .done v => some v
  | [], .number part read => if numberEnds part then some (.number (JsNumber.ofLiteral read)) else none
  | _, _ => none

end JsonParse

/-- `JSON.parse(text)`, `none` for a thrown `SyntaxError`. -/
def Json.parse {ν : Type} [JsNumber ν] (text : Text) : Option (Json ν) :=
  (text.foldlM JsonParse.step ⟨[],.value⟩).bind JsonParse.result

end OmniagentPlus.Foundation
