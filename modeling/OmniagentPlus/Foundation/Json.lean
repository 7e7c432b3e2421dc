import OmniagentPlus.Foundation.Text

/-! JSON values over a type of numbers, and what the code asks of a number. -/
namespace OmniagentPlus.Foundation

inductive Json (ν : Type)
  | null
  | bool (b : Bool)
  | number (n : ν)
  | string (t : Text)
  | array (items : List (Json ν))
  | object (fields : List (Text × Json ν))

/-- A `Record<string, unknown>`: its own properties in order. -/
abbrev JsonRecord (ν : Type) := List (Text × Json ν)

/-- The numbers of the language: what a literal denotes, the tests and texts made of one, and
`new Date(n * 1000).toISOString()`, which throws out of range. -/
class JsNumber (ν : Type) where
  ofLiteral : Text → ν
  isFinite : ν → Bool
  isInteger : ν → Bool
  isNonnegative : ν → Bool
  toText : ν → Text
  epochToIso : ν → Option Text

/-- What the digits of a literal say. -/
def decimal (digits : Text) : ℕ := digits.foldl (fun n u => 10 * n + (u.toNat - 0x30)) 0

/-- The integers among the numbers, for literals without a fraction or an exponent. -/
instance integerNumber : JsNumber ℤ where
  ofLiteral literal := if literal.head? == some 0x2D then Int.negOfNat (decimal literal.tail) else Int.ofNat (decimal literal)
  isFinite _ := true
  isInteger _ := true
  isNonnegative n := decide (0 ≤ n)
  toText n := Text.of (toString n)
  epochToIso _ := none

namespace Json
variable {ν : Type}

/-- `record[key]`, `none` for `undefined`. -/
def field (record : JsonRecord ν) (key : String) : Option (Json ν) := record.lookup (Text.of key)

/-- The text of `typeof value === "string"`. -/
def asString : Option (Json ν) → Option Text
  | some (.string t) => some t
  | _ => none

/-- The object of `typeof value === "object" && value !== null && !Array.isArray(value)`. -/
def asRecord : Option (Json ν) → Option (JsonRecord ν)
  | some (.object fields) => some fields
  | _ => none

/-- `value === true`. -/
def isTrue : Option (Json ν) → Bool
  | some (.bool b) => b
  | _ => false

end Json

/-- An optional text that JavaScript takes for true. -/
def Text.truthy (t : Option Text) : Option Text := t.filter (fun s => !s.isEmpty)

theorem Text.truthy_eq_some {t : Option Text} {s : Text} : Text.truthy t = some s ↔ t = some s ∧ s ≠ [] := by
  simp [Text.truthy, Option.filter_eq_some_iff]

end OmniagentPlus.Foundation
