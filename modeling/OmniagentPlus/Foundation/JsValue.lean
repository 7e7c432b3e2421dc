import OmniagentPlus.Foundation.JsonParse

/-! Values in a running JavaScript program, as code that must not run any of theirs sees them. -/
namespace OmniagentPlus.Foundation

/-- An object or an array here has data properties only, an ordinary prototype or none, and no
function in it; `hidden` are the own properties that are not enumerable indices or names (those
without a name have a symbol). Everything else with an identity is `foreign`: functions, symbols,
bigints, proxies, and objects with accessors, methods, `toJSON` or another prototype; `isRecord`
says that `typeof` gives an object that is no array and no proxy. -/
inductive JsValue (ν : Type) where
  | undefined
  | null
  | bool (b : Bool)
  | number (n : ν)
  | string (t : Text)
  | array (items : List (Option (JsValue ν))) (hidden : List (Option Text × JsValue ν))
  | object (fields : List (Text × JsValue ν)) (hidden : List (Option Text × JsValue ν))
  | foreign (isRecord : Bool)

namespace JsValue
variable {ν : Type}

mutual

/-- What `JSON.parse` makes of a JSON value. -/
def ofJson : Json ν → JsValue ν
  | .null => null
  | .bool b => bool b
  | .number n => number n
  | .string t => string t
  | .array items => array (ofItems items) []
  | .object fields => object (ofFields fields) []

def ofItems : List (Json ν) → List (Option (JsValue ν))
  | [] => []
  | item :: items => some (ofJson item) :: ofItems items

def ofFields : List (Text × Json ν) → List (Text × JsValue ν)
  | [] => []
  | (key,value) :: fields => (key,ofJson value) :: ofFields fields

end

/-- `value.key` of an object without accessors. -/
def property : JsValue ν → String → JsValue ν
  | object fields hidden, key =>
    ((fields.lookup (Text.of key)).or (hidden.lookup (some (Text.of key)))).getD undefined
  | _, _ => undefined

/-- `key in value` -/
def hasProperty : JsValue ν → String → Bool
  | object fields hidden, key =>
    (fields.lookup (Text.of key)).isSome || (hidden.lookup (some (Text.of key))).isSome
  | _, _ => false

def isUndefined : JsValue ν → Bool
  | undefined => true
  | _ => false

def asString : JsValue ν → Option Text
  | string t => some t
  | _ => none

/-- `JSON.parse(text)` -/
def parse [JsNumber ν] (text : Text) : Option (JsValue ν) := (Json.parse text).map ofJson

end JsValue
end OmniagentPlus.Foundation
