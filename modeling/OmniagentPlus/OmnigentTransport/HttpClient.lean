import OmniagentPlus.CoreContracts.StateMachines
import OmniagentPlus.Foundation.Utf8Encoding
import OmniagentPlus.OmnigentTransport.ProviderState

/-! The lists of `http-client.ts`: requests for JSON, the rows that are let through, and the loop over the pages of
a list. A reply is what `fetch` and the reading of its body give. -/
namespace OmniagentPlus.OmnigentTransport
open OmniagentPlus.Foundation OmniagentPlus.CoreContracts

inductive HttpReply (ν : Type)
  | lost
  | refused (statusCode : ℕ)
  | noContent
  | invalidJson
  | json (value : Json ν)

/-- What a call throws: an `OmnigentNetworkError`, an `OmnigentHttpError`, a `RuntimeFailure`, or the
`RangeError` of a date. -/
inductive HttpFailure (ν : Type)
  | network
  | http (method path : Text) (statusCode : ℕ)
  | runtime (failure : RuntimeFailure ν)
  | range

def OmnigentSessionStatus.tag : OmnigentSessionStatus → String
  | idle => "idle"
  | running => "running"
  | waiting => "waiting"
  | failed => "failed"

namespace OmnigentHttpClient

section Texts

/-- A byte of an escape, in capital digits. -/
def percentByte (b : UInt8) : Text :=
  let digit (n : ℕ) : UInt16 := UInt16.ofNat (if n < 10 then 0x30 + n else 0x37 + n)
  [0x25,digit (b.toNat / 16),digit (b.toNat % 16)]

def isAlphanumeric (b : UInt8) : Bool :=
  decide (0x30 ≤ b ∧ b ≤ 0x39) || decide (0x41 ≤ b ∧ b ≤ 0x5A) || decide (0x61 ≤ b ∧ b ≤ 0x7A)

/-- A value as `URLSearchParams` prints it: a surrogate alone is the replacement character. -/
def formEncoded (value : Text) : Text :=
  let scalars := value.codePoints.map fun n => if 0xD800 ≤ n ∧ n < 0xE000 then 0xFFFD else n
  (scalars.flatMap Utf8.encodePoint).flatMap fun b =>
    if isAlphanumeric b || [0x2A,0x2D,0x2E,0x5F].contains b then [b.toUInt16]
    else if b = 0x20 then [0x2B] else percentByte b

/-- `none` is the `URIError` of a surrogate alone. -/
def encodeURIComponent (value : Text) : Option Text :=
  if value.codePoints.any fun n => decide (0xD800 ≤ n ∧ n < 0xE000) then none
  else some (value.utf8.flatMap fun b =>
    if isAlphanumeric b || [0x21,0x27,0x28,0x29,0x2A,0x2D,0x2E,0x5F,0x7E].contains b then [b.toUInt16] else percentByte b)

variable {ν : Type} [JsNumber ν]

mutual

/-- `String(value)` -/
def stringOf : Json ν → Text
  | .null => Text.of "null"
  | .bool b => Text.of (toString b)
  | .number n => JsNumber.toText n
  | .string t => t
  | .array items => [0x2C].intercalate (stringsOf items)
  | .object _ => Text.of "[object Object]"

/-- The elements as `join` has them: null is empty. -/
def stringsOf : List (Json ν) → List Text
  | [] => []
  | .null :: items => [] :: stringsOf items
  | item :: items => stringOf item :: stringsOf items

end
end Texts

section Rows
variable {ν : Type}

def malformed (message : Text) : HttpFailure ν :=
  .runtime (createRuntimeFailure .provider .malformedResponse message false .session)

/-- `requestJson`; `none` is `undefined`. -/
def requestJson (method path : Text) : HttpReply ν → Except (HttpFailure ν) (Option (Json ν))
  | .lost => .error .network
  | .refused statusCode => .error (.http method path statusCode)
  | .noContent => .ok none
  | .invalidJson =>
    .error (.runtime (createRuntimeFailure .provider .malformedResponse
      (Text.of "Omnigent returned invalid JSON for " ++ method ++ Text.of " " ++ path ++ Text.of ".") false .request))
  | .json value => .ok (some value)

/-- `isRecord`, or a failure that names the kind of row. -/
def rowRecord (kind : String) (value : Json ν) : Except (HttpFailure ν) (JsonRecord ν) :=
  match Json.asRecord (some value) with
  | some record => .ok record
  | none => .error (malformed (Text.of ("Omnigent " ++ kind ++ " must be an object.")))

def requiredString (record : JsonRecord ν) (field : String) : Except (HttpFailure ν) Text :=
  match Text.truthy (Json.asString (Json.field record field)) with
  | some value => .ok value
  | none => .error (malformed (Text.of ("Omnigent response field " ++ field ++ " must be a non-empty string.")))

/-- A field that may be left out, else is of a type. -/
def optionalField (kind field what : String) (isOfType : Json ν → Bool) (record : JsonRecord ν) :
    Except (HttpFailure ν) Unit :=
  if (Json.field record field).all isOfType then .ok ()
  else .error (malformed (Text.of ("Omnigent " ++ kind ++ " field " ++ field ++ " must be a " ++ what ++ ".")))

def isNullOrString : Json ν → Bool
  | .null | .string _ => true
  | _ => false

def isBoolean : Json ν → Bool
  | .bool _ => true
  | _ => false

variable [JsNumber ν]

def epochToIso (record : JsonRecord ν) (field : String) : Except (HttpFailure ν) Text :=
  match Json.field record field with
  | some (.number n) =>
    if JsNumber.isFinite n then (JsNumber.epochToIso n).elim (.error .range) .ok
    else .error (malformed (Text.of ("Omnigent response field " ++ field ++ " must be a Unix epoch.")))
  | _ => .error (malformed (Text.of ("Omnigent response field " ++ field ++ " must be a Unix epoch.")))

def sessionStatus (record : JsonRecord ν) : Except (HttpFailure ν) OmnigentSessionStatus :=
  let value := Json.field record "status"
  match [OmnigentSessionStatus.idle,.running,.waiting,.failed].find? fun status =>
      Json.asString value == some (Text.of status.tag) with
  | some status => .ok status
  | none => .error (malformed (Text.of "Omnigent response field status has unsupported value " ++
      value.elim (Text.of "undefined") stringOf ++ Text.of "."))

def normalizeSessionListItem (value : Json ν) : Except (HttpFailure ν) (JsonRecord ν) := do
  let record ← rowRecord "session page row" value
  let _ ← requiredString record "id"
  let _ ← requiredString record "agent_id"
  let _ ← sessionStatus record
  let _ ← epochToIso record "created_at"
  let _ ← epochToIso record "updated_at"
  optionalField "session page row" "title" "string or null" isNullOrString record
  return record

def normalizeChildSessionSummary (value : Json ν) : Except (HttpFailure ν) (JsonRecord ν) := do
  let record ← rowRecord "child session page row" value
  let _ ← requiredString record "id"
  let _ ← requiredString record "parent_session_id"
  let _ ← epochToIso record "created_at"
  let _ ← epochToIso record "updated_at"
  optionalField "child session page row" "title" "string or null" isNullOrString record
  optionalField "child session page row" "busy" "boolean" isBoolean record
  optionalField "child session page row" "task_summary" "string or null" isNullOrString record
  return record

def normalizeConversationItem (value : Json ν) : Except (HttpFailure ν) (JsonRecord ν) := do
  let record ← rowRecord "conversation item" value
  let _ ← requiredString record "id"
  let _ ← requiredString record "response_id"
  let _ ← requiredString record "status"
  let _ ← requiredString record "type"
  let _ ← epochToIso record "created_at"
  return record

end Rows

section Pages
variable {ν ρ : Type} (path : Text) (normalizeRow : Json ν → Except (HttpFailure ν) ρ)

/-- The variables of the loop. -/
structure PageLoop (ρ : Type) where
  result : List ρ := []
  after : Option Text := none
  seenCursors : List Text := []

/-- `${path}?${query.toString()}` -/
def pagePath (after : Option Text) : Text :=
  path ++ Text.of "?limit=1000&order=asc" ++ after.elim [] fun cursor => Text.of "&after=" ++ formEncoded cursor

/-- The `data`, `has_more` and `last_id` of a page of which the first two are well formed. -/
def wirePage : Option (Json ν) → Option (List (Json ν) × Bool × Option (Json ν))
  | some (.object page) =>
    match Json.field page "data", Json.field page "has_more" with
    | some (.array data), some (.bool has_more) => some (data,has_more,Json.field page "last_id")
    | _, _ => none
  | _ => none

/-- What a turn of the loop does with a page: it returns, or the loop goes on. -/
def receivePage (s : PageLoop ρ) (page : Option (Json ν)) : Except (HttpFailure ν) (List ρ ⊕ PageLoop ρ) := do
  let (data,has_more,last_id) ← (wirePage page).elim
    (.error (malformed (Text.of "Omnigent paginated response for " ++ path ++ Text.of " is malformed."))) .ok
  let rows ← data.mapM normalizeRow
  let result := s.result ++ rows
  if !has_more then return .inl result
  match (Text.truthy (Json.asString last_id)).filter fun cursor => !data.isEmpty && !s.seenCursors.contains cursor with
  | none => throw (malformed (Text.of "Omnigent pagination for " ++ path ++ Text.of " did not advance."))
  | some cursor => return .inr ⟨result,some cursor,s.seenCursors ++ [cursor]⟩

/-- `requestAllPages` from its request number `turn` on; `fetch` has the replies to a request by its number and its
`after`, and `none` is a loop that goes on after `fuel` requests. -/
def requestPages (fetch : ℕ → Option Text → HttpReply ν) :
    ℕ → ℕ → PageLoop ρ → Option (Except (HttpFailure ν) (List ρ))
  | 0, _, _ => none
  | fuel + 1, turn, s =>
    match requestJson (Text.of "GET") (pagePath path s.after) (fetch turn s.after) >>= receivePage path normalizeRow s with
    | .error e => some (.error e)
    | .ok (.inl result) => some (.ok result)
    | .ok (.inr s) => requestPages fetch fuel (turn + 1) s

def requestAllPages (fetch : ℕ → Option Text → HttpReply ν) (fuel : ℕ) : Option (Except (HttpFailure ν) (List ρ)) :=
  requestPages path normalizeRow fetch fuel 0 {}

end Pages

section Lists
variable {ν : Type} [JsNumber ν] (fetch : Text → ℕ → Option Text → HttpReply ν) (fuel : ℕ)

def listSessions : Option (Except (HttpFailure ν) (List (JsonRecord ν))) :=
  requestAllPages (Text.of "/v1/sessions") normalizeSessionListItem (fetch (Text.of "/v1/sessions")) fuel

/-- The path of a session's list; the outer `none` is a `URIError`. -/
def sessionPath (sessionId : Text) (list : String) : Option Text :=
  (encodeURIComponent sessionId).map fun id => Text.of "/v1/sessions/" ++ id ++ Text.of list

def getHistory (sessionId : Text) : Option (Option (Except (HttpFailure ν) (List (JsonRecord ν)))) :=
  (sessionPath sessionId "/items").map fun path => requestAllPages path normalizeConversationItem (fetch path) fuel

def listChildSessions (sessionId : Text) : Option (Option (Except (HttpFailure ν) (List (JsonRecord ν)))) :=
  (sessionPath sessionId "/child_sessions").map fun path =>
    requestAllPages path normalizeChildSessionSummary (fetch path) fuel

end Lists
end OmnigentHttpClient
end OmniagentPlus.OmnigentTransport
