import OmniagentPlus.OmnigentTransport.SseNormalizer
import OmniagentPlus.Foundation.Delimited
import OmniagentPlus.Foundation.JsonParse
import OmniagentPlus.Foundation.Utf8

/-! `parseOmnigentSseStream`: bytes in chunks, decoded, cut into frames, and each frame's
payload normalized. However the bytes are cut into chunks, what comes out is the same. -/
namespace OmniagentPlus.OmnigentTransport
open OmniagentPlus.Foundation

inductive OmnigentSseSkipReason
  | invalidJson
  | invalidEventShape
  | nonObjectPayload
  | unknownEventType
  deriving DecidableEq, Repr

structure OmnigentSseSkip where
  payload : Text
  reason : OmnigentSseSkipReason
  deriving DecidableEq, Repr

/-- `/\r?\n/` at the start of a text. -/
def lineEnd : Text → Option ℕ
  | 0x0A :: _ => some 1
  | 0x0D :: 0x0A :: _ => some 2
  | _ => none

/-- `/\r?\n\r?\n/` at the start of a text. -/
def frameEnd (text : Text) : Option ℕ := (lineEnd text).bind (fun n => (lineEnd (text.drop n)).map (n + ·))

lemma lineEnd_eq_some {text : Text} {n : ℕ} (h : lineEnd text = some n) :
    (∃ rest, text = 0x0A :: rest ∧ n = 1) ∨ ∃ rest, text = 0x0D :: 0x0A :: rest ∧ n = 2 := by
  unfold lineEnd at h
  split at h
  · rename_i rest
    cases h
    exact .inl ⟨rest,rfl,rfl⟩
  · rename_i rest
    cases h
    exact .inr ⟨rest,rfl,rfl⟩
  · cases h

/-- A line end that is not there yet: nothing, or its first half. -/
lemma lineEnd_pending {text more : Text} {n : ℕ} (hnone : lineEnd text = none) (h : lineEnd (text ++ more) = some n) :
    text = [] ∨ text = [0x0D] := by
  match text with
  | [] => exact .inl rfl
  | [u] =>
    obtain ⟨rest,htext,_⟩ | ⟨rest,htext,_⟩ := lineEnd_eq_some h
    · rw [List.singleton_append, List.cons.injEq] at htext
      rw [htext.1] at hnone
      cases hnone
    · rw [List.singleton_append, List.cons.injEq] at htext
      exact .inr (by rw [htext.1])
  | u :: v :: text =>
    obtain ⟨rest,htext,_⟩ | ⟨rest,htext,_⟩ := lineEnd_eq_some h
    · rw [List.cons_append, List.cons.injEq] at htext
      rw [htext.1] at hnone
      cases hnone
    · rw [List.cons_append, List.cons_append, List.cons.injEq, List.cons.injEq] at htext
      rw [htext.1, htext.2.1] at hnone
      cases hnone

lemma lineEnd_stable {text : Text} {n : ℕ} (h : lineEnd text = some n) (more : Text) :
    lineEnd (text ++ more) = some n := by
  obtain ⟨rest,rfl,rfl⟩ | ⟨rest,rfl,rfl⟩ := lineEnd_eq_some h
  · rfl
  · rfl

lemma lineEnd_bounds {text : Text} {n : ℕ} (h : lineEnd text = some n) : 0 < n ∧ n ≤ text.length := by
  obtain ⟨rest,rfl,rfl⟩ | ⟨rest,rfl,rfl⟩ := lineEnd_eq_some h
  · simp
  · simp

lemma frameEnd_eq_some {text : Text} {n : ℕ} :
    frameEnd text = some n ↔ ∃ i j, lineEnd text = some i ∧ lineEnd (text.drop i) = some j ∧ i + j = n := by
  simp only [frameEnd, Option.bind_eq_some_iff, Option.map_eq_some_iff]
  constructor
  · rintro ⟨i,hi,j,hj,rfl⟩
    exact ⟨i,j,hi,hj,rfl⟩
  · rintro ⟨i,j,hi,hj,rfl⟩
    exact ⟨i,hi,j,hj,rfl⟩

/-- No blank line starts where fewer than two line ends are left. -/
lemma frameEnd_drop_none {text : Text} (h : text ∈ [[],[0x0D],[0x0A],[0x0D,0x0A],[0x0A,0x0D],[0x0D,0x0A,0x0D]]) (k : ℕ) :
    frameEnd (text.drop k) = none := by
  simp only [List.mem_cons, List.not_mem_nil, or_false] at h
  obtain rfl | rfl | rfl | rfl | rfl | rfl := h <;> match k with
    | 0 | 1 | 2 => rfl
    | k + 3 => rw [List.drop_of_length_le (by simp)]; rfl

theorem frameEnd_isDelimiter : IsDelimiter frameEnd where
  pos := by
    intro text n h
    obtain ⟨i,j,hi,hj,rfl⟩ := frameEnd_eq_some.mp h
    have := (lineEnd_bounds hi).1
    omega
  bound := by
    intro text n h
    obtain ⟨i,j,hi,hj,rfl⟩ := frameEnd_eq_some.mp h
    have hlast := (lineEnd_bounds hj).2
    have hfirst := (lineEnd_bounds hi).2
    rw [List.length_drop] at hlast
    omega
  stable := by
    intro text more n h
    obtain ⟨i,j,hi,hj,rfl⟩ := frameEnd_eq_some.mp h
    refine frameEnd_eq_some.mpr ⟨i,j,lineEnd_stable hi more,?_,rfl⟩
    rw [List.drop_append_of_le_length (lineEnd_bounds hi).2]
    exact lineEnd_stable hj more
  pending := by
    intro text more n hnone h
    apply frameEnd_drop_none
    obtain ⟨i,j,hi,hj,rfl⟩ := frameEnd_eq_some.mp h
    cases hline : lineEnd text with
    | none =>
      -- the first line end is cut
      obtain rfl | rfl := lineEnd_pending hline hi
      · simp
      · simp
    | some k =>
      -- the second line end is cut
      rw [lineEnd_stable hline more, Option.some.injEq] at hi
      subst hi
      rw [List.drop_append_of_le_length (lineEnd_bounds hline).2] at hj
      have hcut : lineEnd (text.drop k) = none := by
        cases hsecond : lineEnd (text.drop k) with
        | none => rfl
        | some l =>
          rw [frameEnd_eq_some.mpr ⟨k,l,hline,hsecond,rfl⟩] at hnone
          cases hnone
      have hrest := lineEnd_pending hcut hj
      obtain ⟨rest,rfl,rfl⟩ | ⟨rest,rfl,rfl⟩ := lineEnd_eq_some hline
      · obtain hrest | hrest := hrest
        · simp only [List.drop_succ_cons, List.drop_zero] at hrest
          simp [hrest]
        · simp only [List.drop_succ_cons, List.drop_zero] at hrest
          simp [hrest]
      · obtain hrest | hrest := hrest
        · simp only [List.drop_succ_cons, List.drop_zero] at hrest
          simp [hrest]
        · simp only [List.drop_succ_cons, List.drop_zero] at hrest
          simp [hrest]

section Payload
variable {ν : Type}

def hasValidEventShape (type : OmnigentStreamEventType) (value : JsonRecord ν) : Bool :=
  let isText := fun key => (stringValue (Json.field value key)).isSome
  let response := Json.asRecord (Json.field value "response")
  let nativeShape := (stringValue (optionalField response "id")).isSome
  let legacyNormalizedShape := (Json.field value "response").isNone && isText "id" && isText "sessionId" &&
    isText "occurredAt" && (booleanValue (Json.field value "terminal")).isSome
  match type with
  | .responseElicitationResolved =>
    isText "elicitation_id" &&
      match Json.field value "action" with
      | none | some .null => true
      | some (.string t) => decide (t ∈ ["accept","decline","cancel"].map Text.of)
      | some _ => false
  | .sessionPermissionMode => isText "conversation_id" && isText "permission_mode"
  | .sessionTitle => isText "conversation_id" && isText "title"
  | .responseFailed =>
    nativeShape || decide (Json.asString (optionalField response "status") = some (Text.of "failed")) ||
      legacyNormalizedShape
  | .responseCreated | .responseCompleted | .responseIncomplete | .responseCancelled =>
    nativeShape || legacyNormalizedShape
  | _ => true

def knownEventType (value : Option (Json ν)) : Option OmnigentStreamEventType :=
  (Json.asString value).bind (fun t => omnigentStreamEventTypes.find? (fun type => decide (Text.of type.tag = t)))

inductive FramePayload (ν : Type)
  | done
  | skipped (skip : OmnigentSseSkip)
  | tagged (event : OmnigentTaggedSseEvent ν)

variable [JsNumber ν]

def parseFramePayload (payload : Text) : FramePayload ν :=
  if payload = Text.of "[DONE]" then .done
  else
    match Json.parse (ν := ν) payload with
    | none => .skipped ⟨payload,.invalidJson⟩
    | some (.object parsed) =>
      match knownEventType (Json.field parsed "type") with
      | none => .skipped ⟨payload,.unknownEventType⟩
      | some type =>
        if hasValidEventShape type parsed then .tagged ⟨type,parsed⟩ else .skipped ⟨payload,.invalidEventShape⟩
    | some _ => .skipped ⟨payload,.nonObjectPayload⟩

end Payload

/-- The texts of the `data:` lines of a frame. -/
def dataLines (frame : Text) : List Text :=
  ((pieces lineEnd frame).filter (Text.of "data:").isPrefixOf).map (fun line => Text.trim (line.drop 5))

inductive SseOutput (ν : Type)
  | event (event : OmnigentRawEvent ν)
  | skip (skip : OmnigentSseSkip)

section Stream
variable {ν : Type} [JsNumber ν] (now : Text)

/-- `parseFrame`: the normalizer it leaves and what comes out, `none` where it throws. -/
def parseFrame (n : OmnigentSseNormalizer) (frame : Text) : OmnigentSseNormalizer × Option (List (SseOutput ν)) :=
  match dataLines frame with
  | [] => (n,some [])
  | lines =>
    match parseFramePayload ([0x0A].intercalate lines) with
    | .done => (n,some [])
    | .skipped skip => (n,some [.skip skip])
    | .tagged tagged => ((n.normalize tagged now).1,(n.normalize tagged now).2.map (fun event => [.event event]))

/-- The normalizer, and whether a frame has thrown; after that no other is read. -/
structure FrameReader where
  normalizer : OmnigentSseNormalizer
  threw : Bool

def handleFrame (r : FrameReader) (frame : Text) : FrameReader × List (SseOutput ν) :=
  if r.threw then (r,[])
  else
    match parseFrame now r.normalizer frame with
    | (n,none) => (⟨n,true⟩,[])
    | (n,some outputs) => (⟨n,false⟩,outputs)

/-- The decoder, the buffer and the reader of frames. -/
abbrev StreamReader := (TextDecoder × Text) × FrameReader

/-- One `reader.read()`: the bytes are decoded, put behind the buffer, and whole frames are handled. -/
def readBytes : StreamReader → List UInt8 → StreamReader × List (SseOutput ν) :=
  pipe (pipe TextDecoder.decodeChunk (readChunk frameEnd)) (handleFrame now)

/-- The end of the stream: the decoder is flushed, and what the buffer then holds is the last frame. -/
def finishStream (s : StreamReader) : FrameReader × List (SseOutput ν) :=
  let chunk := readChunk frameEnd s.1.2 s.1.1.flush
  let handled := emitAll (handleFrame (ν := ν) now) s.2 chunk.2
  let last := handleFrame (ν := ν) now handled.1 chunk.1
  if (Text.trim chunk.1).isEmpty then handled else (last.1,handled.2 ++ last.2)

/-- The events and the skipped frames in order, the normalizer at the end, and whether it threw. -/
def parseOmnigentSseStream (normalizer : OmnigentSseNormalizer) (chunks : List (List UInt8)) :
    FrameReader × List (SseOutput ν) :=
  let read := emitAll (readBytes (ν := ν) now) (({},[]),⟨normalizer,false⟩) chunks
  let finished := finishStream (ν := ν) now read.1
  (finished.1,read.2 ++ finished.2)

/-- Reading in parts is reading the whole: the decoder, the buffer and the frames handled do not
depend on the cuts. -/
lemma emitAll_readBytes (d : TextDecoder) {buffer : Text} (hbuffer : pieces frameEnd buffer = [buffer]) (r : FrameReader)
    (chunks : List (List UInt8)) : emitAll (readBytes (ν := ν) now) ((d,buffer),r) chunks =
      let whole := readChunk frameEnd buffer (d.decode chunks.flatten).2
      ((((d.decode chunks.flatten).1,whole.1),(emitAll (handleFrame (ν := ν) now) r whole.2).1),
        (emitAll (handleFrame now) r whole.2).2) := by
  obtain ⟨hstate,htext⟩ := d.emitAll_decodeChunk chunks
  simp only [readBytes, emitAll_pipe, emitAll_readChunk frameEnd_isDelimiter hbuffer, hstate, htext, readChunk]

/-- The same bytes give the same events and skipped frames, in whatever chunks they come. -/
theorem parseOmnigentSseStream_chunks (normalizer : OmnigentSseNormalizer) (chunks : List (List UInt8)) :
    parseOmnigentSseStream (ν := ν) now normalizer chunks = parseOmnigentSseStream now normalizer [chunks.flatten] := by
  have hempty : pieces frameEnd ([] : Text) = [[]] := rfl
  simp only [parseOmnigentSseStream, emitAll_readBytes now {} hempty, List.flatten_cons, List.flatten_nil,
    List.append_nil]

end Stream
end OmniagentPlus.OmnigentTransport
