import OmniagentPlus.StateLedger.LedgerSnapshot
import OmniagentPlus.StateLedger.TruncatedTail
import OmniagentPlus.Foundation.Delimited
import OmniagentPlus.Foundation.JsonRoundTrip

/-! `parseBytes` of `ledger-snapshot.ts` and `writableRecords` of `append-only-store.ts` on the bytes of
a ledger file, and what they make of an append that was cut short at any byte. -/
namespace OmniagentPlus.StateLedger
open OmniagentPlus.Foundation OmniagentPlus.CoreContracts

/-- A `LedgerReadError` with its place. -/
structure LedgerFailure where
  code : LedgerReadError
  byteOffset : Option ℕ
  deriving DecidableEq, Repr

/-- `stateLedgerRecordSchema.safeParse`, and `version > CURRENT_STATE_LEDGER_SCHEMA_VERSION`. -/
structure LedgerReader (ν : Type) where
  schema : Json ν → Option StateLedgerEntry
  newer : ν → Bool

/-- The ledger that `writableRecords` leaves, and the bytes that it saved under `.recovery`. -/
structure WritableLedger where
  records : List StateLedgerEntry
  truncations : ℕ
  ledger : List UInt8
  saved : Option (List UInt8)
  deriving DecidableEq, Repr

namespace LedgerBytes

/-- A newline at the front. -/
def newlineAt : List UInt8 → Option ℕ
  | [] => none
  | b :: _ => if b = 10 then some 1 else none

section Reading
variable {ν : Type} [JsNumber ν] (reader : LedgerReader ν)

/-- `"schemaVersion" in json` with a number that is too high. -/
def unsupported (json : Json ν) : Bool :=
  match (Json.asRecord (some json)).bind (fun fields => Json.field fields "schemaVersion") with
  | some (.number version) => reader.newer version
  | _ => false

/-- `parseRecord` behind `JSON.parse`. -/
def parseRecord (m : Parsed) (json : Json ν) : Except LedgerReadError Parsed :=
  if unsupported reader json then .error .unsupportedSchema
  else match reader.schema json with
    | none => .error .ledgerCorruption
    | some entry =>
      if entry.schemaVersion != currentStateLedgerSchemaVersion || decide (maxSafeInteger < entry.sequence) ||
          decide (entry.sequence ≤ m.lastSequence) || m.ids.contains entry.recordId then .error .ledgerCorruption
      else match normalizeLedgerScope entry with
        | none => .error .ledgerCorruption
        | some record => .ok ⟨m.records ++ [record],m.ids ++ [record.recordId],record.sequence⟩

/-- One line, at its place in the file. -/
def parseLine (m : Parsed) (offset : ℕ) (line : List UInt8) : Except LedgerFailure Parsed :=
  match Utf8.decodeFatal line with
  | none => .error ⟨.ledgerCorruption,some offset⟩
  | some text =>
    if text.trim.isEmpty then .ok m
    else match Json.parse text with
      | none => .error ⟨.ledgerCorruption,some offset⟩
      | some json => (parseRecord reader m json).mapError (fun code => ⟨code,some offset⟩)

def parseLines (m : Parsed) (offset : ℕ) : List (List UInt8) → Except LedgerFailure Parsed
  | [] => .ok m
  | line :: lines => (parseLine reader m offset line).bind fun m => parseLines m (offset + line.length + 1) lines

/-- What follows the last newline: `none` for an incomplete tail, else what has been parsed with it. -/
def parseTail (m : Parsed) (offset : ℕ) (tail : List UInt8) : Except LedgerFailure (Option Parsed) :=
  match Utf8.decodeStream tail with
  | none => .error ⟨.ledgerCorruption,some offset⟩
  | some (text,incompleteUtf8) =>
    match incompleteUtf8, Json.parse (ν := ν) text with
    | true, json => if truncatedJson true text json.isNone then .ok none else .error ⟨.ledgerCorruption,some offset⟩
    | false, none => if truncatedJson false text true then .ok none else .error ⟨.ledgerCorruption,some offset⟩
    | false, some json =>
      ((parseRecord reader m json).map some).mapError (fun code => ⟨code,some offset⟩)

def parseBytes (raw : List UInt8) : Except LedgerFailure LedgerSnapshot :=
  let tail := leftover newlineAt raw
  (parseLines reader ⟨[],[],0⟩ 0 (complete newlineAt raw)).bind fun m =>
    if tail.isEmpty then .ok ⟨true,m.records,raw.length,raw.length,m.lastSequence,none⟩
    else (parseTail reader m (raw.length - tail.length) tail).map fun pending =>
      ⟨false,m.records,raw.length,raw.length - tail.length,(pending.getD m).lastSequence,
        pending.bind (fun n => n.records.getLast?)⟩

/-- `readSnapshot` of a ledger file at rest. -/
def readSnapshot (maxSnapshotBytes : ℕ) (raw : List UInt8) : Except LedgerFailure LedgerSnapshot :=
  if maxSnapshotBytes < raw.length then .error ⟨.snapshotLimit,none⟩ else parseBytes reader raw

/-- `writableRecords`: a missing newline is written; an incomplete tail is saved and cut off. -/
def writableRecords (maxSnapshotBytes : ℕ) (raw : List UInt8) : Except LedgerFailure WritableLedger :=
  (readSnapshot reader maxSnapshotBytes raw).bind fun snapshot =>
    if snapshot.complete then .ok ⟨snapshot.records,0,raw,none⟩
    else match snapshot.pendingRecord with
      | some record =>
        if maxSnapshotBytes < snapshot.byteLength + 1 then .error ⟨.snapshotLimit,none⟩
        else .ok ⟨snapshot.records ++ [record],0,raw ++ [10],none⟩
      | none =>
        .ok ⟨snapshot.records,1,raw.take snapshot.completeBytes,
          some ((raw.drop snapshot.completeBytes).take (snapshot.byteLength - snapshot.completeBytes))⟩

end Reading

section Writing
variable {ν : Type} [JsNumber ν]

/-- `JSON.stringify(record)` -/
def recordText (record : JsonRecord ν) : Text := JsonStringify.compact (.object record)

/-- The bytes that an append writes. -/
def serialized (record : JsonRecord ν) : List UInt8 := Text.utf8 (recordText record ++ [0x0A])

end Writing

section Lines

theorem newlineAt_cons (b : UInt8) (bytes : List UInt8) : newlineAt (b :: bytes) = if b = 10 then some 1 else none := rfl

theorem newlineAt_isDelimiter : IsDelimiter newlineAt where
  pos := by
    intro xs n h
    cases xs with
    | nil => cases h
    | cons b xs =>
      rw [newlineAt_cons] at h
      split_ifs at h
      cases h
      exact Nat.one_pos
  bound := by
    intro xs n h
    cases xs with
    | nil => cases h
    | cons b xs =>
      rw [newlineAt_cons] at h
      split_ifs at h
      cases h
      simp
  stable := by
    intro xs ys n h
    cases xs with
    | nil => cases h
    | cons b xs => exact h
  pending := by
    intro xs ys n hnone h k
    cases xs with
    | nil => rw [List.drop_nil, newlineAt]
    | cons b xs =>
      rw [List.cons_append, newlineAt_cons, ← newlineAt_cons b xs, hnone] at h
      cases h

lemma newlineAt_none {bytes : List UInt8} (h : (10 : UInt8) ∉ bytes) (k : ℕ) : newlineAt (bytes.drop k) = none := by
  cases hdrop : bytes.drop k with
  | nil => rfl
  | cons b rest =>
    have hb : b ∈ bytes := List.mem_of_mem_drop (hdrop ▸ List.mem_cons_self)
    rw [newlineAt, if_neg]
    rintro rfl
    exact h hb

/-- Bytes without a newline are no line, and all of them are left over. -/
lemma pieces_tail {tail : List UInt8} (h : (10 : UInt8) ∉ tail) :
    complete newlineAt tail = [] ∧ leftover newlineAt tail = tail := by
  have hpieces : pieces newlineAt tail = [tail] := pieces_eq_self (newlineAt_none h)
  simp only [complete, leftover, hpieces]
  exact ⟨rfl,rfl⟩

/-- With a newline they are a line. -/
lemma pieces_line {line : List UInt8} (h : (10 : UInt8) ∉ line) :
    complete newlineAt (line ++ [10]) = [line] ∧ leftover newlineAt (line ++ [10]) = [] := by
  have hpieces : pieces newlineAt (line ++ [10]) = [line,[]] := by
    induction line with
    | nil => rfl
    | cons b line ih =>
      rw [List.mem_cons, not_or] at h
      have hnone : newlineAt (b :: (line ++ [10])) = none := by rw [newlineAt, if_neg (Ne.symm h.1)]
      have hrest := ih h.2
      rw [pieces, List.cons.injEq] at hrest
      rw [List.cons_append, pieces_of_none hnone, hrest.1, hrest.2]
  simp only [complete, leftover, hpieces]
  exact ⟨rfl,rfl⟩

end Lines

section Ledgers
variable {ν : Type} [JsNumber ν] {reader : LedgerReader ν}

omit [JsNumber ν] in
lemma parseRecord_parsed {rs : List StateLedgerEntry} {json : Json ν} {m : Parsed}
    (h : parseRecord reader (parsed rs) json = .ok m) : m = parsed m.records := by
  unfold parseRecord at h
  split_ifs at h
  split at h
  · cases h
  · split_ifs at h
    split at h
    · cases h
    · cases h
      simp [parsed, lastSequence_append]

lemma parseLine_parsed {rs : List StateLedgerEntry} {offset : ℕ} {line : List UInt8} {m : Parsed}
    (h : parseLine reader (parsed rs) offset line = .ok m) : m = parsed m.records := by
  unfold parseLine at h
  split at h
  · cases h
  · split_ifs at h
    · cases h
      rfl
    · split at h
      · cases h
      · rename_i json _
        cases hrecord : parseRecord reader (parsed rs) json with
        | error code =>
          rw [hrecord] at h
          cases h
        | ok n =>
          rw [hrecord] at h
          cases h
          exact parseRecord_parsed hrecord

lemma parseLines_parsed {rs : List StateLedgerEntry} {offset : ℕ} {lines : List (List UInt8)} {m : Parsed}
    (h : parseLines reader (parsed rs) offset lines = .ok m) : m = parsed m.records := by
  induction lines generalizing rs offset with
  | nil =>
    cases h
    rfl
  | cons line lines ih =>
    rw [parseLines] at h
    cases hline : parseLine reader (parsed rs) offset line with
    | error failure =>
      rw [hline] at h
      cases h
    | ok n =>
      rw [hline] at h
      rw [parseLine_parsed hline] at h
      exact ih h

/-- Lines behind others are parsed from where these end. -/
lemma parseLines_append {m n : Parsed} {offset : ℕ} {lines : List (List UInt8)}
    (h : parseLines reader m offset lines = .ok n) (more : List (List UInt8)) :
    ∃ offset', parseLines reader m offset (lines ++ more) = parseLines reader n offset' more := by
  induction lines generalizing m offset with
  | nil =>
    cases h
    exact ⟨offset,rfl⟩
  | cons line lines ih =>
    rw [parseLines] at h
    cases hline : parseLine reader m offset line with
    | error failure =>
      rw [hline] at h
      cases h
    | ok next =>
      rw [hline] at h
      obtain ⟨offset',hmore⟩ := ih h
      refine ⟨offset',?_⟩
      rw [List.cons_append, parseLines, hline]
      exact hmore

/-- What the reader asks of a record behind others. -/
structure Accepted (reader : LedgerReader ν) (prior : List StateLedgerEntry) (record : JsonRecord ν)
    (entry : StateLedgerEntry) : Prop where
  supported : unsupported reader (.object record) = false
  normalized : ∃ parsed, reader.schema (.object record) = some parsed ∧ normalizeLedgerScope parsed = some entry
  version : entry.schemaVersion = currentStateLedgerSchemaVersion
  safe : entry.sequence ≤ maxSafeInteger
  later : lastSequence prior < entry.sequence
  fresh : entry.recordId ∉ prior.map (·.recordId)

omit [JsNumber ν] in
lemma Accepted.parseRecord {prior : List StateLedgerEntry} {record : JsonRecord ν} {entry : StateLedgerEntry}
    (h : Accepted reader prior record entry) :
    parseRecord reader (parsed prior) (.object record) = .ok (parsed (prior ++ [entry])) := by
  obtain ⟨entry',hschema,hnormal⟩ := h.normalized
  obtain ⟨hid,hsequence,hversion,-⟩ := normalizeLedgerScope_eq hnormal
  have hpass : (entry'.schemaVersion != currentStateLedgerSchemaVersion || decide (maxSafeInteger < entry'.sequence) ||
      decide (entry'.sequence ≤ (parsed prior).lastSequence) || (parsed prior).ids.contains entry'.recordId) = false := by
    rw [← hid, ← hsequence, ← hversion, h.version]
    have hsafe := h.safe
    have hlater := h.later
    have hfresh := h.fresh
    simp only [bne_self_eq_false, Bool.false_or, Bool.or_eq_false_iff, decide_eq_false_iff_not, Nat.not_lt, Nat.not_le]
    refine ⟨⟨hsafe,hlater⟩,?_⟩
    simpa [parsed] using hfresh
  rw [LedgerBytes.parseRecord, h.supported, if_neg Bool.false_ne_true, hschema]
  dsimp only
  rw [hpass, if_neg Bool.false_ne_true, hnormal]
  simp [parsed, lastSequence_append]

section Records
variable {record : JsonRecord ν}

/-- The text of a record between its braces. -/
lemma recordText_eq (record : JsonRecord ν) : ∃ inner, recordText record = 0x7B :: (inner ++ [0x7D]) := by
  rw [recordText, JsonStringify.compact]
  exact ⟨_,rfl⟩

lemma recordText_unmarked (record : JsonRecord ν) : (recordText record).head? ≠ some 0xFEFF := by
  obtain ⟨inner,htext⟩ := recordText_eq record
  rw [htext, List.head?_cons]
  decide

lemma recordText_trim (record : JsonRecord ν) : (recordText record).trim.isEmpty = false := by
  obtain ⟨inner,htext⟩ := recordText_eq record
  have hopen : Text.isSpace 0x7B = false := by decide
  have hclose : ¬Text.isSpace 0x7D = true := by decide
  rw [htext, Text.trim, List.dropWhile_cons_of_neg (by simp [hopen]), ← List.cons_append,
    List.rdropWhile_concat_neg _ _ _ hclose]
  rfl

variable (hreadable : JsonParse.Readable (.object record))
include hreadable

lemma newline_notMem : (10 : UInt8) ∉ (recordText record).utf8 := by
  have hplain := JsonParse.plain_compact hreadable
  intro hmem
  have hunit := hplain.2 _ (Utf8.mem_of_mem_utf8 hplain.1 (by decide) hmem)
  exact absurd hunit (by decide)

lemma serialized_eq : serialized record = (recordText record).utf8 ++ [10] := by
  have hplain : JsonParse.Plain (recordText record) := JsonParse.plain_compact hreadable
  rw [serialized, Utf8.utf8_append hplain.1]
  rfl

lemma decodeStream_record : Utf8.decodeStream (recordText record).utf8 = some (recordText record,false) :=
  Utf8.decodeStream_utf8 (JsonParse.plain_compact hreadable).1 (recordText_unmarked record)

lemma recordBytes_ne_nil : (recordText record).utf8 ≠ [] := by
  intro hnil
  have hdecode := decodeStream_record hreadable
  rw [hnil] at hdecode
  have htext : [] = recordText record := congrArg Prod.fst (Option.some.inj hdecode)
  obtain ⟨inner,hinner⟩ := recordText_eq record
  rw [hinner] at htext
  cases htext

variable {prior : List StateLedgerEntry} {entry : StateLedgerEntry}

lemma parseLine_record (h : Accepted reader prior record entry) (offset : ℕ) :
    parseLine reader (parsed prior) offset (recordText record).utf8 = .ok (parsed (prior ++ [entry])) := by
  have hdecode : Utf8.decodeFatal (recordText record).utf8 = some (recordText record) := by
    rw [Utf8.decodeFatal, decodeStream_record hreadable]
    rfl
  have hparse : Json.parse (recordText record) = some (.object record) := JsonParse.parse_compact hreadable
  rw [parseLine, hdecode]
  dsimp only
  rw [recordText_trim, if_neg Bool.false_ne_true, hparse]
  dsimp only
  rw [h.parseRecord]
  rfl

lemma parseTail_record (h : Accepted reader prior record entry) (offset : ℕ) :
    parseTail reader (parsed prior) offset (recordText record).utf8 = .ok (some (parsed (prior ++ [entry]))) := by
  have hparse : Json.parse (recordText record) = some (.object record) := JsonParse.parse_compact hreadable
  rw [parseTail, decodeStream_record hreadable]
  dsimp only
  rw [hparse]
  dsimp only
  rw [h.parseRecord]
  rfl

/-- A part of a record's bytes is an incomplete tail. -/
lemma parseTail_cut {cut : List UInt8} (hcut : cut <+: (recordText record).utf8) (hne : cut ≠ (recordText record).utf8)
    (m : Parsed) (offset : ℕ) : parseTail reader m offset cut = .ok none := by
  have hparse : Json.parse (recordText record) = some (.object record) := JsonParse.parse_compact hreadable
  obtain ⟨front,rest,htext,hcase⟩ :=
    Utf8.decodeStream_cut (JsonParse.plain_compact hreadable).1 (recordText_unmarked record) hcut
  change recordText record = front ++ rest at htext
  have hwhole : (Json.parse (ν := ν) (front ++ rest)).isSome = true := by rw [← htext, hparse]; rfl
  have hrest : rest ≠ [] := by
    rintro rfl
    obtain ⟨rfl,-⟩ | ⟨u,more,hnil,-⟩ := hcase
    · rw [htext, List.append_nil] at hne
      exact hne rfl
    · cases hnil
  have hbrace : (0x7D : UInt16) ∈ rest := by
    obtain ⟨inner,hinner⟩ := recordText_eq record
    have hlast : (recordText record).getLast? = some 0x7D := by
      rw [hinner, ← List.cons_append, List.getLast?_concat]
    rw [htext, List.getLast?_append_of_ne_nil _ hrest] at hlast
    exact List.mem_of_getLast? hlast
  have hfront : Json.parse (ν := ν) front = none := JsonParse.parse_front hbrace hwhole
  obtain ⟨hexact,hexact'⟩ := truncatedJson_exact hfront
  obtain ⟨-,hdecode⟩ | ⟨u,more,rfl,hu,hdecode⟩ := hcase
  · rw [parseTail, hdecode]
    dsimp only
    rw [hfront]
    dsimp only
    rw [hexact.mpr ⟨rest,hrest,hwhole⟩, if_pos rfl]
  · rw [parseTail, hdecode]
    dsimp only
    rw [hfront, Option.isNone_none, hexact'.mpr ⟨u,more,hu,hwhole⟩, if_pos rfl]

end Records

section Append
variable {raw : List UInt8} {prior : List StateLedgerEntry}

/-- The bytes are whole lines that read as these records. -/
def Holds (reader : LedgerReader ν) (raw : List UInt8) (prior : List StateLedgerEntry) : Prop :=
  leftover newlineAt raw = [] ∧ parseLines reader (parsed []) 0 (complete newlineAt raw) = .ok (parsed prior)

lemma parseBytes_holds (h : Holds reader raw prior) :
    parseBytes reader raw = .ok ⟨true,prior,raw.length,raw.length,lastSequence prior,none⟩ := by
  have hlines : parseLines reader ⟨[],[],0⟩ 0 (complete newlineAt raw) = .ok (parsed prior) := h.2
  rw [parseBytes, h.1, hlines]
  rfl

lemma holds_of_parseBytes {snapshot : LedgerSnapshot} (h : parseBytes reader raw = .ok snapshot)
    (hcomplete : snapshot.complete = true) : Holds reader raw snapshot.records := by
  unfold parseBytes at h
  cases hlines : parseLines reader ⟨[],[],0⟩ 0 (complete newlineAt raw) with
  | error failure =>
    rw [hlines] at h
    cases h
  | ok m =>
    rw [hlines] at h
    dsimp only [Except.bind] at h
    have hm : m = parsed m.records := @parseLines_parsed ν _ reader [] 0 _ m hlines
    split_ifs at h with htail
    · cases h
      refine ⟨List.isEmpty_iff.mp htail,?_⟩
      rw [← hm]
      exact hlines
    · cases hpending : parseTail reader m (raw.length - (leftover newlineAt raw).length) (leftover newlineAt raw) with
      | error failure =>
        rw [hpending] at h
        cases h
      | ok pending =>
        rw [hpending] at h
        cases h
        cases hcomplete

/-- A line behind whole lines. -/
lemma Holds.line (h : Holds reader raw prior) {line : List UInt8} (hline : (10 : UInt8) ∉ line) {next : List StateLedgerEntry}
    (hnext : ∀ offset, parseLine reader (parsed prior) offset line = .ok (parsed next)) :
    Holds reader (raw ++ (line ++ [10])) next := by
  obtain ⟨hcomplete,hleft⟩ := pieces_line hline
  constructor
  · rw [leftover_append newlineAt_isDelimiter, h.1, List.nil_append, hleft]
  · obtain ⟨offset,hmore⟩ := parseLines_append h.2 [line]
    rw [complete_append newlineAt_isDelimiter, h.1, List.nil_append, hcomplete, hmore, parseLines, hnext]
    rfl

/-- A tail behind whole lines. -/
lemma parseBytes_tail (h : Holds reader raw prior) {tail : List UInt8} (htail : (10 : UInt8) ∉ tail) (hne : tail ≠ []) :
    parseBytes reader (raw ++ tail) = (parseTail reader (parsed prior) raw.length tail).map fun pending =>
      ⟨false,prior,(raw ++ tail).length,raw.length,(pending.getD (parsed prior)).lastSequence,
        pending.bind (fun n => n.records.getLast?)⟩ := by
  obtain ⟨hcomplete,hleft⟩ := pieces_tail htail
  have hlines : parseLines reader ⟨[],[],0⟩ 0 (complete newlineAt (raw ++ tail)) = .ok (parsed prior) := by
    rw [complete_append newlineAt_isDelimiter, h.1, List.nil_append, hcomplete, List.append_nil]
    exact h.2
  have hlength : (raw ++ tail).length - tail.length = raw.length := by rw [List.length_append, Nat.add_sub_cancel]
  rw [parseBytes, leftover_append newlineAt_isDelimiter, h.1, List.nil_append, hleft, hlines, hlength]
  dsimp only [Except.bind]
  rw [if_neg (by simpa using hne)]
  rfl

/-- What `writableRecords` makes of a ledger: the records, and no byte lost that is not saved. -/
structure Recovers (reader : LedgerReader ν) (maxSnapshotBytes : ℕ) (found : List UInt8) (expected : List StateLedgerEntry)
    (writable : WritableLedger) : Prop where
  returned : writableRecords reader maxSnapshotBytes found = .ok writable
  records : writable.records = expected
  saved : (writable.saved = none ∧ found <+: writable.ledger) ∨
    ∃ saved, writable.saved = some saved ∧ found = writable.ledger ++ saved
  reads : ∃ snapshot, parseBytes reader writable.ledger = .ok snapshot ∧ snapshot.complete = true ∧
    snapshot.records = expected

variable {maxSnapshotBytes : ℕ} {record : JsonRecord ν} {entry : StateLedgerEntry}

lemma Holds.recovers (h : Holds reader raw prior) (hroom : raw.length ≤ maxSnapshotBytes) :
    Recovers reader maxSnapshotBytes raw prior ⟨prior,0,raw,none⟩ where
  returned := by
    rw [writableRecords, readSnapshot, if_neg (Nat.not_lt.mpr hroom), parseBytes_holds h]
    rfl
  records := rfl
  saved := Or.inl ⟨rfl,List.prefix_rfl⟩
  reads := ⟨_,parseBytes_holds h,rfl,rfl⟩

/-- An incomplete tail is saved and cut off. -/
lemma Holds.recovers_cut (h : Holds reader raw prior) {cut : List UInt8} (hline : (10 : UInt8) ∉ cut) (hne : cut ≠ [])
    (htail : parseTail reader (parsed prior) raw.length cut = .ok none) (hroom : (raw ++ cut).length ≤ maxSnapshotBytes) :
    Recovers reader maxSnapshotBytes (raw ++ cut) prior ⟨prior,1,raw,some cut⟩ where
  returned := by
    rw [writableRecords, readSnapshot, if_neg (Nat.not_lt.mpr hroom), parseBytes_tail h hline hne, htail]
    simp [Except.bind, Except.map]
  records := rfl
  saved := Or.inr ⟨cut,rfl,rfl⟩
  reads := ⟨_,parseBytes_holds h,rfl,rfl⟩

/-- A record without its newline gets it. -/
lemma Holds.recovers_pending (h : Holds reader raw prior) {text : List UInt8} (hline : (10 : UInt8) ∉ text) (hne : text ≠ [])
    (htail : parseTail reader (parsed prior) raw.length text = .ok (some (parsed (prior ++ [entry]))))
    (hnext : ∀ offset, parseLine reader (parsed prior) offset text = .ok (parsed (prior ++ [entry])))
    (hroom : (raw ++ text).length + 1 ≤ maxSnapshotBytes) :
    Recovers reader maxSnapshotBytes (raw ++ text) (prior ++ [entry]) ⟨prior ++ [entry],0,raw ++ text ++ [10],none⟩ where
  returned := by
    have hlength : ¬maxSnapshotBytes < (raw ++ text).length := by omega
    have hmore : ¬maxSnapshotBytes < (raw ++ text).length + 1 := by omega
    rw [writableRecords, readSnapshot, if_neg hlength, parseBytes_tail h hline hne, htail]
    simp only [Except.map, Except.bind, parsed, Option.bind_some, List.getLast?_concat, Bool.false_eq_true, if_false,
      if_neg hmore]
  records := rfl
  saved := Or.inl ⟨rfl,List.prefix_append _ _⟩
  reads := by
    have hwhole := h.line hline hnext
    rw [← List.append_assoc] at hwhole
    exact ⟨_,parseBytes_holds hwhole,rfl,rfl⟩

/-- An append that was cut short at any byte leaves a ledger that is complete or has an incomplete tail, and from
which the records are recovered: those before, and the new one if no more than its newline is missing. -/
theorem tornAppend_recovered {snapshot : LedgerSnapshot} (hvalid : parseBytes reader raw = .ok snapshot)
    (hcomplete : snapshot.complete = true) (hreadable : JsonParse.Readable (.object record))
    (haccepted : Accepted reader snapshot.records record entry)
    (hroom : raw.length + (serialized record).length ≤ maxSnapshotBytes) {cut : List UInt8} (hcut : cut <+: serialized record) :
    (∃ found, parseBytes reader (raw ++ cut) = .ok found) ∧ ∃ writable, Recovers reader maxSnapshotBytes (raw ++ cut)
      (if (serialized record).length ≤ cut.length + 1 then snapshot.records ++ [entry] else snapshot.records) writable := by
  have hholds := holds_of_parseBytes hvalid hcomplete
  have hnewline := newline_notMem hreadable
  have hlength := hcut.length_le
  rw [serialized_eq hreadable] at hcut hroom hlength ⊢
  rw [List.length_append, List.length_singleton] at hroom hlength ⊢
  obtain ⟨hpart,hne⟩ | ⟨rest,rfl,hrest⟩ := Utf8.prefix_append_cases hcut
  · have hshort : ¬(recordText record).utf8.length + 1 ≤ cut.length + 1 := by
      intro hlong
      exact hne (hpart.eq_of_length_le (by omega))
    rw [if_neg hshort]
    by_cases hnil : cut = []
    · subst hnil
      rw [List.append_nil]
      exact ⟨⟨_,parseBytes_holds hholds⟩,_,hholds.recovers (by omega)⟩
    · have hline : (10 : UInt8) ∉ cut := fun hmem => hnewline (hpart.subset hmem)
      have htail : parseTail reader (parsed snapshot.records) raw.length cut = .ok none :=
        parseTail_cut hreadable hpart hne _ _
      refine ⟨⟨_,by rw [parseBytes_tail hholds hline hnil, htail]; rfl⟩,_,hholds.recovers_cut hline hnil htail ?_⟩
      rw [List.length_append]
      omega
  · obtain rfl | ⟨last,rfl,hlast⟩ := List.prefix_cons_iff.mp hrest
    · have htail := parseTail_record hreadable haccepted raw.length
      have hsome := recordBytes_ne_nil hreadable
      rw [List.append_nil, if_pos le_rfl]
      refine ⟨⟨_,by rw [parseBytes_tail hholds hnewline hsome, htail]; rfl⟩,_,
        hholds.recovers_pending hnewline hsome htail (parseLine_record hreadable haccepted) ?_⟩
      rw [List.length_append]
      omega
    · rw [List.prefix_nil.mp hlast]
      have hwhole := hholds.line hnewline (parseLine_record hreadable haccepted)
      rw [if_pos (by rw [List.length_append, List.length_singleton]; omega)]
      refine ⟨⟨_,parseBytes_holds hwhole⟩,_,hwhole.recovers ?_⟩
      rw [List.length_append, List.length_append, List.length_singleton]
      omega

end Append

section Files
variable {c : LedgerFormat} {encode : StateLedgerEntry → JsonRecord ν}

/-- The format of a ledger of records, and the reader and the lines that stand behind it. -/
structure Encodes (c : LedgerFormat) (reader : LedgerReader ν) (encode : StateLedgerEntry → JsonRecord ν) : Prop where
  readable : ∀ r, JsonParse.Readable (.object (encode r))
  reads : ∀ r p, c.parse r = some p → reader.schema (.object (encode r)) = some p
  supported : ∀ r, r.schemaVersion ≤ currentStateLedgerSchemaVersion → unsupported reader (.object (encode r)) = false
  length : ∀ r, c.recordByteLength r = (serialized (encode r)).length

/-- The bytes of what follows the last newline. -/
def IsTail (encode : StateLedgerEntry → JsonRecord ν) (bytes : List UInt8) : Tail → Prop
  | .clean => bytes = []
  | .torn n => ∃ r, bytes <+: (recordText (encode r)).utf8 ∧ bytes ≠ (recordText (encode r)).utf8 ∧ bytes ≠ [] ∧ bytes.length = n
  | .pending r => bytes = (recordText (encode r)).utf8
  | .garbled n => bytes.length = n

lemma Encodes.accepted (h : Encodes c reader encode) {rs qs : List StateLedgerEntry} {r q : StateLedgerEntry}
    (hrs : WellFormed (rs ++ [r])) (hqs : c.readRecords rs = some qs) (hq : c.readRecord r = some q) :
    Accepted reader qs (encode r) q := by
  obtain ⟨hbefore,hr,hlater,hfresh⟩ := hrs.of_append
  obtain ⟨hids,hsequences⟩ := ids_of_core (readRecords_core (fun r hr => (hbefore.acceptable r hr).normalized) hqs)
  obtain ⟨p,hp,hnormal⟩ := Option.bind_eq_some_iff.mp hq
  obtain ⟨-,hspelled,-⟩ := readRecord_spelled hr.normalized hq
  have hread := hr.read hq
  exact {
    supported := h.supported r hr.version.le
    normalized := ⟨p,h.reads r p hp,hnormal⟩
    version := hread.version
    safe := hread.safe
    later := by
      rw [lastSequence_congr hsequences, hspelled]
      exact hlater
    fresh := by
      rw [hids, hspelled]
      exact hfresh }

/-- Lines of well-formed records read as the schema spells these. -/
lemma Encodes.holds (h : Encodes c reader encode) {rs qs : List StateLedgerEntry} (hrs : WellFormed rs)
    (hqs : c.readRecords rs = some qs) : Holds reader (rs.flatMap fun r => serialized (encode r)) qs := by
  induction rs using List.reverseRecOn generalizing qs with
  | nil =>
    cases hqs
    exact ⟨rfl,rfl⟩
  | append_singleton rs r ih =>
    rw [readRecords_append, readRecords_singleton] at hqs
    obtain ⟨before,hbefore,hqs⟩ := Option.bind_eq_some_iff.mp hqs
    obtain ⟨l,hl,rfl⟩ := Option.map_eq_some_iff.mp hqs
    obtain ⟨q,hq,rfl⟩ := Option.map_eq_some_iff.mp hl
    rw [List.flatMap_append, List.flatMap_singleton, serialized_eq (h.readable r)]
    exact (ih hrs.of_append.1 hbefore).line (newline_notMem (h.readable r))
      (parseLine_record (h.readable r) (h.accepted hrs hbefore hq))

lemma Encodes.completeBytes (h : Encodes c reader encode) (f : LedgerFile) :
    f.completeBytes c = (f.records.flatMap fun r => serialized (encode r)).length := by
  have hlength : c.recordByteLength = fun r => (serialized (encode r)).length := funext h.length
  rw [LedgerFile.completeBytes, List.length_flatMap, hlength]

/-- The bytes of a file whose records the schema takes read as the file. -/
theorem parseBytes_file (h : Encodes c reader encode) {f : LedgerFile} (hf : WellFormed f.readable) (hg : ¬f.garbled)
    {qs ps : List StateLedgerEntry} (hqs : c.readRecords f.records = some qs)
    (hps : c.readRecords f.tail.pendingRecord.toList = some ps) {tail : List UInt8} (htail : IsTail encode tail f.tail) :
    parseBytes reader ((f.records.flatMap fun r => serialized (encode r)) ++ tail) =
      (f.parse c).mapError (fun code => ⟨code,none⟩) := by
  rw [LedgerFile.parse_eq hf hg hqs hps, LedgerFile.byteLength, h.completeBytes]
  obtain ⟨rs,kind,identity⟩ := f
  have hrs : WellFormed rs := hf.sublist (List.sublist_append_left rs _)
  have hholds := h.holds hrs hqs
  have hlast := lastSequence_congr (ids_of_core (readRecords_core (fun r hr => (hrs.acceptable r hr).normalized) hqs)).2
  dsimp only at htail hholds ⊢
  cases kind with
  | clean =>
    obtain rfl : tail = [] := htail
    cases hps
    rw [List.append_nil, parseBytes_holds hholds]
    simp [Except.mapError, Tail.byteLength, Tail.pendingRecord, LedgerFile.readable, hlast]
  | torn n =>
    obtain ⟨r,hcut,hne,hnil,rfl⟩ := htail
    cases hps
    have hline : (10 : UInt8) ∉ tail := fun hmem => newline_notMem (h.readable r) (hcut.subset hmem)
    rw [parseBytes_tail hholds hline hnil, parseTail_cut (h.readable r) hcut hne]
    simp [Except.map, Except.mapError, Tail.byteLength, Tail.pendingRecord, LedgerFile.readable, parsed, hlast]
  | pending r =>
    obtain rfl : tail = (recordText (encode r)).utf8 := htail
    obtain ⟨q,rest,hq,hnil,rfl⟩ := List.forall₂_cons_left_iff.mp (readRecords_forall₂.mp hps)
    cases hnil
    have hread := h.readable r
    have hsequence : q.sequence = r.sequence := by
      rw [(readRecord_spelled (hf.of_append.2.1).normalized hq).2.1]
    have hlength : (serialized (encode r)).length - 1 = (recordText (encode r)).utf8.length := by
      rw [serialized_eq hread, List.length_append, List.length_singleton, Nat.add_sub_cancel]
    rw [parseBytes_tail hholds (newline_notMem hread) (recordBytes_ne_nil hread),
      parseTail_record hread (h.accepted hf hqs hq)]
    simp [Except.map, Except.mapError, Tail.byteLength, Tail.pendingRecord, LedgerFile.readable, parsed, h.length, hlength,
      lastSequence, hsequence]
  | garbled n => exact absurd ⟨n,rfl⟩ hg

end Files
end Ledgers

/-- Records with a sequence and a text. -/
def notedRecord (sequence : ℤ) (note : Text) : JsonRecord ℤ :=
  [(Text.of "sequence",.number sequence),(Text.of "note",.string note)]

def notedEntry (sequence : ℕ) : StateLedgerEntry :=
  ⟨if sequence = 1 then "first" else "later",sequence,1,none,none,none,none,.capabilitySnapshot "noted"⟩

def notedReader : LedgerReader ℤ where
  schema json := match (Json.asRecord (some json)).bind (fun fields => Json.field fields "sequence") with
    | some (.number sequence) => some (notedEntry sequence.toNat)
    | _ => none
  newer version := decide (1 < version)

/-- The cut is inside the only character of the second record's text. -/
theorem tornAppend_recovered_noted : ∃ writable, Recovers notedReader 200
    (serialized (notedRecord 1 []) ++ (serialized (notedRecord 2 [0xE9])).take 23) [notedEntry 1] writable := by
  have hvalid : parseBytes notedReader (serialized (notedRecord 1 [])) = .ok ⟨true,[notedEntry 1],25,25,1,none⟩ := by rfl
  have hnumber : JsonParse.NumberReads (2 : ℤ) := ⟨rfl,rfl,.integer,rfl,rfl⟩
  have hreadable : JsonParse.Readable (.object (notedRecord 2 [0xE9])) := by
    simp only [JsonParse.Readable, JsonParse.ReadableFields, notedRecord]
    exact ⟨by decide,hnumber,trivial,trivial⟩
  have haccepted : Accepted notedReader [notedEntry 1] (notedRecord 2 [0xE9]) (notedEntry 2) :=
    ⟨rfl,⟨notedEntry 2,rfl,rfl⟩,rfl,by decide,by decide,by decide⟩
  have hroom : (serialized (notedRecord 1 [])).length + (serialized (notedRecord 2 [0xE9])).length ≤ 200 := by decide
  have hrecovered := tornAppend_recovered hvalid rfl hreadable haccepted hroom (List.take_prefix 23 _)
  exact hrecovered.2

end LedgerBytes
end OmniagentPlus.StateLedger
