import OmniagentPlus.StateLedger.LedgerSnapshot
import OmniagentPlus.Foundation.Durable
import Mathlib.Logic.Function.Basic

/-! `append-only-store.ts`: stores of any number of processes over one directory. A store's
operation holds the directory's lock, so operations follow one another; each is a program
whose published states are the points where it may be cut short. -/
namespace OmniagentPlus.StateLedger
open OmniagentPlus.Foundation OmniagentPlus.CoreContracts

inductive StoreError
  | read (code : LedgerReadError)
  /-- by the record schema, the metadata check or the payload bound -/
  | rejected
  /-- by `storeManifestSchema` -/
  | manifest
  /-- what `keepRecord` threw -/
  | selector
  deriving DecidableEq, Repr

structure AppendRecordInput where
  payload : LedgerPayload
  sessionId : Option String
  turnId : Option String
  taskId : Option String
  recordedAt : Option Instant
  recordId : Option String
  schemaVersion : Option ℕ
  deriving DecidableEq, Repr

/-- The length of a payload in bytes, and `assertMetadataSafe` on an input. -/
structure StoreFormat extends LedgerFormat where
  payloadByteLength : LedgerPayload → ℕ
  metadataSafe : AppendRecordInput → Bool

structure AppendOnlyStoreOptions where
  maxPayloadBytes : ℕ
  maxSnapshotBytes : ℕ
  deriving DecidableEq, Repr

/-- `AppendOnlyStore.cache` -/
structure StoreCache where
  identity : Option ℕ
  count : ℕ
  lastSequence : ℕ
  ids : List String
  deriving DecidableEq, Repr

namespace AppendOnlyStore
variable {P : Type} [DecidableEq P]

/-- The directory and the cache of each process. `writes` numbers the identities of the ledger
file; the last three fields only record what happened: the records whose text the file has
held, those that `keepRecord` was false for, and those an append returned, in order. -/
structure State (P : Type) where
  ledger : Option LedgerFile
  manifest : Option StoreManifest
  cache : P → Option StoreCache
  writes : ℕ
  written : List StateLedgerEntry
  pruned : List StateLedgerEntry
  acknowledged : List StateLedgerEntry

namespace State

def init : State P := ⟨none,none,fun _ => none,0,[],[],[]⟩

def ledgerIdentity (s : State P) : Option ℕ := s.ledger.map (·.identity)

/-- A write to the ledger file, which gives it an identity it never had. -/
def putLedger (s : State P) (records : List StateLedgerEntry) (tail : Tail) : State P :=
  { s with ledger := some ⟨records,tail,s.writes⟩, writes := s.writes + 1 }

def putManifest (s : State P) (m : StoreManifest) : State P := { s with manifest := some m }

def putCache (s : State P) (p : P) (k : Option StoreCache) : State P :=
  { s with cache := Function.update s.cache p k }

def acknowledge (s : State P) (rs : List StateLedgerEntry) : State P :=
  { s with acknowledged := s.acknowledged ++ rs }

def records (s : State P) : List StateLedgerEntry := s.ledger.elim [] (·.records)

def tail (s : State P) : Tail := s.ledger.elim .clean (·.tail)

/-- The records of the file, a pending one included. -/
def readable (s : State P) : List StateLedgerEntry := s.records ++ s.tail.pendingRecord.toList

/-- `open(ledgerPath, "a")` -/
def createLedger (s : State P) : State P := if s.ledger.isSome then s else s.putLedger [] .clean

/-- The start of a record's text at the end of the file. -/
def landTorn (c : StoreFormat) (s : State P) (bytes : ℕ) : State P :=
  match s.tail with
  | .clean => s.putLedger s.records (.torn bytes)
  | tail => s.putLedger s.records (.garbled (tail.byteLength c.toLedgerFormat + bytes))

/-- The rest of the record's text. -/
def landText (c : StoreFormat) (s : State P) (r : StateLedgerEntry) : State P :=
  match s.tail with
  | .torn _ => { s.putLedger s.records (.pending r) with written := s.written ++ [r] }
  | tail => s.putLedger s.records (.garbled (tail.byteLength c.toLedgerFormat))

/-- A newline at the end of the file. -/
def landNewline (c : StoreFormat) (s : State P) : State P :=
  match s.tail with
  | .pending r => s.putLedger (s.records ++ [r]) .clean
  | tail => s.putLedger s.records (.garbled (tail.byteLength c.toLedgerFormat + 1))

end State

abbrev StoreProgram (P α : Type) := Program (State P) StoreError α

section Operations
variable (c : StoreFormat) (o : AppendOnlyStoreOptions) (p : P)

def readSnapshot : StoreProgram P LedgerSnapshot := do
  let read ← Program.reads fun s : State P => readLedgerSnapshot c.toLedgerFormat o.maxSnapshotBytes s.ledger s.manifest
  Program.ofExcept (read.mapError .read)

def listRecords : StoreProgram P (List StateLedgerEntry) := do
  let snapshot ← readSnapshot c o
  Program.ofExcept ((completeSnapshotRecords snapshot).mapError .read)

def assertManifestCapacity (m : StoreManifest) : StoreProgram P PUnit :=
  Program.throwIf (decide (o.maxSnapshotBytes < c.manifestByteLength m)) (.read .snapshotLimit)

def writeStoreManifest (m : StoreManifest) : StoreProgram P PUnit := do
  Program.throwIf (!m.allowed) .manifest
  Program.write fun s => s.putManifest m

def cacheRecords (records : List StateLedgerEntry) : StoreProgram P PUnit :=
  Program.write fun s => s.putCache p
    (some ⟨s.ledgerIdentity,records.length,lastSequence records,records.map (·.recordId)⟩)

/-- The records, and how many tails were cut off. -/
def writableRecords : StoreProgram P (List StateLedgerEntry × ℕ) := do
  let snapshot ← readSnapshot c o
  if snapshot.complete then pure (snapshot.records,0)
  else match snapshot.pendingRecord with
    | some r => do
      Program.throwIf (decide (o.maxSnapshotBytes < snapshot.byteLength + 1)) (.read .snapshotLimit)
      Program.write (State.landNewline c)
      pure (snapshot.records ++ [r],0)
    | none => do
      Program.write fun s => s.putLedger s.records .clean
      pure (snapshot.records,1)

/-- `initialize`, with its indexes written between the capacity check and the manifest. -/
def initializeStore (now : Instant) : StoreProgram P PUnit := do
  let existing ← Program.reads State.manifest
  let identity ← Program.reads State.ledgerIdentity
  Program.throwIf (existing.isNone && identity.isSome) (.read .ledgerCorruption)
  let repaired ← writableRecords c o
  let previous := existing.getD (createEmptyManifest now)
  let manifest : StoreManifest := { previous with
    recordCount := repaired.1.length
    lastSequence := max previous.lastSequence (lastSequence repaired.1)
    updatedAt := now
    recoveredTailTruncations := previous.recoveredTailTruncations + repaired.2 }
  assertManifestCapacity c o manifest
  writeStoreManifest manifest
  cacheRecords p repaired.1

/-- `readStoreManifest`, which an appending or compacting store must find. -/
def existingManifest : StoreProgram P StoreManifest := do
  let existing ← Program.reads State.manifest
  Program.ofExcept (existing.elim (.error (.read .ledgerCorruption)) .ok)

/-- The cache, read anew when the file is not the one it was made from, and the number of
tails cut off by that. -/
def currentCache : StoreProgram P (StoreCache × ℕ) := do
  let cache ← Program.reads fun s : State P => s.cache p
  let identity ← Program.reads State.ledgerIdentity
  match cache.filter (fun k => k.identity = identity) with
  | some k => pure (k,0)
  | none => do
    let repaired ← writableRecords c o
    cacheRecords p repaired.1
    let identity ← Program.reads State.ledgerIdentity
    pure (⟨identity,repaired.1.length,lastSequence repaired.1,repaired.1.map (·.recordId)⟩,repaired.2)

/-- The record that `appendRecord` makes of its input. -/
def inputRecord (input : AppendRecordInput) (now : Instant) (generatedId : String) (sequence : ℕ) :
    StateLedgerEntry :=
  ⟨input.recordId.getD generatedId,sequence,currentStateLedgerSchemaVersion,input.recordedAt.getD now,
    input.sessionId,input.turnId,input.taskId,input.payload⟩

/-- Schema, scope and payload bound, as `appendRecord` and `compactRecords` check them. -/
def checkRecord (r : StateLedgerEntry) : Except StoreError StateLedgerEntry :=
  match (c.parse r).bind normalizeLedgerScope with
    | none => .error .rejected
    | some s =>
      if s.schemaVersion != currentStateLedgerSchemaVersion then .error (.read .unsupportedSchema)
      else if o.maxPayloadBytes < c.payloadByteLength s.payload then .error .rejected
      else .ok s

/-- The line of a record, of which a first write may leave only so many bytes, fewer than its text has. -/
def appendLine (r : StateLedgerEntry) (torn : ℕ) : StoreProgram P PUnit := do
  Program.write State.createLedger
  Program.write fun s => s.landTorn c (min torn (c.recordByteLength r - 1))
  Program.write fun s => s.landText c r
  Program.write (State.landNewline c)

/-- `generatedId` is the record id made of the kind, the sequence and a random UUID. -/
def appendRecord (input : AppendRecordInput) (now : Instant) (generatedId : String) (torn : ℕ) :
    StoreProgram P StateLedgerEntry := do
  Program.throwIf (!c.metadataSafe input) .rejected
  let manifest ← existingManifest
  let current ← currentCache c o p
  let nextSequence := max manifest.lastSequence current.1.lastSequence + 1
  Program.throwIf (decide (maxSafeInteger < nextSequence)) (.read .ledgerCorruption)
  Program.throwIf (input.schemaVersion.any (· != currentStateLedgerSchemaVersion)) (.read .unsupportedSchema)
  let record ← Program.ofExcept (checkRecord c o (inputRecord input now generatedId nextSequence))
  Program.throwIf (current.1.ids.contains record.recordId) (.read .ledgerCorruption)
  let nextManifest : StoreManifest := { manifest with
    recordCount := current.1.count + 1
    lastSequence := nextSequence
    updatedAt := now
    recoveredTailTruncations := manifest.recoveredTailTruncations + current.2 }
  assertManifestCapacity c o nextManifest
  let existingBytes ← Program.reads fun s : State P => s.ledger.elim 0 (·.byteLength c.toLedgerFormat)
  Program.throwIf (decide (o.maxSnapshotBytes < existingBytes + c.recordByteLength record)) (.read .snapshotLimit)
  Program.write fun s => s.putCache p none
  appendLine c record torn
  writeStoreManifest nextManifest
  Program.write fun s => s.putCache p (some ⟨s.ledgerIdentity,current.1.count + 1,nextSequence,
    current.1.ids ++ [record.recordId]⟩)
  pure record

/-- The checks on the records that stay, each against those before it. -/
def checkKept (lastSeq : ℕ) (kept : List StateLedgerEntry) (r : StateLedgerEntry) :
    Except StoreError (List StateLedgerEntry) := do
  let record ← checkRecord c o r
  if lastSeq < record.sequence || kept.getLast?.any (fun q => decide (record.sequence ≤ q.sequence)) ||
      (kept.map (·.recordId)).contains record.recordId then .error (.read .ledgerCorruption)
  else .ok (kept ++ [record])

/-- `keepRecord` gives none where it throws. -/
def compactRecords (keepRecord : StateLedgerEntry → List StateLedgerEntry → Option Bool) (now : Instant) :
    StoreProgram P (List StateLedgerEntry × List StateLedgerEntry) := do
  let existing ← existingManifest
  let repaired ← writableRecords c o
  let manifest : StoreManifest := { existing with
    lastSequence := max existing.lastSequence (lastSequence repaired.1)
    recoveredTailTruncations := existing.recoveredTailTruncations + repaired.2 }
  Program.throwIf (repaired.1.any (fun r => (keepRecord r repaired.1).isNone)) .selector
  let prunedRecords := repaired.1.filter (fun r => !(keepRecord r repaired.1).getD false)
  Program.write fun s : State P => { s with pruned := s.pruned ++ prunedRecords }
  let keptRecords ← Program.ofExcept
    ((repaired.1.filter (fun r => (keepRecord r repaired.1).getD false)).foldlM (checkKept c o manifest.lastSequence) [])
  let nextManifest : StoreManifest := { manifest with
    recordCount := keptRecords.length
    updatedAt := now }
  assertManifestCapacity c o manifest
  assertManifestCapacity c o nextManifest
  Program.throwIf (decide (o.maxSnapshotBytes < (keptRecords.map c.recordByteLength).sum)) (.read .snapshotLimit)
  writeStoreManifest manifest
  Program.write fun s => s.putCache p none
  Program.write fun s => s.putLedger keptRecords .clean
  writeStoreManifest nextManifest
  cacheRecords p keptRecords
  pure (keptRecords,prunedRecords)

end Operations

inductive Operation
  /-- `AppendOnlyStore.open` -/
  | opening
  | append (input : AppendRecordInput) (generatedId : String) (torn : ℕ)
  | compact (keepRecord : StateLedgerEntry → List StateLedgerEntry → Option Bool)

/-- How an operation ends: by itself, by an error of the file system after so many published
states, or with the process after so many. -/
inductive Ending
  | returns
  | fails (published : ℕ)
  | crashes (published : ℕ)

structure Action (P : Type) where
  process : P
  options : AppendOnlyStoreOptions
  now : Instant
  operation : Operation
  ending : Ending

variable (c : StoreFormat)

/-- The operation as a program that returns the record it acknowledges, if any. -/
def Action.program (a : Action P) : StoreProgram P (List StateLedgerEntry) :=
  match a.operation with
  | .opening => initializeStore c a.options a.process a.now >>= fun _ => pure []
  | .append input generatedId torn =>
    appendRecord c a.options a.process input a.now generatedId torn >>= fun r => pure [r]
  | .compact keepRecord => compactRecords c a.options a.process keepRecord a.now >>= fun _ => pure []

def step (s : State P) (a : Action P) : Option (State P) :=
  match a.ending with
  | .returns => match (a.program c s).2 with
    | .ok rs => some (((a.program c).final s).acknowledge rs)
    | .error _ => some ((a.program c).final s)
  | .fails n => some ((a.program c).crash n s)
  | .crashes n => some (((a.program c).crash n s).putCache a.process none)

/-- What an operation appends, the schema reads back as it spelled it. -/
def Action.ReadsBack (a : Action P) : Prop :=
  ∀ input generatedId torn, a.operation = .append input generatedId torn → c.ReadsBack input.payload

/-- The operation came to its end without an error. -/
def Action.succeeds (a : Action P) (s : State P) : Prop :=
  (∃ rs, (a.program c s).2 = .ok rs) ∧ match a.ending with | .returns => True | _ => False

end AppendOnlyStore
end OmniagentPlus.StateLedger
