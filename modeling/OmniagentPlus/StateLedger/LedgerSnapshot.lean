import OmniagentPlus.CoreContracts.StateLedger
import OmniagentPlus.Foundation.Traversal
import Mathlib.Data.List.Nodup
import Mathlib.Data.List.Induction
import Mathlib.Algebra.Ring.Nat

/-! `ledger-snapshot.ts` and the manifest of `schema.ts`, with a ledger file as the records
of its complete lines and what follows them. -/
namespace OmniagentPlus.StateLedger
open OmniagentPlus.Foundation OmniagentPlus.CoreContracts

def currentStateLedgerSchemaVersion : ℕ := 1

/-- `Number.MAX_SAFE_INTEGER` -/
def maxSafeInteger : ℕ := 9007199254740991

structure StoreManifest where
  recordCount : ℕ
  lastSequence : ℕ
  createdAt : Instant
  updatedAt : Instant
  recoveredTailTruncations : ℕ
  deriving DecidableEq, Repr

def createEmptyManifest (timestamp : Instant) : StoreManifest := ⟨0,0,timestamp,timestamp,0⟩

/-- The integers of `storeManifestSchema`. -/
def StoreManifest.allowed (m : StoreManifest) : Bool :=
  decide (m.recordCount ≤ maxSafeInteger) && decide (m.lastSequence ≤ maxSafeInteger) &&
    decide (m.recoveredTailTruncations ≤ maxSafeInteger)

/-- `stateLedgerRecordSchema.parse`, none where it throws, and lengths in bytes; the length of a
record is that of its line, newline included. The schema may spell a payload anew, and may not
accept its own spelling. It takes the scope of a payload it gives back for a scope of the record. -/
structure LedgerFormat where
  parse : StateLedgerEntry → Option StateLedgerEntry
  parse_eq : ∀ r p, parse r = some p → p = { r with payload := p.payload } ∧ r.payload.Respelled p.payload
  parse_normalized : ∀ r s, parse r = some r → normalizeLedgerScope r = some s → parse s = some s
  recordByteLength : StateLedgerEntry → ℕ
  manifestByteLength : StoreManifest → ℕ

/-- The schema accepts its own spelling of this payload, whatever record it comes in. -/
def LedgerFormat.ReadsBack (c : LedgerFormat) (payload : LedgerPayload) : Prop :=
  ∀ r p, r.payload = payload → c.parse r = some p → c.parse p = some p

/-- No other payload than a session is spelled anew. -/
theorem LedgerFormat.readsBack_of_kind (c : LedgerFormat) {payload : LedgerPayload} (h : payload.kind ≠ .session) :
    c.ReadsBack payload := by
  rintro r p rfl hp
  obtain ⟨hspelled,hrespelled⟩ := c.parse_eq r p hp
  have hsame : p = r := by
    rw [hspelled, hrespelled.eq h]
  rw [hsame] at hp ⊢
  exact hp

/-- What follows the last newline of the ledger file. -/
inductive Tail
  | clean
  /-- the start of a record's text, so many bytes of it -/
  | torn (bytes : ℕ)
  /-- a record's whole text -/
  | pending (record : StateLedgerEntry)
  /-- text that no single append leaves -/
  | garbled (bytes : ℕ)
  deriving DecidableEq, Repr

/-- `identity` stands for what `stat` tells about the file. -/
structure LedgerFile where
  records : List StateLedgerEntry
  tail : Tail
  identity : ℕ
  deriving DecidableEq, Repr

inductive LedgerReadError
  | ledgerCorruption
  | unsupportedSchema
  | snapshotLimit
  | incompleteSnapshot
  deriving DecidableEq, Repr

/-- `complete` tells the status `"complete"` from `"incomplete_tail"`. -/
structure LedgerSnapshot where
  complete : Bool
  records : List StateLedgerEntry
  byteLength : ℕ
  completeBytes : ℕ
  lastSequence : ℕ
  pendingRecord : Option StateLedgerEntry
  deriving DecidableEq, Repr

/-- `records.at(-1)?.sequence ?? 0` -/
def lastSequence (records : List StateLedgerEntry) : ℕ := records.getLast?.elim 0 (·.sequence)

/-- The variables of `parseBytes` that `parseRecord` reads and assigns. -/
structure Parsed where
  records : List StateLedgerEntry
  ids : List String
  lastSequence : ℕ
  deriving DecidableEq, Repr

section Read
variable (c : LedgerFormat)

def parseRecord (m : Parsed) (r : StateLedgerEntry) : Except LedgerReadError Parsed :=
  if currentStateLedgerSchemaVersion < r.schemaVersion then .error .unsupportedSchema
  else match c.parse r with
    | none => .error .ledgerCorruption
    | some p =>
      if p.schemaVersion != currentStateLedgerSchemaVersion || decide (maxSafeInteger < p.sequence) ||
          decide (p.sequence ≤ m.lastSequence) || m.ids.contains p.recordId then .error .ledgerCorruption
      else match normalizeLedgerScope p with
        | none => .error .ledgerCorruption
        | some s => .ok ⟨m.records ++ [s],m.ids ++ [s.recordId],s.sequence⟩

def parseRecords (rs : List StateLedgerEntry) : Except LedgerReadError Parsed :=
  rs.foldlM (parseRecord c) ⟨[],[],0⟩

def LedgerFile.completeBytes (f : LedgerFile) : ℕ := (f.records.map c.recordByteLength).sum

def Tail.byteLength : Tail → ℕ
  | .clean => 0
  | .torn bytes => bytes
  | .pending r => c.recordByteLength r - 1
  | .garbled bytes => bytes

def LedgerFile.byteLength (f : LedgerFile) : ℕ := f.completeBytes c + f.tail.byteLength c

/-- `parseBytes` on the bytes of a ledger file. -/
def LedgerFile.parse (f : LedgerFile) : Except LedgerReadError LedgerSnapshot := do
  let m ← parseRecords c f.records
  let snapshot : LedgerSnapshot := ⟨true,m.records,f.byteLength c,f.completeBytes c,m.lastSequence,none⟩
  match f.tail with
  | .clean => .ok snapshot
  | .torn _ => .ok { snapshot with complete := false }
  | .pending r =>
    let n ← parseRecord c m r
    .ok { snapshot with
      complete := false
      lastSequence := n.lastSequence
      pendingRecord := n.records.getLast? }
  | .garbled _ => .error .ledgerCorruption

/-- `readLedgerSnapshot`, with the files at rest while it reads them. -/
def readLedgerSnapshot (maxBytes : ℕ) (ledger : Option LedgerFile) (manifest : Option StoreManifest) :
    Except LedgerReadError LedgerSnapshot :=
  if manifest.any (fun m => decide (maxBytes < c.manifestByteLength m)) ||
      ledger.any (fun f => decide (maxBytes < f.byteLength c)) then .error .snapshotLimit
  else match ledger with
    | none => if manifest.any (fun m => decide (0 < m.recordCount)) then .error .ledgerCorruption
        else .ok ⟨true,[],0,0,0,none⟩
    | some f => f.parse c

def completeSnapshotRecords (snapshot : LedgerSnapshot) : Except LedgerReadError (List StateLedgerEntry) :=
  if snapshot.complete then .ok snapshot.records else .error .incompleteSnapshot

/-- A record as a read gives it, none where the schema or its scope refuses it. -/
def LedgerFormat.readRecord (r : StateLedgerEntry) : Option StateLedgerEntry := (c.parse r).bind normalizeLedgerScope

def LedgerFormat.readRecords (rs : List StateLedgerEntry) : Option (List StateLedgerEntry) := rs.mapM c.readRecord

/-- A record of this version with a sequence of its own and its scope. -/
structure Acceptable (r : StateLedgerEntry) : Prop where
  version : r.schemaVersion = currentStateLedgerSchemaVersion
  safe : r.sequence ≤ maxSafeInteger
  positive : 0 < r.sequence
  normalized : normalizeLedgerScope r = some r

/-- Records that are never taken for corrupt, unless the schema refuses one. -/
structure WellFormed (rs : List StateLedgerEntry) : Prop where
  increasing : rs.Pairwise (·.sequence < ·.sequence)
  ids : (rs.map (·.recordId)).Nodup
  acceptable : ∀ r ∈ rs, Acceptable r

variable {c}

theorem lastSequence_append (rs : List StateLedgerEntry) (r : StateLedgerEntry) :
    lastSequence (rs ++ [r]) = r.sequence := by
  simp [lastSequence]

/-- The last sequence is told by the sequences. -/
theorem lastSequence_congr {rs qs : List StateLedgerEntry} (h : qs.map (·.sequence) = rs.map (·.sequence)) :
    lastSequence qs = lastSequence rs := by
  have hlast : ∀ l : List StateLedgerEntry, lastSequence l = (l.map (·.sequence)).getLast?.getD 0 := by
    intro l
    rw [lastSequence, List.getLast?_map]
    cases l.getLast? <;> rfl
  rw [hlast, hlast, h]

theorem WellFormed.nil : WellFormed [] where
  increasing := List.Pairwise.nil
  ids := List.nodup_nil
  acceptable := by simp

theorem WellFormed.sublist {rs qs : List StateLedgerEntry} (h : WellFormed rs) (hq : qs.Sublist rs) :
    WellFormed qs where
  increasing := h.increasing.sublist hq
  ids := h.ids.sublist (hq.map _)
  acceptable r hr := h.acceptable r (hq.subset hr)

/-- The last sequence of records in order is the greatest. -/
theorem WellFormed.le_lastSequence {rs : List StateLedgerEntry} (h : WellFormed rs) :
    ∀ r ∈ rs, r.sequence ≤ lastSequence rs := by
  intro r hr
  obtain ⟨l,q,rfl⟩ := List.eq_nil_or_concat' rs |>.resolve_left (List.ne_nil_of_mem hr)
  rw [lastSequence_append]
  rcases List.mem_append.mp hr with hr | hr
  · exact Nat.le_of_lt ((List.pairwise_append.mp h.increasing).2.2 r hr q (List.mem_singleton_self q))
  · exact Nat.le_of_eq (by rw [List.mem_singleton.mp hr])

theorem lastSequence_of_mem {rs : List StateLedgerEntry} (h : rs ≠ []) :
    ∃ r ∈ rs, r.sequence = lastSequence rs := by
  obtain ⟨l,q,rfl⟩ := List.eq_nil_or_concat' rs |>.resolve_left h
  exact ⟨q,by simp,(lastSequence_append l q).symm⟩

theorem WellFormed.append {rs : List StateLedgerEntry} (h : WellFormed rs) {r : StateLedgerEntry}
    (hr : Acceptable r) (hseq : lastSequence rs < r.sequence) (hid : r.recordId ∉ rs.map (·.recordId)) :
    WellFormed (rs ++ [r]) where
  increasing := by
    refine List.pairwise_append.mpr ⟨h.increasing,List.pairwise_singleton _ r,?_⟩
    intro q hq r' hr'
    rw [List.mem_singleton.mp hr']
    exact Nat.lt_of_le_of_lt (h.le_lastSequence q hq) hseq
  ids := by
    rw [List.map_append, List.map_singleton]
    exact List.nodup_append.mpr ⟨h.ids,List.nodup_singleton _,fun a ha b hb => by
      rw [List.mem_singleton.mp hb]
      rintro rfl
      exact hid ha⟩
  acceptable := by
    intro q hq
    rcases List.mem_append.mp hq with hq | hq
    · exact h.acceptable q hq
    · rwa [List.mem_singleton.mp hq]

theorem WellFormed.of_append {rs : List StateLedgerEntry} {r : StateLedgerEntry}
    (h : WellFormed (rs ++ [r])) :
    WellFormed rs ∧ Acceptable r ∧ lastSequence rs < r.sequence ∧ r.recordId ∉ rs.map (·.recordId) := by
  refine ⟨h.sublist (List.sublist_append_left rs [r]),h.acceptable r (by simp),?_,?_⟩
  · rcases eq_or_ne rs [] with rfl | hne
    · exact (h.acceptable r (by simp)).positive
    · obtain ⟨q,hq,hlast⟩ := lastSequence_of_mem hne
      rw [← hlast]
      exact (List.pairwise_append.mp h.increasing).2.2 q hq r (List.mem_singleton_self r)
  · have hids := h.ids
    rw [List.map_append, List.map_singleton] at hids
    exact fun hr => (List.nodup_append.mp hids).2.2 _ hr _ (List.mem_singleton_self _) rfl

section Reading

/-- A read gives the record with its payload as the schema spells it. -/
theorem readRecord_spelled {r q : StateLedgerEntry} (hr : normalizeLedgerScope r = some r) (h : c.readRecord r = some q) :
    c.parse r = some q ∧ q = { r with payload := q.payload } ∧ r.payload.Respelled q.payload := by
  obtain ⟨p,hp,hq⟩ := Option.bind_eq_some_iff.mp h
  obtain ⟨hspelled,hrespelled⟩ := c.parse_eq r p hp
  have hnormal := normalizeLedgerScope_respelled hr hrespelled
  rw [← hspelled, hq] at hnormal
  obtain rfl := Option.some.inj hnormal
  exact ⟨hp,hspelled,hrespelled⟩

theorem readRecord_core {r q : StateLedgerEntry} (hr : normalizeLedgerScope r = some r) (h : c.readRecord r = some q) :
    q.core = r.core := by
  obtain ⟨-,hspelled,hrespelled⟩ := readRecord_spelled hr h
  rw [hspelled, StateLedgerEntry.core, StateLedgerEntry.core, hrespelled.core_eq]

theorem readRecord_none {r : StateLedgerEntry} (hr : normalizeLedgerScope r = some r) (h : c.readRecord r = none) :
    c.parse r = none := by
  cases hp : c.parse r with
  | none => rfl
  | some p =>
    obtain ⟨hspelled,hrespelled⟩ := c.parse_eq r p hp
    have hnormal := normalizeLedgerScope_respelled hr hrespelled
    rw [← hspelled] at hnormal
    rw [LedgerFormat.readRecord, hp, Option.bind_some, hnormal] at h
    cases h

theorem Acceptable.read {r q : StateLedgerEntry} (hr : Acceptable r) (h : c.readRecord r = some q) : Acceptable q := by
  obtain ⟨-,hspelled,hrespelled⟩ := readRecord_spelled hr.normalized h
  have hnormal := normalizeLedgerScope_respelled hr.normalized hrespelled
  rw [← hspelled] at hnormal
  rw [hspelled] at hnormal ⊢
  exact ⟨hr.version,hr.safe,hr.positive,hnormal⟩

variable {rs qs : List StateLedgerEntry}

theorem readRecords_forall₂ : c.readRecords rs = some qs ↔ List.Forall₂ (fun r q => c.readRecord r = some q) rs qs :=
  mapM_eq_some

theorem readRecords_append (rs ps : List StateLedgerEntry) : c.readRecords (rs ++ ps) =
    (c.readRecords rs).bind fun qs => (c.readRecords ps).map fun more => qs ++ more := by
  rw [LedgerFormat.readRecords, List.mapM_append]
  change (c.readRecords rs).bind _ = _
  refine congrArg _ (funext fun qs => ?_)
  change (c.readRecords ps).bind _ = _
  cases c.readRecords ps <;> rfl

theorem readRecords_singleton (r : StateLedgerEntry) : c.readRecords [r] = (c.readRecord r).map fun q => [q] := by
  rw [LedgerFormat.readRecords, List.mapM_cons, List.mapM_nil]
  cases c.readRecord r <;> rfl

theorem readRecords_core (hnormal : ∀ r ∈ rs, normalizeLedgerScope r = some r) (h : c.readRecords rs = some qs) :
    qs.map StateLedgerEntry.core = rs.map StateLedgerEntry.core :=
  forall₂_map_eq (readRecords_forall₂.mp h) fun r hr _ hq => readRecord_core (hnormal r hr) hq

/-- Records with the same cores have the same ids and sequences. -/
theorem ids_of_core (h : qs.map StateLedgerEntry.core = rs.map StateLedgerEntry.core) :
    qs.map (·.recordId) = rs.map (·.recordId) ∧ qs.map (·.sequence) = rs.map (·.sequence) := by
  constructor
  · have hids := congrArg (List.map (·.recordId)) h
    rw [List.map_map, List.map_map] at hids
    exact hids
  · have hsequences := congrArg (List.map (·.sequence)) h
    rw [List.map_map, List.map_map] at hsequences
    exact hsequences

theorem readRecords_self (h : ∀ r ∈ rs, c.readRecord r = some r) : c.readRecords rs = some rs :=
  readRecords_forall₂.mpr (List.forall₂_same.mpr h)

end Reading

/-- Where `parseBytes` stands after records. -/
def parsed (rs : List StateLedgerEntry) : Parsed := ⟨rs,rs.map (·.recordId),lastSequence rs⟩

theorem parsed_append (rs : List StateLedgerEntry) (r : StateLedgerEntry) :
    parsed (rs ++ [r]) = ⟨rs ++ [r],rs.map (·.recordId) ++ [r.recordId],r.sequence⟩ := by
  simp [parsed, lastSequence_append]

theorem parseRecord_eq {rs qs : List StateLedgerEntry} {r : StateLedgerEntry} (h : WellFormed (rs ++ [r]))
    (hqs : qs.map StateLedgerEntry.core = rs.map StateLedgerEntry.core) :
    parseRecord c (parsed qs) r = (c.readRecord r).elim (.error .ledgerCorruption) fun q => .ok (parsed (qs ++ [q])) := by
  obtain ⟨-,hr,hseq,hid⟩ := h.of_append
  obtain ⟨hids,hsequences⟩ := ids_of_core hqs
  have hversion : ¬ currentStateLedgerSchemaVersion < r.schemaVersion := by simp [hr.version]
  rw [parseRecord, if_neg hversion]
  cases hread : c.readRecord r with
  | none =>
    rw [readRecord_none hr.normalized hread]
    rfl
  | some q =>
    obtain ⟨hparse,hspelled,-⟩ := readRecord_spelled hr.normalized hread
    have hq := hr.read hread
    have hsafe : ¬ maxSafeInteger < q.sequence := Nat.not_lt.mpr hq.safe
    have hsequence : q.sequence = r.sequence := by rw [hspelled]
    have hrecordId : q.recordId = r.recordId := by rw [hspelled]
    have hlast : ¬ q.sequence ≤ lastSequence qs := by
      rw [hsequence, lastSequence_congr hsequences]
      exact Nat.not_le.mpr hseq
    have hfresh : q.recordId ∉ qs.map (·.recordId) := by rwa [hrecordId, hids]
    have hpass : (q.schemaVersion != currentStateLedgerSchemaVersion || decide (maxSafeInteger < q.sequence) ||
        decide (q.sequence ≤ (parsed qs).lastSequence) || (parsed qs).ids.contains q.recordId) = false := by
      simp only [parsed, hq.version, hsafe, hlast, bne_self_eq_false, decide_false, Bool.or_self, Bool.false_or]
      simpa using hfresh
    rw [hparse]
    dsimp only
    rw [hpass, if_neg Bool.false_ne_true, hq.normalized, Option.elim_some, parsed_append]
    rfl

theorem parseRecords_eq {rs : List StateLedgerEntry} (h : WellFormed rs) :
    parseRecords c rs = (c.readRecords rs).elim (.error .ledgerCorruption) fun qs => .ok (parsed qs) := by
  induction rs using List.reverseRecOn with
  | nil => rfl
  | append_singleton rs r ih =>
    have hrs := ih h.of_append.1
    have hnormal : ∀ q ∈ rs, normalizeLedgerScope q = some q := fun q hq => (h.of_append.1.acceptable q hq).normalized
    rw [parseRecords] at hrs
    rw [parseRecords, List.foldlM_append, hrs, readRecords_append, readRecords_singleton]
    cases hqs : c.readRecords rs with
    | none => rfl
    | some qs =>
      change List.foldlM (parseRecord c) (parsed qs) [r] = _
      rw [List.foldlM_cons, parseRecord_eq h (readRecords_core hnormal hqs)]
      cases c.readRecord r <;> rfl

def Tail.pendingRecord : Tail → Option StateLedgerEntry
  | .pending r => some r
  | _ => none

/-- The records of a file, its pending one included. -/
def LedgerFile.readable (f : LedgerFile) : List StateLedgerEntry := f.records ++ f.tail.pendingRecord.toList

def LedgerFile.garbled (f : LedgerFile) : Prop := ∃ bytes, f.tail = .garbled bytes

/-- What a well-formed file reads as, where the schema takes its records. -/
theorem LedgerFile.parse_eq {f : LedgerFile} (h : WellFormed f.readable) (hg : ¬ f.garbled) {qs ps : List StateLedgerEntry}
    (hqs : c.readRecords f.records = some qs) (hps : c.readRecords f.tail.pendingRecord.toList = some ps) :
    f.parse c = .ok ⟨decide (f.tail = .clean),qs,f.byteLength c,f.completeBytes c,lastSequence f.readable,ps.head?⟩ := by
  obtain ⟨rs,tail,i⟩ := f
  have hrs : WellFormed rs := h.sublist (List.sublist_append_left rs _)
  have hcore := readRecords_core (fun r hr => (hrs.acceptable r hr).normalized) hqs
  have hlast := lastSequence_congr (ids_of_core hcore).2
  have hparse := parseRecords_eq (c := c) hrs
  rw [hqs, Option.elim_some] at hparse
  cases tail with
  | clean =>
    cases hps
    simp only [LedgerFile.parse, hparse]
    simp [LedgerFile.readable, Tail.pendingRecord, parsed, bind, Except.bind, hlast]
  | torn n =>
    cases hps
    simp only [LedgerFile.parse, hparse]
    simp [LedgerFile.readable, Tail.pendingRecord, parsed, bind, Except.bind, hlast]
  | pending r =>
    obtain ⟨q,rest,hq,hnil,rfl⟩ := List.forall₂_cons_left_iff.mp (readRecords_forall₂.mp hps)
    cases hnil
    have hsequence : q.sequence = r.sequence := by
      rw [(readRecord_spelled (h.of_append.2.1).normalized hq).2.1]
    simp only [LedgerFile.parse, hparse]
    change (parseRecord c (parsed qs) r >>= _) = _
    rw [parseRecord_eq h hcore, hq]
    simp [LedgerFile.readable, Tail.pendingRecord, parsed, bind, Except.bind, lastSequence, hsequence]
  | garbled n => exact absurd ⟨n,rfl⟩ hg

/-- A well-formed file is taken for a corrupt one where the schema refuses one of its records. -/
theorem LedgerFile.parse_error {f : LedgerFile} (h : WellFormed f.readable) (hnone : c.readRecords f.readable = none) :
    f.parse c = .error .ledgerCorruption := by
  obtain ⟨rs,tail,i⟩ := f
  have hrs : WellFormed rs := h.sublist (List.sublist_append_left rs _)
  have hparse := parseRecords_eq (c := c) hrs
  simp only [LedgerFile.parse]
  cases hqs : c.readRecords rs with
  | none =>
    rw [hqs] at hparse
    simp only [hparse]
    rfl
  | some qs =>
    rw [hqs, Option.elim_some] at hparse
    rw [hparse]
    cases tail with
    | pending r =>
      have hcore := readRecords_core (fun r hr => (hrs.acceptable r hr).normalized) hqs
      have hr : c.readRecord r = none := by
        have hboth : c.readRecords (rs ++ [r]) = none := hnone
        rw [readRecords_append, hqs, readRecords_singleton] at hboth
        simpa using hboth
      change (parseRecord c (parsed qs) r >>= _) = _
      rw [parseRecord_eq h hcore, hr]
      rfl
    | clean | torn n =>
      have hread : c.readRecords (rs ++ []) = none := hnone
      rw [List.append_nil, hqs] at hread
      cases hread
    | garbled n => rfl

end Read
end OmniagentPlus.StateLedger
