import OmniagentPlus.StateLedger.AppendOnlyStore

/-! The invariant of the append-only store, and its reads and repairs. The schema may spell a payload
anew whenever a record is read or written again, so what is kept of a record is told by a view of it: its
core of any record, the whole of records that read back. -/
namespace OmniagentPlus.StateLedger
open OmniagentPlus.Foundation OmniagentPlus.CoreContracts

/-- A property that each record in a file has, and what a read leaves of one. -/
structure RecordView (c : LedgerFormat) where
  Held : StateLedgerEntry → Prop
  view : StateLedgerEntry → StateLedgerEntry
  read : ∀ {r q}, normalizeLedgerScope r = some r → Held r → c.readRecord r = some q → Held q ∧ view q = view r
  recordId : ∀ r, (view r).recordId = r.recordId
  sequence : ∀ r, (view r).sequence = r.sequence

namespace RecordView
variable {c : LedgerFormat}

/-- Of any records, what is not spelled anew. -/
def core (c : LedgerFormat) : RecordView c where
  Held _ := True
  view := StateLedgerEntry.core
  read hr _ hq := ⟨trivial,readRecord_core hr hq⟩
  recordId _ := rfl
  sequence _ := rfl

/-- Of records that read back, the whole. -/
def whole (c : LedgerFormat) : RecordView c where
  Held r := c.readRecord r = some r
  view r := r
  read _ hr hq := by
    obtain rfl := Option.some.inj (hr.symm.trans hq)
    exact ⟨hr,rfl⟩
  recordId _ := rfl
  sequence _ := rfl

/-- A record with this payload has the property once it has been checked. -/
def Takes (V : RecordView c) (payload : LedgerPayload) : Prop :=
  ∀ r q, r.payload = payload → c.readRecord r = some q → V.Held q

theorem core_takes (payload : LedgerPayload) : (core c).Takes payload := fun _ _ _ _ => trivial

theorem whole_takes {payload : LedgerPayload} (h : c.ReadsBack payload) : (whole c).Takes payload := by
  intro r q hr hq
  obtain ⟨p,hp,hq⟩ := Option.bind_eq_some_iff.mp hq
  have hnormal := (normalizeLedgerScope_eq hq).2.2.2
  exact Option.bind_eq_some_iff.mpr ⟨q,c.parse_normalized p q (h r p hr hp) hq,hnormal⟩

variable {V : RecordView c} {r q : StateLedgerEntry} {rs qs : List StateLedgerEntry}

theorem same (h : V.view q = V.view r) : q.recordId = r.recordId ∧ q.sequence = r.sequence :=
  ⟨by rw [← V.recordId q, h, V.recordId],by rw [← V.sequence q, h, V.sequence]⟩

theorem exists_of_mem (h : V.view r ∈ qs.map V.view) : ∃ q ∈ qs, q.sequence = r.sequence := by
  obtain ⟨q,hq,hview⟩ := List.mem_map.mp h
  exact ⟨q,hq,(V.same hview).2⟩

/-- A read of records leaves their views. -/
theorem read_all (hnormal : ∀ r ∈ rs, normalizeLedgerScope r = some r) (hheld : ∀ r ∈ rs, V.Held r)
    (h : c.readRecords rs = some qs) : (∀ q ∈ qs, V.Held q) ∧ qs.map V.view = rs.map V.view := by
  have hreads := readRecords_forall₂.mp h
  constructor
  · intro q hq
    obtain ⟨r,hr,hread⟩ := forall₂_mem_right hreads hq
    exact (V.read (hnormal r hr) (hheld r hr) hread).1
  · exact forall₂_map_eq hreads fun r hr q hq => (V.read (hnormal r hr) (hheld r hr) hq).2

end RecordView

/-- A read of well-formed records gives well-formed records with the same cores. -/
theorem WellFormed.read {c : LedgerFormat} {rs qs : List StateLedgerEntry} (hrs : WellFormed rs)
    (h : c.readRecords rs = some qs) : WellFormed qs ∧ qs.map StateLedgerEntry.core = rs.map StateLedgerEntry.core := by
  have hcore := readRecords_core (fun r hr => (hrs.acceptable r hr).normalized) h
  obtain ⟨hids,hsequences⟩ := ids_of_core hcore
  refine ⟨⟨?_,by rw [hids]; exact hrs.ids,fun q hq => ?_⟩,hcore⟩
  · have hincreasing := List.pairwise_map.mpr hrs.increasing
    rw [← hsequences] at hincreasing
    exact List.pairwise_map.mp hincreasing
  · obtain ⟨r,hr,hread⟩ := forall₂_mem_right (readRecords_forall₂.mp h) hq
    exact (hrs.acceptable r hr).read hread

namespace AppendOnlyStore
variable {P : Type}

namespace State

/-- No sequence up to this one is given to a record again. -/
def highWater (s : State P) : ℕ := max (s.manifest.elim 0 (·.lastSequence)) (lastSequence s.readable)

/-- What holds between operations that succeed: the manifest tells the ledger. -/
structure Settled (s : State P) : Prop where
  clean : s.tail = .clean
  manifest : ∃ m, s.manifest = some m ∧ m.recordCount = s.records.length ∧
    (∀ r ∈ s.records, r.sequence ≤ m.lastSequence) ∧ ∀ r ∈ s.acknowledged, r.sequence ≤ m.lastSequence

end State

/-- The cache made of the file as it is. -/
def State.told (s : State P) : StoreCache :=
  ⟨s.ledgerIdentity,s.records.length,lastSequence s.records,s.records.map (·.recordId)⟩

/-- A cache is right about the file whenever it would be used. -/
structure State.Matches (s : State P) (k : StoreCache) : Prop where
  old : ∀ i, k.identity = some i → i < s.writes
  same : k.identity = s.ledgerIdentity → s.tail = .clean ∧ k = s.told

structure State.Sound {c : LedgerFormat} (V : RecordView c) (s : State P) : Prop where
  wellFormed : WellFormed s.readable
  held : ∀ r ∈ s.readable, V.Held r
  tail : ∀ bytes, s.tail ≠ .garbled bytes
  readable_written : ∀ r ∈ s.readable, V.view r ∈ s.written.map V.view
  written : s.written.Pairwise (·.sequence ≠ ·.sequence)
  bounded : ∀ r ∈ s.written, r.sequence ≤ s.highWater
  acknowledged : s.acknowledged.Pairwise (·.sequence < ·.sequence)
  acknowledged_written : ∀ r ∈ s.acknowledged, V.view r ∈ s.written.map V.view
  kept : ∀ r ∈ s.acknowledged, V.view r ∈ s.records.map V.view ∨ V.view r ∈ s.pruned.map V.view
  absent : s.ledger = none → ∀ m, s.manifest = some m → m.recordCount = 0
  opened : s.ledger.isSome → s.manifest.isSome
  identity : ∀ i, s.ledgerIdentity = some i → i < s.writes
  cache : ∀ p k, s.cache p = some k → s.Matches k

section Fields
variable (s : State P) (rs : List StateLedgerEntry) (tail : Tail) (m : StoreManifest)

@[simp] theorem records_putLedger : (s.putLedger rs tail).records = rs := rfl
@[simp] theorem tail_putLedger : (s.putLedger rs tail).tail = tail := rfl
@[simp] theorem manifest_putLedger : (s.putLedger rs tail).manifest = s.manifest := rfl
@[simp] theorem records_putManifest : (s.putManifest m).records = s.records := rfl
@[simp] theorem tail_putManifest : (s.putManifest m).tail = s.tail := rfl
@[simp] theorem manifest_putManifest : (s.putManifest m).manifest = some m := rfl

theorem readable_of_clean {s : State P} (h : s.tail = .clean) : s.readable = s.records := by
  rw [State.readable, h]
  exact List.append_nil _

variable [DecidableEq P] (p : P) (k : Option StoreCache)

@[simp] theorem records_putCache : (s.putCache p k).records = s.records := rfl
@[simp] theorem tail_putCache : (s.putCache p k).tail = s.tail := rfl
@[simp] theorem manifest_putCache : (s.putCache p k).manifest = s.manifest := rfl

end Fields

namespace State.Sound
variable {c : LedgerFormat} {V : RecordView c} {s : State P}

theorem init : Sound V (State.init : State P) where
  wellFormed := WellFormed.nil
  held r hr := by cases hr
  tail _ := by simp [State.init, State.tail]
  readable_written r hr := by cases hr
  written := List.Pairwise.nil
  bounded r hr := by cases hr
  acknowledged := List.Pairwise.nil
  acknowledged_written r hr := by cases hr
  kept r hr := by cases hr
  absent _ m hm := by cases hm
  opened h := by cases h
  identity i h := by cases h
  cache p k h := by cases h

theorem putManifest (h : Sound V s) {m : StoreManifest} (hm : s.highWater ≤ max m.lastSequence (lastSequence s.readable))
    (hcount : s.ledger = none → m.recordCount = 0) : Sound V (s.putManifest m) :=
  { h with
    bounded := fun r hr => Nat.le_trans (h.bounded r hr) hm
    absent := by
      intro hl n hn
      obtain rfl := Option.some.inj hn
      exact hcount hl
    opened := fun _ => rfl
    cache := fun p k hk => ⟨(h.cache p k hk).old,(h.cache p k hk).same⟩ }

/-- A write to the ledger file that may add to the records written so far. -/
theorem putLedger (h : Sound V s) {rs w : List StateLedgerEntry} {tail : Tail}
    (hm : s.manifest.isSome) (hg : ∀ bytes, tail ≠ .garbled bytes)
    (hwf : WellFormed (s.putLedger rs tail).readable) (hheld : ∀ r ∈ (s.putLedger rs tail).readable, V.Held r)
    (hmem : ∀ r ∈ (s.putLedger rs tail).readable, V.view r ∈ w.map V.view) (hw : w.Pairwise (·.sequence ≠ ·.sequence))
    (hbound : ∀ r ∈ w, r.sequence ≤ (s.putLedger rs tail).highWater)
    (hack : ∀ r ∈ s.acknowledged, V.view r ∈ w.map V.view)
    (hkept : ∀ r ∈ s.acknowledged, V.view r ∈ rs.map V.view ∨ V.view r ∈ s.pruned.map V.view) :
    Sound V { s.putLedger rs tail with written := w } where
  wellFormed := hwf
  held := hheld
  tail := hg
  readable_written := hmem
  written := hw
  bounded := hbound
  acknowledged := h.acknowledged
  acknowledged_written := hack
  kept := hkept
  absent hl := by cases hl
  opened _ := hm
  identity i hi := by
    obtain rfl : s.writes = i := Option.some.inj hi
    exact Nat.lt_succ_self _
  cache p k hk := by
    refine ⟨fun i hi => Nat.lt_succ_of_lt ((h.cache p k hk).old i hi),fun hsame => ?_⟩
    exact absurd ((h.cache p k hk).old s.writes hsame) (Nat.lt_irrefl _)

/-- The file keeps its records and changes its tail, or completes a pending record. -/
theorem putLedger_readable (h : Sound V s) {l : List StateLedgerEntry} {u : Tail} (hm : s.manifest.isSome)
    (hg : ∀ bytes, u ≠ .garbled bytes) (hr : (s.putLedger l u).readable = s.readable)
    (hrs : ∀ r ∈ s.records, r ∈ l) : Sound V (s.putLedger l u) := by
  refine h.putLedger (w := s.written) hm hg (hr ▸ h.wellFormed) (fun r hq => h.held r (hr ▸ hq))
    (fun r hq => h.readable_written r (hr ▸ hq)) h.written ?_ h.acknowledged_written
    (fun r hq => (h.kept r hq).imp_left fun hmem => List.map_subset _ hrs hmem)
  intro r hq
  have hhigh : (s.putLedger l u).highWater = s.highWater := by
    simp only [State.highWater, hr, manifest_putLedger]
  exact hhigh ▸ h.bounded r hq

theorem records_sublist (s : State P) : s.records.Sublist s.readable := List.sublist_append_left _ _

/-- What a written record shares its view with is bounded as it is. -/
theorem le_of_written (h : Sound V s) {r : StateLedgerEntry} (hr : V.view r ∈ s.written.map V.view) :
    r.sequence ≤ s.highWater := by
  obtain ⟨w,hw,hseq⟩ := RecordView.exists_of_mem hr
  exact hseq ▸ h.bounded w hw

theorem le_highWater (h : Sound V s) : ∀ r ∈ s.readable, r.sequence ≤ s.highWater :=
  fun r hr => h.le_of_written (h.readable_written r hr)

/-- Records dropped by a compaction, once the manifest keeps the greatest sequence; those that stay may
have been spelled anew. -/
theorem prune (h : Sound V s) {m : StoreManifest} (hm : s.manifest = some m) (hclean : s.tail = .clean)
    (hhigh : s.highWater ≤ m.lastSequence) {rs : List StateLedgerEntry} (hwf : WellFormed rs)
    (hheld : ∀ r ∈ rs, V.Held r) (hrs : rs.map V.view ⊆ s.records.map V.view)
    (hkept : ∀ r ∈ s.records, V.view r ∈ rs.map V.view ∨ V.view r ∈ s.pruned.map V.view) :
    Sound V (s.putLedger rs .clean) := by
  have hread := readable_of_clean hclean
  have hnew : (s.putLedger rs .clean).readable = rs := List.append_nil rs
  refine h.putLedger (w := s.written) (by rw [hm]; rfl) (by simp) (hnew.symm ▸ hwf) (fun r hr => hheld r (hnew ▸ hr))
    ?_ h.written ?_ h.acknowledged_written ?_
  · intro r hr
    obtain ⟨q,hq,hview⟩ := List.mem_map.mp (hrs (List.mem_map_of_mem (hnew ▸ hr)))
    exact hview ▸ h.readable_written q (hread ▸ hq)
  · intro r hr
    have hle : m.lastSequence ≤ (s.putLedger rs .clean).highWater := by
      simp only [State.highWater, manifest_putLedger, hm]
      exact Nat.le_max_left _ _
    exact Nat.le_trans (Nat.le_trans (h.bounded r hr) hhigh) hle
  · intro r hr
    rcases h.kept r hr with hr | hr
    · obtain ⟨q,hq,hview⟩ := List.mem_map.mp hr
      exact hview ▸ hkept q hq
    · exact Or.inr hr

variable [DecidableEq P]

theorem putCache (h : Sound V s) (p : P) (k : Option StoreCache) (hk : ∀ l, k = some l → s.Matches l) :
    Sound V (s.putCache p k) :=
  { h with
    cache := by
      intro q l hl
      simp only [State.putCache, Function.update_apply] at hl
      split at hl
      · exact ⟨(hk l hl).old,(hk l hl).same⟩
      · exact ⟨(h.cache q l hl).old,(h.cache q l hl).same⟩ }

theorem putCache_told (h : Sound V s) (p : P) (hclean : s.tail = .clean) : Sound V (s.putCache p (some s.told)) := by
  refine h.putCache p _ (fun l hl => ?_)
  obtain rfl := Option.some.inj hl
  exact ⟨h.identity,fun _ => ⟨hclean,rfl⟩⟩

theorem dropCache (h : Sound V s) (p : P) : Sound V (s.putCache p none) :=
  h.putCache p none (fun l hl => by cases hl)

end State.Sound

/-- One published state after another: sound, with the readable records changed by `E`. -/
def Steps {c : LedgerFormat} (V : RecordView c) (E : List StateLedgerEntry → List StateLedgerEntry → Prop) (s t : State P) : Prop :=
  t.Sound V ∧ E s.readable t.readable

/-- The readable records stay. -/
def Same (rs qs : List StateLedgerEntry) : Prop := qs = rs

/-- The readable records stay, or one with this payload, as the schema spells it, and this id is added. -/
def Adds (payload : LedgerPayload) (recordId : String) (rs qs : List StateLedgerEntry) : Prop :=
  qs = rs ∨ ∃ r, payload.Respelled r.payload ∧ r.recordId = recordId ∧ qs = rs ++ [r]

/-- What a compaction leaves of records: it reads them, and the checks read again those that stay. -/
def Compacts (c : LedgerFormat) (keepRecord : StateLedgerEntry → List StateLedgerEntry → Bool)
    (rs qs : List StateLedgerEntry) : Prop :=
  ∃ read, c.readRecords rs = some read ∧ c.readRecords (read.filter fun r => keepRecord r read) = some qs

/-- What stays has the cores of what is kept of the records as they are read. -/
theorem Compacts.cores {c : LedgerFormat} {keepRecord : StateLedgerEntry → List StateLedgerEntry → Bool}
    {rs qs : List StateLedgerEntry} (hrs : WellFormed rs) (h : Compacts c keepRecord rs qs) :
    ∃ read : List StateLedgerEntry, read.map StateLedgerEntry.core = rs.map StateLedgerEntry.core ∧
      qs.map StateLedgerEntry.core = (read.filter fun r => keepRecord r read).map StateLedgerEntry.core := by
  obtain ⟨read,hread,hagain⟩ := h
  obtain ⟨hwf,hcore⟩ := hrs.read hread
  exact ⟨read,hcore,readRecords_core (fun r hr => (hwf.acceptable r (List.mem_filter.mp hr).1).normalized) hagain⟩

/-- The readable records stay, or those of them that are not kept go, once. -/
def Keeps (c : LedgerFormat) (keepRecord : StateLedgerEntry → List StateLedgerEntry → Bool)
    (start rs qs : List StateLedgerEntry) : Prop :=
  qs = rs ∨ rs = start ∧ Compacts c keepRecord start qs

/-- The length of the ledger file. -/
def State.ledgerBytes (c : StoreFormat) (s : State P) : ℕ := s.ledger.elim 0 (·.byteLength c.toLedgerFormat)

/-- Both files are within the limit. -/
structure State.Fits (c : StoreFormat) (maxBytes : ℕ) (s : State P) : Prop where
  manifest : ∀ m, s.manifest = some m → c.manifestByteLength m ≤ maxBytes
  ledger : s.ledgerBytes c ≤ maxBytes

/-- The files are within the limit, and a record's text without its newline can be completed. -/
structure State.Repairable (c : StoreFormat) (maxBytes : ℕ) (s : State P) : Prop where
  fits : s.Fits c maxBytes
  pending : ∀ r, s.tail = .pending r → s.ledgerBytes c + 1 ≤ maxBytes

/-- The schema takes every record of the file. -/
def State.Readable (c : LedgerFormat) (s : State P) : Prop := ∀ r ∈ s.readable, (c.parse r).isSome

/-- How many tails a repair cuts off. -/
def State.tornTails (s : State P) : ℕ :=
  match s.tail with
  | .torn _ => 1
  | _ => 0

/-- The files are as they were, but for a tail that may have been repaired. -/
structure State.Untouched {c : LedgerFormat} (V : RecordView c) (s t : State P) : Prop where
  sound : t.Sound V
  manifest : t.manifest = s.manifest
  readable : t.readable = s.readable
  ledger : t.ledger = s.ledger ∨ s.tail ≠ .clean ∧ t.tail = .clean

section Reads
variable {c : StoreFormat} {V : RecordView c.toLedgerFormat} {o : AppendOnlyStoreOptions} {s : State P}

theorem State.Untouched.refl (h : s.Sound V) : s.Untouched V s := ⟨h,rfl,rfl,Or.inl rfl⟩

theorem State.fits_iff {maxBytes : ℕ} : s.Fits c maxBytes ↔
    (s.manifest.any (fun m => decide (maxBytes < c.manifestByteLength m)) ||
      s.ledger.any (fun f => decide (maxBytes < f.byteLength c.toLedgerFormat))) = false := by
  constructor
  · rintro ⟨hm,hl⟩
    cases hman : s.manifest <;> cases hled : s.ledger <;>
      simp_all [State.ledgerBytes]
  · intro h
    rw [Bool.or_eq_false_iff] at h
    refine ⟨fun m hm => ?_,?_⟩
    · simpa [hm] using h.1
    · cases hled : s.ledger with
      | none => simp [State.ledgerBytes, hled]
      | some f => simpa [State.ledgerBytes, hled] using h.2

theorem State.Sound.normalized (h : s.Sound V) : ∀ r ∈ s.readable, normalizeLedgerScope r = some r :=
  fun r hr => (h.wellFormed.acceptable r hr).normalized

theorem State.Sound.readable_iff (h : s.Sound V) :
    s.Readable c.toLedgerFormat ↔ ∃ qs, c.readRecords s.readable = some qs := by
  constructor
  · intro hreadable
    refine exists_mapM_eq_some fun r hr => ?_
    cases hread : c.readRecord r with
    | some q => exact ⟨q,rfl⟩
    | none =>
      have hsome := hreadable r hr
      rw [readRecord_none (h.normalized r hr) hread] at hsome
      cases hsome
  · rintro ⟨qs,hqs⟩ r hr
    obtain ⟨q,-,hq⟩ := forall₂_mem_left (readRecords_forall₂.mp hqs) hr
    rw [(readRecord_spelled (h.normalized r hr) hq).1]
    rfl

/-- A read of the whole file is one of the complete records and one of the pending one. -/
theorem readRecords_readable {qs : List StateLedgerEntry} (h : c.readRecords s.readable = some qs) :
    ∃ rs ps, c.readRecords s.records = some rs ∧ c.readRecords s.tail.pendingRecord.toList = some ps ∧ qs = rs ++ ps := by
  rw [State.readable, readRecords_append] at h
  obtain ⟨rs,hrs,h⟩ := Option.bind_eq_some_iff.mp h
  obtain ⟨ps,hps,rfl⟩ := Option.map_eq_some_iff.mp h
  exact ⟨rs,ps,hrs,hps,rfl⟩

/-- A sound file is taken for a corrupt one only where the schema refuses one of its records. -/
theorem readLedgerSnapshot_sound (h : s.Sound V) (maxBytes : ℕ) :
    ¬ s.Fits c maxBytes ∧
      readLedgerSnapshot c.toLedgerFormat maxBytes s.ledger s.manifest = .error .snapshotLimit ∨
    s.Fits c maxBytes ∧ ¬ s.Readable c.toLedgerFormat ∧
      readLedgerSnapshot c.toLedgerFormat maxBytes s.ledger s.manifest = .error .ledgerCorruption ∨
    s.Fits c maxBytes ∧ ∃ snapshot,
      readLedgerSnapshot c.toLedgerFormat maxBytes s.ledger s.manifest = .ok snapshot ∧
      c.readRecords s.records = some snapshot.records ∧ snapshot.complete = decide (s.tail = .clean) ∧
      c.readRecords s.tail.pendingRecord.toList = some snapshot.pendingRecord.toList ∧
      snapshot.byteLength = s.ledgerBytes c ∧ snapshot.lastSequence = lastSequence s.readable := by
  rw [State.fits_iff]
  simp only [readLedgerSnapshot]
  split
  · next hlimit => exact Or.inl ⟨by simp [hlimit],rfl⟩
  · next hlimit =>
    have hfits := Bool.eq_false_iff.mpr hlimit
    cases hl : s.ledger with
    | none =>
      have hzero : s.manifest.any (fun m => decide (0 < m.recordCount)) = false := by
        cases hm : s.manifest with
        | none => rfl
        | some m => simp [h.absent hl m hm]
      have htail : s.tail = .clean := by simp [State.tail, hl]
      have hrecords : s.records = [] := by simp [State.records, hl]
      rw [hl] at hfits
      refine Or.inr (Or.inr ⟨hfits,⟨true,[],0,0,0,none⟩,?_,?_,?_,?_,?_,?_⟩)
      · simp only [hzero, Bool.false_eq_true, if_false]
      · rw [hrecords]
        rfl
      · rw [htail, decide_eq_true rfl]
      · rw [htail]
        rfl
      · simp [State.ledgerBytes, hl]
      · rw [readable_of_clean htail, hrecords]
        rfl
    | some f =>
      have htail : s.tail = f.tail := by simp [State.tail, hl]
      have hrecords : s.records = f.records := by simp [State.records, hl]
      have hread : s.readable = f.readable := by
        rw [State.readable, LedgerFile.readable, htail, hrecords]
      have hwf : WellFormed f.readable := hread ▸ h.wellFormed
      have hg : ¬ f.garbled := by
        intro hgarbled
        obtain ⟨n,hn⟩ := hgarbled
        exact h.tail n (htail.trans hn)
      rw [hl] at hfits
      cases hqs : c.readRecords s.readable with
      | none =>
        refine Or.inr (Or.inl ⟨hfits,fun hreadable => ?_,LedgerFile.parse_error hwf (hread ▸ hqs)⟩)
        obtain ⟨qs,hsome⟩ := h.readable_iff.mp hreadable
        cases hqs.symm.trans hsome
      | some qs =>
        obtain ⟨rs,ps,hrs,hps,rfl⟩ := readRecords_readable hqs
        have hhead : ps.head?.toList = ps := by
          have hlength := (readRecords_forall₂.mp hps).length_eq
          cases hpending : s.tail.pendingRecord with
          | none =>
            rw [hpending] at hlength
            obtain rfl := List.length_eq_zero_iff.mp hlength.symm
            rfl
          | some r =>
            rw [hpending] at hlength
            obtain ⟨p,rfl⟩ := List.length_eq_one_iff.mp hlength.symm
            rfl
        refine Or.inr (Or.inr ⟨hfits,_,LedgerFile.parse_eq hwf hg (hrecords ▸ hrs) (htail ▸ hps),hrs,?_,?_,?_,?_⟩)
        · rw [htail]
        · rw [hps, hhead]
        · simp [State.ledgerBytes, hl]
        · rw [hread]

/-- Listing the records gives all of them as a read does, or fails. -/
theorem listRecords_spec (h : s.Sound V) {R : State P → State P → Prop}
    {Q : Except StoreError (List StateLedgerEntry) → State P → Prop}
    (hok : ∀ rs, s.tail = .clean → c.readRecords s.readable = some rs → Q (.ok rs) s)
    (hlimit : Q (.error (.read .snapshotLimit)) s) (hcorrupt : Q (.error (.read .ledgerCorruption)) s)
    (hincomplete : s.tail ≠ .clean → Q (.error (.read .incompleteSnapshot)) s) :
    Program.Wp R (listRecords c o) Q s := by
  simp only [listRecords, readSnapshot, Program.wp_bind, Program.wp_reads, Program.then_ok, Program.wp_ofExcept]
  rcases readLedgerSnapshot_sound h o.maxSnapshotBytes with
    ⟨-,hread⟩ | ⟨-,-,hread⟩ | ⟨-,snapshot,hread,hrecords,hcomplete,-⟩
  · rw [hread]
    exact hlimit
  · rw [hread]
    exact hcorrupt
  · rw [hread]
    simp only [Except.mapError, Program.then_ok, completeSnapshotRecords, hcomplete]
    by_cases htail : s.tail = .clean
    · rw [decide_eq_true htail, if_pos rfl]
      exact hok _ htail (by rw [readable_of_clean htail, hrecords])
    · rw [decide_eq_false htail, if_neg Bool.false_ne_true]
      exact hincomplete htail

/-- A file that has been made writable, with these records read from it. -/
structure State.Repaired {c : LedgerFormat} (V : RecordView c) (s t : State P) (rs : List StateLedgerEntry) : Prop where
  sound : t.Sound V
  clean : t.tail = .clean
  read : c.readRecords t.records = some rs
  manifest : t.manifest = s.manifest
  readable : t.readable = s.readable
  ledger : t.ledger = s.ledger ∨ s.tail ≠ .clean

namespace State.Repaired
variable {t : State P} {rs : List StateLedgerEntry}

theorem untouched (h : s.Repaired V t rs) : s.Untouched V t :=
  ⟨h.sound,h.manifest,h.readable,h.ledger.imp_right fun hs => ⟨hs,h.clean⟩⟩

theorem records_eq (h : s.Repaired V t rs) : t.records = s.readable := by
  rw [← h.readable, readable_of_clean h.clean]

/-- What is read tells the file as it is. -/
theorem told (h : s.Repaired V t rs) : rs.length = t.records.length ∧ lastSequence rs = lastSequence t.records ∧
    rs.map (·.recordId) = t.records.map (·.recordId) := by
  have hcore := readRecords_core (fun r hr => h.sound.normalized r (by rwa [readable_of_clean h.clean])) h.read
  obtain ⟨hids,hsequences⟩ := ids_of_core hcore
  exact ⟨by simpa using congrArg List.length hids,lastSequence_congr hsequences,hids⟩

theorem highWater (h : s.Repaired V t rs) :
    t.highWater = max (s.manifest.elim 0 (·.lastSequence)) (lastSequence t.records) := by
  rw [State.highWater, h.manifest, readable_of_clean h.clean]

end State.Repaired

/-- The file is repaired exactly where the limit and the schema allow it, and left as it is elsewhere. -/
theorem writableRecords_spec (h : s.Sound V) :
    Program.Wp (Steps V Same) (writableRecords c o)
      (fun x t => s.Untouched V t ∧
        (∀ r, x = .ok r → s.Repaired V t r.1 ∧ r.2 = s.tornTails ∧ s.Repairable c o.maxSnapshotBytes ∧ s.Readable c.toLedgerFormat) ∧
        ∀ e, x = .error e → e = .read .snapshotLimit ∧ ¬ s.Repairable c o.maxSnapshotBytes ∨
          e = .read .ledgerCorruption ∧ ¬ s.Readable c.toLedgerFormat) s := by
  simp only [writableRecords, readSnapshot, Program.wp_bind, Program.wp_reads, Program.then_ok,
    Program.wp_ofExcept]
  rcases readLedgerSnapshot_sound h o.maxSnapshotBytes with
    ⟨hfits,hread⟩ | ⟨-,hreadable,hread⟩ | ⟨hfits,snapshot,hread,hrecords,hcomplete,hpending,hbytes,-⟩
  · rw [hread]
    refine ⟨.refl h,fun r hr => (by cases hr),fun e he => ?_⟩
    cases he
    exact Or.inl ⟨rfl,fun hrepairable => hfits hrepairable.fits⟩
  · rw [hread]
    refine ⟨.refl h,fun r hr => (by cases hr),fun e he => ?_⟩
    cases he
    exact Or.inr ⟨rfl,hreadable⟩
  · rw [hread]
    simp only [Except.mapError, Program.then_ok]
    have hreadable : s.Readable c.toLedgerFormat :=
      h.readable_iff.mpr ⟨_,by rw [State.readable, readRecords_append, hrecords, hpending]; rfl⟩
    have hsome : s.tail ≠ .clean → s.ledger.isSome := by
      intro htail
      cases hl : s.ledger with
      | none => exact absurd (by simp [State.tail, hl]) htail
      | some f => rfl
    cases htail : s.tail with
    | clean =>
      rw [htail, decide_eq_true rfl] at hcomplete
      rw [hcomplete, if_pos rfl, Program.wp_pure]
      refine ⟨.refl h,fun r hr => ?_,fun e he => by cases he⟩
      cases hr
      exact ⟨⟨h,htail,hrecords,rfl,rfl,Or.inl rfl⟩,by simp [State.tornTails, htail],
        ⟨hfits,fun r hr => by simp [htail] at hr⟩,hreadable⟩
    | torn n =>
      rw [htail] at hcomplete hpending
      have hnone : snapshot.pendingRecord = none := by
        have hnil := Option.some.inj hpending
        cases hsnapshot : snapshot.pendingRecord with
        | none => rfl
        | some r =>
          rw [hsnapshot] at hnil
          cases hnil
      have hread : (s.putLedger s.records .clean).readable = s.readable := by
        rw [State.readable, State.readable, htail]
        rfl
      have hnext : (s.putLedger s.records .clean).Sound V :=
        h.putLedger_readable (h.opened (hsome (by simp [htail]))) (by simp) hread (fun _ hr => hr)
      have hrep : s.Repaired V (s.putLedger s.records .clean) snapshot.records :=
        ⟨hnext,rfl,hrecords,rfl,hread,Or.inr (by simp [htail])⟩
      simp only [hcomplete, hnone, reduceCtorEq, decide_false, Bool.false_eq_true, if_false,
        Program.wp_bind, Program.wp_write, Program.then_ok, Program.wp_pure]
      refine ⟨⟨hnext,hread⟩,hrep.untouched,fun r hr => ?_,fun e he => by cases he⟩
      cases hr
      exact ⟨hrep,by simp [State.tornTails, htail],⟨hfits,fun r hr => by simp [htail] at hr⟩,hreadable⟩
    | pending r =>
      rw [htail] at hcomplete hpending
      obtain ⟨q,hq,hread⟩ : ∃ q, snapshot.pendingRecord = some q ∧ c.readRecord r = some q := by
        change c.readRecords [r] = _ at hpending
        rw [readRecords_singleton] at hpending
        obtain ⟨q,hq,hlist⟩ := Option.map_eq_some_iff.mp hpending
        cases hsnapshot : snapshot.pendingRecord with
        | none =>
          rw [hsnapshot] at hlist
          cases hlist
        | some q' =>
          rw [hsnapshot] at hlist
          cases hlist
          exact ⟨q,rfl,hq⟩
      have hall : c.readRecords (s.records ++ [r]) = some (snapshot.records ++ [q]) := by
        rw [readRecords_append, hrecords, readRecords_singleton, hread]
        rfl
      have hread : (s.putLedger (s.records ++ [r]) .clean).readable = s.readable := by
        rw [State.readable, State.readable, htail]
        exact List.append_nil _
      have hnext : (s.putLedger (s.records ++ [r]) .clean).Sound V :=
        h.putLedger_readable (h.opened (hsome (by simp [htail]))) (by simp) hread
          (fun _ hr => List.mem_append_left _ hr)
      have hrep : s.Repaired V (s.putLedger (s.records ++ [r]) .clean) (snapshot.records ++ [q]) :=
        ⟨hnext,rfl,hall,rfl,hread,Or.inr (by simp [htail])⟩
      have hland : s.landNewline c = s.putLedger (s.records ++ [r]) .clean := by
        simp only [State.landNewline, htail]
      simp only [hcomplete, hq, reduceCtorEq, decide_false, Bool.false_eq_true, if_false,
        Program.wp_bind, Program.wp_throwIf, Program.wp_write, Program.then_ok, Program.then_error, Program.wp_pure,
        hland, hbytes]
      refine ⟨fun hlimit => ⟨.refl h,fun r hr => (by cases hr),fun e he => ?_⟩,fun hlimit =>
        ⟨⟨hnext,hread⟩,hrep.untouched,fun r hr => ?_,fun e he => by cases he⟩⟩
      · cases he
        refine Or.inl ⟨rfl,fun hrepairable => ?_⟩
        exact absurd (hrepairable.pending r htail) (Nat.not_le.mpr (of_decide_eq_true hlimit))
      · cases hr
        exact ⟨hrep,by simp [State.tornTails, htail],
          ⟨hfits,fun _ _ => Nat.not_lt.mp (of_decide_eq_false hlimit)⟩,hreadable⟩
    | garbled n => exact absurd htail (h.tail n)

end Reads
end AppendOnlyStore
end OmniagentPlus.StateLedger
