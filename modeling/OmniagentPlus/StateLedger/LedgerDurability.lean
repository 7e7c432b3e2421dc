import OmniagentPlus.StateLedger.LedgerSoundness
import OmniagentPlus.CoreContracts.HandoffPacket

/-! Durability and sequence discipline of the append-only store, at every point of every run. -/
namespace OmniagentPlus.StateLedger.AppendOnlyStore
open OmniagentPlus.Foundation OmniagentPlus.CoreContracts

variable {P : Type}

section Specs
variable {c : StoreFormat} {V : RecordView c.toLedgerFormat} {o : AppendOnlyStoreOptions} {s : State P}

/-- A manifest above the high water, with the right count, settles a clean file. -/
theorem State.Sound.settled (h : s.Sound V) (hclean : s.tail = .clean) {m : StoreManifest}
    (hm : s.manifest = some m) (hcount : m.recordCount = s.records.length) (hhigh : s.highWater ≤ m.lastSequence) :
    s.Settled where
  clean := hclean
  manifest := by
    refine ⟨m,hm,hcount,fun r hr => ?_,fun r hr => ?_⟩
    · exact Nat.le_trans (h.le_highWater r (State.Sound.records_sublist s |>.subset hr)) hhigh
    · exact Nat.le_trans (h.le_of_written (h.acknowledged_written r hr)) hhigh

/-- The manifest that an open writes. -/
def State.openedManifest (s : State P) (now : Instant) : StoreManifest :=
  let previous := s.manifest.getD (createEmptyManifest now)
  ⟨s.readable.length,max previous.lastSequence (lastSequence s.readable),previous.createdAt,now,
    previous.recoveredTailTruncations + s.tornTails⟩

theorem State.Sound.createLedger (h : s.Sound V) (hclean : s.tail = .clean) (hm : s.manifest.isSome) :
    s.createLedger.Sound V ∧ s.createLedger.tail = .clean ∧ s.createLedger.records = s.records ∧
      s.createLedger.manifest = s.manifest ∧ s.createLedger.acknowledged = s.acknowledged := by
  unfold State.createLedger
  split
  · exact ⟨h,hclean,rfl,rfl,rfl⟩
  · next hl =>
    have hnone : s.records = [] := by simp [State.records, Option.not_isSome_iff_eq_none.mp hl]
    refine ⟨h.putLedger_readable hm (by simp) ?_ (by simp [hnone]),rfl,hnone.symm,rfl,rfl⟩
    rw [readable_of_clean hclean, hnone]
    rfl

/-- The text of one more record, above the high water. -/
theorem State.Sound.putPending (h : s.Sound V) (hclean : s.tail.pendingRecord = none) (hm : s.manifest.isSome)
    {r : StateLedgerEntry} (hr : Acceptable r) (hheld : V.Held r) (hseq : s.highWater < r.sequence)
    (hid : r.recordId ∉ s.records.map (·.recordId)) :
    ({ s.putLedger s.records (.pending r) with written := s.written ++ [r] } : State P).Sound V := by
  have hread : s.readable = s.records := by
    rw [State.readable, hclean]
    exact List.append_nil _
  have hlast : lastSequence s.records < r.sequence :=
    Nat.lt_of_le_of_lt (by rw [State.highWater, hread]; exact Nat.le_max_right _ _) hseq
  have hnew : r.sequence ≤ (s.putLedger s.records (.pending r)).highWater := by
    have hlast : lastSequence (s.putLedger s.records (.pending r)).readable = r.sequence := lastSequence_append _ _
    rw [State.highWater, hlast]
    exact Nat.le_max_right _ _
  have hold : ∀ q, V.view q ∈ s.written.map V.view → V.view q ∈ (s.written ++ [r]).map V.view := by
    intro q hq
    rw [List.map_append]
    exact List.mem_append_left _ hq
  refine h.putLedger hm (by simp) ((hread ▸ h.wellFormed).append hr hlast hid) ?_ ?_ ?_ ?_ ?_ h.kept
  · intro q hq
    rcases List.mem_append.mp hq with hq | hq
    · exact h.held q (hread ▸ hq)
    · rwa [List.mem_singleton.mp hq]
  · intro q hq
    rcases List.mem_append.mp hq with hq | hq
    · exact hold q (h.readable_written q (hread ▸ hq))
    · rw [List.map_append]
      exact List.mem_append_right _ (List.mem_map_of_mem hq)
  · refine List.pairwise_append.mpr ⟨h.written,List.pairwise_singleton _ r,fun q hq r' hr' => ?_⟩
    rw [List.mem_singleton.mp hr']
    exact Nat.ne_of_lt (Nat.lt_of_le_of_lt (h.bounded q hq) hseq)
  · intro q hq
    rcases List.mem_append.mp hq with hq | hq
    · exact Nat.le_of_lt (Nat.lt_of_lt_of_le (Nat.lt_of_le_of_lt (h.bounded q hq) hseq) hnew)
    · rwa [List.mem_singleton.mp hq]
  · exact fun q hq => hold q (h.acknowledged_written q hq)

/-- One record more, above the high water, is written and complete. -/
theorem appendLine_spec (h : s.Sound V) (hclean : s.tail = .clean) (hm : s.manifest.isSome) {r : StateLedgerEntry}
    (hr : Acceptable r) (hheld : V.Held r) (hseq : s.highWater < r.sequence)
    (hid : r.recordId ∉ s.records.map (·.recordId)) (torn : ℕ) :
    Program.Wp (Steps V fun rs qs => qs = rs ∨ qs = rs ++ [r]) (appendLine c r torn)
      (fun x t => t.Sound V ∧ x = .ok PUnit.unit ∧ t.tail = .clean ∧ t.records = s.records ++ [r] ∧
        t.manifest = s.manifest ∧ t.acknowledged = s.acknowledged) s := by
  obtain ⟨h₁,hclean₁,hrecords,hmanifest,hacknowledged⟩ := h.createLedger hclean hm
  simp only [appendLine, Program.wp_bind, Program.wp_write, Program.then_ok]
  generalize s.createLedger = t at *
  have hm₁ : t.manifest.isSome := hmanifest ▸ hm
  have hread : t.readable = s.readable := by
    rw [readable_of_clean hclean, readable_of_clean hclean₁, hrecords]
  have hhigh : t.highWater = s.highWater := by
    simp only [State.highWater, hread, hmanifest]
  generalize min torn (c.recordByteLength r - 1) = torn
  have htorn : t.landTorn c torn = t.putLedger t.records (.torn torn) := by
    simp only [State.landTorn, hclean₁]
  have hread₂ : (t.putLedger t.records (.torn torn)).readable = t.readable := by
    rw [readable_of_clean hclean₁]
    exact List.append_nil _
  have h₂ : (t.putLedger t.records (.torn torn)).Sound V :=
    h₁.putLedger_readable hm₁ (by simp) hread₂ (fun _ hq => hq)
  have hhigh₂ : (t.putLedger t.records (.torn torn)).highWater = s.highWater := by
    simp only [State.highWater, hread₂, hread, manifest_putLedger, hmanifest]
  have h₃ := h₂.putPending rfl hm₁ hr hheld (hhigh₂ ▸ hseq) (hrecords ▸ hid)
  have h₄ := h₃.putLedger_readable (l := t.records ++ [r]) (u := .clean) hm₁ (by simp) (List.append_nil _)
    (fun _ hq => List.mem_append_left _ hq)
  have hnew : ∀ rs : List StateLedgerEntry, rs ++ [] ++ [r] = rs ++ [r] := by simp
  rw [htorn]
  exact ⟨⟨h₁,Or.inl hread⟩,⟨h₂,Or.inl hread₂⟩,⟨h₃,Or.inr (hnew t.records).symm⟩,⟨h₄,Or.inl (List.append_nil _)⟩,
    h₄,trivial,rfl,hrecords ▸ rfl,hmanifest,hacknowledged⟩

/-- What the checks leave is the record as the schema spells it, with its scope. -/
theorem checkRecord_spec {r q : StateLedgerEntry} (h : checkRecord c o r = .ok q) :
    c.readRecord r = some q ∧ q.schemaVersion = currentStateLedgerSchemaVersion := by
  simp only [checkRecord] at h
  split at h
  · cases h
  · next q' hq =>
    split at h
    · cases h
    · next hversion =>
      split at h
      · cases h
      · cases h
        exact ⟨hq,by simpa using hversion⟩

theorem checkRecord_error {r : StateLedgerEntry} {e : StoreError} (h : checkRecord c o r = .error e) : e ≠ .manifest := by
  intro he
  subst he
  simp only [checkRecord] at h
  split at h
  · cases h
  · split at h
    · cases h
    · split at h <;> cases h

theorem existingManifest_spec (s : State P) {R : State P → State P → Prop} {Q : Except StoreError StoreManifest → State P → Prop}
    (hnone : s.manifest = none → Q (.error (.read .ledgerCorruption)) s)
    (hsome : ∀ m, s.manifest = some m → Q (.ok m) s) :
    Program.Wp R existingManifest Q s := by
  simp only [existingManifest, Program.wp_bind, Program.wp_reads, Program.then_ok, Program.wp_ofExcept]
  cases hm : s.manifest with
  | none => exact hnone hm
  | some m => exact hsome m hm

/-- Acknowledging a record that is in the file and the last one written. -/
theorem State.Sound.acknowledge (h : s.Sound V) {r : StateLedgerEntry} (hr : r ∈ s.records)
    (hlast : ∀ q ∈ s.acknowledged, q.sequence < r.sequence) : (s.acknowledge [r]).Sound V :=
  { h with
    acknowledged := by
      refine List.pairwise_append.mpr ⟨h.acknowledged,List.pairwise_singleton _ r,fun q hq r' hr' => ?_⟩
      rw [List.mem_singleton.mp hr']
      exact hlast q hq
    acknowledged_written := by
      intro q hq
      rcases List.mem_append.mp hq with hq | hq
      · exact h.acknowledged_written q hq
      · rw [List.mem_singleton.mp hq]
        exact h.readable_written r (State.Sound.records_sublist s |>.subset hr)
    kept := by
      intro q hq
      rcases List.mem_append.mp hq with hq | hq
      · exact h.kept q hq
      · rw [List.mem_singleton.mp hq]
        exact Or.inl (List.mem_map_of_mem hr)
    cache := fun p k hk => ⟨(h.cache p k hk).old,(h.cache p k hk).same⟩ }

/-- The bytes of the lines of these records. -/
def linesLength (c : StoreFormat) (rs : List StateLedgerEntry) : ℕ := (rs.map c.recordByteLength).sum

theorem ledgerBytes_of_clean (hclean : s.tail = .clean) : s.ledgerBytes c = linesLength c s.records := by
  cases hl : s.ledger with
  | none => simp [State.ledgerBytes, linesLength, State.records, hl]
  | some f =>
    have htail : f.tail = .clean := by simpa [State.tail, hl] using hclean
    simp [State.ledgerBytes, linesLength, State.records, hl, LedgerFile.byteLength, LedgerFile.completeBytes,
      htail, Tail.byteLength]

/-- The manifest after one more record. -/
def State.nextManifest (s : State P) (m : StoreManifest) (now : Instant) : StoreManifest :=
  ⟨s.readable.length + 1,s.highWater + 1,m.createdAt,now,m.recoveredTailTruncations + s.tornTails⟩

/-- The checks of a compaction read the records that they let through. -/
theorem foldlM_checkKept {n : ℕ} {l kept rs : List StateLedgerEntry} (h : l.foldlM (checkKept c o n) kept = .ok rs) :
    ∃ qs, c.readRecords l = some qs ∧ rs = kept ++ qs := by
  induction l generalizing kept with
  | nil =>
    cases h
    exact ⟨[],rfl,(List.append_nil _).symm⟩
  | cons r l ih =>
    obtain ⟨kept',hr,h⟩ := except_bind_eq_ok.mp (List.foldlM_cons (m := Except StoreError) ▸ h)
    obtain ⟨q,hq,hr⟩ := except_bind_eq_ok.mp hr
    obtain ⟨hread,-⟩ := checkRecord_spec hq
    split at hr
    · cases hr
    · cases hr
      obtain ⟨qs,hqs,rfl⟩ := ih h
      exact ⟨q :: qs,readRecords_forall₂.mpr (.cons hread (readRecords_forall₂.mp hqs)),by simp⟩

variable [DecidableEq P]

/-- The manifest that tells a clean file is written, and then the cache. -/
theorem State.Sound.record (h : s.Sound V) (hclean : s.tail = .clean) {m : StoreManifest}
    (hcount : m.recordCount = s.records.length) (hhigh : s.highWater ≤ m.lastSequence) (p : P) :
    (s.putManifest m).Sound V ∧
      ((s.putManifest m).putCache p (some (s.putManifest m).told)).Sound V ∧
      ((s.putManifest m).putCache p (some (s.putManifest m).told)).highWater ≤ m.lastSequence := by
  have hput : (s.putManifest m).Sound V := by
    refine h.putManifest (Nat.le_trans hhigh (Nat.le_max_left _ _)) (fun hl => ?_)
    simp [hcount, State.records, hl]
  exact ⟨hput,hput.putCache_told p hclean,
    Nat.max_le.mpr ⟨Nat.le_refl _,Nat.le_trans (Nat.le_max_right _ _) hhigh⟩⟩

/-- An open repairs the ledger and writes its manifest; only a file over the limit is a limit to it. -/
theorem initializeStore_outcome (h : s.Sound V) (p : P) (now : Instant) :
    Program.Wp (Steps V Same) (initializeStore c o p now)
      (fun x t => t.Sound V ∧
        (x = .ok PUnit.unit → t.Settled ∧ t.readable = s.readable ∧ t.manifest = some (s.openedManifest now)) ∧
        (x = .error (.read .snapshotLimit) → ¬ (s.Repairable c o.maxSnapshotBytes ∧
          c.manifestByteLength (s.openedManifest now) ≤ o.maxSnapshotBytes))) s := by
  have hother : ∀ {e : StoreError} {q : Prop}, e ≠ .read .snapshotLimit →
      (.error e : Except StoreError PUnit) = .error (.read .snapshotLimit) → q := fun he hx => absurd (Except.error.inj hx) he
  simp only [initializeStore, Program.wp_bind, Program.wp_reads, Program.then_ok, Program.wp_throwIf,
    Program.then_error]
  refine ⟨fun _ => ⟨h,fun hx => (by cases hx),hother (by simp)⟩,fun _ => ?_⟩
  refine (writableRecords_spec h).mono (fun _ _ ht => ht) ?_
  rintro (e | ⟨rs,n⟩) t ⟨ht,hrep,herror⟩
  · refine ⟨ht.sound,fun hx => (by cases hx),fun hx hfits => ?_⟩
    obtain ⟨-,hno⟩ | ⟨rfl,-⟩ := herror e rfl
    · exact hno hfits.1
    · cases hx
  obtain ⟨hrep,rfl,-⟩ := hrep (rs,n) rfl
  have ht := hrep.sound
  obtain ⟨hlength,hlast,hids⟩ := hrep.told
  have hread : s.readable = t.records := hrep.records_eq.symm
  simp only [assertManifestCapacity, writeStoreManifest, cacheRecords, Program.wp_bind, Program.then_ok,
    Program.wp_throwIf, Program.then_error, Program.wp_write, hlength, hlast, hids]
  have hhigh := hrep.highWater
  generalize hm : (StoreManifest.mk _ _ _ _ _) = m
  obtain rfl : m = s.openedManifest now := by
    rw [← hm, State.openedManifest, hread]
  refine ⟨fun hlimit => ⟨ht,fun hx => (by cases hx),fun _ hfits => ?_⟩,fun _ =>
    ⟨fun _ => ⟨ht,fun hx => (by cases hx),hother (by simp)⟩,fun _ => ?_⟩⟩
  · exact absurd hfits.2 (Nat.not_le.mpr (of_decide_eq_true hlimit))
  have hle : t.highWater ≤ (s.openedManifest now).lastSequence := by
    rw [hhigh, State.openedManifest, hread]
    cases s.manifest <;> exact Nat.le_refl _
  have hcount : (s.openedManifest now).recordCount = t.records.length := by rw [State.openedManifest, hread]
  obtain ⟨hput,hend,hhigh⟩ := ht.record hrep.clean hcount hle p
  exact ⟨⟨hput,rfl⟩,⟨hend,rfl⟩,hend,fun _ => ⟨hend.settled hrep.clean rfl hcount hhigh,hrep.readable,rfl⟩,fun hx => by cases hx⟩

theorem initializeStore_spec (h : s.Sound V) (p : P) (now : Instant) :
    Program.Wp (Steps V Same) (initializeStore c o p now)
      (fun x t => t.Sound V ∧ (x = .ok PUnit.unit → t.Settled)) s :=
  (initializeStore_outcome h p now).mono (fun _ _ ht => ht) fun _ _ ht => ⟨ht.1,fun hx => (ht.2.1 hx).1⟩

/-- The cache of the process was made from the file as it is. -/
def State.Cached (s : State P) (p : P) : Prop := ∃ k, s.cache p = some k ∧ k.identity = s.ledgerIdentity

/-- The cache is made of the file as it is, where it is not yet or the limit and the schema allow it. -/
theorem currentCache_spec (h : s.Sound V) (p : P) :
    Program.Wp (Steps V Same) (currentCache c o p)
      (fun x t => s.Untouched V t ∧
        (∀ k, x = .ok k → t.tail = .clean ∧ k.1 = t.told ∧ k.2 = s.tornTails ∧
          (s.Cached p ∨ s.Repairable c o.maxSnapshotBytes ∧ s.Readable c.toLedgerFormat)) ∧
        ∀ e, x = .error e → e ≠ .manifest ∧ ¬ s.Cached p ∧
          ¬ (s.Repairable c o.maxSnapshotBytes ∧ s.Readable c.toLedgerFormat)) s := by
  simp only [currentCache, Program.wp_bind, Program.wp_reads, Program.then_ok]
  cases hfilter : (s.cache p).filter (fun k => k.identity = s.ledgerIdentity) with
  | some k =>
    obtain ⟨hk,hsame⟩ := Option.filter_eq_some_iff.mp hfilter
    obtain ⟨hclean,htold⟩ := (h.cache p k hk).same (of_decide_eq_true hsame)
    rw [Program.wp_pure]
    refine ⟨.refl h,fun k' hk' => ?_,fun e he => by cases he⟩
    cases hk'
    exact ⟨hclean,htold,by simp [State.tornTails, hclean],Or.inl ⟨k,hk,of_decide_eq_true hsame⟩⟩
  | none =>
    have hcached : ¬ s.Cached p := by
      rintro ⟨k,hk,hsame⟩
      have hsome : (s.cache p).filter (fun k => k.identity = s.ledgerIdentity) = some k :=
        Option.filter_eq_some_iff.mpr ⟨hk,decide_eq_true hsame⟩
      rw [hfilter] at hsome
      cases hsome
    simp only [Program.wp_bind]
    refine (writableRecords_spec h).mono (fun _ _ ht => ht) ?_
    rintro (e | ⟨rs,n⟩) t ⟨ht,hrep,herror⟩
    · refine ⟨ht,fun k hk => (by cases hk),fun e' he => ?_⟩
      cases he
      obtain ⟨rfl,hno⟩ | ⟨rfl,hno⟩ := herror e rfl
      · exact ⟨by simp,hcached,fun hboth => hno hboth.1⟩
      · exact ⟨by simp,hcached,fun hboth => hno hboth.2⟩
    obtain ⟨hrep,hn,hrepairable⟩ := hrep (rs,n) rfl
    obtain ⟨hlength,hlast,hids⟩ := hrep.told
    have hend := hrep.sound.putCache_told p hrep.clean
    have hleft : s.Untouched V (t.putCache p (some t.told)) := ⟨hend,ht.manifest,ht.readable,ht.ledger⟩
    simp only [cacheRecords, Program.then_ok, Program.wp_write, Program.wp_reads, Program.wp_pure, hlength, hlast, hids]
    refine ⟨⟨hend,rfl⟩,hleft,fun k hk => ?_,fun e he => by cases he⟩
    cases hk
    exact ⟨hrep.clean,rfl,hn,Or.inr hrepairable⟩

/-- The checks before the write of an append let its input through, as this record and with this
manifest as the last one. -/
structure State.Lands (c : StoreFormat) (o : AppendOnlyStoreOptions) (p : P) (s : State P) (input : AppendRecordInput)
    (now : Instant) (generatedId : String) (m : StoreManifest) (r : StateLedgerEntry) : Prop where
  metadata : c.metadataSafe input = true
  manifest : s.manifest = some m
  current : s.Cached p ∨ s.Repairable c o.maxSnapshotBytes ∧ s.Readable c.toLedgerFormat
  sequence : s.highWater + 1 ≤ maxSafeInteger
  version : ∀ n, input.schemaVersion = some n → n = currentStateLedgerSchemaVersion
  record : checkRecord c o (inputRecord input now generatedId (s.highWater + 1)) = .ok r
  unused : r.recordId ∉ s.readable.map (·.recordId)
  manifestBytes : c.manifestByteLength (s.nextManifest m now) ≤ o.maxSnapshotBytes
  ledgerBytes : linesLength c s.readable + c.recordByteLength r ≤ o.maxSnapshotBytes

/-- An append writes its record exactly where its checks let the input through, and otherwise leaves the
files as they were; the manifest is refused once the record has been written. -/
theorem appendRecord_outcome (h : s.Sound V) (p : P) {input : AppendRecordInput} (htakes : V.Takes input.payload)
    (now : Instant) (generatedId : String) (torn : ℕ) :
    Program.Wp (Steps V (Adds input.payload (input.recordId.getD generatedId)))
      (appendRecord c o p input now generatedId torn)
      (fun x t => t.Sound V ∧
        (∀ r, x = .ok r → ((t.acknowledge [r]).Sound V ∧ (t.acknowledge [r]).Settled) ∧
          input.payload.Respelled r.payload ∧ r.recordId = input.recordId.getD generatedId ∧
          t.readable = s.readable ++ [r] ∧ ∃ m, s.Lands c o p input now generatedId m r ∧
            (s.nextManifest m now).allowed = true ∧ t.manifest = some (s.nextManifest m now)) ∧
        ∀ e, x = .error e → e ≠ .manifest ∧ (∀ m r, ¬ s.Lands c o p input now generatedId m r) ∧ s.Untouched V t ∨
          e = .manifest ∧ ∃ m r, s.Lands c o p input now generatedId m r ∧ (s.nextManifest m now).allowed = false ∧
            t.readable = s.readable ++ [r]) s := by
  have hok : ∀ {e : StoreError} {r : StateLedgerEntry} {q : Prop}, (.error e : Except StoreError StateLedgerEntry) = .ok r → q :=
    fun hr => by cases hr
  simp only [appendRecord, Program.wp_bind, Program.wp_throwIf, Program.then_error, Program.then_ok]
  refine ⟨fun hsafe => ⟨h,fun r hr => hok hr,fun e he => Or.inl ⟨?_,fun m r ha => ?_,.refl h⟩⟩,fun hsafe =>
    existingManifest_spec s ?_ ?_⟩
  · cases he
    simp
  · simp [ha.metadata] at hsafe
  · refine fun hnone => ⟨h,fun r hr => hok hr,fun e he => Or.inl ⟨?_,fun m r ha => ?_,.refl h⟩⟩
    · cases he
      simp
    · cases hnone.symm.trans ha.manifest
  intro m hm
  refine (currentCache_spec h p).mono (fun _ _ ht => ⟨ht.1,Or.inl ht.2⟩) ?_
  rintro (e | ⟨k,n⟩) t ⟨hleft,hcurrent,herror⟩
  · obtain ⟨hne,hcached,hrepairable⟩ := herror e rfl
    refine ⟨hleft.sound,fun r hr => hok hr,fun e' he => Or.inl ⟨?_,fun m r ha => ?_,hleft⟩⟩
    · cases he
      exact hne
    · exact ha.current.elim hcached hrepairable
  obtain ⟨hclean,rfl,rfl,hcached⟩ : _ ∧ k = t.told ∧ n = s.tornTails ∧ _ := hcurrent (k,n) rfl
  have ht := hleft.sound
  have hman : t.manifest = some m := hleft.manifest.trans hm
  have hread : s.readable = t.records := by rw [← hleft.readable, readable_of_clean hclean]
  have hhigh : s.highWater = max m.lastSequence (lastSequence t.records) := by
    rw [State.highWater, hm, hread]
    rfl
  have hhigh' : t.highWater = s.highWater := by
    rw [State.highWater, hman, hleft.readable, State.highWater, hm]
  have hnext : (StoreManifest.mk (t.told.count + 1) (s.highWater + 1) m.createdAt now
      (m.recoveredTailTruncations + s.tornTails)) = s.nextManifest m now := by
    rw [State.nextManifest, hread]
    rfl
  have hsequence : max m.lastSequence t.told.lastSequence + 1 = s.highWater + 1 := by
    rw [hhigh]
    rfl
  have hunique : ∀ {m' r}, s.Lands c o p input now generatedId m' r → m' = m := fun ha =>
    Option.some.inj (ha.manifest.symm.trans hm)
  -- what an error of a later check amounts to
  have hrefused : ∀ e : StoreError, e ≠ .manifest → (∀ m r, ¬ s.Lands c o p input now generatedId m r) →
      t.Sound V ∧ (∀ r, (.error e : Except StoreError StateLedgerEntry) = .ok r →
        ((t.acknowledge [r]).Sound V ∧ (t.acknowledge [r]).Settled) ∧
          input.payload.Respelled r.payload ∧ r.recordId = input.recordId.getD generatedId ∧
          t.readable = s.readable ++ [r] ∧ ∃ m, s.Lands c o p input now generatedId m r ∧
            (s.nextManifest m now).allowed = true ∧ t.manifest = some (s.nextManifest m now)) ∧
        ∀ e', (.error e : Except StoreError StateLedgerEntry) = .error e' →
          e' ≠ .manifest ∧ (∀ m r, ¬ s.Lands c o p input now generatedId m r) ∧ s.Untouched V t ∨
          e' = .manifest ∧ ∃ m r, s.Lands c o p input now generatedId m r ∧ (s.nextManifest m now).allowed = false ∧
            t.readable = s.readable ++ [r] :=
    fun e hne ha => ⟨ht,fun r hr => hok hr,fun e' he => Or.inl ⟨Except.error.inj he ▸ hne,ha,hleft⟩⟩
  simp only [Program.then_ok, Program.wp_throwIf, Program.then_error, Program.wp_ofExcept,
    assertManifestCapacity, Program.wp_reads, Program.wp_write, Program.wp_pure, hsequence]
  generalize hn : (StoreManifest.mk _ _ _ _ _) = n
  obtain rfl : n = s.nextManifest m now := hn.symm.trans hnext
  refine ⟨fun hlast => hrefused _ (by simp) fun m' r ha => ?_,fun hlast => ⟨fun hversion => hrefused _ (by simp) fun m' r ha => ?_,
    fun hversion => ?_⟩⟩
  · exact absurd ha.sequence (Nat.not_le.mpr (of_decide_eq_true hlast))
  · cases hv : input.schemaVersion with
    | none => simp [hv] at hversion
    | some v => simp [hv, ha.version v hv] at hversion
  cases hcheck : checkRecord c o (inputRecord input now generatedId (s.highWater + 1)) with
  | error e =>
    refine hrefused _ (checkRecord_error hcheck) fun m' r ha => ?_
    cases hcheck.symm.trans ha.record
  | ok r =>
    have hsame : ∀ {m' r'}, s.Lands c o p input now generatedId m' r' → m' = m ∧ r' = r := fun ha =>
      ⟨hunique ha,Except.ok.inj (ha.record.symm.trans hcheck)⟩
    have hbytes : t.ledger.elim 0 (·.byteLength c.toLedgerFormat) = linesLength c s.readable := by
      rw [hread]
      exact ledgerBytes_of_clean hclean
    simp only [Program.then_ok, hbytes]
    refine ⟨fun hid => hrefused _ (by simp) fun m' r' ha => ?_,fun hid => ⟨fun hlimit => hrefused _ (by simp) fun m' r' ha => ?_,fun hlimit =>
      ⟨fun hlimit' => hrefused _ (by simp) fun m' r' ha => ?_,fun hlimit' => ⟨⟨ht.dropCache p,Or.inl rfl⟩,?_⟩⟩⟩⟩
    · obtain ⟨rfl,rfl⟩ := hsame ha
      exact ha.unused (by simpa [State.told, hread] using hid)
    · obtain ⟨rfl,rfl⟩ := hsame ha
      exact absurd ha.manifestBytes (Nat.not_le.mpr (of_decide_eq_true hlimit))
    · obtain ⟨rfl,rfl⟩ := hsame ha
      exact absurd ha.ledgerBytes (Nat.not_le.mpr (of_decide_eq_true hlimit'))
    obtain ⟨hreads,hversion'⟩ := checkRecord_spec hcheck
    obtain ⟨q,hq,hnormal⟩ := Option.bind_eq_some_iff.mp hreads
    obtain ⟨hspelled,hrespelled⟩ := c.parse_eq _ q hq
    obtain ⟨hrecordId,hseq,-,hidem⟩ := normalizeLedgerScope_eq hnormal
    have hpayload : input.payload.Respelled r.payload := by
      rw [(normalizeLedgerScope_scope hnormal).1]
      exact hrespelled
    have hrecordId : r.recordId = input.recordId.getD generatedId := by
      rw [hrecordId, hspelled]
      rfl
    have hseq : r.sequence = s.highWater + 1 := by
      rw [hseq, hspelled]
      rfl
    have hsafe' : s.highWater + 1 ≤ maxSafeInteger := Nat.not_lt.mp (of_decide_eq_false hlast)
    have hr : Acceptable r := ⟨hversion',hseq ▸ hsafe',by omega,hidem⟩
    have hid : r.recordId ∉ t.records.map (·.recordId) := by simpa [State.told] using hid
    have hlands : s.Lands c o p input now generatedId m r :=
      { metadata := by simpa using hsafe
        manifest := hm
        current := hcached
        sequence := hsafe'
        version := by
          intro v hv
          simpa [hv] using hversion
        record := hcheck
        unused := hread ▸ hid
        manifestBytes := Nat.not_lt.mp (of_decide_eq_false hlimit)
        ledgerBytes := Nat.not_lt.mp (of_decide_eq_false hlimit') }
    refine (appendLine_spec (ht.dropCache p) hclean (by rw [manifest_putCache, hman]; rfl) hr (htakes _ r rfl hreads)
      (by rw [hseq, ← hhigh']; exact Nat.lt_succ_self _) hid torn).mono
      (fun _ _ hu => ⟨hu.1,hu.2.imp_right fun heq => ⟨r,hpayload,hrecordId,heq⟩⟩) ?_
    rintro x u ⟨hu,rfl,hclean,hrecords,hmanifest,hacknowledged⟩
    simp only [writeStoreManifest, Program.wp_bind, Program.wp_throwIf, Program.then_ok, Program.then_error,
      Program.wp_write]
    have hunread : u.readable = s.readable ++ [r] := by
      rw [readable_of_clean hclean, hrecords, hread, records_putCache]
    refine ⟨fun hrefuse => ⟨hu,fun r hr => hok hr,fun e he => Or.inr ⟨(Except.error.inj he).symm,m,r,hlands,
      by simpa using hrefuse,hunread⟩⟩,fun hallow => ?_⟩
    have hlast : (s.nextManifest m now).lastSequence = r.sequence := hseq.symm
    have hcount : (s.nextManifest m now).recordCount = u.records.length := by
      rw [hrecords, List.length_append, State.nextManifest, hread]
      rfl
    have hle : u.highWater ≤ (s.nextManifest m now).lastSequence := by
      rw [hlast, State.highWater, hunread, lastSequence_append, hmanifest, manifest_putCache, hman, hseq]
      refine Nat.max_le.mpr ⟨Nat.le_succ_of_le ?_,Nat.le_refl _⟩
      rw [hhigh]
      exact Nat.le_max_left _ _
    obtain ⟨hput,hend,hhigh''⟩ := hu.record hclean hcount hle p
    have htold : (u.putManifest (s.nextManifest m now)).told =
        ⟨u.ledgerIdentity,t.told.count + 1,s.highWater + 1,t.told.ids ++ [r.recordId]⟩ := by
      simp only [State.told, records_putManifest, hrecords, records_putCache, List.length_append,
        List.length_singleton, lastSequence_append, List.map_append, List.map_singleton, hseq]
      rfl
    rw [htold] at hend hhigh''
    refine ⟨⟨hput,Or.inl rfl⟩,⟨hend,Or.inl rfl⟩,hend,fun q hq => ?_,fun e he => by cases he⟩
    cases hq
    have hack := hend.acknowledge (r := r) (by simp [hrecords]) (fun q hq => ?_)
    · exact ⟨⟨hack,hack.settled hclean rfl hcount hhigh''⟩,hpayload,hrecordId,hunread,m,
        hlands,by simpa using hallow,rfl⟩
    · have hq : q ∈ t.acknowledged := hacknowledged ▸ hq
      have := ht.le_of_written (ht.acknowledged_written q hq)
      omega

theorem appendRecord_spec (h : s.Sound V) (p : P) {input : AppendRecordInput} (htakes : V.Takes input.payload)
    (now : Instant) (generatedId : String) (torn : ℕ) :
    Program.Wp (Steps V (Adds input.payload (input.recordId.getD generatedId)))
      (appendRecord c o p input now generatedId torn)
      (fun x t => t.Sound V ∧ ∀ r, x = .ok r → ((t.acknowledge [r]).Sound V ∧ (t.acknowledge [r]).Settled) ∧
        input.payload.Respelled r.payload ∧ r.recordId = input.recordId.getD generatedId ∧
        t.readable = s.readable ++ [r]) s := by
  refine (appendRecord_outcome h p htakes now generatedId torn).mono (fun _ _ ht => ht) ?_
  rintro x t ⟨ht,hok,-⟩
  refine ⟨ht,fun r hr => ?_⟩
  obtain ⟨hend,hpayload,hid,hread,-⟩ := hok r hr
  exact ⟨hend,hpayload,hid,hread⟩

theorem compactRecords_outcome (h : s.Sound V) (p : P)
    (keepRecord : StateLedgerEntry → List StateLedgerEntry → Option Bool) (now : Instant) :
    Program.Wp (Steps V (Keeps c.toLedgerFormat (fun r rs => (keepRecord r rs).getD false) s.readable))
      (compactRecords c o p keepRecord now)
      (fun x t => t.Sound V ∧
        (∀ r, x = .ok r → t.Settled ∧
          Compacts c.toLedgerFormat (fun q rs => (keepRecord q rs).getD false) s.readable t.readable ∧
          ∃ m, t.manifest = some m ∧ m.updatedAt = now) ∧
        ∀ e, x = .error e → e ≠ .manifest → s.Untouched V t) s := by
  simp only [compactRecords, Program.wp_bind]
  refine existingManifest_spec s (fun _ => ⟨h,fun r hr => (by cases hr),fun _ _ _ => .refl h⟩) (fun m hm => ?_)
  refine (writableRecords_spec h).mono (fun _ _ ht => ⟨ht.1,Or.inl ht.2⟩) ?_
  rintro (e | ⟨rs,n⟩) t ⟨hleft,hrep,-⟩
  · exact ⟨hleft.sound,fun r hr => (by cases hr),fun _ _ _ => hleft⟩
  have hrep := (hrep (rs,n) rfl).1
  have ht := hrep.sound
  have hnormal : ∀ r ∈ t.records, normalizeLedgerScope r = some r := fun r hr =>
    ht.normalized r (State.Sound.records_sublist t |>.subset hr)
  obtain ⟨hwf,-⟩ := (ht.wellFormed.sublist (State.Sound.records_sublist t)).read hrep.read
  obtain ⟨hheld,hviews⟩ := RecordView.read_all hnormal
    (fun r hr => ht.held r (State.Sound.records_sublist t |>.subset hr)) hrep.read
  have hlastRead := hrep.told.2.1
  simp only [Program.then_ok, Program.then_error, Program.wp_write, Program.wp_ofExcept, assertManifestCapacity,
    writeStoreManifest, cacheRecords, Program.wp_bind, Program.wp_throwIf, Program.wp_pure, hlastRead]
  refine ⟨fun _ => ⟨ht,fun r hr => (by cases hr),fun _ _ _ => hleft⟩,fun _ => ?_⟩
  generalize hu : ({ t with pruned := t.pruned ++ rs.filter (fun r => !(keepRecord r rs).getD false) } : State P) = u
  have hman : u.manifest = some m := by
    rw [← hu]
    exact hrep.manifest.trans hm
  have hhigh : u.highWater = max m.lastSequence (lastSequence t.records) := by
    rw [← hu]
    exact hrep.highWater.trans (by rw [hm]; rfl)
  have hclean : u.tail = .clean := hu ▸ hrep.clean
  have hrecords : u.records = t.records := hu ▸ rfl
  have hsound : u.Sound V := by
    rw [← hu]
    exact { ht with
      kept := fun r hr => (ht.kept r hr).imp_right fun hmem => List.map_subset _ (List.subset_append_left _ _) hmem
      cache := fun q k hk => ⟨(ht.cache q k hk).old,(ht.cache q k hk).same⟩ }
  have hpruned : ∀ r ∈ rs, (keepRecord r rs).getD false = false → r ∈ u.pruned := by
    intro r hr hk
    rw [← hu]
    exact List.mem_append_right _ (List.mem_filter.mpr ⟨hr,by simp [hk]⟩)
  have hpassed : s.Untouched V u := by
    rw [← hu]
    exact ⟨hu ▸ hsound,hleft.manifest,hleft.readable,hleft.ledger⟩
  refine ⟨⟨hsound,Or.inl (by rw [← hu]; rfl)⟩,?_⟩
  cases hfold : (rs.filter (fun r => (keepRecord r rs).getD false)).foldlM
      (checkKept c o (max m.lastSequence (lastSequence t.records))) [] with
  | error e => exact ⟨hsound,fun r hr => (by cases hr),fun _ _ _ => hpassed⟩
  | ok kept =>
    obtain ⟨_,hqs,rfl⟩ := foldlM_checkKept hfold
    -- what stays has been read a second time
    have hstay : (rs.filter (fun r => (keepRecord r rs).getD false)).Sublist rs := List.filter_sublist
    obtain ⟨hwfq,-⟩ := (hwf.sublist hstay).read hqs
    obtain ⟨hheldq,hviewsq⟩ := RecordView.read_all (fun r hr => (hwf.acceptable r (hstay.subset hr)).normalized)
      (fun r hr => hheld r (hstay.subset hr)) hqs
    have hsub : kept.map V.view ⊆ u.records.map V.view := by
      rw [hviewsq, hrecords, ← hviews]
      exact List.map_subset _ hstay.subset
    simp only [Program.then_ok]
    generalize hm₁ : (StoreManifest.mk m.recordCount _ _ _ _) = m₁
    have hlast : m₁.lastSequence = u.highWater := by rw [hhigh, ← hm₁]
    have hput : (u.putManifest m₁).Sound V := by
      refine hsound.putManifest (hlast ▸ Nat.le_max_left _ _) (fun hl => ?_)
      rw [← hm₁]
      exact hsound.absent hl m hman
    have hdrop := hput.dropCache p
    have hprune : (((u.putManifest m₁).putCache p none).putLedger kept .clean).Sound V := by
      refine hdrop.prune rfl hclean (Nat.max_le.mpr ⟨Nat.le_refl _,?_⟩) hwfq hheldq hsub (fun r hr => ?_)
      · exact hlast ▸ Nat.le_max_right _ _
      · have hmem : V.view r ∈ rs.map V.view := by
          rw [hviews, ← hrecords]
          exact List.mem_map_of_mem hr
        obtain ⟨q,hq,hview⟩ := List.mem_map.mp hmem
        rw [← hview, hviewsq]
        cases hk : (keepRecord q rs).getD false with
        | true => exact Or.inl (List.mem_map_of_mem (List.mem_filter.mpr ⟨hq,hk⟩))
        | false => exact Or.inr (List.mem_map_of_mem (hpruned q hq hk))
    have hle : (((u.putManifest m₁).putCache p none).putLedger kept .clean).highWater ≤ m₁.lastSequence := by
      refine Nat.max_le.mpr ⟨Nat.le_refl _,?_⟩
      rcases eq_or_ne kept [] with rfl | hne
      · exact Nat.zero_le _
      · obtain ⟨r,hr,hseq⟩ := lastSequence_of_mem hne
        obtain ⟨q,hq,hview⟩ := RecordView.exists_of_mem (hsub (List.mem_map_of_mem hr))
        have hread : (((u.putManifest m₁).putCache p none).putLedger kept .clean).readable = kept := List.append_nil _
        rw [hread, ← hseq, ← hview, hlast]
        exact hsound.le_highWater q (State.Sound.records_sublist u |>.subset hq)
    have hstart : s.readable = t.records := hrep.records_eq.symm
    have hbefore : ((u.putManifest m₁).putCache p none).readable = s.readable :=
      (readable_of_clean (s := u) hclean).trans (hrecords.trans hstart.symm)
    have hnew : (((u.putManifest m₁).putCache p none).putLedger kept .clean).readable = kept := List.append_nil _
    have hcompacts : Compacts c.toLedgerFormat (fun q rs => (keepRecord q rs).getD false) s.readable kept :=
      ⟨rs,hstart ▸ hrep.read,hqs⟩
    have herr : ∀ (t : State P) (e : StoreError), t.Sound V → (e ≠ .manifest → s.Untouched V t) → t.Sound V ∧
        (∀ r, (.error e : Except StoreError (List StateLedgerEntry × List StateLedgerEntry)) = .ok r →
          t.Settled ∧ Compacts c.toLedgerFormat (fun q rs => (keepRecord q rs).getD false) s.readable t.readable ∧
          ∃ m, t.manifest = some m ∧ m.updatedAt = now) ∧
        ∀ e', (.error e : Except StoreError (List StateLedgerEntry × List StateLedgerEntry)) = .error e' →
          e' ≠ .manifest → s.Untouched V t :=
      fun t e ht he => ⟨ht,fun r hr => (by cases hr),fun e' he' hne => he (by rwa [Except.error.inj he'])⟩
    have hearly := fun e : StoreError => herr u e hsound fun _ => hpassed
    refine ⟨fun _ => hearly _,fun _ => ⟨fun _ => hearly _,fun _ => ⟨fun _ => hearly _,fun _ =>
      ⟨fun _ => hearly _,fun _ => ⟨⟨hput,Or.inl rfl⟩,⟨hdrop,Or.inl rfl⟩,⟨hprune,Or.inr ⟨hbefore,by rw [hnew]; exact hcompacts⟩⟩,
        fun _ => herr _ _ hprune (absurd rfl),fun _ => ?_⟩⟩⟩⟩⟩
    generalize hm₂ : (StoreManifest.mk kept.length _ _ _ _) = m₂
    obtain ⟨hput₂,hend,hhigh₂⟩ := hprune.record (m := m₂) rfl (by rw [← hm₂]; rfl)
      (by rw [← hm₂, ← hm₁] at *; exact hle) p
    refine ⟨⟨hput₂,Or.inl rfl⟩,⟨hend,Or.inl rfl⟩,hend,fun r _ => ⟨hend.settled rfl rfl (by rw [← hm₂]; rfl) hhigh₂,?_,
      m₂,rfl,by rw [← hm₂]⟩,fun e he => by cases he⟩
    exact ⟨rs,hstart ▸ hrep.read,hqs.trans (congrArg some hnew.symm)⟩

theorem compactRecords_spec (h : s.Sound V) (p : P)
    (keepRecord : StateLedgerEntry → List StateLedgerEntry → Option Bool) (now : Instant) :
    Program.Wp (Steps V (Keeps c.toLedgerFormat (fun r rs => (keepRecord r rs).getD false) s.readable))
      (compactRecords c o p keepRecord now)
      (fun x t => t.Sound V ∧ ∀ r, x = .ok r → t.Settled ∧
        Compacts c.toLedgerFormat (fun q rs => (keepRecord q rs).getD false) s.readable t.readable) s :=
  (compactRecords_outcome h p keepRecord now).mono (fun _ _ ht => ht) fun _ _ ht =>
    ⟨ht.1,fun r hr => ⟨(ht.2.1 r hr).1,(ht.2.1 r hr).2.1⟩⟩

end Specs

section Runs
variable {c : StoreFormat} {V : RecordView c.toLedgerFormat} {s t : State P}

/-- What an operation appends has the property of the view once it has been checked. -/
def Action.Takes (V : RecordView c.toLedgerFormat) (a : Action P) : Prop :=
  ∀ input generatedId torn, a.operation = .append input generatedId torn → V.Takes input.payload

theorem Action.core_takes (a : Action P) : a.Takes (RecordView.core c.toLedgerFormat) :=
  fun _ _ _ _ => RecordView.core_takes _

theorem Action.ReadsBack.takes {a : Action P} (h : a.ReadsBack c) : a.Takes (RecordView.whole c.toLedgerFormat) :=
  fun input generatedId torn ha => RecordView.whole_takes (h input generatedId torn ha)

@[simp] theorem acknowledge_nil (s : State P) : s.acknowledge [] = s := by
  simp [State.acknowledge]

/-- Of records that read back, a read gives each as it is. -/
theorem readRecords_whole (h : s.Sound (RecordView.whole c.toLedgerFormat)) {rs : List StateLedgerEntry}
    (hrs : rs ⊆ s.readable) : c.readRecords rs = some rs :=
  readRecords_self fun r hr => h.held r (hrs hr)

variable [DecidableEq P]

theorem program_spec (h : s.Sound V) {a : Action P} (htakes : a.Takes V) :
    Program.Wp (fun _ t => t.Sound V) (a.program c)
      (fun x t => t.Sound V ∧ ∀ rs, x = .ok rs → (t.acknowledge rs).Sound V ∧ (t.acknowledge rs).Settled) s := by
  obtain ⟨p,o,now,operation,ending⟩ := a
  cases operation with
  | opening =>
    simp only [Action.program, Program.wp_bind, Program.wp_pure]
    refine (initializeStore_spec h p now).mono (fun _ _ ht => ht.1) ?_
    rintro (e | u) t ⟨ht,hsettled⟩
    · exact ⟨ht,fun rs hrs => by cases hrs⟩
    · refine ⟨ht,fun rs hrs => ?_⟩
      cases hrs
      rw [acknowledge_nil]
      exact ⟨ht,hsettled rfl⟩
  | append input generatedId torn =>
    simp only [Action.program, Program.wp_bind, Program.wp_pure]
    refine (appendRecord_spec h p (htakes input generatedId torn rfl) now generatedId torn).mono (fun _ _ ht => ht.1) ?_
    rintro (e | r) t ⟨ht,hsettled⟩
    · exact ⟨ht,fun rs hrs => by cases hrs⟩
    · refine ⟨ht,fun rs hrs => ?_⟩
      cases hrs
      exact (hsettled r rfl).1
  | compact keepRecord =>
    simp only [Action.program, Program.wp_bind, Program.wp_pure]
    refine (compactRecords_spec h p keepRecord now).mono (fun _ _ ht => ht.1) ?_
    rintro (e | r) t ⟨ht,hsettled⟩
    · exact ⟨ht,fun rs hrs => by cases hrs⟩
    · refine ⟨ht,fun rs hrs => ?_⟩
      cases hrs
      rw [acknowledge_nil]
      exact ⟨ht,(hsettled r rfl).1⟩

theorem step_sound (h : s.Sound V) {a : Action P} (htakes : a.Takes V) (ha : step c s a = some t) : t.Sound V := by
  have hspec := program_spec h htakes
  unfold step at ha
  split at ha
  · split at ha
    · next rs hrs =>
      cases ha
      exact (hspec.2.2 rs hrs).1
    · cases ha
      exact hspec.2.1
  · cases ha
    exact hspec.crash (fun _ _ hu _ => hu) h _
  · cases ha
    exact (hspec.crash (fun _ _ hu _ => hu) h _).dropCache a.process

theorem step_settled (h : s.Sound V) {a : Action P} (htakes : a.Takes V) (hsucceeds : a.succeeds c s)
    (ha : step c s a = some t) : t.Settled := by
  obtain ⟨⟨rs,hrs⟩,hending⟩ := hsucceeds
  unfold step at ha
  split at ha
  · rw [hrs] at ha
    cases ha
    exact ((program_spec h htakes).2.2 rs hrs).2
  · next hfails => simp [hfails] at hending
  · next hcrashes => simp [hcrashes] at hending

theorem run_sound {as : List (Action P)} (htakes : ∀ a ∈ as, a.Takes V) (h : run (step c) State.init as = some s) :
    s.Sound V :=
  run_invariant_of_meets (step c) (fun _ _ _ hs ha hst => step_sound hs ha hst) State.Sound.init
    (meets_of_forall (step c) htakes State.init) h

/-- Of the cores of records, every run keeps the invariant. -/
theorem run_core {as : List (Action P)} (h : run (step c) State.init as = some s) :
    s.Sound (RecordView.core c.toLedgerFormat) :=
  run_sound (fun a _ => a.core_takes) h

/-- In every state of every run whose appends read back: acknowledged sequences increase, no
sequence has been given twice, a read finds every acknowledged record but those pruned and never
takes the file for a corrupt one, and an operation that succeeds leaves a manifest that tells the
ledger. -/
theorem appendOnlyStore_durable (c : StoreFormat) {as : List (Action P)} {s : State P} (hback : ∀ a ∈ as, a.ReadsBack c)
    (h : run (step c) State.init as = some s) :
    s.acknowledged.Pairwise (·.sequence < ·.sequence) ∧
    (s.written.Pairwise (·.sequence ≠ ·.sequence) ∧ (∀ r ∈ s.acknowledged, r ∈ s.written) ∧
      ∀ r ∈ s.readable, r ∈ s.written) ∧
    (∀ n e, readLedgerSnapshot c.toLedgerFormat n s.ledger s.manifest = .error e → e = .snapshotLimit) ∧
    (∀ n snapshot, readLedgerSnapshot c.toLedgerFormat n s.ledger s.manifest = .ok snapshot →
      ∀ r ∈ s.acknowledged, r ∈ snapshot.records ∨ r ∈ s.pruned) ∧
    ∀ a t, a.ReadsBack c → a.succeeds c s → step c s a = some t → t.Settled := by
  have hs : s.Sound (RecordView.whole c.toLedgerFormat) := run_sound (fun a ha => (hback a ha).takes) h
  have hwhole : ∀ (l : List StateLedgerEntry) (r : StateLedgerEntry),
      (RecordView.whole c.toLedgerFormat).view r ∈ l.map (RecordView.whole c.toLedgerFormat).view → r ∈ l := by
    intro l r hr
    rwa [show (RecordView.whole c.toLedgerFormat).view = id from rfl, List.map_id] at hr
  refine ⟨hs.acknowledged,⟨hs.written,fun r hr => hwhole _ r (hs.acknowledged_written r hr),
    fun r hr => hwhole _ r (hs.readable_written r hr)⟩,?_,?_,
    fun a t ha hsucceeds hst => step_settled hs ha.takes hsucceeds hst⟩
  · intro n e he
    rcases readLedgerSnapshot_sound hs n with ⟨-,hread⟩ | ⟨-,hreadable,-⟩ | ⟨-,snapshot,hread,-⟩
    · exact Except.error.inj (he.symm.trans hread)
    · exact absurd (hs.readable_iff.mpr ⟨_,readRecords_whole hs (List.Subset.refl _)⟩) hreadable
    · cases he.symm.trans hread
  · intro n snapshot hsnapshot r hr
    rcases readLedgerSnapshot_sound hs n with ⟨-,hread⟩ | ⟨-,-,hread⟩ | ⟨-,snapshot',hread,hrecords,-⟩
    · cases hsnapshot.symm.trans hread
    · cases hsnapshot.symm.trans hread
    · obtain rfl := Except.ok.inj (hsnapshot.symm.trans hread)
      rw [readRecords_whole hs (State.Sound.records_sublist s).subset] at hrecords
      rw [← Option.some.inj hrecords]
      exact (hs.kept r hr).imp (hwhole _ r) (hwhole _ r)

end Runs

/-- Ten bytes a record, a hundred a manifest. -/
def sampleFormat : StoreFormat where
  parse := some
  parse_eq r p h := by
    obtain rfl := Option.some.inj h
    exact ⟨rfl,.same _⟩
  parse_normalized _ _ _ _ := rfl
  recordByteLength _ := 10
  manifestByteLength _ := 100
  payloadByteLength _ := 5
  metadataSafe _ := true

def sampleInput : AppendRecordInput := ⟨.evidenceRef "",none,none,none,none,none,none⟩

/-- Two processes: an append torn by a crash, one acknowledged, the ledger emptied, a crash
before the manifest, one more acknowledged by the process that has an old cache. -/
def sampleActions : List (Action Bool) :=
  [⟨true,⟨100,1000⟩,some 0,.opening,.returns⟩,
   ⟨true,⟨100,1000⟩,some 1,.append sampleInput "a" 4,.crashes 3⟩,
   ⟨false,⟨100,500⟩,some 2,.opening,.returns⟩,
   ⟨false,⟨100,500⟩,some 3,.append sampleInput "b" 4,.returns⟩,
   ⟨true,⟨100,1000⟩,some 4,.compact (fun _ _ => some false),.crashes 4⟩,
   ⟨false,⟨100,500⟩,some 5,.append sampleInput "c" 4,.returns⟩]

/-- A workspace root as the schema of handoff packets spells it. -/
def exportedRoot (root : String) : Option String :=
  match exportPath ℤ (fun _ => false) (fun _ => []) "workspace root" (some (Text.of root)) with
  | .ok (some path) => some (String.ofList (path.codePoints.map Char.ofNat))
  | _ => none

def exportedPayload : LedgerPayload → Option LedgerPayload
  | .session session => (exportedRoot session.rest).map fun root => .session { session with rest := root }
  | payload => some payload

theorem exportedPayload_respelled {payload spelled : LedgerPayload} (h : exportedPayload payload = some spelled) :
    payload.Respelled spelled := by
  cases payload with
  | session session =>
    obtain ⟨root,-,rfl⟩ := Option.map_eq_some_iff.mp h
    exact .session session root
  | _ =>
    obtain rfl := Option.some.inj h
    exact .same _

/-- As `sampleFormat`, with the workspace root of a handoff packet for the rest of every session. -/
def packetSchema : StoreFormat where
  parse r := (exportedPayload r.payload).map fun payload => { r with payload := payload }
  parse_eq r p h := by
    obtain ⟨payload,hpayload,rfl⟩ := Option.map_eq_some_iff.mp h
    exact ⟨rfl,exportedPayload_respelled hpayload⟩
  parse_normalized r s h hs := by
    obtain ⟨payload,hpayload,hr⟩ := Option.map_eq_some_iff.mp h
    have hsame : payload = s.payload :=
      (congrArg StateLedgerEntry.payload hr).trans (normalizeLedgerScope_scope hs).1.symm
    rw [(normalizeLedgerScope_scope hs).1, hpayload, hsame]
    rfl
  recordByteLength _ := 10
  manifestByteLength _ := 100
  payloadByteLength _ := 5
  metadataSafe _ := true

theorem packetSchema_readsBack {payload : LedgerPayload}
    (h : ∀ spelled, exportedPayload payload = some spelled → exportedPayload spelled = some spelled) :
    packetSchema.ReadsBack payload := by
  rintro r p rfl hp
  obtain ⟨spelled,hspelled,rfl⟩ := Option.map_eq_some_iff.mp hp
  exact congrArg (Option.map _) (h spelled hspelled)

def rootedInput (root : String) : AppendRecordInput :=
  ⟨.session ⟨"s","",.idle,"",none,none,none,none,root⟩,none,none,none,none,none,none⟩

/-- A session whose workspace root is spelled anew, its append torn by a crash, then acknowledged by another process. -/
def rootedActions (root : String) : List (Action Bool) :=
  [⟨true,⟨100,1000⟩,some 0,.opening,.returns⟩,
   ⟨true,⟨100,1000⟩,some 1,.append (rootedInput root) "a" 4,.crashes 3⟩,
   ⟨false,⟨100,500⟩,some 2,.opening,.returns⟩,
   ⟨false,⟨100,500⟩,some 3,.append (rootedInput root) "b" 4,.returns⟩]

theorem rootedActions_readsBack {root : String} (exported : String) (h : exportedRoot root = some exported)
    (hagain : exportedRoot exported = some exported) : ∀ a ∈ rootedActions root, a.ReadsBack packetSchema := by
  have hread : packetSchema.ReadsBack (rootedInput root).payload := by
    refine packetSchema_readsBack fun spelled hspelled => ?_
    simp only [rootedInput, exportedPayload, h, Option.map_some, Option.some.injEq] at hspelled
    rw [← hspelled]
    simp only [exportedPayload, hagain, Option.map_some]
  intro a ha input generatedId torn hop
  simp only [rootedActions, List.mem_cons, List.not_mem_nil, or_false] at ha
  obtain rfl | rfl | rfl | rfl := ha
  · cases hop
  · cases hop
    exact hread
  · cases hop
  · cases hop
    exact hread

theorem appendOnlyStore_durable_rooted :
    ∃ s, run (step packetSchema) State.init (rootedActions "./src") = some s ∧
      s.acknowledged.map (·.payload) = [(rootedInput "src").payload] ∧ s.written.map (·.sequence) = [1] ∧
      s.acknowledged.Pairwise (·.sequence < ·.sequence) ∧
      ∀ n e, readLedgerSnapshot packetSchema.toLedgerFormat n s.ledger s.manifest = .error e → e = .snapshotLimit := by
  have hshape : (run (step packetSchema) State.init (rootedActions "./src")).map
      (fun s => (s.acknowledged.map (·.payload),s.written.map (·.sequence))) =
        some ([(rootedInput "src").payload],[1]) := by
    decide +kernel
  obtain ⟨s,hs,hshape⟩ := Option.map_eq_some_iff.mp hshape
  have hdurable := appendOnlyStore_durable packetSchema
    (rootedActions_readsBack "src" (by decide +kernel) (by decide +kernel)) hs
  exact ⟨s,hs,congrArg Prod.fst hshape,congrArg Prod.snd hshape,hdurable.1,hdurable.2.2.1⟩

/-- A session whose workspace root is a blank between dots is acknowledged, and no later read finds it. -/
theorem rootedSession_unreadable : ¬ ∀ (as : List (Action Bool)) (s : State Bool),
    run (step packetSchema) State.init as = some s → ∀ r ∈ s.acknowledged, r ∈ s.pruned ∨
      ∃ n snapshot, readLedgerSnapshot packetSchema.toLedgerFormat n s.ledger s.manifest = .ok snapshot ∧
        r ∈ snapshot.records := by
  intro h
  have hshape : (run (step packetSchema) State.init (rootedActions "./ /.")).map
      (fun s => (s.acknowledged.length,s.pruned,s.ledger.map (LedgerFile.parse packetSchema.toLedgerFormat))) =
        some (1,[],some (.error .ledgerCorruption)) := by
    decide +kernel
  obtain ⟨s,hs,hshape⟩ := Option.map_eq_some_iff.mp hshape
  obtain ⟨hlength,hpruned,hparse⟩ : _ ∧ _ ∧ _ := by simpa only [Prod.mk.injEq] using hshape
  obtain ⟨f,hledger,hparse⟩ := Option.map_eq_some_iff.mp hparse
  obtain ⟨r,hr⟩ := List.length_eq_one_iff.mp hlength
  obtain hgone | ⟨n,snapshot,hread,-⟩ := h _ s hs r (by rw [hr]; exact List.mem_singleton_self r)
  · rw [hpruned] at hgone
    cases hgone
  · simp only [readLedgerSnapshot, hledger] at hread
    split at hread
    · cases hread
    · cases hparse.symm.trans hread

end OmniagentPlus.StateLedger.AppendOnlyStore
