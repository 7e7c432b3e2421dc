import OmniagentPlus.StateLedger.LedgerDurability

/-! Rejected appends and compactions: the ledger reads as before, to the store that made the
call and to one opened anew. -/
namespace OmniagentPlus.StateLedger.AppendOnlyStore
open OmniagentPlus.Foundation OmniagentPlus.CoreContracts
variable {P : Type} {c : StoreFormat} {V : RecordView c.toLedgerFormat} {s t : State P}

/-- The records of a snapshot, a pending one included. -/
def readableOf (snapshot : LedgerSnapshot) : List StateLedgerEntry := snapshot.records ++ snapshot.pendingRecord.toList

/-- A snapshot of a sound file tells its records as the schema spells them and the last sequence. -/
theorem readLedgerSnapshot_ok (h : s.Sound V) {maxBytes : ℕ} {snapshot : LedgerSnapshot}
    (hread : readLedgerSnapshot c.toLedgerFormat maxBytes s.ledger s.manifest = .ok snapshot) :
    c.readRecords s.readable = some (readableOf snapshot) ∧ snapshot.lastSequence = lastSequence s.readable := by
  rcases readLedgerSnapshot_sound h maxBytes with
    ⟨-,he⟩ | ⟨-,-,he⟩ | ⟨-,snapshot',he,hrecords,-,hpending,-,hlast⟩
  · cases hread.symm.trans he
  · cases hread.symm.trans he
  · obtain rfl := Except.ok.inj (hread.symm.trans he)
    refine ⟨?_,hlast⟩
    rw [State.readable, readRecords_append, hrecords, hpending]
    rfl

/-- What a store opened anew finds and writes where the files are as they were. -/
theorem State.Untouched.openedManifest (h : s.Untouched V t) (now : Instant) :
    (t.openedManifest now).recordCount = (s.openedManifest now).recordCount ∧
      (t.openedManifest now).lastSequence = (s.openedManifest now).lastSequence := by
  simp only [State.openedManifest, h.manifest, h.readable]
  exact ⟨trivial,trivial⟩

variable [DecidableEq P]

/-- A rejected append or compaction touches nothing but a tail that it repairs. -/
theorem rejected_untouched (h : s.Sound (.core c.toLedgerFormat)) {a : Action P} (hoperation : a.operation ≠ .opening) :
    Program.Wp (fun _ _ => True) (a.program c)
      (fun x t => ∀ e, x = .error e → e ≠ .manifest → s.Untouched (.core c.toLedgerFormat) t) s := by
  obtain ⟨p,o,now,operation,ending⟩ := a
  cases operation with
  | opening => exact absurd rfl hoperation
  | append input generatedId torn =>
    simp only [Action.program, Program.wp_bind, Program.wp_pure]
    refine (appendRecord_outcome h p (RecordView.core_takes input.payload) now generatedId torn).mono (fun _ _ _ => trivial) ?_
    rintro (e | r) t ⟨-,-,herror⟩ e' he hne
    · cases he
      exact ((herror e rfl).resolve_right fun hr => hne hr.1).2.2
    · cases he
  | compact keepRecord =>
    simp only [Action.program, Program.wp_bind, Program.wp_pure]
    refine (compactRecords_outcome h p keepRecord now).mono (fun _ _ _ => trivial) ?_
    rintro (e | r) t ⟨-,-,herror⟩ e' he hne
    · cases he
      exact herror e rfl hne
    · cases he

theorem State.Untouched.opens (h : s.Untouched V t) (hs : s.Sound V) {o : AppendOnlyStoreOptions} {p : P} {now : Instant}
    (hopen : (initializeStore c o p now s).2 = .ok PUnit.unit) (hopen' : (initializeStore c o p now t).2 = .ok PUnit.unit) :
    ((initializeStore c o p now).final t).readable = ((initializeStore c o p now).final s).readable ∧
      ∃ m n, ((initializeStore c o p now).final s).manifest = some m ∧ ((initializeStore c o p now).final t).manifest = some n ∧
        n.recordCount = m.recordCount ∧ n.lastSequence = m.lastSequence := by
  obtain ⟨-,hread,hmanifest⟩ := (initializeStore_outcome (o := o) hs p now).2.2.1 hopen
  obtain ⟨-,hread',hmanifest'⟩ := (initializeStore_outcome (o := o) h.sound p now).2.2.1 hopen'
  obtain ⟨hcount,hlast⟩ := h.openedManifest now
  exact ⟨by rw [hread', hread, h.readable],_,_,hmanifest,hmanifest',hcount,hlast⟩

/-- In every state of every run, an append or a compaction that is rejected (by a check of the
record, of its size or of the limits, or by what `keepRecord` throws) leaves the manifest as it
was and the ledger too, but for a tail that it repairs. What is read of the records and the last
sequence stays the same, as does what a store opened anew finds. -/
theorem rejected_operation_leaves_ledger (c : StoreFormat) {as : List (Action P)} {s : State P}
    (h : run (step c) State.init as = some s) {a : Action P} (hoperation : a.operation ≠ .opening)
    (hends : a.ending = .returns) {e : StoreError} (he : (a.program c s).2 = .error e) (hmanifest : e ≠ .manifest) :
    ∃ t, step c s a = some t ∧ t.manifest = s.manifest ∧ t.readable = s.readable ∧
      (t.ledger = s.ledger ∨ s.tail ≠ .clean ∧ t.tail = .clean) ∧
      (∀ n x y, readLedgerSnapshot c.toLedgerFormat n s.ledger s.manifest = .ok x →
        readLedgerSnapshot c.toLedgerFormat n t.ledger t.manifest = .ok y →
        readableOf y = readableOf x ∧ y.lastSequence = x.lastSequence) ∧
      ∀ o p now, (initializeStore c o p now s).2 = .ok PUnit.unit → (initializeStore c o p now t).2 = .ok PUnit.unit →
        ((initializeStore c o p now).final t).readable = ((initializeStore c o p now).final s).readable ∧
        ∃ m n, ((initializeStore c o p now).final s).manifest = some m ∧ ((initializeStore c o p now).final t).manifest = some n ∧
          n.recordCount = m.recordCount ∧ n.lastSequence = m.lastSequence := by
  have hs := run_core h
  have hleft := (rejected_untouched hs hoperation).2 e he hmanifest
  refine ⟨(a.program c).final s,?_,hleft.manifest,hleft.readable,hleft.ledger,?_,?_⟩
  · simp only [step, hends, he]
  · intro n x y hx hy
    obtain ⟨hrecords,hlast⟩ := readLedgerSnapshot_ok hs hx
    obtain ⟨hrecords',hlast'⟩ := readLedgerSnapshot_ok hleft.sound hy
    rw [hleft.readable, hrecords] at hrecords'
    exact ⟨(Option.some.inj hrecords').symm,by rw [hlast', hlast, hleft.readable]⟩
  · intro o p now hopen hopen'
    exact hleft.opens hs hopen hopen'

/-- An append torn by a crash, then one whose payload is over the bound, which repairs the tail. -/
theorem rejected_operation_leaves_ledger_torn :
    ∃ s t, run (step sampleFormat) (State.init : State Bool) (sampleActions.take 2) = some s ∧
      s.tail = .torn 4 ∧ step sampleFormat s ⟨false,⟨4,500⟩,some 2,.append sampleInput "b" 4,.returns⟩ = some t ∧
      t.tail = .clean ∧ t.manifest = s.manifest ∧ t.readable = s.readable := by
  have hrun : ∃ s, run (step sampleFormat) (State.init : State Bool) (sampleActions.take 2) = some s := ⟨_,rfl⟩
  obtain ⟨s,hs⟩ := hrun
  have htail : s.tail = .torn 4 := by
    cases hs
    rfl
  obtain ⟨t,ht,hmanifest,hreadable,hledger,-⟩ := rejected_operation_leaves_ledger sampleFormat hs
    (a := ⟨false,⟨4,500⟩,some 2,.append sampleInput "b" 4,.returns⟩) (by simp) rfl (e := .rejected)
    (by cases hs; rfl) (by simp)
  refine ⟨s,t,hs,htail,ht,?_,hmanifest,hreadable⟩
  cases hs
  cases ht
  rfl

end OmniagentPlus.StateLedger.AppendOnlyStore
