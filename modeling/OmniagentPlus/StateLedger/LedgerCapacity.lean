import OmniagentPlus.StateLedger.LedgerDurability

/-! The size limit of one ledger: with one limit for all its writers, both files stay within
it, at every point of every run. -/
namespace OmniagentPlus.StateLedger.AppendOnlyStore
open OmniagentPlus.Foundation OmniagentPlus.CoreContracts
variable {P : Type} {c : StoreFormat} {V : RecordView c.toLedgerFormat} {o : AppendOnlyStoreOptions} {s t : State P}

section Writes
variable {n : ℕ}

theorem ledgerBytes_eq (s : State P) :
    s.ledgerBytes c = linesLength c s.records + s.tail.byteLength c.toLedgerFormat := by
  cases hl : s.ledger with
  | none => simp [State.ledgerBytes, linesLength, State.records, State.tail, hl, Tail.byteLength]
  | some f => simp [State.ledgerBytes, linesLength, State.records, State.tail, hl, LedgerFile.byteLength,
      LedgerFile.completeBytes]

theorem linesLength_append (rs : List StateLedgerEntry) (r : StateLedgerEntry) :
    linesLength c (rs ++ [r]) = linesLength c rs + c.recordByteLength r := by
  simp [linesLength]

theorem State.Fits.putLedger (h : s.Fits c n) {rs : List StateLedgerEntry} {tail : Tail}
    (hbytes : linesLength c rs + tail.byteLength c.toLedgerFormat ≤ n) : (s.putLedger rs tail).Fits c n :=
  ⟨h.manifest,hbytes⟩

theorem State.Fits.putManifest (h : s.Fits c n) {m : StoreManifest} (hm : c.manifestByteLength m ≤ n) :
    (s.putManifest m).Fits c n :=
  ⟨fun _ hm' => Option.some.inj hm' ▸ hm,h.ledger⟩

theorem State.Fits.putCache [DecidableEq P] (h : s.Fits c n) (p : P) (k : Option StoreCache) : (s.putCache p k).Fits c n :=
  ⟨h.manifest,h.ledger⟩

theorem State.Fits.createLedger (h : s.Fits c n) : s.createLedger.Fits c n := by
  unfold State.createLedger
  split
  · exact h
  · exact h.putLedger (Nat.zero_le _)

end Writes

section Programs

theorem writableRecords_fits (h : s.Sound V) (hfits : s.Fits c o.maxSnapshotBytes) :
    Program.Wp (fun _ u => u.Fits c o.maxSnapshotBytes) (writableRecords c o)
      (fun _ t => t.Fits c o.maxSnapshotBytes) s := by
  simp only [writableRecords, readSnapshot, Program.wp_bind, Program.wp_reads, Program.then_ok,
    Program.wp_ofExcept]
  rcases readLedgerSnapshot_sound h o.maxSnapshotBytes with
    ⟨hno,-⟩ | ⟨-,-,hread⟩ | ⟨-,snapshot,hread,-,hcomplete,hpending,hbytes,-⟩
  · exact absurd hfits hno
  · rw [hread]
    exact hfits
  rw [hread]
  simp only [Except.mapError, Program.then_ok]
  have hlines := hfits.ledger
  rw [ledgerBytes_eq] at hbytes hlines
  cases htail : s.tail with
  | clean =>
    rw [htail, decide_eq_true rfl] at hcomplete
    rw [hcomplete, if_pos rfl, Program.wp_pure]
    exact hfits
  | torn k =>
    rw [htail] at hcomplete hpending
    have hnone : snapshot.pendingRecord = none := Option.toList_eq_nil_iff.mp (Option.some.inj hpending).symm
    simp only [hcomplete, hnone, reduceCtorEq, decide_false, Bool.false_eq_true, if_false,
      Program.wp_bind, Program.wp_write, Program.then_ok, Program.wp_pure, and_self]
    exact hfits.putLedger (Nat.le_trans (Nat.add_le_add_left (Nat.zero_le _) _) hlines)
  | pending r =>
    rw [htail] at hcomplete hpending hbytes
    have hland : s.landNewline c = s.putLedger (s.records ++ [r]) .clean := by
      simp only [State.landNewline, htail]
    obtain ⟨q,hq⟩ : ∃ q, snapshot.pendingRecord = some q := by
      have hlength := (readRecords_forall₂.mp hpending).length_eq
      cases hsnapshot : snapshot.pendingRecord with
      | none =>
        rw [hsnapshot] at hlength
        cases hlength
      | some q => exact ⟨q,rfl⟩
    simp only [hcomplete, hq, reduceCtorEq, decide_false, Bool.false_eq_true, if_false,
      Program.wp_bind, Program.wp_throwIf, Program.wp_write, Program.then_ok, Program.then_error, Program.wp_pure,
      hland, hbytes, and_self]
    -- the newline is the byte that the check counts
    refine ⟨fun _ => hfits,fun hlimit => hfits.putLedger ?_⟩
    have hlimit := of_decide_eq_false hlimit
    rw [linesLength_append]
    simp only [Tail.byteLength] at hlimit ⊢
    omega
  | garbled k => exact absurd htail (h.tail k)

/-- A line for which there is room, at the end of a clean file. -/
theorem appendLine_fits {n : ℕ} (hfits : s.Fits c n) (hclean : s.tail = .clean) {r : StateLedgerEntry}
    (hroom : linesLength c s.records + c.recordByteLength r ≤ n) (torn : ℕ) :
    Program.Wp (fun _ u => u.Fits c n) (appendLine c r torn) (fun _ t => t.Fits c n) s := by
  have hcreated : s.createLedger.tail = .clean ∧ s.createLedger.records = s.records := by
    unfold State.createLedger
    split
    · exact ⟨hclean,rfl⟩
    · next hl =>
      rw [records_putLedger]
      exact ⟨rfl,by simp [State.records, Option.not_isSome_iff_eq_none.mp hl]⟩
  obtain ⟨htail,hrecords⟩ := hcreated
  have h₁ := hfits.createLedger
  simp only [appendLine, Program.wp_bind, Program.wp_write, Program.then_ok]
  generalize s.createLedger = t at *
  have htorn : t.landTorn c (min torn (c.recordByteLength r - 1)) =
      t.putLedger t.records (.torn (min torn (c.recordByteLength r - 1))) := by
    simp only [State.landTorn, htail]
  rw [htorn]
  rw [← hrecords] at hroom
  have h₂ : (t.putLedger t.records (.torn (min torn (c.recordByteLength r - 1)))).Fits c n :=
    h₁.putLedger (by simp only [Tail.byteLength]; omega)
  have h₃ : (t.putLedger t.records (.pending r)).Fits c n := h₁.putLedger (by simp only [Tail.byteLength]; omega)
  have h₄ : (t.putLedger (t.records ++ [r]) .clean).Fits c n :=
    h₁.putLedger (by simp only [Tail.byteLength, linesLength_append]; omega)
  exact ⟨h₁,h₂,⟨h₃.manifest,h₃.ledger⟩,⟨h₄.manifest,h₄.ledger⟩,⟨h₄.manifest,h₄.ledger⟩⟩

variable [DecidableEq P]

theorem initializeStore_fits (h : s.Sound V) (hfits : s.Fits c o.maxSnapshotBytes) (p : P) (now : Instant) :
    Program.Wp (fun _ u => u.Fits c o.maxSnapshotBytes) (initializeStore c o p now)
      (fun _ t => t.Fits c o.maxSnapshotBytes) s := by
  simp only [initializeStore, Program.wp_bind, Program.wp_reads, Program.then_ok, Program.wp_throwIf,
    Program.then_error]
  refine ⟨fun _ => hfits,fun _ => (writableRecords_fits h hfits).mono (fun _ _ ht => ht) ?_⟩
  rintro (e | ⟨rs,k⟩) t ht
  · exact ht
  simp only [assertManifestCapacity, writeStoreManifest, cacheRecords, Program.wp_bind, Program.then_ok,
    Program.wp_throwIf, Program.then_error, Program.wp_write]
  refine ⟨fun _ => ht,fun hlimit => ⟨fun _ => ht,fun _ => ?_⟩⟩
  have hput := ht.putManifest (Nat.not_lt.mp (of_decide_eq_false hlimit))
  exact ⟨hput,hput.putCache p _,hput.putCache p _⟩

theorem currentCache_fits (h : s.Sound V) (hfits : s.Fits c o.maxSnapshotBytes) (p : P) :
    Program.Wp (fun _ u => u.Fits c o.maxSnapshotBytes) (currentCache c o p)
      (fun _ t => t.Fits c o.maxSnapshotBytes) s := by
  simp only [currentCache, Program.wp_bind, Program.wp_reads, Program.then_ok]
  cases (s.cache p).filter (fun k => k.identity = s.ledgerIdentity) with
  | some k =>
    rw [Program.wp_pure]
    exact hfits
  | none =>
    simp only [Program.wp_bind]
    refine (writableRecords_fits h hfits).mono (fun _ _ ht => ht) ?_
    rintro (e | ⟨rs,k⟩) t ht
    · exact ht
    simp only [cacheRecords, Program.then_ok, Program.wp_write, Program.wp_reads, Program.wp_pure]
    exact ⟨ht.putCache p _,ht.putCache p _⟩

theorem appendRecord_fits (h : s.Sound V) (hfits : s.Fits c o.maxSnapshotBytes) (p : P) (input : AppendRecordInput)
    (now : Instant) (generatedId : String) (torn : ℕ) :
    Program.Wp (fun _ u => u.Fits c o.maxSnapshotBytes) (appendRecord c o p input now generatedId torn)
      (fun _ t => t.Fits c o.maxSnapshotBytes) s := by
  simp only [appendRecord, Program.wp_bind, Program.wp_throwIf, Program.then_error, Program.then_ok]
  refine ⟨fun _ => hfits,fun _ => existingManifest_spec s (fun _ => hfits) fun m hm => ?_⟩
  refine ((currentCache_spec h p).and (currentCache_fits h hfits p)).mono (fun _ _ ht => ht.2) ?_
  rintro (e | ⟨k,i⟩) t ⟨⟨-,hcurrent,-⟩,ht⟩
  · exact ht
  have hclean := (hcurrent (k,i) rfl).1
  simp only [Program.then_ok, Program.wp_throwIf, Program.then_error, Program.wp_ofExcept,
    assertManifestCapacity, Program.wp_reads, Program.wp_write, Program.wp_pure]
  refine ⟨fun _ => ht,fun _ => ⟨fun _ => ht,fun _ => ?_⟩⟩
  cases checkRecord c o (inputRecord input now generatedId (max m.lastSequence k.lastSequence + 1)) with
  | error e => exact ht
  | ok r =>
    simp only [Program.then_ok]
    refine ⟨fun _ => ht,fun _ => ⟨fun _ => ht,fun hmanifest => ⟨fun _ => ht,fun hroom => ⟨ht.putCache p none,?_⟩⟩⟩⟩
    have hbytes : t.ledger.elim 0 (·.byteLength c.toLedgerFormat) = linesLength c t.records :=
      ledgerBytes_of_clean hclean
    rw [hbytes] at hroom
    refine (appendLine_fits (ht.putCache p none) hclean (Nat.not_lt.mp (of_decide_eq_false hroom)) torn).mono
      (fun _ _ hu => hu) ?_
    rintro (e | x) u hu
    · exact hu
    simp only [writeStoreManifest, Program.wp_bind, Program.wp_throwIf, Program.then_ok, Program.then_error,
      Program.wp_write]
    have hput := hu.putManifest (Nat.not_lt.mp (of_decide_eq_false hmanifest))
    exact ⟨fun _ => hu,fun _ => ⟨hput,hput.putCache p _,hput.putCache p _⟩⟩

theorem compactRecords_fits (h : s.Sound V) (hfits : s.Fits c o.maxSnapshotBytes) (p : P)
    (keepRecord : StateLedgerEntry → List StateLedgerEntry → Option Bool) (now : Instant) :
    Program.Wp (fun _ u => u.Fits c o.maxSnapshotBytes) (compactRecords c o p keepRecord now)
      (fun _ t => t.Fits c o.maxSnapshotBytes) s := by
  simp only [compactRecords, Program.wp_bind]
  refine existingManifest_spec s (fun _ => hfits) fun m hm => ?_
  refine (writableRecords_fits h hfits).mono (fun _ _ ht => ht) ?_
  rintro (e | ⟨rs,k⟩) t ht
  · exact ht
  simp only [Program.then_ok, Program.then_error, Program.wp_write, Program.wp_ofExcept, assertManifestCapacity,
    writeStoreManifest, cacheRecords, Program.wp_bind, Program.wp_throwIf, Program.wp_pure]
  refine ⟨fun _ => ht,fun _ => ?_⟩
  generalize hu : ({ t with pruned := t.pruned ++ rs.filter (fun r => !(keepRecord r rs).getD false) } : State P) = u
  have hfits : u.Fits c o.maxSnapshotBytes := hu ▸ ⟨ht.manifest,ht.ledger⟩
  refine ⟨hfits,?_⟩
  cases (rs.filter (fun r => (keepRecord r rs).getD false)).foldlM
      (checkKept c o (max m.lastSequence (lastSequence rs))) [] with
  | error e => exact hfits
  | ok kept =>
    simp only [Program.then_ok]
    refine ⟨fun _ => hfits,fun hlimit => ⟨fun _ => hfits,fun hlimit' => ⟨fun _ => hfits,fun hroom =>
      ⟨fun _ => hfits,fun _ => ?_⟩⟩⟩⟩
    have hput := hfits.putManifest (Nat.not_lt.mp (of_decide_eq_false hlimit))
    have hdrop := hput.putCache p none
    have hkept : linesLength c kept + Tail.clean.byteLength c.toLedgerFormat ≤ o.maxSnapshotBytes :=
      Nat.not_lt.mp (of_decide_eq_false hroom)
    have hprune := hdrop.putLedger hkept
    have hend := hprune.putManifest (Nat.not_lt.mp (of_decide_eq_false hlimit'))
    exact ⟨hput,hdrop,hprune,fun _ => hprune,fun _ => ⟨hend,hend.putCache p _,hend.putCache p _⟩⟩

end Programs

section Runs
variable {n : ℕ} [DecidableEq P]

theorem program_fits (h : s.Sound V) {a : Action P} (hlimit : a.options.maxSnapshotBytes = n) (hfits : s.Fits c n) :
    Program.Wp (fun _ u => u.Fits c n) (a.program c) (fun _ t => t.Fits c n) s := by
  obtain ⟨p,o,now,operation,ending⟩ := a
  subst hlimit
  cases operation with
  | opening =>
    simp only [Action.program, Program.wp_bind, Program.wp_pure]
    refine (initializeStore_fits h hfits p now).mono (fun _ _ ht => ht) ?_
    rintro (e | x) t ht <;> exact ht
  | append input generatedId torn =>
    simp only [Action.program, Program.wp_bind, Program.wp_pure]
    refine (appendRecord_fits h hfits p input now generatedId torn).mono (fun _ _ ht => ht) ?_
    rintro (e | x) t ht <;> exact ht
  | compact keepRecord =>
    simp only [Action.program, Program.wp_bind, Program.wp_pure]
    refine (compactRecords_fits h hfits p keepRecord now).mono (fun _ _ ht => ht) ?_
    rintro (e | x) t ht <;> exact ht

theorem step_fits (h : s.Sound V) {a : Action P} (hlimit : a.options.maxSnapshotBytes = n) (hfits : s.Fits c n)
    (ha : step c s a = some t) : t.Fits c n := by
  have hspec := program_fits h hlimit hfits
  unfold step at ha
  split at ha
  · split at ha
    · cases ha
      exact ⟨hspec.2.manifest,hspec.2.ledger⟩
    · cases ha
      exact hspec.2
  · cases ha
    exact hspec.crash (fun _ _ hu _ => hu) hfits _
  · cases ha
    exact (hspec.crash (fun _ _ hu _ => hu) hfits _).putCache a.process none

theorem run_fits {as : List (Action P)} (h : run (step c) State.init as = some s)
    (hlimit : ∀ a ∈ as, a.options.maxSnapshotBytes = n) : s.Fits c n := by
  have hinit : (State.init : State P).Fits c n := ⟨fun m hm => (by cases hm),Nat.zero_le _⟩
  exact (run_invariant_of_meets (step c) (I := fun s => s.Sound (.core c.toLedgerFormat) ∧ s.Fits c n)
    (fun _ _ _ hs ha hst => ⟨step_sound hs.1 (Action.core_takes _) hst,step_fits hs.1 ha hs.2 hst⟩) ⟨State.Sound.init,hinit⟩
    (meets_of_forall (step c) hlimit State.init) h).2

/-- The times that `toISOString` writes with 24 characters, those of the years 0 to 9999. -/
def Plain (t : Instant) : Prop := ∃ z, t = some z ∧ -62167219200000 ≤ z ∧ z < 253402300800000

/-- An operation that succeeds has written its time into the manifest. -/
theorem succeeds_manifest (h : s.Sound (.core c.toLedgerFormat)) {a : Action P} (hsucceeds : a.succeeds c s) (ha : step c s a = some t) :
    ∃ m, t.manifest = some m ∧ m.updatedAt = a.now := by
  obtain ⟨⟨rs,hrs⟩,hending⟩ := hsucceeds
  have hspec : Program.Wp (fun _ _ => True) (a.program c)
      (fun x t => ∀ rs, x = .ok rs → ∃ m, t.manifest = some m ∧ m.updatedAt = a.now) s := by
    obtain ⟨p,o,now,operation,ending⟩ := a
    cases operation with
    | opening =>
      simp only [Action.program, Program.wp_bind, Program.wp_pure]
      refine (initializeStore_outcome h p now).mono (fun _ _ _ => trivial) ?_
      rintro (e | x) t ⟨-,hok,-⟩ rs hrs
      · cases hrs
      · exact ⟨_,(hok rfl).2.2,rfl⟩
    | append input generatedId torn =>
      simp only [Action.program, Program.wp_bind, Program.wp_pure]
      refine (appendRecord_outcome h p (RecordView.core_takes input.payload) now generatedId torn).mono (fun _ _ _ => trivial) ?_
      rintro (e | r) t ⟨-,hok,-⟩ rs hrs
      · cases hrs
      · obtain ⟨-,-,-,-,m,-,-,hm⟩ := hok r rfl
        exact ⟨_,hm,rfl⟩
    | compact keepRecord =>
      simp only [Action.program, Program.wp_bind, Program.wp_pure]
      refine (compactRecords_outcome h p keepRecord now).mono (fun _ _ _ => trivial) ?_
      rintro (e | r) t ⟨-,hok,-⟩ rs hrs
      · cases hrs
      · exact (hok r rfl).2.2
  unfold step at ha
  split at ha
  · rw [hrs] at ha
    cases ha
    exact hspec.2 rs hrs
  · next hfails => simp [hfails] at hending
  · next hcrashes => simp [hcrashes] at hending

/-- A settled ledger within the limit opens again within it. -/
theorem reopen_fits (h : s.Sound V) (hsettled : s.Settled) (hfits : s.Fits c n) {b : Action P}
    (hlimit : b.options.maxSnapshotBytes = n) (hopening : b.operation = .opening)
    (htime : ∀ m, s.manifest = some m → c.manifestByteLength { m with updatedAt := b.now } = c.manifestByteLength m) :
    (b.program c s).2 ≠ .error (.read .snapshotLimit) := by
  obtain ⟨hclean,m,hm,hcount,hbelow,-⟩ := hsettled
  have hread := readable_of_clean hclean
  have hmanifest : s.openedManifest b.now = { m with updatedAt := b.now } := by
    have hlast : lastSequence s.records ≤ m.lastSequence := by
      rcases eq_or_ne s.records [] with hnil | hne
      · rw [hnil]
        exact Nat.zero_le _
      · obtain ⟨r,hr,hseq⟩ := lastSequence_of_mem hne
        exact hseq ▸ hbelow r hr
    simp only [State.openedManifest, hm, Option.getD_some, hread, State.tornTails, hclean, Nat.add_zero, ← hcount,
      Nat.max_eq_left hlast]
  have hroom : c.manifestByteLength (s.openedManifest b.now) ≤ b.options.maxSnapshotBytes := by
    rw [hmanifest, htime m hm, hlimit]
    exact hfits.manifest m hm
  have hrepairable : s.Repairable c b.options.maxSnapshotBytes :=
    ⟨hlimit ▸ hfits,fun r hr => by simp [hclean] at hr⟩
  have hspec : Program.Wp (fun _ _ => True) (b.program c) (fun x _ => x ≠ .error (.read .snapshotLimit)) s := by
    simp only [Action.program, hopening, Program.wp_bind, Program.wp_pure]
    refine (initializeStore_outcome h b.process b.now).mono (fun _ _ _ => trivial) ?_
    rintro (e | x) t ⟨-,-,hover⟩
    · intro he
      obtain rfl := Except.error.inj he
      exact hover rfl ⟨hrepairable,hroom⟩
    · simp
  exact hspec.2

/-- Where every writer has the same limit, both files are within it in every state of every run,
so that no read with that limit finds them too large; and after an operation that succeeds no
store is kept from opening the ledger by the limit. `hiso` is what is used of the text of a time. -/
theorem writers_keep_ledger_readable (c : StoreFormat) {n : ℕ}
    (hiso : ∀ (m : StoreManifest) (t u : Instant), Plain t → Plain u →
      c.manifestByteLength { m with updatedAt := t } = c.manifestByteLength { m with updatedAt := u })
    {as : List (Action P)} {s : State P} (h : run (step c) State.init as = some s)
    (hlimit : ∀ a ∈ as, a.options.maxSnapshotBytes = n) :
    (s.ledgerBytes c ≤ n ∧ ∀ m, s.manifest = some m → c.manifestByteLength m ≤ n) ∧
    readLedgerSnapshot c.toLedgerFormat n s.ledger s.manifest ≠ .error .snapshotLimit ∧
    ∀ a t, a.options.maxSnapshotBytes = n → Plain a.now → a.succeeds c s → step c s a = some t →
      (t.ledgerBytes c ≤ n ∧ ∀ m, t.manifest = some m → c.manifestByteLength m ≤ n) ∧
      readLedgerSnapshot c.toLedgerFormat n t.ledger t.manifest ≠ .error .snapshotLimit ∧
      ∀ b : Action P, b.operation = .opening → b.options.maxSnapshotBytes = n → Plain b.now →
        (b.program c t).2 ≠ .error (.read .snapshotLimit) := by
  have hs := run_core h
  have hfits := run_fits h hlimit
  have hread : ∀ {t : State P}, t.Sound (.core c.toLedgerFormat) → t.Fits c n →
      readLedgerSnapshot c.toLedgerFormat n t.ledger t.manifest ≠ .error .snapshotLimit := by
    intro t ht hfits he
    rcases readLedgerSnapshot_sound ht n with ⟨hno,-⟩ | ⟨-,-,hcorrupt⟩ | ⟨-,snapshot,hok,-⟩
    · exact hno hfits
    · cases he.symm.trans hcorrupt
    · cases he.symm.trans hok
  refine ⟨⟨hfits.ledger,hfits.manifest⟩,hread hs hfits,fun a t halimit hatime hsucceeds ha => ?_⟩
  have ht := step_sound hs a.core_takes ha
  have htfits := step_fits hs halimit hfits ha
  refine ⟨⟨htfits.ledger,htfits.manifest⟩,hread ht htfits,fun b hopening hblimit hbtime => ?_⟩
  refine reopen_fits ht (step_settled hs a.core_takes hsucceeds ha) htfits hblimit hopening fun m hm => ?_
  obtain ⟨m',hm',htime⟩ := succeeds_manifest hs hsucceeds ha
  obtain rfl := Option.some.inj (hm.symm.trans hm')
  rw [hiso m b.now a.now hbtime hatime, ← htime]

/-- A crash that leaves a record without its newline, under a limit that the manifest just meets. -/
theorem writers_keep_ledger_readable_full :
    ∃ s t : State Bool, run (step sampleFormat) State.init
        [⟨true,⟨100,100⟩,some 0,.opening,.returns⟩,⟨true,⟨100,100⟩,some 1,.append sampleInput "a" 4,.crashes 4⟩] = some s ∧
      step sampleFormat s ⟨false,⟨100,100⟩,some 2,.opening,.returns⟩ = some t ∧
      readLedgerSnapshot sampleFormat.toLedgerFormat 100 t.ledger t.manifest ≠ .error .snapshotLimit := by
  have hrun : ∃ s, run (step sampleFormat) (State.init : State Bool)
      [⟨true,⟨100,100⟩,some 0,.opening,.returns⟩,⟨true,⟨100,100⟩,some 1,.append sampleInput "a" 4,.crashes 4⟩] = some s :=
    ⟨_,rfl⟩
  obtain ⟨s,hs⟩ := hrun
  have hopen : ∃ t, step sampleFormat s ⟨false,⟨100,100⟩,some 2,.opening,.returns⟩ = some t := by
    cases hs
    exact ⟨_,rfl⟩
  obtain ⟨t,ht⟩ := hopen
  refine ⟨s,t,hs,ht,((writers_keep_ledger_readable sampleFormat (n := 100) (fun _ _ _ _ _ => rfl) hs (by simp)).2.2
    ⟨false,⟨100,100⟩,some 2,.opening,.returns⟩ t rfl ⟨2,rfl,by omega,by omega⟩ ?_ ht).2.1⟩
  cases hs
  exact ⟨⟨_,rfl⟩,trivial⟩

end Runs

end OmniagentPlus.StateLedger.AppendOnlyStore
