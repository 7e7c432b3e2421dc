import OmniagentPlus.StateLedger.LedgerDurability

/-! What stores have acknowledged: the list of it only grows, by one new record for each append that
returns, and every complete reading of the ledger has these records but for the pruned ones. -/
namespace OmniagentPlus.StateLedger.AppendOnlyStore
open OmniagentPlus.Foundation OmniagentPlus.CoreContracts
variable {P : Type}

section Quiet
variable {α : Type}

/-- A program that acknowledges nothing itself. -/
abbrev Quiet (x : StoreProgram P α) : Prop := Program.Leaves State.acknowledged x

variable (c : StoreFormat) (o : AppendOnlyStoreOptions)

lemma quiet_write {f : State P → State P} (h : ∀ s, (f s).acknowledged = s.acknowledged) : Quiet (Program.write f) :=
  Program.leaves_write h

lemma landTorn_acknowledged (s : State P) (bytes : ℕ) : (s.landTorn c bytes).acknowledged = s.acknowledged := by
  unfold State.landTorn
  cases s.tail <;> rfl

lemma landText_acknowledged (s : State P) (r : StateLedgerEntry) : (s.landText c r).acknowledged = s.acknowledged := by
  unfold State.landText
  cases s.tail <;> rfl

lemma landNewline_acknowledged (s : State P) : (s.landNewline c).acknowledged = s.acknowledged := by
  unfold State.landNewline
  cases s.tail <;> rfl

lemma createLedger_acknowledged (s : State P) : s.createLedger.acknowledged = s.acknowledged := by
  unfold State.createLedger
  split <;> rfl

lemma readSnapshot_quiet : Quiet (readSnapshot c o : StoreProgram P LedgerSnapshot) :=
  (Program.leaves_reads _).bind fun _ => Program.leaves_ofExcept _

lemma writeStoreManifest_quiet (m : StoreManifest) : Quiet (writeStoreManifest m : StoreProgram P PUnit) :=
  (Program.leaves_throwIf _ _).bind fun _ => quiet_write fun _ => rfl

lemma existingManifest_quiet : Quiet (existingManifest : StoreProgram P StoreManifest) :=
  (Program.leaves_reads _).bind fun _ => Program.leaves_ofExcept _

lemma writableRecords_quiet : Quiet (writableRecords c o : StoreProgram P (List StateLedgerEntry × ℕ)) := by
  refine (readSnapshot_quiet c o).bind fun snapshot => ?_
  split
  · exact Program.leaves_pure _
  · cases snapshot.pendingRecord with
    | none => exact (quiet_write (by intro; rfl)).bind fun _ => Program.leaves_pure _
    | some r =>
      refine (Program.leaves_throwIf _ _).bind fun _ => ?_
      exact (quiet_write (landNewline_acknowledged c)).bind fun _ => Program.leaves_pure _

lemma appendLine_quiet (r : StateLedgerEntry) (torn : ℕ) : Quiet (appendLine c r torn : StoreProgram P PUnit) := by
  refine (quiet_write createLedger_acknowledged).bind fun _ => ?_
  refine (quiet_write fun s => landTorn_acknowledged c s _).bind fun _ => ?_
  refine (quiet_write fun s => landText_acknowledged c s r).bind fun _ => ?_
  exact quiet_write (landNewline_acknowledged c)

variable [DecidableEq P] (p : P)

lemma cacheRecords_quiet (records : List StateLedgerEntry) : Quiet (cacheRecords p records) := quiet_write fun _ => rfl

lemma initializeStore_quiet (now : Instant) : Quiet (initializeStore c o p now) := by
  refine (Program.leaves_reads _).bind fun existing => (Program.leaves_reads _).bind fun identity => ?_
  refine (Program.leaves_throwIf _ _).bind fun _ => (writableRecords_quiet c o).bind fun repaired => ?_
  refine (Program.leaves_throwIf _ _).bind fun _ => (writeStoreManifest_quiet _).bind fun _ => ?_
  exact cacheRecords_quiet p _

lemma currentCache_quiet : Quiet (currentCache c o p) := by
  refine (Program.leaves_reads _).bind fun cache => (Program.leaves_reads _).bind fun identity => ?_
  cases cache.filter fun k => k.identity = identity with
  | some k => exact Program.leaves_pure _
  | none =>
    refine (writableRecords_quiet c o).bind fun repaired => (cacheRecords_quiet p _).bind fun _ => ?_
    exact (Program.leaves_reads _).bind fun _ => Program.leaves_pure _

lemma appendRecord_quiet (input : AppendRecordInput) (now : Instant) (generatedId : String) (torn : ℕ) :
    Quiet (appendRecord c o p input now generatedId torn) := by
  refine (Program.leaves_throwIf _ _).bind fun _ => existingManifest_quiet.bind fun manifest => ?_
  refine (currentCache_quiet c o p).bind fun current => (Program.leaves_throwIf _ _).bind fun _ => ?_
  refine (Program.leaves_throwIf _ _).bind fun _ => (Program.leaves_ofExcept _).bind fun record => ?_
  refine (Program.leaves_throwIf _ _).bind fun _ => (Program.leaves_throwIf _ _).bind fun _ => ?_
  refine (Program.leaves_reads _).bind fun _ => (Program.leaves_throwIf _ _).bind fun _ => ?_
  refine (quiet_write (by intro; rfl)).bind fun _ => (appendLine_quiet c record torn).bind fun _ => ?_
  refine (writeStoreManifest_quiet _).bind fun _ => (quiet_write (by intro; rfl)).bind fun _ => ?_
  exact Program.leaves_pure _

lemma compactRecords_quiet (keepRecord : StateLedgerEntry → List StateLedgerEntry → Option Bool) (now : Instant) :
    Quiet (compactRecords c o p keepRecord now) := by
  refine existingManifest_quiet.bind fun existing => (writableRecords_quiet c o).bind fun repaired => ?_
  refine (Program.leaves_throwIf _ _).bind fun _ => (quiet_write (by intro; rfl)).bind fun _ => ?_
  refine (Program.leaves_ofExcept _).bind fun kept => (Program.leaves_throwIf _ _).bind fun _ => ?_
  refine (Program.leaves_throwIf _ _).bind fun _ => (Program.leaves_throwIf _ _).bind fun _ => ?_
  refine (writeStoreManifest_quiet _).bind fun _ => (quiet_write (by intro; rfl)).bind fun _ => ?_
  refine (quiet_write (by intro; rfl)).bind fun _ => (writeStoreManifest_quiet _).bind fun _ => ?_
  exact (cacheRecords_quiet p _).bind fun _ => Program.leaves_pure _

lemma program_quiet (a : Action P) : Quiet (a.program c) := by
  unfold Action.program
  cases a.operation with
  | opening => exact (initializeStore_quiet c _ _ _).bind fun _ => Program.leaves_pure _
  | append input generatedId torn => exact (appendRecord_quiet c _ _ _ _ _ _).bind fun _ => Program.leaves_pure _
  | compact keepRecord => exact (compactRecords_quiet c _ _ _ _).bind fun _ => Program.leaves_pure _

end Quiet
section Acknowledged
variable {c : StoreFormat} {s t : State P} {a : Action P}

/-- A complete reading of the ledger is all of it that can be read, with the same cores. -/
theorem listRecords_readable (hs : s.Sound (.core c.toLedgerFormat)) {o : AppendOnlyStoreOptions} {records : List StateLedgerEntry}
    (h : (listRecords c o s).2 = .ok records) :
    s.tail = .clean ∧ records.map StateLedgerEntry.core = s.readable.map StateLedgerEntry.core := by
  have hspec := listRecords_spec (o := o) hs (R := fun _ _ => True)
    (Q := fun x _ => ∀ rs, x = .ok rs → s.tail = .clean ∧ c.readRecords s.readable = some rs)
    (fun rs hclean hread rs' hrs => Except.ok.inj hrs ▸ ⟨hclean,hread⟩) (fun rs hrs => by cases hrs)
    (fun rs hrs => by cases hrs) (fun _ rs hrs => by cases hrs)
  obtain ⟨hclean,hread⟩ := hspec.2 records h
  exact ⟨hclean,readRecords_core hs.normalized hread⟩

/-- A complete reading of the ledger has what was acknowledged of any kind but sessions, unless it was pruned. -/
theorem listRecords_acknowledged (hs : s.Sound (.core c.toLedgerFormat)) {o : AppendOnlyStoreOptions}
    {records : List StateLedgerEntry} (h : (listRecords c o s).2 = .ok records) {r : StateLedgerEntry} (hr : r ∈ s.acknowledged)
    (hkind : r.kind ≠ .session) : r ∈ records ∨ r ∈ s.pruned := by
  obtain ⟨hclean,hcore⟩ := listRecords_readable hs h
  refine (hs.kept r hr).imp (fun hmem => ?_) fun hmem => StateLedgerEntry.mem_of_core hmem hkind
  refine StateLedgerEntry.mem_of_core ?_ hkind
  rw [hcore, readable_of_clean hclean]
  exact hmem

variable [DecidableEq P]

/-- Nothing that was acknowledged is forgotten. -/
theorem step_acknowledged (h : step c s a = some t) : ∃ rs, t.acknowledged = s.acknowledged ++ rs := by
  have hquiet := program_quiet c a
  unfold step at h
  split at h
  · split at h
    · next rs hrs =>
      cases h
      exact ⟨rs,congrArg (· ++ rs) (hquiet.final s)⟩
    · cases h
      exact ⟨[],by rw [hquiet.final s, List.append_nil]⟩
  · cases h
    exact ⟨[],by rw [hquiet.crash _ s, List.append_nil]⟩
  · cases h
    refine ⟨[],?_⟩
    change ((a.program c).crash _ s).acknowledged = _
    rw [hquiet.crash _ s, List.append_nil]

/-- An append that returns acknowledges one new record, of its payload and within the payload's scope. -/
theorem step_appended (hs : s.Sound (.core c.toLedgerFormat)) (h : step c s a = some t) {input : AppendRecordInput}
    {generatedId : String} {torn : ℕ} (hoperation : a.operation = .append input generatedId torn) (hending : a.ending = .returns)
    {rs : List StateLedgerEntry} (hrs : (a.program c s).2 = .ok rs) :
    ∃ r, rs = [r] ∧ t.acknowledged = s.acknowledged ++ [r] ∧ r ∉ s.acknowledged ∧ input.payload.Respelled r.payload ∧
      ∀ id, r.payload.scope.2.2 = some id → r.taskId = some id := by
  have ht := step_sound hs a.core_takes h
  unfold step at h
  rw [hending] at h
  dsimp only at h
  rw [hrs] at h
  have houtcome := (appendRecord_outcome hs a.process (RecordView.core_takes input.payload) a.now generatedId torn (o := a.options)).2
  have hprogram : a.program c = (appendRecord c a.options a.process input a.now generatedId torn >>= fun r => pure [r]) := by
    rw [Action.program, hoperation]
  rw [hprogram] at hrs
  cases hrecord : (appendRecord c a.options a.process input a.now generatedId torn s).2 with
  | error e =>
    rw [Program.bind_error hrecord] at hrs
    cases hrs
  | ok r =>
    rw [Program.bind_ok hrecord] at hrs
    obtain rfl : rs = [r] := (Except.ok.inj hrs).symm
    rw [hrecord] at houtcome
    obtain ⟨-,hpayload,-,-,m,hlands,-⟩ := houtcome.2.1 r rfl
    obtain ⟨p,-,hnormal⟩ := Option.bind_eq_some_iff.mp (checkRecord_spec hlands.record).1
    have hacknowledged : t.acknowledged = s.acknowledged ++ [r] := by
      cases h
      exact congrArg (· ++ [r]) ((program_quiet c a).final s)
    refine ⟨r,rfl,hacknowledged,fun hr => ?_,hpayload,(normalizeLedgerScope_scope hnormal).2.2.2⟩
    have hsorted := ht.acknowledged
    rw [hacknowledged] at hsorted
    exact lt_irrefl _ ((List.pairwise_append.mp hsorted).2.2 r hr r (List.mem_singleton_self r))

end Acknowledged
section Kept
variable {c : StoreFormat} {s t : State P} {a : Action P} {p : StateLedgerEntry → Bool}

/-- No compaction drops a record of this kind. -/
def Action.Keeping (p : StateLedgerEntry → Bool) (a : Action P) : Prop :=
  match a.operation with
  | .compact keepRecord => ∀ r rs, p r = true → keepRecord r rs = some true
  | _ => True

/-- The readable records of a kind go on from those of `s`. -/
def Extends (p : StateLedgerEntry → Bool) (s t : State P) : Prop := s.readable.filter p <+: t.readable.filter p

lemma Extends.trans {u : State P} (h : Extends p s t) (h' : Extends p t u) : Extends p s u := List.IsPrefix.trans h h'

lemma Extends.of_adds {payload : LedgerPayload} {recordId : String} (h : Adds payload recordId s.readable t.readable) :
    Extends p s t := by
  unfold Extends
  obtain hsame | ⟨r,-,-,hadded⟩ := h
  · have hfilter : s.readable.filter p = t.readable.filter p := congrArg (List.filter p) hsame.symm
    exact hfilter ▸ List.prefix_rfl
  · rw [hadded, List.filter_append]
    exact List.prefix_append _ _

/-- A compaction that keeps a kind of records other than sessions changes none of them. -/
lemma filter_of_compacts (hs : s.Sound (.core c.toLedgerFormat)) (hp : ∀ r, p r = true → r.kind ≠ .session)
    {keepRecord : StateLedgerEntry → List StateLedgerEntry → Bool} (hkeep : ∀ r rs, p r = true → keepRecord r rs = true)
    {qs : List StateLedgerEntry} (h : Compacts c.toLedgerFormat keepRecord s.readable qs) :
    qs.filter p = s.readable.filter p := by
  obtain ⟨rs,hcore,hkept⟩ := h.cores hs.wellFormed
  have hall : rs.filter (fun r => p r && keepRecord r rs) = rs.filter p := by
    refine List.filter_congr fun r _ => ?_
    cases hr : p r with
    | false => rfl
    | true => rw [hkeep r rs hr]; rfl
  rw [StateLedgerEntry.filter_of_core hp hkept, List.filter_filter, hall, StateLedgerEntry.filter_of_core hp hcore]

variable [DecidableEq P]

/-- What was readable of a kind before an operation that keeps it is so after each of its writes. -/
lemma program_keeps (h : s.Sound (.core c.toLedgerFormat)) (hp : ∀ r, p r = true → r.kind ≠ .session) (ha : a.Keeping p) :
    Program.Wp (fun u v => Extends p s u → Extends p s v) (a.program c) (fun _ _ => True) s := by
  obtain ⟨process,o,now,operation,ending⟩ := a
  cases operation with
  | opening =>
    simp only [Action.program, Program.wp_bind, Program.wp_pure]
    refine (initializeStore_spec h process now).mono (fun u v hstep hu => ?_) fun x t _ => by cases x <;> trivial
    obtain ⟨-,hsame⟩ := hstep
    rwa [Extends, hsame]
  | append input generatedId torn =>
    simp only [Action.program, Program.wp_bind, Program.wp_pure]
    exact (appendRecord_spec h process (RecordView.core_takes input.payload) now generatedId torn).mono
      (fun u v hstep hu => hu.trans (.of_adds hstep.2)) fun x t _ => by cases x <;> trivial
  | compact keepRecord =>
    simp only [Action.program, Program.wp_bind, Program.wp_pure]
    refine (compactRecords_spec h process keepRecord now).mono (fun u v hstep hu => ?_) fun x t _ => by cases x <;> trivial
    obtain ⟨-,hsame | ⟨-,hcompacts⟩⟩ := hstep
    · rwa [Extends, hsame]
    · rw [Extends, filter_of_compacts h hp (fun r rs hr => by rw [ha r rs hr]; rfl) hcompacts]

/-- A step that keeps a kind of records only adds to what is readable of it. -/
theorem step_keeps (hs : s.Sound (.core c.toLedgerFormat)) (hp : ∀ r, p r = true → r.kind ≠ .session) (h : step c s a = some t)
    (ha : a.Keeping p) : Extends p s t := by
  have hspec := program_keeps hs hp ha
  have hstart : Extends p s s := List.prefix_refl _
  have hcrash : ∀ n, Extends p s ((a.program c).crash n s) := hspec.crash (fun _ _ => id) hstart
  have hfinal : Extends p s ((a.program c).final s) := (hspec.invariant (fun _ _ => id) hstart).2
  unfold step at h
  split at h
  · split at h
    · cases h
      exact hfinal
    · cases h
      exact hfinal
  · cases h
    exact hcrash _
  · cases h
    exact hcrash _

end Kept
end OmniagentPlus.StateLedger.AppendOnlyStore
