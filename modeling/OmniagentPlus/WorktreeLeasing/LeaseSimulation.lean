import OmniagentPlus.WorktreeLeasing.LeaseJournal
import OmniagentPlus.WorktreeLeasing.LeaseReclamation
import OmniagentPlus.StateLedger.LedgerDurability

/-! Every operation of the lease manager only makes moves of the journal, at every point where
it may be cut short. -/
namespace OmniagentPlus.WorktreeLeasing
open OmniagentPlus.Foundation OmniagentPlus.CoreContracts OmniagentPlus.StateLedger
variable {P : Type}

namespace LeaseManagerState
variable (s : LeaseManagerState P)

@[simp] theorem journal_putMemory (r : WorktreeLeaseRegistry) : (s.putMemory r).journal = s.journal := rfl

@[simp] theorem journal_putPromise [DecidableEq P] (p : P) (b : Option Bool) : (s.putPromise p b).journal = s.journal := rfl

@[simp] theorem stored_putStore (l : AppendOnlyStore.State P) : (s.putStore l).stored = s.stored := rfl

theorem lost_eq_nil {rs qs : List StateLedgerEntry} (h : rs.map StateLedgerEntry.core ⊆ qs.map StateLedgerEntry.core) :
    (rs.map (·.recordId)).filter (fun id => decide (id ∉ qs.map (·.recordId))) = [] := by
  rw [List.filter_eq_nil_iff]
  intro id hid
  obtain ⟨r,hr,rfl⟩ := List.mem_map.mp hid
  obtain ⟨q,hq,hcore⟩ := List.mem_map.mp (h (List.mem_map_of_mem hr))
  have hrecordId : q.recordId = r.recordId := congrArg (·.recordId) hcore
  simp only [decide_eq_true_eq, not_not]
  exact hrecordId ▸ List.mem_map_of_mem hq

theorem putStore_self : s.putStore s.ledger = s := by
  rw [putStore, lost_eq_nil (List.Subset.refl _), List.append_nil]

/-- Where the ledger has lost no row, only its rows are new. -/
theorem journal_putStore {s : LeaseManagerState P} {l : AppendOnlyStore.State P}
    (h : s.journal.rows ⊆ l.readable.map StateLedgerEntry.core) :
    (s.putStore l).journal = { s.journal with rows := l.readable.map StateLedgerEntry.core } := by
  rw [putStore, lost_eq_nil h, List.append_nil]
  rfl

end LeaseManagerState

namespace WorktreeLeaseManager
variable {c : LeaseFormat} {x : LeaseAction P} {fresh : Prop} {k : ℕ} {s : LeaseManagerState P}

/-- One published state after another: the ledger sound, the journal a move further. -/
def Traces (c : LeaseFormat) (x : LeaseAction P) (fresh : Prop) (k : ℕ) (s t : LeaseManagerState P) : Prop :=
  t.ledger.Sound (.core c.toLedgerFormat) ∧ LeaseMove c x fresh k s.journal t.journal

theorem Traces.quiet {t : LeaseManagerState P} (h : t.ledger.Sound (.core c.toLedgerFormat)) (hj : t.journal = s.journal) :
    Traces c x fresh k s t := by
  refine ⟨h,?_⟩
  rw [hj]
  exact LeaseMove.quiet

/-- The ledger is sound at the end, and `K` holds of what is returned. -/
def Ends (c : LeaseFormat) {α : Type} (K : α → LeaseManagerState P → Prop) :
    Except LeaseError α → LeaseManagerState P → Prop :=
  fun y t => t.ledger.Sound (.core c.toLedgerFormat) ∧ ∀ v, y = .ok v → K v t

@[simp] theorem ends_ok {α : Type} {K : α → LeaseManagerState P → Prop} {v : α} :
    Ends c K (.ok v) s ↔ s.ledger.Sound (.core c.toLedgerFormat) ∧ K v s := by
  constructor
  · exact fun h => ⟨h.1,h.2 v rfl⟩
  · rintro ⟨h,hv⟩
    refine ⟨h,fun w hw => ?_⟩
    cases hw
    exact hv

@[simp] theorem ends_error {α : Type} {K : α → LeaseManagerState P → Prop} {e : LeaseError} :
    Ends c K (.error e) s ↔ s.ledger.Sound (.core c.toLedgerFormat) := by
  constructor
  · exact fun h => h.1
  · exact fun h => ⟨h,fun v hv => by cases hv⟩

theorem Ends.stop {α β : Type} {K : β → LeaseManagerState P → Prop} {K' : α → LeaseManagerState P → Prop}
    (h : s.ledger.Sound (.core c.toLedgerFormat)) (e : LeaseError) : Program.Then (Ends c K) K' (.error e) s :=
  (Program.then_error _ _ e s).mpr (ends_error.mpr h)

/-- Sequencing: the rest is run where the first part returned, and what every move keeps still
holds there. -/
theorem ends_bind {α β : Type} {p : LeaseProgram P α} {f : α → LeaseProgram P β} {K : α → LeaseManagerState P → Prop}
    {K' : β → LeaseManagerState P → Prop} {I : LeaseManagerState P → Prop}
    (hI : ∀ t u, Traces c x fresh k t u → I t → I u) (hs : I s) (hp : Program.Wp (Traces c x fresh k) p (Ends c K) s)
    (hf : ∀ v t, I t → K v t → Program.Wp (Traces c x fresh k) (f v) (Ends c K') t) :
    Program.Wp (Traces c x fresh k) (p >>= f) (Ends c K') s := by
  rw [Program.wp_bind]
  refine (hp.with_invariant hI hs).mono (fun _ _ ht => ht.1) ?_
  rintro (e | v) t ⟨ht,hi⟩
  · exact Ends.stop ht.1 e
  · exact hf v t hi (ht.2 v rfl)

/-- What the body of an operation starts from: a sound ledger, and the registry as it was read. -/
structure Synced (c : LeaseFormat) (s : LeaseManagerState P) : Prop where
  sound : s.ledger.Sound (.core c.toLedgerFormat)
  memory : s.memory = s.stored
  keyed : s.stored.Keyed

section Ledger

/-- A call of the ledger that keeps its rows. -/
theorem onLedger_same {α : Type} {p : AppendOnlyStore.StoreProgram P α}
    {Q' : Except StoreError α → AppendOnlyStore.State P → Prop} {Q : Except LeaseError α → LeaseManagerState P → Prop}
    (h : Program.Wp (AppendOnlyStore.Steps (.core c.toLedgerFormat) AppendOnlyStore.Same) p Q' s.ledger)
    (hQ : ∀ y l, Q' y l → l.readable = s.ledger.readable → Q (y.mapError .ledger) (s.putStore l)) :
    Program.Wp (Traces c x fresh k) (onLedger p) Q s := by
  have hkept := h.with_invariant (I := fun l => l.readable = s.ledger.readable) (fun l m hm hl => hm.2.trans hl) rfl
  refine Program.wp_zoom s.putStore_self hkept (fun l m hm => ?_) (fun y l hl => hQ y l hl.1 hl.2)
  obtain ⟨⟨hsound,hsame⟩,hl⟩ := hm
  refine Traces.quiet hsound ?_
  have hm : m.readable = s.ledger.readable := Eq.trans hsame hl
  rw [LeaseManagerState.journal_putStore (hm ▸ List.Subset.refl _),
    LeaseManagerState.journal_putStore (hl ▸ List.Subset.refl _), hl, hm]

/-- Listing the records gives all of them, but for what is spelled anew, or fails. -/
theorem listRecords_wp (h : s.ledger.Sound (.core c.toLedgerFormat)) {a : Surroundings P}
    {Q : Except LeaseError (List StateLedgerEntry) → LeaseManagerState P → Prop}
    (hok : ∀ rs, rs.map StateLedgerEntry.core = s.journal.rows → Q (.ok rs) s) (herror : ∀ e, Q (.error (.ledger e)) s)
    {R : LeaseManagerState P → LeaseManagerState P → Prop} : Program.Wp R (listRecords c a) Q s := by
  refine Program.wp_zoom (S := fun _ _ => False) (T := fun y l => l = s.ledger ∧ Q (y.mapError .ledger) s)
    s.putStore_self ?_ (fun _ _ hf => hf.elim) ?_
  · exact AppendOnlyStore.listRecords_spec h (fun rs _ hread => ⟨rfl,hok rs (readRecords_core h.normalized hread)⟩)
      ⟨rfl,herror _⟩ ⟨rfl,herror _⟩ (fun _ => ⟨rfl,herror _⟩)
  · rintro y l ⟨rfl,hy⟩
    rw [s.putStore_self]
    exact hy

variable [DecidableEq P]

/-- A record that is appended to the ledger. -/
theorem appendRecord_wp (h : s.ledger.Sound (.core c.toLedgerFormat)) {o : AppendOnlyStoreOptions} {p : P}
    {input : AppendRecordInput} {now : Instant} {generatedId : String} {torn : ℕ}
    (hmove : ∀ j : LeaseJournal, j.registry = s.stored → j.drawn = s.drawn → ∀ r : StateLedgerEntry, input.payload.Respelled r.payload →
      r.recordId = input.recordId.getD generatedId → j.Unused r.recordId → LeaseMove c x fresh k j (j.addRow r)) :
    Program.Wp (Traces c x fresh k)
      (onLedger (AppendOnlyStore.appendRecord c.toStoreFormat o p input now generatedId torn))
      (fun y t => ∃ l, t = s.putStore l ∧ l.Sound (.core c.toLedgerFormat) ∧
        (∀ e, y = .error e → ∃ e', e = .ledger e') ∧
        (∀ r, y = .ok r → l.readable = s.ledger.readable ++ [r] ∧ input.payload.Respelled r.payload ∧
          r.recordId = input.recordId.getD generatedId)) s := by
  have hspec := AppendOnlyStore.appendRecord_spec h p (RecordView.core_takes input.payload) now generatedId torn (o := o)
  have hgrows : ∀ l m : AppendOnlyStore.State P, AppendOnlyStore.Steps (.core c.toLedgerFormat)
      (AppendOnlyStore.Adds input.payload (input.recordId.getD generatedId)) l m →
      l.readable.map StateLedgerEntry.core ⊆ m.readable.map StateLedgerEntry.core := by
    rintro l m ⟨-,hsame | ⟨r,-,-,hr⟩⟩
    · exact hsame ▸ List.Subset.refl _
    · exact hr ▸ List.map_subset _ (List.subset_append_left _ _)
  have hkept := hspec.with_invariant (I := fun l => l.Sound (.core c.toLedgerFormat) ∧
      s.journal.rows ⊆ l.readable.map StateLedgerEntry.core)
    (fun l m hm hl => ⟨hm.1,List.Subset.trans hl.2 (hgrows l m hm)⟩) ⟨h,List.Subset.refl _⟩
  refine Program.wp_zoom s.putStore_self hkept ?_ ?_
  · rintro l m ⟨hm,hl,hsub⟩
    have hsub' := List.Subset.trans hsub (hgrows l m hm)
    refine ⟨hm.1,?_⟩
    rw [LeaseManagerState.journal_putStore hsub, LeaseManagerState.journal_putStore hsub']
    obtain ⟨hsound,hsame | ⟨r,hpayload,hid,hr⟩⟩ := hm
    · rw [hsame]
      exact LeaseMove.quiet
    · have hunused := (hr ▸ hsound.wellFormed).of_append.2.2.2
      rw [hr, List.map_append]
      refine hmove _ rfl rfl r.core hpayload.core hid (fun q hq hqr => hunused ?_)
      obtain ⟨p,hp,rfl⟩ := List.mem_map.mp hq
      have hid : p.recordId = r.recordId := hqr
      exact hid ▸ List.mem_map_of_mem hp
  · rintro y l ⟨⟨hl,hy⟩,-⟩
    refine ⟨l,rfl,hl,?_,?_⟩
    · intro e he
      cases y with
      | error e' => exact ⟨e',(Except.error.inj he).symm⟩
      | ok r => cases he
    · intro r hr
      cases y with
      | error e => cases hr
      | ok r' =>
        cases hr
        exact ⟨(hy r rfl).2.2.2,(hy r rfl).2.1,(hy r rfl).2.2.1⟩

end Ledger
section Prologue
variable (a : Surroundings P)

theorem readRegistry_spec (h : s.ledger.Sound (.core c.toLedgerFormat)) :
    Program.Wp (Traces c x fresh k) readRegistry (Ends c fun _ t => Synced c t ∧ t.drawn = s.drawn) s := by
  simp only [readRegistry, putMemory, Program.wp_bind, Program.wp_reads, Program.then_ok, Program.wp_throwIf,
    Program.then_error, Program.wp_write, ends_error, ends_ok]
  refine ⟨fun _ => h,fun _ => ⟨fun _ => h,fun hidentified => ⟨Traces.quiet h rfl,h,⟨h,rfl,?_⟩,rfl⟩⟩⟩
  have hidentified : s.stored.identified = true := by simpa using hidentified
  exact WorktreeLeaseRegistry.keyed_of_identified hidentified

theorem ensureManagedStore_spec (h : Synced c s) :
    Program.Wp (Traces c x fresh k) ensureManagedStore (Ends c fun _ t => Synced c t ∧ t.drawn = s.drawn) s := by
  simp only [ensureManagedStore, memory, Program.wp_bind, Program.wp_reads, Program.then_ok, Program.wp_throwIf,
    Program.then_error, ends_error]
  refine ⟨fun _ => h.sound,fun _ => ⟨fun _ => h.sound,fun _ => ⟨fun _ => h.sound,fun _ => ?_⟩⟩⟩
  split
  · rw [Program.wp_pure]
    exact ends_ok.mpr ⟨h.sound,h,rfl⟩
  · rw [Program.wp_write]
    exact ⟨Traces.quiet h.sound rfl,ends_ok.mpr ⟨h.sound,⟨h.sound,h.memory,h.keyed⟩,rfl⟩⟩

theorem finishReclamation_spec (h : Synced c s) :
    Program.Wp (Traces c x fresh k) (finishReclamation c a)
      (Ends c fun _ t => Synced c t ∧ t.stored.reclamation = none ∧ t.drawn = s.drawn) s := by
  simp only [finishReclamation, memory, Program.wp_bind, Program.wp_reads, Program.then_ok]
  cases hintent : s.memory.reclamation with
  | none =>
    rw [Program.wp_pure]
    exact ends_ok.mpr ⟨h.sound,h,h.memory ▸ hintent,rfl⟩
  | some intent =>
    simp only [Program.wp_bind]
    refine listRecords_wp h.sound (fun rows hrows => ?_) (fun e => Ends.stop h.sound _)
    simp only [Program.then_ok, putMemory, writeRegistry, memory, Program.wp_bind, Program.wp_write, Program.wp_reads,
      Program.wp_throwIf, Program.then_error, ends_error, ends_ok]
    refine ⟨Traces.quiet h.sound rfl,fun _ => h.sound,fun _ => ⟨⟨h.sound,?_⟩,h.sound,⟨h.sound,rfl,?_⟩,rfl,rfl⟩⟩
    · rw [h.memory] at hintent ⊢
      rw [← finishedRegistry_core, hrows]
      exact LeaseMove.finish intent hintent
    · rw [h.memory]
      exact finishedRegistry_keyed _ _ _ h.keyed

variable [DecidableEq P]

theorem getLedger_spec (h : s.ledger.Sound (.core c.toLedgerFormat)) :
    Program.Wp (Traces c x fresh k) (getLedger c a)
      (Ends c fun _ t => t.ledger.Sound (.core c.toLedgerFormat) ∧ t.drawn = s.drawn) s := by
  simp only [getLedger, Program.wp_bind, Program.wp_reads, Program.then_ok]
  split
  · rw [Program.wp_pure]
    exact ends_ok.mpr ⟨h,h,rfl⟩
  · rw [Program.wp_throw]
    exact ends_error.mpr h
  · simp only [Program.wp_bind, Program.wp_write, Program.then_ok]
    refine ⟨Traces.quiet h rfl,?_⟩
    refine onLedger_same (AppendOnlyStore.initializeStore_spec h a.process a.clock) ?_
    rintro (e | u) l ⟨hl,-⟩ hsame
    · exact ⟨hl,fun v hv => by cases hv⟩
    · exact ⟨Traces.quiet hl rfl,hl,fun _ _ => ⟨hl,rfl⟩⟩

end Prologue

section Intents
variable (a : Surroundings P) {intent : PendingLeaseMutation}

/-- What applying an intent, or giving it up, leaves of the registry. -/
structure Cleared (s t : LeaseManagerState P) (intent : PendingLeaseMutation) : Prop where
  pending : t.stored.pending = s.stored.pending.erase intent.record.lease.id
  others : ∀ id, id ≠ intent.record.lease.id → t.stored.records.get? id = s.stored.records.get? id
  drawn : t.drawn = s.drawn

/-- The other intents wait as before. -/
structure Keeps (s t : LeaseManagerState P) (id : String) : Prop where
  pending : ∀ l, l ≠ id → t.stored.pending.get? l = s.stored.pending.get? l
  drawn : t.drawn = s.drawn

theorem Cleared.keeps {t : LeaseManagerState P} (h : Cleared s t intent) : Keeps s t intent.record.lease.id where
  pending l hl := by rw [h.pending, Dictionary.get?_erase, if_neg hl]
  drawn := h.drawn

/-- What a call of the ledger leaves as it is. -/
structure Still (s t : LeaseManagerState P) : Prop where
  stored : t.stored = s.stored
  drawn : t.drawn = s.drawn

theorem withdrawIntent_spec (h : Synced c s) (hmove : LeaseMove c x fresh k s.journal (s.journal.withdraw intent)) :
    Program.Wp (Traces c x fresh k) (withdrawIntent intent) (Ends c fun _ t => Synced c t ∧ Cleared s t intent) s := by
  simp only [withdrawIntent, memory, putMemory, writeRegistry, Program.wp_bind, Program.wp_write, Program.wp_reads,
    Program.wp_throwIf, Program.then_ok, Program.then_error, ends_error, ends_ok]
  rw [h.memory]
  exact ⟨Traces.quiet h.sound rfl,fun _ => h.sound,fun _ => ⟨⟨h.sound,hmove⟩,h.sound,
    ⟨h.sound,rfl,h.keyed.dropPending _⟩,rfl,fun _ _ => rfl,rfl⟩⟩

theorem settleIntent_spec (h : Synced c s) (hwaits : s.journal.Waits intent) (hpublished : s.journal.Published intent)
    (hsettles : Settles c x k intent) :
    Program.Wp (Traces c x fresh k) (settleIntent intent)
      (fun y t => t.ledger.Sound (.core c.toLedgerFormat) ∧ (∀ e, y = .error e → e = .schema) ∧
        (y = .ok PUnit.unit → Synced c t ∧ Cleared s t intent ∧
          t.stored.records.get? intent.record.lease.id = some intent.record)) s := by
  simp only [settleIntent, memory, putMemory, writeRegistry, Program.wp_bind, Program.wp_write, Program.wp_reads,
    Program.wp_throwIf, Program.then_ok, Program.then_error]
  rw [h.memory]
  have hcommit : LeaseMove c x fresh k s.journal (s.journal.commit intent.record) :=
    LeaseMove.commit intent hwaits hpublished hsettles
  have hrecord : (s.stored.putRecord intent.record).records.get? intent.record.lease.id = some intent.record :=
    Dictionary.get?_set_self _ _ _
  have hclear : LeaseMove c x fresh k (s.journal.commit intent.record).activate
      ((s.journal.commit intent.record).activate.clear intent) := LeaseMove.clear intent hwaits hpublished hrecord rfl
  refine ⟨Traces.quiet h.sound rfl,fun _ => ⟨h.sound,fun e he => (Except.error.inj he).symm,fun hy => by cases hy⟩,
    fun _ => ⟨⟨h.sound,hcommit⟩,⟨h.sound,LeaseMove.activate⟩,Traces.quiet h.sound rfl,
      fun _ => ⟨h.sound,fun e he => (Except.error.inj he).symm,fun hy => by cases hy⟩,
      fun _ => ⟨⟨h.sound,hclear⟩,h.sound,fun e he => (by cases he),fun _ => ?_⟩⟩⟩
  refine ⟨⟨h.sound,rfl,(h.keyed.putRecord _).dropPending _⟩,⟨rfl,fun id hid => ?_,rfl⟩,hrecord⟩
  exact Dictionary.get?_set_of_ne _ _ hid

variable [DecidableEq P]

theorem publishRecord_spec (h : Synced c s) (hwaits : s.journal.Waits intent)
    (hinspected : Inspected x k s.journal intent) :
    Program.Wp (Traces c x fresh k) (publishRecord c a intent)
      (fun y t => Synced c t ∧ Still s t ∧ (∀ e, y = .error e → e ≠ .schema) ∧
        (y = .ok PUnit.unit → t.journal.Published intent)) s := by
  simp only [publishRecord, Program.wp_bind]
  refine listRecords_wp h.sound (fun rows hrows => ?_)
    (fun e => ⟨h,⟨rfl,rfl⟩,fun e' he => (by cases he; simp),fun hy => by cases hy⟩)
  rw [Program.then_ok]
  cases hfind : rows.find? (·.recordId == intent.recordId) with
  | some existing =>
    rw [Program.wp_throwIf]
    refine ⟨fun _ => ⟨h,⟨rfl,rfl⟩,fun e he => (by cases he; simp),fun hy => by cases hy⟩,fun hsame =>
      ⟨h,⟨rfl,rfl⟩,fun e he => (by cases he),fun _ => ?_⟩⟩
    have hid := List.find?_some hfind
    have hpayload : existing.payload = .worktreeLease intent.record.lease := by simpa using hsame
    refine ⟨existing.core,?_,eq_of_beq hid,by rw [StateLedgerEntry.core, hpayload]; rfl⟩
    rw [← hrows]
    exact List.mem_map_of_mem (List.mem_of_find?_eq_some hfind)
  | none =>
    simp only [Program.wp_bind]
    refine (appendRecord_wp h.sound (fun j hj hdrawn r hpayload hid hunused => ?_)).mono (fun _ _ ht => ht) ?_
    · have hid : r.recordId = intent.recordId := hid
      have hwaits : j.Waits intent := by
        rw [LeaseJournal.Waits, hj]
        exact hwaits
      exact LeaseMove.publish intent r hwaits (hid ▸ hunused) (fun hk => hinspected (hdrawn.symm.trans hk))
        (hpayload.eq (by simp [intentInput, LedgerPayload.kind])) hid
    · rintro y t ⟨l,rfl,hl,herror,hok⟩
      have hsynced : Synced c (s.putStore l) := ⟨hl,h.memory,h.keyed⟩
      cases y with
      | error e =>
        obtain ⟨e',rfl⟩ := herror e rfl
        exact ⟨hsynced,⟨rfl,rfl⟩,fun e he => (by cases he; simp),fun hy => by cases hy⟩
      | ok r =>
        obtain ⟨hread,hpayload,hid⟩ := hok r rfl
        rw [Program.then_ok, Program.wp_pure]
        have hpayload : r.payload = .worktreeLease intent.record.lease := hpayload.eq (by simp [intentInput, LedgerPayload.kind])
        refine ⟨hsynced,⟨rfl,rfl⟩,fun e he => (by cases he),fun _ => ⟨r.core,?_,hid,by rw [StateLedgerEntry.core, hpayload]; rfl⟩⟩
        have hmem : r ∈ l.readable := by simp [hread]
        exact List.mem_map_of_mem hmem

/-- An error that is not the schema's came before the registry's record was touched. -/
theorem applyIntent_spec (h : Synced c s) (hwaits : s.journal.Waits intent)
    (hinspected : Inspected x k s.journal intent) (hsettles : Settles c x k intent) :
    Program.Wp (Traces c x fresh k) (applyIntent c a intent)
      (fun y t => t.ledger.Sound (.core c.toLedgerFormat) ∧
        (∀ e, y = .error e → e ≠ .schema → Synced c t ∧ Still s t) ∧
        (y = .ok PUnit.unit → Synced c t ∧ Cleared s t intent ∧
          t.stored.records.get? intent.record.lease.id = some intent.record)) s := by
  simp only [applyIntent, Program.wp_bind]
  refine (publishRecord_spec a h hwaits hinspected).mono (fun _ _ ht => ht) ?_
  rintro (e | u) t ⟨ht,hstill,herror,hpublished⟩
  · exact ⟨ht.sound,fun e' _ _ => ⟨ht,hstill⟩,fun hy => by cases hy⟩
  · have hwaits' : t.journal.Waits intent := by
      change t.stored.pending.get? _ = _
      rw [hstill.stored]
      exact hwaits
    rw [Program.then_ok]
    refine (settleIntent_spec ht hwaits' (hpublished rfl) hsettles).mono (fun _ _ ht => ht) ?_
    rintro y v ⟨hv,hschema,hok⟩
    refine ⟨hv,fun e he hne => absurd (hschema e he) hne,fun hy => ?_⟩
    obtain ⟨hsynced,hcleared,hrecord⟩ := hok hy
    exact ⟨hsynced,⟨hstill.stored ▸ hcleared.pending,fun id hid => hstill.stored ▸ hcleared.others id hid,
      hcleared.drawn.trans hstill.drawn⟩,hrecord⟩

theorem publishMutation_spec (h : Synced c s) {draws : ℕ} (hdraws : s.drawn + draws ≠ k) (hsettles : Settles c x k intent)
    (hmove : intent.allowed = true → LeaseMove c x fresh k s.journal (s.journal.stage intent draws)) :
    Program.Wp (Traces c x fresh k) (publishMutation c a intent draws) (Ends c fun _ t => Synced c t ∧
      t.stored.pending.get? intent.record.lease.id = none ∧
      t.stored.records.get? intent.record.lease.id = some intent.record ∧
      (s.journal.stage intent draws).grants ⊆ t.grants) s := by
  simp only [publishMutation, memory, putMemory, writeRegistry, Program.wp_bind, Program.wp_write, Program.wp_reads,
    Program.wp_throwIf, Program.then_ok, Program.then_error, Program.wp_tryCatch, ends_error]
  rw [h.memory]
  refine ⟨fun _ => h.sound,fun hallowed => ⟨Traces.quiet h.sound rfl,fun _ => h.sound,fun _ =>
    ⟨⟨h.sound,hmove (by simpa using hallowed)⟩,?_⟩⟩⟩
  generalize hu : (s.putMemory (s.stored.putPending intent)).putStaged intent draws = u
  have hsynced : Synced c u := by
    rw [← hu]
    exact ⟨h.sound,rfl,h.keyed.putPending intent⟩
  have hwaits : u.journal.Waits intent := by
    rw [← hu]
    exact Dictionary.get?_set_self _ _ _
  have hinspected : Inspected x k u.journal intent := by
    intro hk
    have hdrawn : u.drawn = s.drawn + draws := by
      rw [← hu]
      rfl
    exact absurd (hdrawn.symm.trans hk) hdraws
  have hgrants : (s.journal.stage intent draws).grants ⊆ u.journal.grants := by
    rw [← hu]
    exact List.Subset.refl _
  have hspec := (applyIntent_spec (x := x) a hsynced hwaits hinspected hsettles).with_invariant
    (I := fun t => (s.journal.stage intent draws).grants ⊆ t.journal.grants)
    (fun t v (hv : Traces c x fresh k t v) ht => List.Subset.trans ht hv.2.grants) hgrants
  refine hspec.mono (fun _ _ ht => ht.1) ?_
  rintro (e | v) t ⟨⟨ht,herror,hok⟩,hgrants⟩
  · rw [Program.caught_error]
    split
    · next hrefused =>
      obtain ⟨hsynced,hstill⟩ := herror e rfl (by rw [hrefused.2]; simp [snapshotLimit])
      rw [Program.wp_bind]
      refine listRecords_wp ht (fun rows hrows => ?_) (fun e' => Ends.stop ht _)
      rw [Program.then_ok]
      split
      · rw [Program.wp_throw]
        exact ends_error.mpr ht
      · next hnone =>
        rw [Program.wp_bind]
        refine (withdrawIntent_spec hsynced (LeaseMove.refuse intent ?_ hrefused.1 ?_)).mono (fun _ _ ht => ht) ?_
        · change t.stored.pending.get? _ = _
          rw [hstill.stored]
          exact hwaits
        · intro r hr hid
          rw [← hrows] at hr
          obtain ⟨q,hq,rfl⟩ := List.mem_map.mp hr
          exact hnone (List.any_eq_true.mpr ⟨q,hq,by simpa using hid⟩)
        · rintro (e' | v) t' ht'
          · exact Ends.stop ht'.1 e'
          · rw [Program.then_ok, Program.wp_throw]
            exact ends_error.mpr ht'.1
    · rw [Program.wp_throw]
      exact ends_error.mpr ht
  · rw [Program.caught_ok, ends_ok]
    obtain ⟨hsynced,hcleared,hrecord⟩ := hok rfl
    refine ⟨ht,hsynced,?_,hrecord,hgrants⟩
    rw [hcleared.pending, Dictionary.get?_erase, if_pos rfl]

theorem replayIntent_spec (h : Synced c s) (hwaits : s.journal.Waits intent)
    (hinspected : ∀ removal, intent.removal = some removal → removal.state = .prepared →
      inspectRemoval (x.surroundings.removalWorld intent.record.lease.id) intent removal = .ok .absent) :
    Program.Wp (Traces c x fresh k) (replayIntent c a intent)
      (Ends c fun _ t => Synced c t ∧ Keeps s t intent.record.lease.id) s := by
  rw [replayIntent, Program.wp_tryCatch]
  refine (applyIntent_spec a h hwaits (fun _ => hinspected)
    (fun removal hsome hprepared => .inr (hinspected removal hsome hprepared))).mono (fun _ _ ht => ht) ?_
  rintro (e | v) t ⟨ht,herror,hok⟩
  · rw [Program.caught_error]
    split
    · next hskip =>
      obtain ⟨hsynced,hstill⟩ := herror e rfl (by rcases hskip with rfl | rfl <;> simp [snapshotLimit])
      rw [Program.wp_pure, ends_ok]
      exact ⟨ht,hsynced,fun l _ => by rw [hstill.stored],hstill.drawn⟩
    · rw [Program.wp_throw]
      exact ends_error.mpr ht
  · rw [Program.caught_ok, ends_ok]
    obtain ⟨hsynced,hcleared,-⟩ := hok rfl
    exact ⟨ht,hsynced,hcleared.keeps⟩

theorem replayPendingIntent_spec (ha : x.surroundings = a) (h : Synced c s) (hk : s.drawn = k)
    (hwaits : s.journal.Waits intent) :
    Program.Wp (Traces c x fresh k) (replayPendingIntent c a intent)
      (Ends c fun _ t => Synced c t ∧ Keeps s t intent.record.lease.id) s := by
  rw [replayPendingIntent]
  cases hremoval : intent.removal.filter (·.state == .prepared) with
  | none =>
    refine replayIntent_spec a h hwaits (fun removal hsome hprepared => ?_)
    rw [hsome, Option.filter_some, hprepared] at hremoval
    cases hremoval
  | some removal =>
    obtain ⟨hsome,hprepared⟩ := Option.filter_eq_some_iff.mp hremoval
    rw [Program.wp_bind, Program.wp_ofExcept]
    cases hinspect : inspectRemoval (a.removalWorld intent.record.lease.id) intent removal with
    | error e =>
      exact Ends.stop h.sound e
    | ok inspection =>
      rw [Program.then_ok]
      cases inspection with
      | uncertain =>
        rw [Program.wp_pure, ends_ok]
        exact ⟨h.sound,h,fun _ _ => rfl,rfl⟩
      | noEffect =>
        refine (withdrawIntent_spec h ?_).mono (fun _ _ ht => ht) ?_
        · exact LeaseMove.cancel intent removal hwaits hsome (eq_of_beq hprepared) hk (ha ▸ hinspect)
        · exact fun y t ht => ⟨ht.1,fun v hv => ⟨(ht.2 v hv).1,(ht.2 v hv).2.keeps⟩⟩
      | absent =>
        refine replayIntent_spec a h hwaits (fun removal' hsome' _ => ?_)
        obtain rfl := Option.some.inj (hsome.symm.trans hsome')
        exact ha ▸ hinspect

theorem replayPending_spec (ha : x.surroundings = a) (h : Synced c s) (hk : s.drawn = k) :
    Program.Wp (Traces c x fresh k) (replayPending c a) (Ends c fun _ t => Synced c t ∧ t.drawn = k) s := by
  simp only [replayPending, memory, Program.wp_bind, Program.wp_reads, Program.then_ok]
  rw [h.memory]
  refine Program.Wp.forEach (K := fun l t => Synced c t ∧ t.drawn = k ∧ (∀ p ∈ l, t.journal.Waits p) ∧
    (l.map (·.record.lease.id)).Nodup) (fun t ht => ends_ok.mpr ⟨ht.1.sound,ht.1,ht.2.1⟩) ?_
    ⟨h,hk,fun p hp => ?_,h.keyed.nodup⟩
  · rintro intent l t ⟨ht,hdrawn,hwaits,hnodup⟩
    refine (replayPendingIntent_spec a ha ht hdrawn (hwaits intent List.mem_cons_self)).mono (fun _ _ ht => ht) ?_
    rintro (e | v) u hu
    · exact Ends.stop hu.1 e
    · rw [Program.then_ok]
      obtain ⟨hsynced,hkeeps⟩ := hu.2 v rfl
      obtain ⟨hnot,hnodup⟩ := List.nodup_cons.mp hnodup
      refine ⟨hsynced,hkeeps.drawn.trans hdrawn,fun p hp => ?_,hnodup⟩
      have hne : p.record.lease.id ≠ intent.record.lease.id := by
        intro heq
        exact hnot (List.mem_map.mpr ⟨p,hp,heq⟩)
      exact (hkeeps.pending _ hne).trans (hwaits p (List.mem_cons_of_mem _ hp))
  · obtain ⟨id,hp⟩ := (Dictionary.mem_values_iff _ _).mp hp
    have hid := h.keyed.pending id p hp
    change s.stored.pending.get? _ = _
    rwa [hid]

/-- The body of a mutation starts where the intents have been replayed. -/
theorem withMutation_spec {α : Type} {callback : LeaseProgram P α} {K : α → LeaseManagerState P → Prop}
    {I : LeaseManagerState P → Prop} (hI : ∀ t u, Traces c x fresh k t u → I t → I u) (hi : I s)
    (ha : x.surroundings = a) (hop : ∀ policy now interleaved, x.operation ≠ .retainHistory policy now interleaved)
    (h : s.ledger.Sound (.core c.toLedgerFormat)) (hk : s.drawn = k)
    (hcallback : ∀ t, Synced c t → t.stored.reclamation = none → t.drawn = k → I t → Program.Wp (Traces c x fresh k) callback (Ends c K) t) :
    Program.Wp (Traces c x fresh k) (withMutation c a callback) (Ends c K) s := by
  rw [withMutation, withLeaseLock, Program.wp_bind, Program.wp_throwIf]
  refine ⟨fun _ => ends_error.mpr h,fun _ => ?_⟩
  refine ends_bind hI hi (getLedger_spec a h) (fun _ t hi ⟨ht,hledger⟩ => ?_)
  refine ends_bind hI hi (readRegistry_spec ht) (fun _ t hi ⟨hsynced,hread⟩ => ?_)
  refine ends_bind hI hi (ensureManagedStore_spec hsynced) (fun _ t hi ⟨hsynced,hstore⟩ => ?_)
  refine ends_bind hI hi (finishReclamation_spec a hsynced) (fun _ t hi ⟨ht,hreclaimed,hfinished⟩ => ?_)
  have hdrawn : t.drawn = k := hfinished.trans (hstore.trans (hread.trans (hledger.trans hk)))
  refine ends_bind (I := fun t => I t ∧ t.stored.reclamation = none)
    (fun t u hu ht => ⟨hI t u hu ht.1,hu.2.reclaimed hop ht.2⟩) ⟨hi,hreclaimed⟩ (replayPending_spec a ha ht hdrawn) ?_
  exact fun _ t hi hsynced => hcallback t hsynced.1 hi.2 hsynced.2 hi.1

end Intents
end WorktreeLeaseManager
end OmniagentPlus.WorktreeLeasing
