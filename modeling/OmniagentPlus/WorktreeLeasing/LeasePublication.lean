import OmniagentPlus.WorktreeLeasing.LeaseRetention

/-! Intents, ledger and registry agree: an intent that is cleared has its one row, one that is
withdrawn has none, and what no intent waits for says the same in every store. -/
namespace OmniagentPlus.WorktreeLeasing
open OmniagentPlus.Foundation OmniagentPlus.CoreContracts OmniagentPlus.StateLedger
open WorktreeLeaseManager (LeaseAction step)
open WorktreeLeaseRegistry (Scoped)
variable {P : Type}

section ActiveMap

/-- What stands before and after the last of a character. -/
theorem append_cons_inj {a b a' b' : List Char} {x : Char} (hb : x ∉ b) (hb' : x ∉ b')
    (h : a ++ x :: b = a' ++ x :: b') : a = a' ∧ b = b' := by
  rcases List.append_eq_append_iff.mp h with ⟨m,rfl,hm⟩ | ⟨m,rfl,hm⟩
  · cases m with
    | nil => exact ⟨(List.append_nil a).symm,(List.cons.inj hm).2⟩
    | cons y m =>
      obtain ⟨rfl,rfl⟩ := List.cons.inj hm
      exact absurd (List.mem_append_right _ List.mem_cons_self) hb
  · cases m with
    | nil => exact ⟨List.append_nil a',(List.cons.inj hm).2.symm⟩
    | cons y m =>
      obtain ⟨rfl,rfl⟩ := List.cons.inj hm
      exact absurd (List.mem_append_right _ List.mem_cons_self) hb'

theorem colon_notMem_branchName {name : String} (h : validateBranchName name = true) : ':' ∉ name.toList := by
  intro hmem
  simp only [validateBranchName, Bool.and_eq_true] at h
  have := List.all_eq_true.mp h.2 ':' hmem
  simp [branchCharacter] at this

theorem colon_notMem_modeText (mode : WorktreeLeaseMode) : ':' ∉ (modeText mode).toList := by
  cases mode <;> decide

/-- Leases with valid branch names and the same key have the same repository and branch. -/
theorem mapKey_inj {l l' : WorktreeLease} (hl : validateBranchName l.branchName = true)
    (hl' : validateBranchName l'.branchName = true) (h : mapKey l = mapKey l') :
    l.repoId = l'.repoId ∧ l.branchName = l'.branchName := by
  have h := congrArg String.toList h
  simp only [mapKey, String.toList_append, List.append_assoc] at h
  have hcolon : (":" : String).toList = [':'] := rfl
  rw [hcolon] at h
  simp only [List.singleton_append] at h
  have hsplit : (l.repoId.toList ++ ':' :: l.branchName.toList) ++ ':' :: (modeText l.mode).toList =
      (l'.repoId.toList ++ ':' :: l'.branchName.toList) ++ ':' :: (modeText l'.mode).toList := by
    simpa using h
  obtain ⟨hscope,-⟩ := append_cons_inj (colon_notMem_modeText _) (colon_notMem_modeText _) hsplit
  obtain ⟨hrepo,hname⟩ := append_cons_inj (colon_notMem_branchName hl) (colon_notMem_branchName hl') hscope
  exact ⟨String.toList_injective hrepo,String.toList_injective hname⟩

/-- Active leases have valid branch names and no branch in common. -/
def StoredLeaseRecord.Named (q : StoredLeaseRecord) : Prop := validateBranchName q.lease.branchName = true

def StoredLeaseRecord.OtherBranch (q q' : StoredLeaseRecord) : Prop :=
  q.lease.repoId = q'.lease.repoId → q.lease.branchName ≠ q'.lease.branchName

theorem otherBranch_scoped : Scoped StoredLeaseRecord.Named StoredLeaseRecord.OtherBranch where
  claimed q q' hsame hq := by
    rw [StoredLeaseRecord.Named, hsame.branchName]
    exact hq
  separate q q' p p' hsame hsame' h := by
    rw [StoredLeaseRecord.OtherBranch, hsame.repoId, hsame.branchName, hsame'.repoId, hsame'.branchName]
    exact h
  symm q q' h hrepo hname := h hrepo.symm hname.symm

/-- An acquisition is granted for a branch that no claim is on. -/
theorem Granted.otherBranch {c : LeaseFormat} {x : LeaseAction P} {j : LeaseJournal} {p : PendingLeaseMutation}
    (h : Granted c x j p) {id : String} {q : StoredLeaseRecord} (hq : j.registry.Claims id q) :
    q.OtherBranch p.record := by
  rcases hq with ⟨hq,hstatus⟩ | ⟨p',hp',-,rfl⟩
  · exact h.branchFree q (List.mem_filter.mpr ⟨(Dictionary.mem_values_iff _ _).mpr ⟨id,hq⟩,by simp [hstatus]⟩)
  · exact h.branchUnclaimed p' ((Dictionary.mem_values_iff _ _).mpr ⟨id,hp'⟩)

theorem activeMap_eq (r : WorktreeLeaseRegistry) : r.activeMap = Dictionary.indexBy mapKey (r.active.map (·.lease)) := by
  rw [WorktreeLeaseRegistry.activeMap, Dictionary.indexBy, List.foldl_map]

/-- The map holds exactly the active leases, each at its key. -/
theorem activeMap_get? {r : WorktreeLeaseRegistry} (hkeyed : r.Keyed)
    (hexclusive : r.Exclusive StoredLeaseRecord.Named StoredLeaseRecord.OtherBranch) (key : String) (lease : WorktreeLease) :
    r.activeMap.get? key = some lease ↔
      key = mapKey lease ∧ ∃ q, r.records.get? lease.id = some q ∧ q.status = .active ∧ q.lease = lease := by
  have hactive : ∀ l, l ∈ r.active.map (·.lease) ↔
      ∃ q, r.records.get? l.id = some q ∧ q.status = .active ∧ q.lease = l := by
    intro l
    simp only [WorktreeLeaseRegistry.active, List.mem_map, List.mem_filter, Dictionary.mem_values_iff, beq_iff_eq]
    constructor
    · rintro ⟨q,⟨⟨id,hq⟩,hstatus⟩,rfl⟩
      obtain rfl := hkeyed.records id q hq
      exact ⟨q,hq,hstatus,rfl⟩
    · rintro ⟨q,hq,hstatus,rfl⟩
      exact ⟨q,⟨⟨_,hq⟩,hstatus⟩,rfl⟩
  rw [activeMap_eq]
  constructor
  · intro h
    obtain ⟨hmem,hkey⟩ := Dictionary.mem_of_get?_indexBy h
    exact ⟨hkey.symm,(hactive lease).mp hmem⟩
  · rintro ⟨rfl,hlease⟩
    obtain ⟨l,hl⟩ := Dictionary.get?_indexBy_isSome (f := mapKey) ((hactive lease).mpr hlease)
    obtain ⟨hmem,hkey⟩ := Dictionary.mem_of_get?_indexBy hl
    rw [hl, Option.some.injEq]
    obtain ⟨q,hq,hstatus,rfl⟩ := hlease
    obtain ⟨q',hq',hstatus',rfl⟩ := (hactive l).mp hmem
    by_contra hne
    have hid : q'.lease.id ≠ q.lease.id := by
      intro heq
      rw [heq] at hq'
      exact hne (congrArg _ (Option.some.inj (hq'.symm.trans hq)))
    have hclaim : r.Claims q.lease.id q := Or.inl ⟨hq,hstatus⟩
    have hclaim' : r.Claims q'.lease.id q' := Or.inl ⟨hq',hstatus'⟩
    obtain ⟨hrepo,hname⟩ := mapKey_inj (hexclusive.claimed _ _ hclaim') (hexclusive.claimed _ _ hclaim) hkey
    exact hexclusive.separate _ _ _ _ hclaim' hclaim hid hrepo hname

end ActiveMap

section Books

/-- The map has a lease as the registry does. -/
def LeaseJournal.Mapped (j : LeaseJournal) (id : String) : Prop :=
  ∀ key lease, lease.id = id → (j.worktreeLeases.get? key = some lease ↔
    key = mapKey lease ∧ ∃ q, j.registry.records.get? id = some q ∧ q.status = .active ∧ q.lease = lease)

/-- An intent that waits has its row in the ledger. -/
def LeaseJournal.Rowed (j : LeaseJournal) (id : String) : Prop :=
  ∃ p, j.registry.pending.get? id = some p ∧ ∃ r ∈ j.rows, r.recordId = p.recordId

/-- What the record ids of intents say of the rows, and the last row of each lease and the map
of the registry: all but what an intent with a row is about to change. -/
structure LeaseJournal.Booked (c : LeaseFormat) (j : LeaseJournal) : Prop where
  used : ∀ id p, j.registry.pending.get? id = some p → ∃ n < j.drawn, p.recordId = c.randomUUID n
  distinct : ∀ i i' p p', j.registry.pending.get? i = some p → j.registry.pending.get? i' = some p' →
    p.recordId = p'.recordId → i = i'
  closed : ∀ a, a ∈ j.applied ∨ a ∈ j.withdrawn → (∃ n < j.drawn, a = c.randomUUID n) ∧
    ∀ id p, j.registry.pending.get? id = some p → p.recordId ≠ a
  applied : ∀ a ∈ j.applied, (∃ r ∈ j.rows, r.recordId = a) ∨ a ∈ j.pruned
  withdrawn : ∀ a ∈ j.withdrawn, j.Unused a
  aligned : ∀ id q r, j.registry.records.get? id = some q → (leaseRows j.rows id).getLast? = some r →
    r.payload = .worktreeLease q.lease ∨ ∃ p, j.registry.pending.get? id = some p ∧ r.recordId = p.recordId
  published : ∀ id p r, j.registry.pending.get? id = some p → r ∈ j.rows → r.recordId = p.recordId →
    (leaseRows j.rows id).getLast? = some r ∧ r.payload = .worktreeLease p.record.lease
  mapped : ∀ id, j.Mapped id ∨ j.Rowed id

/-- What an operation is not to meet: a prepared removal that is found to have had no effect
though its record is in the ledger. -/
structure LeaseJournal.Undisturbed (x : LeaseAction P) (k : ℕ) (j : LeaseJournal) : Prop where
  began : k ≤ j.drawn
  unpublished : j.drawn = k → ∀ id p removal, j.registry.pending.get? id = some p → p.removal = some removal →
    removal.state = .prepared → inspectRemoval (x.surroundings.removalWorld id) p removal = .ok .noEffect →
    j.Unused p.recordId

namespace LeaseJournal.Booked
variable {c : LeaseFormat} {j : LeaseJournal}

/-- Another writer's row: of no lease, and with no id of an intent. -/
theorem foreign (h : j.Booked c) {r : StateLedgerEntry} (hkind : ∀ id, rowLeaseId r ≠ some id)
    (hid : ∀ n, r.recordId ≠ c.randomUUID n) : (j.addRow r).Booked c where
  used := h.used
  distinct := h.distinct
  closed := h.closed
  applied a ha := (h.applied a ha).imp_left fun ⟨q,hq,hqa⟩ => ⟨q,List.mem_append_left _ hq,hqa⟩
  withdrawn a ha q hq := by
    rcases List.mem_append.mp hq with hq | hq
    · exact h.withdrawn a ha q hq
    · obtain ⟨⟨n,-,rfl⟩,-⟩ := h.closed a (Or.inr ha)
      rw [List.mem_singleton.mp hq]
      exact hid n
  aligned id q r' hq hr' := by
    have hr' : (leaseRows (j.rows ++ [r]) id).getLast? = some r' := hr'
    rw [leaseRows_append_of_ne _ (hkind id)] at hr'
    exact h.aligned id q r' hq hr'
  published id p r' hp hr' hid' := by
    rcases List.mem_append.mp hr' with hr' | hr'
    · simp only [LeaseJournal.addRow, leaseRows_append_of_ne _ (hkind id)]
      exact h.published id p r' hp hr' hid'
    · obtain ⟨n,-,hn⟩ := h.used id p hp
      rw [List.mem_singleton.mp hr', hn] at hid'
      exact absurd hid' (hid n)
  mapped id := (h.mapped id).imp_right fun ⟨p,hp,q,hq,hid⟩ => ⟨p,hp,q,List.mem_append_left _ hq,hid⟩

/-- The row of an intent. -/
theorem publish (h : j.Booked c) {p : PendingLeaseMutation} {r : StateLedgerEntry}
    (hp : j.Waits p) (hunused : j.Unused p.recordId) (hpayload : r.payload = .worktreeLease p.record.lease)
    (hid : r.recordId = p.recordId) : (j.addRow r).Booked c where
  used := h.used
  distinct := h.distinct
  closed := h.closed
  applied a ha := (h.applied a ha).imp_left fun ⟨q,hq,hqa⟩ => ⟨q,List.mem_append_left _ hq,hqa⟩
  withdrawn a ha q hq := by
    rcases List.mem_append.mp hq with hq | hq
    · exact h.withdrawn a ha q hq
    · rw [List.mem_singleton.mp hq, hid]
      exact (h.closed a (Or.inr ha)).2 _ p hp
  aligned id q r' hq hr' := by
    have hr' : (leaseRows (j.rows ++ [r]) id).getLast? = some r' := hr'
    by_cases hlease : rowLeaseId r = some id
    · rw [leaseRows_append _ hlease, List.getLast?_append, List.getLast?_singleton, Option.some_or] at hr'
      cases hr'
      have hlease' : p.record.lease.id = id := by simpa [rowLeaseId, hpayload] using hlease
      exact Or.inr ⟨p,hlease' ▸ hp,hid⟩
    · rw [leaseRows_append_of_ne _ hlease] at hr'
      exact h.aligned id q r' hq hr'
  published id p' r' hp' hr' hid' := by
    have hrow : rowLeaseId r = some p.record.lease.id := by simp [rowLeaseId, hpayload]
    rcases List.mem_append.mp hr' with hr' | hr'
    · have hne : rowLeaseId r ≠ some id := by
        intro heq
        have hsame : p.record.lease.id = id := Option.some.inj (hrow.symm.trans heq)
        have hp : j.registry.pending.get? id = some p := hsame ▸ hp
        obtain rfl := Option.some.inj (hp.symm.trans hp')
        exact hunused r' hr' hid'
      simp only [LeaseJournal.addRow, leaseRows_append_of_ne _ hne]
      exact h.published id p' r' hp' hr' hid'
    · obtain rfl := List.mem_singleton.mp hr'
      obtain rfl := h.distinct _ _ p p' hp hp' (hid.symm.trans hid')
      obtain rfl := Option.some.inj (Eq.trans (Eq.symm hp) hp')
      simp only [LeaseJournal.addRow, leaseRows_append _ hrow]
      exact ⟨by simp,hpayload⟩
  mapped id := (h.mapped id).imp_right fun ⟨q,hq,r',hr',hid⟩ => ⟨q,hq,r',List.mem_append_left _ hr',hid⟩

/-- An intent of a new record id; the intent that it takes the place of has no row. -/
theorem stage (h : j.Booked c) (hfresh : j.Fresh c) {p : PendingLeaseMutation} {draws m : ℕ} (hm : m < draws)
    (hid : p.recordId = c.randomUUID (j.drawn + m))
    (hreplaced : ∀ p', j.registry.pending.get? p.record.lease.id = some p' → j.Unused p'.recordId) :
    (j.stage p draws).Booked c := by
  have hpending : ∀ id p', (j.stage p draws).registry.pending.get? id = some p' →
      id = p.record.lease.id ∧ p' = p ∨ id ≠ p.record.lease.id ∧ j.registry.pending.get? id = some p' := by
    intro id p' hp'
    simp only [LeaseJournal.stage, WorktreeLeaseRegistry.putPending, Dictionary.get?_set] at hp'
    split at hp'
    · next heq =>
      cases hp'
      exact Or.inl ⟨heq,rfl⟩
    · next hne => exact Or.inr ⟨hne,hp'⟩
  have hnew : ∀ id p', j.registry.pending.get? id = some p' → p'.recordId ≠ p.recordId := by
    intro id p' hp'
    rw [hid]
    exact hfresh.pending _ (Nat.le_add_right _ _) id p' hp'
  have hdrawn : j.drawn + m < (j.stage p draws).drawn := Nat.add_lt_add_left hm _
  have hmono : ∀ n, n < j.drawn → n < (j.stage p draws).drawn := fun n hn => by omega
  have hstays : ∀ id p' r, j.registry.pending.get? id = some p' → r ∈ j.rows → r.recordId = p'.recordId →
      (j.stage p draws).registry.pending.get? id = some p' := by
    intro id p' r hp' hr hrp
    have hne : id ≠ p.record.lease.id := by
      rintro rfl
      exact hreplaced p' hp' r hr hrp
    exact (Dictionary.get?_set_of_ne _ _ hne).trans hp'
  refine ⟨fun id p' hp' => ?_,fun i i' q q' hq hq' heq => ?_,fun a ha => ?_,h.applied,h.withdrawn,
    fun id q r hq hr => ?_,fun id p' r hp' hr hrp => ?_,fun id => ?_⟩
  · rcases hpending id p' hp' with ⟨-,rfl⟩ | ⟨-,hp'⟩
    · exact ⟨_,hdrawn,hid⟩
    · obtain ⟨n,hn,hrecord⟩ := h.used id p' hp'
      exact ⟨n,hmono n hn,hrecord⟩
  · rcases hpending i q hq with ⟨rfl,rfl⟩ | ⟨-,hold⟩
    · rcases hpending i' q' hq' with ⟨rfl,-⟩ | ⟨-,hold'⟩
      · rfl
      · exact absurd heq.symm (hnew i' q' hold')
    · rcases hpending i' q' hq' with ⟨rfl,rfl⟩ | ⟨-,hold'⟩
      · exact absurd heq (hnew i q hold)
      · exact h.distinct i i' q q' hold hold' heq
  · obtain ⟨⟨n,hn,rfl⟩,hne⟩ := h.closed a ha
    refine ⟨⟨n,hmono n hn,rfl⟩,fun id p' hp' => ?_⟩
    rcases hpending id p' hp' with ⟨-,rfl⟩ | ⟨-,hp'⟩
    · rw [hid]
      intro heq
      have := c.distinct heq
      omega
    · exact hne id p' hp'
  · refine (h.aligned id q r hq hr).imp_right fun hwritten => ?_
    obtain ⟨p',hp',hrp⟩ := hwritten
    exact ⟨p',hstays id p' r hp' (mem_leaseRows.mp (List.mem_of_getLast? hr)).1 hrp,hrp⟩
  · rcases hpending id p' hp' with ⟨-,rfl⟩ | ⟨-,hp'⟩
    · exact absurd (hrp.trans hid) (hfresh.rows _ (Nat.le_add_right _ _) r hr)
    · exact h.published id p' r hp' hr hrp
  · refine (h.mapped id).imp_right fun hwritten => ?_
    obtain ⟨p',hp',r,hr,hrp⟩ := hwritten
    exact ⟨p',hstays id p' r hp' hr hrp,r,hr,hrp⟩

/-- Intents of the same record ids and leases, and the same records or fewer released ones. -/
theorem of_same (h : j.Booked c) {j' : LeaseJournal} (hrows : j'.rows = j.rows) (hdrawn : j'.drawn = j.drawn)
    (happlied : j'.applied = j.applied) (hwithdrawn : j'.withdrawn = j.withdrawn) (hpruned : j'.pruned = j.pruned)
    (hmap : j'.worktreeLeases = j.worktreeLeases)
    (hrecords : ∀ id, j'.registry.records.get? id = j.registry.records.get? id ∨
      j'.registry.records.get? id = none ∧ ∃ q, j.registry.records.get? id = some q ∧ q.status = .released)
    (hpending : ∀ id p, j'.registry.pending.get? id = some p → ∃ p', j.registry.pending.get? id = some p' ∧
      p'.recordId = p.recordId ∧ p'.record = p.record)
    (hback : ∀ id p, j.registry.pending.get? id = some p → ∃ p', j'.registry.pending.get? id = some p' ∧
      p'.recordId = p.recordId) : j'.Booked c := by
  refine ⟨fun id p hp => ?_,fun i i' p p' hp hp' heq => ?_,fun a ha => ?_,?_,?_,fun id q r hq hr => ?_,
    fun id p r hp hr hrp => ?_,fun id => ?_⟩
  · obtain ⟨p',hp',hid,-⟩ := hpending id p hp
    rw [hdrawn, ← hid]
    exact h.used id p' hp'
  · obtain ⟨q,hq,hid,-⟩ := hpending i p hp
    obtain ⟨q',hq',hid',-⟩ := hpending i' p' hp'
    exact h.distinct i i' q q' hq hq' (hid.trans (heq.trans hid'.symm))
  · rw [happlied, hwithdrawn] at ha
    obtain ⟨hused,hne⟩ := h.closed a ha
    refine ⟨hdrawn ▸ hused,fun id p hp => ?_⟩
    obtain ⟨p',hp',hid,-⟩ := hpending id p hp
    exact hid ▸ hne id p' hp'
  · rw [happlied, hrows, hpruned]
    exact h.applied
  · rw [hwithdrawn]
    intro a ha r hr
    exact h.withdrawn a ha r (hrows ▸ hr)
  · rw [hrows] at hr
    have hq : j.registry.records.get? id = some q := by
      rcases hrecords id with hsame | ⟨hnone,-⟩
      · exact hsame ▸ hq
      · cases hnone.symm.trans hq
    refine (h.aligned id q r hq hr).imp_right fun ⟨p,hp,hrp⟩ => ?_
    obtain ⟨p',hp',hid⟩ := hback id p hp
    exact ⟨p',hp',hrp.trans hid.symm⟩
  · obtain ⟨p',hp',hid,hrecord⟩ := hpending id p hp
    rw [hrows, ← hrecord]
    exact h.published id p' r hp' (hrows ▸ hr) (hrp.trans hid.symm)
  · rcases h.mapped id with hmapped | ⟨p,hp,r,hr,hrp⟩
    · left
      intro key lease hlease
      rw [hmap, hmapped key lease hlease]
      rcases hrecords id with hsame | ⟨hnone,q,hq,hreleased⟩
      · rw [hsame]
      · refine and_congr_right fun _ => ⟨?_,?_⟩
        · rintro ⟨q',hq',hactive,-⟩
          obtain rfl := Option.some.inj (hq.symm.trans hq')
          cases hactive.symm.trans hreleased
        · rintro ⟨q',hq',-⟩
          cases hnone.symm.trans hq'
    · obtain ⟨p',hp',hid⟩ := hback id p hp
      exact Or.inr ⟨p',hp',r,hrows ▸ hr,hrp.trans hid.symm⟩

theorem erased {j : LeaseJournal} {l id : String} {q : PendingLeaseMutation}
    (h : (j.registry.pending.erase l).get? id = some q) : id ≠ l ∧ j.registry.pending.get? id = some q := by
  rw [Dictionary.get?_erase] at h
  split at h
  · cases h
  · next hne => exact ⟨hne,h⟩

theorem kept {j : LeaseJournal} {l id : String} {q : PendingLeaseMutation} (hne : id ≠ l)
    (h : j.registry.pending.get? id = some q) : (j.registry.pending.erase l).get? id = some q := by
  rwa [Dictionary.get?_erase, if_neg hne]

/-- An intent that goes without a row. -/
theorem withdraw (h : j.Booked c) {p : PendingLeaseMutation} (hp : j.Waits p) (hunused : j.Unused p.recordId) :
    (j.withdraw p).Booked c := by
  have hother : ∀ id q r, j.registry.pending.get? id = some q → r ∈ j.rows → r.recordId = q.recordId →
      id ≠ p.record.lease.id := by
    rintro id q r hq hr hrq rfl
    obtain rfl := Option.some.inj (Eq.trans (Eq.symm hp) hq)
    exact hunused r hr hrq
  refine ⟨fun id q hq => h.used id q (erased hq).2,
    fun i i' q q' hq hq' => h.distinct i i' q q' (erased hq).2 (erased hq').2,fun a ha => ?_,h.applied,fun a ha => ?_,
    fun id q r hq hr => ?_,fun id q r hq => h.published id q r (erased hq).2,fun id => ?_⟩
  · have ha : (a ∈ j.applied ∨ a ∈ j.withdrawn) ∨ a = p.recordId := by
      simpa [LeaseJournal.withdraw, or_assoc] using ha
    rcases ha with ha | rfl
    · obtain ⟨hused,hne⟩ := h.closed a ha
      exact ⟨hused,fun id q hq => hne id q (erased hq).2⟩
    · refine ⟨h.used _ p hp,fun id q hq heq => ?_⟩
      exact (erased hq).1 (h.distinct _ _ q p (erased hq).2 hp heq)
  · rcases List.mem_append.mp ha with ha | ha
    · exact h.withdrawn a ha
    · rw [List.mem_singleton.mp ha]
      exact hunused
  · refine (h.aligned id q r hq hr).imp_right fun ⟨q',hq',hrq⟩ => ⟨q',?_,hrq⟩
    exact kept (hother id q' r hq' (mem_leaseRows.mp (List.mem_of_getLast? hr)).1 hrq) hq'
  · refine (h.mapped id).imp_right fun ⟨q,hq,r,hr,hrq⟩ => ⟨q,?_,r,hr,hrq⟩
    exact kept (hother id q r hq hr hrq) hq

/-- An intent that goes once the registry and the map have what its row says. -/
theorem clear (h : j.Booked c) {p : PendingLeaseMutation} (hp : j.Waits p) (hpublished : j.Published p)
    (hrecord : j.registry.records.get? p.record.lease.id = some p.record) (hmapped : ∀ id, j.Mapped id) :
    (j.clear p).Booked c := by
  obtain ⟨row,hrow,hid,-⟩ := hpublished
  obtain ⟨hlast,hpayload⟩ := h.published _ p row hp hrow hid
  refine ⟨fun id q hq => h.used id q (erased hq).2,
    fun i i' q q' hq hq' => h.distinct i i' q q' (erased hq).2 (erased hq').2,fun a ha => ?_,fun a ha => ?_,h.withdrawn,
    fun id q r hq hr => ?_,fun id q r hq => h.published id q r (erased hq).2,fun id => Or.inl (hmapped id)⟩
  · have ha : (a ∈ j.applied ∨ a ∈ j.withdrawn) ∨ a = p.recordId := by
      simp only [LeaseJournal.clear, List.mem_append, List.mem_singleton] at ha
      tauto
    rcases ha with ha | rfl
    · obtain ⟨hused,hne⟩ := h.closed a ha
      exact ⟨hused,fun id q hq => hne id q (erased hq).2⟩
    · refine ⟨h.used _ p hp,fun id q hq heq => ?_⟩
      exact (erased hq).1 (h.distinct _ _ q p (erased hq).2 hp heq)
  · rcases List.mem_append.mp ha with ha | ha
    · exact h.applied a ha
    · exact Or.inl ⟨row,hrow,hid.trans (List.mem_singleton.mp ha).symm⟩
  · by_cases heq : id = p.record.lease.id
    · subst heq
      have hq : j.registry.records.get? p.record.lease.id = some q := hq
      have hr : (leaseRows j.rows p.record.lease.id).getLast? = some r := hr
      obtain rfl := Option.some.inj (hrecord.symm.trans hq)
      obtain rfl := Option.some.inj (hlast.symm.trans hr)
      exact Or.inl hpayload
    · exact (h.aligned id q r hq hr).imp_right fun ⟨q',hq',hrq⟩ => ⟨q',kept heq hq',hrq⟩

/-- The record of an intent that has its row. -/
theorem commit (h : j.Booked c) {p : PendingLeaseMutation} (hp : j.Waits p) (hpublished : j.Published p) :
    (j.commit p.record).Booked c := by
  obtain ⟨row,hrow,hid,-⟩ := hpublished
  obtain ⟨hlast,-⟩ := h.published _ p row hp hrow hid
  refine ⟨h.used,h.distinct,h.closed,h.applied,h.withdrawn,fun id q r hq hr => ?_,h.published,fun id => ?_⟩
  · have hr : (leaseRows j.rows id).getLast? = some r := hr
    simp only [LeaseJournal.commit, WorktreeLeaseRegistry.putRecord, Dictionary.get?_set] at hq
    split at hq
    · next heq =>
      subst heq
      obtain rfl := Option.some.inj (hlast.symm.trans hr)
      exact Or.inr ⟨p,hp,hid⟩
    · exact h.aligned id q r hq hr
  · by_cases heq : id = p.record.lease.id
    · exact Or.inr ⟨p,heq ▸ hp,row,hrow,hid⟩
    · refine (h.mapped id).imp_left fun hmapped key lease hlease => ?_
      simp only [LeaseJournal.commit, WorktreeLeaseRegistry.putRecord, Dictionary.get?_set_of_ne _ _ heq]
      exact hmapped key lease hlease

theorem activate (h : j.Booked c) (hmapped : ∀ id, j.activate.Mapped id) : j.activate.Booked c :=
  ⟨h.used,h.distinct,h.closed,h.applied,h.withdrawn,h.aligned,h.published,fun id => Or.inl (hmapped id)⟩

/-- Fewer rows: those of waiting intents stay, and with any row of a lease its last. -/
theorem compact (h : j.Booked c) {keep : StateLedgerEntry → Bool} {pruned : List String}
    (hpending : ∀ id p r, j.registry.pending.get? id = some p → r ∈ j.rows → r.recordId = p.recordId → keep r = true)
    (hlast : ∀ id r l, r ∈ leaseRows j.rows id → keep r = true → (leaseRows j.rows id).getLast? = some l →
      keep l = true)
    (hpruned : j.pruned ⊆ pruned) (hdropped : ∀ r ∈ j.rows, keep r = false → r.recordId ∈ pruned) :
    (j.compact keep pruned).Booked c := by
  refine ⟨h.used,h.distinct,h.closed,fun a ha => ?_,fun a ha r hr => h.withdrawn a ha r (List.mem_filter.mp hr).1,
    fun id q r hq hr => ?_,fun id p r hp hr hrp => ?_,fun id => ?_⟩
  · rcases h.applied a ha with ⟨r,hr,rfl⟩ | ha
    · cases hkeep : keep r with
      | true => exact Or.inl ⟨r,List.mem_filter.mpr ⟨hr,hkeep⟩,rfl⟩
      | false => exact Or.inr (hdropped r hr hkeep)
    · exact Or.inr (hpruned ha)
  · simp only [LeaseJournal.compact, leaseRows_filter] at hr
    obtain ⟨hmem,hkeep⟩ := List.mem_filter.mp (List.mem_of_getLast? hr)
    obtain ⟨l,hl⟩ : ∃ l, (leaseRows j.rows id).getLast? = some l :=
      ⟨_,List.getLast?_eq_getLast_of_ne_nil (List.ne_nil_of_mem hmem)⟩
    rw [getLast?_filter hl (hlast id r l hmem hkeep hl)] at hr
    cases hr
    exact h.aligned id q _ hq hl
  · obtain ⟨hr,hkeep⟩ := List.mem_filter.mp hr
    obtain ⟨hl,hpayload⟩ := h.published id p r hp hr hrp
    simp only [LeaseJournal.compact, leaseRows_filter]
    exact ⟨getLast?_filter hl hkeep,hpayload⟩
  · refine (h.mapped id).imp_right fun hwritten => ?_
    obtain ⟨p,hp,r,hr,hrp⟩ := hwritten
    exact ⟨p,hp,r,List.mem_filter.mpr ⟨hr,hpending id p r hp hr hrp⟩,hrp⟩

end LeaseJournal.Booked
/-- The records of other writers are of no lease and have ids of their own. -/
def LeaseAction.Apart (c : LeaseFormat) (x : LeaseAction P) : Prop :=
  ∀ f ∈ x.operation.foreign, (∀ lease, f.input.payload ≠ .worktreeLease lease) ∧ ∀ n, f.recordId ≠ c.randomUUID n

theorem rowLeaseId_ne {r : StateLedgerEntry} (h : ∀ lease, r.payload ≠ .worktreeLease lease) (id : String) :
    rowLeaseId r ≠ some id := by
  unfold rowLeaseId
  split
  · next lease hpayload => exact absurd hpayload (h lease)
  · simp

structure LeaseJournal.Settled (c : LeaseFormat) (j : LeaseJournal) : Prop where
  lifecycle : j.Lifecycle c
  fresh : j.Fresh c
  exclusive : j.registry.Exclusive StoredLeaseRecord.Named StoredLeaseRecord.OtherBranch
  ids : (j.rows.map (·.recordId)).Nodup
  booked : j.Booked c

variable {c : LeaseFormat} {x : LeaseAction P} {k : ℕ} {j j' : LeaseJournal}

theorem ids_move (h : LeaseMove c x True k j j') (hj : (j.rows.map (·.recordId)).Nodup) :
    (j'.rows.map (·.recordId)).Nodup := by
  have hadd : ∀ r, j.Unused r.recordId → (((j.addRow r).rows).map (·.recordId)).Nodup := by
    intro r hunused
    simp only [LeaseJournal.addRow, List.map_append, List.map_cons, List.map_nil]
    refine List.nodup_append.mpr ⟨hj,List.nodup_singleton _,fun a ha b hb => ?_⟩
    obtain ⟨q,hq,rfl⟩ := List.mem_map.mp ha
    rw [List.mem_singleton.mp hb]
    exact hunused q hq
  cases h with
  | foreign f r _ hunused _ _ => exact hadd r hunused
  | publish p r _ hunused _ _ hid => exact hadd r (hid ▸ hunused)
  | compact _ _ _ _ _ _ _ _ _ _ _ _ _ _ => exact (List.filter_sublist.map _).nodup hj
  | _ => exact hj

/-- With any row of a lease that a compaction keeps it keeps the last one. -/
theorem compact_last (hids : (j.rows.map (·.recordId)).Nodup) {policy : RetentionPolicy} {now : ℤ}
    {intent : LeaseReclamationIntent} {snapshot extra : List StateLedgerEntry}
    (hintent : intent = reclamationIntent snapshot j.registry (retentionSelection snapshot j.registry policy now))
    (hrows : j.rows = snapshot ++ extra) (hextra : ∀ r ∈ extra, ∀ id, rowLeaseId r ≠ some id) {id : String}
    {r l : StateLedgerEntry} (hr : r ∈ leaseRows j.rows id)
    (hkeep : (decide (r.sequence ∈ retentionSelection j.rows j.registry policy now) ||
      (r.kind == .worktreeLease && !intent.recordIds.contains r.recordId)) = true)
    (hl : (leaseRows j.rows id).getLast? = some l) :
    (decide (l.sequence ∈ retentionSelection j.rows j.registry policy now) ||
      (l.kind == .worktreeLease && !intent.recordIds.contains l.recordId)) = true := by
  have hlease := mem_leaseRows.mp (List.mem_of_getLast? hl)
  rcases Bool.or_eq_true_iff.mp hkeep with hselected | hproposed
  · have := last_selected hr (of_decide_eq_true hselected) hl
    simp [this]
  · obtain ⟨-,hnot⟩ := Bool.and_eq_true_iff.mp hproposed
    have hsnapshot : leaseRows j.rows id = leaseRows snapshot id := by
      have hnone : leaseRows extra id = [] := List.filter_eq_nil_iff.mpr (fun q hq => by simpa using hextra q hq id)
      rw [hrows, leaseRows, List.filter_append]
      exact (congrArg _ hnone).trans (List.append_nil _)
    rw [hsnapshot] at hr hl
    have hmem := mem_leaseRows.mp hr
    have hunproposed : r.recordId ∉ intent.recordIds := by simpa using hnot
    have hselected : r.sequence ∈ retentionSelection snapshot j.registry policy now := by
      by_contra hno
      refine hunproposed ?_
      rw [hintent]
      exact List.mem_map.mpr ⟨r,List.mem_filter.mpr ⟨hmem.1,by simp [kind_of_rowLeaseId hmem.2, hno]⟩,rfl⟩
    have hlast := last_selected hr hselected hl
    have hl' : l.recordId ∉ intent.recordIds := by
      rw [hintent]
      intro hproposed
      obtain ⟨q,hq,hid⟩ := List.mem_map.mp hproposed
      obtain ⟨hq,hno⟩ := List.mem_filter.mp hq
      have hsame : q = l := List.inj_on_of_nodup_map hids (hrows ▸ List.mem_append_left _ hq) hlease.1 hid
      subst hsame
      simp [hlast] at hno
    simp [kind_of_rowLeaseId hlease.2, hl']

theorem undisturbed_move (h : LeaseMove c x True k j j') (hx : LeaseAction.Apart c x) (hj : j.Booked c)
    (hquiet : j.Undisturbed x k) : j'.Undisturbed x k := by
  refine ⟨Nat.le_trans hquiet.began h.drawn,?_⟩
  have hstage : ∀ (p : PendingLeaseMutation) (draws : ℕ), 0 < draws → (j.stage p draws).drawn ≠ k := by
    intro p draws hdraws hk
    have hk : j.drawn + draws = k := hk
    have := hquiet.began
    omega
  have hdrop : ∀ (p : PendingLeaseMutation), j.drawn = k → ∀ id q removal,
      (j.registry.pending.erase p.record.lease.id).get? id = some q → q.removal = some removal →
      removal.state = .prepared → inspectRemoval (x.surroundings.removalWorld id) q removal = .ok .noEffect →
      j.Unused q.recordId := fun p hk id q removal hq => hquiet.unpublished hk id q removal (LeaseJournal.Booked.erased hq).2
  cases h with
  | foreign f r hf _ _ hid =>
    intro hk id q removal hq hremoval hprepared hnone r' hr'
    rcases List.mem_append.mp hr' with hr' | hr'
    · exact hquiet.unpublished hk id q removal hq hremoval hprepared hnone r' hr'
    · obtain ⟨n,-,hn⟩ := hj.used id q hq
      rw [List.mem_singleton.mp hr', hid, hn]
      exact (hx f hf).2 n
  | publish p r hp _ hinspected _ hid =>
    intro hk id q removal hq hremoval hprepared hnone r' hr'
    rcases List.mem_append.mp hr' with hr' | hr'
    · exact hquiet.unpublished hk id q removal hq hremoval hprepared hnone r' hr'
    · rw [List.mem_singleton.mp hr', hid]
      intro heq
      obtain rfl := hj.distinct _ _ p q hp hq heq
      obtain rfl := Option.some.inj (Eq.trans (Eq.symm hp) hq)
      cases (hinspected hk removal hremoval hprepared).symm.trans hnone
  | acquire p _ => exact fun hk => absurd hk (hstage p 3 (by omega))
  | renew p _ _ => exact fun hk => absurd hk (hstage p 1 (by omega))
  | release p _ _ => exact fun hk => absurd hk (hstage p 1 (by omega))
  | mark p removal hp _ _ =>
    intro hk id q removal' hq hremoval hprepared hnone
    simp only [LeaseJournal.putRegistry, WorktreeLeaseRegistry.putPending, Dictionary.get?_set] at hq
    split at hq
    · cases hq
      cases hremoval
      cases hprepared
    · exact hquiet.unpublished hk id q removal' hq hremoval hprepared hnone
  | clear p _ _ _ _ => exact hdrop p
  | refuse p _ _ _ => exact hdrop p
  | cancel p _ _ _ _ _ _ => exact hdrop p
  | compact _ _ _ _ _ _ _ _ _ _ _ _ _ _ =>
    intro hk id q removal hq hremoval hprepared hnone r hr
    exact hquiet.unpublished hk id q removal hq hremoval hprepared hnone r (List.mem_filter.mp hr).1
  | finish intent _ =>
    intro hk id q removal hq
    simp only [LeaseJournal.putRegistry, finishedRegistry_pending] at hq
    exact hquiet.unpublished hk id q removal hq
  | _ => exact hquiet.unpublished

theorem booked_move (h : LeaseMove c x True k j j') (hx : LeaseAction.Apart c x) (hquiet : j.Undisturbed x k)
    (hj : j.Settled c) : j'.Booked c := by
  have hb := hj.booked
  have hmapped : ∀ id, j.activate.Mapped id := by
    intro id key lease hlease
    rw [← hlease]
    exact activeMap_get? hj.lifecycle.keyed hj.exclusive key lease
  cases h with
  | quiet => exact hb
  | foreign f r hf _ hpayload hid =>
    exact hb.foreign (rowLeaseId_ne (hpayload.ne_worktreeLease (hx f hf).1)) (fun n => hid ▸ (hx f hf).2 n)
  | publish p r hp hunused _ hpayload hid => exact hb.publish hp hunused hpayload hid
  | acquire p h =>
    refine hb.stage (m := 2) hj.fresh (by omega) h.recordId (fun p' hp' => ?_)
    rw [h.id, hj.lifecycle.pending _ (Nat.le_refl _)] at hp'
    cases hp'
  | renew p existing h =>
    refine hb.stage (m := 0) hj.fresh (by omega) h.recordId (fun p' hp' => ?_)
    cases h.idle.symm.trans hp'
  | release p previous h => exact hb.stage (m := 0) hj.fresh (by omega) h.recordId (h.unpublished trivial)
  | mark p removal hp _ _ =>
    refine hb.of_same rfl rfl rfl rfl rfl rfl (fun _ => Or.inl rfl) (fun id q hq => ?_) (fun id q hq => ?_)
    · simp only [LeaseJournal.putRegistry, WorktreeLeaseRegistry.putPending, Dictionary.get?_set] at hq
      split at hq
      · next heq =>
        cases hq
        exact ⟨p,heq ▸ hp,rfl,rfl⟩
      · exact ⟨q,hq,rfl,rfl⟩
    · simp only [LeaseJournal.putRegistry, WorktreeLeaseRegistry.putPending, Dictionary.get?_set]
      split
      · next heq =>
        subst heq
        obtain rfl := Option.some.inj (Eq.trans (Eq.symm hp) hq)
        exact ⟨_,rfl,rfl⟩
      · exact ⟨q,hq,rfl⟩
  | commit p hp hpublished _ => exact hb.commit hp hpublished
  | activate => exact hb.activate hmapped
  | clear p hp hpublished hrecord hmap =>
    refine hb.clear hp hpublished hrecord (fun id key lease hlease => ?_)
    rw [hmap]
    exact hmapped id key lease hlease
  | refuse p hp _ hunused => exact hb.withdraw hp hunused
  | cancel p removal hp hremoval hprepared hk hnone =>
    exact hb.withdraw hp (hquiet.unpublished hk _ p removal hp hremoval hprepared hnone)
  | propose _ _ _ _ =>
    exact hb.of_same rfl rfl rfl rfl rfl rfl (fun _ => Or.inl rfl) (fun id q hq => ⟨q,hq,rfl,rfl⟩)
      (fun id q hq => ⟨q,hq,rfl⟩)
  | compact policy now interleaved intent snapshot extra pruned hop hreclamation hintent hrows hextra hpruned hdropped =>
    have hlease : ∀ r ∈ extra, ∀ id, rowLeaseId r ≠ some id := by
      intro r hr
      obtain ⟨f,hf,hpayload,-⟩ := hextra r hr
      exact rowLeaseId_ne (hpayload.ne_worktreeLease (hx f hf).1)
    refine hb.compact (fun id p r hp hr hrp => ?_)
      (fun id r l hr hkeep hl => compact_last hj.ids hintent hrows hlease hr hkeep hl) hpruned hdropped
    obtain ⟨hl,-⟩ := hb.published id p r hp hr hrp
    have hheld : j.registry.Holds id := Or.inr (by rw [hp]; rfl)
    have hselected : r.sequence ∈ retentionSelection j.rows j.registry policy now := held_selected hheld (Or.inr hl)
    simp [hselected]
  | finish intent _ =>
    refine hb.of_same rfl rfl rfl rfl rfl rfl (fun id => ?_) (fun id q hq => ⟨q,?_,rfl,rfl⟩) (fun id q hq => ⟨q,?_,rfl⟩)
    · rcases finishedRegistry_records j.rows intent j.registry id with hsame | ⟨hnone,-,q,hq,hreleased,-⟩
      · exact Or.inl hsame
      · exact Or.inr ⟨hnone,q,hq,hreleased⟩
    · rwa [LeaseJournal.putRegistry, finishedRegistry_pending] at hq
    · rwa [LeaseJournal.putRegistry, finishedRegistry_pending]

theorem settled_move (h : LeaseMove c x True k j j') (hx : LeaseAction.Apart c x) (hquiet : j.Undisturbed x k)
    (hj : j.Settled c) : j'.Settled c where
  lifecycle := lifecycle_move h hj.lifecycle
  fresh := h.fresh (fun f hf => (hx f hf).2) hj.fresh
  exclusive := exclusive_move otherBranch_scoped (fun _ hp => ⟨hp.branchName,fun _ _ hq _ => hp.otherBranch hq⟩) h
    hj.exclusive
  ids := ids_move h hj.ids
  booked := booked_move h hx hquiet hj

end Books

section Runs
variable {c : LeaseFormat}

/-- Intents, ledger, registry and map agree. -/
structure LeaseManagerState.Agrees (s : LeaseManagerState P) : Prop where
  applied : ∀ a ∈ s.applied, (s.ledger.readable.filter fun r => r.recordId == a).length = 1 ∨ a ∈ s.pruned
  withdrawn : ∀ a ∈ s.withdrawn, ∀ r ∈ s.ledger.readable, r.recordId ≠ a
  last : ∀ id q r, s.stored.pending.get? id = none → s.stored.records.get? id = some q →
    (leaseRows s.ledger.readable id).getLast? = some r → r.payload = .worktreeLease q.lease
  mapped : ∀ id, s.stored.pending.get? id = none → ∀ key lease, lease.id = id →
    (s.worktreeLeases.get? key = some lease ↔
      key = mapKey lease ∧ ∃ q, s.stored.records.get? id = some q ∧ q.status = .active ∧ q.lease = lease)

/-- No prepared removal whose record is in the ledger already is found to have had no effect. -/
def LeaseAction.Heeds (s : LeaseManagerState P) (x : LeaseAction P) : Prop :=
  ∀ id p removal, s.stored.pending.get? id = some p → p.removal = some removal → removal.state = .prepared →
    (∃ r ∈ s.ledger.readable, r.recordId = p.recordId) →
    inspectRemoval (x.surroundings.removalWorld id) p removal ≠ .ok .noEffect

theorem LeaseAction.Heeds.undisturbed {s : LeaseManagerState P} {x : LeaseAction P} (h : LeaseAction.Heeds s x) :
    s.journal.Undisturbed x s.drawn where
  began := Nat.le_refl _
  unpublished _ id p removal hp hremoval hprepared hnone r hr hid := by
    obtain ⟨q,hq,rfl⟩ := List.mem_map.mp hr
    exact h id p removal hp hremoval hprepared ⟨q,hq,hid⟩ hnone

theorem LeaseJournal.Settled.agrees {s : LeaseManagerState P} (h : s.journal.Settled c) : s.Agrees where
  applied a ha := by
    refine (h.booked.applied a ha).imp_left ?_
    rintro ⟨row,hrow,hra⟩
    obtain ⟨r,hr,rfl⟩ := List.mem_map.mp hrow
    have hra : r.recordId = a := hra
    have honly : s.ledger.readable.filter (fun q => q.recordId == a) = [r] := by
      have hids : (s.ledger.readable.map (·.recordId)).Nodup := by
        have hrows := h.ids
        simp only [LeaseManagerState.journal, List.map_map] at hrows
        exact hrows
      have hnodup := hids.of_map.filter fun q => q.recordId == a
      have hmem : ∀ q, q ∈ s.ledger.readable.filter (fun q => q.recordId == a) ↔ q = r := by
        intro q
        rw [List.mem_filter, beq_iff_eq]
        constructor
        · rintro ⟨hq,hqa⟩
          exact List.inj_on_of_nodup_map hids hq hr (hqa.trans hra.symm)
        · rintro rfl
          exact ⟨hr,hra⟩
      exact List.perm_singleton.mp ((List.perm_ext_iff_of_nodup hnodup (List.nodup_singleton r)).mpr (by simpa using hmem))
    rw [honly]
    rfl
  withdrawn a ha r hr := h.booked.withdrawn a ha r.core (List.mem_map_of_mem hr)
  last id q r hnone hq hr := by
    rw [← leaseRows_core] at hr
    rcases h.booked.aligned id q r hq hr with hpayload | ⟨p,hp,-⟩
    · exact hpayload
    · cases hnone.symm.trans hp
  mapped id hnone := by
    rcases h.booked.mapped id with hmapped | ⟨p,hp,-⟩
    · exact hmapped
    · cases hnone.symm.trans hp

theorem settled_init : (LeaseManagerState.init : LeaseManagerState P).journal.Settled c where
  lifecycle := lifecycle_init
  fresh := ⟨fun n _ r hr => (by cases hr),fun n _ id p hp => by cases hp⟩
  exclusive := WorktreeLeaseRegistry.exclusive_empty
  ids := List.nodup_nil
  booked := by
    refine ⟨?_,?_,?_,?_,?_,?_,?_,fun id => Or.inl ?_⟩
    · exact fun id p hp => by cases hp
    · exact fun i i' p p' hp => by cases hp
    · exact fun a ha => by rcases ha with ha | ha <;> cases ha
    · exact fun a ha => by cases ha
    · exact fun a ha => by cases ha
    · exact fun id q r hq => by cases hq
    · exact fun id p r hp => by cases hp
    · intro key lease _
      constructor
      · exact fun h => by cases h
      · rintro ⟨-,q,hq,-⟩
        cases hq

variable [DecidableEq P]

/-- In every run, wherever it is cut short and whatever the world answers, but that no replay
takes back a removal whose record is in the ledger: the stores agree, and a lease that is
released is not active again. -/
theorem publication_agrees (c : LeaseFormat) {xs : List (LeaseAction P)} {s : LeaseManagerState P}
    (hapart : ∀ x ∈ xs, LeaseAction.Apart c x) (hheeds : Meets (step c) LeaseAction.Heeds LeaseManagerState.init xs)
    (h : run (step c) LeaseManagerState.init xs = some s) :
    s.Agrees ∧ ∀ ys t id q q', run (step c) s ys = some t → s.stored.records.get? id = some q → q.status = .released →
      t.stored.records.get? id = some q' → q'.status = .released := by
  have hinit : (LeaseManagerState.init : LeaseManagerState P).ledger.Sound (.core c.toLedgerFormat) ∧
      (LeaseManagerState.init : LeaseManagerState P).journal.Settled c :=
    ⟨AppendOnlyStore.State.Sound.init,settled_init⟩
  have hmeets : Meets (step c) (fun s x => LeaseAction.Apart c x ∧ LeaseAction.Heeds s x)
      LeaseManagerState.init xs := meets_and (step c) (meets_of_forall (step c) hapart _) hheeds
  obtain ⟨hsound,hsettled⟩ := run_invariant_of_meets (step c)
    (I := fun s => s.ledger.Sound (.core c.toLedgerFormat) ∧ s.journal.Settled c)
    (fun s x t hs hx hstep => by
      have hend := WorktreeLeaseManager.step_invariant
        (I := fun j => j.Settled c ∧ j.Undisturbed x s.drawn)
        (fun j j' hmove hj => ⟨settled_move hmove hx.1 hj.2 hj.1,undisturbed_move hmove hx.1 hj.1.booked hj.2⟩)
        hs.1 (fun _ => hs.2.fresh) ⟨hs.2,hx.2.undisturbed⟩ hstep
      exact ⟨hend.1,hend.2.1⟩) hinit hmeets h
  refine ⟨hsettled.agrees,fun ys t id q q' hrun hq hstatus hq' => ?_⟩
  have hretired := run_invariant (step c) (I := fun s => s.ledger.Sound (.core c.toLedgerFormat) ∧ s.journal.Retired c id)
    (fun s x t hs hstep => WorktreeLeaseManager.step_invariant (fun _ _ hmove => retired_move hmove)
      hs.1 False.elim hs.2 hstep) ⟨hsound,hsettled.lifecycle.retired hq hstatus⟩ hrun
  exact hretired.2.records q' hq'

end Runs

section Sample
open WorktreeLeaseManager

/-- A file system with the root and, where it is there, a worktree. -/
def sampleTree (there : Bool) (path : Path) : Except LeaseError (Option PathIdentity) :=
  .ok (if path = [] then some ⟨[],0,0⟩ else if there && path == ["w","a"] then some ⟨["w","a"],0,1⟩ else none)

def sampleTreeWorld (there : Bool) : World where
  readPathIdentity := sampleTree there
  readGitWorktreeRegistration _ _ := .ok (if there then some (some "a") else none)
  checkProcessLiveness _ _ := .missing
  verifyGitWorktreeRepository _ _ := .ok true
  inspectWorktreeDirtyState _ := .ok .clean

def sampleReplay (there : Bool) : Surroundings Bool :=
  { sampleSurroundings true with removalWorld := fun _ => sampleTreeWorld there }

/-- A lease whose worktree is about to be removed, and a replay that finds it removed and is
cut short once the release is in the ledger. -/
def sampleRemoval : List (LeaseAction Bool) :=
  [⟨sampleReplay false,.acquire (sampleRequest .exclusiveWrite)
      { sampleOptions 0 (some ["w","a"]) with repoRoot := some ["r"] },.returns⟩,
   ⟨sampleReplay false,.withCleanup sampleLease [.stageRemoval ⟨["w","a"],0,1⟩ (some 1)],.returns⟩,
   ⟨sampleReplay false,.reconcile,.crashes 8⟩]

/-- A replay that finds the worktree where it was takes the intent back, but not its row. -/
theorem publication_disagrees : ∃ s, run (step sampleLeaseFormat) LeaseManagerState.init
    (sampleRemoval ++ [⟨sampleReplay true,.reconcile,.returns⟩]) = some s ∧
    (∃ a ∈ s.withdrawn, ∃ r ∈ s.ledger.readable, r.recordId = a) ∧
    ∃ id q r, s.stored.pending.get? id = none ∧ s.stored.records.get? id = some q ∧
      (leaseRows s.ledger.readable id).getLast? = some r ∧ r.payload ≠ .worktreeLease q.lease := by
  have hshape : (run (step sampleLeaseFormat) LeaseManagerState.init
      (sampleRemoval ++ [⟨sampleReplay true,.reconcile,.returns⟩])).map (fun s =>
        decide ((∃ a ∈ s.withdrawn, ∃ r ∈ s.ledger.readable, r.recordId = a) ∧
          s.stored.pending.get? "u" = none ∧ ∃ q ∈ s.stored.records.get? "u",
            ∃ r ∈ (leaseRows s.ledger.readable "u").getLast?, r.payload ≠ .worktreeLease q.lease)) = some true := by
    decide +kernel
  obtain ⟨s,hs,hshape⟩ := Option.map_eq_some_iff.mp hshape
  obtain ⟨hrow,hnone,q,hq,r,hr,hne⟩ := of_decide_eq_true hshape
  exact ⟨s,hs,hrow,"u",q,r,hnone,hq,hr,hne⟩

theorem publication_agrees_sample : ∃ s, run (step sampleLeaseFormat) LeaseManagerState.init
    (sampleRemoval ++ [⟨sampleReplay false,.reconcile,.returns⟩]) = some s ∧ s.applied.length = 2 ∧ s.Agrees := by
  have hshape : (run (step sampleLeaseFormat) LeaseManagerState.init
      (sampleRemoval ++ [⟨sampleReplay false,.reconcile,.returns⟩])).map (·.applied.length) = some 2 := by
    decide +kernel
  obtain ⟨s,hs,hshape⟩ := Option.map_eq_some_iff.mp hshape
  refine ⟨s,hs,hshape,(publication_agrees sampleLeaseFormat ?_ (meets_of_always _ ?_ _) hs).1⟩
  · intro x hx
    simp only [sampleRemoval, List.cons_append, List.nil_append, List.mem_cons, List.not_mem_nil, or_false] at hx
    rcases hx with rfl | rfl | rfl | rfl <;> exact fun f hf => by cases hf
  · intro x hx s id p removal _ _ _ _
    have hworld : x.surroundings.removalWorld id = sampleTreeWorld false := by
      simp only [sampleRemoval, List.cons_append, List.nil_append, List.mem_cons, List.not_mem_nil, or_false] at hx
      rcases hx with rfl | rfl | rfl | rfl <;> rfl
    rw [hworld, inspectRemoval, inspectRemovalEffect]
    cases hroot : p.record.repoRoot with
    | none => simp [sampleTreeWorld, sampleTree, bind, Except.bind]
    | some repoRoot =>
      by_cases hpath : p.record.lease.path = []
      · simp [sampleTreeWorld, sampleTree, bind, Except.bind, hpath]
      · simp [sampleTreeWorld, sampleTree, bind, Except.bind, hpath]

end Sample
end OmniagentPlus.WorktreeLeasing
