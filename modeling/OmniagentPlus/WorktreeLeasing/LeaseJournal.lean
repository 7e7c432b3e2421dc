import OmniagentPlus.WorktreeLeasing.LeaseManager
import OmniagentPlus.WorktreeLeasing.LeaseReclamation

/-! What the lease manager is for: a journal of intents before a ledger and a registry. Each
move is one thing that a published state of an operation may have changed, with what is known
of it; the operations are shown to make no others. -/
namespace OmniagentPlus.WorktreeLeasing
open OmniagentPlus.Foundation OmniagentPlus.CoreContracts OmniagentPlus.StateLedger
variable {P : Type} [DecidableEq P]

/-- What outlives a process, and what happened so far; the rows without what may be spelled anew of them. -/
structure LeaseJournal where
  rows : List StateLedgerEntry
  registry : WorktreeLeaseRegistry
  worktreeLeases : Dictionary String WorktreeLease
  drawn : ℕ
  readings : List Instant
  pruned : List String
  applied : List String
  withdrawn : List String
  releases : List StoredLeaseRecord
  grants : List LeaseGrant

def LeaseManagerState.journal (s : LeaseManagerState P) : LeaseJournal :=
  ⟨s.ledger.readable.map StateLedgerEntry.core,s.stored,s.worktreeLeases,s.drawn,s.readings,s.pruned,s.applied,s.withdrawn,s.releases,s.grants⟩

/-- The records that other writers append during an operation. -/
def LeaseOperation.foreign : LeaseOperation → List ForeignRecord
  | .retainHistory _ _ interleaved => interleaved.map Prod.fst
  | .append record => [record]
  | _ => []

def CleanupControl.time : CleanupControl → Option Instant
  | .stageRemoval _ now => some now
  | .release now _ => some now
  | _ => none

/-- The readings of the clock that an operation is given, in order. -/
def LeaseOperation.times : LeaseOperation → List Instant
  | .acquire _ options => [options.now]
  | .renew _ options => [options.now]
  | .release _ now => [now]
  | .withCleanup _ callback => callback.filterMap CleanupControl.time
  | .retainHistory _ now _ => [some now]
  | .reconcile => []
  | .append _ => []

def CleanupControl.cause : CleanupControl → Option ReleaseCause
  | .stageRemoval _ _ => some .reconciliation
  | .release _ cause => some (cause.getD .reconciliation)
  | _ => none

/-- The calls of the callback of a cleanup. -/
def LeaseOperation.callback : LeaseOperation → List CleanupControl
  | .withCleanup _ callback => callback
  | _ => []

/-- The causes of the releases that an operation may stage. -/
def LeaseOperation.causes : LeaseOperation → List ReleaseCause
  | .release _ _ => [.holderRelease]
  | operation => operation.callback.filterMap CleanupControl.cause

namespace LeaseJournal
variable (j : LeaseJournal)

def addRow (r : StateLedgerEntry) : LeaseJournal := { j with rows := j.rows ++ [r] }

def putRegistry (r : WorktreeLeaseRegistry) : LeaseJournal := { j with registry := r }

/-- An intent is in the registry, with so many random UUIDs in it that were not in use. -/
def stage (intent : PendingLeaseMutation) (draws : ℕ) : LeaseJournal :=
  { j with
    registry := j.registry.putPending intent
    drawn := j.drawn + draws
    readings := if draws = 0 then j.readings else j.readings ++ [intent.record.updatedAt]
    grants := if intent.operation = .acquire then j.grants ++ [⟨intent,j.registry,j.releases⟩] else j.grants }

/-- The record of an intent is in the registry. -/
def commit (record : StoredLeaseRecord) : LeaseJournal :=
  let known := j.registry.records.get? record.lease.id == some record
  { j with
    registry := j.registry.putRecord record
    releases := if record.status == .released && !known then j.releases ++ [record] else j.releases }

def activate : LeaseJournal := { j with worktreeLeases := j.registry.activeMap }

def clear (intent : PendingLeaseMutation) : LeaseJournal :=
  { j with
    registry := j.registry.dropPending intent.record.lease.id
    applied := j.applied ++ [intent.recordId] }

def withdraw (intent : PendingLeaseMutation) : LeaseJournal :=
  { j with
    registry := j.registry.dropPending intent.record.lease.id
    withdrawn := j.withdrawn ++ [intent.recordId] }

def compact (keep : StateLedgerEntry → Bool) (pruned : List String) : LeaseJournal :=
  { j with rows := j.rows.filter keep, pruned }

/-- The intent waits in the registry. -/
def Waits (intent : PendingLeaseMutation) : Prop := j.registry.pending.get? intent.record.lease.id = some intent

/-- The ledger has the record of the intent. -/
def Published (intent : PendingLeaseMutation) : Prop :=
  ∃ r ∈ j.rows, r.recordId = intent.recordId ∧ r.payload = .worktreeLease intent.record.lease

def Unused (recordId : String) : Prop := ∀ r ∈ j.rows, r.recordId ≠ recordId

/-- The random UUIDs to come are neither in a row nor in an intent. -/
structure Fresh (c : LeaseFormat) (j : LeaseJournal) : Prop where
  rows : ∀ n, j.drawn ≤ n → j.Unused (c.randomUUID n)
  pending : ∀ n, j.drawn ≤ n → ∀ id p, j.registry.pending.get? id = some p → p.recordId ≠ c.randomUUID n

end LeaseJournal

section Moves
open WorktreeLeaseManager (LeaseAction)
variable (c : LeaseFormat) (x : LeaseAction P)

/-- What a granted acquisition was checked for. -/
structure Granted (j : LeaseJournal) (intent : PendingLeaseMutation) : Prop where
  operation : intent.operation = .acquire
  removal : intent.removal = none
  reclaimed : j.registry.reclamation = none
  allowed : intent.allowed = true
  id : intent.record.lease.id = c.randomUUID j.drawn
  recordId : intent.recordId = c.randomUUID (j.drawn + 2)
  active : intent.record.status = .active
  branchName : validateBranchName intent.record.lease.branchName = true
  claimed : StaticPaths x.surroundings.world.readPathIdentity →
    intent.record.claimedPath = intent.record.lease.path
  branchFree : ∀ r ∈ j.registry.active, r.lease.repoId = intent.record.lease.repoId →
    r.lease.branchName ≠ intent.record.lease.branchName
  pathFree : ∀ r ∈ j.registry.active, r.claimedPath ≠ intent.record.lease.path
  branchUnclaimed : ∀ p ∈ j.registry.pending.values, p.record.lease.repoId = intent.record.lease.repoId →
    p.record.lease.branchName ≠ intent.record.lease.branchName
  pathUnclaimed : ∀ p ∈ j.registry.pending.values, p.record.claimedPath ≠ intent.record.lease.path
  continued : intent.record.request.mode = .sequentialContinue →
    ∃ e, getSequentialCandidate j.registry intent.record.request intent.record.branchHead = some e ∧
      e.dirtyState = .clean ∧ e.branchHeadMatches = true

/-- What a staged renewal was checked for. -/
structure Renewed (j : LeaseJournal) (intent : PendingLeaseMutation) (existing : StoredLeaseRecord) : Prop where
  operation : intent.operation = .renew
  removal : intent.removal = none
  reclaimed : j.registry.reclamation = none
  recordId : intent.recordId = c.randomUUID j.drawn
  current : j.registry.records.get? intent.record.lease.id = some existing
  active : existing.status = .active
  idle : j.registry.pending.get? intent.record.lease.id = none
  record : ∃ renewedAt expiresAt dirtyState updatedAt branchHead, intent.record = { existing with
    lease := { existing.lease with
      renewedAt
      expiresAt
      dirtyState }
    updatedAt
    branchHead }

/-- What a staged release or removal was checked for. `previous` is the lease's record when the
operation began, and no intent that it replaces was published if `fresh` is so. -/
structure Releasing (fresh : Prop) (j : LeaseJournal) (intent : PendingLeaseMutation)
    (previous : StoredLeaseRecord) : Prop where
  operation : intent.operation = .release ∧ intent.removal = none ∨
    intent.operation = .remove ∧ ∃ identity now, intent.removal = some ⟨identity,.prepared⟩ ∧
      .stageRemoval identity now ∈ x.operation.callback
  reclaimed : j.registry.reclamation = none
  recordId : intent.recordId = c.randomUUID j.drawn
  active : previous.status = .active
  lease : ∀ lease callback, x.operation = .withCleanup lease callback →
    previous.lease.id = lease.id ∧ previous.lease.path = lease.path
  current : ∃ q, j.registry.records.get? intent.record.lease.id = some q ∧ q.request = previous.request ∧
    (q = previous ∨ q.status = .released)
  unpublished : fresh → ∀ p, j.registry.pending.get? intent.record.lease.id = some p → j.Unused p.recordId
  record : ∃ now ∈ x.operation.times, ∃ cause ∈ x.operation.causes,
    releaseIntent previous now intent.operation cause intent.recordId = .ok { intent with removal := none }

/-- A prepared removal that waited when the operation began, with so many random UUIDs in use,
is published only where the path is gone. -/
def Inspected (k : ℕ) (j : LeaseJournal) (intent : PendingLeaseMutation) : Prop :=
  j.drawn = k → ∀ removal, intent.removal = some removal → removal.state = .prepared →
    inspectRemoval (x.surroundings.removalWorld intent.record.lease.id) intent removal = .ok .absent

/-- A prepared removal that the operation did not stage itself makes a record only where the
path is gone. -/
def Settles (k : ℕ) (intent : PendingLeaseMutation) : Prop :=
  ∀ removal, intent.removal = some removal → removal.state = .prepared →
    (∃ n, k ≤ n ∧ intent.recordId = c.randomUUID n) ∨
      inspectRemoval (x.surroundings.removalWorld intent.record.lease.id) intent removal = .ok .absent

omit [DecidableEq P] in
theorem Settles.of_none {c : LeaseFormat} {x : LeaseAction P} {k : ℕ} {intent : PendingLeaseMutation}
    (h : intent.removal = none) : Settles c x k intent := by
  intro removal hremoval
  rw [h] at hremoval
  cases hremoval

omit [DecidableEq P] in
theorem Settles.of_own {c : LeaseFormat} {x : LeaseAction P} {k n : ℕ} {intent : PendingLeaseMutation} (hn : k ≤ n)
    (h : intent.recordId = c.randomUUID n) : Settles c x k intent := fun _ _ _ => .inl ⟨n,hn,h⟩

/-- The moves of an operation that began with so many random UUIDs in use; `fresh` says that
those to come are in no row. -/
inductive LeaseMove (fresh : Prop) (k : ℕ) (j : LeaseJournal) : LeaseJournal → Prop
  | quiet : LeaseMove fresh k j j
  /-- a row of another writer -/
  | foreign (f : ForeignRecord) (r : StateLedgerEntry) : f ∈ x.operation.foreign → j.Unused r.recordId →
    f.input.payload.Respelled r.payload → r.recordId = f.recordId → LeaseMove fresh k j (j.addRow r)
  | publish (intent : PendingLeaseMutation) (r : StateLedgerEntry) : j.Waits intent → j.Unused intent.recordId →
    Inspected x k j intent → r.payload = .worktreeLease intent.record.lease → r.recordId = intent.recordId → LeaseMove fresh k j (j.addRow r)
  | acquire (intent : PendingLeaseMutation) : Granted c x j intent → LeaseMove fresh k j (j.stage intent 3)
  | renew (intent : PendingLeaseMutation) (existing : StoredLeaseRecord) : Renewed c j intent existing →
    LeaseMove fresh k j (j.stage intent 1)
  | release (intent : PendingLeaseMutation) (previous : StoredLeaseRecord) :
    Releasing c x fresh j intent previous → LeaseMove fresh k j (j.stage intent 1)
  /-- a removal is marked done -/
  | mark (intent : PendingLeaseMutation) (removal : LeaseRemoval) : j.Waits intent → intent.removal = some removal →
    .markRemovalDone ∈ x.operation.callback →
    LeaseMove fresh k j (j.putRegistry
      (j.registry.putPending { intent with removal := some { removal with state := .removalDone } }))
  | commit (intent : PendingLeaseMutation) : j.Waits intent → j.Published intent → Settles c x k intent →
    LeaseMove fresh k j (j.commit intent.record)
  | activate : LeaseMove fresh k j j.activate
  | clear (intent : PendingLeaseMutation) : j.Waits intent → j.Published intent →
    j.registry.records.get? intent.record.lease.id = some intent.record →
    j.worktreeLeases = j.registry.activeMap → LeaseMove fresh k j (j.clear intent)
  /-- the ledger has no room for the record -/
  | refuse (intent : PendingLeaseMutation) : j.Waits intent →
    intent.operation = .acquire ∨ intent.operation = .renew → j.Unused intent.recordId →
    LeaseMove fresh k j (j.withdraw intent)
  /-- a prepared removal is found to have had no effect -/
  | cancel (intent : PendingLeaseMutation) (removal : LeaseRemoval) : j.Waits intent →
    intent.removal = some removal → removal.state = .prepared → j.drawn = k →
    inspectRemoval (x.surroundings.removalWorld intent.record.lease.id) intent removal = .ok .noEffect →
    LeaseMove fresh k j (j.withdraw intent)
  | propose (policy : RetentionPolicy) (now : ℤ) (interleaved : List (ForeignRecord × Option ℕ)) :
    x.operation = .retainHistory policy now interleaved →
    LeaseMove fresh k j (j.putRegistry { j.registry with
      reclamation := some (reclamationIntent j.rows j.registry (retentionSelection j.rows j.registry policy now)) })
  | compact (policy : RetentionPolicy) (now : ℤ) (interleaved : List (ForeignRecord × Option ℕ))
    (intent : LeaseReclamationIntent) (snapshot extra : List StateLedgerEntry) (pruned : List String) :
    x.operation = .retainHistory policy now interleaved → j.registry.reclamation = some intent →
    intent = reclamationIntent snapshot j.registry (retentionSelection snapshot j.registry policy now) →
    j.rows = snapshot ++ extra →
    (∀ r ∈ extra, ∃ f ∈ x.operation.foreign, f.input.payload.Respelled r.payload ∧ r.recordId = f.recordId) →
    j.pruned ⊆ pruned →
    (∀ r ∈ j.rows, (decide (r.sequence ∈ retentionSelection j.rows j.registry policy now) ||
      (r.kind == .worktreeLease && !intent.recordIds.contains r.recordId)) = false → r.recordId ∈ pruned) →
    LeaseMove fresh k j (j.compact (fun r => decide (r.sequence ∈ retentionSelection j.rows j.registry policy now) ||
      (r.kind == .worktreeLease && !intent.recordIds.contains r.recordId)) pruned)
  | finish (intent : LeaseReclamationIntent) : j.registry.reclamation = some intent →
    LeaseMove fresh k j (j.putRegistry (finishedRegistry j.rows intent j.registry))

omit [DecidableEq P] in
/-- The moves only add to the grants. -/
theorem LeaseMove.grants {c : LeaseFormat} {x : LeaseAction P} {fresh : Prop} {k : ℕ} {j j' : LeaseJournal} (h : LeaseMove c x fresh k j j') : j.grants ⊆ j'.grants := by
  have hstage : ∀ (intent : PendingLeaseMutation) (draws : ℕ), j.grants ⊆ (j.stage intent draws).grants := by
    intro intent draws
    by_cases hop : intent.operation = .acquire
    · simp only [LeaseJournal.stage, if_pos hop]
      exact List.subset_append_left _ _
    · simp only [LeaseJournal.stage, if_neg hop]
      exact List.Subset.refl _
  cases h with
  | acquire intent _ => exact hstage intent 3
  | renew intent _ _ => exact hstage intent 1
  | release intent _ _ => exact hstage intent 1
  | _ => exact List.Subset.refl _

omit [DecidableEq P] in
/-- Only a retention proposes to reclaim. -/
theorem LeaseMove.reclaimed {c : LeaseFormat} {x : LeaseAction P} {fresh : Prop} {k : ℕ} {j j' : LeaseJournal}
    (h : LeaseMove c x fresh k j j') (hop : ∀ policy now interleaved, x.operation ≠ .retainHistory policy now interleaved)
    (hj : j.registry.reclamation = none) : j'.registry.reclamation = none := by
  cases h with
  | propose policy now interleaved hx => exact absurd hx (hop policy now interleaved)
  | finish intent _ => rfl
  | _ => exact hj

omit [DecidableEq P] in
/-- The random UUIDs in use stay in use. -/
theorem LeaseMove.drawn {c : LeaseFormat} {x : LeaseAction P} {fresh : Prop} {k : ℕ} {j j' : LeaseJournal}
    (h : LeaseMove c x fresh k j j') : j.drawn ≤ j'.drawn := by
  cases h with
  | acquire _ _ => exact Nat.le_add_right _ _
  | renew _ _ _ => exact Nat.le_add_right _ _
  | release _ _ _ => exact Nat.le_add_right _ _
  | _ => exact Nat.le_refl _

/-- The records of other writers have ids of their own. -/
def LeaseAction.Foreign (c : LeaseFormat) (x : LeaseAction P) : Prop :=
  ∀ f ∈ x.operation.foreign, ∀ n, f.recordId ≠ c.randomUUID n

namespace LeaseJournal.Fresh
variable {c : LeaseFormat} {j : LeaseJournal}

theorem addRow (h : j.Fresh c) {r : StateLedgerEntry} (hr : ∀ n, j.drawn ≤ n → r.recordId ≠ c.randomUUID n) :
    (j.addRow r).Fresh c where
  rows n hn q hq := by
    rcases List.mem_append.mp hq with hq | hq
    · exact h.rows n hn q hq
    · rw [List.mem_singleton.mp hq]
      exact hr n hn
  pending := h.pending

theorem stage (h : j.Fresh c) {intent : PendingLeaseMutation} {draws m : ℕ} (hm : m < draws)
    (hid : intent.recordId = c.randomUUID (j.drawn + m)) : (j.stage intent draws).Fresh c where
  rows n hn := h.rows n (Nat.le_trans (Nat.le_add_right _ _) hn)
  pending n hn id p hp := by
    have hn : j.drawn + draws ≤ n := hn
    simp only [LeaseJournal.stage, WorktreeLeaseRegistry.putPending, Dictionary.get?_set] at hp
    split at hp
    · cases hp
      rw [hid]
      intro heq
      have := c.distinct heq
      omega
    · exact h.pending n (by omega) id p hp

/-- Intents that stay, or change but for their record id, and fewer rows. -/
theorem of_le (h : j.Fresh c) {j' : LeaseJournal} (hrows : j'.rows ⊆ j.rows) (hdrawn : j'.drawn = j.drawn)
    (hpending : ∀ id p, j'.registry.pending.get? id = some p →
      ∃ q, j.registry.pending.get? id = some q ∧ q.recordId = p.recordId) : j'.Fresh c where
  rows n hn r hr := h.rows n (hdrawn ▸ hn) r (hrows hr)
  pending n hn id p hp := by
    obtain ⟨q,hq,hid⟩ := hpending id p hp
    exact hid ▸ h.pending n (hdrawn ▸ hn) id q hq

theorem drop (h : j.Fresh c) {j' : LeaseJournal} (hrows : j'.rows = j.rows) (hdrawn : j'.drawn = j.drawn) {id : String}
    (hpending : j'.registry.pending = j.registry.pending.erase id) : j'.Fresh c := by
  refine h.of_le (fun r hr => hrows ▸ hr) hdrawn (fun l p hp => ⟨p,?_,rfl⟩)
  rw [hpending, Dictionary.get?_erase] at hp
  split at hp
  · cases hp
  · exact hp

end LeaseJournal.Fresh

omit [DecidableEq P] in
theorem LeaseMove.fresh {c : LeaseFormat} {x : LeaseAction P} {fresh : Prop} {k : ℕ} {j j' : LeaseJournal}
    (h : LeaseMove c x fresh k j j') (hforeign : LeaseAction.Foreign c x) (hj : j.Fresh c) : j'.Fresh c := by
  cases h with
  | quiet => exact hj
  | foreign f r hf _ hpayload hid => exact hj.addRow (fun n _ => hid ▸ hforeign f hf n)
  | publish intent r hwaits _ _ _ hid => exact hj.addRow (fun n hn => hid ▸ hj.pending n hn _ _ hwaits)
  | acquire intent h => exact hj.stage (m := 2) (by omega) h.recordId
  | renew intent existing h => exact hj.stage (m := 0) (by omega) h.recordId
  | release intent previous h => exact hj.stage (m := 0) (by omega) h.recordId
  | mark intent removal hwaits hremoval _ =>
    refine hj.of_le (List.Subset.refl _) rfl (fun id p hp => ?_)
    simp only [LeaseJournal.putRegistry, WorktreeLeaseRegistry.putPending, Dictionary.get?_set] at hp
    split at hp
    · next heq =>
      cases hp
      exact ⟨intent,heq ▸ hwaits,rfl⟩
    · exact ⟨p,hp,rfl⟩
  | commit intent hwaits hpublished _ => exact hj.of_le (List.Subset.refl _) rfl (fun id p hp => ⟨p,hp,rfl⟩)
  | activate => exact hj.of_le (List.Subset.refl _) rfl (fun id p hp => ⟨p,hp,rfl⟩)
  | clear intent _ _ _ _ => exact hj.drop rfl rfl rfl
  | refuse intent _ _ _ => exact hj.drop rfl rfl rfl
  | cancel intent _ _ _ _ _ _ => exact hj.drop rfl rfl rfl
  | propose _ _ _ _ => exact hj.of_le (List.Subset.refl _) rfl (fun id p hp => ⟨p,hp,rfl⟩)
  | compact _ _ _ _ _ _ _ _ _ _ _ _ _ _ => exact hj.of_le (fun r hr => (List.mem_filter.mp hr).1) rfl (fun id p hp => ⟨p,hp,rfl⟩)
  | finish intent hintent =>
    refine hj.of_le (List.Subset.refl _) rfl (fun id p hp => ⟨p,?_,rfl⟩)
    rwa [LeaseJournal.putRegistry, finishedRegistry_pending] at hp

end Moves
end OmniagentPlus.WorktreeLeasing
