import Mathlib.Data.List.Sort
import OmniagentPlus.Foundation.Dictionary
import OmniagentPlus.StateLedger.AppendOnlyStore
import OmniagentPlus.StateLedger.Retention
import OmniagentPlus.WorktreeLeasing.BranchPolicy

/-! The registry of the worktree lease manager: the types of `types.ts`, their schemas, and
the functions of `lease-manager.ts` that only compute on them. -/
namespace OmniagentPlus.WorktreeLeasing
open OmniagentPlus.Foundation OmniagentPlus.CoreContracts OmniagentPlus.StateLedger

structure PathIdentity where
  path : Path
  dev : ℕ
  ino : ℕ
  deriving DecidableEq, Repr

inductive LeaseStatus
  | active
  | released
  deriving DecidableEq, Repr

structure StoredLeaseRecord where
  lease : WorktreeLease
  request : WorktreeLeaseRequest
  repoRoot : Option Path
  branchHead : Option String
  status : LeaseStatus
  releasedAt : Option Instant
  updatedAt : Instant
  managedRoot : Option PathIdentity
  pathIdentity : Option PathIdentity
  deriving DecidableEq, Repr

inductive MutationOperation
  | acquire
  | renew
  | release
  | remove
  deriving DecidableEq, Repr

inductive RemovalState
  | prepared
  | removalDone
  deriving DecidableEq, Repr

structure LeaseRemoval where
  identity : PathIdentity
  state : RemovalState
  deriving DecidableEq, Repr

structure PendingLeaseMutation where
  recordId : String
  record : StoredLeaseRecord
  operation : MutationOperation
  removal : Option LeaseRemoval
  deriving DecidableEq, Repr

/-- `[taskId, repoId, branchName]` -/
abbrev ContinuationKey := String × String × String

structure LeaseReclamationIntent where
  recordIds : List String
  leaseIds : List String
  watermarks : Dictionary ContinuationKey Instant
  deriving DecidableEq

structure WorktreeLeaseRegistry where
  records : Dictionary String StoredLeaseRecord
  pending : Dictionary String PendingLeaseMutation
  reclamation : Option LeaseReclamationIntent
  reclaimedThrough : Dictionary ContinuationKey Instant
  deriving DecidableEq

inductive LeasingErrorCode
  | invalidTtl
  | unsafePath
  | invalidClock
  | leaseIncomplete
  | managedRootUnproven
  | managedRootChanged
  | outsideManagedRoot
  | removalIntentMissing
  | leaseNotActive
  | fencingTokenMismatch
  | holderMismatch
  | readOnlyStore
  | legacyLeaseConflict
  | corruptRegistry
  | corruptLeaseMap
  | intentPayloadMismatch
  | invalidBranchName
  | gitCommandFailed
  | cleanupRecheckFailed
  | pathIdentityChanged
  | invalidLimit
  deriving DecidableEq, Repr

inductive Errno
  | eacces
  | eperm
  | enotdir
  | eloop
  | other
  deriving DecidableEq, Repr

inductive LeaseError
  | leasing (code : LeasingErrorCode)
  | ledger (error : StoreError)
  /-- a rejection by one of the registry's or the lease's schemas -/
  | schema
  | filesystem (errno : Errno)
  /-- the rejection of the promise that an earlier opening of the ledger left -/
  | ledgerUnopened
  deriving DecidableEq, Repr

def modeText : WorktreeLeaseMode → String
  | .exclusiveWrite => "exclusive_write"
  | .readOnly => "read_only"
  | .sequentialContinue => "sequential_continue"

/-- `[repoId, branchName, mode].join(":")` -/
def mapKey (lease : WorktreeLease) : String :=
  lease.repoId ++ ":" ++ lease.branchName ++ ":" ++ modeText lease.mode

def continuationKey (request : WorktreeLeaseRequest) : ContinuationKey :=
  (request.taskId,request.repoId,request.branchName)

/-- `storedSchema` -/
def StoredLeaseRecord.allowed (r : StoredLeaseRecord) : Bool :=
  r.lease.allowed && r.request.allowed && r.branchHead != some "" && r.releasedAt.all (·.isSome) &&
    r.updatedAt.isSome && r.lease.repoId == r.request.repoId && r.lease.branchName == r.request.branchName &&
    r.lease.mode == r.request.mode && (r.status == .released) == r.releasedAt.isSome

/-- `pendingSchema` -/
def PendingLeaseMutation.allowed (p : PendingLeaseMutation) : Bool := p.recordId != "" && p.record.allowed

/-- `registrySchema` -/
def WorktreeLeaseRegistry.allowed (r : WorktreeLeaseRegistry) : Bool :=
  r.records.values.all (·.allowed) && r.pending.values.all (·.allowed) &&
    r.reclamation.all (fun i => !i.recordIds.contains "" && !i.leaseIds.contains "" &&
      i.watermarks.values.all (·.isSome)) && r.reclaimedThrough.values.all (·.isSome)

/-- `pathIdentity?.path ?? resolve(lease.path)` -/
def StoredLeaseRecord.claimedPath (r : StoredLeaseRecord) : Path := r.pathIdentity.elim r.lease.path (·.path)

namespace WorktreeLeaseRegistry
variable (r : WorktreeLeaseRegistry)

def empty : WorktreeLeaseRegistry := ⟨.empty,.empty,none,.empty⟩

/-- The checks of `readRegistry` beyond the schema. -/
def identified : Bool :=
  r.records.entries.all (fun e => e.1 == e.2.lease.id) &&
    r.pending.entries.all (fun e => e.1 == e.2.record.lease.id && !(e.2.operation == .remove && e.2.removal.isNone))

def active : List StoredLeaseRecord := r.records.values.filter (fun record => record.status == .active)

def putRecord (record : StoredLeaseRecord) : WorktreeLeaseRegistry :=
  { r with records := r.records.set record.lease.id record }

def putPending (intent : PendingLeaseMutation) : WorktreeLeaseRegistry :=
  { r with pending := r.pending.set intent.record.lease.id intent }

def dropPending (id : String) : WorktreeLeaseRegistry := { r with pending := r.pending.erase id }

/-- The map that `applyIntent` writes. -/
def activeMap : Dictionary String WorktreeLease :=
  r.active.foldl (fun m record => m.set (mapKey record.lease) record.lease) .empty

end WorktreeLeaseRegistry

def assertOwner (recorded supplied : WorktreeLease) : Except LeaseError Unit :=
  if recorded.fencingToken ≠ supplied.fencingToken then .error (.leasing .fencingTokenMismatch)
  else if recorded.holder ≠ supplied.holder ∨ recorded.path ≠ supplied.path ∨ recorded.repoId ≠ supplied.repoId ∨
      recorded.branchName ≠ supplied.branchName ∨ recorded.mode ≠ supplied.mode then
    .error (.leasing .holderMismatch)
  else .ok ()

def requireOwner (registry : WorktreeLeaseRegistry) (lease : WorktreeLease) : Except LeaseError StoredLeaseRecord :=
  match registry.records.get? lease.id with
  | none => .error (.leasing .leaseNotActive)
  | some record =>
    if record.status ≠ .active then .error (.leasing .leaseNotActive)
    else match assertOwner record.lease lease with
      | .error e => .error e
      | .ok _ =>
        if (registry.pending.get? lease.id).isSome then .error (.leasing .leaseIncomplete) else .ok record

/-- The largest time of a `Date`, in milliseconds. -/
def maxTime : ℤ := 8640000000000000

/-- `expiry(now, ttl)` -/
def expiry (now : Instant) (ttl : ℤ) : Except LeaseError Instant :=
  match now with
  | none => .error .schema
  | some t =>
    if (maxSafeInteger : ℤ) < ttl ∨ ttl ≤ 0 ∨ maxTime < (t + ttl * 1000).natAbs then .error (.leasing .invalidTtl)
    else .ok (some (t + ttl * 1000))

def releaseActor : ReleaseCause → String
  | .recovery => "stale-lease-recovery"
  | .reconciliation => "worktree-cleanup"
  | .holderRelease => "worktree-lease-manager"

/-- `releaseIntent(record, now, operation, cause)`; `recordId` is a random UUID. -/
def releaseIntent (record : StoredLeaseRecord) (now : Instant) (operation : MutationOperation)
    (cause : ReleaseCause) (recordId : String) : Except LeaseError PendingLeaseMutation :=
  match createWorktreeLeaseRelease record.lease ⟨cause,releaseActor cause,now⟩ with
  | none => .error .schema
  | some lease => .ok { recordId, operation, removal := none, record := { record with
      lease
      status := .released
      releasedAt := some now
      updatedAt := now } }

section Continuation

/-- `Date.parse(updatedAt)`, which is a number where `storedSchema` let the record through. -/
def StoredLeaseRecord.time (r : StoredLeaseRecord) : ℤ := r.updatedAt.getD 0

/-- The order of `getSequentialCandidate`: the latest first, of equals the greatest id first. -/
def laterFirst (a b : StoredLeaseRecord) : Bool :=
  decide (b.time < a.time ∨ b.time = a.time ∧ b.lease.id ≤ a.lease.id)

def matchingReleases (registry : WorktreeLeaseRegistry) (request : WorktreeLeaseRequest) : List StoredLeaseRecord :=
  (registry.records.values.filter fun r =>
    r.status == .released && continuationKey r.request == continuationKey request).insertionSort fun a b => laterFirst a b

def getSequentialCandidate (registry : WorktreeLeaseRegistry) (request : WorktreeLeaseRequest)
    (head : Option String) : Option SequentialContinuationEvidence :=
  let found := matchingReleases registry request
  match found with
  | [] => none
  | candidate :: _ =>
    let watermark := registry.reclaimedThrough.get? (continuationKey request)
    let tied := found.any fun r => r != candidate && r.updatedAt == candidate.updatedAt &&
      (r.lease.path != candidate.lease.path || r.lease.dirtyState != candidate.lease.dirtyState ||
        r.branchHead != candidate.branchHead)
    some ⟨request.taskId,request.repoId,request.branchName,candidate.lease.path,
      if tied || watermark.any (candidate.updatedAt.notAfter ·) then .unknown else candidate.lease.dirtyState,
      head.isNone || candidate.branchHead.isNone || head == candidate.branchHead⟩

end Continuation

section Retention
variable (rows : List StateLedgerEntry)

/-- The id of the lease that a row is about. -/
def rowLeaseId (row : StateLedgerEntry) : Option String :=
  match row.payload with
  | .worktreeLease lease => some lease.id
  | _ => none

def leaseRows (id : String) : List StateLedgerEntry := rows.filter fun row => rowLeaseId row == some id

/-- The session and the turn that a pending intent's holder names. -/
def holderKeys (holder : LeaseHolder) : List EntityKey :=
  [[some "session",holder.sessionId],[some "turn",holder.sessionId,holder.turnId]]

def holderPins (registry : WorktreeLeaseRegistry) : List String :=
  let dependencies := latest (rows.filter fun row => row.kind == .session || row.kind == .turn)
  registry.pending.values.flatMap fun intent => (holderKeys intent.record.lease.holder).filterMap fun key =>
    (dependencies.get? key).map (·.recordId)

def rowPinned (registry : WorktreeLeaseRegistry) (policy : RetentionPolicy) (now : ℤ) (id : String)
    (row : StateLedgerEntry) : Bool :=
  let record := registry.records.get? id
  let pending := registry.pending.get? id
  let isLast := (leaseRows rows id).getLast? == some row
  (record.isNone && pending.isNone) || pending.any (·.recordId == row.recordId) ||
    ((record.any (·.status == .active) || pending.isSome) && ((leaseRows rows id).head? == some row || isLast)) ||
    record.any fun r => r.status == .released && isLast &&
      policy.maxAgeMs.all fun age => r.updatedAt.atOrAfter (now - age)

def leasePins (registry : WorktreeLeaseRegistry) (policy : RetentionPolicy) (now : ℤ) : List String :=
  (rows.filter fun row => (rowLeaseId row).any fun id => rowPinned rows registry policy now id row).map (·.recordId)

def retentionSelection (registry : WorktreeLeaseRegistry) (policy : RetentionPolicy) (now : ℤ) : Finset ℕ :=
  selectRetentionSequences rows { policy with
    protectedRecordIds := some (policy.protectedRecordIds.getD [] ++ holderPins rows registry ++
      leasePins rows registry policy now)
    nonRootKinds := some [.worktreeLease] } now

/-- The leases that a retention would reclaim: released, settled, with rows of which none stays. -/
def reclaimable (registry : WorktreeLeaseRegistry) (selected : Finset ℕ) : List StoredLeaseRecord :=
  registry.records.values.filter fun r => r.status == .released && (registry.pending.get? r.lease.id).isNone &&
    !(leaseRows rows r.lease.id).isEmpty &&
    !(leaseRows rows r.lease.id).any fun row => decide (row.sequence ∈ selected)

/-- `watermarks[key] ?? registry.reclaimedThrough?.[key]` is moved up to the record's time. -/
def raiseWatermark (registry : WorktreeLeaseRegistry) (watermarks : Dictionary ContinuationKey Instant)
    (r : StoredLeaseRecord) : Dictionary ContinuationKey Instant :=
  let key := continuationKey r.request
  match (watermarks.get? key).or (registry.reclaimedThrough.get? key) with
  | none => watermarks.set key r.updatedAt
  | some current => if current.before r.updatedAt then watermarks.set key r.updatedAt else watermarks

def reclamationIntent (registry : WorktreeLeaseRegistry) (selected : Finset ℕ) : LeaseReclamationIntent :=
  let records := reclaimable rows registry selected
  ⟨(rows.filter fun row => row.kind == .worktreeLease && !decide (row.sequence ∈ selected)).map (·.recordId),
    records.map (·.lease.id),records.foldl (raiseWatermark registry) .empty⟩

/-- One turn of the loop of `finishReclamation` over the leases to be reclaimed. -/
def reclaimLease (intent : LeaseReclamationIntent) (registry : WorktreeLeaseRegistry) (id : String) :
    WorktreeLeaseRegistry :=
  match registry.records.get? id with
  | none => registry
  | some record =>
    if record.status != .released || (registry.pending.get? id).isSome || !(leaseRows rows id).isEmpty then registry
    else
      let key := continuationKey record.request
      let reclaimedThrough := match intent.watermarks.get? key with
        | none => registry.reclaimedThrough
        | some watermark =>
          if (registry.reclaimedThrough.get? key).all (·.before watermark) then
            registry.reclaimedThrough.set key watermark
          else registry.reclaimedThrough
      { registry with records := registry.records.erase id, reclaimedThrough }

/-- Whether some record not younger than a watermark still has its key. -/
def watermarkNeeded (registry : WorktreeLeaseRegistry) (key : ContinuationKey) (watermark : Instant) : Bool :=
  (registry.records.values ++ registry.pending.values.map (·.record)).any fun r =>
    continuationKey r.request == key && r.updatedAt.notAfter watermark

def dropWatermarks (registry : WorktreeLeaseRegistry) : WorktreeLeaseRegistry :=
  let kept := registry.reclaimedThrough.entries.foldl
    (fun d e => if watermarkNeeded registry e.1 e.2 then d else d.erase e.1) registry.reclaimedThrough
  { registry with reclaimedThrough := kept }

/-- What `finishReclamation` makes of the registry. -/
def finishedRegistry (intent : LeaseReclamationIntent) (registry : WorktreeLeaseRegistry) : WorktreeLeaseRegistry :=
  dropWatermarks { intent.leaseIds.foldl (reclaimLease rows intent) registry with reclamation := none }

end Retention

/-- Records and intents are at the keys of their leases. -/
structure WorktreeLeaseRegistry.Keyed (r : WorktreeLeaseRegistry) : Prop where
  records : ∀ id q, r.records.get? id = some q → q.lease.id = id
  pending : ∀ id p, r.pending.get? id = some p → p.record.lease.id = id

namespace WorktreeLeaseRegistry
variable {r : WorktreeLeaseRegistry}

theorem keyed_of_identified (h : r.identified = true) : r.Keyed := by
  obtain ⟨hrecords,hpending⟩ := Bool.and_eq_true_iff.mp h
  refine ⟨fun id q hq => ?_,fun id p hp => ?_⟩
  · have := List.all_eq_true.mp hrecords (id,q) ((Dictionary.mem_entries_iff _ _ _).mpr hq)
    exact (eq_of_beq this).symm
  · have := List.all_eq_true.mp hpending (id,p) ((Dictionary.mem_entries_iff _ _ _).mpr hp)
    exact (eq_of_beq (Bool.and_eq_true_iff.mp this).1).symm

theorem Keyed.putRecord (h : r.Keyed) (q : StoredLeaseRecord) : (r.putRecord q).Keyed where
  records id p hp := by
    simp only [WorktreeLeaseRegistry.putRecord, Dictionary.get?_set] at hp
    split at hp
    · next hid =>
      cases hp
      exact hid.symm
    · exact h.records id p hp
  pending := h.pending

theorem Keyed.putPending (h : r.Keyed) (intent : PendingLeaseMutation) : (r.putPending intent).Keyed where
  records := h.records
  pending id p hp := by
    simp only [WorktreeLeaseRegistry.putPending, Dictionary.get?_set] at hp
    split at hp
    · next hid =>
      cases hp
      exact hid.symm
    · exact h.pending id p hp

theorem Keyed.dropPending (h : r.Keyed) (id : String) : (r.dropPending id).Keyed where
  records := h.records
  pending l p hp := by
    simp only [WorktreeLeaseRegistry.dropPending, Dictionary.get?_erase] at hp
    split at hp
    · cases hp
    · exact h.pending l p hp

theorem Keyed.nodup (h : r.Keyed) :
    (r.pending.values.map (·.record.lease.id)).Nodup := by
  have hkeys : r.pending.values.map (·.record.lease.id) = r.pending.entries.map Prod.fst := by
    rw [Dictionary.values, List.map_map]
    refine List.map_congr_left (fun e he => ?_)
    exact h.pending e.1 e.2 ((Dictionary.mem_entries_iff _ _ _).mp he)
  rw [hkeys]
  exact r.pending.nodup

end WorktreeLeaseRegistry
end OmniagentPlus.WorktreeLeasing
