import OmniagentPlus.Foundation.Durable
import OmniagentPlus.WorktreeLeasing.LeasePath

/-! `WorktreeLeaseManager`: managers of any number of processes over one store. An operation
holds the coordination lock, so operations follow one another; the object `registry` that it
reads, changes and writes back is a component of the state. -/
namespace OmniagentPlus.WorktreeLeasing
open OmniagentPlus.Foundation OmniagentPlus.CoreContracts OmniagentPlus.StateLedger

/-- The ledger's format, and the random UUIDs that get stored, in order: one that is drawn
and dropped leaves no trace. -/
structure LeaseFormat extends StoreFormat where
  randomUUID : ℕ → String
  distinct : Function.Injective randomUUID

/-- An acquisition that was staged, with the registry that it was decided on and the releases
recorded before it. -/
structure LeaseGrant where
  intent : PendingLeaseMutation
  registry : WorktreeLeaseRegistry
  releases : List StoredLeaseRecord
  deriving DecidableEq

/-- The ledger, the promise of its opening in each process (whether it was fulfilled), the
files of the store, the `registry` of the running operation, and how many random UUIDs are in
use. The other fields only record what happened, in order: the times of the intents staged,
the ids of the ledger records that went, of the intents cleared because they were applied and
of those withdrawn, the releases recorded, and the acquisitions staged. -/
structure LeaseManagerState (P : Type) where
  ledger : AppendOnlyStore.State P
  ledgerPromise : P → Option Bool
  registry : Option WorktreeLeaseRegistry
  worktreeLeases : Dictionary String WorktreeLease
  marker : Bool
  memory : WorktreeLeaseRegistry
  drawn : ℕ
  readings : List Instant
  pruned : List String
  applied : List String
  withdrawn : List String
  releases : List StoredLeaseRecord
  grants : List LeaseGrant

structure WorktreeLeaseManagerOptions where
  managedRoot : Option PathIdentity
  readOnly : Bool
  defaultTtlSeconds : Option ℤ
  maxSnapshotBytes : ℕ
  deriving DecidableEq, Repr

structure AcquireWorktreeLeaseOptions where
  holder : LeaseHolder
  leasePath : Option Path
  dirtyState : Option DirtyState
  ttlSeconds : Option ℤ
  now : Instant
  branchHead : Option String
  repoRoot : Option Path
  deriving DecidableEq, Repr

structure RenewWorktreeLeaseOptions where
  now : Instant
  ttlSeconds : Option ℤ
  dirtyState : Option DirtyState
  branchHead : Option String
  deriving DecidableEq, Repr

structure WorktreeLeaseAcquisition where
  acquired : Bool
  lease : Option WorktreeLease
  existingLease : Option WorktreeLease
  collision : Option BranchCollisionDecision
  deriving DecidableEq, Repr

/-- A call of one of the controls that `withCleanup` hands to its callback. -/
inductive CleanupControl
  | validatePath
  | stageRemoval (identity : PathIdentity) (now : Instant)
  | markRemovalDone
  | release (now : Instant) (cause : Option ReleaseCause)
  | ledgerEvidence
  deriving DecidableEq, Repr

/-- What an operation finds around it: the process, the options of its manager, the time that
the ledger takes, the world, the world as it is when each prepared removal is inspected, and
how much of a ledger line its first write leaves. -/
structure Surroundings (P : Type) where
  process : P
  /-- the process of the other writers of the ledger -/
  otherWriter : P
  options : WorktreeLeaseManagerOptions
  clock : Instant
  workingDirectory : Path
  world : World
  removalWorld : String → World
  torn : ℕ

/-- A record of another writer of the ledger, with the id made for it where it has none. -/
structure ForeignRecord where
  input : AppendRecordInput
  generatedId : String
  deriving DecidableEq, Repr

def ForeignRecord.recordId (f : ForeignRecord) : String := f.input.recordId.getD f.generatedId

inductive LeaseOperation
  | acquire (request : WorktreeLeaseRequest) (options : AcquireWorktreeLeaseOptions)
  | renew (lease : WorktreeLease) (options : RenewWorktreeLeaseOptions)
  | release (lease : WorktreeLease) (now : Instant)
  /-- the calls of the callback, none of which follows one that throws -/
  | withCleanup (lease : WorktreeLease) (callback : List CleanupControl)
  /-- with the records that other writers append between the proposal and the compaction, of
  which an error may cut short the append -/
  | retainHistory (policy : RetentionPolicy) (now : ℤ) (interleaved : List (ForeignRecord × Option ℕ))
  | reconcile
  /-- a record that another writer appends to the ledger -/
  | append (record : ForeignRecord)

namespace LeaseManagerState
variable {P : Type} [DecidableEq P]

def init : LeaseManagerState P :=
  ⟨AppendOnlyStore.State.init,fun _ => none,none,.empty,false,.empty,0,[],[],[],[],[],[]⟩

/-- The registry that an operation would read. -/
def stored (s : LeaseManagerState P) : WorktreeLeaseRegistry := s.registry.getD .empty

def putMemory (s : LeaseManagerState P) (r : WorktreeLeaseRegistry) : LeaseManagerState P := { s with memory := r }

def putRegistry (s : LeaseManagerState P) : LeaseManagerState P := { s with registry := some s.memory }

/-- The ledger after a call of it, and the ids of which it has a record no longer. -/
def putStore (s : LeaseManagerState P) (l : AppendOnlyStore.State P) : LeaseManagerState P :=
  { s with
    ledger := l
    pruned := s.pruned ++ (s.ledger.readable.map (·.recordId)).filter fun id => decide (id ∉ l.readable.map (·.recordId)) }

/-- The registry with an intent, for which so many random UUIDs were drawn. -/
def putStaged (s : LeaseManagerState P) (intent : PendingLeaseMutation) (draws : ℕ) : LeaseManagerState P :=
  { s.putRegistry with
    drawn := s.drawn + draws
    readings := if draws = 0 then s.readings else s.readings ++ [intent.record.updatedAt]
    grants := if intent.operation = .acquire then s.grants ++ [⟨intent,s.stored,s.releases⟩] else s.grants }

/-- The registry with the record of an intent; a release is one that was not there yet. -/
def putRecord (s : LeaseManagerState P) (record : StoredLeaseRecord) : LeaseManagerState P :=
  let known := s.stored.records.get? record.lease.id == some record
  { s.putRegistry with
    releases := if record.status == .released && !known then s.releases ++ [record] else s.releases }

def clearApplied (s : LeaseManagerState P) (recordId : String) : LeaseManagerState P :=
  { s.putRegistry with applied := s.applied ++ [recordId] }

def clearWithdrawn (s : LeaseManagerState P) (recordId : String) : LeaseManagerState P :=
  { s.putRegistry with withdrawn := s.withdrawn ++ [recordId] }

def putPromise (s : LeaseManagerState P) (p : P) (fulfilled : Option Bool) : LeaseManagerState P :=
  { s with ledgerPromise := Function.update s.ledgerPromise p fulfilled }

/-- The end of a process: its promise, its cache of the ledger and its variables are gone. -/
def crash (s : LeaseManagerState P) (p : P) : LeaseManagerState P :=
  { s.putPromise p none with ledger := s.ledger.putCache p none, memory := .empty }

end LeaseManagerState

namespace WorktreeLeaseManager
variable {P : Type} [DecidableEq P]

abbrev LeaseProgram (P α : Type) := Program (LeaseManagerState P) LeaseError α

section Operations
variable (c : LeaseFormat) (a : Surroundings P)

def defaultMaxPayloadBytes : ℕ := 16384

def ledgerOptions : AppendOnlyStoreOptions := ⟨defaultMaxPayloadBytes,a.options.maxSnapshotBytes⟩

/-- A call of the ledger. -/
def onLedger {α : Type} (p : AppendOnlyStore.StoreProgram P α) : LeaseProgram P α :=
  Program.zoom LeaseManagerState.ledger LeaseManagerState.putStore LeaseError.ledger p

/-- The random UUID that is the `n`th to be drawn from now on. -/
def randomUUID (n : ℕ) : LeaseProgram P String := Program.reads fun s => c.randomUUID (s.drawn + n)

def memory : LeaseProgram P WorktreeLeaseRegistry := Program.reads LeaseManagerState.memory

def putMemory (r : WorktreeLeaseRegistry) : LeaseProgram P PUnit := Program.write fun s => s.putMemory r

/-- `writeRegistry`, with what happens by it. -/
def writeRegistry (put : LeaseManagerState P → LeaseManagerState P) : LeaseProgram P PUnit := do
  let registry ← memory
  Program.throwIf (!registry.allowed) .schema
  Program.write put

/-- `getLedger`: the promise is kept, and with it a rejection. -/
def getLedger : LeaseProgram P PUnit := do
  let promise ← Program.reads fun s => s.ledgerPromise a.process
  match promise with
  | some true => pure PUnit.unit
  | some false => Program.throw .ledgerUnopened
  | none => do
    Program.write fun s => s.putPromise a.process (some false)
    onLedger (AppendOnlyStore.initializeStore c.toStoreFormat (ledgerOptions a) a.process a.clock)
    Program.write fun s => s.putPromise a.process (some true)

def listRecords : LeaseProgram P (List StateLedgerEntry) :=
  onLedger (AppendOnlyStore.listRecords c.toStoreFormat (ledgerOptions a))

def readRegistry : LeaseProgram P PUnit := do
  let registry ← Program.reads LeaseManagerState.stored
  Program.throwIf (!registry.allowed) .schema
  Program.throwIf (!registry.identified) (.leasing .corruptRegistry)
  putMemory registry

def ensureManagedStore : LeaseProgram P PUnit := do
  let registry ← memory
  let leases ← Program.reads LeaseManagerState.worktreeLeases
  Program.throwIf (leases.values.any (fun lease => !lease.allowed)) .schema
  Program.throwIf (leases.entries.any (fun e => e.1 != mapKey e.2)) (.leasing .corruptLeaseMap)
  Program.throwIf (leases.values.any fun lease =>
    (registry.records.get? lease.id).isNone && (registry.pending.get? lease.id).isNone)
    (.leasing .legacyLeaseConflict)
  let marker ← Program.reads LeaseManagerState.marker
  if marker then pure PUnit.unit else Program.write fun s => { s with marker := true }

def finishReclamation : LeaseProgram P PUnit := do
  let registry ← memory
  match registry.reclamation with
  | none => pure PUnit.unit
  | some intent => do
    let rows ← listRecords c a
    putMemory (finishedRegistry rows intent registry)
    writeRegistry LeaseManagerState.putRegistry

/-- The ledger record of an intent. -/
def intentInput (intent : PendingLeaseMutation) : AppendRecordInput :=
  let lease := intent.record.lease
  ⟨.worktreeLease lease,lease.holder.sessionId,lease.holder.turnId,none,some intent.record.updatedAt,
    some intent.recordId,none⟩

/-- The first part of `applyIntent`: the intent's record is in the ledger, or goes there. -/
def publishRecord (intent : PendingLeaseMutation) : LeaseProgram P PUnit := do
  let rows ← listRecords c a
  match rows.find? (·.recordId == intent.recordId) with
  | some existing =>
    Program.throwIf (existing.payload != .worktreeLease intent.record.lease) (.leasing .intentPayloadMismatch)
  | none => do
    let _ ← onLedger
      (AppendOnlyStore.appendRecord c.toStoreFormat (ledgerOptions a) a.process (intentInput intent) a.clock "" a.torn)
    pure PUnit.unit

/-- The second part: the registry's record, the map of active leases, the end of the intent. -/
def settleIntent (intent : PendingLeaseMutation) : LeaseProgram P PUnit := do
  let registry ← memory
  putMemory (registry.putRecord intent.record)
  writeRegistry fun s => s.putRecord intent.record
  Program.write fun s => { s with worktreeLeases := s.memory.activeMap }
  let registry ← memory
  putMemory (registry.dropPending intent.record.lease.id)
  writeRegistry fun s => s.clearApplied intent.recordId

def applyIntent (intent : PendingLeaseMutation) : LeaseProgram P PUnit := do
  publishRecord c a intent
  settleIntent intent

def withdrawIntent (intent : PendingLeaseMutation) : LeaseProgram P PUnit := do
  let registry ← memory
  putMemory (registry.dropPending intent.record.lease.id)
  writeRegistry fun s => s.clearWithdrawn intent.recordId

def snapshotLimit : LeaseError := .ledger (.read .snapshotLimit)

/-- `publishMutation`, with the number of random UUIDs that are in the intent for the first time. -/
def publishMutation (intent : PendingLeaseMutation) (draws : ℕ) : LeaseProgram P PUnit := do
  Program.throwIf (!intent.allowed) .schema
  let registry ← memory
  putMemory (registry.putPending intent)
  writeRegistry fun s => s.putStaged intent draws
  Program.tryCatch (applyIntent c a intent) fun e =>
    if (intent.operation = .acquire ∨ intent.operation = .renew) ∧ e = snapshotLimit then do
      let rows ← listRecords c a
      if rows.any (·.recordId == intent.recordId) then Program.throw e
      else do
        withdrawIntent intent
        Program.throw e
    else Program.throw e

/-- `applyIntent` as `replayPending` calls it. -/
def replayIntent (intent : PendingLeaseMutation) : LeaseProgram P PUnit :=
  Program.tryCatch (applyIntent c a intent) fun e =>
    if e = snapshotLimit ∨ e = .leasing .intentPayloadMismatch then pure PUnit.unit else Program.throw e

/-- One turn of the loop of `replayPending`. -/
def replayPendingIntent (intent : PendingLeaseMutation) : LeaseProgram P PUnit :=
  match intent.removal.filter (·.state == .prepared) with
  | none => replayIntent c a intent
  | some removal => do
    let inspection ← Program.ofExcept (inspectRemoval (a.removalWorld intent.record.lease.id) intent removal)
    match inspection with
    | .uncertain => pure PUnit.unit
    | .noEffect => withdrawIntent intent
    | .absent => replayIntent c a intent

def replayPending : LeaseProgram P PUnit := do
  let registry ← memory
  Program.forEach (replayPendingIntent c a) registry.pending.values

def withLeaseLock {α : Type} (callback : LeaseProgram P α) : LeaseProgram P α := do
  Program.throwIf a.options.readOnly (.leasing .readOnlyStore)
  getLedger c a
  callback

def withMutation {α : Type} (callback : LeaseProgram P α) : LeaseProgram P α :=
  withLeaseLock c a do
    readRegistry
    ensureManagedStore
    finishReclamation c a
    replayPending c a
    callback

/-- `options.ttlSeconds ?? requestedTtlSeconds ?? defaultTtlSeconds ?? 300` -/
def ttlOf (given requested : Option ℤ) : ℤ := ((given.or requested).or a.options.defaultTtlSeconds).getD 300

def leasePathOf (request : WorktreeLeaseRequest) (options : AcquireWorktreeLeaseOptions)
    (collision : BranchCollisionDecision) : Path :=
  (options.leasePath.or collision.reusePath).getD (match request.repoRoot with
    | some repoRoot => joinPath repoRoot.dropLast (request.repoId ++ "-" ++ branchNameToSlug request.branchName)
    | none => joinPath (joinPath a.workingDirectory request.repoId) (branchNameToSlug request.branchName))

/-- The lease and the record of a request that is granted. -/
def acquiredRecord (request : WorktreeLeaseRequest) (options : AcquireWorktreeLeaseOptions)
    (id fencingToken : String) (expiresAt : Instant) (canonical : Path) (pathIdentity : Option PathIdentity) :
    StoredLeaseRecord where
  lease := {
    id
    fencingToken
    repoId := request.repoId
    path := canonical
    branchName := request.branchName
    mode := request.mode
    holder := options.holder
    acquiredAt := options.now
    renewedAt := options.now
    expiresAt
    dirtyState := options.dirtyState.getD .unknown
    release := none }
  request
  repoRoot := options.repoRoot.or request.repoRoot
  branchHead := options.branchHead
  status := .active
  releasedAt := none
  updatedAt := options.now
  managedRoot := a.options.managedRoot
  pathIdentity

/-- Who has the branch or the path already. -/
def pathHolder (registry : WorktreeLeaseRegistry) (request : WorktreeLeaseRequest) (canonical : Path) :
    Option StoredLeaseRecord :=
  ((registry.pending.values.map (·.record)).find? fun r =>
    (r.lease.repoId == request.repoId && r.lease.branchName == request.branchName) || r.claimedPath == canonical).or
  (registry.active.find? fun r => r.claimedPath == canonical)

def acquireLease (request : WorktreeLeaseRequest) (options : AcquireWorktreeLeaseOptions) :
    LeaseProgram P WorktreeLeaseAcquisition := do
  Program.throwIf (!request.allowed) .schema
  let expiresAt ← Program.ofExcept (expiry options.now (ttlOf a options.ttlSeconds request.requestedTtlSeconds))
  withMutation c a do
    let registry ← memory
    let candidate := getSequentialCandidate registry request options.branchHead
    match evaluateBranchCollision request (registry.active.map (·.lease)) candidate with
    | none => Program.throw (.leasing .invalidBranchName)
    | some collision =>
      if !collision.allowed then
        pure ⟨false,none,(registry.active.find? fun r =>
          r.lease.repoId == request.repoId && r.lease.branchName == request.branchName).map (·.lease),some collision⟩
      else do
        let path := leasePathOf a request options collision
        let canonical ← Program.ofExcept (canonicalLeasePath a.world path)
        match pathHolder registry request canonical with
        | some holder => pure ⟨false,none,some holder.lease,none⟩
        | none => do
          Program.ofExcept (a.options.managedRoot.elim (.ok ()) (validateManagedPath a.world path))
          let id ← randomUUID c 0
          let fencingToken ← randomUUID c 1
          let recordId ← randomUUID c 2
          let record := acquiredRecord a request options id fencingToken expiresAt canonical
          Program.throwIf (!(record none).lease.allowed) .schema
          let pathIdentity ← Program.ofExcept (a.world.readPathIdentity canonical)
          publishMutation c a ⟨recordId,record pathIdentity,.acquire,none⟩ 3
          pure ⟨true,some (record none).lease,none,none⟩

def renewLease (lease : WorktreeLease) (options : RenewWorktreeLeaseOptions) : LeaseProgram P WorktreeLease := do
  Program.throwIf (!lease.allowed) .schema
  withMutation c a do
    let registry ← memory
    let existing ← Program.ofExcept (requireOwner registry lease)
    Program.throwIf (options.now.before existing.lease.renewedAt) (.leasing .invalidClock)
    let expiresAt ← Program.ofExcept
      (expiry options.now (ttlOf a options.ttlSeconds existing.request.requestedTtlSeconds))
    let renewed : WorktreeLease := { existing.lease with
      renewedAt := options.now
      expiresAt
      dirtyState := options.dirtyState.getD existing.lease.dirtyState }
    Program.throwIf (!renewed.allowed) .schema
    let recordId ← randomUUID c 0
    publishMutation c a ⟨recordId,{ existing with
      lease := renewed
      updatedAt := options.now
      branchHead := options.branchHead.or existing.branchHead },.renew,none⟩ 1
    pure renewed

def releaseLease (lease : WorktreeLease) (now : Instant) : LeaseProgram P PUnit := do
  Program.throwIf (!lease.allowed) .schema
  withMutation c a do
    let registry ← memory
    match registry.records.get? lease.id with
    | none => pure PUnit.unit
    | some record => do
      Program.ofExcept (assertOwner record.lease lease)
      if record.status = .released then pure PUnit.unit
      else do
        Program.throwIf (registry.pending.get? lease.id).isSome (.leasing .leaseIncomplete)
        let recordId ← randomUUID c 0
        let intent ← Program.ofExcept (releaseIntent record now .release .holderRelease recordId)
        publishMutation c a intent 1

/-- A call of a control; `record` is the lease's record before the callback. -/
def cleanupControl (record : StoredLeaseRecord) : CleanupControl → LeaseProgram P PUnit
  | .validatePath =>
    if record.managedRoot.isNone ∨ a.options.managedRoot.isNone ∨ record.managedRoot ≠ a.options.managedRoot then
      Program.throw (.leasing .managedRootUnproven)
    else Program.ofExcept (record.managedRoot.elim (.ok ()) (validateManagedPath a.world record.lease.path))
  | .stageRemoval identity now => do
    let recordId ← randomUUID c 0
    let intent ← Program.ofExcept (releaseIntent record now .remove .reconciliation recordId)
    let intent := { intent with removal := some ⟨identity,.prepared⟩ }
    let registry ← memory
    putMemory (registry.putPending intent)
    writeRegistry fun s => s.putStaged intent 1
  | .markRemovalDone => do
    let registry ← memory
    match (registry.pending.get? record.lease.id).bind fun intent => intent.removal.map fun r => (intent,r) with
    | none => Program.throw (.leasing .removalIntentMissing)
    | some (intent,removal) => do
      putMemory (registry.putPending { intent with removal := some { removal with state := .removalDone } })
      writeRegistry LeaseManagerState.putRegistry
  | .release now cause => do
    let registry ← memory
    match registry.pending.get? record.lease.id with
    | some intent => publishMutation c a intent 0
    | none => do
      let recordId ← randomUUID c 0
      let intent ← Program.ofExcept (releaseIntent record now .release (cause.getD .reconciliation) recordId)
      publishMutation c a intent 1
  | .ledgerEvidence => do
    let _ ← listRecords c a
    pure PUnit.unit

def withCleanup (lease : WorktreeLease) (callback : List CleanupControl) : LeaseProgram P PUnit := do
  Program.throwIf (!lease.allowed) .schema
  withMutation c a do
    let registry ← memory
    let record ← Program.ofExcept (requireOwner registry lease)
    Program.forEach (cleanupControl c a record) callback

def appendForeign (process : P) (record : ForeignRecord) : LeaseProgram P PUnit := do
  let _ ← onLedger (AppendOnlyStore.appendRecord c.toStoreFormat (ledgerOptions a) process record.input a.clock
    record.generatedId a.torn)
  pure PUnit.unit

/-- A record of another writer, whose errors are not the manager's. -/
def appendInterleaved (entry : ForeignRecord × Option ℕ) : LeaseProgram P PUnit :=
  Program.tryCatch
    (Program.cut entry.2 (.filesystem .other) (appendForeign c a a.otherWriter entry.1))
    fun _ => pure PUnit.unit

def retainHistory (policy : RetentionPolicy) (now : ℤ) (interleaved : List (ForeignRecord × Option ℕ)) :
    LeaseProgram P PUnit :=
  withLeaseLock c a do
    readRegistry
    ensureManagedStore
    finishReclamation c a
    let snapshot ← listRecords c a
    let registry ← memory
    let intent := reclamationIntent snapshot registry (retentionSelection snapshot registry policy now)
    putMemory { registry with reclamation := some intent }
    writeRegistry LeaseManagerState.putRegistry
    Program.forEach (appendInterleaved c a) interleaved
    let _ ← onLedger (AppendOnlyStore.compactRecords c.toStoreFormat (ledgerOptions a) a.process (fun record current =>
      some (decide (record.sequence ∈ retentionSelection current registry policy now) ||
        (record.kind == .worktreeLease && !intent.recordIds.contains record.recordId))) a.clock)
    finishReclamation c a
    replayPending c a

def reconcile : LeaseProgram P PUnit := withMutation c a (pure PUnit.unit)

end Operations

inductive LeaseResult
  | acquisition (result : WorktreeLeaseAcquisition)
  | renewed (lease : WorktreeLease)
  | done
  deriving DecidableEq, Repr

structure LeaseAction (P : Type) where
  surroundings : Surroundings P
  operation : LeaseOperation
  ending : AppendOnlyStore.Ending

variable (c : LeaseFormat)

def LeaseAction.program (x : LeaseAction P) : LeaseProgram P LeaseResult :=
  let a := x.surroundings
  match x.operation with
  | .acquire request options => acquireLease c a request options >>= fun r => pure (.acquisition r)
  | .renew lease options => renewLease c a lease options >>= fun l => pure (.renewed l)
  | .release lease now => releaseLease c a lease now >>= fun _ => pure .done
  | .withCleanup lease callback => withCleanup c a lease callback >>= fun _ => pure .done
  | .retainHistory policy now interleaved => retainHistory c a policy now interleaved >>= fun _ => pure .done
  | .reconcile => reconcile c a >>= fun _ => pure .done
  | .append record => appendForeign c a a.process record >>= fun _ => pure .done

/-- An operation of a manager or of another writer, to its end, to an error of the file
system, or to the end of its process. -/
def step (s : LeaseManagerState P) (x : LeaseAction P) : Option (LeaseManagerState P) :=
  match x.ending with
  | .returns => some ((x.program c).final s)
  | .fails n => some ((x.program c).crash n s)
  | .crashes n => some (((x.program c).crash n s).crash x.surroundings.process)

end WorktreeLeaseManager
end OmniagentPlus.WorktreeLeasing
