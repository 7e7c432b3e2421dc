import OmniagentPlus.WorktreeLeasing.LeaseManager

/-! `cleanup.ts` and `stale-recovery.ts`: the two callers of `withCleanup`. The answers of the
world may change from one check to the next, so each group of checks has a world of its own. -/
namespace OmniagentPlus.WorktreeLeasing
open OmniagentPlus.Foundation OmniagentPlus.CoreContracts OmniagentPlus.StateLedger
open WorktreeLeaseManager

/-- The answers of one moment of a cleanup, with the host and the process that ask. -/
structure CleanupWorld extends World where
  readGitBranch : Path → Except LeaseError String
  getCurrentHostIdentity : String
  processId : ℕ

/-- What a cleanup meets: at its first inspection, at the checks before it stages the removal,
at those after, and at the removal. The walk of `validatePath` meets the world of its
surroundings. -/
structure CleanupWorlds where
  inspected : CleanupWorld
  examined : CleanupWorld
  final : CleanupWorld
  removeGitWorktree : Path → Path → Except LeaseError Unit

structure CleanupLeaseOptions where
  currentHost : String
  activeFencingToken : String
  holder : Option LeaseHolder
  processLiveness : Option ProcessLiveness
  dirtyState : Option DirtyState
  branchMatches : Option Bool
  allowReadOnlyCleanup : Option Bool
  now : Instant
  repoRoot : Option Path
  worktreePath : Option Path
  deriving DecidableEq, Repr

inductive CleanupReason
  | error (code : LeasingErrorCode)
  | readOnlyReviewer
  | unknownDirtyState
  | dirtyWorktree
  | activeProcess
  | differentHost
  | unknownProcess
  | branchDiverged
  | pathOverride
  | repoRootUnproven
  | pathIdentityUnproven
  | unregisteredWorktree
  | pathIdentityChanged
  | pathPermissionUnknown
  | absentPathReconciled
  | cleanupReleaseIncomplete
  | cleanupEffectUncertain
  | cleanupComplete
  deriving DecidableEq, Repr

inductive MetadataOnlyValue
  | text (value : String)
  | flag (value : Bool)
  | path (value : Path)
  | instant (value : Instant)
  deriving DecidableEq, Repr

structure CleanupResult where
  deleted : Bool
  reconciled : Option Bool := none
  releaseIncomplete : Option Bool := none
  reason : CleanupReason
  metadataOnlyEvidence : List (String × MetadataOnlyValue)
  deriving DecidableEq, Repr

/-- A removal that is begun, with the intent that the registry's file has for the lease and the
identity just read at the path; and one that is reported done, under that intent's record id. -/
inductive CleanupEvent
  | removing (durable : Option PendingLeaseMutation) (identity : PathIdentity) (path : Path)
  | removed (recordId : Option String) (path : Path)
  deriving DecidableEq

/-- The managers' store, and the removals so far. -/
structure CleanupState (P : Type) where
  manager : LeaseManagerState P
  events : List CleanupEvent

section Checks
variable (record : StoredLeaseRecord) (options : CleanupLeaseOptions)

/-- The checks of a cleanup that ask the world nothing. -/
def cleanupRefusal (workingDirectory : Path) (w : CleanupWorld) : Option CleanupReason :=
  let current := record.lease
  if current.fencingToken ≠ options.activeFencingToken then some (.error .fencingTokenMismatch)
  else if current.mode = .readOnly ∧ options.allowReadOnlyCleanup ≠ some true then some .readOnlyReviewer
  else if options.dirtyState = some .unknown then some .unknownDirtyState
  else if options.dirtyState = some .dirty then some .dirtyWorktree
  else if options.processLiveness = some .alive then some .activeProcess
  else if options.processLiveness = some .differentHost then some .differentHost
  else if options.processLiveness = some .unknown then some .unknownProcess
  else if options.branchMatches = some false then some .branchDiverged
  else if options.holder ≠ some current.holder then some (.error .holderMismatch)
  else if options.currentHost ≠ w.getCurrentHostIdentity then some .differentHost
  else if (options.worktreePath.any (· != current.path)) ||
      options.repoRoot.any (· != record.repoRoot.getD workingDirectory) then some .pathOverride
  else none

def livenessReason : ProcessLiveness → CleanupReason
  | .alive => .activeProcess
  | .differentHost => .differentHost
  | _ => .unknownProcess

/-- The holder's process asks itself. -/
def selfHolder (w : CleanupWorld) (live : ProcessLiveness) : Bool :=
  record.lease.holder.host == w.getCurrentHostIdentity && record.lease.holder.processId == w.processId &&
    live == .alive

/-- The checks between the walk of `validatePath` and the staging of the removal. -/
def removalRefusal (w : CleanupWorld) (repoRoot : Path) (registered : Bool) (identity : PathIdentity) :
    Except LeaseError (Option CleanupReason) := do
  if record.pathIdentity ≠ some identity then return some .pathIdentityUnproven
  if !registered then return some .unregisteredWorktree
  if !(← w.verifyGitWorktreeRepository repoRoot identity.path) then return some .unregisteredWorktree
  match ← w.inspectWorktreeDirtyState identity.path with
  | .dirty => return some .dirtyWorktree
  | .unknown => return some .unknownDirtyState
  | .clean =>
    if (← w.readGitBranch identity.path) ≠ record.lease.branchName then return some .branchDiverged
    if (← w.readPathIdentity identity.path) ≠ some identity then return some .pathIdentityChanged
    return none

/-- The checks between the staging of the removal and the removal; they return the identity last read. -/
def recheckRemoval (w : CleanupWorld) (repoRoot : Path) (identity : PathIdentity) : Except LeaseError PathIdentity := do
  let current := record.lease
  let registration ← w.readGitWorktreeRegistration repoRoot identity.path
  let changed : Except LeaseError PathIdentity := .error (.leasing .cleanupRecheckFailed)
  if registration ≠ some (some current.branchName) ∨
      w.checkProcessLiveness current.holder.processId current.holder.host ≠ .missing then changed
  else if (← w.inspectWorktreeDirtyState identity.path) ≠ .clean then changed
  else if (← w.readGitBranch identity.path) ≠ current.branchName then changed
  else if !(← w.verifyGitWorktreeRepository repoRoot identity.path) then changed
  else match ← w.readPathIdentity identity.path with
    | none => .error (.leasing .pathIdentityChanged)
    | some finalIdentity =>
      if finalIdentity = identity then .ok finalIdentity else .error (.leasing .pathIdentityChanged)

end Checks

section Cleanup
variable {P : Type} [DecidableEq P] (c : LeaseFormat) (a : Surroundings P)

abbrev CleanupProgram (P α : Type) := Program (CleanupState P) LeaseError α

def CleanupState.putManager (s : CleanupState P) (m : LeaseManagerState P) : CleanupState P := { s with manager := m }

def onManager {α : Type} (p : LeaseProgram P α) : CleanupProgram P α :=
  Program.zoom CleanupState.manager CleanupState.putManager id p

/-- `withCleanup` up to its callback. -/
def openCleanup (lease : WorktreeLease) : LeaseProgram P StoredLeaseRecord := do
  Program.throwIf (!lease.allowed) .schema
  withMutation c a do
    let registry ← memory
    Program.ofExcept (requireOwner registry lease)

/-- The intent that the registry's file has for a lease. -/
def CleanupState.durable (s : CleanupState P) (id : String) : Option PendingLeaseMutation :=
  s.manager.stored.pending.get? id

def CleanupState.record (s : CleanupState P) (event : CleanupEvent) : CleanupState P :=
  { s with events := s.events ++ [event] }

/-- The checks once the removal is staged, and the removal; whether it is reported done. -/
def removeWorktree (record : StoredLeaseRecord) (w : CleanupWorlds) (repoRoot : Path) (identity : PathIdentity) :
    CleanupProgram P Bool :=
  Program.tryCatch (do
    let finalIdentity ← Program.ofExcept (recheckRemoval record w.final repoRoot identity)
    Program.write fun s => s.record (.removing (s.durable record.lease.id) finalIdentity identity.path)
    Program.ofExcept (w.removeGitWorktree repoRoot identity.path)
    Program.write fun s => s.record (.removed ((s.durable record.lease.id).map (·.recordId)) identity.path)
    pure true) fun _ => pure false

/-- What follows a removal that is reported done; whether it succeeded. -/
def releaseRemoved (record : StoredLeaseRecord) (now : Instant) : CleanupProgram P Bool :=
  Program.tryCatch (do
    onManager (cleanupControl c a record .markRemovalDone)
    onManager (cleanupControl c a record (.release now none))
    pure true) fun _ => pure false

/-- A cleanup where there is a directory at the path. -/
def removePresent (record : StoredLeaseRecord) (now : Instant) (w : CleanupWorlds)
    (blocked : CleanupReason → CleanupResult) (repoRoot : Path) (registered : Bool) (identity : PathIdentity) :
    CleanupProgram P CleanupResult := do
  let invalid ← Program.tryCatch (do
    onManager (cleanupControl c a record .validatePath)
    pure none) fun e =>
      match e with
      | .leasing code => pure (some (.error code))
      | e => Program.throw e
  match invalid with
  | some reason => pure (blocked reason)
  | none => do
    let refusal ← Program.ofExcept (removalRefusal record w.examined repoRoot registered identity)
    match refusal with
    | some reason => pure (blocked reason)
    | none => do
      onManager (cleanupControl c a record (.stageRemoval identity now))
      let incomplete := fun (deleted : Bool) (reason : CleanupReason) => {
        deleted
        releaseIncomplete := some true
        reason
        metadataOnlyEvidence := [("leaseId",.text record.lease.id),("deleted",.flag deleted),
          ("releaseIncomplete",.flag true)] }
      if ← removeWorktree record w repoRoot identity then
        if ← releaseRemoved c a record now then
          pure {
            deleted := true
            reason := .cleanupComplete
            metadataOnlyEvidence := [("leaseId",.text record.lease.id),("worktreePath",.path identity.path),
              ("metadataOnly",.flag true)] }
        else pure (incomplete true .cleanupReleaseIncomplete)
      else pure (incomplete false .cleanupEffectUncertain)

/-- The callback of a cleanup. -/
def cleanupRecord (record : StoredLeaseRecord) (options : CleanupLeaseOptions) (w : CleanupWorlds)
    (blocked : CleanupReason → CleanupResult) : CleanupProgram P CleanupResult :=
  match cleanupRefusal record options a.workingDirectory w.inspected with
  | some reason => pure (blocked reason)
  | none => do
    let current := record.lease
    let live := w.inspected.checkProcessLiveness current.holder.processId current.holder.host
    let identity ← Program.ofExcept (w.inspected.readPathIdentity current.path)
    match record.repoRoot with
    | none => pure (blocked .repoRootUnproven)
    | some repoRoot => do
      let registration ← Program.ofExcept (w.inspected.readGitWorktreeRegistration repoRoot current.path)
      if registration.any (· != some current.branchName) then pure (blocked .branchDiverged)
      else
        match identity with
        | none =>
          if live != .missing && !selfHolder record w.inspected live then pure (blocked (livenessReason live))
          else do
            onManager (cleanupControl c a record (.release options.now none))
            pure {
              deleted := false
              reconciled := some true
              reason := .absentPathReconciled
              metadataOnlyEvidence := [("leaseId",.text current.id),("deleted",.flag false),("reconciled",.flag true)] }
        | some identity =>
          if live != .missing then pure (blocked (livenessReason live))
          else removePresent c a record options.now w blocked repoRoot registration.isSome identity

def cleanupLeasedWorktree (lease : WorktreeLease) (options : CleanupLeaseOptions) (w : CleanupWorlds) :
    CleanupProgram P CleanupResult :=
  let blocked := fun (reason : CleanupReason) => {
    deleted := false
    reason
    metadataOnlyEvidence := [("leaseId",.text lease.id),("repoId",.text lease.repoId),
      ("branchName",.text lease.branchName)] }
  Program.tryCatch (do
    let record ← onManager (openCleanup c a lease)
    cleanupRecord c a record options w blocked) fun e =>
      match e with
      | .leasing code => pure (blocked (.error code))
      | .filesystem .eacces | .filesystem .eperm => pure (blocked .pathPermissionUnknown)
      | e => Program.throw e

end Cleanup

section Recovery

/-- `sameHost` and `currentHost` are of the liveness result and of the inspection. -/
structure StaleRecoveryInspection where
  lease : WorktreeLease
  currentHost : String
  now : Instant
  processLiveness : ProcessLiveness
  sameHost : Bool
  dirtyState : DirtyState
  branchMatches : Bool
  ledgerEvidencePresent : Bool
  deriving DecidableEq, Repr

inductive StaleRecoveryReason
  | missingLedgerEvidence
  | leaseNotExpired
  | activeProcess
  | differentHost
  | unknownProcess
  | dirtyWorktree
  | branchDiverged
  | staleRecoveryAllowed
  deriving DecidableEq, Repr

structure StaleRecoveryDecision where
  reusable : Bool
  cleanupAllowed : Bool
  reason : StaleRecoveryReason
  metadataOnlyEvidence : List (String × MetadataOnlyValue)
  deriving DecidableEq, Repr

def DirtyState.text : DirtyState → String
  | .clean => "clean"
  | .dirty => "dirty"
  | .unknown => "unknown"

def blockedDecision (lease : WorktreeLease) (reason : StaleRecoveryReason) (details : List (String × MetadataOnlyValue)) :
    StaleRecoveryDecision :=
  ⟨false,false,reason,[("leaseId",.text lease.id),("branchName",.text lease.branchName),
    ("repoId",.text lease.repoId)] ++ details⟩

def evaluateStaleLeaseRecovery (inspection : StaleRecoveryInspection) : StaleRecoveryDecision :=
  let lease := inspection.lease
  let sameHost := ("sameHost",MetadataOnlyValue.flag inspection.sameHost)
  if !inspection.ledgerEvidencePresent then
    blockedDecision lease .missingLedgerEvidence [("ledgerEvidencePresent",.flag false)]
  else if inspection.now.before lease.expiresAt then
    blockedDecision lease .leaseNotExpired [("expired",.flag false)]
  else if inspection.processLiveness = .alive then
    blockedDecision lease .activeProcess [("holderHost",.text lease.holder.host),sameHost]
  else if inspection.processLiveness = .differentHost then
    blockedDecision lease .differentHost [("holderHost",.text lease.holder.host),
      ("currentHost",.text inspection.currentHost)]
  else if inspection.processLiveness = .unknown then blockedDecision lease .unknownProcess [sameHost]
  else if inspection.dirtyState ≠ .clean ∨ lease.dirtyState ≠ .clean then
    blockedDecision lease .dirtyWorktree [("dirtyState",.text (DirtyState.text inspection.dirtyState))]
  else if !inspection.branchMatches then
    blockedDecision lease .branchDiverged [("branchMatches",.flag false)]
  else
    ⟨true,true,.staleRecoveryAllowed,[("leaseId",.text lease.id),("branchName",.text lease.branchName),
      ("repoId",.text lease.repoId),("currentHost",.text inspection.currentHost),
      ("recoveredAt",.instant inspection.now)]⟩

variable {P : Type} [DecidableEq P] (c : LeaseFormat) (a : Surroundings P)

/-- The inspection that the callback of a recovery makes of the world. -/
def inspectRecovery (record : StoredLeaseRecord) (inspection : StaleRecoveryInspection) (w : CleanupWorld)
    (repoRoot : Path) : Except LeaseError StaleRecoveryInspection := do
  let lease := record.lease
  let registration ← w.readGitWorktreeRegistration repoRoot lease.path
  let verified ← if registration = some (some lease.branchName) then w.verifyGitWorktreeRepository repoRoot lease.path
    else .ok false
  let processLiveness := w.checkProcessLiveness lease.holder.processId lease.holder.host
  let dirtyState ← w.inspectWorktreeDirtyState lease.path
  let branchMatches ← if verified then (w.readGitBranch lease.path).map (· == lease.branchName) else .ok false
  .ok { inspection with
    lease
    processLiveness
    sameHost := processLiveness != .differentHost
    dirtyState
    branchMatches }

def recoverStaleLease (inspection : StaleRecoveryInspection) (w : CleanupWorld) : LeaseProgram P StaleRecoveryDecision := do
  let decision := evaluateStaleLeaseRecovery inspection
  if !decision.reusable then pure decision
  else do
    let record ← openCleanup c a inspection.lease
    match record.repoRoot with
    | none => pure (blockedDecision record.lease .differentHost [("sameHost",.flag false)])
    | some repoRoot =>
      if inspection.currentHost ≠ w.getCurrentHostIdentity then
        pure (blockedDecision record.lease .differentHost [("sameHost",.flag false)])
      else do
        let inspected ← Program.ofExcept (inspectRecovery record inspection w repoRoot)
        let rows ← listRecords c a
        let actual := evaluateStaleLeaseRecovery { inspected with
          ledgerEvidencePresent := rows.any fun r =>
            match r.payload with
            | .worktreeLease lease => lease.id == record.lease.id && lease.fencingToken == record.lease.fencingToken
            | _ => false }
        if actual.reusable then do
          cleanupControl c a record (.release inspection.now (some .recovery))
          pure actual
        else pure actual

end Recovery

section Actions
variable {P : Type} [DecidableEq P]

/-- What callers of the package do; a `withCleanup` is one of `cleanup` and `recover`. -/
inductive WorktreeOperation
  | manage (operation : LeaseOperation)
  | cleanup (lease : WorktreeLease) (options : CleanupLeaseOptions) (worlds : CleanupWorlds)
  | recover (inspection : StaleRecoveryInspection) (world : CleanupWorld)

structure WorktreeAction (P : Type) where
  surroundings : Surroundings P
  operation : WorktreeOperation
  ending : AppendOnlyStore.Ending

variable (c : LeaseFormat)

/-- What an action does, cut short where it ends early. -/
def WorktreeAction.program (x : WorktreeAction P) : CleanupProgram P PUnit :=
  match x.operation with
  | .manage operation => onManager (LeaseAction.program c ⟨x.surroundings,operation,x.ending⟩) >>= fun _ => pure PUnit.unit
  | .cleanup lease options w => cleanupLeasedWorktree c x.surroundings lease options w >>= fun _ => pure PUnit.unit
  | .recover inspection w => onManager (recoverStaleLease c x.surroundings inspection w) >>= fun _ => pure PUnit.unit

def WorktreeOperation.isRawCleanup : WorktreeOperation → Bool
  | .manage (.withCleanup _ _) => true
  | _ => false

namespace CleanupState

def init : CleanupState P := ⟨LeaseManagerState.init,[]⟩

def crash (s : CleanupState P) (p : P) : CleanupState P := s.putManager (s.manager.crash p)

def step (s : CleanupState P) (x : WorktreeAction P) : Option (CleanupState P) :=
  if x.operation.isRawCleanup then none
  else match x.ending with
    | .returns => some ((x.program c).final s)
    | .fails n => some ((x.program c).crash n s)
    | .crashes n => some (((x.program c).crash n s).crash x.surroundings.process)

end CleanupState
end Actions
end OmniagentPlus.WorktreeLeasing
