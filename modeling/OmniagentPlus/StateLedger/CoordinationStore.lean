import OmniagentPlus.Foundation.Dictionary
import OmniagentPlus.StateLedger.AppendOnlyStore

/-! `CoordinationStore` of `coordination.ts`: the cooldowns and the exclusive leases, in a file
each, beside the ledger. A call holds the coordination lock, so calls follow one another. -/
namespace OmniagentPlus.StateLedger
open OmniagentPlus.Foundation OmniagentPlus.CoreContracts

/-- `providerFamilyCooldownSchema` -/
def cooldownAllowed (cooldown : ProviderFamilyCooldown) : Bool :=
  cooldown.reason != "" && cooldown.observedAt.isSome && cooldown.resetAt.all (·.isSome)

inductive CoordinationStoreError
  | ledger (error : StoreError)
  | schema
  /-- "Legacy physical acquisition is unsupported on a COORD-managed root." -/
  | managedRoot
  /-- a map that its schema refuses or with a key that is not its payload's -/
  | malformedMap
  /-- "Invalid lease clock or TTL.", and a time that no date has -/
  | clock
  deriving DecidableEq, Repr

structure LeaseAcquisitionResult where
  acquired : Bool
  lease : Option WorktreeLease
  existingLease : Option WorktreeLease
  deriving DecidableEq, Repr

/-- The options of `acquireExclusiveLease`; a TTL is none where it is no integer. -/
structure LeaseAcquisitionOptions where
  ttlSeconds : Option (Option ℤ)
  dirtyState : Option DirtyState
  leasePath : Option Path
  now : Option Instant
  deriving DecidableEq, Repr

def leaseModeText : WorktreeLeaseMode → String
  | .exclusiveWrite => "exclusive_write"
  | .readOnly => "read_only"
  | .sequentialContinue => "sequential_continue"

/-- The key of a lease in the map of the leases. -/
def leaseKey (repoId branchName : String) (mode : WorktreeLeaseMode) : String :=
  repoId ++ ":" ++ branchName ++ ":" ++ leaseModeText mode

/-- The greatest time that a date has, in milliseconds. -/
def maxDate : ℤ := 8640000000000000

namespace CoordinationStore
variable {P : Type} [DecidableEq P]

/-- The files under one root, none where a file is missing. `managed` says that the root has the
marker or the registry of the lease manager; `granted` only records the leases that calls returned. -/
structure State (P : Type) where
  ledger : AppendOnlyStore.State P
  cooldowns : Option (Dictionary String ProviderFamilyCooldown)
  leases : Option (Dictionary String WorktreeLease)
  managed : Bool
  granted : List WorktreeLease

namespace State

/-- An empty root. -/
def init : State P := ⟨.init,none,none,false,[]⟩

def putLedger (s : State P) (l : AppendOnlyStore.State P) : State P := { s with ledger := l }

def putCooldowns (s : State P) (d : Dictionary String ProviderFamilyCooldown) : State P := { s with cooldowns := some d }

def putLeases (s : State P) (d : Dictionary String WorktreeLease) : State P := { s with leases := some d }

def grant (s : State P) (ls : List WorktreeLease) : State P := { s with granted := s.granted ++ ls }

end State

abbrev CoordinationProgram (P α : Type) := Program (State P) CoordinationStoreError α

/-- What a call finds around it: its process and store, the clock, the random UUIDs, where a torn
write would stop, and `join` and `resolve` of `node:path` in its process. -/
structure Surroundings (P : Type) where
  process : P
  options : AppendOnlyStoreOptions
  clock : Instant
  leaseId : String
  fencingToken : String
  generatedId : String
  torn : ℕ
  join : String → String → Path
  resolve : Path → Path

section Operations
variable (c : StoreFormat) (a : Surroundings P)

def onLedger {α : Type} (p : AppendOnlyStore.StoreProgram P α) : CoordinationProgram P α :=
  Program.zoom State.ledger State.putLedger .ledger p

/-- `CoordinationStore.open` -/
def openStore : CoordinationProgram P PUnit :=
  onLedger (AppendOnlyStore.initializeStore c a.options a.process a.clock)

/-- The entries of a map that its schema accepts, each under the key of its payload. -/
def readMap {β : Type} (key : β → String) (allowed : β → Bool) (file : Option (Dictionary String β)) :
    Except CoordinationStoreError (Dictionary String β) :=
  let map := file.getD .empty
  if map.entries.all (fun e => allowed e.2 && e.1 == key e.2) then .ok map else .error .malformedMap

def readCooldownMap : CoordinationProgram P (Dictionary String ProviderFamilyCooldown) := do
  let file ← Program.reads State.cooldowns
  Program.ofExcept (readMap (fun cooldown => cooldown.provider.name) cooldownAllowed file)

def readLeaseMap : CoordinationProgram P (Dictionary String WorktreeLease) := do
  let file ← Program.reads State.leases
  Program.ofExcept (readMap (fun lease => leaseKey lease.repoId lease.branchName lease.mode) (·.allowed) file)

def getProviderCooldown (provider : String) : CoordinationProgram P (Option ProviderFamilyCooldown) := do
  let cooldowns ← readCooldownMap
  pure (cooldowns.get? provider)

/-- The record of `appendProviderCooldown`. -/
def cooldownInput (cooldown : ProviderFamilyCooldown) : AppendRecordInput :=
  ⟨.providerCooldown cooldown,none,none,none,none,none,none⟩

/-- The record of `appendWorktreeLease`. -/
def leaseInput (lease : WorktreeLease) : AppendRecordInput :=
  ⟨.worktreeLease lease,lease.holder.sessionId,lease.holder.turnId,none,none,none,none⟩

def appendToLedger (input : AppendRecordInput) : CoordinationProgram P StateLedgerEntry :=
  onLedger (AppendOnlyStore.appendRecord c a.options a.process input a.clock a.generatedId a.torn)

def setProviderCooldown (cooldown : ProviderFamilyCooldown) : CoordinationProgram P ProviderFamilyCooldown := do
  Program.throwIf (!cooldownAllowed cooldown) .schema
  let cooldowns ← readCooldownMap
  Program.write fun s => s.putCooldowns (cooldowns.set cooldown.provider.name cooldown)
  let _ ← appendToLedger c a (cooldownInput cooldown)
  pure cooldown

/-- `options.leasePath ?? request.repoRoot ?? join(request.repoId, request.branchName)` -/
def claimPath (request : WorktreeLeaseRequest) (options : LeaseAcquisitionOptions) : Path :=
  options.leasePath.getD (request.repoRoot.getD (a.join request.repoId request.branchName))

/-- A lease that stands against a claim. -/
def standsAgainst (request : WorktreeLeaseRequest) (path : Path) (lease : WorktreeLease) : Bool :=
  (lease.repoId == request.repoId && lease.branchName == request.branchName) || a.resolve lease.path == a.resolve path

/-- `options.ttlSeconds ?? request.requestedTtlSeconds ?? 300` -/
def claimTtl (request : WorktreeLeaseRequest) (options : LeaseAcquisitionOptions) : Option ℤ :=
  options.ttlSeconds.getD (some (request.requestedTtlSeconds.getD 300))

/-- The time at which a lease taken now expires. -/
def claimExpiry (now : Instant) (ttlSeconds : Option ℤ) : Except CoordinationStoreError ℤ :=
  match now, ttlSeconds with
  | some now, some ttl =>
    if 0 < ttl ∧ ttl ≤ maxSafeInteger ∧ now + ttl * 1000 ≤ maxDate then .ok (now + ttl * 1000) else .error .clock
  | _, _ => .error .clock

def clearReleasedLeases (leases : Dictionary String WorktreeLease) : Dictionary String WorktreeLease :=
  leases.filter fun lease => lease.release.isNone

def claimedLease (request : WorktreeLeaseRequest) (holder : LeaseHolder) (options : LeaseAcquisitionOptions)
    (expiresAt : ℤ) : WorktreeLease where
  id := a.leaseId
  fencingToken := a.fencingToken
  repoId := request.repoId
  path := claimPath a request options
  branchName := request.branchName
  mode := request.mode
  holder := holder
  acquiredAt := options.now.getD a.clock
  renewedAt := options.now.getD a.clock
  expiresAt := some expiresAt
  dirtyState := options.dirtyState.getD .unknown
  release := none

def acquireExclusiveLease (request : WorktreeLeaseRequest) (holder : LeaseHolder) (options : LeaseAcquisitionOptions) :
    CoordinationProgram P LeaseAcquisitionResult := do
  Program.throwIf (!request.allowed) .schema
  let managed ← Program.reads State.managed
  Program.throwIf managed .managedRoot
  let recorded ← readLeaseMap
  let leases := clearReleasedLeases recorded
  match leases.values.find? (standsAgainst a request (claimPath a request options)) with
  | some existingLease => pure ⟨false,none,some existingLease⟩
  | none => do
    let expiresAt ← Program.ofExcept (claimExpiry (options.now.getD a.clock) (claimTtl request options))
    let lease := claimedLease a request holder options expiresAt
    Program.throwIf (!lease.allowed) .schema
    let _ ← appendToLedger c a (leaseInput lease)
    Program.write fun s => s.putLeases (leases.set (leaseKey request.repoId request.branchName request.mode) lease)
    pure ⟨true,some lease,none⟩

def listActiveLeases : CoordinationProgram P (List WorktreeLease) := do
  let leases ← readLeaseMap
  pure leases.values

end Operations

inductive Operation
  | opening
  | getProviderCooldown (provider : String)
  | setProviderCooldown (cooldown : ProviderFamilyCooldown)
  | acquireExclusiveLease (request : WorktreeLeaseRequest) (holder : LeaseHolder) (options : LeaseAcquisitionOptions)
  | listActiveLeases
  /-- of the ledger alone, by any of its users -/
  | ledger (operation : AppendOnlyStore.Operation)

inductive Result
  | done
  | cooldown (cooldown : Option ProviderFamilyCooldown)
  | acquisition (result : LeaseAcquisitionResult)
  | leases (leases : List WorktreeLease)
  deriving DecidableEq, Repr

structure Action (P : Type) where
  surroundings : Surroundings P
  operation : Operation
  ending : AppendOnlyStore.Ending

variable (c : StoreFormat)

def Action.program (x : Action P) : CoordinationProgram P Result :=
  let a := x.surroundings
  match x.operation with
  | .opening => openStore c a >>= fun _ => pure .done
  | .getProviderCooldown provider => getProviderCooldown provider >>= fun r => pure (.cooldown r)
  | .setProviderCooldown cooldown => setProviderCooldown c a cooldown >>= fun r => pure (.cooldown (some r))
  | .acquireExclusiveLease request holder options =>
    acquireExclusiveLease c a request holder options >>= fun r => pure (.acquisition r)
  | .listActiveLeases => listActiveLeases >>= fun r => pure (.leases r)
  | .ledger operation =>
    onLedger (AppendOnlyStore.Action.program c ⟨a.process,a.options,a.clock,operation,.returns⟩) >>= fun _ => pure .done

/-- The lease that a call returns as acquired. -/
def Result.granted : Result → List WorktreeLease
  | .acquisition ⟨true,some lease,_⟩ => [lease]
  | _ => []

/-- A call comes to its end, or is cut short by an error of the file system or with its process. -/
def step (s : State P) (x : Action P) : Option (State P) :=
  match x.ending with
  | .returns => match (x.program c s).2 with
    | .ok r => some (((x.program c).final s).grant r.granted)
    | .error _ => some ((x.program c).final s)
  | .fails n => some ((x.program c).crash n s)
  | .crashes n =>
    let t := (x.program c).crash n s
    some (t.putLedger (t.ledger.putCache x.surroundings.process none))

end CoordinationStore
end OmniagentPlus.StateLedger
