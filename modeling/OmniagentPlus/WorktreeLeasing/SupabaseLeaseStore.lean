import OmniagentPlus.WorktreeLeasing.CoordinationTables

/-! `SupabaseLeaseStore`: the same requests checked as `LocalLeaseStore` checks them, handed to
the functions of the database, and their answers checked on the way back. -/
namespace OmniagentPlus.WorktreeLeasing
open OmniagentPlus.Foundation OmniagentPlus.CoreContracts OmniagentPlus.StateLedger

/-- `coordinationFailureCause`, as far as the database's errors go. -/
def SqlError.cause : SqlError → LeaseStoreError
  | .untranslatable => .validation
  | .invalidParameter => .validation
  | .datetimeOverflow => .validation
  | .checkViolation => .validation
  | .protectedCapacity => .capacity

/-- `acquireSchema` -/
def decodeAcquire (answer : SqlAnswer) : Option LeaseAcquireResult :=
  match answer.lease with
  | none => none
  | some l => (consiliencyLeaseSchema l).map fun lease =>
    if answer.done then ⟨true,some lease,none,none⟩ else ⟨false,none,some lease,answer.failure⟩

/-- `renewSchema` -/
def decodeRenew (answer : SqlAnswer) : Option LeaseRenewResult :=
  if answer.done then (answer.lease.bind consiliencyLeaseSchema).map fun lease => ⟨true,some lease,none⟩
  else some ⟨false,none,answer.failure⟩

/-- The request that `acquire` sends for a lease it has prepared. -/
def acquireRpc (lease : ConsiliencyLease) : LeaseAcquireRequest :=
  ⟨some lease.lease_id,lease.holder,lease.ttl_seconds,lease.mode,lease.scope,lease.phase,
    some (1000 * lease.acquired_at)⟩

namespace SupabaseLeaseStore
variable (t : CoordinationTables)

def acquire (request : LeaseAcquireRequest) (prepared clock : ℤ) (uuid : Text) (uuids : ℕ → ℕ) :
    Except LeaseStoreError (LeaseAcquireResult × CoordinationTables) := do
  let lease ← createLeaseFromAcquireRequest
    { request with scope := normalizeLeaseScope request.scope } prepared uuid
  match coordinationAcquireLease t (acquireRpc lease) clock clock [] uuids with
  | .error _ => return (⟨false,none,none,some .backendUnavailable⟩,t)
  | .ok (answer,after) =>
    return ((decodeAcquire answer).getD ⟨false,none,none,some .backendUnavailable⟩,after)

def renew (leaseId holder : Text) (ttlSeconds : Option ℤ) (clock : ℤ) (uuids : ℕ → ℕ) :
    Except LeaseStoreError (LeaseRenewResult × CoordinationTables) := do
  checkArguments leaseId holder ttlSeconds
  match coordinationRenewLease t leaseId holder ttlSeconds clock clock uuids with
  | .error _ => return (⟨false,none,some .backendUnavailable⟩,t)
  | .ok (answer,after) => return ((decodeRenew answer).getD ⟨false,none,some .backendUnavailable⟩,after)

def release (leaseId holder : Text) (clock : ℤ) (uuids : ℕ → ℕ) :
    Except LeaseStoreError (LeaseReleaseResult × CoordinationTables) := do
  checkArguments leaseId holder none
  match coordinationReleaseLease t leaseId holder clock uuids with
  | .error _ => return (⟨false,some .backendUnavailable⟩,t)
  | .ok (answer,after) => return (answer,after)

/-- What `query` sends: the page has its default limit and a cursor in whole seconds. -/
def query (q : LeaseQuery) (clock : ℤ) : Except LeaseStoreError (List ConsiliencyLease) := do
  let (limit,cursor) ← (validateCoordinationPage q.page).elim (.error .validation) .ok
  match coordinationQueryLeases t { q with scope := q.scope.map normalizeLeaseScope } limit cursor clock with
  | .error e => throw e.cause
  | .ok leases => (leases.mapM consiliencyLeaseSchema).elim (.error .corrupt) .ok

def expire (clock : ℤ) (uuids : ℕ → ℕ) : Except LeaseStoreError (ℕ × CoordinationTables) :=
  match coordinationExpireLeases t clock uuids with
  | .error e => .error e.cause
  | .ok answer => .ok answer

/-- The tables after an operation: what it committed, if it got that far. -/
def committed {ρ : Type} : Except LeaseStoreError (ρ × CoordinationTables) → CoordinationTables
  | .ok (_,after) => after
  | .error _ => t

/-- The tables after an operation of the interface at its clock reading. -/
def step (uuids : ℕ → ℕ) : LeaseStoreAction → CoordinationTables
  | .acquire request prepared clock uuid => committed t (acquire t request prepared clock uuid uuids)
  | .renew leaseId holder ttl _ clock => committed t (renew t leaseId holder ttl clock uuids)
  | .release leaseId holder _ clock => committed t (release t leaseId holder clock uuids)
  | .query _ _ => t
  | .expire instant => committed t (expire t instant uuids)

end SupabaseLeaseStore
end OmniagentPlus.WorktreeLeasing
