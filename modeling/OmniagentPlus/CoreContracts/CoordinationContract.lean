import OmniagentPlus.Foundation.Text

/-! `coordination-contract.ts`: lease scopes, lease records and their schema checks. An
instant is a number of milliseconds, a contract timestamp a number of whole seconds. -/
namespace OmniagentPlus.CoreContracts
open OmniagentPlus.Foundation

inductive Granularity
  | repo
  | pathSet
  | symbol
  deriving DecidableEq, Repr

inductive LeaseMode
  | soft
  | hard
  deriving DecidableEq, Repr

def slash : UInt16 := 0x2F
def backslash : UInt16 := 0x5C
def colon : UInt16 := 0x3A
def dot : UInt16 := 0x2E

structure LeaseScope where
  granularity : Granularity
  selector : List Text
  deriving DecidableEq, Repr

def isUpper (u : UInt16) : Bool := decide (0x41 ≤ u ∧ u ≤ 0x5A)
def isLower (u : UInt16) : Bool := decide (0x61 ≤ u ∧ u ≤ 0x7A)
def isDigit (u : UInt16) : Bool := decide (0x30 ≤ u ∧ u ≤ 0x39)

/-- `/^[A-Za-z]:[\\/]/` -/
def isDriveQualified : Text → Bool
  | u :: v :: w :: _ => (isUpper u || isLower u) && v == colon && (w == backslash || w == slash)
  | _ => false

/-- `/(^|\/)\.\.($|\/)/`: some piece between slashes is `..`. -/
def hasParentSegment (t : Text) : Bool := (t.splitOn slash).contains [dot,dot]

/-- The checks on one selector of `consiliencyLeaseScopeSchema`. -/
def selectorAllowed (t : Text) : Bool :=
  !t.isEmpty && !([slash].isPrefixOf t) && !hasParentSegment t && !isDriveQualified t

/-- `consiliencyLeaseScopeSchema` -/
def LeaseScope.allowed (s : LeaseScope) : Bool := !s.selector.isEmpty && s.selector.all selectorAllowed

/-- `/^[a-z0-9][a-z0-9_.:-]*$/` -/
def leaseIdAllowed : Text → Bool
  | [] => false
  | u :: rest => (isLower u || isDigit u) &&
      rest.all fun v => isLower v || isDigit v || v == 0x5F || v == dot || v == colon || v == 0x2D

/-- `toContractTimestamp`: the milliseconds are cut off. -/
def toContractTimestamp (instant : ℤ) : ℤ := instant / 1000

/-- A contract timestamp that is printed with a year of four digits. -/
def isoTimestampSeconds (t : ℤ) : Bool := decide (-62167219200 ≤ t ∧ t ≤ 253402300799)

/-- What a lease record says before it is checked. -/
structure LeaseFields where
  lease_id : Text
  holder : Text
  acquired_at : ℤ
  ttl_seconds : ℤ
  heartbeat_at : ℤ
  mode : LeaseMode
  scope : LeaseScope
  phase : Text
  deriving DecidableEq, Repr

def LeaseFields.allowed (l : LeaseFields) : Bool :=
  leaseIdAllowed l.lease_id && !l.holder.isEmpty && isoTimestampSeconds l.acquired_at &&
    decide (1 ≤ l.ttl_seconds ∧ l.ttl_seconds ≤ 7200) && isoTimestampSeconds l.heartbeat_at &&
    l.scope.allowed && !l.phase.isEmpty

/-- A lease record that `consiliencyLeaseSchema` accepts. -/
structure ConsiliencyLease extends LeaseFields where
  allowed : toLeaseFields.allowed = true
  deriving DecidableEq

/-- `consiliencyLeaseSchema.parse` -/
def consiliencyLeaseSchema (l : LeaseFields) : Option ConsiliencyLease :=
  if h : l.allowed = true then some ⟨l,h⟩ else none

theorem consiliencyLeaseSchema_eq_some {l : LeaseFields} {lease : ConsiliencyLease} :
    consiliencyLeaseSchema l = some lease ↔ lease.toLeaseFields = l := by
  unfold consiliencyLeaseSchema
  constructor
  · intro h
    split at h
    · cases h
      rfl
    · cases h
  · rintro rfl
    rw [dif_pos lease.allowed]

theorem ConsiliencyLease.scope_allowed (l : ConsiliencyLease) : l.scope.allowed = true := by
  have h := l.allowed
  simp only [LeaseFields.allowed, Bool.and_eq_true] at h
  exact h.1.2

/-- `expiresAtForLease` -/
def expiresAtForLease (l : ConsiliencyLease) : ℤ := l.heartbeat_at + l.ttl_seconds

/-- `isLeaseExpired` -/
def isLeaseExpired (l : ConsiliencyLease) (now : ℤ) : Bool := decide (expiresAtForLease l ≤ now)

end OmniagentPlus.CoreContracts
