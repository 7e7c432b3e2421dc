import OmniagentPlus.StateLedger.InboxPages
import OmniagentPlus.WorktreeLeasing.LeasePage
import OmniagentPlus.WorktreeLeasing.LeaseRegistry

/-! `listActiveLeases` of the worktree lease manager, and the walks over the pages of leases and messages. -/
namespace OmniagentPlus.WorktreeLeasing
open OmniagentPlus.Foundation OmniagentPlus.CoreContracts OmniagentPlus.StateLedger

/-- The text of a date-time: one that `toISOString` writes of an instant, or another form that the
schema takes. -/
inductive InstantText
  | iso (instant : ℤ)
  | other (instant : ℤ)
  deriving DecidableEq, Repr

/-- An instant that `toISOString` writes with a year of four digits, and no sign before it. -/
def isoInstant (t : ℤ) : Bool := decide (-62167219200000 ≤ t ∧ t ≤ 253402300799999)

/-- `z.string().datetime({ offset: true })` -/
def InstantText.accepted : InstantText → Bool
  | iso instant => isoInstant instant
  | other _ => true

def InstantText.instant : InstantText → ℤ
  | iso instant => instant
  | other instant => instant

/-- `localeCompare` of what `toISOString` writes: signs sort before digits, `-` before `+`. -/
def compareInstants (a b : ℤ) : Ordering := (compare (isoInstant a).toNat (isoInstant b).toNat).then (compare a b)

/-- The place of the first character among code units: `+`, `-`, a digit. -/
def leadingUnit (t : ℤ) : ℕ := if isoInstant t then 2 else if t < 0 then 1 else 0

/-- `>` of what `toISOString` writes. A date-time with an offset names an instant at most a few days from
a year of four digits, so that two signed years of one sign are one year. -/
def isoAfter (a b : ℤ) : Bool := decide (leadingUnit b < leadingUnit a ∨ leadingUnit a = leadingUnit b ∧ b < a)

/-- `Buffer.compare` of two ids in UTF-8, which is the order of their characters. -/
def compareLeaseIds (a b : String) : Ordering := compare (a.toList.map Char.toNat) (b.toList.map Char.toNat)

structure LeasePageOptions where
  limit : Option ℤ
  cursor : Option (InstantText × String)
  deriving DecidableEq, Repr

structure LeaseTuple where
  acquiredAt : ℤ
  id : String
  deriving DecidableEq, Repr

def compareLeaseTuple (a b : LeaseTuple) : Ordering :=
  (compareInstants a.acquiredAt b.acquiredAt).then (compareLeaseIds a.id b.id)

/-- An accepted lease's `acquiredAt` is a number. -/
def activeTuple (lease : WorktreeLease) : LeaseTuple := ⟨lease.acquiredAt.getD 0,lease.id⟩

/-- What comes after a cursor. -/
def afterCursor (cursor : LeaseTuple) (lease : WorktreeLease) : Bool :=
  isoAfter (activeTuple lease).acquiredAt cursor.acquiredAt ||
    (activeTuple lease).acquiredAt == cursor.acquiredAt && compareLeaseIds lease.id cursor.id == .gt

/-- `listActiveLeases`; its leases give `acquiredAt` as `toISOString` writes it. -/
def listActiveLeases (registry : WorktreeLeaseRegistry) (options : LeasePageOptions) :
    Except LeaseError (List WorktreeLease) := do
  let limit := options.limit.getD 100
  if limit < 1 ∨ 500 < limit then throw (.leasing .invalidLimit)
  if options.cursor.any fun c => !c.1.accepted || c.2 == "" then throw .schema
  if !registry.allowed then throw .schema
  if !registry.identified then throw (.leasing .corruptRegistry)
  let leases := (registry.active.map (·.lease)).mergeSort fun a b => compareLeaseTuple (activeTuple a) (activeTuple b) != .gt
  return (leases.filter fun lease => options.cursor.all fun c => afterCursor ⟨c.1.instant,c.2⟩ lease).take limit.toNat

instance transLeaseTuple : Std.TransCmp compareLeaseTuple :=
  inferInstanceAs (Std.TransCmp (compareLex
    (compareLex (compareOn fun a : LeaseTuple => (isoInstant a.acquiredAt).toNat) (compareOn fun a => a.acquiredAt))
    (compareOn fun a => a.id.toList.map Char.toNat)))

section Manager
variable {registry : WorktreeLeaseRegistry}

/-- The leases that are listed on the pages together. -/
def activeLeases (registry : WorktreeLeaseRegistry) : List WorktreeLease := registry.active.map (·.lease)

end Manager

section Store
variable {file : Option LocalLeaseStoreState} {q : LeaseQuery} {clock : ℤ} {state : LocalLeaseStoreState}

end Store

/-- An active lease that was acquired at a time. -/
def acquiredRecord (id : String) (acquiredAt : ℤ) : StoredLeaseRecord where
  lease := ⟨id,"token","repo",["work"],"main",.exclusiveWrite,⟨1,"host",none,none⟩,some acquiredAt,some acquiredAt,
    some (acquiredAt + 3600000),.unknown,none⟩
  request := ⟨"repo",none,none,"main","task",.exclusiveWrite,none,none⟩
  repoRoot := none
  branchHead := none
  status := .active
  releasedAt := none
  updatedAt := some acquiredAt
  managedRoot := none
  pathIdentity := none

end OmniagentPlus.WorktreeLeasing
