import Mathlib.Tactic.Common
import Mathlib.Data.Nat.Notation
import Mathlib.Data.Int.Notation

/-! `worktree.ts`: worktree leases and the requests they answer. Paths are lists of segments. -/
namespace OmniagentPlus.CoreContracts

/-- What `Date.parse` makes of a timestamp: milliseconds, or not a number. -/
abbrev Instant := Option ℤ

/-- `left >= right`, false where either is not a number. -/
def Instant.atOrAfter (left : Instant) (right : ℤ) : Bool := left.any fun t => decide (right ≤ t)

/-- `left > right`, false where either is not a number. -/
def Instant.after (left : Instant) (right : ℤ) : Bool := left.any fun t => decide (right < t)

/-- `left < right` on two timestamps. -/
def Instant.before : Instant → Instant → Bool
  | some left, some right => decide (left < right)
  | _, _ => false

/-- `left <= right` on two timestamps. -/
def Instant.notAfter : Instant → Instant → Bool
  | some left, some right => decide (left ≤ right)
  | _, _ => false

theorem Instant.notAfter_iff {a b : Instant} : a.notAfter b = true ↔ ∃ s t, a = some s ∧ b = some t ∧ s ≤ t := by
  cases a with
  | none => simp [notAfter]
  | some s => cases b <;> simp [notAfter]

theorem Instant.notAfter_refl {a : Instant} (h : a.isSome) : a.notAfter a = true := by
  obtain ⟨t,rfl⟩ := Option.isSome_iff_exists.mp h
  simp [notAfter]

theorem Instant.notAfter_trans {a b d : Instant} (hab : a.notAfter b = true) (hbd : b.notAfter d = true) :
    a.notAfter d = true := by
  obtain ⟨s,t,rfl,rfl,hst⟩ := notAfter_iff.mp hab
  obtain ⟨t',u,ht,rfl,htu⟩ := notAfter_iff.mp hbd
  cases ht
  exact notAfter_iff.mpr ⟨s,u,rfl,rfl,by omega⟩

theorem Instant.notAfter_of_before {a b : Instant} (h : a.before b = true) : a.notAfter b = true := by
  cases a with
  | none => cases h
  | some s =>
    cases b with
    | none => cases h
    | some t =>
      simp only [before, decide_eq_true_eq] at h
      simp only [notAfter, decide_eq_true_eq]
      omega

/-- Of two times, one is before the other or not after it. -/
theorem Instant.notAfter_of_not_before {a b : Instant} (ha : a.isSome) (hb : b.isSome) (h : a.before b = false) :
    b.notAfter a = true := by
  obtain ⟨s,rfl⟩ := Option.isSome_iff_exists.mp ha
  obtain ⟨t,rfl⟩ := Option.isSome_iff_exists.mp hb
  simp only [before, decide_eq_false_iff_not] at h
  simp only [notAfter, decide_eq_true_eq]
  omega

theorem Instant.not_before_of_notAfter {a b : Instant} (h : b.notAfter a = true) : a.before b = false := by
  obtain ⟨s,t,rfl,rfl,hst⟩ := notAfter_iff.mp h
  simp only [before, decide_eq_false_iff_not]
  omega

/-- A path by its segments. -/
abbrev Path := List String

inductive WorktreeLeaseMode
  | exclusiveWrite
  | readOnly
  | sequentialContinue
  deriving DecidableEq, Repr

inductive DirtyState
  | clean
  | dirty
  | unknown
  deriving DecidableEq, Repr

inductive ReleaseCause
  | holderRelease
  | reconciliation
  | recovery
  deriving DecidableEq, Repr

structure WorktreeLeaseRelease where
  cause : ReleaseCause
  actor : String
  releasedAt : Instant
  deriving DecidableEq, Repr

structure LeaseHolder where
  processId : ℕ
  host : String
  sessionId : Option String
  turnId : Option String
  deriving DecidableEq, Repr

structure WorktreeLease where
  id : String
  fencingToken : String
  repoId : String
  path : Path
  branchName : String
  mode : WorktreeLeaseMode
  holder : LeaseHolder
  acquiredAt : Instant
  renewedAt : Instant
  expiresAt : Instant
  dirtyState : DirtyState
  release : Option WorktreeLeaseRelease
  deriving DecidableEq, Repr

structure WorktreeLeaseRequest where
  repoId : String
  repoRoot : Option Path
  baseRef : Option String
  branchName : String
  taskId : String
  mode : WorktreeLeaseMode
  allowReuseExisting : Option Bool
  requestedTtlSeconds : Option ℤ
  deriving DecidableEq, Repr

/-- `worktreeLeaseRequestSchema` -/
def WorktreeLeaseRequest.allowed (r : WorktreeLeaseRequest) : Bool :=
  r.repoId != "" && r.baseRef != some "" && r.branchName != "" && r.taskId != "" &&
    r.requestedTtlSeconds.all (fun ttl => decide (0 < ttl))

/-- `worktreeLeaseReleaseSchema` -/
def WorktreeLeaseRelease.allowed (r : WorktreeLeaseRelease) : Bool :=
  r.actor != "" && decide (r.actor.utf8ByteSize ≤ 280) && r.releasedAt.isSome

/-- `worktreeLeaseSchema`; a timestamp that has the form of one is a number. -/
def WorktreeLease.allowed (l : WorktreeLease) : Bool :=
  l.id != "" && l.fencingToken != "" && l.repoId != "" && l.branchName != "" && l.holder.host != "" &&
    l.holder.sessionId != some "" && l.holder.turnId != some "" && l.acquiredAt.isSome && l.renewedAt.isSome &&
    l.expiresAt.isSome && l.release.all fun r => r.allowed && l.expiresAt == r.releasedAt &&
      l.renewedAt == r.releasedAt && !r.releasedAt.before l.acquiredAt

/-- `createWorktreeLeaseRelease`, none where the schema refuses the lease. -/
def createWorktreeLeaseRelease (lease : WorktreeLease) (release : WorktreeLeaseRelease) : Option WorktreeLease :=
  let released : WorktreeLease := { lease with
    renewedAt := release.releasedAt
    expiresAt := release.releasedAt
    release := some release }
  if released.allowed then some released else none

end OmniagentPlus.CoreContracts
