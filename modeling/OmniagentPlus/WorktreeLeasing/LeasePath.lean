import OmniagentPlus.WorktreeLeasing.LeaseRegistry

/-! What the lease manager asks of the world: paths, git worktrees and processes. Paths are
absolute and resolved against the working directory. -/
namespace OmniagentPlus.WorktreeLeasing
open OmniagentPlus.CoreContracts

inductive ProcessLiveness
  | alive
  | missing
  | differentHost
  | unknown
  deriving DecidableEq, Repr

/-- The answers of one moment. A registration is the branch that git has a worktree at a
path registered for, if it is on one. -/
structure World where
  readPathIdentity : Path → Except LeaseError (Option PathIdentity)
  readGitWorktreeRegistration : Path → Path → Except LeaseError (Option (Option String))
  checkProcessLiveness : ℕ → String → ProcessLiveness
  verifyGitWorktreeRepository : Path → Path → Except LeaseError Bool
  inspectWorktreeDirtyState : Path → Except LeaseError DirtyState

section Paths
variable (w : World)

/-- The loop of `canonicalLeasePath`, on the reversed segments of `parent`. It ends because
the root is there; where it is not, it does not end. -/
def canonicalFrom : List String → Path → Except LeaseError Path
  | [], missing => do
    match ← w.readPathIdentity [] with
    | some identity => .ok (identity.path ++ missing)
    | none => .error (.filesystem .other)
  | name :: parent, missing => do
    match ← w.readPathIdentity (name :: parent).reverse with
    | some identity => .ok (identity.path ++ missing)
    | none => canonicalFrom parent (name :: missing)

def canonicalLeasePath (path : Path) : Except LeaseError Path := canonicalFrom w path.reverse []

/-- The walk of `validateManagedPath` down the components below the root. -/
def validateComponents (current : Path) : List String → Except LeaseError Unit
  | [] => .ok ()
  | component :: rest => do
    match ← w.readPathIdentity (current ++ [component]) with
    | none => .ok ()
    | some identity =>
      if identity.path ≠ current ++ [component] then .error (.leasing .unsafePath)
      else validateComponents (current ++ [component]) rest

def validateManagedPath (path : Path) (root : PathIdentity) : Except LeaseError Unit := do
  let actual ← w.readPathIdentity root.path
  if actual ≠ some root then .error (.leasing .managedRootChanged)
  else if path = root.path ∨ ¬ root.path <+: path then .error (.leasing .outsideManagedRoot)
  else validateComponents w root.path (path.drop root.path.length)

/-- What `replayPending` finds out about a prepared removal. -/
inductive RemovalInspection
  | absent
  | noEffect
  /-- neither can be told: the intent stays -/
  | uncertain
  deriving DecidableEq, Repr

/-- The errors at which `replayPending` leaves an intent as it is. -/
def inspectionError : LeaseError → Bool
  | .leasing .unsafePath | .leasing .gitCommandFailed => true
  | .filesystem .other => false
  | .filesystem _ => true
  | _ => false

/-- The `try` block of `replayPending`. -/
def inspectRemovalEffect (intent : PendingLeaseMutation) (removal : LeaseRemoval) :
    Except LeaseError RemovalInspection := do
  let lease := intent.record.lease
  let path ← w.readPathIdentity lease.path
  match intent.record.repoRoot with
  | none => .ok .uncertain
  | some repoRoot =>
    let registration ← w.readGitWorktreeRegistration repoRoot lease.path
    match path with
    | none =>
      if registration.any (· != some lease.branchName) ||
          w.checkProcessLiveness lease.holder.processId lease.holder.host != .missing then .ok .uncertain
      else .ok .absent
    | some path =>
      if path == removal.identity && registration == some (some lease.branchName) then
        if ← w.verifyGitWorktreeRepository repoRoot path.path then
          if (← w.inspectWorktreeDirtyState path.path) == .clean then .ok .noEffect else .ok .uncertain
        else .ok .uncertain
      else .ok .uncertain

def inspectRemoval (intent : PendingLeaseMutation) (removal : LeaseRemoval) : Except LeaseError RemovalInspection :=
  match inspectRemovalEffect w intent removal with
  | .ok inspection => .ok inspection
  | .error e => if inspectionError e then .ok .uncertain else .error e

end Paths

/-- `join(base, text)` for an absolute base. -/
def joinPath (base : Path) (text : String) : Path :=
  (text.splitOn "/").foldl (fun path segment =>
    if segment = "" ∨ segment = "." then path else if segment = ".." then path.dropLast else path ++ [segment]) base

/-- A file system that does not change: the root is there, a real path is its own real path,
and what a path lacks its real path lacks. -/
structure StaticPaths (readPathIdentity : Path → Except LeaseError (Option PathIdentity)) : Prop where
  root : ∃ i, readPathIdentity [] = .ok (some i)
  real : ∀ p i, readPathIdentity p = .ok (some i) → readPathIdentity i.path = .ok (some i)
  missing : ∀ p i name, readPathIdentity p = .ok (some i) → readPathIdentity (p ++ [name]) = .ok none →
    readPathIdentity (i.path ++ [name]) = .ok none
  below : ∀ p name, readPathIdentity p = .ok none → readPathIdentity (p ++ [name]) = .ok none

section Canonical
variable {w : World}

theorem StaticPaths.below_append (h : StaticPaths w.readPathIdentity) {p : Path}
    (hp : w.readPathIdentity p = .ok none) (q : Path) : w.readPathIdentity (p ++ q) = .ok none := by
  induction q generalizing p with
  | nil => rwa [List.append_nil]
  | cons name q ih =>
    rw [List.append_cons]
    exact ih (h.below p name hp)

/-- A canonical path is taken by nothing, or by the directory that it names. -/
theorem canonicalLeasePath_claimed (h : StaticPaths w.readPathIdentity) {path canonical : Path}
    (hc : canonicalLeasePath w path = .ok canonical) {identity : Option PathIdentity}
    (hi : w.readPathIdentity canonical = .ok identity) : identity.elim canonical (·.path) = canonical := by
  have hfrom : ∀ (parent : List String) (missing : Path),
      (∀ name rest, missing = name :: rest → w.readPathIdentity (parent.reverse ++ [name]) = .ok none) →
      canonicalFrom w parent missing = .ok canonical → identity.elim canonical (·.path) = canonical := by
    have hfound : ∀ (parent missing : Path) (i : PathIdentity),
        (∀ name rest, missing = name :: rest → w.readPathIdentity (parent ++ [name]) = .ok none) →
        w.readPathIdentity parent = .ok (some i) → i.path ++ missing = canonical →
        identity.elim canonical (·.path) = canonical := by
      rintro parent missing i hmissing hparent rfl
      cases missing with
      | nil =>
        rw [List.append_nil, h.real parent i hparent] at hi
        obtain rfl := Except.ok.inj hi
        simp
      | cons name rest =>
        have hname := h.missing parent i name hparent (hmissing name rest rfl)
        have hall := h.below_append hname rest
        rw [List.append_assoc, List.singleton_append] at hall
        obtain rfl := Except.ok.inj (hall.symm.trans hi)
        rfl
    intro parent
    induction parent with
    | nil =>
      intro missing hmissing hcanonical
      obtain ⟨i,hroot⟩ := h.root
      rw [canonicalFrom, hroot] at hcanonical
      exact hfound [] missing i hmissing hroot (Except.ok.inj hcanonical)
    | cons name parent ih =>
      intro missing hmissing hcanonical
      rw [canonicalFrom] at hcanonical
      cases hread : w.readPathIdentity (name :: parent).reverse with
      | error e =>
        rw [hread] at hcanonical
        cases hcanonical
      | ok found =>
        rw [hread] at hcanonical
        cases found with
        | some i => exact hfound _ missing i hmissing hread (Except.ok.inj hcanonical)
        | none =>
          refine ih (name :: missing) (fun n rest hn => ?_) hcanonical
          cases hn
          rw [List.reverse_cons] at hread
          exact hread
  exact hfrom path.reverse [] (fun _ _ hn => by cases hn) hc

end Canonical
end OmniagentPlus.WorktreeLeasing
