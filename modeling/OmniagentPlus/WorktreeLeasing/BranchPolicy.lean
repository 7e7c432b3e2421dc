import OmniagentPlus.CoreContracts.Worktree

/-! `branch-policy.ts`, and the branch names of `mounted-workspace.ts`. -/
namespace OmniagentPlus.WorktreeLeasing
open OmniagentPlus.CoreContracts

/-- The characters that the last pattern of `validateBranchName` allows. -/
def branchCharacter (c : Char) : Bool := c.isAlphanum || c == '.' || c == '_' || c == '/' || c == '-'

/-- `branchName.includes("..")` -/
def hasDoubleDot : List Char → Bool
  | a :: b :: rest => (a == '.' && b == '.') || hasDoubleDot (b :: rest)
  | _ => false

/-- `validateBranchName`: whether the name passes. Of its tests on single characters only those
on dots and slashes are left to do once every character is one of the allowed. -/
def validateBranchName (branchName : String) : Bool :=
  let cs := branchName.toList
  !cs.isEmpty && cs.head? != some '/' && cs.getLast? != some '/' && !hasDoubleDot cs && cs.all branchCharacter

/-- Slashes become dashes, and runs of dashes one dash. -/
def squeezeDashes : List Char → List Char
  | [] => []
  | c :: cs =>
    let d := if c = '/' then '-' else c
    let rest := squeezeDashes cs
    if d = '-' ∧ rest.head? = some '-' then rest else d :: rest

def branchNameToSlug (branchName : String) : String := String.ofList (squeezeDashes branchName.toList)

structure SequentialContinuationEvidence where
  taskId : String
  repoId : String
  branchName : String
  path : Path
  dirtyState : DirtyState
  branchHeadMatches : Bool
  deriving DecidableEq, Repr

inductive BranchCollisionReason
  | branchCollisionActiveLease
  | noBranchCollision
  | sequentialContinueRequiresExplicitReuse
  | missingSequentialMetadata
  | sequentialTaskMismatch
  | sequentialDirtyWorktree
  | sequentialBranchHeadMismatch
  | sequentialContinueReusesCleanWorktree
  deriving DecidableEq, Repr

structure BranchCollisionDecision where
  allowed : Bool
  reason : BranchCollisionReason
  reusePath : Option Path
  deriving DecidableEq, Repr

def BranchCollisionDecision.refused (reason : BranchCollisionReason) : BranchCollisionDecision :=
  ⟨false,reason,none⟩

/-- `evaluateBranchCollision`, none where the branch name is invalid. -/
def evaluateBranchCollision (request : WorktreeLeaseRequest) (activeLeases : List WorktreeLease)
    (previousSequentialCandidate : Option SequentialContinuationEvidence) : Option BranchCollisionDecision :=
  if !validateBranchName request.branchName then none
  else
    let collisions := activeLeases.filter fun lease =>
      lease.repoId == request.repoId && lease.branchName == request.branchName
    if !collisions.isEmpty then some (.refused .branchCollisionActiveLease)
    else if request.mode != .sequentialContinue then some ⟨true,.noBranchCollision,none⟩
    else if request.allowReuseExisting != some true then some (.refused .sequentialContinueRequiresExplicitReuse)
    else match previousSequentialCandidate with
      | none => some (.refused .missingSequentialMetadata)
      | some candidate =>
        if !(candidate.taskId == request.taskId && candidate.repoId == request.repoId &&
            candidate.branchName == request.branchName) then some (.refused .sequentialTaskMismatch)
        else if candidate.dirtyState != .clean then some (.refused .sequentialDirtyWorktree)
        else if !candidate.branchHeadMatches then some (.refused .sequentialBranchHeadMismatch)
        else some ⟨true,.sequentialContinueReusesCleanWorktree,some candidate.path⟩

/-- What an allowing decision was made on. -/
theorem evaluateBranchCollision_allowed {request : WorktreeLeaseRequest} {activeLeases : List WorktreeLease}
    {candidate : Option SequentialContinuationEvidence} {decision : BranchCollisionDecision}
    (h : evaluateBranchCollision request activeLeases candidate = some decision) (ha : decision.allowed = true) :
    validateBranchName request.branchName = true ∧
    (∀ lease ∈ activeLeases, lease.repoId = request.repoId → lease.branchName ≠ request.branchName) ∧
    (request.mode = .sequentialContinue → ∃ e, candidate = some e ∧ e.dirtyState = .clean ∧
      e.branchHeadMatches = true) := by
  unfold evaluateBranchCollision at h
  split at h
  · cases h
  next hvalid =>
  dsimp only at h
  split at h
  · cases h
    cases ha
  next hcollisions =>
  refine ⟨by simpa using hvalid,fun lease hl hrepo hbranch => ?_,fun hmode => ?_⟩
  · have hmem : lease ∈ activeLeases.filter fun lease =>
        lease.repoId == request.repoId && lease.branchName == request.branchName :=
      List.mem_filter.mpr ⟨hl,by simp [hrepo, hbranch]⟩
    simp only [Bool.not_eq_true', Bool.not_eq_false] at hcollisions
    rw [List.isEmpty_iff.mp hcollisions] at hmem
    cases hmem
  · rw [hmode, if_neg (by simp)] at h
    split at h
    · cases h
      cases ha
    split at h
    · cases h
      cases ha
    next e =>
    split at h
    · cases h
      cases ha
    split at h
    · cases h
      cases ha
    next hdirty =>
    split at h
    · cases h
      cases ha
    next hhead =>
    exact ⟨e,rfl,by simpa using hdirty,by simpa using hhead⟩

end OmniagentPlus.WorktreeLeasing
