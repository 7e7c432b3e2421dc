import OmniagentPlus.Foundation.Transition
import OmniagentPlus.WorktreeLeasing.LeaseClaims

/-! No two leases have a branch or a path in common, at every point of every run. -/
namespace OmniagentPlus.WorktreeLeasing
open OmniagentPlus.Foundation OmniagentPlus.CoreContracts OmniagentPlus.StateLedger
variable {P : Type}

structure StoredLeaseRecord.Separate (q q' : StoredLeaseRecord) : Prop where
  branch : q.lease.repoId = q'.lease.repoId → q.lease.branchName ≠ q'.lease.branchName
  path : q.lease.path ≠ q'.lease.path

theorem StoredLeaseRecord.Separate.symm {q q' : StoredLeaseRecord} (h : q.Separate q') : q'.Separate q :=
  ⟨fun hr hb => h.branch hr.symm hb.symm,fun hp => h.path hp.symm⟩

/-- The directory that was found at a lease's path is at that path. -/
def StoredLeaseRecord.InPlace (q : StoredLeaseRecord) : Prop := q.claimedPath = q.lease.path

theorem separate_scoped : WorktreeLeaseRegistry.Scoped StoredLeaseRecord.InPlace StoredLeaseRecord.Separate where
  claimed q q' hsame hq := by
    rw [StoredLeaseRecord.InPlace, hsame.claimedPath, hsame.path]
    exact hq
  separate q q' p p' hsame hsame' h := by
    refine ⟨?_,?_⟩
    · rw [hsame.repoId, hsame.branchName, hsame'.repoId, hsame'.branchName]
      exact h.branch
    · rw [hsame.path, hsame'.path]
      exact h.path
  symm _ _ h := h.symm

open WorktreeLeaseManager (LeaseAction step)

section Runs
variable {c : LeaseFormat}

/-- A granted acquisition is apart from every claim. -/
theorem Granted.separate {x : LeaseAction P} {j : LeaseJournal} {p : PendingLeaseMutation}
    (h : Granted c x j p) {id : String} {q : StoredLeaseRecord} (hq : j.registry.Claims id q)
    (hpath : q.claimedPath = q.lease.path) : q.Separate p.record := by
  rcases hq with ⟨hq,hstatus⟩ | ⟨p',hp',-,rfl⟩
  · have hactive : q ∈ j.registry.active :=
      List.mem_filter.mpr ⟨(Dictionary.mem_values_iff _ _).mpr ⟨id,hq⟩,by simp [hstatus]⟩
    exact ⟨h.branchFree q hactive,hpath ▸ h.pathFree q hactive⟩
  · have hvalue := (Dictionary.mem_values_iff _ _).mpr ⟨id,hp'⟩
    exact ⟨h.branchUnclaimed p' hvalue,hpath ▸ h.pathUnclaimed p' hvalue⟩

variable [DecidableEq P]

/-- In every state of every run, whatever the operations and wherever they are cut short: two
leases that are active, or that a waiting intent would make so, have neither a branch nor a
path in common, for any file system that stays as it is. -/
theorem worktreeLeases_exclusive (c : LeaseFormat) {readPathIdentity : Path → Except LeaseError (Option PathIdentity)}
    (hstatic : StaticPaths readPathIdentity) {xs : List (LeaseAction P)}
    (hworld : ∀ x ∈ xs, x.surroundings.world.readPathIdentity = readPathIdentity) {s : LeaseManagerState P}
    (h : run (step c) LeaseManagerState.init xs = some s) {i j : String} {q q' : StoredLeaseRecord}
    (hq : s.stored.Claims i q) (hq' : s.stored.Claims j q') (hij : i ≠ j) :
    (q.lease.repoId,q.lease.branchName) ≠ (q'.lease.repoId,q'.lease.branchName) ∧ q.lease.path ≠ q'.lease.path := by
  have hinit : (LeaseManagerState.init : LeaseManagerState P).ledger.Sound (.core c.toLedgerFormat) ∧
      (LeaseManagerState.init : LeaseManagerState P).journal.registry.Exclusive StoredLeaseRecord.InPlace
        StoredLeaseRecord.Separate :=
    ⟨AppendOnlyStore.State.Sound.init,WorktreeLeaseRegistry.exclusive_empty⟩
  have hrun := run_invariant_of_meets (step c) (P := fun _ x => x.surroundings.world.readPathIdentity = readPathIdentity)
    (I := fun s => s.ledger.Sound (.core c.toLedgerFormat) ∧ s.journal.registry.Exclusive StoredLeaseRecord.InPlace
      StoredLeaseRecord.Separate)
    (fun s x t hs hx hstep => WorktreeLeaseManager.step_invariant
      (fun _ _ hmove => exclusive_move separate_scoped
        (fun p hp => ⟨hp.claimed (hx ▸ hstatic),fun _ _ hq hpath => hp.separate hq hpath⟩) hmove) hs.1 False.elim hs.2 hstep)
    hinit (meets_of_forall (step c) hworld _) h
  have hseparate := hrun.2.separate i j q q' hq hq' hij
  refine ⟨fun hbranch => ?_,hseparate.path⟩
  obtain ⟨hrepo,hname⟩ := Prod.mk.inj hbranch
  exact hseparate.branch hrepo hname

end Runs

section Sample
open WorktreeLeaseManager

def sampleUUID (n : ℕ) : String := String.ofList (List.replicate (n + 1) 'u')

theorem sampleUUID_injective : Function.Injective sampleUUID := by
  intro m n h
  have hlength := congrArg (fun s : String => s.toList.length) h
  simpa [sampleUUID] using hlength

def sampleLeaseFormat : LeaseFormat where
  toStoreFormat := AppendOnlyStore.sampleFormat
  randomUUID := sampleUUID
  distinct := sampleUUID_injective

/-- A file system with nothing in it but the root. -/
def samplePaths (path : Path) : Except LeaseError (Option PathIdentity) :=
  .ok (if path = [] then some ⟨[],0,0⟩ else none)

theorem samplePaths_static : StaticPaths samplePaths where
  root := ⟨⟨[],0,0⟩,rfl⟩
  real p i h := by
    simp only [samplePaths, Except.ok.injEq] at h
    split at h
    · cases h
      rfl
    · cases h
  missing p i name h _ := by simp [samplePaths]
  below p name _ := by simp [samplePaths]

def sampleWorld : World where
  readPathIdentity := samplePaths
  readGitWorktreeRegistration _ _ := .ok none
  checkProcessLiveness _ _ := .missing
  verifyGitWorktreeRepository _ _ := .ok false
  inspectWorktreeDirtyState _ := .ok .unknown

def sampleSurroundings (process : Bool) : Surroundings Bool where
  process
  otherWriter := !process
  options := ⟨none,false,none,1000⟩
  clock := some 0
  workingDirectory := []
  world := sampleWorld
  removalWorld _ := sampleWorld
  torn := 4

def sampleAcquire (branchName : String) (path : Path) : LeaseOperation :=
  .acquire ⟨"repo",none,none,branchName,"task",.exclusiveWrite,none,none⟩
    ⟨⟨1,"host",none,none⟩,some path,none,none,some 0,none,none⟩

/-- An acquisition that ends with its process once it is staged, one of the same path by
another process, and one of another path. -/
def sampleAcquisitions : List (LeaseAction Bool) :=
  [⟨sampleSurroundings true,sampleAcquire "a" ["w","a"],.crashes 8⟩,
   ⟨sampleSurroundings false,sampleAcquire "b" ["w","a"],.returns⟩,
   ⟨sampleSurroundings false,sampleAcquire "b" ["w","b"],.returns⟩]

theorem worktreeLeases_exclusive_sample : ∃ s q q', run (step sampleLeaseFormat) LeaseManagerState.init sampleAcquisitions =
    some s ∧ s.stored.active = [q,q'] ∧ q.lease.path = ["w","a"] ∧
    (q.lease.repoId,q.lease.branchName) ≠ (q'.lease.repoId,q'.lease.branchName) ∧ q.lease.path ≠ q'.lease.path := by
  have hshape : (run (step sampleLeaseFormat) LeaseManagerState.init sampleAcquisitions).map (fun s =>
      (s.stored.records.entries.map fun e => (e.1,e.2.status,e.2.lease.path))) =
      some [("u",.active,["w","a"]),("uuuu",.active,["w","b"])] := by
    decide +kernel
  obtain ⟨s,hs,hshape⟩ := Option.map_eq_some_iff.mp hshape
  match hentries : s.stored.records.entries with
  | [(i,q),(j,q')] =>
    rw [hentries] at hshape
    simp only [List.map_cons, List.map_nil, List.cons.injEq, Prod.mk.injEq, and_true] at hshape
    obtain ⟨⟨rfl,hq,hpath⟩,rfl,hq',-⟩ := hshape
    have hget : ∀ id r, (id,r) ∈ s.stored.records.entries → s.stored.records.get? id = some r :=
      fun id r hr => (Dictionary.mem_entries_iff _ _ _).mp hr
    refine ⟨s,q,q',hs,?_,hpath,?_⟩
    · simp [WorktreeLeaseRegistry.active, Dictionary.values, hentries, hq, hq']
    · exact worktreeLeases_exclusive sampleLeaseFormat samplePaths_static (by simp [sampleAcquisitions, sampleSurroundings, sampleWorld]) hs
        (Or.inl ⟨hget "u" q (by simp [hentries]),hq⟩) (Or.inl ⟨hget "uuuu" q' (by simp [hentries]),hq'⟩) (by decide)
  | [] => simp [hentries] at hshape
  | [_] => simp [hentries] at hshape
  | _ :: _ :: _ :: _ => simp [hentries] at hshape

end Sample
end OmniagentPlus.WorktreeLeasing
