import OmniagentPlus.WorktreeLeasing.LeaseOperations

/-! What leases claim for themselves, and what is kept of it by every move: properties of each
claim, and of every two. -/
namespace OmniagentPlus.WorktreeLeasing
open OmniagentPlus.Foundation OmniagentPlus.CoreContracts OmniagentPlus.StateLedger
variable {P : Type} [DecidableEq P]

/-- What a lease keeps to itself, and the directory that was found there. -/
structure StoredLeaseRecord.SameScope (q q' : StoredLeaseRecord) : Prop where
  repoId : q.lease.repoId = q'.lease.repoId
  branchName : q.lease.branchName = q'.lease.branchName
  path : q.lease.path = q'.lease.path
  pathIdentity : q.pathIdentity = q'.pathIdentity

theorem StoredLeaseRecord.SameScope.claimedPath {q q' : StoredLeaseRecord} (h : q.SameScope q') :
    q.claimedPath = q'.claimedPath := by
  rw [StoredLeaseRecord.claimedPath, StoredLeaseRecord.claimedPath, h.path, h.pathIdentity]

namespace WorktreeLeaseRegistry
variable (r : WorktreeLeaseRegistry)

/-- A lease is active, or is acquired by an intent that waits. -/
def Claims (id : String) (q : StoredLeaseRecord) : Prop :=
  r.records.get? id = some q ∧ q.status = .active ∨
  ∃ p, r.pending.get? id = some p ∧ p.operation = .acquire ∧ p.record = q

/-- An intent that waits releases a lease, acquires one, or renews an active one. -/
def Grounded (id : String) (p : PendingLeaseMutation) : Prop :=
  p.record.status = .released ∨ p.operation = .acquire ∨
  ∃ q, r.records.get? id = some q ∧ q.status = .active ∧ p.record.SameScope q

/-- Every claim meets `G`, and every two of different leases `S`. -/
structure Exclusive (G : StoredLeaseRecord → Prop) (S : StoredLeaseRecord → StoredLeaseRecord → Prop) : Prop where
  claimed : ∀ id q, r.Claims id q → G q
  grounded : ∀ id p, r.pending.get? id = some p → r.Grounded id p
  separate : ∀ i j q q', r.Claims i q → r.Claims j q' → i ≠ j → S q q'

/-- `G` and `S` only look at what a lease keeps to itself. -/
structure Scoped (G : StoredLeaseRecord → Prop) (S : StoredLeaseRecord → StoredLeaseRecord → Prop) : Prop where
  claimed : ∀ q q', q.SameScope q' → G q' → G q
  separate : ∀ q q' p p', q.SameScope q' → p.SameScope p' → S q' p' → S q p
  symm : ∀ q q', S q q' → S q' q

section Kept
variable {r} {G : StoredLeaseRecord → Prop} {S : StoredLeaseRecord → StoredLeaseRecord → Prop}

/-- Where every claim was one before, the registry stays exclusive. -/
theorem Exclusive.of_claims (h : r.Exclusive G S) (hscoped : Scoped G S) {r' : WorktreeLeaseRegistry}
    (hclaims : ∀ id q, r'.Claims id q → ∃ q', r.Claims id q' ∧ q.SameScope q')
    (hgrounded : ∀ id p, r'.pending.get? id = some p → r'.Grounded id p) : r'.Exclusive G S where
  claimed id q hq := by
    obtain ⟨q',hq',hsame⟩ := hclaims id q hq
    exact hscoped.claimed q q' hsame (h.claimed id q' hq')
  grounded := hgrounded
  separate i j q p hq hp hij := by
    obtain ⟨q',hq',hsame⟩ := hclaims i q hq
    obtain ⟨p',hp',hsame'⟩ := hclaims j p hp
    exact hscoped.separate q q' p p' hsame hsame' (h.separate i j q' p' hq' hp' hij)

theorem exclusive_empty : empty.Exclusive G S where
  claimed id q hq := by
    rcases hq with ⟨hq,-⟩ | ⟨p,hp,-⟩
    · cases hq
    · cases hp
  grounded id p hp := by cases hp
  separate i j q q' hq := by
    rcases hq with ⟨hq,-⟩ | ⟨p,hp,-⟩
    · cases hq
    · cases hp

theorem SameScope.refl (q : StoredLeaseRecord) : q.SameScope q := ⟨rfl,rfl,rfl,rfl⟩

/-- Records of active leases stay, and intents do or go. -/
theorem Exclusive.of_same (h : r.Exclusive G S) (hscoped : Scoped G S) {r' : WorktreeLeaseRegistry}
    (hrecords : ∀ id q, r'.records.get? id = some q → r.records.get? id = some q)
    (hactive : ∀ id q, r.records.get? id = some q → q.status = .active → r'.records.get? id = some q)
    (hpending : ∀ id p, r'.pending.get? id = some p →
      ∃ p', r.pending.get? id = some p' ∧ p'.record = p.record ∧ p'.operation = p.operation) : r'.Exclusive G S := by
  refine h.of_claims hscoped (fun id q hq => ?_) (fun id p hp => ?_)
  · rcases hq with ⟨hq,hstatus⟩ | ⟨p,hp,hop,rfl⟩
    · exact ⟨q,Or.inl ⟨hrecords id q hq,hstatus⟩,SameScope.refl q⟩
    · obtain ⟨p',hp',hrecord,hop'⟩ := hpending id p hp
      exact ⟨p.record,Or.inr ⟨p',hp',hop'.trans hop,hrecord⟩,SameScope.refl _⟩
  · obtain ⟨p',hp',hrecord,hop'⟩ := hpending id p hp
    rcases h.grounded id p' hp' with hstatus | hop | ⟨q,hq,hstatus,hsame⟩
    · exact Or.inl (hrecord ▸ hstatus)
    · exact Or.inr (Or.inl (hop' ▸ hop))
    · exact Or.inr (Or.inr ⟨q,hactive id q hq hstatus,hstatus,hrecord ▸ hsame⟩)

theorem Exclusive.drop (h : r.Exclusive G S) (hscoped : Scoped G S) (id : String) : (r.dropPending id).Exclusive G S := by
  refine h.of_same hscoped (fun _ _ hq => hq) (fun _ _ hq _ => hq) (fun l p hp => ⟨p,?_,rfl,rfl⟩)
  simp only [dropPending, Dictionary.get?_erase] at hp
  split at hp
  · cases hp
  · exact hp

/-- An intent that makes no claim. -/
theorem Exclusive.putGrounded (h : r.Exclusive G S) (hscoped : Scoped G S) {p : PendingLeaseMutation} (hop : p.operation ≠ .acquire)
    (hp : r.Grounded p.record.lease.id p) : (r.putPending p).Exclusive G S := by
  refine h.of_claims hscoped (fun id q hq => ?_) (fun id p' hp' => ?_)
  · rcases hq with hq | ⟨p',hp',hop',rfl⟩
    · exact ⟨q,Or.inl hq,SameScope.refl q⟩
    · simp only [putPending, Dictionary.get?_set] at hp'
      split at hp'
      · cases hp'
        exact absurd hop' hop
      · exact ⟨p'.record,Or.inr ⟨p',hp',hop',rfl⟩,SameScope.refl _⟩
  · simp only [putPending, Dictionary.get?_set] at hp'
    split at hp'
    · next heq =>
      cases hp'
      exact heq ▸ hp
    · exact h.grounded id p' hp'

/-- An intent whose claim is apart from those of the other leases. -/
theorem Exclusive.putClaim (h : r.Exclusive G S) (hscoped : Scoped G S) {p : PendingLeaseMutation} (hop : p.operation = .acquire)
    (hclaimed : G p.record) (hseparate : ∀ id q, r.Claims id q → S q p.record) : (r.putPending p).Exclusive G S := by
  have hclaims : ∀ id q, (r.putPending p).Claims id q → id = p.record.lease.id ∧ q = p.record ∨ r.Claims id q := by
    intro id q hq
    rcases hq with hq | ⟨p',hp',hop',rfl⟩
    · exact Or.inr (Or.inl hq)
    · simp only [putPending, Dictionary.get?_set] at hp'
      split at hp'
      · next heq =>
        cases hp'
        exact Or.inl ⟨heq,rfl⟩
      · exact Or.inr (Or.inr ⟨p',hp',hop',rfl⟩)
  refine ⟨fun id q hq => ?_,fun id p' hp' => ?_,fun i j q q' hq hq' hij => ?_⟩
  · rcases hclaims id q hq with ⟨-,rfl⟩ | hq
    · exact hclaimed
    · exact h.claimed id q hq
  · simp only [putPending, Dictionary.get?_set] at hp'
    split at hp'
    · cases hp'
      exact Or.inr (Or.inl hop)
    · exact h.grounded id p' hp'
  · rcases hclaims i q hq with ⟨rfl,rfl⟩ | hq
    · rcases hclaims j q' hq' with ⟨rfl,-⟩ | hq'
      · exact absurd rfl hij
      · exact hscoped.symm _ _ (hseparate j q' hq')
    · rcases hclaims j q' hq' with ⟨-,rfl⟩ | hq'
      · exact hseparate i q hq
      · exact h.separate i j q q' hq hq' hij

/-- The record of an intent that waits. -/
theorem Exclusive.commit (h : r.Exclusive G S) (hscoped : Scoped G S) {p : PendingLeaseMutation}
    (hp : r.pending.get? p.record.lease.id = some p) : (r.putRecord p.record).Exclusive G S := by
  have hgrounded := h.grounded _ p hp
  refine h.of_claims hscoped (fun id q hq => ?_) (fun id p' hp' => ?_)
  · rcases hq with ⟨hq,hstatus⟩ | hq
    · simp only [putRecord, Dictionary.get?_set] at hq
      split at hq
      · next heq =>
        cases hq
        subst heq
        rcases hgrounded with hreleased | hop | ⟨q,hq,hactive,hsame⟩
        · cases hreleased.symm.trans hstatus
        · exact ⟨p.record,Or.inr ⟨p,hp,hop,rfl⟩,SameScope.refl _⟩
        · exact ⟨q,Or.inl ⟨hq,hactive⟩,hsame⟩
      · exact ⟨q,Or.inl ⟨hq,hstatus⟩,SameScope.refl q⟩
    · exact ⟨q,Or.inr hq,SameScope.refl q⟩
  · rcases h.grounded id p' hp' with hstatus | hop | ⟨q,hq,hactive,hsame⟩
    · exact Or.inl hstatus
    · exact Or.inr (Or.inl hop)
    · by_cases heq : id = p.record.lease.id
      · subst heq
        obtain rfl := Option.some.inj (hp.symm.trans hp')
        cases hstatus : p.record.status with
        | released => exact Or.inl hstatus
        | active => exact Or.inr (Or.inr ⟨p.record,Dictionary.get?_set_self _ _ _,hstatus,SameScope.refl _⟩)
      · exact Or.inr (Or.inr ⟨q,(Dictionary.get?_set_of_ne _ _ heq).trans hq,hactive,hsame⟩)

end Kept
end WorktreeLeaseRegistry

open WorktreeLeaseManager (LeaseAction)

open WorktreeLeaseRegistry (Scoped)

omit [DecidableEq P] in
/-- What an acquisition is granted for is all that has to be shown. -/
theorem exclusive_move {c : LeaseFormat} {x : LeaseAction P} {fresh : Prop} {k : ℕ} {j j' : LeaseJournal}
    {G : StoredLeaseRecord → Prop} {S : StoredLeaseRecord → StoredLeaseRecord → Prop} (hscoped : Scoped G S)
    (hgranted : ∀ p, Granted c x j p → G p.record ∧ ∀ id q, j.registry.Claims id q → G q → S q p.record)
    (h : LeaseMove c x fresh k j j') (hj : j.registry.Exclusive G S) : j'.registry.Exclusive G S := by
  cases h with
  | acquire p h =>
    obtain ⟨hclaimed,hseparate⟩ := hgranted p h
    exact hj.putClaim hscoped h.operation hclaimed (fun id q hq => hseparate id q hq (hj.claimed id q hq))
  | renew p existing h =>
    refine hj.putGrounded hscoped (by simp [h.operation]) (Or.inr (Or.inr ⟨existing,h.current,h.active,?_⟩))
    obtain ⟨renewedAt,expiresAt,dirtyState,updatedAt,branchHead,hrecord⟩ := h.record
    rw [hrecord]
    exact ⟨rfl,rfl,rfl,rfl⟩
  | release p previous h =>
    obtain ⟨now,-,cause,-,hintent⟩ := h.record
    have hreleased : p.record.status = .released := by
      have := congrArg (·.record.status) (releaseIntent_ok hintent)
      exact this
    refine hj.putGrounded hscoped ?_ (Or.inl hreleased)
    rcases h.operation with ⟨hop,-⟩ | ⟨hop,-⟩ <;> simp [hop]
  | mark p removal hp _ _ =>
    refine hj.of_same hscoped (fun _ _ hq => hq) (fun _ _ hq _ => hq) (fun id p' hp' => ?_)
    simp only [LeaseJournal.putRegistry, WorktreeLeaseRegistry.putPending, Dictionary.get?_set] at hp'
    split at hp'
    · next heq =>
      cases hp'
      exact ⟨p,heq ▸ hp,rfl,rfl⟩
    · exact ⟨p',hp',rfl,rfl⟩
  | commit p hp _ _ => exact hj.commit hscoped hp
  | clear p _ _ _ _ => exact hj.drop hscoped _
  | refuse p _ _ _ => exact hj.drop hscoped _
  | cancel p _ _ _ _ _ _ => exact hj.drop hscoped _
  | propose _ _ _ _ => exact hj.of_same hscoped (fun _ _ hq => hq) (fun _ _ hq _ => hq) (fun id p hp => ⟨p,hp,rfl,rfl⟩)
  | finish intent _ =>
    refine hj.of_same hscoped (fun id q hq => finishedRegistry_mem _ _ _ hq) (fun id q hq hactive => ?_) (fun id p hp => ?_)
    · rcases finishedRegistry_records j.rows intent j.registry id with hsame | ⟨-,-,q',hq',hreleased,-⟩
      · exact hsame.trans hq
      · obtain rfl := Option.some.inj (hq.symm.trans hq')
        cases hactive.symm.trans hreleased
    · rw [LeaseJournal.putRegistry, finishedRegistry_pending] at hp
      exact ⟨p,hp,rfl,rfl⟩
  | _ => exact hj

end OmniagentPlus.WorktreeLeasing
