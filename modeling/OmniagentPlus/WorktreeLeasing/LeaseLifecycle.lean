import OmniagentPlus.WorktreeLeasing.LeaseOperations

/-! The id of a lease is never used again, and a lease that is released stays released. -/
namespace OmniagentPlus.WorktreeLeasing
open OmniagentPlus.Foundation OmniagentPlus.CoreContracts OmniagentPlus.StateLedger
open WorktreeLeaseManager (LeaseAction)
variable {P : Type}

/-- The random UUIDs to come are no lease's id, and an intent keeps to the request of its lease
and does not take a release back. -/
structure LeaseJournal.Lifecycle (c : LeaseFormat) (j : LeaseJournal) : Prop where
  keyed : j.registry.Keyed
  records : ∀ n, j.drawn ≤ n → j.registry.records.get? (c.randomUUID n) = none
  pending : ∀ n, j.drawn ≤ n → j.registry.pending.get? (c.randomUUID n) = none
  continues : ∀ id p q, j.registry.pending.get? id = some p → j.registry.records.get? id = some q →
    p.record.request = q.request ∧ (q.status = .released → p.record.status = .released)

/-- The id of a lease that is over: it is taken, and no record or intent makes it active. -/
structure LeaseJournal.Retired (c : LeaseFormat) (id : String) (j : LeaseJournal) : Prop where
  taken : ∀ n, j.drawn ≤ n → c.randomUUID n ≠ id
  records : ∀ q, j.registry.records.get? id = some q → q.status = .released
  pending : ∀ p, j.registry.pending.get? id = some p → p.record.status = .released

/-- A release that is staged: of the lease that was to be released, at a time of the operation. -/
theorem Releasing.released {c : LeaseFormat} {x : LeaseAction P} {fresh : Prop} {j : LeaseJournal}
    {p : PendingLeaseMutation} {previous : StoredLeaseRecord} (h : Releasing c x fresh j p previous) :
    p.record.status = .released ∧ p.record.request = previous.request ∧ p.record.updatedAt.isSome := by
  obtain ⟨now,-,cause,-,hintent⟩ := h.record
  have hrecord := congrArg PendingLeaseMutation.record (releaseIntent_ok hintent)
  have hrecord : p.record = _ := hrecord
  rw [hrecord]
  exact ⟨rfl,rfl,releaseIntent_isSome hintent⟩

theorem Releasing.operation_ne {c : LeaseFormat} {x : LeaseAction P} {fresh : Prop} {j : LeaseJournal}
    {p : PendingLeaseMutation} {previous : StoredLeaseRecord} (h : Releasing c x fresh j p previous) :
    p.operation ≠ .acquire := by
  rcases h.operation with ⟨hop,-⟩ | ⟨hop,-⟩ <;> simp [hop]

/-- A renewal keeps the request of its lease, which is active. -/
theorem Renewed.request {c : LeaseFormat} {j : LeaseJournal} {p : PendingLeaseMutation} {existing : StoredLeaseRecord}
    (h : Renewed c j p existing) : p.record.request = existing.request ∧ p.record.status = .active := by
  obtain ⟨renewedAt,expiresAt,dirtyState,updatedAt,branchHead,hrecord⟩ := h.record
  rw [hrecord]
  exact ⟨rfl,h.active⟩

namespace LeaseJournal.Lifecycle
variable {c : LeaseFormat} {j : LeaseJournal}

/-- A lease in the registry has an id that is taken. -/
theorem taken (h : j.Lifecycle c) {id : String} {q : StoredLeaseRecord} (hq : j.registry.records.get? id = some q) :
    ∀ n, j.drawn ≤ n → c.randomUUID n ≠ id := by
  rintro n hn rfl
  cases (h.records n hn).symm.trans hq

/-- A release in the registry is the end of its lease. -/
theorem retired (h : j.Lifecycle c) {id : String} {q : StoredLeaseRecord} (hq : j.registry.records.get? id = some q)
    (hstatus : q.status = .released) : j.Retired c id where
  taken := h.taken hq
  records q' hq' := by
    obtain rfl := Option.some.inj (hq.symm.trans hq')
    exact hstatus
  pending p hp := (h.continues id p q hp hq).2 hstatus

theorem of_le (h : j.Lifecycle c) {j' : LeaseJournal} (hdrawn : j'.drawn = j.drawn)
    (hrecords : ∀ id q, j'.registry.records.get? id = some q → j.registry.records.get? id = some q)
    (hpending : ∀ id p, j'.registry.pending.get? id = some p →
      ∃ p', j.registry.pending.get? id = some p' ∧ p'.record = p.record) : j'.Lifecycle c where
  keyed := by
    refine ⟨fun id q hq => h.keyed.records id q (hrecords id q hq),fun id p hp => ?_⟩
    obtain ⟨p',hp',hrecord⟩ := hpending id p hp
    exact hrecord ▸ h.keyed.pending id p' hp'
  records n hn := by
    refine Option.eq_none_iff_forall_ne_some.mpr (fun q hq => ?_)
    cases (h.records n (hdrawn ▸ hn)).symm.trans (hrecords _ q hq)
  pending n hn := by
    refine Option.eq_none_iff_forall_ne_some.mpr (fun p hp => ?_)
    obtain ⟨p',hp',-⟩ := hpending _ p hp
    cases (h.pending n (hdrawn ▸ hn)).symm.trans hp'
  continues id p q hp hq := by
    obtain ⟨p',hp',hrecord⟩ := hpending id p hp
    exact hrecord ▸ h.continues id p' q hp' (hrecords id q hq)

theorem drop (h : j.Lifecycle c) {j' : LeaseJournal} {id : String} (hdrawn : j'.drawn = j.drawn)
    (hrecords : j'.registry.records = j.registry.records) (hpending : j'.registry.pending = j.registry.pending.erase id) :
    j'.Lifecycle c := by
  refine h.of_le hdrawn (fun l q hq => hrecords ▸ hq) (fun l p hp => ⟨p,?_,rfl⟩)
  rw [hpending, Dictionary.get?_erase] at hp
  split at hp
  · cases hp
  · exact hp

theorem stage (h : j.Lifecycle c) {p : PendingLeaseMutation} {draws : ℕ}
    (hid : ∀ n, j.drawn + draws ≤ n → c.randomUUID n ≠ p.record.lease.id)
    (hcontinues : ∀ q, j.registry.records.get? p.record.lease.id = some q →
      p.record.request = q.request ∧ (q.status = .released → p.record.status = .released)) :
    (j.stage p draws).Lifecycle c where
  keyed := h.keyed.putPending p
  records n hn := h.records n (Nat.le_trans (Nat.le_add_right _ _) hn)
  pending n hn := by
    have hn : j.drawn + draws ≤ n := hn
    simp only [LeaseJournal.stage, WorktreeLeaseRegistry.putPending]
    rw [Dictionary.get?_set_of_ne _ _ (hid n hn)]
    exact h.pending n (by omega)
  continues id p' q hp' hq := by
    simp only [LeaseJournal.stage, WorktreeLeaseRegistry.putPending, Dictionary.get?_set] at hp'
    split at hp'
    · next heq =>
      cases hp'
      exact hcontinues q (heq ▸ hq)
    · exact h.continues id p' q hp' hq

theorem commit (h : j.Lifecycle c) {p : PendingLeaseMutation} (hp : j.Waits p) : (j.commit p.record).Lifecycle c where
  keyed := h.keyed.putRecord p.record
  records n hn := by
    have hne : c.randomUUID n ≠ p.record.lease.id := by
      intro heq
      have hnone := h.pending n hn
      rw [heq] at hnone
      cases hnone.symm.trans hp
    simp only [LeaseJournal.commit, WorktreeLeaseRegistry.putRecord]
    rw [Dictionary.get?_set_of_ne _ _ hne]
    exact h.records n hn
  pending := h.pending
  continues id p' q hp' hq := by
    simp only [LeaseJournal.commit, WorktreeLeaseRegistry.putRecord, Dictionary.get?_set] at hq
    split at hq
    · next heq =>
      cases hq
      subst heq
      obtain rfl := Option.some.inj (Eq.trans (Eq.symm hp) hp')
      exact ⟨rfl,id⟩
    · exact h.continues id p' q hp' hq

end LeaseJournal.Lifecycle

section Moves
variable {c : LeaseFormat} {x : LeaseAction P} {fresh : Prop} {k : ℕ} {j j' : LeaseJournal}

theorem lifecycle_move (h : LeaseMove c x fresh k j j') (hj : j.Lifecycle c) : j'.Lifecycle c := by
  cases h with
  | acquire p h =>
    refine hj.stage (fun n hn heq => ?_) (fun q hq => ?_)
    · have := c.distinct (heq.trans h.id)
      omega
    · rw [h.id, hj.records _ (Nat.le_refl _)] at hq
      cases hq
  | renew p existing h =>
    refine hj.stage (fun n hn => hj.taken h.current n (by omega)) (fun q hq => ?_)
    obtain rfl := Option.some.inj (h.current.symm.trans hq)
    exact ⟨h.request.1,fun hreleased => by cases h.active.symm.trans hreleased⟩
  | release p previous h =>
    obtain ⟨q,hq,hrequest,-⟩ := h.current
    obtain ⟨hstatus,hrequest',-⟩ := h.released
    refine hj.stage (fun n hn => hj.taken hq n (by omega)) (fun q' hq' => ?_)
    obtain rfl := Option.some.inj (hq.symm.trans hq')
    exact ⟨hrequest'.trans hrequest.symm,fun _ => hstatus⟩
  | mark p removal hp _ _ =>
    refine hj.of_le rfl (fun _ _ hq => hq) (fun id p' hp' => ?_)
    simp only [LeaseJournal.putRegistry, WorktreeLeaseRegistry.putPending, Dictionary.get?_set] at hp'
    split at hp'
    · next heq =>
      cases hp'
      exact ⟨p,heq ▸ hp,rfl⟩
    · exact ⟨p',hp',rfl⟩
  | commit p hp _ _ => exact hj.commit hp
  | clear p _ _ _ _ => exact hj.drop rfl rfl rfl
  | refuse p _ _ _ => exact hj.drop rfl rfl rfl
  | cancel p _ _ _ _ _ _ => exact hj.drop rfl rfl rfl
  | finish intent _ =>
    refine hj.of_le rfl (fun id q hq => finishedRegistry_mem _ _ _ hq) (fun id p hp => ⟨p,?_,rfl⟩)
    rwa [LeaseJournal.putRegistry, finishedRegistry_pending] at hp
  | _ => exact hj.of_le rfl (fun _ _ hq => hq) (fun id p hp => ⟨p,hp,rfl⟩)

/-- A lease that is over stays over. -/
theorem retired_move {id : String} (h : LeaseMove c x fresh k j j') (hj : j.Retired c id) : j'.Retired c id := by
  have hstage : ∀ (p : PendingLeaseMutation) (draws : ℕ),
      (p.record.lease.id = id → p.record.status = .released) → (j.stage p draws).Retired c id := by
    intro p draws hp
    refine ⟨fun n hn => hj.taken n (Nat.le_trans (Nat.le_add_right _ _) hn),hj.records,fun p' hp' => ?_⟩
    simp only [LeaseJournal.stage, WorktreeLeaseRegistry.putPending, Dictionary.get?_set] at hp'
    split at hp'
    · next heq =>
      cases hp'
      exact hp heq.symm
    · exact hj.pending p' hp'
  have hdrop : ∀ l p, (j.registry.pending.erase l).get? id = some p → p.record.status = .released := by
    intro l p hp
    rw [Dictionary.get?_erase] at hp
    split at hp
    · cases hp
    · exact hj.pending p hp
  cases h with
  | acquire p h => exact hstage p 3 (fun heq => absurd (h.id.symm.trans heq) (hj.taken _ (Nat.le_refl _)))
  | renew p existing h =>
    refine hstage p 1 (fun heq => ?_)
    have hreleased := hj.records existing (heq ▸ h.current)
    cases h.active.symm.trans hreleased
  | release p previous h => exact hstage p 1 (fun _ => h.released.1)
  | mark p removal hp _ _ =>
    refine ⟨hj.taken,hj.records,fun p' hp' => ?_⟩
    simp only [LeaseJournal.putRegistry, WorktreeLeaseRegistry.putPending, Dictionary.get?_set] at hp'
    split at hp'
    · next heq =>
      cases hp'
      exact hj.pending p (heq ▸ hp)
    · exact hj.pending p' hp'
  | commit p hp _ _ =>
    refine ⟨hj.taken,fun q hq => ?_,hj.pending⟩
    simp only [LeaseJournal.commit, WorktreeLeaseRegistry.putRecord, Dictionary.get?_set] at hq
    split at hq
    · next heq =>
      cases hq
      exact hj.pending p (heq ▸ hp)
    · exact hj.records q hq
  | clear p _ _ _ _ => exact ⟨hj.taken,hj.records,hdrop _⟩
  | refuse p _ _ _ => exact ⟨hj.taken,hj.records,hdrop _⟩
  | cancel p _ _ _ _ _ _ => exact ⟨hj.taken,hj.records,hdrop _⟩
  | finish intent _ =>
    refine ⟨hj.taken,fun q hq => hj.records q (finishedRegistry_mem _ _ _ hq),fun p hp => hj.pending p ?_⟩
    rwa [LeaseJournal.putRegistry, finishedRegistry_pending] at hp
  | _ => exact ⟨hj.taken,hj.records,hj.pending⟩

theorem lifecycle_init : (LeaseManagerState.init : LeaseManagerState P).journal.Lifecycle c where
  keyed := ⟨fun id q hq => (by cases hq),fun id p hp => by cases hp⟩
  records _ _ := rfl
  pending _ _ := rfl
  continues id p q hp := by cases hp

end Moves
end OmniagentPlus.WorktreeLeasing
