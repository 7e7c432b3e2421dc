import OmniagentPlus.StateLedger.RetentionClosure
import OmniagentPlus.WorktreeLeasing.LeaseContinuation

/-! What a retention takes from the ledger and from the registry of leases, one durable write
after another. -/
namespace OmniagentPlus.WorktreeLeasing
open OmniagentPlus.Foundation OmniagentPlus.CoreContracts OmniagentPlus.StateLedger
open WorktreeLeaseManager (LeaseAction step)
variable {P : Type}

section Selection
variable {rows : List StateLedgerEntry} {registry : WorktreeLeaseRegistry} {policy : RetentionPolicy} {now : ℤ}

theorem entityKey_lease (r : StateLedgerEntry) (id : String) :
    entityKey r = [some "lease",some id] ↔ rowLeaseId r = some id := by
  unfold entityKey rowLeaseId
  cases r.payload <;> simp

theorem mem_leaseRows {id : String} {r : StateLedgerEntry} :
    r ∈ leaseRows rows id ↔ r ∈ rows ∧ rowLeaseId r = some id := by
  simp [leaseRows, List.mem_filter]

/-- The newest record of a lease's entity is the last row of the lease. -/
theorem latest_lease (rows : List StateLedgerEntry) (id : String) :
    (latest rows).get? [some "lease",some id] = (leaseRows rows id).getLast? := by
  rw [latest, Dictionary.get?_indexBy, leaseRows]
  congr 1
  apply List.filter_congr
  intro r _
  rw [Bool.eq_iff_iff, decide_eq_true_eq, beq_iff_eq]
  exact entityKey_lease r id

/-- A row that is pinned for its lease is selected. -/
theorem pinned_selected {id : String} {r : StateLedgerEntry} (hr : r ∈ rows) (hid : rowLeaseId r = some id)
    (hpinned : rowPinned rows registry policy now id r = true) :
    r.sequence ∈ retentionSelection rows registry policy now := by
  refine protected_selected rfl hr (List.mem_append_right _ ?_)
  refine List.mem_map.mpr ⟨r,List.mem_filter.mpr ⟨hr,?_⟩,rfl⟩
  rw [hid, Option.any_some]
  exact hpinned

/-- With any row of a lease the last one is selected. -/
theorem last_selected {id : String} {r l : StateLedgerEntry} (hr : r ∈ leaseRows rows id)
    (hselected : r.sequence ∈ retentionSelection rows registry policy now)
    (hl : (leaseRows rows id).getLast? = some l) : l.sequence ∈ retentionSelection rows registry policy now := by
  obtain ⟨hrow,hid⟩ := mem_leaseRows.mp hr
  refine (retentionClosure_spec rows _ now).newest r hrow hselected l ?_
  rw [(entityKey_lease r id).mpr hid, latest_lease]
  exact hl

/-- With a session the last row of the lease that it names is selected. -/
theorem named_selected {id : String} {r l : StateLedgerEntry} {p : AgentSession} (hr : r ∈ rows)
    (hp : r.payload = .session p) (hworktree : p.worktree = some id)
    (hselected : r.sequence ∈ retentionSelection rows registry policy now)
    (hl : (leaseRows rows id).getLast? = some l) : l.sequence ∈ retentionSelection rows registry policy now := by
  refine (retentionClosure_spec rows _ now).referenced r hr hselected [some "lease",some id] ?_ l ?_
  · simp [referencedKeys, hp, hworktree]
  · rw [latest_lease]
    exact hl

/-- An active lease, or one with an intent that waits. -/
def WorktreeLeaseRegistry.Holds (registry : WorktreeLeaseRegistry) (id : String) : Prop :=
  (∃ q, registry.records.get? id = some q ∧ q.status = .active) ∨ (registry.pending.get? id).isSome

/-- The first and the last row of a lease that is held are selected. -/
theorem held_selected {id : String} {r : StateLedgerEntry} (hheld : registry.Holds id)
    (hr : (leaseRows rows id).head? = some r ∨ (leaseRows rows id).getLast? = some r) :
    r.sequence ∈ retentionSelection rows registry policy now := by
  have hmem : r ∈ leaseRows rows id := by
    rcases hr with hr | hr
    · exact List.mem_of_mem_head? hr
    · exact List.mem_of_getLast? hr
  obtain ⟨hrow,hid⟩ := mem_leaseRows.mp hmem
  refine pinned_selected hrow hid ?_
  have hheld : ((registry.records.get? id).any (·.status == .active) || (registry.pending.get? id).isSome) = true := by
    rcases hheld with ⟨q,hq,hactive⟩ | hpending
    · simp [hq, hactive]
    · simp [hpending]
  have hends : ((leaseRows rows id).head? == some r || (leaseRows rows id).getLast? == some r) = true := by
    rcases hr with hr | hr <;> simp [hr]
  simp only [rowPinned, hheld, hends]
  simp

theorem head?_filter {α : Type} {l : List α} {f : α → Bool} {a : α} (h : l.head? = some a) (ha : f a = true) :
    (l.filter f).head? = some a := by
  cases l with
  | nil => cases h
  | cons b l =>
    cases h
    rw [List.filter_cons_of_pos ha]
    rfl

theorem getLast?_filter {α : Type} {l : List α} {f : α → Bool} {a : α} (h : l.getLast? = some a) (ha : f a = true) :
    (l.filter f).getLast? = some a := by
  obtain ⟨l,rfl⟩ := List.getLast?_eq_some_iff.mp h
  rw [List.filter_append, List.filter_cons_of_pos ha]
  simp

theorem leaseRows_filter (rows : List StateLedgerEntry) (f : StateLedgerEntry → Bool) (id : String) :
    leaseRows (rows.filter f) id = (leaseRows rows id).filter f := by
  simp only [leaseRows, List.filter_filter]
  apply List.filter_congr
  intro r _
  exact Bool.and_comm _ _

theorem leaseRows_append (rows : List StateLedgerEntry) {r : StateLedgerEntry} {id : String}
    (h : rowLeaseId r = some id) : leaseRows (rows ++ [r]) id = leaseRows rows id ++ [r] := by
  simp [leaseRows, List.filter_append, h]

theorem leaseRows_append_of_ne (rows : List StateLedgerEntry) {r : StateLedgerEntry} {id : String}
    (h : rowLeaseId r ≠ some id) : leaseRows (rows ++ [r]) id = leaseRows rows id := by
  simp [leaseRows, List.filter_append, h]

end Selection

section Coupling

/-- What one durable write does to the ledger's rows and the registry's records of leases: a
record goes only where its lease is released, settled and without a row; the rows of a lease
that is held keep their ends; and the last row of a lease that some session names stays, with
the record. -/
structure LeaseJournal.Coupled (j j' : LeaseJournal) : Prop where
  deleted : ∀ id q, j.registry.records.get? id = some q → j'.registry.records.get? id = none →
    q.status = .released ∧ j.registry.pending.get? id = none ∧ leaseRows j.rows id = [] ∧ leaseRows j'.rows id = []
  first : ∀ id r, j.registry.Holds id → (leaseRows j.rows id).head? = some r → (leaseRows j'.rows id).head? = some r
  last : ∀ id r, j.registry.Holds id → (leaseRows j.rows id).getLast? = some r →
    (leaseRows j'.rows id).getLast? = some r ∨ ∃ r', leaseRows j'.rows id = leaseRows j.rows id ++ [r']
  named : ∀ id r, (leaseRows j.rows id).getLast? = some r → ∀ e ∈ j'.rows, ∀ p, e.payload = .session p →
    p.worktree = some id → r ∈ j'.rows ∧
      ((j.registry.records.get? id).isSome → (j'.registry.records.get? id).isSome)

variable {c : LeaseFormat} {x : LeaseAction P} {fresh : Prop} {k : ℕ} {j j' : LeaseJournal}

/-- Rows that stay and records that stay. -/
theorem LeaseJournal.Coupled.of_same (hrows : j'.rows = j.rows)
    (hrecords : ∀ id, (j.registry.records.get? id).isSome → (j'.registry.records.get? id).isSome) : j.Coupled j' where
  deleted id q hq hgone := by
    have := hrecords id (by rw [hq]; rfl)
    rw [hgone] at this
    cases this
  first id r _ hr := hrows ▸ hr
  last id r _ hr := Or.inl (hrows ▸ hr)
  named id r hr _ _ _ _ _ := ⟨hrows ▸ (mem_leaseRows.mp (List.mem_of_getLast? hr)).1,hrecords id⟩

theorem LeaseJournal.Coupled.addRow (j : LeaseJournal) (r : StateLedgerEntry) : j.Coupled (j.addRow r) := by
  have hrows : ∀ id, leaseRows (j.addRow r).rows id = leaseRows j.rows id ∨
      leaseRows (j.addRow r).rows id = leaseRows j.rows id ++ [r] := by
    intro id
    by_cases hid : rowLeaseId r = some id
    · exact Or.inr (leaseRows_append j.rows hid)
    · exact Or.inl (leaseRows_append_of_ne j.rows hid)
  refine ⟨fun id q hq hgone => ?_,fun id q _ hq => ?_,fun id q _ hq => ?_,fun id q hq _ _ _ _ _ => ⟨?_,fun h => h⟩⟩
  · cases hq.symm.trans hgone
  · rcases hrows id with h | h
    · rwa [h]
    · rw [h, List.head?_append, hq, Option.some_or]
  · rcases hrows id with h | h
    · exact Or.inl (h ▸ hq)
    · exact Or.inr ⟨r,h⟩
  · exact List.mem_append_left _ (mem_leaseRows.mp (List.mem_of_getLast? hq)).1

theorem coupled_move (h : LeaseMove c x fresh k j j') : j.Coupled j' := by
  have hrecord : ∀ q : StoredLeaseRecord, ∀ id, (j.registry.records.get? id).isSome →
      ((j.registry.putRecord q).records.get? id).isSome := by
    intro q id hid
    simp only [WorktreeLeaseRegistry.putRecord, Dictionary.get?_set]
    split
    · rfl
    · exact hid
  cases h with
  | foreign f r _ _ _ _ => exact LeaseJournal.Coupled.addRow j r
  | publish p r _ _ _ _ _ => exact LeaseJournal.Coupled.addRow j r
  | commit p _ _ _ => exact .of_same rfl (hrecord p.record)
  | compact policy now interleaved intent snapshot extra pruned _ _ _ _ _ _ _ =>
    have hkeep : ∀ r : StateLedgerEntry, r.sequence ∈ retentionSelection j.rows j.registry policy now →
        (decide (r.sequence ∈ retentionSelection j.rows j.registry policy now) ||
          (r.kind == .worktreeLease && !intent.recordIds.contains r.recordId)) = true := fun r hr => by simp [hr]
    refine ⟨fun id q hq hgone => ?_,fun id r hheld hr => ?_,fun id r hheld hr => Or.inl ?_,
      fun id r hr e he p hp hworktree => ⟨?_,fun h => h⟩⟩
    · cases hq.symm.trans hgone
    · simp only [LeaseJournal.compact, leaseRows_filter]
      exact head?_filter hr (hkeep r (held_selected hheld (Or.inl hr)))
    · simp only [LeaseJournal.compact, leaseRows_filter]
      exact getLast?_filter hr (hkeep r (held_selected hheld (Or.inr hr)))
    · obtain ⟨he,hkept⟩ := List.mem_filter.mp he
      have hselected : e.sequence ∈ retentionSelection j.rows j.registry policy now := by
        simpa [StateLedgerEntry.kind, hp, LedgerPayload.kind] using hkept
      refine List.mem_filter.mpr ⟨(mem_leaseRows.mp (List.mem_of_getLast? hr)).1,?_⟩
      exact hkeep r (named_selected he hp hworktree hselected hr)
  | finish intent _ =>
    have hrecords : ∀ id, (∃ r, (leaseRows j.rows id).getLast? = some r) → (j.registry.records.get? id).isSome →
        ((finishedRegistry j.rows intent j.registry).records.get? id).isSome := by
      rintro id ⟨r,hr⟩ hid
      rcases finishedRegistry_records j.rows intent j.registry id with hsame | ⟨-,-,q,-,-,-,hnil⟩
      · rwa [hsame]
      · rw [hnil] at hr
        cases hr
    refine ⟨fun id q hq hgone => ?_,fun id r _ hr => hr,fun id r _ hr => Or.inl hr,fun id r hr e he p hp hworktree =>
      ⟨(mem_leaseRows.mp (List.mem_of_getLast? hr)).1,hrecords id ⟨r,hr⟩⟩⟩
    rcases finishedRegistry_records j.rows intent j.registry id with hsame | ⟨-,-,q',hq',hstatus,hnone,hnil⟩
    · cases (hsame.symm.trans hgone).symm.trans hq
    · obtain rfl := Option.some.inj (hq.symm.trans hq')
      exact ⟨hstatus,hnone,hnil,hnil⟩
  | _ => exact .of_same rfl (fun _ h => h)

variable [DecidableEq P]

/-- From every reachable state, each durable write of each operation, at which it may be cut
short, leaves ledger and registry coupled. -/
theorem retainHistory_coupled (c : LeaseFormat) {xs : List (LeaseAction P)} {s : LeaseManagerState P}
    (h : run (step c) LeaseManagerState.init xs = some s) (x : LeaseAction P) (k : ℕ) :
    LeaseJournal.Coupled ((x.program c).crash k s).journal ((x.program c).crash (k + 1) s).journal := by
  have hsound := run_invariant (step c) (I := fun s => s.ledger.Sound (.core c.toLedgerFormat))
    (fun s x t hs hstep => (WorktreeLeaseManager.step_invariant (I := fun _ => True)
      (fun _ _ _ _ => trivial) hs False.elim trivial hstep).1) AppendOnlyStore.State.Sound.init h
  have hspec := WorktreeLeaseManager.program_spec (c := c) (x := x) hsound False.elim
  rcases hspec.crash_succ k with hsame | hmove
  · rw [hsame]
    exact .of_same rfl (fun _ h => h)
  · exact coupled_move hmove.2

/-- A retention that takes away the lease of `samplePredecessor`. -/
def sampleRetention : LeaseAction Bool :=
  ⟨sampleSurroundings false,.retainHistory ⟨none,some 0,none,none,none⟩ 10 [],.returns⟩

theorem retainHistory_coupled_sample : ∃ s,
    run (step sampleLeaseFormat) LeaseManagerState.init samplePredecessor = some s ∧
    (s.stored.records.get? "u").isSome ∧
    ((sampleRetention.program sampleLeaseFormat).final s).stored.records.get? "u" = none ∧
    ∀ k, LeaseJournal.Coupled ((sampleRetention.program sampleLeaseFormat).crash k s).journal
      ((sampleRetention.program sampleLeaseFormat).crash (k + 1) s).journal := by
  have hshape : (run (step sampleLeaseFormat) LeaseManagerState.init samplePredecessor).map (fun s =>
      ((s.stored.records.get? "u").isSome,
        ((sampleRetention.program sampleLeaseFormat).final s).stored.records.get? "u")) = some (true,none) := by
    decide +kernel
  obtain ⟨s,hs,hshape⟩ := Option.map_eq_some_iff.mp hshape
  obtain ⟨hbefore,hafter⟩ := Prod.mk.inj hshape
  exact ⟨s,hs,hbefore,hafter,retainHistory_coupled sampleLeaseFormat hs sampleRetention⟩

end Coupling
end OmniagentPlus.WorktreeLeasing
