import OmniagentPlus.WorktreeLeasing.LeaseRegistry
import OmniagentPlus.StateLedger.RetentionCore

/-! What a reclamation takes from the registry and what it leaves. -/
namespace OmniagentPlus.WorktreeLeasing
open OmniagentPlus.Foundation OmniagentPlus.CoreContracts OmniagentPlus.StateLedger

section Records
variable (rows : List StateLedgerEntry) (intent : LeaseReclamationIntent) (r : WorktreeLeaseRegistry)

theorem reclaimLease_pending (id : String) : (reclaimLease rows intent r id).pending = r.pending := by
  unfold reclaimLease
  split
  · rfl
  · split <;> rfl

/-- A reclamation leaves a record as it is, or takes it away: a released one that has no
intent and no row. -/
theorem reclaimLease_records (id l : String) :
    (reclaimLease rows intent r id).records.get? l = r.records.get? l ∨
    (reclaimLease rows intent r id).records.get? l = none ∧ l = id ∧
      ∃ q, r.records.get? l = some q ∧ q.status = .released ∧ r.pending.get? l = none ∧ leaseRows rows l = [] := by
  unfold reclaimLease
  split
  · exact Or.inl rfl
  · next record hrecord =>
    split
    · exact Or.inl rfl
    · next hfree =>
      simp only [Dictionary.get?_erase]
      by_cases hl : l = id
      · subst hl
        rw [if_pos rfl]
        simp only [bne_iff_ne, ne_eq, Bool.or_eq_true, not_or, Decidable.not_not,
          Bool.not_eq_true', Bool.not_eq_false, Option.isSome_iff_exists, not_exists] at hfree
        refine Or.inr ⟨rfl,rfl,record,hrecord,hfree.1.1,?_,List.isEmpty_iff.mp hfree.2⟩
        exact Option.eq_none_iff_forall_ne_some.mpr hfree.1.2
      · rw [if_neg hl]
        exact Or.inl rfl

theorem reclaimLeases_pending (ids : List String) :
    (ids.foldl (reclaimLease rows intent) r).pending = r.pending := by
  induction ids generalizing r with
  | nil => rfl
  | cons id ids ih => exact (ih _).trans (reclaimLease_pending rows intent r id)

theorem finishedRegistry_pending : (finishedRegistry rows intent r).pending = r.pending :=
  reclaimLeases_pending rows intent r intent.leaseIds

theorem reclaimLeases_records (ids : List String) (l : String) :
    (ids.foldl (reclaimLease rows intent) r).records.get? l = r.records.get? l ∨
    (ids.foldl (reclaimLease rows intent) r).records.get? l = none ∧ l ∈ ids ∧
      ∃ q, r.records.get? l = some q ∧ q.status = .released ∧ r.pending.get? l = none ∧ leaseRows rows l = [] := by
  induction ids generalizing r with
  | nil => exact Or.inl rfl
  | cons id ids ih =>
    rcases ih (reclaimLease rows intent r id) with h | ⟨h,hl,q,hq⟩
    · rcases reclaimLease_records rows intent r id l with hr | ⟨hr,rfl,hq⟩
      · exact Or.inl (h.trans hr)
      · exact Or.inr ⟨h.trans hr,List.mem_cons_self,hq⟩
    · rw [reclaimLease_pending] at hq
      rcases reclaimLease_records rows intent r id l with hr | ⟨hr,-,-⟩
      · exact Or.inr ⟨h,List.mem_cons_of_mem id hl,q,hr ▸ hq.1,hq.2⟩
      · rw [hr] at hq
        cases hq.1

/-- The finished registry has a record as it was, or not at all: then it was proposed, released,
without intent and without row. -/
theorem finishedRegistry_records (l : String) :
    (finishedRegistry rows intent r).records.get? l = r.records.get? l ∨
    (finishedRegistry rows intent r).records.get? l = none ∧ l ∈ intent.leaseIds ∧
      ∃ q, r.records.get? l = some q ∧ q.status = .released ∧ r.pending.get? l = none ∧ leaseRows rows l = [] :=
  reclaimLeases_records rows intent r intent.leaseIds l

theorem finishedRegistry_mem {l : String} {q : StoredLeaseRecord}
    (h : (finishedRegistry rows intent r).records.get? l = some q) : r.records.get? l = some q := by
  rcases finishedRegistry_records rows intent r l with hl | ⟨hl,-⟩
  · rwa [← hl]
  · rw [hl] at h
    cases h

theorem finishedRegistry_keyed (h : r.Keyed) : (finishedRegistry rows intent r).Keyed where
  records id q hq := h.records id q (finishedRegistry_mem rows intent r hq)
  pending := by
    rw [finishedRegistry_pending]
    exact h.pending

end Records

section Cores
variable (rows : List StateLedgerEntry)

theorem kind_of_rowLeaseId {r : StateLedgerEntry} {id : String} (h : rowLeaseId r = some id) : r.kind = .worktreeLease := by
  unfold rowLeaseId at h
  split at h
  · next hp => simp [StateLedgerEntry.kind, hp, LedgerPayload.kind]
  · cases h

/-- The rows of leases that are chosen lose nothing in their cores. -/
theorem filter_leases_core {p : StateLedgerEntry → Bool} (h : ∀ r, p r = true → (rowLeaseId r).isSome) :
    (rows.map StateLedgerEntry.core).filter p = rows.filter p :=
  StateLedgerEntry.filter_of_core (fun r hr => by
    obtain ⟨id,hid⟩ := Option.isSome_iff_exists.mp (h r hr)
    simp [kind_of_rowLeaseId hid]) (StateLedgerEntry.map_core_core rows)

theorem leaseRows_core (id : String) : leaseRows (rows.map StateLedgerEntry.core) id = leaseRows rows id :=
  filter_leases_core rows fun r hr => by rw [eq_of_beq hr]; rfl

variable (registry : WorktreeLeaseRegistry) (policy : RetentionPolicy) (now : ℤ)

theorem holderPins_core : holderPins (rows.map StateLedgerEntry.core) registry = holderPins rows registry := by
  have hrows := filter_core rows (p := fun row => row.kind == .session || row.kind == .turn) fun r => by simp only [core_kind]
  simp only [holderPins, hrows, latest_core, Dictionary.get?_mapValues, Option.map_map]
  rfl

theorem leasePins_core : leasePins (rows.map StateLedgerEntry.core) registry policy now = leasePins rows registry policy now := by
  have hpinned : ∀ id row, rowPinned (rows.map StateLedgerEntry.core) registry policy now id row =
      rowPinned rows registry policy now id row := by
    intro id row
    simp only [rowPinned, leaseRows_core]
  simp only [leasePins, hpinned]
  rw [filter_leases_core]
  intro r hr
  exact Option.isSome_of_any hr

theorem retentionSelection_core : retentionSelection (rows.map StateLedgerEntry.core) registry policy now =
    retentionSelection rows registry policy now := by
  rw [retentionSelection, selectRetentionSequences_core, holderPins_core, leasePins_core]
  rfl

theorem reclamationIntent_core (selected : Finset ℕ) : reclamationIntent (rows.map StateLedgerEntry.core) registry selected =
    reclamationIntent rows registry selected := by
  have hreclaimable : reclaimable (rows.map StateLedgerEntry.core) registry selected = reclaimable rows registry selected := by
    simp only [reclaimable, leaseRows_core]
  have hrows := filter_core rows (p := fun row => row.kind == .worktreeLease && !decide (row.sequence ∈ selected))
    fun r => by rw [core_kind]; rfl
  simp only [reclamationIntent, hreclaimable, hrows, List.map_map]
  rfl

theorem finishedRegistry_core (intent : LeaseReclamationIntent) : finishedRegistry (rows.map StateLedgerEntry.core) intent registry =
    finishedRegistry rows intent registry := by
  have hreclaim : reclaimLease (rows.map StateLedgerEntry.core) intent = reclaimLease rows intent := by
    funext r id
    simp only [reclaimLease, leaseRows_core]
  rw [finishedRegistry, hreclaim]
  rfl

end Cores

section Watermarks

/-- A watermark that is not before a time. -/
def Covers (w : Option Instant) (t : Instant) : Prop := ∃ u, w = some u ∧ t.notAfter u = true

/-- Every watermark is a time. -/
def Timed (d : Dictionary ContinuationKey Instant) : Prop := ∀ k w, d.get? k = some w → w.isSome

theorem Timed.set {d : Dictionary ContinuationKey Instant} (h : Timed d) (k : ContinuationKey) {w : Instant}
    (hw : w.isSome) : Timed (d.set k w) := by
  intro l v hv
  rw [Dictionary.get?_set] at hv
  split at hv
  · cases hv
    exact hw
  · exact h l v hv

section Proposal
variable {r : WorktreeLeaseRegistry} {watermarks : Dictionary ContinuationKey Instant}

/-- The watermark of a key once a proposal is carried out. -/
def effective (r : WorktreeLeaseRegistry) (watermarks : Dictionary ContinuationKey Instant) (k : ContinuationKey) :
    Option Instant :=
  (watermarks.get? k).or (r.reclaimedThrough.get? k)

theorem raiseWatermark_covers (hr : Timed r.reclaimedThrough) (hw : Timed watermarks) {q : StoredLeaseRecord}
    (hq : q.updatedAt.isSome) : Timed (raiseWatermark r watermarks q) ∧
      Covers (effective r (raiseWatermark r watermarks q) (continuationKey q.request)) q.updatedAt ∧
      ∀ k t, Covers (effective r watermarks k) t → Covers (effective r (raiseWatermark r watermarks q) k) t := by
  have hset : ∀ t : Instant, t.notAfter q.updatedAt = true →
      Covers (effective r (watermarks.set (continuationKey q.request) q.updatedAt) (continuationKey q.request)) t := by
    intro t ht
    exact ⟨q.updatedAt,by rw [effective, Dictionary.get?_set_self]; rfl,ht⟩
  have hother : ∀ k t, k ≠ continuationKey q.request → Covers (effective r watermarks k) t →
      Covers (effective r (watermarks.set (continuationKey q.request) q.updatedAt) k) t := by
    intro k t hk ht
    rwa [effective, Dictionary.get?_set_of_ne _ _ hk]
  have hcurrent : ∀ w, (watermarks.get? (continuationKey q.request)).or
      (r.reclaimedThrough.get? (continuationKey q.request)) = some w → w.isSome := by
    intro w h
    rcases Option.or_eq_some_iff.mp h with h | ⟨-,h⟩
    · exact hw _ w h
    · exact hr _ w h
  simp only [raiseWatermark]
  cases hw' : (watermarks.get? (continuationKey q.request)).or (r.reclaimedThrough.get? (continuationKey q.request)) with
  | none =>
    refine ⟨hw.set _ hq,hset _ (Instant.notAfter_refl hq),fun k t ht => ?_⟩
    by_cases hk : k = continuationKey q.request
    · subst hk
      obtain ⟨u,hu,-⟩ := ht
      cases hw'.symm.trans hu
    · exact hother k t hk ht
  | some current =>
    dsimp only
    by_cases hbefore : current.before q.updatedAt = true
    · rw [if_pos hbefore]
      refine ⟨hw.set _ hq,hset _ (Instant.notAfter_refl hq),fun k t ht => ?_⟩
      by_cases hk : k = continuationKey q.request
      · subst hk
        obtain ⟨u,hu,htu⟩ := ht
        obtain rfl := Option.some.inj (hw'.symm.trans hu)
        exact hset t (Instant.notAfter_trans htu (Instant.notAfter_of_before hbefore))
      · exact hother k t hk ht
    · rw [if_neg hbefore]
      refine ⟨hw,⟨current,hw',?_⟩,fun k t ht => ht⟩
      exact Instant.notAfter_of_not_before (hcurrent current hw') hq (Bool.eq_false_iff.mpr hbefore)

theorem raiseWatermarks_covers (hr : Timed r.reclaimedThrough) {qs : List StoredLeaseRecord}
    (hqs : ∀ q ∈ qs, q.updatedAt.isSome) (hw : Timed watermarks) : Timed (qs.foldl (raiseWatermark r) watermarks) ∧
      (∀ q ∈ qs, Covers (effective r (qs.foldl (raiseWatermark r) watermarks) (continuationKey q.request)) q.updatedAt) ∧
      ∀ k t, Covers (effective r watermarks k) t → Covers (effective r (qs.foldl (raiseWatermark r) watermarks) k) t := by
  induction qs generalizing watermarks with
  | nil => exact ⟨hw,fun q hq => (by cases hq),fun k t ht => ht⟩
  | cons q qs ih =>
    obtain ⟨htimed,hcovers,hmono⟩ := raiseWatermark_covers hr hw (hqs q List.mem_cons_self)
    obtain ⟨htimed',hcovers',hmono'⟩ := ih (fun p hp => hqs p (List.mem_cons_of_mem q hp)) htimed
    refine ⟨htimed',fun p hp => ?_,fun k t ht => hmono' k t (hmono k t ht)⟩
    rcases List.mem_cons.mp hp with rfl | hp
    · exact hmono' _ _ hcovers
    · exact hcovers' p hp

end Proposal

section Finish
variable {rows : List StateLedgerEntry} {intent : LeaseReclamationIntent} {r : WorktreeLeaseRegistry}

theorem reclaimLease_covers (hr : Timed r.reclaimedThrough) (hw : Timed intent.watermarks) (id : String) :
    Timed (reclaimLease rows intent r id).reclaimedThrough ∧
    (∀ k t, Covers (r.reclaimedThrough.get? k) t → Covers ((reclaimLease rows intent r id).reclaimedThrough.get? k) t) ∧
    ∀ q t, r.records.get? id = some q → (reclaimLease rows intent r id).records.get? id = none →
      Covers (effective r intent.watermarks (continuationKey q.request)) t →
      Covers ((reclaimLease rows intent r id).reclaimedThrough.get? (continuationKey q.request)) t := by
  simp only [reclaimLease]
  split
  · next hnone => exact ⟨hr,fun k t ht => ht,fun q t hq => by rw [hnone] at hq; cases hq⟩
  next record hrecord =>
  split
  · exact ⟨hr,fun k t ht => ht,fun q t hq hgone => by rw [hgone] at hq; cases hq⟩
  dsimp only
  cases hwatermark : intent.watermarks.get? (continuationKey record.request) with
  | none =>
    refine ⟨hr,fun k t ht => ht,fun q t hq _ ht => ?_⟩
    obtain rfl := Option.some.inj (hrecord.symm.trans hq)
    rwa [effective, hwatermark, Option.none_or] at ht
  | some watermark =>
    have hset : ∀ t : Instant, t.notAfter watermark = true →
        Covers ((r.reclaimedThrough.set (continuationKey record.request) watermark).get? (continuationKey record.request)) t :=
      fun t ht => ⟨watermark,Dictionary.get?_set_self _ _ _,ht⟩
    have heffective : ∀ t, Covers (effective r intent.watermarks (continuationKey record.request)) t →
        t.notAfter watermark = true := by
      rintro t ⟨u,hu,ht⟩
      rw [effective, hwatermark, Option.some_or] at hu
      cases hu
      exact ht
    dsimp only
    split
    · next hraise =>
      refine ⟨hr.set _ (hw _ _ hwatermark),fun k t ht => ?_,fun q t hq _ ht => ?_⟩
      · by_cases hk : k = continuationKey record.request
        · subst hk
          obtain ⟨u,hu,htu⟩ := ht
          rw [hu, Option.all_some] at hraise
          exact hset t (Instant.notAfter_trans htu (Instant.notAfter_of_before hraise))
        · rwa [Dictionary.get?_set_of_ne _ _ hk]
      · obtain rfl := Option.some.inj (hrecord.symm.trans hq)
        exact hset t (heffective t ht)
    · next hkeep =>
      refine ⟨hr,fun k t ht => ht,fun q t hq _ ht => ?_⟩
      obtain rfl := Option.some.inj (hrecord.symm.trans hq)
      cases hcurrent : r.reclaimedThrough.get? (continuationKey record.request) with
      | none => simp [hcurrent] at hkeep
      | some current =>
        rw [hcurrent, Option.all_some, Bool.not_eq_true] at hkeep
        exact ⟨current,rfl,Instant.notAfter_trans (heffective t ht)
          (Instant.notAfter_of_not_before (hr _ _ hcurrent) (hw _ _ hwatermark) hkeep)⟩

theorem effective_mono {r' : WorktreeLeaseRegistry} {watermarks : Dictionary ContinuationKey Instant}
    (h : ∀ k t, Covers (r.reclaimedThrough.get? k) t → Covers (r'.reclaimedThrough.get? k) t) {k : ContinuationKey}
    {t : Instant} (ht : Covers (effective r watermarks k) t) : Covers (effective r' watermarks k) t := by
  rw [effective] at ht ⊢
  cases hw : watermarks.get? k with
  | some w => rwa [hw, Option.some_or] at ht
  | none =>
    rw [hw, Option.none_or] at ht
    rw [Option.none_or]
    exact h k t ht

theorem reclaimLeases_covers (hr : Timed r.reclaimedThrough) (hw : Timed intent.watermarks) (ids : List String) :
    Timed (ids.foldl (reclaimLease rows intent) r).reclaimedThrough ∧
    (∀ k t, Covers (r.reclaimedThrough.get? k) t →
      Covers ((ids.foldl (reclaimLease rows intent) r).reclaimedThrough.get? k) t) ∧
    ∀ l q t, r.records.get? l = some q → (ids.foldl (reclaimLease rows intent) r).records.get? l = none →
      Covers (effective r intent.watermarks (continuationKey q.request)) t →
      Covers ((ids.foldl (reclaimLease rows intent) r).reclaimedThrough.get? (continuationKey q.request)) t := by
  induction ids generalizing r with
  | nil => exact ⟨hr,fun k t ht => ht,fun l q t hq hgone => by rw [List.foldl_nil] at hgone; rw [hgone] at hq; cases hq⟩
  | cons id ids ih =>
    obtain ⟨htimed,hmono,hreclaimed⟩ := reclaimLease_covers hr hw id
    obtain ⟨htimed',hmono',hreclaimed'⟩ := ih htimed
    refine ⟨htimed',fun k t ht => hmono' k t (hmono k t ht),fun l q t hq hgone ht => ?_⟩
    rcases reclaimLease_records rows intent r id l with hsame | ⟨hgone',rfl,-⟩
    · exact hreclaimed' l q t (hsame.trans hq) hgone (effective_mono hmono ht)
    · exact hmono' _ _ (hreclaimed q t hq hgone' ht)

/-- A watermark stays exactly where it is needed. -/
theorem dropWatermarks_get? {k : ContinuationKey} {w : Instant} (hw : r.reclaimedThrough.get? k = some w)
    (hneeded : watermarkNeeded r k w = true) : (dropWatermarks r).reclaimedThrough.get? k = some w := by
  have hfold : ∀ (es : List (ContinuationKey × Instant)) (d : Dictionary ContinuationKey Instant),
      (∀ e ∈ es, r.reclaimedThrough.get? e.1 = some e.2) → d.get? k = some w →
      (es.foldl (fun d e => if watermarkNeeded r e.1 e.2 then d else d.erase e.1) d).get? k = some w := by
    intro es
    induction es with
    | nil => exact fun d _ hd => hd
    | cons e es ih =>
      intro d hes hd
      refine ih _ (fun e' he' => hes e' (List.mem_cons_of_mem e he')) ?_
      dsimp only
      split
      · exact hd
      · next hdropped =>
        rw [Dictionary.get?_erase, if_neg]
        · exact hd
        · rintro rfl
          obtain rfl := Option.some.inj ((hes e List.mem_cons_self).symm.trans hw)
          exact hdropped hneeded
  exact hfold _ _ (fun e he => (Dictionary.mem_entries_iff _ _ _).mp he) hw

theorem dropWatermarks_timed (h : Timed r.reclaimedThrough) : Timed (dropWatermarks r).reclaimedThrough := by
  have hfold : ∀ (es : List (ContinuationKey × Instant)) (d : Dictionary ContinuationKey Instant), Timed d →
      Timed (es.foldl (fun d e => if watermarkNeeded r e.1 e.2 then d else d.erase e.1) d) := by
    intro es
    induction es with
    | nil => exact fun d hd => hd
    | cons e es ih =>
      intro d hd
      refine ih _ ?_
      dsimp only
      split
      · exact hd
      · intro l v hv
        rw [Dictionary.get?_erase] at hv
        split at hv
        · cases hv
        · exact hd l v hv
  exact hfold _ _ h

end Finish
end Watermarks
end OmniagentPlus.WorktreeLeasing
