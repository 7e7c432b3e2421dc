import OmniagentPlus.WorktreeLeasing.LiveLeases

/-! Pages of live leases: what a query selects, in one order, cut at its limit. There is only
one such page, and `LocalLeaseStore.query` returns it. -/
namespace OmniagentPlus.WorktreeLeasing
open OmniagentPlus.Foundation OmniagentPlus.CoreContracts OmniagentPlus.StateLedger

def fieldsTuple (m : LeaseFields) : CoordinationTuple := ⟨m.acquired_at,m.lease_id⟩

def pageOrder (a b : LeaseFields) : Prop :=
  (compareCoordinationTuple (fieldsTuple a) (fieldsTuple b)).isLE = true

/-- What a query asks for among the leases `A`. -/
def Selected (A : LiveLeases) (q : LeaseQuery) (cursor : Option CoordinationTuple) (m : LeaseFields) : Prop :=
  (∃ k, A k = some m) ∧ q.leaseId.all (· == m.lease_id) = true ∧
    q.scope.all (leaseScopesOverlap m.scope) = true ∧ q.mode.all (· == m.mode) = true ∧
    cursor.all (fun c => compareCoordinationTuple (fieldsTuple m) c == .gt) = true

/-- The leases that a query looks at, with those that have expired only where it asks for them. -/
def scanned (A : LiveLeases) (q : LeaseQuery) (now : ℤ) : LiveLeases :=
  if q.includeExpired then A else A.liveAt now

lemma scanned_eq_some {A : LiveLeases} {q : LeaseQuery} {now : ℤ} {k : Text} {m : LeaseFields} :
    scanned A q now k = some m ↔
      A k = some m ∧ (q.includeExpired = true ∨ now < m.heartbeat_at + m.ttl_seconds) := by
  unfold scanned
  split_ifs with hinc
  · simp [hinc]
  · simp [LiveLeases.liveAt, Option.filter_eq_some_iff, hinc]

/-- The first leases that meet `S`, `limit` of them at most. -/
def IsPage (S : LeaseFields → Prop) (limit : ℕ) (ls : List LeaseFields) : Prop :=
  ∃ all : List LeaseFields, ls = all.take limit ∧ all.Pairwise pageOrder ∧ all.Nodup ∧ ∀ m, m ∈ all ↔ S m

/-- Every key is its lease's id, and the id one that the schema accepts. -/
def Keyed (A : LiveLeases) : Prop := ∀ k m, A k = some m → m.lease_id = k ∧ leaseIdAllowed k = true

lemma codePoints_of_leaseId {k : Text} (h : leaseIdAllowed k = true) :
    Text.codePoints k = k.map UInt16.toNat := by
  apply Text.codePoints_eq_map
  cases k with
  | nil => cases h
  | cons u rest =>
    simp only [leaseIdAllowed, Bool.and_eq_true, Bool.or_eq_true, List.all_eq_true, isLower, isDigit,
      decide_eq_true_eq, beq_iff_eq] at h
    intro v hv
    have hsmall : ∀ {w : UInt16}, w ≤ 0x7A → w.toNat < 0xD800 := by
      intro w hw
      have hle : w.toNat ≤ 0x7A := hw
      omega
    rcases List.mem_cons.mp hv with rfl | hv
    · rcases h.1 with h | h
      · exact hsmall h.2
      · exact hsmall (UInt16.le_trans h.2 (show (0x39 : UInt16) ≤ 0x7A by decide))
    · rcases h.2 v hv with ((((h | h) | h) | h) | h) | h
      · exact hsmall h.2
      · exact hsmall (UInt16.le_trans h.2 (show (0x39 : UInt16) ≤ 0x7A by decide))
      all_goals
        rw [h]
        decide

/-- Two of the leases that are as early as each other are one. -/
lemma pageOrder_antisymm {A : LiveLeases} (hA : Keyed A) {a b : LeaseFields} (ha : ∃ k, A k = some a)
    (hb : ∃ k, A k = some b) (hab : pageOrder a b) (hba : pageOrder b a) : a = b := by
  obtain ⟨j,hj⟩ := ha
  obtain ⟨k,hk⟩ := hb
  have heq : compareCoordinationTuple (fieldsTuple a) (fieldsTuple b) = .eq :=
    Std.OrientedCmp.isLE_antisymm hab hba
  have hcodes := codePoints_of_compareCoordinationTuple heq
  obtain ⟨hja,hjok⟩ := hA j a hj
  obtain ⟨hkb,hkok⟩ := hA k b hk
  change Text.codePoints a.lease_id = Text.codePoints b.lease_id at hcodes
  rw [hja, hkb, codePoints_of_leaseId hjok, codePoints_of_leaseId hkok] at hcodes
  have hjk : j = k := List.map_injective_iff.mpr (fun _ _ h => UInt16.toNat_inj.mp h) hcodes
  subst hjk
  exact Option.some.inj (hj.symm.trans hk)

/-- A query has one page. -/
theorem isPage_unique {A : LiveLeases} {q : LeaseQuery} {cursor : Option CoordinationTuple} {limit : ℕ}
    {ls ms : List LeaseFields} (hA : Keyed A) (hl : IsPage (Selected A q cursor) limit ls)
    (hm : IsPage (Selected A q cursor) limit ms) : ls = ms := by
  obtain ⟨all,rfl,hall,hnodup,hmem⟩ := hl
  obtain ⟨all',rfl,hall',hnodup',hmem'⟩ := hm
  have hperm : all.Perm all' :=
    (List.perm_ext_iff_of_nodup hnodup hnodup').mpr fun m => (hmem m).trans (hmem' m).symm
  have heq : all = all' := List.Perm.eq_of_pairwise
    (fun a b ha hb => pageOrder_antisymm hA ((hmem a).mp ha).1 ((hmem' b).mp hb).1) hall hall' hperm
  rw [heq]

/-- A page that is not full has everything that is selected. -/
theorem mem_of_isPage {S : LeaseFields → Prop} {limit : ℕ} {ls : List LeaseFields} (h : IsPage S limit ls)
    (hshort : ls.length < limit) (m : LeaseFields) : m ∈ ls ↔ S m := by
  obtain ⟨all,rfl,-,-,hmem⟩ := h
  rw [List.length_take] at hshort
  have hall : all.length ≤ limit := by omega
  rw [List.take_of_length_le hall]
  exact hmem m

lemma ownEntries_perm {β : Type*} (d : Dictionary Text β) : (ownEntries d).Perm d.entries := by
  have hsplit := List.filter_append_perm (fun e : Text × β => (arrayIndex e.1).isSome) d.entries
  refine List.Perm.trans (List.Perm.append (List.mergeSort_perm _ _) ?_) hsplit
  apply List.Perm.of_eq
  apply List.filter_congr
  intro e _
  cases arrayIndex e.1 <;> rfl

/-- The ids of the stored leases differ. -/
lemma nodup_ids {s : LocalLeaseStoreState} (hs : Readable s) :
    ((ownValues s.leases).map (·.lease_id)).Nodup := by
  have hids : (ownValues s.leases).map (·.lease_id) = (ownEntries s.leases).map Prod.fst := by
    rw [ownValues, List.map_map]
    apply List.map_congr_left
    rintro ⟨k,l⟩ he
    exact hs.keyed k l (mem_ownEntries.mp he)
  rw [hids]
  exact ((ownEntries_perm s.leases).map Prod.fst).nodup_iff.mpr s.leases.nodup

lemma leaseTuple_order (l r : ConsiliencyLease) :
    (compareCoordinationTuple (leaseTuple l) (leaseTuple r) != .gt) =
      (compareCoordinationTuple (leaseTuple l) (leaseTuple r)).isLE := by
  cases compareCoordinationTuple (leaseTuple l) (leaseTuple r) <;> rfl

/-- A page in another description of what is selected. -/
lemma IsPage.congr {S T : LeaseFields → Prop} {limit : ℕ} {ls : List LeaseFields} (h : IsPage S limit ls)
    (hST : ∀ m, S m ↔ T m) : IsPage T limit ls := by
  obtain ⟨all,hls,horder,hnodup,hmem⟩ := h
  exact ⟨all,hls,horder,hnodup,fun m => (hmem m).trans (hST m)⟩

/-- Leases of different ids, sorted, past the cursor, and cut. -/
lemma isPage_mergeSort {ms : List ConsiliencyLease} (hnodup : (ms.map (·.lease_id)).Nodup)
    (past : ConsiliencyLease → Bool) (limit : ℕ) :
    IsPage (fun m => ∃ l : ConsiliencyLease, l ∈ ms ∧ past l = true ∧ l.toLeaseFields = m) limit
      ((((ms.mergeSort fun l r => compareCoordinationTuple (leaseTuple l) (leaseTuple r) != .gt).filter past).take
        limit).map (·.toLeaseFields)) := by
  refine ⟨((ms.mergeSort fun l r => compareCoordinationTuple (leaseTuple l) (leaseTuple r) != .gt).filter past).map
    (·.toLeaseFields),List.map_take,?_,?_,?_⟩
  · have hsorted := @List.pairwise_mergeSort _
      (fun l r => (compareCoordinationTuple (leaseTuple l) (leaseTuple r)).isLE)
      (fun a b c hab hbc => Std.TransCmp.isLE_trans hab hbc) (fun a b => by
        rw [Bool.or_eq_true]
        cases h : compareCoordinationTuple (leaseTuple a) (leaseTuple b) with
        | gt =>
          right
          have hswap : compareCoordinationTuple (leaseTuple b) (leaseTuple a) =
              (compareCoordinationTuple (leaseTuple a) (leaseTuple b)).swap := Std.OrientedCmp.eq_swap
          rw [hswap, h]
          rfl
        | lt => exact Or.inl rfl
        | eq => exact Or.inl rfl) ms
    simp only [leaseTuple_order]
    exact List.pairwise_map.mpr (hsorted.filter past)
  · apply List.Nodup.of_map LeaseFields.lease_id
    rw [List.map_map]
    apply (List.filter_sublist.map _).nodup
    exact ((List.mergeSort_perm ms _).map _).nodup_iff.mpr hnodup
  · intro m
    simp only [List.mem_map, List.mem_filter, List.mem_mergeSort, and_assoc]

/-- `query` returns the page of what it looks at. -/
theorem query_yields {E : LeaseStoreError → Prop} {file : Option LocalLeaseStoreState} {q : LeaseQuery}
    {clock : ℤ} {limit : ℕ} {cursor : Option CoordinationTuple} (hfile : ReadableFile file)
    (hclock : q.now.getD clock = clock) (hpage : validateCoordinationPage q.page = some (limit,cursor)) :
    Yields E (fun ls => IsPage (Selected (scanned (localStored file) q (toContractTimestamp clock)) q cursor)
      limit (ls.map (·.toLeaseFields))) (query file q clock) := by
  unfold query
  rw [hpage, hclock]
  apply yields_bind (read_yields hfile)
  intro s hs
  obtain ⟨hread,hstored⟩ := hs
  refine (isPage_mergeSort ?_ _ _).congr fun m => ?_
  · exact ((((List.filter_sublist.trans List.filter_sublist).trans List.filter_sublist).trans
      List.filter_sublist).map _).nodup (nodup_ids hread)
  · simp only [List.mem_filter, Selected]
    constructor
    · rintro ⟨l,⟨⟨⟨⟨hl,hlive⟩,hid⟩,hscope⟩,hmode⟩,hcursor,rfl⟩
      refine ⟨?_,hid,hscope,hmode,hcursor⟩
      obtain ⟨⟨k,l'⟩,hk,rfl⟩ := List.mem_map.mp hl
      have hget := mem_ownEntries.mp hk
      rw [hstored] at hget
      have hraw : localStored file k = some l'.toLeaseFields := by rw [localStored, hget]; rfl
      refine ⟨k,scanned_eq_some.mpr ⟨hraw,?_⟩⟩
      simpa [isLeaseExpired_eq_false] using hlive
    · rintro ⟨⟨k,hk⟩,hid,hscope,hmode,hcursor⟩
      obtain ⟨hraw,hlive⟩ := scanned_eq_some.mp hk
      obtain ⟨l,hget,rfl⟩ := Option.map_eq_some_iff.mp hraw
      rw [← hstored] at hget
      refine ⟨l,⟨⟨⟨⟨List.mem_map.mpr ⟨(k,l),mem_ownEntries.mpr hget,rfl⟩,?_⟩,hid⟩,hscope⟩,hmode⟩,hcursor,rfl⟩
      simpa [isLeaseExpired_eq_false] using hlive

end OmniagentPlus.WorktreeLeasing
