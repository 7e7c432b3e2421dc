import OmniagentPlus.WorktreeLeasing.LeasePage
import OmniagentPlus.WorktreeLeasing.SupabaseLeaseStore

/-! The functions of the database refine the live leases as well: a row is live while it is
active and its heartbeat has not run out. -/
namespace OmniagentPlus.WorktreeLeasing
open OmniagentPlus.Foundation OmniagentPlus.CoreContracts OmniagentPlus.StateLedger

/-- `scope` is in normal form. -/
def Normal (scope : LeaseScope) : Prop := normalizeLeaseScope scope = scope

instance (scope : LeaseScope) : Decidable (Normal scope) := by unfold Normal; infer_instance

section Scopes
variable {l r : LeaseScope}

lemma trimSlashes_of_normal (h : Normal l) {t : Text} (ht : t ∈ l.selector) : trimSlashes t = t := by
  rw [← h] at ht
  obtain ⟨-,u,-,rfl⟩ := mem_normalizeSelector.mp ht
  exact List.rdropWhile_idempotent _ u

lemma pathOverlaps_comm (a b : Text) : pathOverlaps a b = pathOverlaps b a := by
  simp only [pathOverlaps]
  rw [Bool.or_assoc, Bool.or_assoc, Bool.or_comm ((b ++ [slash]).isPrefixOf a), Bool.beq_comm]

theorem leaseScopesOverlap_comm (l r : LeaseScope) : leaseScopesOverlap l r = leaseScopesOverlap r l := by
  have hsymbols : ∀ a b : List Text, (a.any fun t => b.contains t) = b.any fun t => a.contains t := by
    intro a b
    apply Bool.eq_iff_iff.mpr
    simp only [List.any_eq_true, List.contains_iff_mem]
    exact ⟨fun ⟨t,h₁,h₂⟩ => ⟨t,h₂,h₁⟩,fun ⟨t,h₁,h₂⟩ => ⟨t,h₂,h₁⟩⟩
  have hpaths : ∀ a b : List Text, (a.any fun t => b.any fun u => pathOverlaps t u) =
      b.any fun u => a.any fun t => pathOverlaps u t := by
    intro a b
    apply Bool.eq_iff_iff.mpr
    simp only [List.any_eq_true]
    exact ⟨fun ⟨t,ht,u,hu,h⟩ => ⟨u,hu,t,ht,pathOverlaps_comm t u ▸ h⟩,
      fun ⟨u,hu,t,ht,h⟩ => ⟨t,ht,u,hu,pathOverlaps_comm t u ▸ h⟩⟩
  obtain ⟨left,leftSelector⟩ := l
  obtain ⟨right,rightSelector⟩ := r
  cases left <;> cases right <;>
    first
    | rfl
    | exact hsymbols _ _
    | exact hpaths _ _

/-- On scopes in normal form the two overlap tests are one. -/
theorem coordinationScopeOverlaps_eq (hl : Normal l) (hr : Normal r) :
    coordinationScopeOverlaps l r = leaseScopesOverlap l r := by
  simp only [coordinationScopeOverlaps, leaseScopesOverlap]
  rw [hl, hr]
  split_ifs with hrepo hsame hsymbol
  · rfl
  · rfl
  · apply Bool.eq_iff_iff.mpr
    simp [List.any_eq_true, hsymbol]
  · have hpath : l.granularity = .pathSet := by
      cases hg : l.granularity <;> simp_all
    apply Bool.eq_iff_iff.mpr
    simp only [List.any_eq_true]
    constructor
    · rintro ⟨t,ht,u,hu,h⟩
      refine ⟨t,ht,u,hu,?_⟩
      simpa [hpath, pathOverlaps, trimSlashes_of_normal hl ht, trimSlashes_of_normal hr hu] using h
    · rintro ⟨t,ht,u,hu,h⟩
      refine ⟨t,ht,u,hu,?_⟩
      simpa [hpath, pathOverlaps, trimSlashes_of_normal hl ht, trimSlashes_of_normal hr hu] using h

end Scopes

section Texts
variable {t : Text}

lemma jsonbText_of_units (h : ∀ u ∈ t, u ≠ 0 ∧ u.toNat < 0xD800) : jsonbText t = true := by
  have hzero : t.contains 0 = false := by
    rw [← Bool.not_eq_true, List.contains_iff_mem]
    exact fun hmem => (h 0 hmem).1 rfl
  rw [jsonbText, hzero, Text.isWellFormed_of_units fun u hu => (h u hu).2]
  rfl

/-- The units of a lease id are ASCII. -/
lemma jsonbText_of_leaseId (h : leaseIdAllowed t = true) : jsonbText t = true := by
  have hunit : ∀ u : UInt16, (isLower u || isDigit u || u == 0x5F || u == dot || u == colon || u == 0x2D) = true →
      u ≠ 0 ∧ u.toNat < 0xD800 := by
    intro u hu
    simp only [Bool.or_eq_true, isLower, isDigit, decide_eq_true_eq, beq_iff_eq, dot, colon] at hu
    have hbig : ∀ v : UInt16, v ≤ 0x7A → v.toNat < 0xD800 := fun v hv => by
      have := UInt16.le_iff_toNat_le.mp hv
      exact Nat.lt_of_le_of_lt this (by decide)
    constructor
    · rintro rfl
      revert hu
      decide
    · rcases hu with ((((⟨-,hu⟩ | ⟨-,hu⟩) | rfl) | rfl) | rfl) | rfl
      · exact hbig u hu
      · exact hbig u (UInt16.le_trans hu (by decide))
      · decide
      · decide
      · decide
      · decide
  cases t with
  | nil => cases h
  | cons u rest =>
    simp only [leaseIdAllowed, Bool.and_eq_true, List.all_eq_true] at h
    obtain ⟨hfirst,hrest⟩ := h
    apply jsonbText_of_units
    intro v hv
    rcases List.mem_cons.mp hv with rfl | hv
    · exact hunit v (by rw [hfirst]; rfl)
    · exact hunit v (hrest v hv)

/-- Slashes at the end of a text make no difference to `jsonb`. -/
lemma jsonbText_trimSlashes (h : jsonbText t = true) : jsonbText (trimSlashes t) = true := by
  unfold trimSlashes
  induction t using List.reverseRecOn with
  | nil => exact h
  | append_singleton rest u ih =>
    by_cases hu : (u == slash) = true
    · rw [List.rdropWhile_concat_pos (· == slash) rest u hu]
      apply ih
      rw [beq_iff_eq] at hu
      subst hu
      rw [jsonbText, Text.isWellFormed_append_singleton (by decide), Bool.and_eq_true, Bool.not_eq_true',
        ← Bool.not_eq_true, List.contains_iff_mem] at h
      rw [jsonbText, h.2, Bool.and_true, Bool.not_eq_true', ← Bool.not_eq_true, List.contains_iff_mem]
      exact fun hmem => h.1 (List.mem_append_left _ hmem)
    · rw [List.rdropWhile_concat_neg (· == slash) rest u hu]
      exact h

lemma jsonbText_normalizeSelector {selector : List Text} (h : selector.all jsonbText = true) :
    (normalizeSelector selector).all jsonbText = true := by
  rw [List.all_eq_true] at h ⊢
  intro t ht
  obtain ⟨-,u,hu,rfl⟩ := mem_normalizeSelector.mp ht
  exact jsonbText_trimSlashes (h u hu)

end Texts

/-- The rows as the functions of the database write them. -/
structure SoundRow (k : Text) (c : LeaseRow) : Prop where
  keyed : c.lease_id = k
  payload : c.payload = c.toLeaseFields
  allowed : c.toLeaseFields.allowed = true
  normal : Normal c.scope

def Sound (t : CoordinationTables) : Prop := ∀ k c, t.leases.get? k = some c → SoundRow k c

/-- The leases of the active rows, expired ones that nothing has swept among them. -/
def sqlStored (t : CoordinationTables) : LiveLeases :=
  fun k => ((t.leases.get? k).filter LeaseRow.isActive).map (·.toLeaseFields)

def sqlLive (t : CoordinationTables) (now : ℤ) : LiveLeases := (sqlStored t).liveAt now

section Tables
variable {t : CoordinationTables} {now clock : ℤ} {uuids : ℕ → ℕ}

lemma sqlStored_eq_some {k : Text} {m : LeaseFields} :
    sqlStored t k = some m ↔ ∃ c, t.leases.get? k = some c ∧ c.isActive = true ∧ c.toLeaseFields = m := by
  simp only [sqlStored, Option.map_eq_some_iff, Option.filter_eq_some_iff, and_assoc]

/-- Pruning drops rows that are not active, and only when there are too many rows. -/
structure Pruned (t u : CoordinationTables) : Prop where
  kept : ∀ k c, t.leases.get? k = some c → c.isActive = true → u.leases.get? k = some c
  sub : ∀ k c, u.leases.get? k = some c → t.leases.get? k = some c
  same : t.leases.entries.length ≤ 10000 → ∀ k, u.leases.get? k = t.leases.get? k

theorem prune_yields (ht : Sound t) :
    Yields (· = .protectedCapacity) (Pruned t) (coordinationPruneHistory t) := by
  unfold coordinationPruneHistory
  dsimp only
  split_ifs
  · rfl
  · rfl
  · refine ⟨fun k c hk hactive => ?_,fun k c hk => ?_,fun hfew k => ?_⟩
    · rw [Dictionary.get?_filter, Option.filter_eq_some_iff]
      refine ⟨hk,?_⟩
      simp only [Bool.not_eq_true', ← Bool.not_eq_true, List.contains_iff_mem, List.mem_map, not_exists, not_and]
      intro d hd hid
      have hmem := (List.mem_insertionSort _).mp (List.mem_of_mem_take hd)
      obtain ⟨hval,hdead⟩ := List.mem_filter.mp hmem
      obtain ⟨j,hj⟩ := (Dictionary.mem_values_iff _ _).mp hval
      have hjk : j = k := by rw [← (ht j d hj).keyed, hid, (ht k c hk).keyed]
      subst hjk
      cases hj.symm.trans hk
      simp [hactive] at hdead
    · rw [Dictionary.get?_filter, Option.filter_eq_some_iff] at hk
      exact hk.1
    · rw [Dictionary.get?_filter]
      have hzero : t.leases.entries.length - 10000 = 0 := by omega
      cases t.leases.get? k <;> simp [hzero, Option.filter]

lemma Pruned.sound {u : CoordinationTables} (h : Pruned t u) (ht : Sound t) : Sound u :=
  fun k c hk => ht k c (h.sub k c hk)

lemma Pruned.stored {u : CoordinationTables} (h : Pruned t u) : sqlStored u = sqlStored t := by
  funext k
  apply Option.ext
  intro m
  rw [sqlStored_eq_some, sqlStored_eq_some]
  constructor
  · rintro ⟨c,hk,hactive,hm⟩
    exact ⟨c,h.sub k c hk,hactive,hm⟩
  · rintro ⟨c,hk,hactive,hm⟩
    exact ⟨c,h.kept k c hk hactive,hactive,hm⟩

lemma expireRow_fields (c : LeaseRow) : (expireRow now c).toLeaseFields = c.toLeaseFields := by
  unfold expireRow
  split_ifs <;> rfl

lemma expireRow_payload (c : LeaseRow) : (expireRow now c).payload = c.payload := by
  unfold expireRow
  split_ifs <;> rfl

lemma SoundRow.expireRow {k : Text} {c : LeaseRow} (h : SoundRow k c) : SoundRow k (expireRow now c) := by
  refine ⟨?_,?_,?_,?_⟩
  · rw [expireRow_fields]
    exact h.keyed
  · rw [expireRow_payload, expireRow_fields]
    exact h.payload
  · rw [expireRow_fields]
    exact h.allowed
  · rw [expireRow_fields]
    exact h.normal

/-- What the expiry call leaves: exactly the live leases are active. -/
structure Swept (t : CoordinationTables) (now : ℤ) (u : CoordinationTables) : Prop where
  sound : Sound u
  stored : sqlStored u = sqlLive t now
  sub : ∀ k c, u.leases.get? k = some c → ∃ old, t.leases.get? k = some old ∧ c = expireRow now old
  same : t.leases.entries.length ≤ 10000 → ∀ k, u.leases.get? k = (t.leases.get? k).map (expireRow now)

theorem sqlExpire_yields (ht : Sound t) :
    Yields (· = .protectedCapacity) (fun r => Swept t (toContractTimestamp clock) r.2)
      (coordinationExpireLeases t clock uuids) := by
  unfold coordinationExpireLeases
  generalize toContractTimestamp clock = now
  have hmapped : ∀ events, Sound ⟨t.leases.mapValues (expireRow now),events⟩ := by
    intro events k c hc
    rw [Dictionary.get?_mapValues, Option.map_eq_some_iff] at hc
    obtain ⟨old,hold,rfl⟩ := hc
    exact (ht k old hold).expireRow
  apply yields_bind (prune_yields (hmapped _))
  intro u hu
  refine ⟨hu.sound (hmapped _),?_,fun k c hc => ?_,fun hfew k => ?_⟩
  · rw [hu.stored]
    funext k
    simp only [sqlStored, sqlLive, LiveLeases.liveAt, Dictionary.get?_mapValues]
    cases t.leases.get? k with
    | none => rfl
    | some c =>
      by_cases hactive : c.isActive = true
      · by_cases hpast : c.heartbeat_at + c.ttl_seconds ≤ now
        · have hrow : expireRow now c = { c with state := .expired, updated_at := now } := by
            simp [expireRow, hactive, LeaseRow.isPast, hpast]
          have hdead : (expireRow now c).isActive = false := by
            rw [hrow]
            rfl
          simp [Option.filter, hactive, hdead, hpast]
        · have hsame : expireRow now c = c := by simp [expireRow, LeaseRow.isPast, hpast]
          simp [Option.filter, hactive, hsame, hpast]
      · have hsame : expireRow now c = c := by simp [expireRow, hactive]
        simp [Option.filter, hactive, hsame]
  · have hget := hu.sub k c hc
    rw [Dictionary.get?_mapValues, Option.map_eq_some_iff] at hget
    obtain ⟨old,hold,heq⟩ := hget
    exact ⟨old,hold,heq.symm⟩
  · rw [hu.same (by simpa [Dictionary.mapValues] using hfew), Dictionary.get?_mapValues]

lemma live_of_sqlLive {k : Text} {m : LeaseFields} (h : sqlLive t now k = some m) :
    now < m.heartbeat_at + m.ttl_seconds := by
  simpa using (Option.filter_eq_some_iff.mp h).2

/-- Tables whose active leases are all live say just these. -/
lemma sqlLive_eq {A : LiveLeases} (ht : sqlStored t = A)
    (hA : ∀ k m, A k = some m → now < m.heartbeat_at + m.ttl_seconds) : sqlLive t now = A := by
  funext k
  simp only [sqlLive, LiveLeases.liveAt, ht]
  cases hk : A k with
  | none => rfl
  | some m => simp [Option.filter, hA k m hk]

/-- A row that is written in place of another, or as a new one. -/
lemma sqlStored_set {k : Text} {c : LeaseRow} {events : List LeaseEventRow} :
    sqlStored ⟨t.leases.set k c,events⟩ =
      fun j => if j = k then if c.isActive then some c.toLeaseFields else none else sqlStored t j := by
  funext j
  simp only [sqlStored, Dictionary.get?_set]
  split_ifs with hj hactive
  · simp [Option.filter, hactive]
  · simp [Option.filter, hactive]
  · rfl

lemma Sound.set (ht : Sound t) {k : Text} {c : LeaseRow} (hc : SoundRow k c) {events : List LeaseEventRow} :
    Sound ⟨t.leases.set k c,events⟩ := by
  intro j d hd
  rw [Dictionary.get?_set] at hd
  split_ifs at hd with hj
  · cases hd
    rw [hj]
    exact hc
  · exact ht j d hd

lemma rowAllowed_of_allowed {l : LeaseFields} (h : l.allowed = true) : rowAllowed l = true := by
  simp only [LeaseFields.allowed, Bool.and_eq_true, decide_eq_true_eq, LeaseScope.allowed] at h
  obtain ⟨⟨⟨⟨⟨⟨hid,hholder⟩,-⟩,httl⟩,-⟩,hscope⟩,hphase⟩ := h
  simp only [rowAllowed, Bool.and_eq_true, decide_eq_true_eq]
  exact ⟨⟨⟨⟨hid,hholder⟩,by omega⟩,hscope.1⟩,hphase⟩

lemma isInteger_of_allowed {l : LeaseFields} (h : l.allowed = true) : isInteger l.ttl_seconds = true := by
  simp only [LeaseFields.allowed, Bool.and_eq_true, decide_eq_true_eq] at h
  simp only [isInteger, decide_eq_true_eq]
  omega

/-- The conflict search of `coordination_acquire_lease` fails exactly when nothing live conflicts. -/
lemma conflicts_eq_nil {l : LeaseFields} (ht : Sound t) (hl : Normal l.scope) :
    (t.leases.values.filter fun c => c.isActive && c.mode = .hard && l.mode = .hard &&
      coordinationScopeOverlaps l.scope c.scope) = [] ↔ ¬ (sqlStored t).Conflicts l := by
  rw [List.filter_eq_nil_iff]
  constructor
  · rintro hnone ⟨k,m,hk,hm,hlm,hover⟩
    obtain ⟨c,hc,hactive,rfl⟩ := sqlStored_eq_some.mp hk
    apply hnone c ((Dictionary.mem_values_iff _ _).mpr ⟨k,hc⟩)
    rw [leaseScopesOverlap_comm, ← coordinationScopeOverlaps_eq hl (ht k c hc).normal] at hover
    simp [hactive, hm, hlm, hover]
  · intro hno c hc hfound
    obtain ⟨k,hk⟩ := (Dictionary.mem_values_iff _ _).mp hc
    simp only [Bool.and_eq_true, decide_eq_true_eq] at hfound
    obtain ⟨⟨⟨hactive,hm⟩,hlm⟩,hover⟩ := hfound
    rw [coordinationScopeOverlaps_eq hl (ht k c hk).normal, leaseScopesOverlap_comm] at hover
    exact hno ⟨k,c.toLeaseFields,sqlStored_eq_some.mpr ⟨c,hk,hactive,rfl⟩,hm,hlm,hover⟩

/-- The tables after a function: sound, with these leases live. -/
def TablesLive (now : ℤ) (A : LiveLeases) (t : CoordinationTables) : Prop := Sound t ∧ sqlLive t now = A

/-- `coordination_acquire_lease` grants exactly what the live leases allow. -/
theorem sqlAcquire_yields (ht : Sound t) (lease : ConsiliencyLease) (hnormal : Normal lease.scope)
    (htexts : (acquireRpc lease).texts.all jsonbText = true)
    (hiso : isoTimestampSeconds (toContractTimestamp clock) = true) :
    let A := sqlLive t (toContractTimestamp clock)
    let l := { lease.toLeaseFields with
      acquired_at := toContractTimestamp clock, heartbeat_at := toContractTimestamp clock }
    Yields (· = .protectedCapacity) (fun r => (r.1.done = true ↔ A.Grants l) ∧
      (∃ m, r.1.lease = some m ∧ m.allowed = true) ∧
      TablesLive (toContractTimestamp clock) (if r.1.done then A.add l else A) r.2)
      (coordinationAcquireLease t (acquireRpc lease) clock clock [] uuids) := by
  intro A l
  have hallowed : l.allowed = true := retimed_allowed lease hiso hiso
  have hint : isInteger lease.ttl_seconds = true := isInteger_of_allowed lease.allowed
  have hA : ∀ k m, A k = some m → toContractTimestamp clock < m.heartbeat_at + m.ttl_seconds :=
    fun k m h => live_of_sqlLive h
  unfold coordinationAcquireLease
  rw [htexts]
  simp only [acquireRpc, hint, Bool.not_true, Bool.false_eq_true, if_false]
  change Yields _ _ (coordinationExpireLeases t clock uuids >>= _)
  apply yields_bind (sqlExpire_yields ht)
  rintro ⟨drawn,u⟩ hu
  have hstored : sqlStored u = A := hu.stored
  dsimp only [Option.getD_some]
  cases hget : (u.leases.get? lease.lease_id).filter LeaseRow.isActive with
  | some c =>
    obtain ⟨hc,hactive⟩ := Option.filter_eq_some_iff.mp hget
    have hheld : A lease.lease_id = some c.toLeaseFields := by
      rw [← hstored]
      exact sqlStored_eq_some.mpr ⟨c,hc,hactive,rfl⟩
    exact ⟨⟨fun h => (by cases h),fun h => (by cases hheld.symm.trans h.1)⟩,
      ⟨_,rfl,(hu.sound _ c hc).allowed⟩,hu.sound,sqlLive_eq hstored hA⟩
  | none =>
    have hfree : A lease.lease_id = none := by
      rw [← hstored, sqlStored, hget]
      rfl
    have hsearch := conflicts_eq_nil (l := l) hu.sound hnormal
    rw [hstored] at hsearch
    dsimp only
    generalize hsort : List.insertionSort (rowOrder (·.updated_at)) _ = sorted
    have hperm : sorted.Perm (u.leases.values.filter fun c => c.isActive && c.mode = .hard && l.mode = .hard &&
        coordinationScopeOverlaps l.scope c.scope) := by
      rw [← hsort]
      exact List.perm_insertionSort _ _
    cases sorted with
    | cons c cs =>
      have hmem := hperm.mem_iff.mp List.mem_cons_self
      obtain ⟨k,hk⟩ := (Dictionary.mem_values_iff _ _).mp (List.mem_filter.mp hmem).1
      refine ⟨⟨fun h => (by cases h),fun h => ?_⟩,⟨_,rfl,(hu.sound k c hk).allowed⟩,hu.sound,
        sqlLive_eq hstored hA⟩
      rw [hsearch.mpr h.2] at hmem
      cases hmem
    | nil =>
      have hnil := List.Perm.eq_nil hperm.symm
      have hrow : rowAllowed l = true := rowAllowed_of_allowed hallowed
      change Yields _ _ (if !rowAllowed l then _ else _)
      simp only [hrow, Bool.not_true, Bool.false_eq_true, if_false]
      have hsound : SoundRow lease.lease_id ⟨l,.active,l,toContractTimestamp clock,none⟩ :=
        ⟨rfl,rfl,hallowed,hnormal⟩
      apply yields_bind (prune_yields (hu.sound.set hsound))
      intro v hv
      refine ⟨⟨fun _ => ⟨hfree,hsearch.mp hnil⟩,fun _ => rfl⟩,⟨l,rfl,hallowed⟩,
        hv.sound (hu.sound.set hsound),sqlLive_eq ?_ ?_⟩
      · rw [hv.stored, sqlStored_set, hstored]
        rfl
      · intro k m hm
        simp only [if_true, LiveLeases.add] at hm
        split_ifs at hm
        · cases hm
          have httl := ttl_pos lease
          change toContractTimestamp clock < toContractTimestamp clock + lease.ttl_seconds
          omega
        · exact hA k m hm

/-- The failure code of `coordination_renew_lease`, from the row that it finds. -/
def rowRefusal (t : CoordinationTables) (k : Text) : LeaseStoreFailure :=
  match t.leases.get? k with
  | none => .notFound
  | some c => if c.isActive then .notHolder else .expired

/-- `coordination_renew_lease` renews exactly for the holder of a live lease. -/
theorem sqlRenew_yields {k holder : Text} {ttlSeconds : Option ℤ} (ht : Sound t)
    (htexts : (jsonbText k && jsonbText holder) = true) (hholder : holder ≠ [])
    (httl : ttlSeconds.all (fun t => decide (1 ≤ t ∧ t ≤ 7200)) = true)
    (hiso : isoTimestampSeconds (toContractTimestamp clock) = true) :
    let A := sqlLive t (toContractTimestamp clock)
    Yields (· = .protectedCapacity) (fun r => r.1.done = A.holds k holder ∧
      (r.1.done = true → ∃ m, r.1.lease = some m ∧ m.allowed = true) ∧
      (∃ u, Swept t (toContractTimestamp clock) u ∧
        (r.1.done = false → r.1.failure = some (rowRefusal u k))) ∧
      TablesLive (toContractTimestamp clock) (A.renew k holder ttlSeconds (toContractTimestamp clock)) r.2)
      (coordinationRenewLease t k holder ttlSeconds clock clock uuids) := by
  intro A
  have hA : ∀ j m, A j = some m → toContractTimestamp clock < m.heartbeat_at + m.ttl_seconds :=
    fun j m h => live_of_sqlLive h
  have hname : holder.isEmpty = false := List.isEmpty_eq_false_iff.mpr hholder
  unfold coordinationRenewLease
  rw [htexts]
  simp only [Bool.not_true, hname, Bool.false_eq_true, if_false]
  change Yields _ _ (coordinationExpireLeases t clock uuids >>= _)
  apply yields_bind (sqlExpire_yields ht)
  rintro ⟨drawn,u⟩ hu
  have hstored : sqlStored u = A := hu.stored
  dsimp only
  cases hget : u.leases.get? k with
  | none =>
    have hno : A.holds k holder = false := by
      rw [LiveLeases.holds, ← hstored, sqlStored, hget]
      rfl
    refine ⟨hno.symm,fun h => (by cases h),⟨u,hu,fun _ => ?_⟩,hu.sound,?_⟩
    · simp [rowRefusal, hget]
    · rw [LiveLeases.renew, LiveLeases.change_of_not_holds hno]
      exact sqlLive_eq hstored hA
  | some c =>
    have hsound := hu.sound k c hget
    by_cases hactive : c.isActive = true
    · have hsome : A k = some c.toLeaseFields := by
        rw [← hstored]
        exact sqlStored_eq_some.mpr ⟨c,hget,hactive,rfl⟩
      simp only [hactive, Bool.not_true, Bool.false_eq_true, if_false]
      by_cases hsame : c.holder = holder
      · let ttl := ttlSeconds.getD c.ttl_seconds
        let renewed := LiveLeases.renewed ttlSeconds (toContractTimestamp clock) c.toLeaseFields
        have hallowed : renewed.allowed = true := renewed_allowed ⟨c.toLeaseFields,hsound.allowed⟩ httl hiso
        have hint : isInteger ttl = true := isInteger_of_allowed hallowed
        have hrow : rowAllowed renewed = true := rowAllowed_of_allowed hallowed
        change Yields _ _ (if ¬ c.holder = holder then _ else if !isInteger ttl then _ else
          if !rowAllowed renewed then _ else _)
        rw [if_neg (not_not.mpr hsame)]
        simp only [hint, hrow, Bool.not_true, Bool.false_eq_true, if_false]
        have hnew : SoundRow c.lease_id { c with
            toLeaseFields := renewed, payload := { c.payload with
              heartbeat_at := toContractTimestamp clock, ttl_seconds := ttl },
            updated_at := toContractTimestamp clock } :=
          ⟨rfl,by rw [hsound.payload]; rfl,hallowed,hsound.normal⟩
        apply yields_bind (prune_yields (hu.sound.set hnew))
        intro v hv
        refine ⟨(LiveLeases.holds_eq_true.mpr ⟨_,hsome,hsame⟩).symm,fun _ => ⟨_,rfl,?_⟩,
          ⟨u,hu,fun h => (by cases h)⟩,hv.sound (hu.sound.set hnew),?_⟩
        · rw [hsound.payload]
          exact hallowed
        · rw [LiveLeases.renew, change_eq hsome hsame]
          refine sqlLive_eq ?_ fun j m hm => ?_
          · rw [hv.stored, sqlStored_set, hstored, hsound.keyed]
            funext j
            have hstill : LeaseRow.isActive { c with
                toLeaseFields := renewed, payload := { c.payload with
                  heartbeat_at := toContractTimestamp clock, ttl_seconds := ttl },
                updated_at := toContractTimestamp clock } = true := hactive
            rw [if_pos hstill]
          · split_ifs at hm
            · cases hm
              have hpos := ttl_pos ⟨renewed,hallowed⟩
              change toContractTimestamp clock < toContractTimestamp clock + renewed.ttl_seconds
              change 1 ≤ renewed.ttl_seconds at hpos
              omega
            · exact hA j m hm
      · have hno : A.holds k holder = false := by simp [LiveLeases.holds, hsome, hsame]
        rw [if_pos hsame]
        refine ⟨hno.symm,fun h => (by cases h),⟨u,hu,fun _ => ?_⟩,hu.sound,?_⟩
        · simp [rowRefusal, hget, hactive]
        · rw [LiveLeases.renew, LiveLeases.change_of_not_holds hno]
          exact sqlLive_eq hstored hA
    · have hno : A.holds k holder = false := by
        rw [LiveLeases.holds, ← hstored, sqlStored, hget]
        simp [Option.filter, hactive]
      rw [Bool.not_eq_true] at hactive
      simp only [hactive, Bool.not_false, if_true]
      refine ⟨hno.symm,fun h => (by cases h),⟨u,hu,fun _ => ?_⟩,hu.sound,?_⟩
      · simp [rowRefusal, hget, hactive]
      · rw [LiveLeases.renew, LiveLeases.change_of_not_holds hno]
        exact sqlLive_eq hstored hA

/-- `coordination_release_lease` answers by the row alone, dead or alive. -/
theorem sqlRelease_yields {k holder : Text} (ht : Sound t)
    (htexts : (jsonbText k && jsonbText holder) = true) (hholder : holder ≠ []) :
    let A := sqlLive t (toContractTimestamp clock)
    Yields (· = .protectedCapacity) (fun r =>
      r.1.released = ((t.leases.get? k).all fun c => c.holder = holder) ∧
      (r.1.released = false → r.1.failure = some .notHolder) ∧
      TablesLive (toContractTimestamp clock) (A.release k holder) r.2)
      (coordinationReleaseLease t k holder clock uuids) := by
  intro A
  have hname : holder.isEmpty = false := List.isEmpty_eq_false_iff.mpr hholder
  unfold coordinationReleaseLease
  rw [htexts]
  simp only [Bool.not_true, hname, Bool.false_eq_true, if_false]
  cases hget : t.leases.get? k with
  | none =>
    have hno : A.holds k holder = false := by
      have hnone : A k = none := by
        change LiveLeases.liveAt (sqlStored t) _ k = none
        simp [LiveLeases.liveAt, sqlStored, hget]
      simp [LiveLeases.holds, hnone]
    refine ⟨rfl,fun h => (by cases h),ht,?_⟩
    rw [LiveLeases.release, LiveLeases.change_of_not_holds hno]
  | some c =>
    have hA : A k = ((if c.isActive then some c.toLeaseFields else none).filter fun m =>
        decide (toContractTimestamp clock < m.heartbeat_at + m.ttl_seconds)) := by
      change LiveLeases.liveAt (sqlStored t) _ k = _
      simp only [LiveLeases.liveAt, sqlStored, hget]
      by_cases hactive : c.isActive = true <;> simp [Option.filter, hactive]
    change Yields _ _ (if ¬ c.holder = holder then _ else _)
    by_cases hsame : c.holder = holder
    · rw [if_neg (not_not.mpr hsame)]
      have hnew : SoundRow c.lease_id { c with
          state := .released, released_at := some (toContractTimestamp clock),
          updated_at := toContractTimestamp clock } :=
        ⟨rfl,(ht k c hget).payload,(ht k c hget).allowed,(ht k c hget).normal⟩
      apply yields_bind (prune_yields (ht.set hnew))
      intro v hv
      refine ⟨by simp [hsame],fun h => (by cases h),hv.sound (ht.set hnew),?_⟩
      have hstored : sqlStored v = fun j => if j = k then none else sqlStored t j := by
        rw [hv.stored, sqlStored_set, (ht k c hget).keyed]
        rfl
      funext j
      by_cases hj : j = k
      · subst hj
        have hgone : sqlLive v (toContractTimestamp clock) j = none := by
          simp [sqlLive, LiveLeases.liveAt, hstored]
        rw [hgone]
        unfold LiveLeases.release LiveLeases.change
        by_cases hholds : A.holds j holder = true
        · simp [hholds]
        · have hnone : A j = none := by
            rw [hA]
            by_contra hne
            obtain ⟨m,hm⟩ := Option.ne_none_iff_exists'.mp hne
            apply hholds
            apply LiveLeases.holds_eq_true.mpr
            refine ⟨m,hA.trans hm,?_⟩
            have hfields := (Option.filter_eq_some_iff.mp hm).1
            split_ifs at hfields
            cases hfields
            exact hsame
          simp [hholds, hnone]
      · simp only [sqlLive, LiveLeases.liveAt, hstored, LiveLeases.release, LiveLeases.change, hj, if_false,
          false_and]
        rfl
    · have hno : A.holds k holder = false := by
        rw [LiveLeases.holds, hA]
        cases c.isActive
        · rfl
        · by_cases hlive : toContractTimestamp clock < c.heartbeat_at + c.ttl_seconds <;>
            simp [Option.filter, hlive, hsame]
      rw [if_pos hsame]
      refine ⟨by simp [hsame],fun _ => rfl,ht,?_⟩
      rw [LiveLeases.release, LiveLeases.change_of_not_holds hno]

lemma rowOrder_iff {f : LeaseRow → ℤ} {a b : LeaseRow} :
    rowOrder f a b ↔ (compareLex (compareOn f) (compareOn fun c => Text.codePoints c.lease_id) a b).isLE = true := by
  unfold rowOrder compareLex compareOn
  rcases lt_trichotomy (f a) (f b) with h | h | h
  · simp [h, compare_lt_iff_lt.mpr h]
  · simp only [h, lt_irrefl, false_or, true_and, compare_eq_iff_eq.mpr, Ordering.then, compareIds]
    cases compare (Text.codePoints a.lease_id) (Text.codePoints b.lease_id) <;> simp
  · simp [compare_gt_iff_gt.mpr h, not_lt.mpr h.le, h.ne']

instance (f : LeaseRow → ℤ) : Std.Total (rowOrder f) where
  total a b := by
    rw [rowOrder_iff, rowOrder_iff]
    cases h : compareLex (compareOn f) (compareOn fun c => Text.codePoints c.lease_id) a b with
    | gt =>
      right
      have hswap : compareLex (compareOn f) (compareOn fun c => Text.codePoints c.lease_id) b a =
          (compareLex (compareOn f) (compareOn fun c => Text.codePoints c.lease_id) a b).swap := Std.OrientedCmp.eq_swap
      rw [hswap, h]
      rfl
    | lt => exact Or.inl rfl
    | eq => exact Or.inl rfl

instance (f : LeaseRow → ℤ) : IsTrans LeaseRow (rowOrder f) where
  trans a b c hab hbc := by
    rw [rowOrder_iff] at hab hbc ⊢
    exact Std.TransCmp.isLE_trans hab hbc

lemma acquired_iso {l : LeaseFields} (h : l.allowed = true) : isoTimestampSeconds l.acquired_at = true := by
  simp only [LeaseFields.allowed, Bool.and_eq_true] at h
  exact h.1.1.1.1.2

/-- The order of a page of rows is that of the leases in them. -/
lemma pageOrder_of_rowOrder {a b : LeaseRow} (ha : a.toLeaseFields.allowed = true)
    (hb : b.toLeaseFields.allowed = true) (h : rowOrder (·.acquired_at) a b) :
    pageOrder a.toLeaseFields b.toLeaseFields := by
  rw [rowOrder_iff] at h
  change ((compareTimestamps a.acquired_at b.acquired_at).then _).isLE = true
  rw [compareTimestamps_of_iso (acquired_iso ha) (acquired_iso hb)]
  exact h

lemma pastCursor_eq {c : LeaseRow} {cursor : CoordinationTuple} (hc : c.toLeaseFields.allowed = true)
    (hcursor : isoTimestampSeconds cursor.timestamp = true) :
    pastCursor c cursor = (compareCoordinationTuple (fieldsTuple c.toLeaseFields) cursor == .gt) := by
  unfold pastCursor compareCoordinationTuple fieldsTuple
  simp only
  rw [compareTimestamps_of_iso (acquired_iso hc) hcursor]
  rcases lt_trichotomy c.acquired_at cursor.timestamp with h | h | h
  · simp [compare_lt_iff_lt.mpr h, not_lt.mpr h.le, h.ne]
  · simp only [h, lt_irrefl, false_or, true_and, compare_eq_iff_eq.mpr, Ordering.then]
    cases compareIds c.lease_id cursor.id <;> simp
  · simp [h, compare_gt_iff_gt.mpr h]

/-- The keys of sound rows are their leases' ids. -/
lemma keyed_sqlStored (ht : Sound t) : Keyed (sqlStored t) := by
  intro k m hk
  obtain ⟨c,hc,-,rfl⟩ := sqlStored_eq_some.mp hk
  have hsound := ht k c hc
  refine ⟨hsound.keyed,?_⟩
  have h := hsound.allowed
  simp only [LeaseFields.allowed, Bool.and_eq_true] at h
  rw [← hsound.keyed]
  exact h.1.1.1.1.1.1

lemma nodup_row_ids (ht : Sound t) : (t.leases.values.map (·.lease_id)).Nodup := by
  have hids : t.leases.values.map (·.lease_id) = t.leases.entries.map Prod.fst := by
    rw [Dictionary.values, List.map_map]
    apply List.map_congr_left
    rintro ⟨k,c⟩ he
    exact (ht k c ((Dictionary.mem_entries_iff _ _ _).mp he)).keyed
  rw [hids]
  exact t.leases.nodup

/-- The `where` clause asks of a sound row what `LocalLeaseStore` asks of its lease. -/
lemma where_eq {q : LeaseQuery} {cursor : Option CoordinationTuple} {k : Text} {c : LeaseRow} (hc : SoundRow k c)
    (hcursor : ∀ d ∈ cursor, d.id ≠ [] ∧ isoTimestampSeconds d.timestamp = true)
    (hnormal : ∀ s ∈ q.scope, Normal s) :
    q.leaseId.all (c.lease_id == ·) = q.leaseId.all (· == c.lease_id) ∧
    q.mode.all (c.mode == ·) = q.mode.all (· == c.mode) ∧
    q.scope.all (coordinationScopeOverlaps c.scope) = q.scope.all (leaseScopesOverlap c.scope) ∧
    cursor.all (pastCursor c) =
      cursor.all (fun d => compareCoordinationTuple (fieldsTuple c.toLeaseFields) d == .gt) :=
  ⟨option_all_congr fun _ _ => Bool.beq_comm,option_all_congr fun _ _ => Bool.beq_comm,
    option_all_congr fun s hs => coordinationScopeOverlaps_eq hc.normal (hnormal s hs),
    option_all_congr fun d hd => pastCursor_eq hc.allowed (hcursor d hd).2⟩

/-- The statement's clock reading is not cut to seconds, but an expiry falls on a second. -/
lemma before_expiry {e : ℤ} : clock < 1000 * e ↔ toContractTimestamp clock < e := by
  unfold toContractTimestamp
  omega

/-- `coordination_page_limit` lets such a page through. -/
lemma pageLimit_eq_ok {limit : ℤ} {cursor : Option CoordinationTuple} (hlimit : 1 ≤ limit ∧ limit ≤ 500)
    (hcursor : ∀ c ∈ cursor, c.id ≠ [] ∧ sqlTimestamp c.timestamp = true) :
    coordinationPageLimit limit cursor = .ok limit.toNat := by
  have hprinted : cursor.all (fun c => !c.id.isEmpty && isoTimestampSeconds c.timestamp) = true := by
    rw [Option.all_eq_true]
    intro c hc
    obtain ⟨hid,htime⟩ := hcursor c hc
    rw [isoTimestamp_of_sqlTimestamp htime, List.isEmpty_eq_false_iff.mpr hid]
    rfl
  have hread : cursor.all (fun c => sqlTimestamp c.timestamp) = true :=
    (Option.all_eq_true _ _).mpr fun c hc => (hcursor c hc).2
  rw [coordinationPageLimit, if_pos ⟨hlimit.1,hlimit.2,hprinted⟩, if_pos hread]

/-- `coordination_query_leases` returns the page of what it looks at. -/
theorem sqlQuery_page {q : LeaseQuery} {limit : ℤ} {cursor : Option CoordinationTuple} (ht : Sound t)
    (htexts : (q.texts cursor).all jsonbText = true) (hlimit : 1 ≤ limit ∧ limit ≤ 500)
    (hcursor : ∀ c ∈ cursor, c.id ≠ [] ∧ sqlTimestamp c.timestamp = true) (hnormal : ∀ s ∈ q.scope, Normal s) :
    ∃ ls, coordinationQueryLeases t q limit cursor clock = .ok ls ∧ (∀ m ∈ ls, m.allowed = true) ∧
      IsPage (Selected (scanned (sqlStored t) q (toContractTimestamp clock)) q cursor) limit.toNat ls := by
  have hprinted : ∀ c ∈ cursor, c.id ≠ [] ∧ isoTimestampSeconds c.timestamp = true :=
    fun c hc => (hcursor c hc).imp id isoTimestamp_of_sqlTimestamp
  unfold coordinationQueryLeases
  rw [htexts, pageLimit_eq_ok hlimit hcursor]
  refine ⟨_,rfl,?_,?_⟩
  · intro m hm
    obtain ⟨c,hc,rfl⟩ := List.mem_map.mp hm
    have hrow := (List.mem_filter.mp ((List.mem_insertionSort _).mp (List.mem_of_mem_take hc))).1
    obtain ⟨k,hk⟩ := (Dictionary.mem_values_iff _ _).mp hrow
    exact (ht k c hk).allowed
  · have hallowed : ∀ c ∈ t.leases.values, c.toLeaseFields.allowed = true := by
      intro c hc
      obtain ⟨k,hk⟩ := (Dictionary.mem_values_iff _ _).mp hc
      exact (ht k c hk).allowed
    refine ⟨_,List.map_take,?_,?_,?_⟩
    · apply List.pairwise_map.mpr
      refine List.Pairwise.imp_of_mem ?_ (List.pairwise_insertionSort (rowOrder (·.acquired_at)) _)
      intro a b ha hb hab
      exact pageOrder_of_rowOrder (hallowed a (List.mem_filter.mp ((List.mem_insertionSort _).mp ha)).1)
        (hallowed b (List.mem_filter.mp ((List.mem_insertionSort _).mp hb)).1) hab
    · apply List.Nodup.of_map LeaseFields.lease_id
      rw [List.map_map]
      apply ((List.perm_insertionSort _ _).map _).nodup_iff.mpr
      exact (List.filter_sublist.map _).nodup (nodup_row_ids ht)
    · intro m
      simp only [List.mem_map, List.mem_insertionSort, List.mem_filter, Selected, Bool.and_eq_true]
      constructor
      · rintro ⟨c,⟨hc,⟨⟨⟨⟨hactive,hlive⟩,hid⟩,hmode⟩,hscope⟩,hpast⟩,rfl⟩
        obtain ⟨k,hk⟩ := (Dictionary.mem_values_iff _ _).mp hc
        obtain ⟨h₁,h₂,h₃,h₄⟩ := where_eq (ht k c hk) hprinted hnormal
        have hraw := sqlStored_eq_some.mpr ⟨c,hk,hactive,rfl⟩
        refine ⟨⟨k,scanned_eq_some.mpr ⟨hraw,?_⟩⟩,h₁ ▸ hid,h₃ ▸ hscope,h₂ ▸ hmode,h₄ ▸ hpast⟩
        rw [Bool.or_eq_true, decide_eq_true_eq, before_expiry] at hlive
        exact hlive
      · rintro ⟨⟨k,hk⟩,hid,hscope,hmode,hpast⟩
        obtain ⟨hraw,hlive⟩ := scanned_eq_some.mp hk
        obtain ⟨c,hc,hactive,rfl⟩ := sqlStored_eq_some.mp hraw
        obtain ⟨h₁,h₂,h₃,h₄⟩ := where_eq (ht k c hc) hprinted hnormal
        refine ⟨c,⟨(Dictionary.mem_values_iff _ _).mpr ⟨k,hc⟩,⟨⟨⟨⟨hactive,?_⟩,h₁ ▸ hid⟩,h₂ ▸ hmode⟩,
          h₃ ▸ hscope⟩,h₄ ▸ hpast⟩,rfl⟩
        rw [Bool.or_eq_true, decide_eq_true_eq, before_expiry]
        exact hlive

end Tables
end OmniagentPlus.WorktreeLeasing
