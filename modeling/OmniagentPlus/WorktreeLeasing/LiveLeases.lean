import OmniagentPlus.WorktreeLeasing.LeaseStore

/-! What a lease backend is for: the leases that are live at an instant, by lease id, and how
each operation changes them. `LocalLeaseStore` refines it. -/
namespace OmniagentPlus.WorktreeLeasing
open OmniagentPlus.Foundation OmniagentPlus.CoreContracts OmniagentPlus.StateLedger

/-- The live leases by lease id. -/
abbrev LiveLeases := Text → Option LeaseFields

namespace LiveLeases

/-- Those that are still live at `now`. -/
def liveAt (A : LiveLeases) (now : ℤ) : LiveLeases :=
  fun k => (A k).filter fun m => decide (now < m.heartbeat_at + m.ttl_seconds)

/-- A hard lease covers a part of what the hard lease `l` asks for. -/
def Conflicts (A : LiveLeases) (l : LeaseFields) : Prop :=
  ∃ k m, A k = some m ∧ m.mode = .hard ∧ l.mode = .hard ∧ leaseScopesOverlap m.scope l.scope = true

def Grants (A : LiveLeases) (l : LeaseFields) : Prop := A l.lease_id = none ∧ ¬ A.Conflicts l

def add (A : LiveLeases) (l : LeaseFields) : LiveLeases := fun k => if k = l.lease_id then some l else A k

def holds (A : LiveLeases) (k holder : Text) : Bool := (A k).any fun m => m.holder = holder

/-- `f` of the lease `k`, if it is the holder's. -/
def change (A : LiveLeases) (k holder : Text) (f : LeaseFields → Option LeaseFields) : LiveLeases :=
  fun j => if j = k ∧ A.holds k holder = true then (A k).bind f else A j

/-- The lease with a new heartbeat and time to live. -/
def renewed (ttlSeconds : Option ℤ) (now : ℤ) (m : LeaseFields) : LeaseFields :=
  { m with ttl_seconds := ttlSeconds.getD m.ttl_seconds, heartbeat_at := now }

def renew (A : LiveLeases) (k holder : Text) (ttlSeconds : Option ℤ) (now : ℤ) : LiveLeases :=
  A.change k holder fun m => some (renewed ttlSeconds now m)

def release (A : LiveLeases) (k holder : Text) : LiveLeases := A.change k holder fun _ => none

/-- Why a lease is not renewed for a holder who has it not. -/
def refusal (A : LiveLeases) (k : Text) : LeaseStoreFailure := if (A k).isNone then .notFound else .notHolder

theorem liveAt_liveAt (A : LiveLeases) {now later : ℤ} (h : now ≤ later) :
    (A.liveAt now).liveAt later = A.liveAt later := by
  funext k
  simp only [LiveLeases.liveAt]
  cases A k with
  | none => rfl
  | some m =>
    by_cases hm : later < m.heartbeat_at + m.ttl_seconds
    · have hnow : now < m.heartbeat_at + m.ttl_seconds := by omega
      simp [Option.filter, hm, hnow]
    · by_cases hnow : now < m.heartbeat_at + m.ttl_seconds <;> simp [Option.filter, hm, hnow]

theorem holds_eq_true {A : LiveLeases} {k holder : Text} :
    A.holds k holder = true ↔ ∃ m, A k = some m ∧ m.holder = holder := by
  simp [holds, Option.any_eq_true]

theorem change_of_not_holds {A : LiveLeases} {k holder : Text} {f : LeaseFields → Option LeaseFields}
    (h : A.holds k holder = false) : A.change k holder f = A := by
  funext j
  simp [change, h]

end LiveLeases

/-- The leases of a file, expired ones that nothing has swept among them. -/
def localStored (file : Option LocalLeaseStoreState) : LiveLeases :=
  fun k => (file.bind fun s => s.leases.get? k).map (·.toLeaseFields)

def localLive (file : Option LocalLeaseStoreState) (now : ℤ) : LiveLeases := (localStored file).liveAt now

/-- A stored state that a later operation reads back. -/
structure Readable (s : LocalLeaseStoreState) : Prop where
  events : ∀ e ∈ s.events, e.allowed = true
  keyed : ∀ k l, s.leases.get? k = some l → l.lease_id = k

/-- Such a file, with the time of its last write. -/
def ReadableFile (file : Option LocalLeaseStoreState) : Prop :=
  ∀ s ∈ file, Readable s ∧ isoTimestampSeconds s.updatedAt = true

section Local
variable {file : Option LocalLeaseStoreState} {now clock : ℤ}

lemma lease_names (l : ConsiliencyLease) : l.lease_id ≠ [] ∧ l.holder ≠ [] := by
  have h := l.allowed
  simp only [LeaseFields.allowed, Bool.and_eq_true, Bool.not_eq_true', List.isEmpty_eq_false_iff] at h
  obtain ⟨⟨⟨⟨⟨⟨hid,hholder⟩,-⟩,-⟩,-⟩,-⟩,-⟩ := h
  refine ⟨?_,hholder⟩
  intro hnil
  rw [hnil] at hid
  cases hid

/-- An event of a lease is one that the file's schema accepts. -/
lemma event_allowed {e : LeaseEvent} (l : ConsiliencyLease) (hid : e.leaseId = l.lease_id)
    (hholder : e.holder = l.holder) (hiso : isoTimestampSeconds e.recordedAt = true) : e.allowed = true := by
  obtain ⟨h₁,h₂⟩ := lease_names l
  simp [LeaseEvent.allowed, hid, hholder, hiso, h₁, h₂]

lemma Readable.empty (now : ℤ) : Readable (emptyState now) :=
  ⟨fun e he => (by cases he),fun k l h => (by cases h)⟩

lemma Readable.set {s : LocalLeaseStoreState} (hs : Readable s) (l : ConsiliencyLease) {e : LeaseEvent}
    (he : e.allowed = true) :
    Readable { s with leases := s.leases.set l.lease_id l, events := s.events ++ [e] } := by
  constructor
  · intro f hf
    rcases List.mem_append.mp hf with hf | hf
    · exact hs.events f hf
    · rw [List.mem_singleton.mp hf]
      exact he
  · intro k m hm
    rw [Dictionary.get?_set] at hm
    split_ifs at hm with hk
    · cases hm
      exact hk.symm
    · exact hs.keyed k m hm

lemma Readable.erase {s : LocalLeaseStoreState} (hs : Readable s) (k : Text) {e : LeaseEvent}
    (he : e.allowed = true) :
    Readable { s with leases := s.leases.erase k, events := s.events ++ [e] } := by
  constructor
  · intro f hf
    rcases List.mem_append.mp hf with hf | hf
    · exact hs.events f hf
    · rw [List.mem_singleton.mp hf]
      exact he
  · intro j m hm
    rw [Dictionary.get?_erase] at hm
    split_ifs at hm
    exact hs.keyed j m hm

/-- The sweep leaves a readable state. -/
lemma Readable.expireState {s : LocalLeaseStoreState} (hs : Readable s) (hiso : isoTimestampSeconds now = true) :
    Readable (expireState s now).1 := by
  have hfold : ∀ (es : List (Text × ConsiliencyLease)) (acc : LocalLeaseStoreState × ℕ), Readable acc.1 →
      (∀ e ∈ es, e.2.lease_id = e.1) → Readable (es.foldl (expireLease now) acc).1 := by
    intro es
    induction es with
    | nil =>
      intro acc hacc _
      exact hacc
    | cons e es ih =>
      intro acc hacc hes
      rw [List.foldl_cons]
      apply ih _ _ (fun f hf => hes f (List.mem_cons_of_mem e hf))
      unfold expireLease
      split_ifs
      · exact hacc.erase e.1 (event_allowed e.2 (hes e List.mem_cons_self).symm rfl hiso)
      · exact hacc
  apply hfold _ _ hs
  rintro ⟨k,l⟩ he
  exact hs.keyed k l (mem_ownEntries.mp he)

lemma mem_pruneEvents {kept : List ℕ} {remove : ℕ} {es : List (LeaseEvent × ℕ)} {e : LeaseEvent}
    (h : e ∈ pruneEvents kept remove es) : ∃ i, (e,i) ∈ es := by
  induction es generalizing remove with
  | nil => cases remove <;> simp [pruneEvents] at h
  | cons f es ih =>
    cases remove with
    | zero =>
      obtain ⟨⟨g,i⟩,hg,rfl⟩ := List.mem_map.mp h
      exact ⟨i,hg⟩
    | succ remove =>
      simp only [pruneEvents] at h
      split_ifs at h
      · rcases List.mem_cons.mp h with rfl | h
        · exact ⟨f.2,List.mem_cons_self⟩
        · obtain ⟨i,hi⟩ := ih h
          exact ⟨i,List.mem_cons_of_mem f hi⟩
      · obtain ⟨i,hi⟩ := ih h
        exact ⟨i,List.mem_cons_of_mem f hi⟩

/-- A write stores the leases as they are, or the store is full. -/
lemma writeState_yields {s : LocalLeaseStoreState} (hs : Readable s) (hiso : isoTimestampSeconds now = true) :
    Yields (· = .capacity) (fun w => w.leases = s.leases ∧ ReadableFile (some w)) (writeState s now) := by
  unfold writeState
  split_ifs
  · rfl
  · dsimp only
    split_ifs
    · rfl
    · refine ⟨rfl,fun w hw => ?_⟩
      cases hw
      refine ⟨⟨fun e he => ?_,hs.keyed⟩,hiso⟩
      obtain ⟨i,hi⟩ := mem_pruneEvents he
      exact hs.events e (List.fst_mem_of_mem_zipIdx hi)

/-- A readable file is read back as it is. -/
lemma read_yields {E : LeaseStoreError → Prop} (hfile : ReadableFile file) :
    Yields E (fun s => Readable s ∧ ∀ k, s.leases.get? k = file.bind fun s => s.leases.get? k)
      (readState file now) := by
  cases file with
  | none => exact ⟨Readable.empty now,fun k => rfl⟩
  | some s =>
    obtain ⟨hs,hupdated⟩ := hfile s rfl
    have hall : s.events.all LeaseEvent.allowed = true := List.all_eq_true.mpr hs.events
    have hkeys : (s.leases.entries.all fun e => e.1 == e.2.lease_id) = true := by
      apply List.all_eq_true.mpr
      rintro ⟨k,l⟩ he
      simpa using (hs.keyed k l ((Dictionary.mem_entries_iff _ _ _).mp he)).symm
    simp only [readState, hupdated, hall, hkeys]
    exact ⟨hs,fun k => rfl⟩

lemma isLeaseExpired_eq_false {l : ConsiliencyLease} :
    isLeaseExpired l now = false ↔ now < l.heartbeat_at + l.ttl_seconds :=
  decide_eq_false_iff_not.trans Int.not_le

/-- Its sweep leaves what is live. -/
lemma sweep_yields {E : LeaseStoreError → Prop} (hfile : ReadableFile file) (hiso : isoTimestampSeconds now = true) :
    Yields E (fun s => Readable (expireState s now).1 ∧
      ∀ k, ((expireState s now).1.leases.get? k).map (·.toLeaseFields) = localLive file now k)
      (readState file now) := by
  apply yields_mono (read_yields hfile)
  intro s hs
  refine ⟨hs.1.expireState hiso,fun k => ?_⟩
  rw [get?_expireState, hs.2]
  simp only [localLive, localStored, LiveLeases.liveAt]
  cases file.bind fun s => s.leases.get? k with
  | none => rfl
  | some l => by_cases hl : l.heartbeat_at + l.ttl_seconds ≤ now <;>
      simp [Option.filter, isLeaseExpired, expiresAtForLease, hl]

/-- The lease that a request asks for at `now`. -/
def askedLease (request : LeaseAcquireRequest) (uuid : Text) (now : ℤ) : LeaseFields :=
  { lease_id := request.leaseId.getD (Text.of "lease:" ++ uuid)
    holder := request.holder
    acquired_at := now
    ttl_seconds := request.ttlSeconds
    heartbeat_at := now
    mode := request.mode
    scope := normalizeLeaseScope request.scope
    phase := request.phase }

lemma live_of_localLive {k : Text} {m : LeaseFields} (h : localLive file now k = some m) :
    now < m.heartbeat_at + m.ttl_seconds := by
  simpa using (Option.filter_eq_some_iff.mp h).2

/-- A state whose leases are all live says just these. -/
lemma localLive_eq {w : LocalLeaseStoreState} {A : LiveLeases}
    (hw : ∀ k, (w.leases.get? k).map (·.toLeaseFields) = A k)
    (hA : ∀ k m, A k = some m → now < m.heartbeat_at + m.ttl_seconds) : localLive (some w) now = A := by
  funext k
  simp only [localLive, localStored, LiveLeases.liveAt, Option.bind_some, hw]
  cases hk : A k with
  | none => rfl
  | some m => simp [Option.filter, hA k m hk]

/-- The conflict search fails exactly when nothing live conflicts. -/
lemma findConflict_isNone {s : LocalLeaseStoreState} {A : LiveLeases} {lease : ConsiliencyLease}
    (hs : ∀ k, (s.leases.get? k).map (·.toLeaseFields) = A k) :
    findConflict s lease = none ↔ ¬ A.Conflicts lease.toLeaseFields := by
  constructor
  · rintro hnone ⟨k,m,hk,hm,hl,hover⟩
    rw [← hs, Option.map_eq_some_iff] at hk
    obtain ⟨old,hold,rfl⟩ := hk
    rw [findConflict_eq_none hnone hl hold hm] at hover
    cases hover
  · intro hno
    apply List.find?_eq_none.mpr
    intro old hmem hfound
    obtain ⟨⟨k,l⟩,hk,rfl⟩ := List.mem_map.mp hmem
    simp only [Bool.and_eq_true, decide_eq_true_eq] at hfound
    exact hno ⟨k,l.toLeaseFields,by rw [← hs, mem_ownEntries.mp hk]; rfl,hfound.1.1,hfound.1.2,hfound.2⟩

lemma ttl_pos (l : ConsiliencyLease) : 1 ≤ l.ttl_seconds := by
  have h := l.allowed
  simp only [LeaseFields.allowed, Bool.and_eq_true, decide_eq_true_eq] at h
  exact h.1.1.1.2.1

/-- Other times that are timestamps do not make a lease unacceptable. -/
lemma retimed_allowed (l : ConsiliencyLease) {acquired now : ℤ} (hacquired : isoTimestampSeconds acquired = true)
    (hnow : isoTimestampSeconds now = true) :
    LeaseFields.allowed { l.toLeaseFields with acquired_at := acquired, heartbeat_at := now } = true := by
  have h := l.allowed
  simp only [LeaseFields.allowed, Bool.and_eq_true] at h ⊢
  obtain ⟨⟨⟨⟨⟨⟨hid,hholder⟩,-⟩,httl⟩,-⟩,hscope⟩,hphase⟩ := h
  exact ⟨⟨⟨⟨⟨⟨hid,hholder⟩,hacquired⟩,httl⟩,hnow⟩,hscope⟩,hphase⟩

lemma createLease_fields {request : LeaseAcquireRequest} {prepared : ℤ} {uuid : Text}
    {draft : ConsiliencyLease} (h : createLeaseFromAcquireRequest request prepared uuid = .ok draft) :
    draft.toLeaseFields = askedLease request uuid (toContractTimestamp (request.now.getD prepared)) :=
  parseLease_eq_ok.mp h

/-- What an operation on a readable file leaves live. -/
def LeavesLive (now : ℤ) (A : LiveLeases) (file : Option LocalLeaseStoreState) : Prop :=
  ReadableFile file ∧ localLive file now = A

/-- `acquire` of an accepted request grants exactly what the live leases allow. -/
theorem acquire_yields {request : LeaseAcquireRequest} {prepared : ℤ} {uuid : Text} {draft : ConsiliencyLease}
    (hfile : ReadableFile file) (hclock : request.now.getD clock = clock)
    (hiso : isoTimestampSeconds (toContractTimestamp clock) = true)
    (hdraft : createLeaseFromAcquireRequest request prepared uuid = .ok draft) :
    let A := localLive file (toContractTimestamp clock)
    let l := askedLease request uuid (toContractTimestamp clock)
    Yields (· = .capacity) (fun r => (r.1.granted = true ↔ A.Grants l) ∧
      LeavesLive (toContractTimestamp clock) (if r.1.granted then A.add l else A) (r.2.or file))
      (acquire file request prepared clock uuid) := by
  intro A l
  unfold acquire
  rw [hdraft, hclock]
  have hfields := createLease_fields hdraft
  obtain ⟨lease,hlease⟩ : ∃ lease, parseLease { draft.toLeaseFields with
      acquired_at := toContractTimestamp clock, heartbeat_at := toContractTimestamp clock } = .ok lease :=
    ⟨⟨_,retimed_allowed draft hiso hiso⟩,parseLease_eq_ok.mpr rfl⟩
  have hl : lease.toLeaseFields = l := by
    rw [parseLease_eq_ok.mp hlease, hfields]
    rfl
  change Yields _ _ (parseLease _ >>= _)
  rw [hlease]
  change Yields _ _ (readState file (toContractTimestamp clock) >>= _)
  apply yields_bind (sweep_yields hfile hiso)
  intro s hs
  obtain ⟨hread,hlive⟩ := hs
  have hlive : ∀ k, ((expireState s (toContractTimestamp clock)).1.leases.get? k).map (·.toLeaseFields) = A k :=
    hlive
  dsimp only
  have hid : lease.lease_id = l.lease_id := by rw [hl]
  have hA : ∀ k m, A k = some m → toContractTimestamp clock < m.heartbeat_at + m.ttl_seconds :=
    fun k m h => live_of_localLive h
  cases hget : (expireState s (toContractTimestamp clock)).1.leases.get? lease.lease_id with
  | some existing =>
    apply yields_bind (writeState_yields hread hiso)
    intro w hw
    have hheld : A l.lease_id = some existing.toLeaseFields := by
      rw [← hid, ← hlive, hget]
      rfl
    exact ⟨⟨fun h => (by cases h),fun h => (by rw [h.1] at hheld; cases hheld)⟩,hw.2,
      localLive_eq (fun k => by rw [hw.1]; exact hlive k) hA⟩
  | none =>
    have hfree : A l.lease_id = none := by
      rw [← hid, ← hlive, hget]
      rfl
    have hsearch : findConflict (expireState s (toContractTimestamp clock)).1 lease = none ↔
        ¬ A.Conflicts lease.toLeaseFields := findConflict_isNone hlive
    rw [hl] at hsearch
    cases hfind : findConflict (expireState s (toContractTimestamp clock)).1 lease with
    | some conflict =>
      apply yields_bind (writeState_yields hread hiso)
      intro w hw
      refine ⟨⟨fun h => (by cases h),fun h => ?_⟩,hw.2,
        localLive_eq (fun k => by rw [hw.1]; exact hlive k) hA⟩
      rw [hsearch.mpr h.2] at hfind
      cases hfind
    | none =>
      have hevent : (⟨.acquire,lease.lease_id,lease.holder,some lease,toContractTimestamp clock,none⟩ :
          LeaseEvent).allowed = true := event_allowed lease rfl rfl hiso
      apply yields_bind (writeState_yields (hread.set lease hevent) hiso)
      intro w hw
      refine ⟨⟨fun _ => ⟨hfree,hsearch.mp hfind⟩,fun _ => rfl⟩,hw.2,localLive_eq (fun k => ?_) ?_⟩
      · rw [hw.1, Dictionary.get?_set, if_pos rfl]
        simp only [LiveLeases.add, ← hid]
        split_ifs
        · rw [Option.map_some, hl]
        · exact hlive k
      · intro k m hm
        simp only [if_true, LiveLeases.add] at hm
        split_ifs at hm
        · cases hm
          have httl := ttl_pos lease
          rw [hl] at httl
          change toContractTimestamp clock < toContractTimestamp clock + l.ttl_seconds
          omega
        · exact hA k m hm

/-- Another time to live that the schema accepts makes no lease unacceptable. -/
lemma renewed_allowed (l : ConsiliencyLease) {ttlSeconds : Option ℤ}
    (httl : ttlSeconds.all (fun t => decide (1 ≤ t ∧ t ≤ 7200)) = true)
    (hnow : isoTimestampSeconds now = true) :
    LeaseFields.allowed (LiveLeases.renewed ttlSeconds now l.toLeaseFields) = true := by
  have h := l.allowed
  simp only [LeaseFields.allowed, Bool.and_eq_true, LiveLeases.renewed] at h ⊢
  obtain ⟨⟨⟨⟨⟨⟨hid,hholder⟩,hacquired⟩,hold⟩,-⟩,hscope⟩,hphase⟩ := h
  refine ⟨⟨⟨⟨⟨⟨hid,hholder⟩,hacquired⟩,?_⟩,hnow⟩,hscope⟩,hphase⟩
  cases ttlSeconds with
  | none => exact hold
  | some t => exact httl

lemma checkArguments_eq_ok {leaseId holder : Text} {ttlSeconds : Option ℤ} :
    checkArguments leaseId holder ttlSeconds = .ok () ↔ leaseId ≠ [] ∧ holder ≠ [] ∧
      ttlSeconds.all (fun t => decide (1 ≤ t ∧ t ≤ 7200)) = true := by
  unfold checkArguments
  split_ifs with h
  · simpa [and_assoc] using h
  · constructor
    · intro h
      cases h
    · rintro ⟨h₁,h₂,h₃⟩
      apply absurd _ h
      rw [Bool.and_eq_true, h₃]
      simp [h₁, h₂]

/-- Changing one live lease changes what is live in one place. -/
lemma change_eq {A : LiveLeases} {k holder : Text} {m : LeaseFields} (hk : A k = some m)
    (hm : m.holder = holder) (f : LeaseFields → Option LeaseFields) :
    A.change k holder f = fun j => if j = k then f m else A j := by
  have hholds : A.holds k holder = true := LiveLeases.holds_eq_true.mpr ⟨m,hk,hm⟩
  funext j
  by_cases hj : j = k <;> simp [LiveLeases.change, hholds, hk, hj]

/-- `renew` is granted exactly to the holder of a live lease. -/
theorem renew_yields {k holder : Text} {ttlSeconds requested : Option ℤ} (hfile : ReadableFile file)
    (hclock : requested.getD clock = clock) (hiso : isoTimestampSeconds (toContractTimestamp clock) = true)
    (hargs : checkArguments k holder ttlSeconds = .ok ()) :
    let A := localLive file (toContractTimestamp clock)
    Yields (· = .capacity) (fun r => r.1.renewed = A.holds k holder ∧
      (r.1.renewed = false → r.1.failure = some (A.refusal k)) ∧
      LeavesLive (toContractTimestamp clock) (A.renew k holder ttlSeconds (toContractTimestamp clock))
        (r.2.or file)) (renew file k holder ttlSeconds requested clock) := by
  intro A
  unfold renew
  rw [hargs, hclock]
  change Yields _ _ (readState file (toContractTimestamp clock) >>= _)
  apply yields_bind (sweep_yields hfile hiso)
  intro s hs
  obtain ⟨hread,hlive⟩ := hs
  have hlive : ∀ j, ((expireState s (toContractTimestamp clock)).1.leases.get? j).map (·.toLeaseFields) = A j :=
    hlive
  have hA : ∀ j m, A j = some m → toContractTimestamp clock < m.heartbeat_at + m.ttl_seconds :=
    fun j m h => live_of_localLive h
  dsimp only
  cases hget : (expireState s (toContractTimestamp clock)).1.leases.get? k with
  | none =>
    have hnone : A k = none := by
      rw [← hlive, hget]
      rfl
    have hno : A.holds k holder = false := by simp [LiveLeases.holds, hnone]
    apply yields_bind (writeState_yields hread hiso)
    intro w hw
    refine ⟨hno.symm,fun _ => ?_,hw.2,?_⟩
    · simp [LiveLeases.refusal, hnone]
    · rw [LiveLeases.renew, LiveLeases.change_of_not_holds hno]
      exact localLive_eq (fun j => by rw [hw.1]; exact hlive j) hA
  | some existing =>
    have hsome : A k = some existing.toLeaseFields := by
      rw [← hlive, hget]
      rfl
    simp only
    split_ifs with hholder hexpired
    · have hno : A.holds k holder = false := by simp [LiveLeases.holds, hsome, hholder]
      refine ⟨hno.symm,fun _ => ?_,hfile,?_⟩
      · simp [LiveLeases.refusal, hsome]
      · rw [LiveLeases.renew, LiveLeases.change_of_not_holds hno]
        rfl
    · have hlate := hA k _ hsome
      have hdone : expiresAtForLease existing ≤ toContractTimestamp clock := of_decide_eq_true hexpired
      unfold expiresAtForLease at hdone
      omega
    · rw [not_not] at hholder
      have httl := (checkArguments_eq_ok.mp hargs).2.2
      obtain ⟨lease,hlease⟩ : ∃ lease, parseLease (LiveLeases.renewed ttlSeconds (toContractTimestamp clock)
          existing.toLeaseFields) = .ok lease :=
        ⟨⟨_,renewed_allowed existing httl hiso⟩,parseLease_eq_ok.mpr rfl⟩
      have hfields := parseLease_eq_ok.mp hlease
      change Yields _ _ (parseLease (LiveLeases.renewed ttlSeconds (toContractTimestamp clock)
        existing.toLeaseFields) >>= _)
      rw [hlease]
      have hkey : k = lease.lease_id := by
        rw [hfields]
        exact (hread.keyed k existing hget).symm
      have hevent : (⟨.renew,k,holder,some lease,toContractTimestamp clock,none⟩ : LeaseEvent).allowed = true :=
        event_allowed lease hkey (by rw [hfields]; exact hholder.symm) hiso
      have hset := hread.set lease hevent
      rw [← hkey] at hset
      apply yields_bind (writeState_yields hset hiso)
      intro w hw
      refine ⟨(LiveLeases.holds_eq_true.mpr ⟨_,hsome,hholder⟩).symm,fun h => (by cases h),hw.2,?_⟩
      rw [LiveLeases.renew, change_eq hsome hholder, ← hfields]
      refine localLive_eq (fun j => ?_) fun j m hm => ?_
      · rw [hw.1, Dictionary.get?_set]
        split_ifs
        · rfl
        · exact hlive j
      · split_ifs at hm
        · cases hm
          have hpos := ttl_pos lease
          have hbeat : lease.heartbeat_at = toContractTimestamp clock := by
            rw [hfields]
            rfl
          omega
        · exact hA j m hm

/-- `release` removes a live lease for its holder alone. -/
theorem release_yields {k holder : Text} {requested : Option ℤ} (hfile : ReadableFile file)
    (hclock : requested.getD clock = clock) (hiso : isoTimestampSeconds (toContractTimestamp clock) = true)
    (hargs : checkArguments k holder none = .ok ()) :
    let A := localLive file (toContractTimestamp clock)
    Yields (· = .capacity) (fun r => r.1.released = ((A k).isNone || A.holds k holder) ∧
      (r.1.released = false → r.1.failure = some .notHolder) ∧
      LeavesLive (toContractTimestamp clock) (A.release k holder) (r.2.or file))
      (release file k holder requested clock) := by
  intro A
  unfold release
  rw [hargs, hclock]
  change Yields _ _ (readState file (toContractTimestamp clock) >>= _)
  apply yields_bind (sweep_yields hfile hiso)
  intro s hs
  obtain ⟨hread,hlive⟩ := hs
  have hlive : ∀ j, ((expireState s (toContractTimestamp clock)).1.leases.get? j).map (·.toLeaseFields) = A j :=
    hlive
  have hA : ∀ j m, A j = some m → toContractTimestamp clock < m.heartbeat_at + m.ttl_seconds :=
    fun j m h => live_of_localLive h
  dsimp only
  cases hget : (expireState s (toContractTimestamp clock)).1.leases.get? k with
  | none =>
    have hnone : A k = none := by
      rw [← hlive, hget]
      rfl
    have hno : A.holds k holder = false := by simp [LiveLeases.holds, hnone]
    apply yields_bind (writeState_yields hread hiso)
    intro w hw
    refine ⟨by simp [hnone],fun h => (by cases h),hw.2,?_⟩
    rw [LiveLeases.release, LiveLeases.change_of_not_holds hno]
    exact localLive_eq (fun j => by rw [hw.1]; exact hlive j) hA
  | some existing =>
    have hsome : A k = some existing.toLeaseFields := by
      rw [← hlive, hget]
      rfl
    simp only
    split_ifs with hholder
    · have hno : A.holds k holder = false := by simp [LiveLeases.holds, hsome, hholder]
      refine ⟨by simp [hno, hsome],fun _ => rfl,hfile,?_⟩
      rw [LiveLeases.release, LiveLeases.change_of_not_holds hno]
      rfl
    · rw [not_not] at hholder
      have hevent : (⟨.release,k,holder,some existing,toContractTimestamp clock,none⟩ :
          LeaseEvent).allowed = true :=
        event_allowed existing (hread.keyed k existing hget).symm hholder.symm hiso
      apply yields_bind (writeState_yields (hread.erase k hevent) hiso)
      intro w hw
      have hholds : A.holds k holder = true := LiveLeases.holds_eq_true.mpr ⟨_,hsome,hholder⟩
      refine ⟨by simp [hholds],fun h => (by cases h),hw.2,?_⟩
      rw [LiveLeases.release, change_eq hsome hholder]
      refine localLive_eq (fun j => ?_) fun j m hm => ?_
      · rw [hw.1, Dictionary.get?_erase]
        split_ifs
        · rfl
        · exact hlive j
      · split_ifs at hm
        exact hA j m hm

/-- `expire` changes nothing that is live. -/
theorem expire_yields (hfile : ReadableFile file) (hiso : isoTimestampSeconds (toContractTimestamp clock) = true) :
    Yields (· = .capacity) (fun r => LeavesLive (toContractTimestamp clock)
      (localLive file (toContractTimestamp clock)) (r.2.or file)) (expire file clock) := by
  unfold expire
  apply yields_bind (sweep_yields hfile hiso)
  intro s hs
  apply yields_bind (writeState_yields hs.1 hiso)
  intro w hw
  exact ⟨hw.2,localLive_eq (fun j => by rw [hw.1]; exact hs.2 j) fun j m h => live_of_localLive h⟩

end Local
end OmniagentPlus.WorktreeLeasing
