import OmniagentPlus.Foundation.Transition
import OmniagentPlus.Foundation.Dictionary
import OmniagentPlus.StateLedger.CoordinationPage
import OmniagentPlus.WorktreeLeasing.LeaseScope
import Mathlib.Algebra.Ring.Nat

/-! `LocalLeaseStore` in `lease-store.ts`: one JSON file of leases and lease events, read
and replaced as a whole by every operation under the coordination lock. -/
namespace OmniagentPlus.WorktreeLeasing
open OmniagentPlus.Foundation OmniagentPlus.CoreContracts OmniagentPlus.StateLedger

inductive LeaseStoreFailure
  | conflict
  | notHolder
  | notFound
  | expired
  | backendUnavailable
  deriving DecidableEq, Repr

/-- What an operation throws: a schema's refusal, a full store, a file it cannot accept. -/
inductive LeaseStoreError
  | validation
  | capacity
  | corrupt
  deriving DecidableEq, Repr

structure LeaseAcquireRequest where
  leaseId : Option Text
  holder : Text
  ttlSeconds : ℤ
  mode : LeaseMode
  scope : LeaseScope
  phase : Text
  now : Option ℤ
  deriving DecidableEq, Repr

structure LeaseAcquireResult where
  granted : Bool
  lease : Option ConsiliencyLease
  conflict : Option ConsiliencyLease
  failure : Option LeaseStoreFailure
  deriving DecidableEq

structure LeaseRenewResult where
  renewed : Bool
  lease : Option ConsiliencyLease
  failure : Option LeaseStoreFailure
  deriving DecidableEq

structure LeaseReleaseResult where
  released : Bool
  failure : Option LeaseStoreFailure
  deriving DecidableEq, Repr

structure LeaseQuery where
  leaseId : Option Text
  scope : Option LeaseScope
  includeExpired : Bool
  now : Option ℤ
  mode : Option LeaseMode
  page : CoordinationPage
  deriving DecidableEq, Repr

inductive LeaseEventType
  | acquire
  | renew
  | release
  | expire
  deriving DecidableEq, Repr

structure LeaseEvent where
  eventType : LeaseEventType
  leaseId : Text
  holder : Text
  lease : Option ConsiliencyLease
  recordedAt : ℤ
  reason : Option String
  deriving DecidableEq

structure LocalLeaseStoreState where
  updatedAt : ℤ
  leases : Dictionary Text ConsiliencyLease
  events : List LeaseEvent
  deriving DecidableEq

def emptyState (now : ℤ) : LocalLeaseStoreState := ⟨now,.empty,[]⟩

/-- A key that JavaScript treats as an array index: it is listed before the other keys. -/
def arrayIndex (k : Text) : Option ℕ :=
  let value := k.foldl (fun n u => 10 * n + (u.toNat - 0x30)) 0
  if k ≠ [] ∧ k.all isDigit = true ∧ (k = [0x30] ∨ k.head? ≠ some 0x30) ∧ value < 2 ^ 32 - 1 then
    some value
  else none

/-- `Object.entries`: array indices in ascending order, then the other keys as inserted. -/
def ownEntries {β : Type*} (d : Dictionary Text β) : List (Text × β) :=
  (d.entries.filter (fun e => (arrayIndex e.1).isSome)).mergeSort
      (fun e f => decide ((arrayIndex e.1).getD 0 ≤ (arrayIndex f.1).getD 0)) ++
    d.entries.filter (fun e => (arrayIndex e.1).isNone)

def ownValues {β : Type*} (d : Dictionary Text β) : List β := (ownEntries d).map Prod.snd

def parseLease (l : LeaseFields) : Except LeaseStoreError ConsiliencyLease :=
  match consiliencyLeaseSchema l with
  | some lease => .ok lease
  | none => .error .validation

/-- `createLeaseFromAcquireRequest`; `clock` is `nowIsoString()`, `uuid` is `randomUUID()`. -/
def createLeaseFromAcquireRequest (request : LeaseAcquireRequest) (clock : ℤ) (uuid : Text) :
    Except LeaseStoreError ConsiliencyLease :=
  let now := toContractTimestamp (request.now.getD clock)
  parseLease
    { lease_id := request.leaseId.getD (Text.of "lease:" ++ uuid)
      holder := request.holder
      acquired_at := now
      ttl_seconds := request.ttlSeconds
      heartbeat_at := now
      mode := request.mode
      scope := normalizeLeaseScope request.scope
      phase := request.phase }

/-- `eventSchema`, as far as the event's own type does not say it. -/
def LeaseEvent.allowed (e : LeaseEvent) : Bool :=
  !e.leaseId.isEmpty && !e.holder.isEmpty && isoTimestampSeconds e.recordedAt

/-- The parsed file, or an empty state when there is none. -/
def readState (file : Option LocalLeaseStoreState) (now : ℤ) :
    Except LeaseStoreError LocalLeaseStoreState :=
  match file with
  | none => .ok (emptyState now)
  | some state =>
    if isoTimestampSeconds state.updatedAt && state.events.all LeaseEvent.allowed then
      if state.leases.entries.all (fun e => e.1 == e.2.lease_id) then .ok state else .error .corrupt
    else .error .validation

/-- The last index of an event of each live lease, and of each one's acquisition. -/
def protectedIndices (state : LocalLeaseStoreState) : List ℕ :=
  let latest := state.events.zipIdx.foldl (fun (m : Dictionary Text ℕ) e =>
    match state.leases.get? e.1.leaseId with
    | none => m
    | some lease => m.set lease.lease_id e.2) .empty
  let acquisitions := state.events.zipIdx.foldl (fun (m : Dictionary Text ℕ) e =>
    match state.leases.get? e.1.leaseId with
    | none => m
    | some lease =>
      if e.1.eventType = .acquire ∧ e.1.lease.map (·.acquired_at) = some lease.acquired_at ∧
          e.1.holder = lease.holder then
        m.set lease.lease_id e.2
      else m) .empty
  (latest.values ++ acquisitions.values).eraseDups

/-- The oldest events that are not protected go first, `remove` of them at most. -/
def pruneEvents (kept : List ℕ) : ℕ → List (LeaseEvent × ℕ) → List LeaseEvent
  | _, [] => []
  | 0, events => events.map Prod.fst
  | remove + 1, e :: events =>
    if kept.contains e.2 then e.1 :: pruneEvents kept (remove + 1) events
    else pruneEvents kept remove events

def writeState (state : LocalLeaseStoreState) (now : ℤ) : Except LeaseStoreError LocalLeaseStoreState :=
  if 10000 < state.leases.entries.length then .error .capacity
  else
    let kept := protectedIndices state
    if 10000 < kept.length then .error .capacity
    else
      .ok { state with
        events := pruneEvents kept (state.events.length - 10000) state.events.zipIdx
        updatedAt := now }

/-- One lease of the sweep: its state and the number of leases swept so far. -/
def expireLease (now : ℤ) (acc : LocalLeaseStoreState × ℕ) (e : Text × ConsiliencyLease) :
    LocalLeaseStoreState × ℕ :=
  if isLeaseExpired e.2 now then
    ({ acc.1 with
        leases := acc.1.leases.erase e.1
        events := acc.1.events ++ [⟨.expire,e.1,e.2.holder,some e.2,now,some "ttl_expired"⟩] },
      acc.2 + 1)
  else acc

def expireState (state : LocalLeaseStoreState) (now : ℤ) : LocalLeaseStoreState × ℕ :=
  (ownEntries state.leases).foldl (expireLease now) (state,0)

/-- A hard lease that stands in the way of `lease`. -/
def findConflict (state : LocalLeaseStoreState) (lease : ConsiliencyLease) : Option ConsiliencyLease :=
  (ownValues state.leases).find? fun existing =>
    existing.mode = .hard && lease.mode = .hard && leaseScopesOverlap existing.scope lease.scope

/-- `prepared` and `clock` are the clock readings before and under the lock. -/
def acquire (file : Option LocalLeaseStoreState) (request : LeaseAcquireRequest) (prepared clock : ℤ)
    (uuid : Text) : Except LeaseStoreError (LeaseAcquireResult × Option LocalLeaseStoreState) := do
  let draft ← createLeaseFromAcquireRequest request prepared uuid
  let now := toContractTimestamp (request.now.getD clock)
  let lease ← parseLease { draft.toLeaseFields with acquired_at := now, heartbeat_at := now }
  let state := (expireState (← readState file now) now).1
  match state.leases.get? lease.lease_id with
  | some existing =>
    let written ← writeState state now
    return (⟨false,none,some existing,some .conflict⟩,some written)
  | none =>
    match findConflict state lease with
    | some conflict =>
      let written ← writeState state now
      return (⟨false,none,some conflict,some .conflict⟩,some written)
    | none =>
      let written ← writeState { state with
        leases := state.leases.set lease.lease_id lease
        events := state.events ++ [⟨.acquire,lease.lease_id,lease.holder,some lease,now,none⟩] } now
      return (⟨true,some lease,none,none⟩,some written)

/-- The checks on the arguments of `renew` and `release`; their `options.now` is an instant
here, `none` where it is left out. -/
def checkArguments (leaseId holder : Text) (ttlSeconds : Option ℤ) :
    Except LeaseStoreError Unit :=
  if !leaseId.isEmpty && !holder.isEmpty && ttlSeconds.all (fun t => decide (1 ≤ t ∧ t ≤ 7200)) then
    .ok ()
  else .error .validation

def renew (file : Option LocalLeaseStoreState) (leaseId holder : Text)
    (ttlSeconds requested : Option ℤ) (clock : ℤ) :
    Except LeaseStoreError (LeaseRenewResult × Option LocalLeaseStoreState) := do
  checkArguments leaseId holder ttlSeconds
  let now := toContractTimestamp (requested.getD clock)
  let state := (expireState (← readState file now) now).1
  match state.leases.get? leaseId with
  | none =>
    let written ← writeState state now
    return (⟨false,none,some .notFound⟩,some written)
  | some existing =>
    if existing.holder ≠ holder then return (⟨false,none,some .notHolder⟩,none)
    else if isLeaseExpired existing now then
      let written ← writeState { state with leases := state.leases.erase leaseId } now
      return (⟨false,none,some .expired⟩,some written)
    else
      let lease ← parseLease { existing.toLeaseFields with
        ttl_seconds := ttlSeconds.getD existing.ttl_seconds, heartbeat_at := now }
      let written ← writeState { state with
        leases := state.leases.set leaseId lease
        events := state.events ++ [⟨.renew,leaseId,holder,some lease,now,none⟩] } now
      return (⟨true,some lease,none⟩,some written)

def release (file : Option LocalLeaseStoreState) (leaseId holder : Text) (requested : Option ℤ)
    (clock : ℤ) : Except LeaseStoreError (LeaseReleaseResult × Option LocalLeaseStoreState) := do
  checkArguments leaseId holder none
  let now := toContractTimestamp (requested.getD clock)
  let state := (expireState (← readState file now) now).1
  match state.leases.get? leaseId with
  | none =>
    let written ← writeState state now
    return (⟨true,some .notFound⟩,some written)
  | some existing =>
    if existing.holder ≠ holder then return (⟨false,some .notHolder⟩,none)
    else
      let written ← writeState { state with
        leases := state.leases.erase leaseId
        events := state.events ++ [⟨.release,leaseId,holder,some existing,now,none⟩] } now
      return (⟨true,none⟩,some written)

def leaseTuple (l : ConsiliencyLease) : CoordinationTuple := ⟨l.acquired_at,l.lease_id⟩

def query (file : Option LocalLeaseStoreState) (q : LeaseQuery) (clock : ℤ) :
    Except LeaseStoreError (List ConsiliencyLease) := do
  let (limit,cursor) ← (validateCoordinationPage q.page).elim (.error .validation) .ok
  let now := toContractTimestamp (q.now.getD clock)
  let state ← readState file now
  let matching := ownValues state.leases
    |>.filter (fun lease => q.includeExpired || !isLeaseExpired lease now)
    |>.filter (fun lease => q.leaseId.all (· == lease.lease_id))
    |>.filter (fun lease => q.scope.all (leaseScopesOverlap lease.scope))
    |>.filter (fun lease => q.mode.all (· == lease.mode))
  let sorted := matching.mergeSort fun left right =>
    compareCoordinationTuple (leaseTuple left) (leaseTuple right) != .gt
  return (sorted.filter fun lease =>
    cursor.all fun c => compareCoordinationTuple (leaseTuple lease) c == .gt).take limit

def expire (file : Option LocalLeaseStoreState) (instant : ℤ) :
    Except LeaseStoreError (ℕ × Option LocalLeaseStoreState) := do
  let now := toContractTimestamp instant
  let (state,expired) := expireState (← readState file now) now
  let written ← writeState state now
  return (expired,some written)

/-- An operation with its arguments and what it reads from the clock and the generator. -/
inductive LeaseStoreAction
  | acquire (request : LeaseAcquireRequest) (prepared clock : ℤ) (uuid : Text)
  | renew (leaseId holder : Text) (ttlSeconds requested : Option ℤ) (clock : ℤ)
  | release (leaseId holder : Text) (requested : Option ℤ) (clock : ℤ)
  | query (q : LeaseQuery) (clock : ℤ)
  | expire (instant : ℤ)
  deriving DecidableEq, Repr

/-- The file after an operation: what it wrote, if it got that far. -/
def stored {ρ : Type} (file : Option LocalLeaseStoreState) :
    Except LeaseStoreError (ρ × Option LocalLeaseStoreState) → Option LocalLeaseStoreState
  | .ok (_,some state) => some state
  | _ => file

def leaseStoreStep (file : Option LocalLeaseStoreState) :
    LeaseStoreAction → Option (Option LocalLeaseStoreState)
  | .acquire request prepared clock uuid => some (stored file (acquire file request prepared clock uuid))
  | .renew leaseId holder ttl requested clock =>
    some (stored file (renew file leaseId holder ttl requested clock))
  | .release leaseId holder requested clock => some (stored file (release file leaseId holder requested clock))
  | .query _ _ => some file
  | .expire instant => some (stored file (expire file instant))

theorem mem_ownEntries {β : Type*} {d : Dictionary Text β} {k : Text} {v : β} :
    (k,v) ∈ ownEntries d ↔ d.get? k = some v := by
  rw [← Dictionary.mem_entries_iff, ownEntries, List.mem_append, List.mem_mergeSort, List.mem_filter,
    List.mem_filter]
  cases arrayIndex k <;> simp

lemma parseLease_eq_ok {l : LeaseFields} {lease : ConsiliencyLease} :
    parseLease l = .ok lease ↔ lease.toLeaseFields = l := by
  rw [← consiliencyLeaseSchema_eq_some]
  unfold parseLease
  cases consiliencyLeaseSchema l <;> simp

lemma readState_get? {file : Option LocalLeaseStoreState} {now : ℤ} {state : LocalLeaseStoreState}
    (h : readState file now = .ok state) {k : Text} {l : ConsiliencyLease}
    (hl : state.leases.get? k = some l) : ∃ s, file = some s ∧ s.leases.get? k = some l := by
  unfold readState at h
  cases file with
  | none =>
    cases h
    cases hl
  | some s =>
    simp only at h
    split_ifs at h
    cases h
    exact ⟨state,rfl,hl⟩

lemma writeState_leases {state written : LocalLeaseStoreState} {now : ℤ}
    (h : writeState state now = .ok written) : written.leases = state.leases := by
  unfold writeState at h
  split at h
  · cases h
  · dsimp only at h
    split at h
    · cases h
    · cases h
      rfl

/-- What a sweep over the entries `es` leaves under one key. -/
lemma get?_foldl_expireLease (now : ℤ) (es : List (Text × ConsiliencyLease))
    (acc : LocalLeaseStoreState × ℕ) (k : Text) :
    (es.foldl (expireLease now) acc).1.leases.get? k =
      if es.any (fun e => e.1 == k && isLeaseExpired e.2 now) then none else acc.1.leases.get? k := by
  induction es generalizing acc with
  | nil => rfl
  | cons e es ih =>
    rw [List.foldl_cons, ih, List.any_cons]
    by_cases he : isLeaseExpired e.2 now = true
    · have hleases : (expireLease now acc e).1.leases = acc.1.leases.erase e.1 := by
        simp [expireLease, he]
      by_cases hk : e.1 = k
      · subst hk
        simp [hleases, Dictionary.get?_erase, he]
      · have hkey : (e.1 == k) = false := beq_eq_false_iff_ne.mpr hk
        rw [hleases, Dictionary.get?_erase, if_neg (Ne.symm hk), hkey, Bool.false_and, Bool.false_or]
    · have hsame : expireLease now acc e = acc := by simp [expireLease, he]
      have hlive : isLeaseExpired e.2 now = false := by simpa using he
      rw [hsame, hlive, Bool.and_false, Bool.false_or]

/-- The sweep keeps exactly the leases that have not expired. -/
theorem get?_expireState (state : LocalLeaseStoreState) (now : ℤ) (k : Text) :
    (expireState state now).1.leases.get? k =
      (state.leases.get? k).filter (fun l => !isLeaseExpired l now) := by
  rw [expireState, get?_foldl_expireLease]
  by_cases h : (ownEntries state.leases).any (fun e => e.1 == k && isLeaseExpired e.2 now) = true
  · obtain ⟨⟨j,l⟩,hmem,he⟩ := List.any_eq_true.mp h
    simp only [Bool.and_eq_true, beq_iff_eq] at he
    obtain ⟨rfl,he⟩ := he
    rw [if_pos h, mem_ownEntries.mp hmem]
    simp [Option.filter, he]
  · rw [if_neg h]
    cases hk : state.leases.get? k with
    | none => rfl
    | some l =>
      have hl : isLeaseExpired l now = false := by
        by_contra hl
        exact h (List.any_eq_true.mpr ⟨(k,l),mem_ownEntries.mpr hk,by simpa using hl⟩)
      simp [Option.filter, hl]

/-- A lease that the sweep leaves was stored in the file and had not expired. -/
lemma stored_of_swept {file : Option LocalLeaseStoreState} {now : ℤ} {state : LocalLeaseStoreState}
    (h : readState file now = .ok state) {k : Text} {l : ConsiliencyLease}
    (hl : (expireState state now).1.leases.get? k = some l) :
    (∃ s, file = some s ∧ s.leases.get? k = some l) ∧ isLeaseExpired l now = false := by
  rw [get?_expireState] at hl
  obtain ⟨hl,hlive⟩ := Option.filter_eq_some_iff.mp hl
  exact ⟨readState_get? h hl,by simpa using hlive⟩

lemma findConflict_eq_none {state : LocalLeaseStoreState} {lease : ConsiliencyLease}
    (h : findConflict state lease = none) (hm : lease.mode = .hard) {k : Text} {l : ConsiliencyLease}
    (hl : state.leases.get? k = some l) (hlm : l.mode = .hard) :
    leaseScopesOverlap l.scope lease.scope = false := by
  have hmem : l ∈ ownValues state.leases := List.mem_map.mpr ⟨(k,l),mem_ownEntries.mpr hl,rfl⟩
  have hl := List.find?_eq_none.mp h l hmem
  simpa [hm, hlm] using hl

/-- What a successful `acquire` writes: the swept leases, and at most the new one besides. -/
theorem acquire_cases {file : Option LocalLeaseStoreState} {request : LeaseAcquireRequest}
    {prepared clock : ℤ} {uuid : Text} {result : LeaseAcquireResult}
    {written : Option LocalLeaseStoreState}
    (h : acquire file request prepared clock uuid = .ok (result,written)) :
    ∃ state t lease, readState file (toContractTimestamp (request.now.getD clock)) = .ok state ∧
      written = some t ∧ lease.scope = normalizeLeaseScope request.scope ∧ lease.mode = request.mode ∧
      let swept := (expireState state (toContractTimestamp (request.now.getD clock))).1
      (t.leases = swept.leases ∨
        t.leases = swept.leases.set lease.lease_id lease ∧ swept.leases.get? lease.lease_id = none ∧
          findConflict swept lease = none) := by
  unfold acquire at h
  obtain ⟨draft,hdraft,h⟩ := except_bind_eq_ok.mp h
  obtain ⟨lease,hlease,h⟩ := except_bind_eq_ok.mp h
  obtain ⟨state,hstate,h⟩ := except_bind_eq_ok.mp h
  have hfields := parseLease_eq_ok.mp hlease
  have hdraft := parseLease_eq_ok.mp hdraft
  have hscope : lease.scope = normalizeLeaseScope request.scope := by rw [hfields, hdraft]
  have hmode : lease.mode = request.mode := by rw [hfields, hdraft]
  refine ⟨state,?_⟩
  dsimp only at h
  split at h
  · obtain ⟨t,ht,h⟩ := except_bind_eq_ok.mp h
    cases h
    exact ⟨t,lease,hstate,rfl,hscope,hmode,Or.inl (writeState_leases ht)⟩
  · rename_i hnone
    split at h
    · obtain ⟨t,ht,h⟩ := except_bind_eq_ok.mp h
      cases h
      exact ⟨t,lease,hstate,rfl,hscope,hmode,Or.inl (writeState_leases ht)⟩
    · rename_i hfind
      obtain ⟨t,ht,h⟩ := except_bind_eq_ok.mp h
      cases h
      exact ⟨t,lease,hstate,rfl,hscope,hmode,Or.inr ⟨writeState_leases ht,hnone,hfind⟩⟩

end OmniagentPlus.WorktreeLeasing
