import Mathlib.Data.List.Sort
import Mathlib.Algebra.Ring.Int.Defs
import OmniagentPlus.WorktreeLeasing.LeaseStore

/-! The lease functions of `coordination_server_time.sql`, each one transaction on the current
leases and the lease events. A timestamp that is written has been cut to whole seconds. -/
namespace OmniagentPlus.WorktreeLeasing
open OmniagentPlus.Foundation OmniagentPlus.CoreContracts OmniagentPlus.StateLedger

inductive RowState
  | active
  | released
  | expired
  deriving DecidableEq, Repr

/-- A row of `coordination_current_leases`. -/
structure LeaseRow extends LeaseFields where
  state : RowState
  payload : LeaseFields
  updated_at : ℤ
  released_at : Option ℤ
  deriving DecidableEq

/-- A row of `coordination_lease_events`; the columns that nothing reads are left out. -/
structure LeaseEventRow where
  id : ℕ
  event_type : LeaseEventType
  lease_id : Text
  holder : Text
  payload : LeaseFields
  created_at : ℤ
  deriving DecidableEq

structure CoordinationTables where
  leases : Dictionary Text LeaseRow
  events : List LeaseEventRow
  deriving DecidableEq

/-- What a function raises; the transaction then leaves the tables as they were. -/
inductive SqlError
  | untranslatable
  | invalidParameter
  | datetimeOverflow
  | checkViolation
  | protectedCapacity
  deriving DecidableEq, Repr

/-- A text that `jsonb` takes: it has no NUL, and no surrogate without its other half. -/
def jsonbText (t : Text) : Bool := !t.contains 0 && t.isWellFormed

/-- The timestamps that the database writes as `toISOString` does: its calendar has no year 0. -/
def sqlTimestamp (t : ℤ) : Bool := decide (-62135596800 ≤ t ∧ t ≤ 253402300799)

lemma isoTimestamp_of_sqlTimestamp {t : ℤ} (h : sqlTimestamp t = true) : isoTimestampSeconds t = true := by
  rw [sqlTimestamp, decide_eq_true_eq] at h
  rw [isoTimestampSeconds, decide_eq_true_eq]
  omega

def LeaseRow.isActive (c : LeaseRow) : Bool := c.state = .active

/-- `now_at >= heartbeat_at + make_interval(secs => ttl_seconds)` -/
def LeaseRow.isPast (c : LeaseRow) (now_at : ℤ) : Bool := decide (c.heartbeat_at + c.ttl_seconds ≤ now_at)

/-- The check constraints of `coordination_current_leases`. -/
def rowAllowed (c : LeaseFields) : Bool :=
  leaseIdAllowed c.lease_id && !c.holder.isEmpty && decide (0 < c.ttl_seconds ∧ c.ttl_seconds ≤ 7200) &&
    !c.scope.selector.isEmpty && !c.phase.isEmpty

/-- `::integer` -/
def isInteger (n : ℤ) : Bool := decide (-2 ^ 31 ≤ n ∧ n < 2 ^ 31)

/-- `order by created_at, id` -/
def eventOrder (a b : LeaseEventRow) : Prop :=
  a.created_at < b.created_at ∨ a.created_at = b.created_at ∧ a.id ≤ b.id

instance : DecidableRel eventOrder := fun a b => by unfold eventOrder; infer_instance

/-- `order by t, lease_id collate "C"` for a timestamp `t` of the row. -/
def rowOrder (t : LeaseRow → ℤ) (a b : LeaseRow) : Prop :=
  t a < t b ∨ t a = t b ∧ compareIds a.lease_id b.lease_id ≠ .gt

instance (t : LeaseRow → ℤ) : DecidableRel (rowOrder t) := fun a b => by unfold rowOrder; infer_instance

/-- `distinct on (lease_id)`, ordered by `created_at desc, id desc`. -/
def latestEvent (es : List LeaseEventRow) : Option LeaseEventRow := (es.insertionSort eventOrder).getLast?

/-- The last event of each active lease as it is now, and its last acquisition. -/
def protectedIds (t : CoordinationTables) : List ℕ :=
  let active := t.leases.values.filter LeaseRow.isActive
  let latest := active.filterMap fun c =>
    latestEvent (t.events.filter fun e => e.lease_id = c.lease_id && e.payload = c.payload)
  let acquisitions := active.filterMap fun c =>
    latestEvent (t.events.filter fun e => e.lease_id = c.lease_id && e.event_type = .acquire &&
      e.holder = c.holder && e.payload.acquired_at = c.payload.acquired_at)
  (latest ++ acquisitions).map (·.id)

def coordinationPruneHistory (t : CoordinationTables) : Except SqlError CoordinationTables :=
  let oldest := (t.events.filter fun e => !(protectedIds t).contains e.id).insertionSort eventOrder
  let deleted := (oldest.take (t.events.length - 10000)).map (·.id)
  let events := t.events.filter fun e => !deleted.contains e.id
  if 10000 < events.length then .error .protectedCapacity
  else
    let dead := (t.leases.values.filter fun c => !c.isActive).insertionSort (rowOrder (·.updated_at))
    let dropped := (dead.take (t.leases.entries.length - 10000)).map (·.lease_id)
    let leases := t.leases.filter fun c => !dropped.contains c.lease_id
    if 10000 < leases.entries.length then .error .protectedCapacity else .ok ⟨leases,events⟩

/-- `coordination_scope_overlaps`; `rtrim(value, '/')` cuts as `trimSlashes` does. -/
def coordinationScopeOverlaps (left right : LeaseScope) : Bool :=
  if left.granularity = .repo ∨ right.granularity = .repo then true
  else if left.granularity ≠ right.granularity then false
  else
    left.selector.any fun left_value => right.selector.any fun right_value =>
      left.granularity = .symbol && left_value == right_value ||
      left.granularity = .pathSet && (trimSlashes left_value == trimSlashes right_value ||
        (trimSlashes right_value ++ [slash]).isPrefixOf (trimSlashes left_value) ||
        (trimSlashes left_value ++ [slash]).isPrefixOf (trimSlashes right_value))

/-- The row as `coordination_expire_leases` leaves it. -/
def expireRow (now_at : ℤ) (c : LeaseRow) : LeaseRow :=
  if c.isActive && c.isPast now_at then { c with state := .expired, updated_at := now_at } else c

/-- `clock` is `clock_timestamp()`, `uuids` are the event ids that this call draws. -/
def coordinationExpireLeases (t : CoordinationTables) (clock : ℤ) (uuids : ℕ → ℕ) :
    Except SqlError (ℕ × CoordinationTables) := do
  let now_at := toContractTimestamp clock
  let expired := t.leases.values.filter fun c => c.isActive && c.isPast now_at
  let events := expired.mapIdx fun i c => ⟨uuids i,.expire,c.lease_id,c.holder,c.payload,now_at⟩
  let t ← coordinationPruneHistory ⟨t.leases.mapValues (expireRow now_at),t.events ++ events⟩
  return (expired.length,t)

/-- An answer of `coordination_acquire_lease` or `coordination_renew_lease`: a lease, or why not. -/
structure SqlAnswer where
  done : Bool
  lease : Option LeaseFields
  failure : Option LeaseStoreFailure
  deriving DecidableEq

/-- The texts of a request that its caller has chosen. -/
def LeaseAcquireRequest.texts (request : LeaseAcquireRequest) : List Text :=
  request.leaseId.toList ++ [request.holder,request.phase] ++ request.scope.selector

/-- `swept` is the clock reading of the expiry call, `clock` the one after it. The request is read as
`jsonb` before the function is called. -/
def coordinationAcquireLease (t : CoordinationTables) (request : LeaseAcquireRequest)
    (swept clock : ℤ) (uuid : Text) (uuids : ℕ → ℕ) : Except SqlError (SqlAnswer × CoordinationTables) := do
  if !request.texts.all jsonbText then throw .untranslatable
  if !isInteger request.ttlSeconds then throw .invalidParameter
  let (drawn,t) ← coordinationExpireLeases t swept uuids
  let now_at := toContractTimestamp clock
  let requested_id := request.leaseId.getD (Text.of "lease:" ++ uuid)
  match (t.leases.get? requested_id).filter LeaseRow.isActive with
  | some c => return (⟨false,some c.toLeaseFields,some .conflict⟩,t)
  | none =>
    let conflicts := t.leases.values.filter fun c =>
      c.isActive && c.mode = .hard && request.mode = .hard && coordinationScopeOverlaps request.scope c.scope
    match conflicts.insertionSort (rowOrder (·.updated_at)) with
    | c :: _ => return (⟨false,some c.toLeaseFields,some .conflict⟩,t)
    | [] =>
      let lease_payload : LeaseFields :=
        ⟨requested_id,request.holder,now_at,request.ttlSeconds,now_at,request.mode,request.scope,request.phase⟩
      if !rowAllowed lease_payload then throw .checkViolation
      let t ← coordinationPruneHistory
        { leases := t.leases.set requested_id ⟨lease_payload,.active,lease_payload,now_at,none⟩
          events := t.events ++
            [⟨uuids drawn,.acquire,requested_id,request.holder,lease_payload,now_at⟩] }
      return (⟨true,some lease_payload,none⟩,t)

def coordinationRenewLease (t : CoordinationTables) (lease_id holder : Text) (ttl_seconds : Option ℤ)
    (swept clock : ℤ) (uuids : ℕ → ℕ) : Except SqlError (SqlAnswer × CoordinationTables) := do
  if !(jsonbText lease_id && jsonbText holder) then throw .untranslatable
  if holder.isEmpty then return (⟨false,none,some .notHolder⟩,t)
  let (drawn,t) ← coordinationExpireLeases t swept uuids
  let now_at := toContractTimestamp clock
  match t.leases.get? lease_id with
  | none => return (⟨false,none,some .notFound⟩,t)
  | some lease_row =>
    if !lease_row.isActive then return (⟨false,none,some .expired⟩,t)
    if lease_row.holder ≠ holder then return (⟨false,none,some .notHolder⟩,t)
    let ttl := ttl_seconds.getD lease_row.ttl_seconds
    if !isInteger ttl then throw .invalidParameter
    let renewed := { lease_row.toLeaseFields with heartbeat_at := now_at, ttl_seconds := ttl }
    let renewed_payload := { lease_row.payload with heartbeat_at := now_at, ttl_seconds := ttl }
    if !rowAllowed renewed then throw .checkViolation
    let t ← coordinationPruneHistory
      { leases := t.leases.set lease_row.lease_id
          { lease_row with toLeaseFields := renewed, payload := renewed_payload, updated_at := now_at }
        events := t.events ++
          [⟨uuids drawn,.renew,lease_row.lease_id,lease_row.holder,renewed_payload,now_at⟩] }
    return (⟨true,some renewed_payload,none⟩,t)

/-- No expiry call and no look at the row's state. -/
def coordinationReleaseLease (t : CoordinationTables) (lease_id holder : Text) (clock : ℤ)
    (uuids : ℕ → ℕ) : Except SqlError (LeaseReleaseResult × CoordinationTables) := do
  if !(jsonbText lease_id && jsonbText holder) then throw .untranslatable
  if holder.isEmpty then return (⟨false,some .notHolder⟩,t)
  let now_at := toContractTimestamp clock
  match t.leases.get? lease_id with
  | none => return (⟨true,some .notFound⟩,t)
  | some lease_row =>
    if lease_row.holder ≠ holder then return (⟨false,some .notHolder⟩,t)
    let t ← coordinationPruneHistory
      { leases := t.leases.set lease_row.lease_id
          { lease_row with state := .released, released_at := some now_at, updated_at := now_at }
        events := t.events ++
          [⟨uuids 0,.release,lease_row.lease_id,lease_row.holder,lease_row.payload,now_at⟩] }
    return (⟨true,none⟩,t)

/-- `coordination_page_limit`: the cursor's timestamp must be printed with a year of four digits, and
`::timestamptz` must read it. -/
def coordinationPageLimit (limit : ℤ) (cursor : Option CoordinationTuple) : Except SqlError ℕ :=
  if 1 ≤ limit ∧ limit ≤ 500 ∧ cursor.all (fun c => !c.id.isEmpty && isoTimestampSeconds c.timestamp) then
    if cursor.all (fun c => sqlTimestamp c.timestamp) then .ok limit.toNat else .error .datetimeOverflow
  else .error .invalidParameter

/-- `(acquired_at, lease_id) > (timestamp, id)` -/
def pastCursor (c : LeaseRow) (cursor : CoordinationTuple) : Bool :=
  decide (cursor.timestamp < c.acquired_at ∨
    c.acquired_at = cursor.timestamp ∧ compareIds c.lease_id cursor.id = .gt)

lemma option_all_congr {α : Type*} {o : Option α} {p q : α → Bool} (h : ∀ a ∈ o, p a = q a) :
    o.all p = o.all q := by
  cases o with
  | none => rfl
  | some a => exact h a rfl

/-- The texts of a query that its caller has chosen. -/
def LeaseQuery.texts (q : LeaseQuery) (cursor : Option CoordinationTuple) : List Text :=
  q.leaseId.toList ++ q.scope.elim [] (·.selector) ++ (cursor.map (·.id)).toList

/-- `clock` is `statement_timestamp()`, which is not cut to seconds. -/
def coordinationQueryLeases (t : CoordinationTables) (q : LeaseQuery) (limit : ℤ)
    (cursor : Option CoordinationTuple) (clock : ℤ) : Except SqlError (List LeaseFields) := do
  if !(q.texts cursor).all jsonbText then throw .untranslatable
  let limit ← coordinationPageLimit limit cursor
  let matching := t.leases.values.filter fun c =>
    c.isActive && (q.includeExpired || decide (clock < 1000 * (c.heartbeat_at + c.ttl_seconds))) &&
      q.leaseId.all (c.lease_id == ·) && q.mode.all (c.mode == ·) &&
      q.scope.all (coordinationScopeOverlaps c.scope) && cursor.all (pastCursor c)
  return ((matching.insertionSort (rowOrder (·.acquired_at))).take limit).map (·.toLeaseFields)

end OmniagentPlus.WorktreeLeasing
