import OmniagentPlus.Coordinator.RoutePlanner
import OmniagentPlus.StateLedger.CoordinationChannel
import OmniagentPlus.WorktreeLeasing.LeaseBackends

/-! `LeaseArbiter` of `lease-arbiter.ts` over a lease file: a launch asks for a lease, and where a hard lease is in
its way it may ask the holder to yield. -/
namespace OmniagentPlus.Coordinator
open OmniagentPlus.Foundation OmniagentPlus.CoreContracts OmniagentPlus.StateLedger OmniagentPlus.WorktreeLeasing

inductive BackendFailureCause
  | authentication
  | permission
  | timeout
  | transport
  | validation
  | malformedResponse
  | unavailable
  | capacity
  deriving DecidableEq, Repr

/-- `coordinationFailureCause` of what a local store throws. -/
def coordinationFailureCause : LeaseStoreError → BackendFailureCause
  | .validation => .validation
  | .capacity => .capacity
  | .corrupt => .transport

/-- `written` is the `now` of the request as the caller writes it. -/
structure LeaseArbitrationRequest extends LeaseAcquireRequest where
  written : Option Text
  taskId : Text
  sendYieldRequest : Bool

/-- `RouteDecisionLeaseArbitration`, of the fields that the arbiter sets. -/
structure ArbitratedRoute where
  status : LeaseArbitrationStatus
  mode : LeaseMode
  leaseId : Option Text
  conflictLeaseId : Option Text
  holder : Text
  scope : LeaseScope
  deriving DecidableEq, Repr

structure LeaseNotification where
  sent : Bool
  cause : Option BackendFailureCause
  deriving DecidableEq, Repr

structure LeaseArbitrationDecision (ν : Type) where
  routeDecision : ArbitratedRoute
  acquired : Bool
  launchAllowed : Bool
  inboxMessage : Option (CoordinationMessageInput ν)
  cause : Option BackendFailureCause
  notification : Option LeaseNotification

/-- Whether the store's answer comes back: it may be lost after the store acted, or the store not reached. -/
inductive Delivery
  | answered
  | lost (cause : BackendFailureCause)
  | unreached (cause : BackendFailureCause)
  deriving DecidableEq, Repr

namespace LeaseArbiter
variable {ν : Type}

/-- A result for want of the backend. -/
def unavailable (cause : BackendFailureCause) : LeaseAcquireResult × Option BackendFailureCause :=
  (⟨false,none,none,some .backendUnavailable⟩,some cause)

/-- What `store.acquire` gives the arbiter, and the file after it. -/
def askStore (file : Option LocalLeaseStoreState) (request : LeaseAcquireRequest) (prepared clock : ℤ) (uuid : Text)
    (delivery : Delivery) : (LeaseAcquireResult × Option BackendFailureCause) × Option LocalLeaseStoreState :=
  let outcome := acquire file request prepared clock uuid
  match delivery, outcome with
  | .answered, .ok (result,_) => ((result,none),stored file outcome)
  | .answered, .error e => (unavailable (coordinationFailureCause e),file)
  | .lost cause, _ => (unavailable cause,stored file outcome)
  | .unreached cause, _ => (unavailable cause,file)

/-- The store acts as it does for anyone, unless it is not reached. -/
lemma askStore_file (file : Option LocalLeaseStoreState) (request : LeaseAcquireRequest) (prepared clock : ℤ) (uuid : Text)
    {delivery : Delivery} (h : ∀ cause, delivery ≠ .unreached cause) :
    (askStore file request prepared clock uuid delivery).2 = stored file (acquire file request prepared clock uuid) := by
  unfold askStore
  cases delivery with
  | unreached cause => exact absurd rfl (h cause)
  | lost cause => rfl
  | answered =>
    cases acquire file request prepared clock uuid with
    | error e => rfl
    | ok answer => rfl

/-- A lease that the arbiter is told of was granted. -/
lemma askStore_granted {file : Option LocalLeaseStoreState} {request : LeaseAcquireRequest} {prepared clock : ℤ} {uuid : Text}
    {delivery : Delivery} (h : (askStore file request prepared clock uuid delivery).1.1.granted = true) :
    (∀ cause, delivery ≠ .unreached cause) ∧ ∃ written, acquire file request prepared clock uuid =
      .ok ((askStore file request prepared clock uuid delivery).1.1,written) := by
  unfold askStore at h ⊢
  cases delivery with
  | unreached cause => cases h
  | lost cause => cases h
  | answered =>
    cases hacquire : acquire file request prepared clock uuid with
    | error e =>
      rw [hacquire] at h
      cases h
    | ok answer => exact ⟨fun cause hcause => (by cases hcause),answer.2,rfl⟩

/-- The message to the holder of the lease in the way. -/
def yieldRequest (request : LeaseArbitrationRequest) (lease : ConsiliencyLease) (conflict : Option ConsiliencyLease) :
    Option (CoordinationMessageInput ν) :=
  (conflict.filter fun _ => request.sendYieldRequest).map fun conflict => {
    type := .requestYield
    sender := lease.holder
    scope := lease.scope
    targetHolder := some conflict.holder
    leaseId := some conflict.lease_id
    handoffPacketId := none
    body := some [(Text.of "taskId",.string request.taskId),(Text.of "phase",.string lease.phase)]
    now := request.written }

/-- `channel` sends a message, `none` where there is no channel. -/
def notify (channel : Option (CoordinationMessageInput ν → Except BackendFailureCause Unit))
    (message : CoordinationMessageInput ν) : LeaseNotification :=
  match channel with
  | none => ⟨false,some .unavailable⟩
  | some send =>
    match send message with
    | .ok _ => ⟨true,none⟩
    | .error cause => ⟨false,some cause⟩

/-- What the arbiter makes of the store's answer. -/
def decision (channel : Option (CoordinationMessageInput ν → Except BackendFailureCause Unit))
    (request : LeaseArbitrationRequest) (lease : ConsiliencyLease) (result : LeaseAcquireResult)
    (cause : Option BackendFailureCause) : LeaseArbitrationDecision ν :=
  match result.lease.filter fun _ => result.granted with
  | some granted =>
    ⟨⟨.acquired,granted.mode,some granted.lease_id,none,granted.holder,granted.scope⟩,true,true,none,none,none⟩
  | none =>
    if result.failure = some .backendUnavailable then
      ⟨⟨.coordinationUnavailable,lease.mode,none,none,lease.holder,lease.scope⟩,false,lease.mode == .soft,none,
        some (cause.getD .unavailable),none⟩
    else if lease.mode = .soft then
      ⟨⟨.softConflict,.soft,none,result.conflict.map (·.lease_id),lease.holder,lease.scope⟩,false,true,none,none,none⟩
    else
      let inboxMessage := yieldRequest request lease result.conflict
      ⟨⟨.blockedHardConflict,.hard,none,result.conflict.map (·.lease_id),lease.holder,lease.scope⟩,false,false,inboxMessage,
        none,inboxMessage.map (notify channel)⟩

/-- The request as the arbiter hands it to the store. -/
def askedOf (request : LeaseArbitrationRequest) (lease : ConsiliencyLease) : LeaseAcquireRequest :=
  ⟨some lease.lease_id,lease.holder,lease.ttl_seconds,lease.mode,lease.scope,lease.phase,request.now⟩

/-- `arbitrate`; `arrived` is the clock reading of its own check of the request, and `drawn` the id drawn there. -/
def arbitrate (channel : Option (CoordinationMessageInput ν → Except BackendFailureCause Unit))
    (file : Option LocalLeaseStoreState) (request : LeaseArbitrationRequest) (arrived prepared clock : ℤ)
    (drawn uuid : Text) (delivery : Delivery) :
    Except LeaseStoreError (LeaseArbitrationDecision ν × Option LocalLeaseStoreState) := do
  let lease ← createLeaseFromAcquireRequest request.toLeaseAcquireRequest arrived drawn
  let ((result,cause),after) := askStore file (askedOf request lease) prepared clock uuid delivery
  return (decision channel request lease result cause,after)

/-- A hard launch is allowed on a granted lease only. -/
lemma decision_hard {channel : Option (CoordinationMessageInput ν → Except BackendFailureCause Unit)}
    {request : LeaseArbitrationRequest} {lease : ConsiliencyLease} {result : LeaseAcquireResult}
    {cause : Option BackendFailureCause} (hallowed : (decision channel request lease result cause).launchAllowed = true)
    (hmode : (decision channel request lease result cause).routeDecision.mode = .hard) :
    result.granted = true ∧ ∃ granted, result.lease = some granted ∧
      (decision channel request lease result cause).routeDecision =
        ⟨.acquired,granted.mode,some granted.lease_id,none,granted.holder,granted.scope⟩ := by
  unfold decision at hallowed hmode ⊢
  cases hgranted : result.lease.filter fun _ => result.granted with
  | some granted =>
    obtain ⟨hlease,hyes⟩ := Option.filter_eq_some_iff.mp hgranted
    exact ⟨hyes,granted,hlease,rfl⟩
  | none =>
    simp only [hgranted] at hallowed hmode
    split_ifs at hallowed hmode with hunavailable hsoft
    change lease.mode = .hard at hmode
    change (lease.mode == .soft) = true at hallowed
    rw [hmode] at hallowed
    cases hallowed

/-- What an arbitration comes to, where the request passes its own check. -/
theorem arbitrate_eq_ok {channel : Option (CoordinationMessageInput ν → Except BackendFailureCause Unit)}
    {file after : Option LocalLeaseStoreState} {request : LeaseArbitrationRequest} {arrived prepared clock : ℤ}
    {drawn uuid : Text} {delivery : Delivery} {d : LeaseArbitrationDecision ν} :
    arbitrate channel file request arrived prepared clock drawn uuid delivery = .ok (d,after) ↔
      ∃ lease, createLeaseFromAcquireRequest request.toLeaseAcquireRequest arrived drawn = .ok lease ∧
        let asked := askStore file (askedOf request lease) prepared clock uuid delivery
        d = decision channel request lease asked.1.1 asked.1.2 ∧ after = asked.2 := by
  unfold arbitrate
  cases createLeaseFromAcquireRequest request.toLeaseAcquireRequest arrived drawn with
  | error e => exact ⟨fun h => (by cases h),fun h => (by obtain ⟨_,h,_⟩ := h; cases h)⟩
  | ok lease =>
    constructor
    · intro h
      cases h
      exact ⟨lease,rfl,rfl,rfl⟩
    · intro h
      obtain ⟨_,hlease,rfl,rfl⟩ := h
      cases hlease
      rfl

end LeaseArbiter
end OmniagentPlus.Coordinator
