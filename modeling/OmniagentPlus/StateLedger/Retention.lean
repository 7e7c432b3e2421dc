import OmniagentPlus.Foundation.Dictionary
import OmniagentPlus.Foundation.Saturation
import OmniagentPlus.CoreContracts.StateLedger
import Mathlib.Data.Finset.Basic
import Mathlib.Data.List.DropRight

/-! `retention.ts`: which records of a ledger a retention policy keeps. -/
namespace OmniagentPlus.StateLedger
open OmniagentPlus.Foundation OmniagentPlus.CoreContracts

structure RetentionPolicy where
  pruneKinds : Option (List StateLedgerRecordKind)
  maxAgeMs : Option ℤ
  keepLatestPerKind : Option ℤ
  protectedRecordIds : Option (List String)
  nonRootKinds : Option (List StateLedgerRecordKind)
  deriving DecidableEq, Repr

/-- A JSON array of strings, `null` where the string is missing. -/
abbrev EntityKey := List (Option String)

def entityKey (r : StateLedgerEntry) : EntityKey :=
  match r.payload with
  | .session p => [some "session",some p.id]
  | .turn p => [some "turn",some p.sessionId,some p.turnId]
  | .worktreeLease p => [some "lease",some p.id]
  | .approvalRequest p => [some "request",some p.sessionId,some p.turnId,some p.approvalRequestId]
  | .approvalResponse p => [some "response",r.sessionId,r.turnId,some p.approvalRequestId]
  | .providerCooldown p => [some "cooldown",some p.provider.name]
  | .identityProfileStatus profileId _ => [some "identity",some profileId]
  | _ => [some "record",some r.recordId]

def latest (records : List StateLedgerEntry) : Dictionary EntityKey StateLedgerEntry :=
  Dictionary.indexBy entityKey records

/-- `["closed", "failed"].includes(state)` -/
def AgentSessionState.ended (s : AgentSessionState) : Bool := s = .closed || s = .failed

/-- `["cancelled", "timed_out", "completed", "failed"].includes(state)` -/
def TurnState.terminal (s : TurnState) : Bool := s = .cancelled || s = .timedOut || s = .completed || s = .failed

/-- A pair of session and turn, as the key of a set. -/
abbrev TurnKey := Option String × Option String

/-- The sets that the loop over `latest.values()` fills. -/
structure LiveSets where
  sessions : Finset String
  turns : Finset TurnKey
  leases : Finset String
  requests : Finset (String × String × String)
  deriving DecidableEq

def LiveSets.addSession (s : LiveSets) (id : String) : LiveSets := { s with sessions := insert id s.sessions }
def LiveSets.addTurn (s : LiveSets) (key : TurnKey) : LiveSets := { s with turns := insert key s.turns }

def responseKey (p : RuntimeApprovalRequest) : EntityKey :=
  [some "response",some p.sessionId,some p.turnId,some p.approvalRequestId]

/-- The body of the loop over `latest.values()`. -/
def addLive (newest : Dictionary EntityKey StateLedgerEntry) (nonRoots : List StateLedgerRecordKind)
    (now : ℤ) (s : LiveSets) (r : StateLedgerEntry) : LiveSets :=
  if nonRoots.contains r.kind then s
  else match r.payload with
    | .session p => if AgentSessionState.ended p.state then s else s.addSession p.id
    | .turn p =>
      if TurnState.terminal p.state then s
      else (s.addTurn (some p.sessionId,some p.turnId)).addSession p.sessionId
    | .worktreeLease p =>
      if p.expiresAt.after now then
        let s := { s with leases := insert p.id s.leases }
        let s := (truthy p.holder.sessionId).elim s s.addSession
        (truthy p.holder.turnId).elim s fun _ => s.addTurn (p.holder.sessionId,p.holder.turnId)
      else s
    | .approvalRequest p =>
      if (newest.get? (responseKey p)).isSome then s
      else
        let s := { s with requests := insert (p.sessionId,p.turnId,p.approvalRequestId) s.requests }
        (s.addSession p.sessionId).addTurn (some p.sessionId,some p.turnId)
    | _ => s

def liveSets (newest : Dictionary EntityKey StateLedgerEntry) (nonRoots : List StateLedgerRecordKind)
    (now : ℤ) : LiveSets :=
  newest.values.foldl (addLive newest nonRoots now) ⟨∅,∅,∅,∅⟩

/-- The records kept by the policy itself: pinned, of a kind that is not pruned, young
enough, or among the latest of their kind. -/
def initialKeep (records : List StateLedgerEntry) (policy : RetentionPolicy) (now : ℤ) : Finset ℕ :=
  let pruneKinds := policy.pruneKinds.getD stateLedgerRecordKinds
  let nonRoots := policy.nonRootKinds.getD []
  let pins := policy.protectedRecordIds.getD []
  let keepLatestPerKind := policy.keepLatestPerKind.getD 0
  let rooted := records.filter fun r => pins.contains r.recordId || (!nonRoots.contains r.kind &&
    (!pruneKinds.contains r.kind || policy.maxAgeMs.all fun age => r.recordedAt.atOrAfter (now - age)))
  let newest := pruneKinds.flatMap fun kind =>
    if nonRoots.contains kind || decide (keepLatestPerKind ≤ 0) then []
    else (records.filter fun r => decide (r.kind = kind)).rtake keepLatestPerKind.toNat
  ((rooted ++ newest).map StateLedgerEntry.sequence).toFinset

/-- What the closure loop grows. -/
structure Selection where
  keep : Finset ℕ
  tasks : Finset String
  deriving DecidableEq

def addKeep (sequence : ℕ) (m : Selection × Bool) : Selection × Bool :=
  if sequence ∈ m.1.keep then m else ({ m.1 with keep := insert sequence m.1.keep },true)

/-- `add(tasks, value)` -/
def addTask (value : Option String) (m : Selection × Bool) : Selection × Bool :=
  match truthy value with
  | none => m
  | some task => if task ∈ m.1.tasks then m else ({ m.1 with tasks := insert task m.1.tasks },true)

/-- `reference(...key)` -/
def reference (newest : Dictionary EntityKey StateLedgerEntry) (key : EntityKey)
    (m : Selection × Bool) : Selection × Bool :=
  match newest.get? key with
  | none => m
  | some dependency => addKeep dependency.sequence m

def scopedSession (r : StateLedgerEntry) : Option String :=
  match r.payload with
  | .session p => some p.id
  | _ => r.sessionId

def protectedHistory (nonRoots : List StateLedgerRecordKind) (live : LiveSets) (tasks : Finset String)
    (r : StateLedgerEntry) : Bool :=
  !nonRoots.contains r.kind &&
    ((truthy (scopedSession r)).any (· ∈ live.sessions) || decide ((r.sessionId,r.turnId) ∈ live.turns) ||
      (truthy r.taskId).any (· ∈ tasks) ||
      match r.payload with
      | .worktreeLease p => decide (p.id ∈ live.leases)
      | .approvalRequest p => decide ((p.sessionId,p.turnId,p.approvalRequestId) ∈ live.requests)
      | _ => false)

/-- The keys of a record's `reference` calls, in order. -/
def referencedKeys (r : StateLedgerEntry) : List EntityKey :=
  ((truthy (scopedSession r)).toList.map fun id => [some "session",some id]) ++
  ((truthy r.turnId).toList.map fun _ => [some "turn",r.sessionId,r.turnId]) ++
  match r.payload with
  | .session p =>
    [[some "session",p.parentSessionId],[some "session",p.rootSessionId],[some "lease",p.worktree]] ++
      ((p.handoffPacket.map Prod.snd).getD []).map fun source => [some "session",some source]
  | .worktreeLease p =>
    [some "session",p.holder.sessionId] ::
      (truthy p.holder.turnId).toList.map fun _ => [some "turn",p.holder.sessionId,p.holder.turnId]
  | .approvalResponse p => [[some "request",r.sessionId,r.turnId,some p.approvalRequestId]]
  | .approvalRequest p => [responseKey p]
  | _ => []

/-- What follows from a record that is kept: the newest record of its entity, its task, and
the newest records of the entities it refers to. -/
def keepDependencies (newest : Dictionary EntityKey StateLedgerEntry) (isProtected : Bool)
    (r : StateLedgerEntry) (m : Selection × Bool) : Selection × Bool :=
  let m := reference newest (entityKey r) m
  let m := if isProtected then addTask r.taskId m else m
  (referencedKeys r).foldl (fun m key => reference newest key m) m

/-- The body of the closure loop. -/
def visitRecord (newest : Dictionary EntityKey StateLedgerEntry) (nonRoots : List StateLedgerRecordKind)
    (live : LiveSets) (r : StateLedgerEntry) (m : Selection × Bool) : Selection × Bool :=
  let isProtected := protectedHistory nonRoots live m.1.tasks r
  let m := if isProtected then addKeep r.sequence m else m
  if r.sequence ∈ m.1.keep then keepDependencies newest isProtected r m else m

/-- The closure loop ends by itself within this many turns. -/
def closureFuel (records : List StateLedgerEntry) : ℕ := 2 * records.length + 1

def retentionClosure (records : List StateLedgerEntry) (policy : RetentionPolicy) (now : ℤ) : Selection :=
  let newest := latest records
  let nonRoots := policy.nonRootKinds.getD []
  saturate (visitRecord newest nonRoots (liveSets newest nonRoots now)) records (closureFuel records)
    ⟨initialKeep records policy now,∅⟩

def selectRetentionSequences (records : List StateLedgerEntry) (policy : RetentionPolicy) (now : ℤ) :
    Finset ℕ :=
  (retentionClosure records policy now).keep

/-- The records that a compaction by the policy keeps. -/
def retained (records : List StateLedgerEntry) (policy : RetentionPolicy) (now : ℤ) :
    List StateLedgerEntry :=
  records.filter fun r => r.sequence ∈ selectRetentionSequences records policy now

end OmniagentPlus.StateLedger
