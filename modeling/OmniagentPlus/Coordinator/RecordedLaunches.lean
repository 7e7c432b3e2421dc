import OmniagentPlus.Foundation.Traversal
import OmniagentPlus.Coordinator.LaunchGate
import OmniagentPlus.StateLedger.LedgerAcknowledgements
import Mathlib.Logic.Function.Basic

/-! The launch gate over the ledger: any number of calls of it, side by side, among all that any processes do to the
ledger, where a write may fail or a process die at any point. Every launch has been written before. -/
namespace OmniagentPlus.Coordinator.LaunchGate
open OmniagentPlus.Foundation OmniagentPlus.CoreContracts OmniagentPlus.StateLedger

/-- What the provider is called for. -/
inductive Launch (ρ : Type)
  | session (request : CreateSessionRequest ρ)
  | turn (request : SendTurnRequest ρ) (session : AgentSessionInfo)
  deriving DecidableEq, Repr

/-- Where a call of the gate stands: before it, at its question to the provider, at the writing of the decision,
after that, and at its end. -/
inductive Stage (ν ρ : Type)
  | idle
  | asking (request : SendTurnRequest ρ) (decision : RouteDecision ν)
  | writing (launch : Launch ρ) (decision : RouteDecision ν)
  | written (launch : Launch ρ) (decision : RouteDecision ν) (record : StateLedgerEntry)
  | over

/-- A call of the provider, with the decision that was written for it and its record. -/
structure Launched (ν ρ : Type) where
  launch : Launch ρ
  decision : RouteDecision ν
  record : StateLedgerEntry

structure State (P C ν ρ : Type) where
  store : AppendOnlyStore.State P
  stage : C → Stage ν ρ
  launched : List (Launched ν ρ)

inductive Action (P C ν ρ : Type)
  /-- anything that a process does to the ledger otherwise -/
  | store (a : AppendOnlyStore.Action P)
  | createSession (c : C) (request : CreateSessionRequest ρ) (decision : RouteDecision ν)
  | sendTurn (c : C) (request : SendTurnRequest ρ) (decision : RouteDecision ν)
  /-- the answer to `getSessionInfo`, `none` for a rejection -/
  | told (c : C) (session : Option AgentSessionInfo)
  | append (c : C) (process : P) (options : AppendOnlyStoreOptions) (now : Instant) (generatedId : String) (torn : ℕ)
      (ending : AppendOnlyStore.Ending)
  | launch (c : C)

section System
variable {P C ν ρ : Type} [DecidableEq P] [DecidableEq C] [JsNumber ν] [RouteNumber ν] (checks : MetadataChecks ν)
  (restAllowed : ρ → Bool) (format : StoreFormat) (write : RouteDecision ν → String)

def State.init : State P C ν ρ := ⟨.init,fun _ => .idle,[]⟩

def State.goto (s : State P C ν ρ) (c : C) (stage : Stage ν ρ) : State P C ν ρ :=
  { s with stage := Function.update s.stage c stage }

/-- The payload of `appendRouteDecision`; `write` gives the text of the fields besides the task. -/
def payloadOf (d : RouteDecision ν) : LedgerPayload := .routeDecision ⟨d.taskId,write d⟩

/-- `AuditLedger.appendRouteDecision`; a decision that passes its schema is inert. -/
def appendRouteDecision (d : RouteDecision ν) (process : P) (options : AppendOnlyStoreOptions) (now : Instant)
    (generatedId : String) (torn : ℕ) (ending : AppendOnlyStore.Ending) : AppendOnlyStore.Action P :=
  ⟨process,options,now,.append ⟨payloadOf write d,none,none,some d.taskId,none,none,none⟩ generatedId torn,ending⟩

/-- Where a call stands after the writing of its decision. -/
def afterAppend (launch : Launch ρ) (decision : RouteDecision ν) (ending : AppendOnlyStore.Ending)
    (answer : Except StoreError (List StateLedgerEntry)) : Stage ν ρ :=
  match ending, answer with
  | .returns, .ok (record :: _) => .written launch decision record
  | _, _ => .over

def afterCreate : Except (GateError ν) (CreateSessionRequest ρ × RouteDecision ν) → Stage ν ρ
  | .ok (request,persisted) => .writing (.session request) persisted
  | .error _ => .over

def afterSend : Except (GateError ν) (SendTurnRequest ρ × RouteDecision ν) → Stage ν ρ
  | .ok (request,decision) => .asking request decision
  | .error _ => .over

def afterTurn (request : SendTurnRequest ρ) (session : AgentSessionInfo) : Except (GateError ν) (RouteDecision ν) → Stage ν ρ
  | .ok persisted => .writing (.turn request session) persisted
  | .error _ => .over

def afterTold (request : SendTurnRequest ρ) (decision : RouteDecision ν) : Option AgentSessionInfo → Stage ν ρ
  | none => .over
  | some session => afterTurn request session (prepareTurn checks request decision session)

def step (s : State P C ν ρ) : Action P C ν ρ → Option (State P C ν ρ)
  | .store a => (AppendOnlyStore.step format s.store a).map fun store => { s with store }
  | .createSession c request decision =>
    match s.stage c with
    | .idle => some (s.goto c (afterCreate (prepareCreate checks restAllowed request decision)))
    | _ => none
  | .sendTurn c request decision =>
    match s.stage c with
    | .idle => some (s.goto c (afterSend (prepareSend checks restAllowed request decision)))
    | _ => none
  | .told c session =>
    match s.stage c with
    | .asking request decision => some (s.goto c (afterTold checks request decision session))
    | _ => none
  | .append c process options now generatedId torn ending =>
    match s.stage c with
    | .writing launch decision =>
      let a := appendRouteDecision write decision process options now generatedId torn ending
      (AppendOnlyStore.step format s.store a).map fun store =>
        { s.goto c (afterAppend launch decision ending (a.program format s.store).2) with store }
    | _ => none
  | .launch c =>
    match s.stage c with
    | .written launch decision record =>
      some { s.goto c .over with launched := s.launched ++ [⟨launch,decision,record⟩] }
    | _ => none

end System
section Reading
variable {ν : Type}

/-- `listPersistedRouteDecisions` of the records that `listTaskRecords` finds; `readDecision` is the schema's parse. -/
def listPersistedRouteDecisions (readDecision : CoreContracts.RouteDecision → Option (RouteDecision ν))
    (records : List StateLedgerEntry) (taskId : String) : Option (List (RouteDecision ν)) :=
  ((records.filter fun r => r.taskId == some taskId).filterMap fun r => match r.payload with
    | .routeDecision d => some d
    | _ => none).mapM readDecision

end Reading
section Cleared
variable {ν ρ : Type}

/-- The launch is of the target that the decision names. -/
def Launch.OfTarget (d : RouteDecision ν) : Launch ρ → Prop
  | .session request => d.selectedHarness = request.targetHarness.name ∧
      (∀ provider ∈ request.targetProvider, d.selectedProvider = provider.name) ∧
        ∀ id ∈ request.identityProfileId, d.selectedIdentityProfileId = some id
  | .turn request info => info.id = request.sessionId ∧ info.targetHarness = d.selectedHarness ∧
      info.targetProvider = some d.selectedProvider ∧ info.identityProfileId = d.selectedIdentityProfileId

variable {d persisted : RouteDecision ν}

lemma assertLaunchDecision_eq_ok {u : Unit} : assertLaunchDecision d = .ok u ↔ gateAction d = .allowed := by
  unfold assertLaunchDecision
  cases gateAction d <;> simp

lemma assertSession_eq_ok {request : SendTurnRequest ρ} {session : AgentSessionInfo} {u : Unit}
    (h : assertSession d request session = .ok u) : (Launch.turn request session).OfTarget d := by
  unfold assertSession at h
  split_ifs at h with hmatches
  simp only [sessionMatches, Bool.and_eq_true, beq_iff_eq] at hmatches
  exact ⟨hmatches.1.1.1.1.1,hmatches.1.1.2,hmatches.1.2,hmatches.2⟩

lemma assertCreateSessionLabels_eq_ok {request : CreateSessionRequest ρ} {u : Unit}
    (h : assertCreateSessionLabels d request = .ok u) : (Launch.session request).OfTarget d := by
  unfold assertCreateSessionLabels at h
  split_ifs at h with hharness hprovider hidentity
  refine ⟨not_not.mp hharness,fun provider hp => ?_,fun id hid => ?_⟩
  · rw [Option.mem_def.mp hp] at hprovider
    simpa using hprovider
  · rw [Option.mem_def.mp hid] at hidentity
    simpa using hidentity

section Checked
variable [JsNumber ν] [RouteNumber ν] (checks : MetadataChecks ν)

/-- The decision passes its schema, says that it is written, allows a launch and names its target. -/
structure Cleared (launch : Launch ρ) (d : RouteDecision ν) : Prop where
  allowed : d.allowed checks = true
  gate : ∃ gate, d.launchGate = some gate ∧ gate.action = .allowed ∧ gate.routeDecisionPersisted = true
  target : launch.OfTarget d

variable {checks}

lemma parse_eq_ok : d.parse checks = .ok persisted ↔ d.allowed checks = true ∧ persisted = d := by
  unfold RouteDecision.parse
  cases d.allowed checks with
  | true => exact ⟨fun h => ⟨rfl,(Except.ok.inj h).symm⟩,fun h => congrArg Except.ok h.2.symm⟩
  | false => exact ⟨fun h => (by cases h),fun h => (by cases h.1)⟩

/-- The written decision is the one that was made, of its evidence and its gate apart. -/
lemma persistedDecision_eq_ok (h : persistedDecision checks d = .ok persisted) :
    persisted.allowed checks = true ∧
      ∃ refs, persisted = { d with evidenceRefs := refs, launchGate := some (persistedGate d.launchGate) } := by
  obtain ⟨refs,-,hparse⟩ := except_bind_eq_ok.mp h
  obtain ⟨hallowed,rfl⟩ := parse_eq_ok.mp hparse
  exact ⟨hallowed,refs,rfl⟩

lemma cleared_of_persisted {launch : Launch ρ} (h : persistedDecision checks d = .ok persisted)
    (haction : gateAction d = .allowed) (htarget : launch.OfTarget d) : Cleared checks launch persisted := by
  obtain ⟨hallowed,refs,rfl⟩ := persistedDecision_eq_ok h
  refine ⟨hallowed,⟨_,rfl,haction,rfl⟩,?_⟩
  cases launch with
  | session request => exact htarget
  | turn request session => exact htarget

variable {restAllowed : ρ → Bool}

lemma prepareCreate_cleared {request created : CreateSessionRequest ρ}
    (h : prepareCreate checks restAllowed request d = .ok (created,persisted)) : Cleared checks (.session created) persisted := by
  obtain ⟨parsed,-,h⟩ := except_bind_eq_ok.mp h
  obtain ⟨decision,-,h⟩ := except_bind_eq_ok.mp h
  obtain ⟨_,hlabels,h⟩ := except_bind_eq_ok.mp h
  obtain ⟨_,hlaunch,h⟩ := except_bind_eq_ok.mp h
  obtain ⟨written,hwritten,h⟩ := except_bind_eq_ok.mp h
  cases h
  exact cleared_of_persisted hwritten (assertLaunchDecision_eq_ok.mp hlaunch) (assertCreateSessionLabels_eq_ok hlabels)

lemma prepareSend_allowed {request sent : SendTurnRequest ρ} {decision : RouteDecision ν}
    (h : prepareSend checks restAllowed request d = .ok (sent,decision)) : gateAction decision = .allowed := by
  obtain ⟨parsed,-,h⟩ := except_bind_eq_ok.mp h
  obtain ⟨parsedDecision,-,h⟩ := except_bind_eq_ok.mp h
  obtain ⟨_,hlaunch,h⟩ := except_bind_eq_ok.mp h
  cases h
  exact assertLaunchDecision_eq_ok.mp hlaunch

lemma prepareTurn_cleared {request : SendTurnRequest ρ} {session : AgentSessionInfo} (haction : gateAction d = .allowed)
    (h : prepareTurn checks request d session = .ok persisted) : Cleared checks (.turn request session) persisted := by
  obtain ⟨_,hsession,h⟩ := except_bind_eq_ok.mp h
  exact cleared_of_persisted h haction (assertSession_eq_ok hsession)

end Checked
end Cleared
section Invariant
variable {P C ν ρ : Type}

section Recorded
variable (write : RouteDecision ν → String)

/-- The record of a launch is acknowledged, and it is of the launch's decision. -/
structure Recorded (store : AppendOnlyStore.State P) (x : Launched ν ρ) : Prop where
  acknowledged : x.record ∈ store.acknowledged
  payload : x.record.payload = payloadOf write x.decision
  task : x.record.taskId = some x.decision.taskId

variable {write}

lemma Recorded.kind {store : AppendOnlyStore.State P} {x : Launched ν ρ} (h : Recorded write store x) :
    x.record.kind ≠ .session := by
  rw [StateLedgerEntry.kind, h.payload]
  simp [payloadOf, LedgerPayload.kind]

lemma Recorded.grown {store after : AppendOnlyStore.State P} {x : Launched ν ρ} (h : Recorded write store x)
    (hgrown : ∃ rs, after.acknowledged = store.acknowledged ++ rs) : Recorded write after x := by
  obtain ⟨rs,hrs⟩ := hgrown
  exact { h with acknowledged := hrs ▸ List.mem_append_left rs h.acknowledged }

end Recorded

variable [JsNumber ν] [RouteNumber ν] {checks : MetadataChecks ν} {restAllowed : ρ → Bool} {format : StoreFormat}
  {write : RouteDecision ν → String}

variable (checks write) in
/-- What is known of a call at its stage. -/
def Standing (store : AppendOnlyStore.State P) : Stage ν ρ → Prop
  | .idle | .over => True
  | .asking _ decision => gateAction decision = .allowed
  | .writing launch decision => Cleared checks launch decision
  | .written launch decision record => Cleared checks launch decision ∧ Recorded write store ⟨launch,decision,record⟩

lemma Standing.grown {store after : AppendOnlyStore.State P} {stage : Stage ν ρ} (h : Standing checks write store stage)
    (hgrown : ∃ rs, after.acknowledged = store.acknowledged ++ rs) : Standing checks write after stage := by
  cases stage with
  | written launch decision record => exact ⟨h.1,h.2.grown hgrown⟩
  | _ => exact h

/-- The record that a call holds. -/
def Stage.record : Stage ν ρ → Option StateLedgerEntry
  | .written _ _ record => some record
  | _ => none

variable (checks format write) in
structure Inv (s : State P C ν ρ) : Prop where
  sound : s.store.Sound (.core format.toLedgerFormat)
  standing : ∀ c, Standing checks write s.store (s.stage c)
  launched : ∀ x ∈ s.launched, Cleared checks x.launch x.decision ∧ Recorded write s.store x
  once : (s.launched.map (·.record)).Nodup
  apart : ∀ c r, (s.stage c).record = some r → r ∉ s.launched.map (·.record)
  own : ∀ c c' r, (s.stage c).record = some r → (s.stage c').record = some r → c = c'

lemma Inv.init : Inv checks format write (State.init : State P C ν ρ) where
  sound := .init
  standing _ := trivial
  launched _ h := absurd h List.not_mem_nil
  once := List.nodup_nil
  apart _ _ h := by cases h
  own _ _ _ h := by cases h

variable {s : State P C ν ρ} {store : AppendOnlyStore.State P}

lemma afterTold_standing {request : SendTurnRequest ρ} {decision : RouteDecision ν} (haction : gateAction decision = .allowed)
    (info : Option AgentSessionInfo) : Standing checks write store (afterTold checks request decision info) ∧
      (afterTold checks request decision info).record = none := by
  cases info with
  | none => exact ⟨trivial,rfl⟩
  | some info =>
    rw [afterTold]
    cases hturn : prepareTurn checks request decision info with
    | error e => exact ⟨trivial,rfl⟩
    | ok persisted => exact ⟨prepareTurn_cleared haction hturn,rfl⟩

lemma afterCreate_standing (request : CreateSessionRequest ρ) (decision : RouteDecision ν) :
    Standing checks write store (afterCreate (prepareCreate checks restAllowed request decision)) ∧
      (afterCreate (prepareCreate checks restAllowed request decision)).record = none := by
  cases hcreate : prepareCreate checks restAllowed request decision with
  | error e => exact ⟨trivial,rfl⟩
  | ok prepared => exact ⟨prepareCreate_cleared hcreate,rfl⟩

lemma afterSend_standing (request : SendTurnRequest ρ) (decision : RouteDecision ν) :
    Standing checks write store (afterSend (prepareSend checks restAllowed request decision)) ∧
      (afterSend (prepareSend checks restAllowed request decision)).record = none := by
  cases hsend : prepareSend checks restAllowed request decision with
  | error e => exact ⟨trivial,rfl⟩
  | ok prepared => exact ⟨prepareSend_allowed hsend,rfl⟩

lemma Inv.held (hs : Inv checks format write s) {c : C} {r : StateLedgerEntry} (h : (s.stage c).record = some r) :
    r ∈ s.store.acknowledged := by
  have hstanding := hs.standing c
  cases hstage : s.stage c with
  | written launch decision record =>
    rw [hstage] at h hstanding
    cases h
    exact hstanding.2.acknowledged
  | _ =>
    rw [hstage] at h
    cases h

/-- Another operation on the ledger. -/
lemma Inv.stored (hs : Inv checks format write s) (hsound : store.Sound (.core format.toLedgerFormat))
    (hgrown : ∃ rs, store.acknowledged = s.store.acknowledged ++ rs) : Inv checks format write { s with store } :=
  { hs with
    sound := hsound
    standing := fun c => (hs.standing c).grown hgrown
    launched := fun x hx => ⟨(hs.launched x hx).1,(hs.launched x hx).2.grown hgrown⟩ }

section Calls
variable [DecidableEq C]

/-- A call comes to a stage at which it holds no record, or one that is new. -/
lemma Inv.moved (hs : Inv checks format write s) {c : C} {stage : Stage ν ρ} (hstanding : Standing checks write s.store stage)
    (hfresh : ∀ r, stage.record = some r → r ∉ s.launched.map (·.record) ∧ ∀ d, (s.stage d).record ≠ some r) :
    Inv checks format write (s.goto c stage) where
  sound := hs.sound
  standing d := by
    by_cases hd : d = c
    · rw [hd]
      simpa [State.goto] using hstanding
    · simpa [State.goto, hd] using hs.standing d
  launched := hs.launched
  once := hs.once
  apart d r hr := by
    by_cases hd : d = c
    · rw [hd] at hr
      exact (hfresh r (by simpa [State.goto] using hr)).1
    · exact hs.apart d r (by simpa [State.goto, hd] using hr)
  own d d' r hr hr' := by
    by_cases hd : d = c
    · by_cases hd' : d' = c
      · rw [hd, hd']
      · rw [hd] at hr
        exact absurd (by simpa [State.goto, hd'] using hr') ((hfresh r (by simpa [State.goto] using hr)).2 d')
    · by_cases hd' : d' = c
      · rw [hd'] at hr'
        exact absurd (by simpa [State.goto, hd] using hr) ((hfresh r (by simpa [State.goto] using hr')).2 d)
      · exact hs.own d d' r (by simpa [State.goto, hd] using hr) (by simpa [State.goto, hd'] using hr')

/-- A call comes to a stage at which it holds no record. -/
lemma Inv.settled (hs : Inv checks format write s) {c : C} {stage : Stage ν ρ}
    (h : Standing checks write s.store stage ∧ stage.record = none) : Inv checks format write (s.goto c stage) :=
  hs.moved h.1 fun r hr => by cases h.2.symm.trans hr

/-- The provider is called. -/
lemma Inv.launch (hs : Inv checks format write s) {c : C} {launch : Launch ρ} {decision : RouteDecision ν}
    {record : StateLedgerEntry} (hstage : s.stage c = .written launch decision record) :
    Inv checks format write { s.goto c .over with launched := s.launched ++ [⟨launch,decision,record⟩] } := by
  have hover : Inv checks format write (s.goto c .over) := hs.settled ⟨trivial,rfl⟩
  have hrecord : (s.stage c).record = some record := by rw [hstage]; rfl
  have hstanding := hs.standing c
  rw [hstage] at hstanding
  refine { hover with launched := fun x hx => ?_, once := ?_, apart := fun d r hr => ?_ }
  · obtain hbefore | hnew := List.mem_append.mp hx
    · exact hs.launched x hbefore
    · rw [List.mem_singleton.mp hnew]
      exact hstanding
  · rw [List.map_append]
    refine List.nodup_append.mpr ⟨hs.once,List.nodup_singleton _,fun a ha b hb hab => ?_⟩
    have hab : a = record := by rw [hab, List.mem_singleton.mp hb]
    exact hs.apart c record hrecord (hab ▸ ha)
  · rw [List.map_append, List.mem_append]
    have hd : d ≠ c := by
      rintro rfl
      simp [State.goto, Stage.record] at hr
    have hr : (s.stage d).record = some r := by simpa [State.goto, hd] using hr
    rintro (hbefore | hnew)
    · exact hs.apart d r hr hbefore
    · exact hd (hs.own d c r hr (by rw [hrecord, List.mem_singleton.mp hnew]))

end Calls

variable [DecidableEq P]

/-- After the writing of its decision a call holds the record that was acknowledged, or it is over. -/
lemma afterAppend_standing {before : AppendOnlyStore.State P} (hs : before.Sound (.core format.toLedgerFormat)) {launch : Launch ρ}
    {decision : RouteDecision ν} (hcleared : Cleared checks launch decision) {process : P} {options : AppendOnlyStoreOptions}
    {now : Instant} {generatedId : String} {torn : ℕ} {ending : AppendOnlyStore.Ending}
    (hstep : AppendOnlyStore.step format before
      (appendRouteDecision write decision process options now generatedId torn ending) = some store) :
    let stage := afterAppend launch decision ending
      ((appendRouteDecision write decision process options now generatedId torn ending).program format before).2
    Standing checks write store stage ∧ ∀ r, stage.record = some r → r ∉ before.acknowledged := by
  unfold afterAppend
  split
  · next record rest hanswer =>
    obtain ⟨r,hrs,hacknowledged,hnew,hpayload,htask⟩ := AppendOnlyStore.step_appended hs hstep rfl rfl hanswer
    obtain ⟨rfl,rfl⟩ := List.cons.inj hrs
    have hpayload := hpayload.eq (by simp [payloadOf, LedgerPayload.kind])
    refine ⟨⟨hcleared,?_,hpayload,htask _ (by rw [hpayload]; rfl)⟩,fun r hr => ?_⟩
    · rw [hacknowledged]
      exact List.mem_append_right _ (List.mem_singleton_self _)
    · cases hr
      exact hnew
  · exact ⟨trivial,fun r hr => by cases hr⟩

variable [DecidableEq C]

theorem Inv.of_step (hs : Inv checks format write s) {a : Action P C ν ρ} {t : State P C ν ρ}
    (h : step checks restAllowed format write s a = some t) : Inv checks format write t := by
  cases a with
  | store a =>
    obtain ⟨store,hstore,rfl⟩ := Option.map_eq_some_iff.mp h
    exact hs.stored (AppendOnlyStore.step_sound hs.sound (AppendOnlyStore.Action.core_takes _) hstore) (AppendOnlyStore.step_acknowledged hstore)
  | createSession c request decision =>
    simp only [step] at h
    split at h
    · cases h
      exact hs.settled (afterCreate_standing request decision)
    · cases h
  | sendTurn c request decision =>
    simp only [step] at h
    split at h
    · cases h
      exact hs.settled (afterSend_standing request decision)
    · cases h
  | told c info =>
    simp only [step] at h
    split at h
    · next request decision hstage =>
      cases h
      have hasking := hs.standing c
      rw [hstage] at hasking
      exact hs.settled (afterTold_standing hasking info)
    · cases h
  | append c process options now generatedId torn ending =>
    simp only [step] at h
    split at h
    · next launch decision hstage =>
      obtain ⟨store,hstore,rfl⟩ := Option.map_eq_some_iff.mp h
      have hwriting := hs.standing c
      rw [hstage] at hwriting
      obtain ⟨hstanding,hfresh⟩ := afterAppend_standing hs.sound hwriting hstore
      have hstored := hs.stored (AppendOnlyStore.step_sound hs.sound (AppendOnlyStore.Action.core_takes _) hstore) (AppendOnlyStore.step_acknowledged hstore)
      refine hstored.moved hstanding fun r hr => ⟨fun hmem => ?_,fun d hd => hfresh r hr (hs.held hd)⟩
      obtain ⟨x,hx,rfl⟩ := List.mem_map.mp hmem
      exact hfresh _ hr (hs.launched x hx).2.acknowledged
    · cases h
  | launch c =>
    simp only [step] at h
    split at h
    · next launch decision record hstage =>
      cases h
      exact hs.launch hstage
    · cases h

theorem reachable_inv {as : List (Action P C ν ρ)} {s : State P C ν ρ}
    (h : run (step checks restAllowed format write) State.init as = some s) : Inv checks format write s :=
  run_invariant _ (fun _ _ _ hs hstep => hs.of_step hstep) .init h

end Invariant
section Listing

variable {P ν ρ : Type} {write : RouteDecision ν → String} {store : AppendOnlyStore.State P}
  {readDecision : CoreContracts.RouteDecision → Option (RouteDecision ν)}

/-- A list of decisions has the decision of each record of its task that can be read. -/
lemma listPersistedRouteDecisions_covers {records : List StateLedgerEntry} {x : Launched ν ρ} {decisions : List (RouteDecision ν)}
    (h : listPersistedRouteDecisions readDecision records x.decision.taskId = some decisions) (hx : Recorded write store x)
    (hmem : x.record ∈ records) (hread : readDecision ⟨x.decision.taskId,write x.decision⟩ = some x.decision) :
    x.decision ∈ decisions := by
  have htask : x.record ∈ records.filter fun r => r.taskId == some x.decision.taskId := by
    refine List.mem_filter.mpr ⟨hmem,?_⟩
    rw [hx.task]
    exact beq_self_eq_true _
  obtain ⟨decision,hdecision,hsame⟩ := forall₂_mem_left (a := ⟨x.decision.taskId,write x.decision⟩) (mapM_eq_some.mp h)
    (List.mem_filterMap.mpr ⟨x.record,htask,by rw [hx.payload]; rfl⟩)
  rwa [Option.some.inj (hsame.symm.trans hread)] at hdecision

end Listing
section Runs
variable {P C ν ρ : Type} [DecidableEq P] [DecidableEq C] [JsNumber ν] [RouteNumber ν] (checks : MetadataChecks ν)
  (restAllowed : ρ → Bool) (format : StoreFormat) (write : RouteDecision ν → String)

/-- The provider is called for nothing but what a written decision allows, once for each record of one, and a later
list of the task's decisions has the decision unless its record was pruned. -/
theorem launches_recorded {as : List (Action P C ν ρ)} {s : State P C ν ρ}
    (h : run (step checks restAllowed format write) State.init as = some s) :
    (∀ x ∈ s.launched, Cleared checks x.launch x.decision ∧ x.record ∈ s.store.acknowledged ∧
      x.record.payload = payloadOf write x.decision) ∧ (s.launched.map (·.record)).Nodup ∧
    ∀ (readDecision : CoreContracts.RouteDecision → Option (RouteDecision ν)) (o : AppendOnlyStoreOptions)
      (records : List StateLedgerEntry) (decisions : List (RouteDecision ν)),
      (∀ d, d.allowed checks = true → readDecision ⟨d.taskId,write d⟩ = some d) →
      (AppendOnlyStore.listRecords format o s.store).2 = .ok records →
      ∀ x ∈ s.launched, listPersistedRouteDecisions readDecision records x.decision.taskId = some decisions →
        x.record ∈ s.store.pruned ∨ x.decision ∈ decisions := by
  have hs := reachable_inv h
  refine ⟨fun x hx => ?_,hs.once,fun readDecision o records decisions hreads hrecords x hx hlist => ?_⟩
  · obtain ⟨hcleared,hrecorded⟩ := hs.launched x hx
    exact ⟨hcleared,hrecorded.acknowledged,hrecorded.payload⟩
  · obtain ⟨hcleared,hrecorded⟩ := hs.launched x hx
    obtain hmem | hpruned := AppendOnlyStore.listRecords_acknowledged hs.sound hrecords hrecorded.acknowledged hrecorded.kind
    · exact .inr (listPersistedRouteDecisions_covers hlist hrecorded hmem (hreads _ hcleared.allowed))
    · exact .inl hpruned

end Runs
section Sample

instance hundredthsOf : RouteNumber ℤ where
  zero := 0
  half := 50
  one := 100
  order a b := some (compare a b)
  floorTimes count fraction := (count * fraction / 100).toNat
  ratio slots count := 100 * slots / count

def sampleChecks : MetadataChecks ℤ := ⟨fun _ => true,fun text _ _ => .ok text,.ok,fun _ => true⟩

def sampleDecision : RouteDecision ℤ where
  taskId := "task"
  selectedProvider := "openai"
  selectedHarness := "codex"
  selectedIdentityProfileId := some "primary"
  preferredProvider := none
  preferredHarness := none
  fallbackUsed := false
  fallbackReason := none
  capabilityFit := 100
  providerHealth := 100
  currentCapacity := 50
  preferredTarget := none
  contextPortability := .low
  portabilityScore := none
  activeTurnTarget := none
  cooldownState := none
  launchGate := none
  leaseArbitration := none
  routeReason := .capabilityFit
  silentDowngrade := false
  evidenceRefs := none

/-- A session is launched; a turn on it is written by a process that dies after the line has landed. -/
def sampleRun : List (Action Bool Bool ℤ Unit) :=
  [.store ⟨true,⟨100,1000⟩,some 0,.opening,.returns⟩,
   .createSession true ⟨.codex,some .openai,some "primary",()⟩ sampleDecision,
   .sendTurn false ⟨"session",()⟩ sampleDecision,
   .append true true ⟨100,1000⟩ (some 1) "a" 0 .returns,
   .told false (some ⟨"session","codex",some "openai",some "primary"⟩),
   .launch true,
   .append false true ⟨100,1000⟩ (some 2) "b" 0 (.crashes 8)]

theorem launches_recorded_sample : ∃ s, run (step sampleChecks (fun _ => true) AppendOnlyStore.sampleFormat fun _ => "")
      State.init sampleRun = some s ∧
    s.launched.map (fun x => (x.launch,x.record.sequence)) = [(.session ⟨.codex,some .openai,some "primary",()⟩,1)] ∧
    ∀ x ∈ s.launched, Cleared sampleChecks x.launch x.decision := by
  have hshape : (run (step sampleChecks (fun _ => true) AppendOnlyStore.sampleFormat fun _ => "") State.init sampleRun).map
      (fun s => s.launched.map fun x => (x.launch,x.record.sequence)) =
        some [(.session ⟨.codex,some .openai,some "primary",()⟩,1)] := by
    decide +kernel
  obtain ⟨s,hs,hshape⟩ := Option.map_eq_some_iff.mp hshape
  exact ⟨s,hs,hshape,fun x hx => ((launches_recorded sampleChecks _ _ _ hs).1 x hx).1⟩

end Sample
end OmniagentPlus.Coordinator.LaunchGate
