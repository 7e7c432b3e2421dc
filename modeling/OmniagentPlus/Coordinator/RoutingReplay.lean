import OmniagentPlus.Coordinator.RecordedLaunches

/-! `replay.ts`: the routing of a task, told again from its records. What has once been told stays told, and every
launch is in it. -/
namespace OmniagentPlus.Coordinator.LaunchGate
open OmniagentPlus.Foundation OmniagentPlus.CoreContracts OmniagentPlus.StateLedger

section Explanation
variable {ν : Type}

structure RouteReplayEntry (ν : Type) where
  taskId : String
  selectedProvider : String
  selectedHarness : String
  selectedIdentityProfileId : Option String
  preferredTarget : Option String
  fallbackReason : Option String
  portabilityScore : Option ν
  activeTurnTarget : Option ν
  cooldownState : Option RouteDecisionCooldownState
  evidenceRefs : List RuntimeEvidenceRef
  explanation : Text

/-- `effectiveRouteClassification` of a target whose labels are any texts, at no clock. -/
def effectiveFor (provider harness id : String) (c : LimitClassification) : Bool :=
  c.provider == some provider && c.harness == some harness && c.identityProfileId.all (· == id) && c.sessionId.isNone &&
    c.scope != .session

/-- A text that is there and not empty. -/
def truthy (value : Option String) : Option String := value.filter (· != "")

/-- `decision.preferredTarget`, or one of the two preferences. -/
def RouteDecision.preferred (d : RouteDecision ν) : Option PreferredTarget :=
  d.preferredTarget.or
    (if (truthy d.preferredProvider).isSome || (truthy d.preferredHarness).isSome then
      some ⟨d.preferredProvider,d.preferredHarness,none⟩ else none)

/-- The target that a limit must be of to have counted for the decision. -/
def RouteDecision.limited (d : RouteDecision ν) (c : LimitClassification) : Bool :=
  match d.preferred with
  | some preferred => effectiveFor (preferred.provider.getD "") (preferred.harness.getD "")
      (preferred.identityProfileId.getD "") c
  | none => effectiveFor d.selectedProvider d.selectedHarness (d.selectedIdentityProfileId.getD "") c

def formatPreferredTarget (d : RouteDecision ν) : Option String :=
  match d.preferredTarget.elim [] fun t => [t.provider,t.harness,t.identityProfileId].filterMap id with
  | [] => none
  | parts => some (" / ".intercalate parts)

/-- A fragment of an explanation, where there is something to say. -/
def fragment (label : String) (value : Option Text) : List Text := (value.map fun text => Text.of label ++ text).toList

variable [JsNumber ν] (toFixed : ν → Text)

/-- `explainRouteDecision`; `toFixed` is the number with two decimals. -/
def explainRouteDecision (d : RouteDecision ν) (limit : Option LimitClassification) : Text :=
  (Text.of "; ").intercalate ([Text.of ("selected provider " ++ d.selectedProvider),
      Text.of ("selected harness " ++ d.selectedHarness)] ++
    fragment "selected identity " ((truthy d.selectedIdentityProfileId).map Text.of) ++
    (if d.fallbackUsed then fragment "fallback reason " (some (Text.of (d.fallbackReason.getD "unspecified"))) else []) ++
    fragment "portability score " (d.portabilityScore.map toFixed) ++
    fragment "active-turn target " (d.activeTurnTarget.map JsNumber.toText) ++
    fragment "cooldown " ((truthy (d.cooldownState.bind (·.reason))).map Text.of) ++
    fragment "limit evidence " (limit.map fun c => Text.of c.type.name) ++
    (if (d.evidenceRefs.getD []).isEmpty then [] else
      fragment "evidence refs " (some ((Text.of ", ").intercalate ((d.evidenceRefs.getD []).map (·.label))))))

/-- What is told of a decision. -/
def replayEntry (d : RouteDecision ν) (limit : Option LimitClassification) : RouteReplayEntry ν where
  taskId := d.taskId
  selectedProvider := d.selectedProvider
  selectedHarness := d.selectedHarness
  selectedIdentityProfileId := d.selectedIdentityProfileId
  preferredTarget := formatPreferredTarget d
  fallbackReason := d.fallbackReason
  portabilityScore := d.portabilityScore
  activeTurnTarget := d.activeTurnTarget
  cooldownState := d.cooldownState
  evidenceRefs := d.evidenceRefs.getD []
  explanation := explainRouteDecision toFixed d limit

end Explanation
section Replay
variable {ν : Type} [JsNumber ν] (toFixed : ν → Text)
  (readDecision : CoreContracts.RouteDecision → Option (RouteDecision ν))
  (readLimit : Option String → String → Option LimitClassification) (taskId : String)

inductive ReplayError
  | read (error : StoreError)
  | schema
  | taskMismatch
  deriving DecidableEq, Repr

/-- The classifications so far, the last one first, and what has been told. -/
structure Told (ν : Type) where
  limits : List LimitClassification
  entries : List (RouteReplayEntry ν)

/-- One turn of the loop of `replayTaskRouting`. -/
def replayRecord (told : Told ν) (record : StateLedgerEntry) : Except ReplayError (Told ν) :=
  match record.payload with
  | .limitClassification sessionId rest => match readLimit sessionId rest with
    | some limit => .ok { told with limits := limit :: told.limits }
    | none => .error .schema
  | .routeDecision payload => match readDecision payload with
    | some d =>
      if d.taskId ≠ taskId then .error .taskMismatch
      else .ok { told with entries := told.entries ++ [replayEntry toFixed d (told.limits.find? d.limited)] }
    | none => .error .schema
  | _ => .ok told

/-- The records of the task; `listTaskRecords` -/
def ofTask (record : StateLedgerEntry) : Bool := record.taskId == some taskId

/-- `replayTaskRouting` of what the ledger lists. -/
def replayTaskRouting (records : List StateLedgerEntry) : Except ReplayError (List (RouteReplayEntry ν)) := do
  let told ← (records.filter (ofTask taskId)).foldlM (replayRecord toFixed readDecision readLimit taskId) ⟨[],[]⟩
  return told.entries

/-- The records of the task that can be told of: a replay passes over sessions. -/
def tells (record : StateLedgerEntry) : Bool := record.kind != .session && ofTask taskId record

variable {toFixed readDecision readLimit taskId}

lemma tells_kind {record : StateLedgerEntry} (h : tells taskId record = true) : record.kind ≠ .session := by
  simp only [tells, Bool.and_eq_true, bne_iff_ne] at h
  exact h.1

lemma replayRecord_session {told : Told ν} {record : StateLedgerEntry} (h : record.kind = .session) :
    replayRecord toFixed readDecision readLimit taskId told record = .ok told := by
  obtain ⟨recordId,createdAt,sequence,sessionId,eventId,task,kindScope,payload⟩ := record
  cases payload with
  | session session => rfl
  | _ => cases h

/-- The replay is that of the records that can be told of. -/
lemma replay_tells (records : List StateLedgerEntry) (told : Told ν) :
    (records.filter (ofTask taskId)).foldlM (replayRecord toFixed readDecision readLimit taskId) told =
      (records.filter (tells taskId)).foldlM (replayRecord toFixed readDecision readLimit taskId) told := by
  induction records generalizing told with
  | nil => rfl
  | cons record records ih =>
    by_cases htask : ofTask taskId record = true
    · by_cases hkind : record.kind = .session
      · have hskip : ¬tells taskId record = true := fun h => tells_kind h hkind
        rw [List.filter_cons_of_pos htask, List.filter_cons_of_neg hskip, List.foldlM_cons, replayRecord_session hkind]
        exact ih told
      · have htells : tells taskId record = true := by
          rw [tells, htask, Bool.and_true]
          exact bne_iff_ne.mpr hkind
        rw [List.filter_cons_of_pos htask, List.filter_cons_of_pos htells, List.foldlM_cons, List.foldlM_cons]
        exact congrArg _ (funext ih)
    · have hskip : ¬tells taskId record = true := by simp [tells, htask]
      rw [List.filter_cons_of_neg htask, List.filter_cons_of_neg hskip]
      exact ih told

/-- What is told is not taken back. -/
lemma replayRecord_extends {told after : Told ν} {record : StateLedgerEntry}
    (h : replayRecord toFixed readDecision readLimit taskId told record = .ok after) :
    told.entries <+: after.entries := by
  unfold replayRecord at h
  split at h
  · split at h
    · cases h
      exact List.prefix_refl _
    · cases h
  · split at h
    · split_ifs at h
      cases h
      exact List.prefix_append _ _
    · cases h
  · cases h
    exact List.prefix_refl _

lemma replay_extends {records : List StateLedgerEntry} {told after : Told ν}
    (h : records.foldlM (replayRecord toFixed readDecision readLimit taskId) told = .ok after) :
    told.entries <+: after.entries := by
  induction records generalizing told with
  | nil =>
    cases h
    exact List.prefix_refl _
  | cons record records ih =>
    rw [List.foldlM_cons] at h
    obtain ⟨next,hnext,h⟩ := except_bind_eq_ok.mp h
    exact (replayRecord_extends hnext).trans (ih h)

/-- The replay of more records goes on from that of fewer. -/
lemma replayTaskRouting_extends {records more : List StateLedgerEntry} {entries later : List (RouteReplayEntry ν)}
    (hmore : records.filter (tells taskId) <+: more.filter (tells taskId))
    (h : replayTaskRouting toFixed readDecision readLimit taskId records = .ok entries)
    (hlater : replayTaskRouting toFixed readDecision readLimit taskId more = .ok later) : entries <+: later := by
  obtain ⟨rest,hrest⟩ := hmore
  obtain ⟨told,hfold,hentries⟩ := except_bind_eq_ok.mp h
  obtain ⟨after,hafter,hlast⟩ := except_bind_eq_ok.mp hlater
  rw [replay_tells] at hfold hafter
  rw [← hrest, List.foldlM_append] at hafter
  obtain ⟨middle,hmiddle,hgo⟩ := except_bind_eq_ok.mp hafter
  obtain rfl : middle = told := Except.ok.inj (hmiddle.symm.trans hfold)
  cases hentries
  cases hlast
  exact replay_extends hgo

/-- Every decision of the task that is read is told of, with a limit that was seen before it. -/
lemma replay_covers {records : List StateLedgerEntry} {told after : Told ν} {record : StateLedgerEntry}
    {payload : CoreContracts.RouteDecision} {d : RouteDecision ν}
    (h : records.foldlM (replayRecord toFixed readDecision readLimit taskId) told = .ok after) (hmem : record ∈ records)
    (hpayload : record.payload = .routeDecision payload) (hread : readDecision payload = some d) :
    ∃ limit, replayEntry toFixed d limit ∈ after.entries := by
  induction records generalizing told with
  | nil => cases hmem
  | cons first records ih =>
    rw [List.foldlM_cons] at h
    obtain ⟨next,hnext,h⟩ := except_bind_eq_ok.mp h
    obtain rfl | hmem := List.mem_cons.mp hmem
    · unfold replayRecord at hnext
      rw [hpayload] at hnext
      dsimp only at hnext
      rw [hread] at hnext
      dsimp only at hnext
      split_ifs at hnext
      cases hnext
      exact ⟨_,(replay_extends h).subset (List.mem_append_right _ (List.mem_singleton_self _))⟩
    · exact ih h hmem

lemma keeping_tells {P : Type} {a : AppendOnlyStore.Action P} (h : a.Keeping (ofTask taskId)) : a.Keeping (tells taskId) := by
  unfold AppendOnlyStore.Action.Keeping at h ⊢
  split
  · next keepRecord hoperation =>
    rw [hoperation] at h
    exact fun r rs hr => h r rs (Bool.and_eq_true_iff.mp hr).2
  · trivial

end Replay
section Runs
variable {P C ν ρ : Type} [DecidableEq P] [DecidableEq C] [JsNumber ν] [RouteNumber ν] {checks : MetadataChecks ν}
  {restAllowed : ρ → Bool} {format : StoreFormat} {write : RouteDecision ν → String} {taskId : String}

/-- No compaction drops a record of the task. -/
def KeepsTask (taskId : String) : Action P C ν ρ → Prop
  | .store a => a.Keeping (ofTask taskId)
  | _ => True

lemma step_keepsTask {s t : State P C ν ρ} {a : Action P C ν ρ} (hs : Inv checks format write s)
    (h : step checks restAllowed format write s a = some t) (ha : KeepsTask taskId a) :
    AppendOnlyStore.Extends (tells taskId) s.store t.store := by
  cases a with
  | store a =>
    obtain ⟨store,hstore,rfl⟩ := Option.map_eq_some_iff.mp h
    exact AppendOnlyStore.step_keeps hs.sound (fun _ => tells_kind) hstore (keeping_tells ha)
  | append c process options now generatedId torn ending =>
    simp only [step] at h
    split at h
    · obtain ⟨store,hstore,rfl⟩ := Option.map_eq_some_iff.mp h
      exact AppendOnlyStore.step_keeps hs.sound (fun _ => tells_kind) hstore trivial
    · cases h
  | createSession c request decision | sendTurn c request decision | told c session | launch c =>
    simp only [step] at h
    split at h
    · cases h
      exact List.prefix_refl _
    · cases h

lemma run_keepsTask {s t : State P C ν ρ} {as : List (Action P C ν ρ)} (hs : Inv checks format write s)
    (h : run (step checks restAllowed format write) s as = some t) (hkeeps : ∀ a ∈ as, KeepsTask taskId a) :
    AppendOnlyStore.Extends (tells taskId) s.store t.store := by
  induction as generalizing s with
  | nil =>
    cases h
    exact List.prefix_refl _
  | cons a as ih =>
    obtain ⟨u,hu,h⟩ := (run_cons_eq_some _).mp h
    exact (step_keepsTask hs hu (hkeeps a List.mem_cons_self)).trans
      (ih (hs.of_step hu) h fun b hb => hkeeps b (List.mem_cons_of_mem a hb))

section Told
variable (toFixed : ν → Text) (readDecision : CoreContracts.RouteDecision → Option (RouteDecision ν))
  (readLimit : Option String → String → Option LimitClassification)

/-- `replayTaskRouting` of a store. -/
def routingTold (format : StoreFormat) (taskId : String) (o : AppendOnlyStoreOptions) (store : AppendOnlyStore.State P) :
    Except ReplayError (List (RouteReplayEntry ν)) := do
  let records ← (AppendOnlyStore.listRecords format o store).2.mapError .read
  replayTaskRouting toFixed readDecision readLimit taskId records

variable {toFixed readDecision readLimit}

omit [DecidableEq P] [RouteNumber ν] in
lemma routingTold_eq_ok {o : AppendOnlyStoreOptions} {store : AppendOnlyStore.State P}
    {entries : List (RouteReplayEntry ν)}
    (h : routingTold toFixed readDecision readLimit format taskId o store = .ok entries) :
    ∃ records, (AppendOnlyStore.listRecords format o store).2 = .ok records ∧
      replayTaskRouting toFixed readDecision readLimit taskId records = .ok entries := by
  obtain ⟨records,hrecords,h⟩ := except_bind_eq_ok.mp h
  cases hlist : (AppendOnlyStore.listRecords format o store).2 with
  | error e =>
    rw [hlist] at hrecords
    cases hrecords
  | ok rs =>
    rw [hlist] at hrecords
    cases hrecords
    exact ⟨_,rfl,h⟩

omit [DecidableEq P] [DecidableEq C] in
/-- A record of a launch that can be listed is told of. -/
lemma launched_told {s : State P C ν ρ} (hs : Inv checks format write s) {x : Launched ν ρ} (hx : x ∈ s.launched)
    (htask : x.decision.taskId = taskId) {records : List StateLedgerEntry} {entries : List (RouteReplayEntry ν)}
    (hmem : x.record ∈ records) (hread : readDecision ⟨x.decision.taskId,write x.decision⟩ = some x.decision)
    (h : replayTaskRouting toFixed readDecision readLimit taskId records = .ok entries) :
    ∃ limit, replayEntry toFixed x.decision limit ∈ entries := by
  have hrecorded := (hs.launched x hx).2
  obtain ⟨told,hfold,hentries⟩ := except_bind_eq_ok.mp h
  cases hentries
  refine replay_covers hfold (List.mem_filter.mpr ⟨hmem,?_⟩) hrecorded.payload hread
  rw [ofTask, hrecorded.task, htask]
  exact beq_self_eq_true _

end Told

variable (checks restAllowed format write taskId)

/-- The routing of a task as it is told at one state begins what is told at every later one, as long as no compaction
drops a record of the task; and each launch for it is told of, unless its record was pruned. -/
theorem routing_replayed {as bs : List (Action P C ν ρ)} {s t : State P C ν ρ}
    (hs : run (step checks restAllowed format write) State.init as = some s)
    (ht : run (step checks restAllowed format write) s bs = some t) (hkeeps : ∀ a ∈ bs, KeepsTask taskId a)
    (toFixed : ν → Text) (readDecision : CoreContracts.RouteDecision → Option (RouteDecision ν))
    (readLimit : Option String → String → Option LimitClassification)
    (hread : ∀ x ∈ t.launched, readDecision ⟨x.decision.taskId,write x.decision⟩ = some x.decision)
    (o o' : AppendOnlyStoreOptions) (entries later : List (RouteReplayEntry ν))
    (hentries : routingTold toFixed readDecision readLimit format taskId o s.store = .ok entries)
    (hlater : routingTold toFixed readDecision readLimit format taskId o' t.store = .ok later) :
    entries <+: later ∧ ∀ x ∈ t.launched, x.decision.taskId = taskId →
      x.record ∈ t.store.pruned ∨ ∃ limit, replayEntry toFixed x.decision limit ∈ later := by
  have hinv := reachable_inv hs
  have hinv' : Inv checks format write t := run_invariant _ (fun _ _ _ hi hstep => hi.of_step hstep) hinv ht
  obtain ⟨records,hrecords,hentries⟩ := routingTold_eq_ok hentries
  obtain ⟨more,hmore,hlater⟩ := routingTold_eq_ok hlater
  have hextends := run_keepsTask hinv ht hkeeps
  have htells : ∀ r, tells taskId r = true → r.kind ≠ .session := fun _ => tells_kind
  have hlisted := StateLedgerEntry.filter_of_core htells (AppendOnlyStore.listRecords_readable hinv.sound hrecords).2
  have hlisted' := StateLedgerEntry.filter_of_core htells (AppendOnlyStore.listRecords_readable hinv'.sound hmore).2
  rw [AppendOnlyStore.Extends, ← hlisted, ← hlisted'] at hextends
  refine ⟨replayTaskRouting_extends hextends hentries hlater,fun x hx htask => ?_⟩
  obtain hmem | hpruned := AppendOnlyStore.listRecords_acknowledged hinv'.sound hmore (hinv'.launched x hx).2.acknowledged
    (hinv'.launched x hx).2.kind
  · exact .inr (launched_told hinv' hx htask hmem (hread x hx) hlater)
  · exact .inl hpruned

end Runs
section Sample

deriving instance DecidableEq for RouteDecision
deriving instance DecidableEq for RouteReplayEntry

def sampleTold : RouteDecision ℤ := { sampleDecision with launchGate := some (persistedGate none) }

def sampleReplay (s : State Bool Bool ℤ Unit) : Except ReplayError (List (RouteReplayEntry ℤ)) :=
  routingTold (fun _ => []) (fun _ => some sampleTold) (fun _ _ => none) AppendOnlyStore.sampleFormat "task" ⟨100,1000⟩
    s.store

/-- The session is launched between two tellings. -/
def sampleLaunch : List (Action Bool Bool ℤ Unit) := (sampleRun.drop 4).take 2

theorem routing_replayed_sample : ∃ s t : State Bool Bool ℤ Unit, ∃ later,
    run (step sampleChecks (fun _ => true) AppendOnlyStore.sampleFormat fun _ => "") State.init
      (sampleRun.take 4) = some s ∧
    run (step sampleChecks (fun _ => true) AppendOnlyStore.sampleFormat fun _ => "") s sampleLaunch = some t ∧
    t.launched.map (·.decision) = [sampleTold] ∧ sampleReplay t = .ok later ∧
    [replayEntry (fun _ => []) sampleTold none] <+: later ∧ ∀ x ∈ t.launched, x.decision.taskId = "task" →
      x.record ∈ t.store.pruned ∨ ∃ limit, replayEntry (fun _ => []) x.decision limit ∈ later := by
  have hshape : ((run (step sampleChecks (fun _ => true) AppendOnlyStore.sampleFormat fun _ => "") State.init
      (sampleRun.take 4)).bind fun s =>
        (run (step sampleChecks (fun _ => true) AppendOnlyStore.sampleFormat fun _ => "") s sampleLaunch).map fun t =>
          (sampleReplay s,sampleReplay t,t.launched.map (·.decision))) =
      some (.ok [replayEntry (fun _ => []) sampleTold none],.ok [replayEntry (fun _ => []) sampleTold none],
        [sampleTold]) := by
    decide +kernel
  obtain ⟨s,hs,hshape⟩ := Option.bind_eq_some_iff.mp hshape
  obtain ⟨t,ht,hshape⟩ := Option.map_eq_some_iff.mp hshape
  obtain ⟨htold,hlater,hlaunched⟩ := Prod.mk.inj hshape |>.imp_right Prod.mk.inj
  have hread : ∀ x ∈ t.launched, some sampleTold = some x.decision := by
    intro x hx
    have hmem : x.decision ∈ [sampleTold] := hlaunched ▸ List.mem_map_of_mem hx
    exact congrArg some (List.mem_singleton.mp hmem).symm
  have hkeeps : ∀ a ∈ sampleLaunch, KeepsTask "task" a := by
    rintro a (_ | ⟨_,_ | ⟨_,⟨⟩⟩⟩) <;> trivial
  exact ⟨s,t,_,hs,ht,hlaunched,hlater,routing_replayed sampleChecks (fun _ => true) AppendOnlyStore.sampleFormat
    (fun _ => "") "task" hs ht hkeeps _ _ _ hread _ _ _ _ htold hlater⟩

end Sample
end OmniagentPlus.Coordinator.LaunchGate
