import OmniagentPlus.StateLedger.LedgerAcknowledgements
import OmniagentPlus.Coordinator.FailurePolicy

/-! `runRouteTaskCommand` in `route-task.ts`: a route that is planned from what the ledger lists. It heeds every status
and every cooldown that was acknowledged and not pruned, or a later one. -/
namespace OmniagentPlus.Cli
open OmniagentPlus.Foundation OmniagentPlus.CoreContracts OmniagentPlus.StateLedger OmniagentPlus.Coordinator

section Latest
variable {κ α : Type} [DecidableEq κ] (getKey : α → Option κ) (getSequence : α → ℕ)

/-- One turn of the loop of `latestBySequence`. -/
def takeLatest (latest : Dictionary κ α) (entry : α) : Dictionary κ α :=
  match getKey entry with
  | none => latest
  | some key =>
    if (latest.get? key).all fun previous => decide (getSequence previous < getSequence entry) then latest.set key entry
    else latest

def latestBySequence (entries : List α) : Dictionary κ α := entries.foldl (takeLatest getKey getSequence) .empty

/-- The map has an entry of each key of the list, as new as any. -/
structure Newest (entries : List α) (latest : Dictionary κ α) : Prop where
  listed : ∀ key e, latest.get? key = some e → e ∈ entries ∧ getKey e = some key
  newest : ∀ key, ∀ x ∈ entries, getKey x = some key →
    ∃ e, latest.get? key = some e ∧ getSequence x ≤ getSequence e

variable {getKey getSequence}

lemma takeLatest_newest {entries : List α} {latest : Dictionary κ α}
    (h : Newest getKey getSequence entries latest) (x : α) :
    Newest getKey getSequence (entries ++ [x]) (takeLatest getKey getSequence latest x) := by
  have hlisted : ∀ key e, latest.get? key = some e → e ∈ entries ++ [x] ∧ getKey e = some key :=
    fun key e he => ⟨List.mem_append_left _ (h.listed key e he).1,(h.listed key e he).2⟩
  unfold takeLatest
  cases hkey : getKey x with
  | none =>
    refine ⟨hlisted,fun key y hy hykey => ?_⟩
    obtain hy | hy := List.mem_append.mp hy
    · exact h.newest key y hy hykey
    · rw [List.mem_singleton.mp hy, hkey] at hykey
      cases hykey
  | some own =>
    dsimp only
    split_ifs with hlater
    · refine ⟨fun key e he => ?_,fun key y hy hykey => ?_⟩
      · rw [Dictionary.get?_set] at he
        split_ifs at he with hown
        · cases he
          exact ⟨List.mem_append_right _ (List.mem_singleton_self _),hown ▸ hkey⟩
        · exact hlisted key e he
      · by_cases hown : key = own
        · subst hown
          refine ⟨x,Dictionary.get?_set_self _ _ _,?_⟩
          obtain hy | hy := List.mem_append.mp hy
          · obtain ⟨e,he,hle⟩ := h.newest key y hy hykey
            rw [he, Option.all_some, decide_eq_true_eq] at hlater
            exact hle.trans hlater.le
          · rw [List.mem_singleton.mp hy]
        · rw [Dictionary.get?_set_of_ne _ _ hown]
          obtain hy | hy := List.mem_append.mp hy
          · exact h.newest key y hy hykey
          · rw [List.mem_singleton.mp hy, hkey] at hykey
            exact absurd (Option.some.inj hykey).symm hown
    · refine ⟨hlisted,fun key y hy hykey => ?_⟩
      obtain hy | hy := List.mem_append.mp hy
      · exact h.newest key y hy hykey
      · rw [List.mem_singleton.mp hy] at hykey ⊢
        obtain rfl := Option.some.inj (hkey.symm.trans hykey)
        cases hprevious : latest.get? own with
        | none => exact absurd (by rw [hprevious, Option.all_none]) hlater
        | some previous =>
          rw [hprevious, Option.all_some, decide_eq_true_eq, Nat.not_lt] at hlater
          exact ⟨previous,rfl,hlater⟩

lemma foldl_newest {front entries : List α} {latest : Dictionary κ α} (h : Newest getKey getSequence front latest) :
    Newest getKey getSequence (front ++ entries) (entries.foldl (takeLatest getKey getSequence) latest) := by
  induction entries generalizing front latest with
  | nil => rwa [List.append_nil]
  | cons x entries ih =>
    rw [List.append_cons]
    exact ih (takeLatest_newest h x)

lemma latestBySequence_newest (entries : List α) :
    Newest getKey getSequence entries (latestBySequence getKey getSequence entries) := by
  have hnone : Newest getKey getSequence [] (.empty : Dictionary κ α) :=
    ⟨fun _ _ h => absurd h (by simp),fun _ _ h => absurd h List.not_mem_nil⟩
  exact foldl_newest hnone

end Latest
section Command
variable {ν ε : Type} [RouteNumber ν] (localeCompare : String → String → Ordering)
  (readStatus : String → IdentityProfileStatus) (readLimit : Option String → String → LimitClassification)

inductive RouteTaskError
  | noProfiles
  | invalidTurns
  | route (error : RouteError)
  | routeBlock
  deriving DecidableEq, Repr

structure RouteTaskRequest where
  taskId : String
  classificationTaskId : Option String
  portabilityInput : PortabilityInput
  preferredProvider : Option ProviderFamilyId
  preferredHarness : Option HarnessId
  preferredIdentityProfileId : Option String
  manualConfirmationProvided : Option Bool

/-- `readStatus` gives the fields besides the profile. -/
def toStatus (profileId rest : String) : IdentityProfileStatus :=
  { readStatus rest with profileId := profileId }

/-- The statuses of the ledger with their records. -/
def statusRecords (records : List StateLedgerEntry) : List (StateLedgerEntry × IdentityProfileStatus) :=
  records.filterMap fun r => match r.payload with
    | .identityProfileStatus profileId rest => some (r,toStatus readStatus profileId rest)
    | _ => none

def cooldownRecords (records : List StateLedgerEntry) : List (StateLedgerEntry × ProviderFamilyCooldown) :=
  records.filterMap fun r => match r.payload with
    | .providerCooldown cooldown => some (r,cooldown)
    | _ => none

def limitRecords (records : List StateLedgerEntry) : List (StateLedgerEntry × LimitClassification) :=
  records.filterMap fun r => match r.payload with
    | .limitClassification sessionId rest => some (r,readLimit sessionId rest)
    | _ => none

/-- The payloads of the latest records, by key. -/
def latestPayloads {κ β : Type} [DecidableEq κ] (keyOf : β → κ) (records : List (StateLedgerEntry × β)) : List β :=
  (latestBySequence (fun e => some (keyOf e.2)) (·.1.sequence) records).values.map (·.2)

/-- The limits of the task and of no session, the last one first. -/
def classifications (records : List StateLedgerEntry) (taskId : String) : List LimitClassification :=
  (((limitRecords readLimit records).mergeSort fun left right => decide (right.1.sequence ≤ left.1.sequence)).filter
    fun e => e.1.taskId.all (· == taskId) && e.1.sessionId.isNone).map (·.2)

def classificationByProfileId (profiles : List IdentityProfile) (limits : List LimitClassification) :
    Dictionary String (Option LimitClassification) :=
  profiles.foldl (fun found profile => found.set profile.id
    (limits.find? fun limit => (effectiveRouteClassification (some limit) profile none).isSome)) .empty

/-- `buildActiveTurnSnapshot(statuses).byProfileId`; the counts of a provider are no more than all. -/
def buildActiveTurnSnapshot (statuses : List IdentityProfileStatus) : Except RouteTaskError (Dictionary String ℤ) :=
  if statuses.all (safeCount ·.activeTurns) &&
      safeCount (statuses.foldl (fun total status => total + status.activeTurns) 0) then
    .ok (statuses.foldl (fun turns status => turns.set status.profileId status.activeTurns) .empty)
  else .error .invalidTurns

/-- The ledger is read once for each kind of record. -/
structure RouteReadings where
  statuses : List StateLedgerEntry
  cooldowns : List StateLedgerEntry
  limits : List StateLedgerEntry

def latestStatuses (read : RouteReadings) : List IdentityProfileStatus :=
  latestPayloads (·.profileId) (statusRecords readStatus read.statuses)

def routePoolInput (profiles : List IdentityProfile) (read : RouteReadings) (request : RouteTaskRequest)
    (now : ℤ) (activeTurns : Dictionary String ℤ) : BuildIdentityPoolInput ν where
  profiles := profiles
  statuses := latestStatuses readStatus read
  providerCooldowns := latestPayloads (·.provider) (cooldownRecords read.cooldowns)
  activeTurns := activeTurns
  classificationByProvider := .empty
  classificationByProfileId := classificationByProfileId profiles
    (classifications readLimit read.limits (request.classificationTaskId.getD request.taskId))
  capabilityFitByProfileId := .empty
  providerHealth := .empty
  now := some now

def plannerInput (input : BuildIdentityPoolInput ν) (pool : IdentityPoolSnapshot ν) (request : RouteTaskRequest)
    (leaseArbitration : Option RouteDecisionLeaseArbitration) : RoutePlannerInput ν ε where
  taskId := request.taskId
  identityPool := pool
  portability := none
  portabilityInput := request.portabilityInput
  preferredProvider := request.preferredProvider
  preferredHarness := request.preferredHarness
  preferredIdentityProfileId := request.preferredIdentityProfileId
  latestClassification := (pool.candidates.find? fun c => request.preferredProvider.all (· == c.profile.provider) &&
    request.preferredHarness.all (· == c.profile.harness) && request.preferredIdentityProfileId.all (· == c.profile.id)).bind
      fun preferred => (input.classificationByProfileId.get? preferred.profile.id).join
  providerHealth := .empty
  capabilityFitByProfileId := .empty
  evidenceRefs := none
  manualConfirmationProvided := request.manualConfirmationProvided
  leaseArbitration := leaseArbitration

/-- The planned route, where it may be launched; `arbitrate` is what `arbitrateCoordinationLease` answers. -/
def runRouteTaskCommand (profiles : List IdentityProfile) (read : RouteReadings) (request : RouteTaskRequest)
    (now : ℤ) (arbitrate : Option RouteDecisionLeaseArbitration) : Except RouteTaskError (PlannedRoute ν ε) :=
  if profiles.isEmpty then .error .noProfiles
  else do
    let activeTurns ← buildActiveTurnSnapshot (latestStatuses readStatus read)
    let input := routePoolInput readStatus readLimit profiles read request now activeTurns
    let pool ← (buildIdentityPool localeCompare input).mapError .route
    let preliminary ← (planRoute (plannerInput input pool request none : RoutePlannerInput ν ε)).mapError .route
    if preliminary.decision.launchGate.action ≠ .allowed then .error .routeBlock
    else do
      let planned ← (planRoute (plannerInput input pool request arbitrate)).mapError .route
      if planned.decision.launchGate.action ≠ .allowed then .error .routeBlock else .ok planned

end Command
section Records
variable {readStatus : String → IdentityProfileStatus} {records : List StateLedgerEntry}

lemma mem_statusRecords {e : StateLedgerEntry × IdentityProfileStatus} : e ∈ statusRecords readStatus records ↔
    e.1 ∈ records ∧ ∃ profileId rest, e.1.payload = .identityProfileStatus profileId rest ∧
      e.2 = toStatus readStatus profileId rest := by
  constructor
  · intro h
    obtain ⟨r,hr,h⟩ := List.mem_filterMap.mp h
    split at h
    · next profileId rest hpayload =>
      cases h
      exact ⟨hr,profileId,rest,hpayload,rfl⟩
    · cases h
  · rintro ⟨hr,profileId,rest,hpayload,hstatus⟩
    refine List.mem_filterMap.mpr ⟨e.1,hr,?_⟩
    simp only [hpayload, ← hstatus]

lemma mem_cooldownRecords {e : StateLedgerEntry × ProviderFamilyCooldown} : e ∈ cooldownRecords records ↔
    e.1 ∈ records ∧ e.1.payload = .providerCooldown e.2 := by
  constructor
  · intro h
    obtain ⟨r,hr,h⟩ := List.mem_filterMap.mp h
    split at h
    · next cooldown hpayload =>
      cases h
      exact ⟨hr,hpayload⟩
    · cases h
  · rintro ⟨hr,hpayload⟩
    refine List.mem_filterMap.mpr ⟨e.1,hr,?_⟩
    simp only [hpayload]

/-- What is looked up of a key is its newest record. -/
lemma latestPayloads_newest {κ β : Type} [DecidableEq κ] (keyOf : β → κ) {listed : List (StateLedgerEntry × β)}
    {x : StateLedgerEntry × β} (hx : x ∈ listed) : ∃ e ∈ listed, keyOf e.2 = keyOf x.2 ∧
      (∀ y ∈ listed, keyOf y.2 = keyOf x.2 → y.1.sequence ≤ e.1.sequence) ∧
      (Dictionary.indexBy keyOf (latestPayloads keyOf listed)).get? (keyOf x.2) = some e.2 := by
  have h : Newest (fun e : StateLedgerEntry × β => some (keyOf e.2)) (·.1.sequence) listed
      (latestBySequence _ _ listed) :=
    latestBySequence_newest listed
  obtain ⟨e,he,-⟩ := h.newest (keyOf x.2) x hx rfl
  have hnewest : ∀ y ∈ listed, keyOf y.2 = keyOf x.2 → y.1.sequence ≤ e.1.sequence := by
    intro y hy hsame
    obtain ⟨e',he',hle⟩ := h.newest (keyOf x.2) y hy (congrArg some hsame)
    rwa [Option.some.inj (he'.symm.trans he)] at hle
  obtain ⟨hmem,hkey⟩ := h.listed _ e he
  have hkey : keyOf e.2 = keyOf x.2 := Option.some.inj hkey
  have hin : e.2 ∈ latestPayloads keyOf listed := List.mem_map_of_mem ((Dictionary.mem_values_iff _ _).mpr ⟨_,he⟩)
  obtain ⟨y,hy⟩ := Dictionary.get?_indexBy_isSome (f := keyOf) hin
  obtain ⟨hlisted,hykey⟩ := Dictionary.mem_of_get?_indexBy hy
  obtain ⟨e',he',rfl⟩ := List.mem_map.mp hlisted
  obtain ⟨key,hget⟩ := (Dictionary.mem_values_iff _ _).mp he'
  have hown : key = keyOf x.2 := (Option.some.inj (h.listed key e' hget).2).symm.trans (hykey.trans hkey)
  rw [hown, he] at hget
  cases hget
  exact ⟨e,hmem,hkey,hnewest,hkey ▸ hy⟩

end Records
section Heeded
variable {P ν ε : Type} [DecidableEq P] [RouteNumber ν] {localeCompare : String → String → Ordering}
  {readStatus : String → IdentityProfileStatus} {readLimit : Option String → String → LimitClassification}
  {profiles : List IdentityProfile} {read : RouteReadings} {request : RouteTaskRequest} {now : ℤ}
  {arbitrate : Option RouteDecisionLeaseArbitration} {planned : PlannedRoute ν ε}

lemma mapError_eq_ok {α δ η : Type} {x : Except δ α} {f : δ → η} {a : α} (h : x.mapError f = .ok a) : x = .ok a := by
  cases x with
  | error e => cases h
  | ok b =>
    cases h
    rfl

lemma buildIdentityPool_clock {input : BuildIdentityPoolInput ν} {pool : IdentityPoolSnapshot ν}
    (hnow : input.now = some now) (h : buildIdentityPool localeCompare input = .ok pool) : pool.evaluatedAt = now := by
  unfold buildIdentityPool at h
  rw [hnow] at h
  obtain ⟨clock,hclock,h⟩ := except_bind_eq_ok.mp h
  obtain ⟨candidates,-,h⟩ := except_bind_eq_ok.mp h
  cases hclock
  cases h
  rfl

omit [DecidableEq P] in
/-- The route goes to a member of the pool that can take it. -/
lemma runRouteTaskCommand_spec
    (h : runRouteTaskCommand localeCompare readStatus readLimit profiles read request now arbitrate = .ok planned) :
    ∃ activeTurns, Describes (routePoolInput readStatus readLimit profiles read request now activeTurns)
      planned.candidate ∧ Launchable now planned.candidate := by
  unfold runRouteTaskCommand at h
  split_ifs at h
  obtain ⟨activeTurns,-,h⟩ := except_bind_eq_ok.mp h
  obtain ⟨pool,hpool,h⟩ := except_bind_eq_ok.mp h
  obtain ⟨preliminary,-,h⟩ := except_bind_eq_ok.mp h
  split_ifs at h
  obtain ⟨chosen,hplan,h⟩ := except_bind_eq_ok.mp h
  split_ifs at h with hallowed
  cases h
  have hpool := mapError_eq_ok hpool
  obtain ⟨hmem,havailable⟩ := planRoute_candidate (mapError_eq_ok hplan)
  obtain ⟨hdescribes,hlaunchable⟩ := (buildIdentityPool_spec hpool).1 _ hmem
  exact ⟨activeTurns,hdescribes,buildIdentityPool_clock rfl hpool ▸ hlaunchable (havailable (not_not.mp hallowed))⟩

/-- The newest of the listed statuses of the identity lets it run. -/
def StatusHeeded (readStatus : String → IdentityProfileStatus) (listed : List StateLedgerEntry) (now : ℤ) (id : String) : Prop :=
  ∃ latest ∈ listed, ∃ rest, latest.payload = .identityProfileStatus id rest ∧
    (∀ r ∈ listed, ∀ rest, r.payload = .identityProfileStatus id rest → r.sequence ≤ latest.sequence) ∧
    (readStatus rest).status ≠ .blocked ∧ ∀ cooldown, (readStatus rest).cooldown = some cooldown → ¬InForce now cooldown

/-- The newest of the listed cooldowns of the provider is not in force. -/
def CooldownHeeded (listed : List StateLedgerEntry) (now : ℤ) (provider : ProviderFamilyId) : Prop :=
  ∃ latest ∈ listed, ∃ cooldown, latest.payload = .providerCooldown cooldown ∧ cooldown.provider = provider ∧
    (∀ r ∈ listed, ∀ other, r.payload = .providerCooldown other → other.provider = provider → r.sequence ≤ latest.sequence) ∧
    ¬InForce now cooldown.toCooldownState

omit [DecidableEq P] in
lemma status_heeded
    (h : runRouteTaskCommand localeCompare readStatus readLimit profiles read request now arbitrate = .ok planned)
    {r : StateLedgerEntry} (hlisted : r ∈ read.statuses) {rest : String}
    (hpayload : r.payload = .identityProfileStatus planned.candidate.profile.id rest) :
    StatusHeeded readStatus read.statuses now planned.candidate.profile.id := by
  obtain ⟨activeTurns,hdescribes,hlaunchable⟩ := runRouteTaskCommand_spec h
  have hx : (r,toStatus readStatus planned.candidate.profile.id rest) ∈ statusRecords readStatus read.statuses :=
    mem_statusRecords.mpr ⟨hlisted,_,rest,hpayload,rfl⟩
  obtain ⟨e,he,hid,hnewest,hget⟩ := latestPayloads_newest (·.profileId) hx
  obtain ⟨hmem,profileId,rest',hlatest,hstatus⟩ := mem_statusRecords.mp he
  have hfound : planned.candidate.status = some e.2 := hdescribes.status.trans hget
  have hown : profileId = planned.candidate.profile.id := by rwa [hstatus] at hid
  rw [hown] at hlatest hstatus
  refine ⟨e.1,hmem,rest',hlatest,fun other hother rest hof => ?_,?_,fun cooldown hcooldown => hlaunchable.cool cooldown ?_⟩
  · exact hnewest (other,toStatus readStatus planned.candidate.profile.id rest)
      (mem_statusRecords.mpr ⟨hother,_,rest,hof,rfl⟩) rfl
  · have hunblocked := hlaunchable.unblocked _ hfound
    rwa [hstatus] at hunblocked
  · have hof : e.2.cooldown = some cooldown := by rwa [hstatus]
    simp [IdentityPoolMember.cooldowns, hfound, hof]

omit [DecidableEq P] in
lemma cooldown_heeded
    (h : runRouteTaskCommand localeCompare readStatus readLimit profiles read request now arbitrate = .ok planned)
    {r : StateLedgerEntry} (hlisted : r ∈ read.cooldowns) {cooldown : ProviderFamilyCooldown}
    (hpayload : r.payload = .providerCooldown cooldown)
    (hprovider : cooldown.provider = planned.candidate.profile.provider) :
    CooldownHeeded read.cooldowns now planned.candidate.profile.provider := by
  obtain ⟨activeTurns,hdescribes,hlaunchable⟩ := runRouteTaskCommand_spec h
  have hx : (r,cooldown) ∈ cooldownRecords read.cooldowns := mem_cooldownRecords.mpr ⟨hlisted,hpayload⟩
  obtain ⟨e,he,hid,hnewest,hget⟩ := latestPayloads_newest (·.provider) hx
  obtain ⟨hmem,hlatest⟩ := mem_cooldownRecords.mp he
  have hget : (Dictionary.indexBy (·.provider) (latestPayloads (·.provider) (cooldownRecords read.cooldowns))).get?
    planned.candidate.profile.provider = some e.2 := hprovider ▸ hget
  have hfound : planned.candidate.providerCooldown = some e.2 := hdescribes.providerCooldown.trans hget
  refine ⟨e.1,hmem,e.2,hlatest,hid.trans hprovider,fun r' hr' other hother hof => ?_,hlaunchable.cool _ ?_⟩
  · exact hnewest (r',other) (mem_cooldownRecords.mpr ⟨hr',hother⟩) (hof.trans hprovider.symm)
  · simp [IdentityPoolMember.cooldowns, hfound]

/-- A route is launched on an identity only if the newest status that was listed of it and the newest cooldown that was
listed of its provider let it; and each list has every record that was acknowledged before it and not pruned. -/
theorem routeTask_heeds {c : StoreFormat} {as bs : List (AppendOnlyStore.Action P)} {s t : AppendOnlyStore.State P}
    {o : AppendOnlyStoreOptions} (hs : run (AppendOnlyStore.step c) AppendOnlyStore.State.init as = some s)
    (ht : run (AppendOnlyStore.step c) s bs = some t)
    (hstatuses : (AppendOnlyStore.listRecords c o s).2 = .ok read.statuses)
    (hcooldowns : (AppendOnlyStore.listRecords c o t).2 = .ok read.cooldowns)
    (h : runRouteTaskCommand localeCompare readStatus readLimit profiles read request now arbitrate = .ok planned) :
    (∀ r rest, r.payload = .identityProfileStatus planned.candidate.profile.id rest →
      (r ∈ s.acknowledged → r ∉ s.pruned → r ∈ read.statuses) ∧
      (r ∈ read.statuses → StatusHeeded readStatus read.statuses now planned.candidate.profile.id)) ∧
    ∀ r cooldown, r.payload = .providerCooldown cooldown → cooldown.provider = planned.candidate.profile.provider →
      (r ∈ t.acknowledged → r ∉ t.pruned → r ∈ read.cooldowns) ∧
      (r ∈ read.cooldowns → CooldownHeeded read.cooldowns now planned.candidate.profile.provider) := by
  have hsound := AppendOnlyStore.run_core hs
  have hsound' := AppendOnlyStore.run_core ((run_append _ _ _ _).trans (by rw [hs]; exact ht))
  constructor
  · intro r rest hpayload
    have hkind : r.kind ≠ .session := by simp [StateLedgerEntry.kind, hpayload, LedgerPayload.kind]
    exact ⟨fun hr hkept => (AppendOnlyStore.listRecords_acknowledged hsound hstatuses hr hkind).resolve_right hkept,
      fun hlisted => status_heeded h hlisted hpayload⟩
  · intro r cooldown hpayload hprovider
    have hkind : r.kind ≠ .session := by simp [StateLedgerEntry.kind, hpayload, LedgerPayload.kind]
    exact ⟨fun hr hkept => (AppendOnlyStore.listRecords_acknowledged hsound' hcooldowns hr hkind).resolve_right hkept,
      fun hlisted => cooldown_heeded h hlisted hpayload hprovider⟩

end Heeded
section Sample

def sampleStatus : IdentityProfileStatus := ⟨"",.ready,1,1,none,none⟩

def statusRecord : StateLedgerEntry := ⟨"a",1,1,some 1,none,none,none,.identityProfileStatus "other" ""⟩

def cooldownRecord : StateLedgerEntry := ⟨"b",2,1,some 1,none,none,none,.providerCooldown usageCooldown⟩

/-- A status is acknowledged. -/
def sampleTold : List (AppendOnlyStore.Action Bool) :=
  [⟨true,⟨100,1000⟩,some 0,.opening,.returns⟩,
   ⟨true,⟨100,1000⟩,some 1,.append ⟨statusRecord.payload,none,none,none,none,none,none⟩ "a" 4,.returns⟩]

def sampleLater : List (AppendOnlyStore.Action Bool) :=
  [⟨true,⟨100,1000⟩,some 1,.append ⟨cooldownRecord.payload,none,none,none,none,none,none⟩ "b" 5,.returns⟩]

def sampleRequest : RouteTaskRequest := ⟨"task",none,⟨false,true,true,false,false,none⟩,none,none,none,none⟩

def sampleReadings : RouteReadings := ⟨[statusRecord],[statusRecord,cooldownRecord],[]⟩

def sampleRoute : Except RouteTaskError (PlannedRoute ℕ Unit) :=
  runRouteTaskCommand compare (fun _ => sampleStatus) (fun _ _ => usageCap) (seenAt 0).profiles sampleReadings
    sampleRequest 0 none

/-- The route goes to the identity whose provider is not cooling. -/
theorem routeTask_heeds_sample : ∃ s t : AppendOnlyStore.State Bool, ∃ planned,
    run (AppendOnlyStore.step AppendOnlyStore.sampleFormat) AppendOnlyStore.State.init sampleTold = some s ∧
    run (AppendOnlyStore.step AppendOnlyStore.sampleFormat) s sampleLater = some t ∧ sampleRoute = .ok planned ∧
    planned.candidate.profile.id = "other" ∧ statusRecord ∈ s.acknowledged ∧
    StatusHeeded (fun _ => sampleStatus) [statusRecord] 0 "other" := by
  have hshape : ((run (AppendOnlyStore.step AppendOnlyStore.sampleFormat) AppendOnlyStore.State.init sampleTold).bind
      fun s => (run (AppendOnlyStore.step AppendOnlyStore.sampleFormat) s sampleLater).map fun t =>
        ((AppendOnlyStore.listRecords AppendOnlyStore.sampleFormat ⟨100,1000⟩ s).2,
          (AppendOnlyStore.listRecords AppendOnlyStore.sampleFormat ⟨100,1000⟩ t).2,s.acknowledged,s.pruned)) =
      some (.ok [statusRecord],.ok [statusRecord,cooldownRecord],[statusRecord],[]) := by
    decide +kernel
  have hroute : sampleRoute.toOption.map (fun planned => planned.candidate.profile.id) = some "other" := by
    decide +kernel
  obtain ⟨s,hs,hshape⟩ := Option.bind_eq_some_iff.mp hshape
  obtain ⟨t,ht,hshape⟩ := Option.map_eq_some_iff.mp hshape
  obtain ⟨hstatuses,hshape⟩ := Prod.mk.inj hshape
  obtain ⟨hcooldowns,hshape⟩ := Prod.mk.inj hshape
  obtain ⟨hacknowledged,hpruned⟩ := Prod.mk.inj hshape
  cases hplanned : sampleRoute with
  | error e =>
    rw [hplanned] at hroute
    cases hroute
  | ok planned =>
    rw [hplanned] at hroute
    have hid : planned.candidate.profile.id = "other" := Option.some.inj hroute
    have hmem : statusRecord ∈ s.acknowledged := by simp [hacknowledged]
    have hkept : statusRecord ∉ s.pruned := by simp [hpruned]
    have hpayload : statusRecord.payload = .identityProfileStatus planned.candidate.profile.id "" := by rw [hid]; rfl
    obtain ⟨hlisted,hheeded⟩ := (routeTask_heeds hs ht hstatuses hcooldowns hplanned).1 statusRecord "" hpayload
    rw [hid] at hheeded
    exact ⟨s,t,planned,hs,ht,rfl,hid,hmem,hheeded (hlisted hmem hkept)⟩

end Sample
end OmniagentPlus.Cli
