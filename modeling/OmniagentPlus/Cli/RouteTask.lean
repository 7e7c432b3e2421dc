import OmniagentPlus.WorktreeLeasing.LeaseHistory

/-! `arbitrateCoordinationLease` in `route-task.ts` without a record: it looks for a hard lease in the
way of the one that it would acquire. -/
namespace OmniagentPlus.Cli
open OmniagentPlus.Foundation OmniagentPlus.CoreContracts OmniagentPlus.StateLedger OmniagentPlus.WorktreeLeasing

inductive CoordinationOutcome
  | blockedHardConflict (conflictLeaseId : Text)
  | notRequested
  | coordinationUnavailable
  deriving DecidableEq, Repr

/-- `{ scope, mode: mode === "hard" ? "hard" : undefined, limit: 1 }` -/
def conflictQuery (mode : LeaseMode) (scope : LeaseScope) : LeaseQuery :=
  ⟨none,some scope,false,none,if mode = .hard then some .hard else none,⟨some 1,none⟩⟩

/-- The lease that blocks, among those that the query gave. -/
def blockingLease (mode : LeaseMode) (leases : List ConsiliencyLease) : Option ConsiliencyLease :=
  if mode = .hard then leases.find? fun lease => lease.mode = .hard else none

def coordinationOutcome (mode : LeaseMode) : Except LeaseStoreError (List ConsiliencyLease) → CoordinationOutcome
  | .error _ => .coordinationUnavailable
  | .ok leases => (blockingLease mode leases).elim .notRequested fun conflict => .blockedHardConflict conflict.lease_id

/-- `request` is what a record would acquire; it is checked first. -/
def arbitrateCoordinationLease (file : Option LocalLeaseStoreState) (request : LeaseAcquireRequest) (clock : ℤ)
    (uuid : Text) : Except LeaseStoreError CoordinationOutcome := do
  let _ ← createLeaseFromAcquireRequest request clock uuid
  return coordinationOutcome request.mode (query file (conflictQuery request.mode request.scope) clock)

/-- A live hard lease of a state overlaps the scope. -/
def Obstructed (state : LocalLeaseStoreState) (now : ℤ) (scope : LeaseScope) : Prop :=
  ∃ k l, state.leases.get? k = some l ∧ isLeaseExpired l now = false ∧ l.mode = .hard ∧
    leaseScopesOverlap l.scope scope = true

section Query

/-- The normal form of a scope overlaps what the scope does. -/
lemma leaseScopesOverlap_normalize (l s : LeaseScope) : leaseScopesOverlap l (normalizeLeaseScope s) = leaseScopesOverlap l s := by
  unfold leaseScopesOverlap
  rw [normalizeLeaseScope_idem]

variable {file : Option LocalLeaseStoreState} {clock : ℤ}

/-- The query gives the first of the leases in the way. -/
theorem query_eq_take (scope : LeaseScope) {state : LocalLeaseStoreState} (h : readState file (toContractTimestamp clock) = .ok state) :
    ∃ sorted : List ConsiliencyLease, query file (conflictQuery .hard scope) clock = .ok (sorted.take 1) ∧
      ∀ l, l ∈ sorted ↔ (∃ k, state.leases.get? k = some l) ∧ isLeaseExpired l (toContractTimestamp clock) = false ∧
        l.mode = .hard ∧ leaseScopesOverlap l.scope scope = true := by
  have hpage : validateCoordinationPage (conflictQuery .hard scope).page = some (1,none) := rfl
  have hnow : (conflictQuery .hard scope).now.getD clock = clock := rfl
  refine ⟨_,by
    unfold query
    rw [hpage, hnow]
    change (readState file (toContractTimestamp clock) >>= _) = _
    rw [h]
    rfl,fun l => ?_⟩
  simp only [conflictQuery, List.mem_filter, List.mem_mergeSort, Bool.false_or, Bool.not_eq_true', Option.all_some,
    Option.all_none, if_true, beq_iff_eq, and_true]
  constructor
  · rintro ⟨⟨⟨hl,hlive⟩,hoverlap⟩,hhard⟩
    obtain ⟨⟨k,l⟩,hk,rfl⟩ := List.mem_map.mp hl
    exact ⟨⟨k,mem_ownEntries.mp hk⟩,hlive,hhard.symm,hoverlap⟩
  · rintro ⟨⟨k,hk⟩,hlive,hhard,hoverlap⟩
    exact ⟨⟨⟨List.mem_map.mpr ⟨(k,l),mem_ownEntries.mpr hk,rfl⟩,hlive⟩,hoverlap⟩,hhard.symm⟩

variable {scope : LeaseScope}

lemma query_unread {e : LeaseStoreError} (h : readState file (toContractTimestamp clock) = .error e) :
    query file (conflictQuery .hard scope) clock = .error e := by
  have hpage : validateCoordinationPage (conflictQuery .hard scope).page = some (1,none) := rfl
  have hnow : (conflictQuery .hard scope).now.getD clock = clock := rfl
  unfold query
  rw [hpage, hnow]
  change (readState file (toContractTimestamp clock) >>= _) = _
  rw [h]
  rfl

/-- It gives a lease where one is in the way. -/
theorem query_obstructed_iff : (∃ lease, query file (conflictQuery .hard scope) clock = .ok [lease]) ↔
    ∃ state, readState file (toContractTimestamp clock) = .ok state ∧ Obstructed state (toContractTimestamp clock) scope := by
  cases hread : readState file (toContractTimestamp clock) with
  | error e => simp [query_unread hread]
  | ok state =>
    obtain ⟨sorted,hquery,hsorted⟩ := query_eq_take scope hread
    have hsome : (∃ lease, sorted.take 1 = [lease]) ↔ ∃ l, l ∈ sorted := by
      cases sorted with
      | nil => simp
      | cons l sorted => exact ⟨fun _ => ⟨l,List.mem_cons_self⟩,fun _ => ⟨l,rfl⟩⟩
    simp only [hquery, Except.ok.injEq, hsome, hsorted, exists_eq_left']
    constructor
    · rintro ⟨l,⟨k,hk⟩,hrest⟩
      exact ⟨k,l,hk,hrest⟩
    · rintro ⟨k,l,hk,hrest⟩
      exact ⟨l,⟨k,hk⟩,hrest⟩

/-- A dry run is blocked where the query gives a lease. -/
theorem arbitrate_blocked_iff {request : LeaseAcquireRequest} {uuid : Text} (hmode : request.mode = .hard) {draft : ConsiliencyLease}
    (hdraft : createLeaseFromAcquireRequest request clock uuid = .ok draft) :
    (∃ id, arbitrateCoordinationLease file request clock uuid = .ok (.blockedHardConflict id)) ↔
      ∃ lease, query file (conflictQuery .hard request.scope) clock = .ok [lease] := by
  have houtcome : arbitrateCoordinationLease file request clock uuid =
      .ok (coordinationOutcome .hard (query file (conflictQuery .hard request.scope) clock)) := by
    rw [arbitrateCoordinationLease, hdraft, hmode]
    rfl
  rw [houtcome]
  cases hquery : query file (conflictQuery .hard request.scope) clock with
  | error e => simp [coordinationOutcome]
  | ok leases =>
    cases hread : readState file (toContractTimestamp clock) with
    | error e => simp [query_unread hread] at hquery
    | ok state =>
      obtain ⟨sorted,htake,hsorted⟩ := query_eq_take request.scope hread
      obtain rfl := Except.ok.inj (htake.symm.trans hquery)
      cases sorted with
      | nil => simp [coordinationOutcome, blockingLease]
      | cons lease sorted =>
        have hhard := ((hsorted lease).mp List.mem_cons_self).2.2.1
        simp [coordinationOutcome, blockingLease, hhard]

end Query
section Writes
variable {file : Option LocalLeaseStoreState} {state : LocalLeaseStoreState} {now : ℤ}

/-- No more leases are stored than a write lets through. -/
def LeasesFit (file : Option LocalLeaseStoreState) : Prop := ∀ s ∈ file, s.leases.entries.length ≤ 10000

lemma writeState_fits {written : LocalLeaseStoreState} (h : writeState state now = .ok written) :
    LeasesFit (some written) := by
  intro s hs
  cases hs
  rw [writeState_leases h]
  unfold writeState at h
  split_ifs at h with hfull
  omega

/-- The sweep stores no lease, and records those that it takes. -/
lemma foldl_expireLease (now : ℤ) (entries : List (Text × ConsiliencyLease)) (acc : LocalLeaseStoreState × ℕ) :
    (entries.foldl (expireLease now) acc).1.leases.entries.length ≤ acc.1.leases.entries.length ∧
      ∃ swept, (entries.foldl (expireLease now) acc).1.events = acc.1.events ++ swept ∧
        ∀ x ∈ swept, ∃ e ∈ entries, x.leaseId = e.1 ∧ isLeaseExpired e.2 now = true := by
  induction entries generalizing acc with
  | nil => exact ⟨le_rfl,[],(List.append_nil _).symm,fun x hx => absurd hx List.not_mem_nil⟩
  | cons e entries ih =>
    obtain ⟨hlength,swept,hevents,hswept⟩ := ih (expireLease now acc e)
    rw [List.foldl_cons]
    by_cases hexpired : isLeaseExpired e.2 now = true
    · have hstep : (expireLease now acc e).1.leases = acc.1.leases.erase e.1 := by simp [expireLease, hexpired]
      have hevent : (expireLease now acc e).1.events =
          acc.1.events ++ [⟨.expire,e.1,e.2.holder,some e.2,now,some "ttl_expired"⟩] := by simp [expireLease, hexpired]
      rw [hstep] at hlength
      rw [hevent, List.append_assoc] at hevents
      refine ⟨hlength.trans (List.length_filter_le _ _),_,hevents,fun x hx => ?_⟩
      obtain hx | hx := List.mem_cons.mp hx
      · rw [hx]
        exact ⟨e,List.mem_cons_self,rfl,hexpired⟩
      · obtain ⟨f,hf,hid,hf'⟩ := hswept x hx
        exact ⟨f,List.mem_cons_of_mem e hf,hid,hf'⟩
    · have hsame : expireLease now acc e = acc := by simp [expireLease, hexpired]
      rw [hsame] at hlength hevents ⊢
      refine ⟨hlength,swept,hevents,fun x hx => ?_⟩
      obtain ⟨f,hf,hid,hf'⟩ := hswept x hx
      exact ⟨f,List.mem_cons_of_mem e hf,hid,hf'⟩

/-- The events of the sweep are of leases that are gone, so that none of them is kept for its lease. -/
lemma protected_expireState {i : ℕ} (h : i ∈ protectedIndices (expireState state now).1) : i < state.events.length := by
  obtain ⟨-,swept,hevents,hswept⟩ := foldl_expireLease now (ownEntries state.leases) (state,0)
  have hplace : ∃ e, (expireState state now).1.events[i]? = some e := by
    obtain ⟨k,hk⟩ | ⟨k,hk⟩ := mem_protectedIndices.mp h
    · obtain ⟨x,hx,-⟩ := mem_of_lastPlaces hk
      exact ⟨x,List.mem_zipIdx_iff_getElem?.mp hx⟩
    · obtain ⟨x,hx,-⟩ := mem_of_lastPlaces hk
      exact ⟨x,List.mem_zipIdx_iff_getElem?.mp hx⟩
  obtain ⟨e,he⟩ := hplace
  have hlive := live_of_protected he h
  by_contra hlate
  rw [show (expireState state now).1.events = state.events ++ swept from hevents,
    List.getElem?_append_right (by omega)] at he
  obtain ⟨f,hf,hid,hexpired⟩ := hswept e (List.mem_of_getElem? he)
  rw [get?_expireState, hid, mem_ownEntries.mp hf] at hlive
  simp [Option.filter, hexpired] at hlive

/-- A state within the limits can be written after a sweep. -/
theorem writeState_swept (now : ℤ) (hleases : state.leases.entries.length ≤ 10000) (hevents : state.events.length ≤ eventLimit) :
    ∃ written, writeState (expireState state now).1 now = .ok written := by
  have hfew := (foldl_expireLease now (ownEntries state.leases) (state,0)).1
  have hkept : (protectedIndices (expireState state now).1).length ≤ eventLimit := by
    have hnodup : (protectedIndices (expireState state now).1).Nodup := by
      rw [protectedIndices_eq]
      exact nodup_eraseDups _
    refine le_trans ?_ hevents
    rw [← List.length_range (n := state.events.length)]
    exact hnodup.length_le_of_subset fun i hi => List.mem_range.mpr (protected_expireState hi)
  unfold writeState
  rw [if_neg (by exact Nat.not_lt.mpr (hfew.trans hleases))]
  dsimp only
  rw [if_neg (by exact Nat.not_lt.mpr hkept)]
  exact ⟨_,rfl⟩

lemma stored_fits {ρ : Type} (hfile : LeasesFit file) {x : Except LeaseStoreError (ρ × Option LocalLeaseStoreState)}
    (h : ∀ result written, x = .ok (result,some written) → ∃ state now, writeState state now = .ok written) :
    LeasesFit (stored file x) := by
  cases x with
  | error e => exact hfile
  | ok answer =>
    obtain ⟨result,written⟩ := answer
    cases written with
    | none => exact hfile
    | some t =>
      obtain ⟨state,now,ht⟩ := h result t rfl
      exact writeState_fits ht

/-- What `acquire` stores it has written. -/
lemma acquire_writes {request : LeaseAcquireRequest} {prepared clock : ℤ} {uuid : Text} {result : LeaseAcquireResult}
    {written : LocalLeaseStoreState} (h : acquire file request prepared clock uuid = .ok (result,some written)) :
    ∃ state now, writeState state now = .ok written := by
  unfold acquire at h
  obtain ⟨draft,-,h⟩ := except_bind_eq_ok.mp h
  obtain ⟨lease,-,h⟩ := except_bind_eq_ok.mp h
  obtain ⟨state,-,h⟩ := except_bind_eq_ok.mp h
  dsimp only at h
  split at h
  · obtain ⟨t,ht,h⟩ := except_bind_eq_ok.mp h
    cases h
    exact ⟨_,_,ht⟩
  · split at h
    · obtain ⟨t,ht,h⟩ := except_bind_eq_ok.mp h
      cases h
      exact ⟨_,_,ht⟩
    · obtain ⟨t,ht,h⟩ := except_bind_eq_ok.mp h
      cases h
      exact ⟨_,_,ht⟩

lemma renew_writes {leaseId holder : Text} {ttlSeconds requested : Option ℤ} {clock : ℤ} {result : LeaseRenewResult}
    {written : LocalLeaseStoreState} (h : renew file leaseId holder ttlSeconds requested clock = .ok (result,some written)) :
    ∃ state now, writeState state now = .ok written := by
  unfold renew at h
  obtain ⟨-,-,h⟩ := except_bind_eq_ok.mp h
  obtain ⟨state,-,h⟩ := except_bind_eq_ok.mp h
  dsimp only at h
  split at h
  · obtain ⟨t,ht,h⟩ := except_bind_eq_ok.mp h
    cases h
    exact ⟨_,_,ht⟩
  · split_ifs at h
    · cases h
    · obtain ⟨t,ht,h⟩ := except_bind_eq_ok.mp h
      cases h
      exact ⟨_,_,ht⟩
    · obtain ⟨lease,-,h⟩ := except_bind_eq_ok.mp h
      obtain ⟨t,ht,h⟩ := except_bind_eq_ok.mp h
      cases h
      exact ⟨_,_,ht⟩

lemma release_writes {leaseId holder : Text} {requested : Option ℤ} {clock : ℤ} {result : LeaseReleaseResult}
    {written : LocalLeaseStoreState} (h : release file leaseId holder requested clock = .ok (result,some written)) :
    ∃ state now, writeState state now = .ok written := by
  unfold release at h
  obtain ⟨-,-,h⟩ := except_bind_eq_ok.mp h
  obtain ⟨state,-,h⟩ := except_bind_eq_ok.mp h
  dsimp only at h
  split at h
  · obtain ⟨t,ht,h⟩ := except_bind_eq_ok.mp h
    cases h
    exact ⟨_,_,ht⟩
  · split_ifs at h
    · cases h
    · obtain ⟨t,ht,h⟩ := except_bind_eq_ok.mp h
      cases h
      exact ⟨_,_,ht⟩

lemma expire_writes {instant : ℤ} {count : ℕ} {written : LocalLeaseStoreState}
    (h : expire file instant = .ok (count,some written)) : ∃ state now, writeState state now = .ok written := by
  unfold expire at h
  obtain ⟨state,-,h⟩ := except_bind_eq_ok.mp h
  dsimp only at h
  obtain ⟨t,ht,h⟩ := except_bind_eq_ok.mp h
  cases h
  exact ⟨_,_,ht⟩

/-- An operation leaves leases that fit. -/
theorem step_fits {next : Option LocalLeaseStoreState} {a : LeaseStoreAction} (hfile : LeasesFit file)
    (h : leaseStoreStep file a = some next) : LeasesFit next := by
  cases a with
  | acquire request prepared clock uuid =>
    cases h
    exact stored_fits hfile fun _ _ hresult => acquire_writes hresult
  | renew leaseId holder ttl requested clock =>
    cases h
    exact stored_fits hfile fun _ _ hresult => renew_writes hresult
  | release leaseId holder requested clock =>
    cases h
    exact stored_fits hfile fun _ _ hresult => release_writes hresult
  | query q clock =>
    cases h
    exact hfile
  | expire instant =>
    cases h
    exact stored_fits hfile fun _ _ hresult => expire_writes hresult

end Writes
section Admission
variable {file : Option LocalLeaseStoreState} {request : LeaseAcquireRequest} {clock : ℤ} {uuid : Text}

/-- The conflict that `acquire` finds after the sweep. -/
lemma findConflict_obstructed (request : LeaseAcquireRequest) {state : LocalLeaseStoreState} {now : ℤ}
    {lease : ConsiliencyLease}
    (hhard : lease.mode = .hard) (hscope : lease.scope = normalizeLeaseScope request.scope) :
    (∃ conflict, findConflict (expireState state now).1 lease = some conflict) ↔ Obstructed state now request.scope := by
  rw [← Option.isSome_iff_exists, findConflict, List.find?_isSome]
  simp only [hscope, leaseScopesOverlap_normalize, hhard, decide_true, Bool.and_true, Bool.and_eq_true, decide_eq_true_eq]
  constructor
  · rintro ⟨l,hl,hmode,hoverlap⟩
    obtain ⟨⟨k,l⟩,hk,rfl⟩ := List.mem_map.mp hl
    have hget := mem_ownEntries.mp hk
    rw [get?_expireState] at hget
    obtain ⟨hget,hlive⟩ := Option.filter_eq_some_iff.mp hget
    exact ⟨k,l,hget,by simpa using hlive,hmode,hoverlap⟩
  · rintro ⟨k,l,hk,hlive,hmode,hoverlap⟩
    refine ⟨l,List.mem_map.mpr ⟨(k,l),mem_ownEntries.mpr ?_,rfl⟩,hmode,hoverlap⟩
    rw [get?_expireState]
    exact Option.filter_eq_some_iff.mpr ⟨hk,by simpa using hlive⟩

/-- What is read is within the limits. -/
lemma readState_within {state : LocalLeaseStoreState} {now : ℤ} (hkept : HistoryKept file) (hfits : LeasesFit file)
    (h : readState file now = .ok state) : state.leases.entries.length ≤ 10000 ∧ state.events.length ≤ eventLimit := by
  unfold readState at h
  cases file with
  | none =>
    cases h
    exact ⟨Nat.zero_le _,Nat.zero_le _⟩
  | some s =>
    dsimp only at h
    split_ifs at h
    cases h
    exact ⟨hfits state rfl,(hkept state rfl).1⟩

/-- What `acquire` decides on, where the request is well formed and its id is free. -/
theorem acquire_conflict_iff (hhard : request.mode = .hard) (hnow : request.now.getD clock = clock)
    {draft : ConsiliencyLease} (hdraft : createLeaseFromAcquireRequest request clock uuid = .ok draft)
    (hfresh : ∀ s ∈ file, s.leases.get? draft.lease_id = none) (hkept : HistoryKept file) (hfits : LeasesFit file) :
    (∃ conflict written, acquire file request clock clock uuid = .ok (⟨false,none,some conflict,some .conflict⟩,written)) ↔
      ∃ state, readState file (toContractTimestamp clock) = .ok state ∧
        Obstructed state (toContractTimestamp clock) request.scope := by
  have hfields := parseLease_eq_ok.mp hdraft
  rw [hnow] at hfields
  have hlease : parseLease { draft.toLeaseFields with
      acquired_at := toContractTimestamp clock, heartbeat_at := toContractTimestamp clock } = .ok draft := by
    rw [parseLease_eq_ok, hfields]
  unfold acquire
  simp only [hdraft, hnow, hlease, bind, Except.bind, pure, Except.pure]
  cases hread : readState file (toContractTimestamp clock) with
  | error e => simp
  | ok state =>
    have hfree : (expireState state (toContractTimestamp clock)).1.leases.get? draft.lease_id = none := by
      rw [get?_expireState]
      cases hget : state.leases.get? draft.lease_id with
      | none => rfl
      | some l =>
        obtain ⟨s,hs,hl⟩ := readState_get? hread hget
        rw [hfresh s hs] at hl
        cases hl
    obtain ⟨hleases,hevents⟩ := readState_within hkept hfits hread
    obtain ⟨written,hwritten⟩ := writeState_swept (toContractTimestamp clock) hleases hevents
    simp only [hfree, exists_eq_left', Except.ok.injEq]
    rw [← @findConflict_obstructed request _ _ draft (by rw [hfields, hhard]) (by rw [hfields])]
    cases hconflict : findConflict (expireState state (toContractTimestamp clock)).1 draft with
    | some conflict =>
      simp only [hwritten]
      exact ⟨fun _ => ⟨conflict,rfl⟩,fun _ => ⟨conflict,some written,rfl⟩⟩
    | none =>
      dsimp only
      cases writeState _ _ <;> simp

/-- For every state that the store can be in, a hard `acquire` with a free id is refused for a conflict
exactly where the query at the same time gives a lease, and there the dry run is blocked. -/
theorem dryRun_agrees {actions : List LeaseStoreAction} (hrun : run leaseStoreStep none actions = some file)
    (hhard : request.mode = .hard) (hnow : request.now.getD clock = clock) {draft : ConsiliencyLease}
    (hdraft : createLeaseFromAcquireRequest request clock uuid = .ok draft)
    (hfresh : ∀ s ∈ file, s.leases.get? draft.lease_id = none) :
    ((∃ lease, query file (conflictQuery .hard request.scope) clock = .ok [lease]) ↔ ∃ conflict written,
      acquire file request clock clock uuid = .ok (⟨false,none,some conflict,some .conflict⟩,written)) ∧
    ((∃ id, arbitrateCoordinationLease file request clock uuid = .ok (.blockedHardConflict id)) ↔
      ∃ lease, query file (conflictQuery .hard request.scope) clock = .ok [lease]) := by
  have hkept : HistoryKept file :=
    run_invariant leaseStoreStep (fun _ _ _ hfile hstep => step_kept hfile hstep) (fun s hs => (by cases hs)) hrun
  have hfits : LeasesFit file :=
    run_invariant leaseStoreStep (fun _ _ _ hfile hstep => step_fits hfile hstep) (fun s hs => (by cases hs)) hrun
  refine ⟨?_,arbitrate_blocked_iff hhard hdraft⟩
  rw [query_obstructed_iff, acquire_conflict_iff hhard hnow hdraft hfresh hkept hfits]

/-- A request for a directory. -/
def directoryRequest (leaseId selector : String) : LeaseAcquireRequest :=
  ⟨some (Text.of leaseId),Text.of "agent",60,.hard,⟨.pathSet,[Text.of selector]⟩,Text.of "CS-2.2",none⟩

theorem dryRun_agrees_nested : ∃ file,
    run leaseStoreStep none [.acquire (directoryRequest "lease:a" "src") 0 0 []] = some file ∧
      ((∃ lease, query file (conflictQuery .hard (directoryRequest "lease:b" "src/a").scope) 0 = .ok [lease]) ↔
        ∃ conflict written, acquire file (directoryRequest "lease:b" "src/a") 0 0 [] =
          .ok (⟨false,none,some conflict,some .conflict⟩,written)) ∧
      ((∃ id, arbitrateCoordinationLease file (directoryRequest "lease:b" "src/a") 0 [] = .ok (.blockedHardConflict id)) ↔
        ∃ lease, query file (conflictQuery .hard (directoryRequest "lease:b" "src/a").scope) 0 = .ok [lease]) := by
  obtain ⟨draft,hdraft⟩ : ∃ draft, createLeaseFromAcquireRequest (directoryRequest "lease:b" "src/a") 0 [] = .ok draft :=
    ⟨⟨_,by decide +kernel⟩,parseLease_eq_ok.mpr rfl⟩
  have hid : draft.lease_id = Text.of "lease:b" := by rw [parseLease_eq_ok.mp hdraft]; rfl
  have hfree : (stored none (acquire none (directoryRequest "lease:a" "src") 0 0 [])).all
      (fun s => s.leases.get? (Text.of "lease:b") = none) = true := by decide +kernel
  refine ⟨stored none (acquire none (directoryRequest "lease:a" "src") 0 0 []),rfl,?_⟩
  have hrun : run leaseStoreStep none [.acquire (directoryRequest "lease:a" "src") 0 0 []] =
      some (stored none (acquire none (directoryRequest "lease:a" "src") 0 0 [])) := rfl
  apply dryRun_agrees hrun rfl rfl hdraft
  intro s hs
  rw [hid]
  simpa using Option.all_eq_true _ _ |>.mp hfree s hs

end Admission

end OmniagentPlus.Cli
