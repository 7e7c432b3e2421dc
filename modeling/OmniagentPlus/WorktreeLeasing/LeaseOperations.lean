import OmniagentPlus.WorktreeLeasing.LeaseSimulation

/-! The operations of the lease manager, one by one, as moves of the journal, and what holds of
the journal over a whole run. -/
namespace OmniagentPlus.WorktreeLeasing
open OmniagentPlus.Foundation OmniagentPlus.CoreContracts OmniagentPlus.StateLedger
variable {P : Type}

theorem requireOwner_ok {registry : WorktreeLeaseRegistry} {lease : WorktreeLease} {record : StoredLeaseRecord}
    (h : requireOwner registry lease = .ok record) : registry.records.get? lease.id = some record ∧
      record.status = .active ∧ registry.pending.get? lease.id = none := by
  unfold requireOwner at h
  split at h
  · cases h
  next q hq =>
  split at h
  · cases h
  next hactive =>
  split at h
  · cases h
  split at h
  · cases h
  next hidle =>
  cases h
  exact ⟨hq,by simpa using hactive,by simpa using hidle⟩

/-- The owner of a lease names its path. -/
theorem requireOwner_path {registry : WorktreeLeaseRegistry} {lease : WorktreeLease} {record : StoredLeaseRecord}
    (h : requireOwner registry lease = .ok record) : record.lease.path = lease.path := by
  unfold requireOwner at h
  split at h
  · cases h
  split at h
  · cases h
  split at h
  · cases h
  next howner =>
  split at h
  · cases h
  cases h
  unfold assertOwner at howner
  split at howner
  · cases howner
  split at howner
  · cases howner
  next hsame =>
  by_contra hpath
  exact hsame (.inr (.inl hpath))

/-- The intent of a release keeps everything but the lease's end. -/
theorem releaseIntent_ok {record : StoredLeaseRecord} {now : Instant} {operation : MutationOperation}
    {cause : ReleaseCause} {recordId : String} {intent : PendingLeaseMutation}
    (h : releaseIntent record now operation cause recordId = .ok intent) :
    intent = ⟨recordId,{ record with
      lease := { record.lease with
        renewedAt := now
        expiresAt := now
        release := some ⟨cause,releaseActor cause,now⟩ }
      status := .released
      releasedAt := some now
      updatedAt := now },operation,none⟩ := by
  unfold releaseIntent createWorktreeLeaseRelease at h
  dsimp only at h
  split at h
  · cases h
  next lease hlease =>
  split at hlease
  · cases hlease
    exact (Except.ok.inj h).symm
  · cases hlease

/-- A release is at a time. -/
theorem releaseIntent_isSome {record : StoredLeaseRecord} {now : Instant} {operation : MutationOperation}
    {cause : ReleaseCause} {recordId : String} {intent : PendingLeaseMutation}
    (h : releaseIntent record now operation cause recordId = .ok intent) : now.isSome := by
  unfold releaseIntent createWorktreeLeaseRelease at h
  dsimp only at h
  split at h
  · cases h
  next lease hlease =>
  split at hlease
  · next hallowed =>
    simp only [WorktreeLease.allowed, WorktreeLeaseRelease.allowed, Option.all_some, Bool.and_eq_true] at hallowed
    exact hallowed.2.1.1.1.2
  · cases hlease

namespace WorktreeLeaseManager
variable {c : LeaseFormat} {x : LeaseAction P} {fresh : Prop} {k : ℕ} {s : LeaseManagerState P} (a : Surroundings P)

/-- The checks of an acquisition, read off the registry that it decides on. -/
theorem acquiredRecord_granted (ha : x.surroundings = a) {request : WorktreeLeaseRequest}
    {options : AcquireWorktreeLeaseOptions} {collision : BranchCollisionDecision} {path canonical : Path}
    {expiresAt : Instant} {pathIdentity : Option PathIdentity}
    (hdecision : evaluateBranchCollision request (s.stored.active.map (·.lease))
      (getSequentialCandidate s.stored request options.branchHead) = some collision)
    (hallowed : collision.allowed = true) (hcanonical : canonicalLeasePath a.world path = .ok canonical)
    (hholder : pathHolder s.stored request canonical = none)
    (hidentity : a.world.readPathIdentity canonical = .ok pathIdentity) {intent : PendingLeaseMutation}
    (hintent : intent = ⟨c.randomUUID (s.drawn + 2),acquiredRecord a request options (c.randomUUID (s.drawn + 0))
      (c.randomUUID (s.drawn + 1)) expiresAt canonical pathIdentity,.acquire,none⟩)
    (hreclaimed : s.stored.reclamation = none) (hschema : intent.allowed = true) : Granted c x s.journal intent := by
  obtain ⟨hvalid,hbranch,hcontinued⟩ := evaluateBranchCollision_allowed hdecision hallowed
  obtain ⟨hpending,hactive⟩ := Option.or_eq_none_iff.mp hholder
  rw [List.find?_eq_none] at hpending hactive
  have hpaths : ∀ r ∈ s.stored.active, r.claimedPath ≠ canonical := fun r hr => by simpa using hactive r hr
  have hclaims : ∀ p ∈ s.stored.pending.values, ¬ (p.record.lease.repoId = request.repoId ∧
      p.record.lease.branchName = request.branchName) ∧ p.record.claimedPath ≠ canonical := by
    intro p hp
    have hp := hpending p.record (List.mem_map_of_mem hp)
    simpa using hp
  subst hintent
  exact {
    operation := rfl
    removal := rfl
    reclaimed := hreclaimed
    allowed := hschema
    id := rfl
    recordId := rfl
    active := rfl
    branchName := hvalid
    claimed := fun hstatic => canonicalLeasePath_claimed (w := a.world) (ha ▸ hstatic) hcanonical hidentity
    branchFree := fun r hr hrepo => hbranch r.lease (List.mem_map_of_mem hr) hrepo
    pathFree := hpaths
    branchUnclaimed := fun p hp hrepo hname => (hclaims p hp).1 ⟨hrepo,hname⟩
    pathUnclaimed := fun p hp => (hclaims p hp).2
    continued := hcontinued }

section Operations
variable [DecidableEq P]

theorem acquireLease_spec (ha : x.surroundings = a)
    (hop : ∀ policy now interleaved, x.operation ≠ .retainHistory policy now interleaved)
    (h : s.ledger.Sound (.core c.toLedgerFormat)) (hk : s.drawn = k) (request : WorktreeLeaseRequest) (options : AcquireWorktreeLeaseOptions) :
    Program.Wp (Traces c x fresh k) (acquireLease c a request options) (Ends c fun r t => r.acquired = true →
      ∃ g ∈ t.grants, g.intent.record.request = request ∧ g.intent.record.branchHead = options.branchHead ∧
        r.lease = some g.intent.record.lease) s := by
  rw [acquireLease, Program.wp_bind, Program.wp_throwIf]
  refine ⟨fun _ => Ends.stop h _,fun _ => ?_⟩
  rw [Program.then_ok, Program.wp_bind, Program.wp_ofExcept]
  cases expiry options.now (ttlOf a options.ttlSeconds request.requestedTtlSeconds) with
  | error e => exact Ends.stop h e
  | ok expiresAt =>
  rw [Program.then_ok]
  refine withMutation_spec a (I := fun _ => True) (fun _ _ _ _ => trivial) trivial ha hop h hk (fun s hs hreclaimed hdrawn _ => ?_)
  simp only [memory, Program.wp_bind, Program.wp_reads, Program.then_ok]
  rw [hs.memory]
  cases hdecision : evaluateBranchCollision request (s.stored.active.map (·.lease))
      (getSequentialCandidate s.stored request options.branchHead) with
  | none =>
    rw [Program.wp_throw]
    exact ends_error.mpr hs.sound
  | some collision =>
  dsimp only
  split
  · rw [Program.wp_pure]
    exact ends_ok.mpr ⟨hs.sound,fun hr => by cases hr⟩
  next hallowed =>
  rw [Program.wp_bind, Program.wp_ofExcept]
  cases hcanonical : canonicalLeasePath a.world (leasePathOf a request options collision) with
  | error e => exact Ends.stop hs.sound e
  | ok canonical =>
  rw [Program.then_ok]
  cases hholder : pathHolder s.stored request canonical with
  | some holder =>
    rw [Program.wp_pure]
    exact ends_ok.mpr ⟨hs.sound,fun hr => by cases hr⟩
  | none =>
  dsimp only
  rw [Program.wp_bind, Program.wp_ofExcept]
  cases a.options.managedRoot.elim (.ok ()) (validateManagedPath a.world (leasePathOf a request options collision)) with
  | error e => exact Ends.stop hs.sound e
  | ok _ =>
  simp only [randomUUID, Program.wp_bind, Program.wp_reads, Program.then_ok, Program.wp_throwIf]
  refine ⟨fun _ => Ends.stop hs.sound _,fun _ => ?_⟩
  rw [Program.wp_ofExcept]
  cases hidentity : a.world.readPathIdentity canonical with
  | error e => exact Ends.stop hs.sound e
  | ok pathIdentity =>
  rw [Program.then_ok]
  generalize hintent : (PendingLeaseMutation.mk _ _ _ _) = intent
  have hgranted := acquiredRecord_granted (c := c) a ha hdecision (by simpa using hallowed) hcanonical hholder
    hidentity hintent.symm hreclaimed
  refine (publishMutation_spec a hs (by omega) (.of_none (by rw [← hintent])) fun hschema => LeaseMove.acquire intent (hgranted hschema)).mono
    (fun _ _ ht => ht) ?_
  rintro (e | u) t ht
  · exact Ends.stop ht.1 e
  rw [Program.then_ok, Program.wp_pure, ends_ok]
  have hgrant : ⟨intent,s.stored,s.releases⟩ ∈ (s.journal.stage intent 3).grants := by
    have hacquire : intent.operation = .acquire := by rw [← hintent]
    simp only [LeaseJournal.stage, if_pos hacquire]
    exact List.mem_append_right _ (List.mem_singleton_self _)
  refine ⟨ht.1,fun _ => ⟨⟨intent,s.stored,s.releases⟩,(ht.2 u rfl).2.2.2 hgrant,?_⟩⟩
  rw [← hintent]
  exact ⟨rfl,rfl,rfl⟩

theorem renewLease_spec (ha : x.surroundings = a)
    (hop : ∀ policy now interleaved, x.operation ≠ .retainHistory policy now interleaved)
    (h : s.ledger.Sound (.core c.toLedgerFormat)) (hk : s.drawn = k) (lease : WorktreeLease) (options : RenewWorktreeLeaseOptions) :
    Program.Wp (Traces c x fresh k) (renewLease c a lease options) (Ends c fun _ _ => True) s := by
  rw [renewLease, Program.wp_bind, Program.wp_throwIf]
  refine ⟨fun _ => Ends.stop h _,fun _ => ?_⟩
  refine withMutation_spec a (I := fun _ => True) (fun _ _ _ _ => trivial) trivial ha hop h hk (fun s hs hreclaimed hdrawn _ => ?_)
  simp only [memory, Program.wp_bind, Program.wp_reads, Program.then_ok, Program.wp_ofExcept]
  rw [hs.memory]
  cases howner : requireOwner s.stored lease with
  | error e => exact Ends.stop hs.sound e
  | ok existing =>
  obtain ⟨hcurrent,hactive,hidle⟩ := requireOwner_ok howner
  have hid := hs.keyed.records _ _ hcurrent
  rw [← hid] at hcurrent hidle
  rw [Program.then_ok, Program.wp_throwIf]
  refine ⟨fun _ => Ends.stop hs.sound _,fun _ => ?_⟩
  rw [Program.then_ok]
  cases expiry options.now (ttlOf a options.ttlSeconds existing.request.requestedTtlSeconds) with
  | error e => exact Ends.stop hs.sound e
  | ok expiresAt =>
  simp only [randomUUID, Program.wp_throwIf, Program.wp_reads, Program.then_ok]
  refine ⟨fun _ => Ends.stop hs.sound _,fun _ => ?_⟩
  generalize hintent : (PendingLeaseMutation.mk _ _ _ _) = intent
  have hrenewed : Renewed c s.journal intent existing := by
    rw [← hintent]
    exact ⟨rfl,rfl,hreclaimed,rfl,hcurrent,hactive,hidle,⟨_,_,_,_,_,rfl⟩⟩
  refine (publishMutation_spec a hs (by omega) (.of_none (by rw [← hintent])) fun _ => LeaseMove.renew intent existing hrenewed).mono (fun _ _ ht => ht) ?_
  rintro (e | u) t ht
  · exact Ends.stop ht.1 e
  · rw [Program.then_ok, Program.wp_pure, ends_ok]
    exact ⟨ht.1,trivial⟩

theorem releaseLease_spec (hx : x.surroundings = a) {lease : WorktreeLease} {now : Instant}
    (hop : x.operation = .release lease now) (h : s.ledger.Sound (.core c.toLedgerFormat)) (hk : s.drawn = k) :
    Program.Wp (Traces c x fresh k) (releaseLease c a lease now) (Ends c fun _ _ => True) s := by
  rw [releaseLease, Program.wp_bind, Program.wp_throwIf]
  refine ⟨fun _ => Ends.stop h _,fun _ => ?_⟩
  refine withMutation_spec a (I := fun _ => True) (fun _ _ _ _ => trivial) trivial hx (by simp [hop]) h hk
    (fun s hs hreclaimed hdrawn _ => ?_)
  simp only [memory, Program.wp_bind, Program.wp_reads, Program.then_ok]
  rw [hs.memory]
  cases hrecord : s.stored.records.get? lease.id with
  | none =>
    rw [Program.wp_pure]
    exact ends_ok.mpr ⟨hs.sound,trivial⟩
  | some record =>
  have hid := hs.keyed.records _ _ hrecord
  dsimp only
  rw [Program.wp_bind, Program.wp_ofExcept]
  cases assertOwner record.lease lease with
  | error e => exact Ends.stop hs.sound e
  | ok _ =>
  rw [Program.then_ok]
  split
  · rw [Program.wp_pure]
    exact ends_ok.mpr ⟨hs.sound,trivial⟩
  next hactive =>
  have hactive : record.status = .active := by
    cases hstatus : record.status with
    | active => rfl
    | released => exact absurd hstatus hactive
  simp only [randomUUID, Program.wp_bind, Program.wp_throwIf, Program.wp_reads, Program.then_ok, Program.wp_ofExcept]
  refine ⟨fun _ => Ends.stop hs.sound _,fun hidle => ?_⟩
  have hidle : s.stored.pending.get? lease.id = none := by simpa using hidle
  cases hintent : releaseIntent record now .release .holderRelease (c.randomUUID (s.drawn + 0)) with
  | error e => exact Ends.stop hs.sound e
  | ok intent =>
  obtain rfl := releaseIntent_ok hintent
  rw [Program.then_ok]
  refine (publishMutation_spec a hs (by omega) (.of_none rfl) fun _ => LeaseMove.release _ record {
    operation := Or.inl ⟨rfl,rfl⟩
    reclaimed := hreclaimed
    recordId := rfl
    active := hactive
    lease := by simp [hop]
    current := ⟨record,hid ▸ hrecord,rfl,Or.inl rfl⟩
    unpublished := fun _ p hp => ?_
    record := ⟨now,by simp [hop, LeaseOperation.times],.holderRelease,by simp [hop, LeaseOperation.causes],hintent⟩ }).mono (fun _ _ ht => ht)
      (fun y t ht => ⟨ht.1,fun _ _ => trivial⟩)
  have hp : s.stored.pending.get? record.lease.id = some p := hp
  rw [hid, hidle] at hp
  cases hp

end Operations

section Cleanup

/-- Between two calls of a cleanup's controls: the lease's record is the one before the
callback or a release of it, and an intent that waits for it is not published. -/
structure Cleaning (c : LeaseFormat) (fresh : Prop) (k : ℕ) (record : StoredLeaseRecord) (s : LeaseManagerState P) : Prop where
  synced : Synced c s
  reclaimed : s.stored.reclamation = none
  current : ∃ q, s.stored.records.get? record.lease.id = some q ∧ q.request = record.request ∧
    (q = record ∨ q.status = .released)
  release : ∀ p, s.stored.pending.get? record.lease.id = some p → p.operation ≠ .acquire ∧
    p.record.request = record.request ∧ p.record.status = .released
  unpublished : fresh → ∀ p, s.stored.pending.get? record.lease.id = some p → s.journal.Unused p.recordId
  fresh : fresh → s.journal.Fresh c
  drawn : k ≤ s.drawn
  staged : ∀ p, s.stored.pending.get? record.lease.id = some p → k < s.drawn
  own : ∀ p, s.stored.pending.get? record.lease.id = some p → ∃ n, k ≤ n ∧ p.recordId = c.randomUUID n

variable {a} {record : StoredLeaseRecord}

theorem Cleaning.releasing {lease : WorktreeLease} {callback : List CleanupControl}
    (h : Cleaning c fresh k record s) (hactive : record.status = .active)
    (hlease : record.lease.id = lease.id ∧ record.lease.path = lease.path)
    (hop : x.operation = .withCleanup lease callback) {control : CleanupControl} (hcontrol : control ∈ callback)
    {now : Instant} (hnow : control.time = some now) {operation : MutationOperation} {cause : ReleaseCause}
    (hcause : control.cause = some cause)
    {intent : PendingLeaseMutation} (hintent : releaseIntent record now operation cause (c.randomUUID (s.drawn + 0)) = .ok intent)
    {removal : Option LeaseRemoval}
    (hoperation : operation = .release ∧ removal = none ∨ operation = .remove ∧ ∃ identity now,
      removal = some ⟨identity,.prepared⟩ ∧ .stageRemoval identity now ∈ x.operation.callback) :
    Releasing c x fresh s.journal { intent with removal } record := by
  obtain rfl := releaseIntent_ok hintent
  have htime : now ∈ x.operation.times := by
    rw [hop]
    exact List.mem_filterMap.mpr ⟨control,hcontrol,hnow⟩
  have hcauses : cause ∈ x.operation.causes := by
    rw [hop]
    exact List.mem_filterMap.mpr ⟨control,hcontrol,hcause⟩
  have hleased : ∀ l cb, x.operation = .withCleanup l cb → record.lease.id = l.id ∧ record.lease.path = l.path := by
    intro l cb hl
    rw [hop] at hl
    cases hl
    exact hlease
  exact ⟨hoperation,h.reclaimed,rfl,hactive,hleased,h.current,h.unpublished,⟨now,htime,cause,hcauses,hintent⟩⟩

/-- Another intent for the lease in the registry, not published either. -/
theorem Cleaning.put (h : Cleaning c fresh k record s) {t : LeaseManagerState P} {intent : PendingLeaseMutation}
    (hsound : t.ledger.Sound (.core c.toLedgerFormat)) (hmemory : t.memory = t.stored)
    (hstored : t.stored = s.stored.putPending intent) (hid : intent.record.lease.id = record.lease.id)
    (hrelease : intent.operation ≠ .acquire ∧ intent.record.request = record.request ∧
      intent.record.status = .released)
    (hrows : t.journal.rows = s.journal.rows) (hunused : fresh → s.journal.Unused intent.recordId)
    (hfresh : fresh → t.journal.Fresh c) (hdrawn : k < t.drawn)
    (hown : ∃ n, k ≤ n ∧ intent.recordId = c.randomUUID n) : Cleaning c fresh k record t := by
  have hnew : ∀ p, t.stored.pending.get? record.lease.id = some p → intent = p := by
    intro p hp
    rw [hstored, ← hid] at hp
    exact Option.some.inj ((Dictionary.get?_set_self _ _ _).symm.trans hp)
  exact {
    synced := ⟨hsound,hmemory,hstored ▸ h.synced.keyed.putPending intent⟩
    reclaimed := by
      rw [hstored]
      exact h.reclaimed
    current := by
      rw [hstored]
      exact h.current
    release := fun p hp => hnew p hp ▸ hrelease
    unpublished := fun hf p hp r hr => by
      rw [← hnew p hp]
      exact hunused hf r (hrows ▸ hr)
    fresh := hfresh
    drawn := hdrawn.le
    staged := fun _ _ => hdrawn
    own := fun p hp => hnew p hp ▸ hown }

variable [DecidableEq P]

theorem cleanupControl_spec {lease : WorktreeLease} {callback : List CleanupControl}
    (hop : x.operation = .withCleanup lease callback) (hactive : record.status = .active)
    (hlease : record.lease.id = lease.id ∧ record.lease.path = lease.path)
    (h : Cleaning c fresh k record s) {control : CleanupControl} (hcontrol : control ∈ callback) :
    Program.Wp (Traces c x fresh k) (cleanupControl c a record control) (Ends c fun _ t => Cleaning c fresh k record t) s := by
  have hs := h.synced
  cases control with
  | validatePath =>
    rw [cleanupControl]
    split
    · rw [Program.wp_throw]
      exact ends_error.mpr hs.sound
    · rw [Program.wp_ofExcept]
      refine ⟨hs.sound,fun _ _ => h⟩
  | ledgerEvidence =>
    rw [cleanupControl, Program.wp_bind]
    refine listRecords_wp hs.sound (fun rows _ => ?_) (fun e => Ends.stop hs.sound _)
    rw [Program.then_ok, Program.wp_pure]
    exact ends_ok.mpr ⟨hs.sound,h⟩
  | stageRemoval identity now =>
    simp only [cleanupControl, randomUUID, memory, putMemory, writeRegistry, Program.wp_bind, Program.wp_reads,
      Program.wp_write, Program.wp_throwIf, Program.then_ok, Program.wp_ofExcept]
    cases hintent : releaseIntent record now .remove .reconciliation (c.randomUUID (s.drawn + 0)) with
    | error e => exact Ends.stop hs.sound e
    | ok intent =>
    have hstages : .stageRemoval identity now ∈ x.operation.callback := by
      rw [hop]
      exact hcontrol
    have hreleasing := h.releasing hactive hlease hop hcontrol rfl rfl hintent (Or.inr ⟨rfl,identity,now,rfl,hstages⟩)
    obtain rfl := releaseIntent_ok hintent
    rw [Program.then_ok, hs.memory]
    refine ⟨Traces.quiet hs.sound rfl,fun _ => ends_error.mpr hs.sound,fun _ =>
      ⟨⟨hs.sound,LeaseMove.release _ record hreleasing⟩,ends_ok.mpr ⟨hs.sound,?_⟩⟩⟩
    exact h.put hs.sound rfl rfl rfl ⟨by simp,rfl,rfl⟩ rfl (fun hf => (h.fresh hf).rows s.drawn (Nat.le_refl _))
      (fun hf => (h.fresh hf).stage (m := 0) (by omega) rfl) (Nat.lt_succ_of_le h.drawn)
      ⟨s.drawn + 0,h.drawn,rfl⟩
  | markRemovalDone =>
    simp only [cleanupControl, memory, putMemory, writeRegistry, Program.wp_bind, Program.wp_reads, Program.then_ok]
    rw [hs.memory]
    cases hpending : s.stored.pending.get? record.lease.id with
    | none =>
      simp only [Option.bind_none, Program.wp_throw]
      exact ends_error.mpr hs.sound
    | some intent =>
    have hid := hs.keyed.pending _ _ hpending
    cases hremoval : intent.removal with
    | none =>
      simp only [Option.bind_some, hremoval, Option.map_none, Program.wp_throw]
      exact ends_error.mpr hs.sound
    | some removal =>
    simp only [Option.bind_some, hremoval, Option.map_some, Program.wp_bind, Program.wp_write, Program.wp_reads,
      Program.wp_throwIf, Program.then_ok]
    have hwaits : s.journal.Waits intent := by
      rw [LeaseJournal.Waits, hid]
      exact hpending
    have hmove : LeaseMove c x fresh k s.journal _ :=
      LeaseMove.mark intent removal hwaits hremoval (by rw [hop]; exact hcontrol)
    refine ⟨Traces.quiet hs.sound rfl,fun _ => ends_error.mpr hs.sound,fun _ =>
      ⟨⟨hs.sound,hmove⟩,ends_ok.mpr ⟨hs.sound,?_⟩⟩⟩
    exact h.put hs.sound rfl rfl hid (h.release intent hpending) rfl (fun hf => h.unpublished hf intent hpending)
      (fun hf => hmove.fresh (by simp [LeaseAction.Foreign, hop, LeaseOperation.foreign]) (h.fresh hf))
      (h.staged intent hpending) (h.own intent hpending)
  | release now cause =>
    have hforeign : LeaseAction.Foreign c x := by simp [LeaseAction.Foreign, hop, LeaseOperation.foreign]
    have hend : ∀ (intent : PendingLeaseMutation) (draws : ℕ), intent.record.lease.id = record.lease.id →
        intent.record.request = record.request → intent.record.status = .released → k < s.drawn + draws →
        (∃ n, k ≤ n ∧ intent.recordId = c.randomUUID n) →
        (intent.allowed = true → LeaseMove c x fresh k s.journal (s.journal.stage intent draws)) →
        Program.Wp (Traces c x fresh k) (publishMutation c a intent draws)
          (Ends c fun _ t => Cleaning c fresh k record t) s := by
      intro intent draws hid hrequest hstatus hdraws hown hmove
      obtain ⟨n,hn,hrecordId⟩ := hown
      refine ((publishMutation_spec a hs hdraws.ne' (.of_own hn hrecordId) hmove).with_invariant
        (I := fun t => (fresh → t.journal.Fresh c) ∧ t.stored.reclamation = none ∧ k ≤ t.drawn)
        (fun t u hu ht => ⟨fun hf => hu.2.fresh hforeign (ht.1 hf),hu.2.reclaimed (by simp [hop]) ht.2.1,
          Nat.le_trans ht.2.2 hu.2.drawn⟩)
        ⟨h.fresh,h.reclaimed,h.drawn⟩).mono (fun _ _ ht => ht.1) ?_
      rintro y t ⟨⟨ht,hok⟩,hfresh,hreclaimed,hdrawn⟩
      refine ⟨ht,fun v hv => ?_⟩
      obtain ⟨hsynced,hnone,hrecord,-⟩ := hok v hv
      rw [hid] at hnone hrecord
      have hcleared : ∀ p, t.stored.pending.get? record.lease.id ≠ some p := fun p hp => by simp [hnone] at hp
      exact ⟨hsynced,hreclaimed,⟨intent.record,hrecord,hrequest,Or.inr hstatus⟩,fun p hp => absurd hp (hcleared p),
        fun _ p hp => absurd hp (hcleared p),hfresh,hdrawn,fun p hp => absurd hp (hcleared p),
        fun p hp => absurd hp (hcleared p)⟩
    simp only [cleanupControl, memory, Program.wp_bind, Program.wp_reads, Program.then_ok]
    rw [hs.memory]
    cases hpending : s.stored.pending.get? record.lease.id with
    | some intent =>
      have hid := hs.keyed.pending _ _ hpending
      obtain ⟨hacquire,hrequest,hstatus⟩ := h.release intent hpending
      refine hend intent 0 hid hrequest hstatus (h.staged intent hpending) (h.own intent hpending) (fun _ => ?_)
      have hsame : s.stored.putPending intent = s.stored := by
        rw [WorktreeLeaseRegistry.putPending, Dictionary.set_of_get? _ (hid.symm ▸ hpending)]
      have hquiet : s.journal.stage intent 0 = s.journal := by
        simp only [LeaseJournal.stage, if_neg hacquire, if_pos]
        change { s.journal with registry := s.stored.putPending intent } = s.journal
        rw [hsame]
        rfl
      rw [hquiet]
      exact LeaseMove.quiet
    | none =>
      simp only [randomUUID, Program.wp_bind, Program.wp_reads, Program.then_ok, Program.wp_ofExcept]
      cases hintent : releaseIntent record now .release (cause.getD .reconciliation) (c.randomUUID (s.drawn + 0)) with
      | error e => exact Ends.stop hs.sound e
      | ok intent =>
      have hreleasing := h.releasing hactive hlease hop hcontrol rfl rfl hintent (Or.inl ⟨rfl,rfl⟩)
      obtain rfl := releaseIntent_ok hintent
      rw [Program.then_ok]
      exact hend _ 1 rfl rfl rfl (Nat.lt_succ_of_le h.drawn) ⟨s.drawn + 0,h.drawn,rfl⟩ (fun _ => LeaseMove.release _ record hreleasing)

theorem withCleanup_spec (ha : x.surroundings = a) {lease : WorktreeLease} {callback : List CleanupControl}
    (hop : x.operation = .withCleanup lease callback) (h : s.ledger.Sound (.core c.toLedgerFormat)) (hk : s.drawn = k)
    (hfresh : fresh → s.journal.Fresh c) :
    Program.Wp (Traces c x fresh k) (withCleanup c a lease callback) (Ends c fun _ _ => True) s := by
  have hforeign : LeaseAction.Foreign c x := by simp [LeaseAction.Foreign, hop, LeaseOperation.foreign]
  rw [withCleanup, Program.wp_bind, Program.wp_throwIf]
  refine ⟨fun _ => Ends.stop h _,fun _ => ?_⟩
  refine withMutation_spec a (I := fun t => fresh → t.journal.Fresh c)
    (fun t u hu ht hf => hu.2.fresh hforeign (ht hf)) hfresh ha (by simp [hop]) h hk
    (fun s hs hreclaimed hdrawn hfresh => ?_)
  simp only [memory, Program.wp_bind, Program.wp_reads, Program.then_ok, Program.wp_ofExcept]
  rw [hs.memory]
  cases howner : requireOwner s.stored lease with
  | error e => exact Ends.stop hs.sound e
  | ok record =>
  obtain ⟨hcurrent,hactive,hidle⟩ := requireOwner_ok howner
  have hid := hs.keyed.records _ _ hcurrent
  have hlease : record.lease.id = lease.id ∧ record.lease.path = lease.path := ⟨hid,requireOwner_path howner⟩
  rw [← hid] at hcurrent hidle
  have hcleared : ∀ p, s.stored.pending.get? record.lease.id ≠ some p := fun p hp => by simp [hidle] at hp
  rw [Program.then_ok]
  refine Program.Wp.forEach (K := fun l t => l ⊆ callback ∧ Cleaning c fresh k record t)
    (fun t ht => ends_ok.mpr ⟨ht.2.synced.sound,trivial⟩) ?_ ⟨List.Subset.refl _,hs,hreclaimed,⟨record,hcurrent,rfl,Or.inl rfl⟩,
      fun p hp => absurd hp (hcleared p),fun _ p hp => absurd hp (hcleared p),hfresh,hdrawn.ge,
      fun p hp => absurd hp (hcleared p),fun p hp => absurd hp (hcleared p)⟩
  rintro control l t ⟨hl,ht⟩
  obtain ⟨hcontrol,hl⟩ := List.cons_subset.mp hl
  refine (cleanupControl_spec hop hactive hlease ht hcontrol).mono (fun _ _ hu => hu) ?_
  rintro (e | v) u hu
  · exact Ends.stop hu.1 e
  · exact ⟨hl,hu.2 v rfl⟩

end Cleanup

section Retention

/-- The rows of other writers that a state has more than this list. -/
def Appended (x : LeaseAction P) (rows : List StateLedgerEntry) (rs : List StateLedgerEntry) : Prop :=
  ∃ extra, rs = rows ++ extra ∧ ∀ r ∈ extra, ∃ f ∈ x.operation.foreign, f.input.payload.Respelled r.payload ∧ r.recordId = f.recordId

theorem Appended.trans {rows rs qs : List StateLedgerEntry} (h : Appended x rows rs) (hq : Appended x rs qs) :
    Appended x rows qs := by
  obtain ⟨extra,rfl,hextra⟩ := h
  obtain ⟨extra',rfl,hextra'⟩ := hq
  refine ⟨extra ++ extra',List.append_assoc _ _ _,fun r hr => ?_⟩
  rcases List.mem_append.mp hr with hr | hr
  · exact hextra r hr
  · exact hextra' r hr

/-- The ledger alone has changed, by rows of other writers. -/
def OnlyAppended (c : LeaseFormat) (x : LeaseAction P) (s t : LeaseManagerState P) : Prop :=
  ∃ l, t = s.putStore l ∧ l.Sound (.core c.toLedgerFormat) ∧ Appended x s.journal.rows (l.readable.map StateLedgerEntry.core)

/-- What a compaction keeps of the rows of leases and by the policy is told by the cores. -/
theorem kept_core {rows read : List StateLedgerEntry} (h : read.map StateLedgerEntry.core = rows)
    (registry : WorktreeLeaseRegistry) (policy : RetentionPolicy) (now : ℤ) (ids : List String) :
    (read.filter fun r => decide (r.sequence ∈ retentionSelection read registry policy now) ||
      r.kind == .worktreeLease && !ids.contains r.recordId).map StateLedgerEntry.core =
    rows.filter fun r => decide (r.sequence ∈ retentionSelection rows registry policy now) ||
      r.kind == .worktreeLease && !ids.contains r.recordId := by
  subst h
  rw [retentionSelection_core]
  exact (filter_core read fun r => by
    simp only [core_kind, StateLedgerEntry.core_sequence, StateLedgerEntry.core_recordId]
    rfl).symm

/-- The compaction of the ledger after a proposal that is in the registry. -/
theorem compact_moves {t : LeaseManagerState P} (ht : t.ledger.Sound (.core c.toLedgerFormat)) {policy : RetentionPolicy} {now : ℤ}
    {interleaved : List (ForeignRecord × Option ℕ)} (hop : x.operation = .retainHistory policy now interleaved)
    {intent : LeaseReclamationIntent} (hstored : t.stored = { s.stored with reclamation := some intent })
    {snapshot extra : List StateLedgerEntry} (hread : t.journal.rows = snapshot ++ extra)
    (hextra : ∀ r ∈ extra, ∃ f ∈ x.operation.foreign, f.input.payload.Respelled r.payload ∧ r.recordId = f.recordId)
    (hintent : intent = reclamationIntent snapshot s.stored (retentionSelection snapshot s.stored policy now)) :
    ∀ l m, AppendOnlyStore.Steps (.core c.toLedgerFormat) (AppendOnlyStore.Keeps c.toLedgerFormat (fun record current =>
      decide (record.sequence ∈ retentionSelection current s.stored policy now) ||
        record.kind == .worktreeLease && !intent.recordIds.contains record.recordId) t.ledger.readable) l m →
      Traces c x fresh k (t.putStore l) (t.putStore m) := by
  rintro l m ⟨hm,hsame | ⟨hl,hcompacts⟩⟩
  · refine Traces.quiet hm ?_
    have hsame : m.readable = l.readable := hsame
    simp only [LeaseManagerState.journal, LeaseManagerState.putStore, LeaseManagerState.stored, hsame]
  · refine ⟨hm,?_⟩
    have hbefore : (t.putStore l).journal = t.journal := by
      rw [LeaseManagerState.journal_putStore (hl ▸ List.Subset.refl _), hl]
      rfl
    obtain ⟨read,hcore,hkept⟩ := hcompacts.cores ht.wellFormed
    have hregistry : t.journal.registry = { s.stored with reclamation := some intent } := hstored
    have hrows : m.readable.map StateLedgerEntry.core = t.journal.rows.filter (fun r =>
        decide (r.sequence ∈ retentionSelection t.journal.rows t.journal.registry policy now) ||
          r.kind == .worktreeLease && !intent.recordIds.contains r.recordId) := by
      rw [hkept, kept_core hcore, hregistry]
      rfl
    have hafter : (t.putStore m).journal = t.journal.compact (fun r =>
        decide (r.sequence ∈ retentionSelection t.journal.rows t.journal.registry policy now) ||
          r.kind == .worktreeLease && !intent.recordIds.contains r.recordId) (t.putStore m).pruned := by
      rw [LeaseJournal.compact, ← hrows]
      rfl
    rw [hbefore, hafter]
    refine LeaseMove.compact policy now interleaved intent snapshot extra _ hop ?_ ?_ hread hextra
      (List.subset_append_left _ _) (fun r hr hdropped => ?_)
    · change t.stored.reclamation = _
      rw [hstored]
    · change intent = reclamationIntent snapshot t.stored _
      rw [show t.journal.registry = t.stored from rfl, hstored]
      exact hintent
    · -- a row of the same id that stays would be this one
      obtain ⟨q,hq,rfl⟩ := List.mem_map.mp hr
      refine List.mem_append_right _ (List.mem_filter.mpr ⟨List.mem_map.mpr ⟨q,hq,rfl⟩,?_⟩)
      rw [decide_eq_true_eq]
      intro hmem
      obtain ⟨p,hp,hid⟩ := List.mem_map.mp hmem
      obtain ⟨hrow,hstays⟩ := List.mem_filter.mp (hrows ▸ List.mem_map_of_mem hp)
      obtain ⟨p',hp',hsame⟩ := List.mem_map.mp hrow
      have hid' : p'.recordId = q.recordId := (congrArg (·.recordId) hsame).trans hid
      rw [List.inj_on_of_nodup_map ht.wellFormed.ids hp' hq hid'] at hsame
      rw [← hsame, hdropped] at hstays
      cases hstays

variable [DecidableEq P]

theorem appendForeign_spec (h : s.ledger.Sound (.core c.toLedgerFormat)) (p : P) {f : ForeignRecord}
    (hf : f ∈ x.operation.foreign) :
    Program.Wp (fun t u => Traces c x fresh k t u ∧ OnlyAppended c x s u) (appendForeign c a p f)
      (fun _ t => OnlyAppended c x s t) s := by
  have hspec := AppendOnlyStore.appendRecord_spec h p (RecordView.core_takes f.input.payload) a.clock f.generatedId a.torn
    (o := ledgerOptions a)
  have hgrows : ∀ l m : AppendOnlyStore.State P, AppendOnlyStore.Steps (.core c.toLedgerFormat)
      (AppendOnlyStore.Adds f.input.payload f.recordId) l m →
      Appended x (l.readable.map StateLedgerEntry.core) (m.readable.map StateLedgerEntry.core) := by
    rintro l m ⟨-,hsame | ⟨r,hpayload,hid,hr⟩⟩
    · exact ⟨[],by rw [hsame, List.append_nil],fun r hr => by cases hr⟩
    · refine ⟨[r.core],by rw [hr, List.map_append]; rfl,fun q hq => ⟨f,hf,?_⟩⟩
      rw [List.mem_singleton.mp hq]
      exact ⟨hpayload.core,hid⟩
  have hkept := hspec.with_invariant (I := fun l => l.Sound (.core c.toLedgerFormat) ∧
      Appended x s.journal.rows (l.readable.map StateLedgerEntry.core))
    (fun l m hm hl => ⟨hm.1,hl.2.trans (hgrows l m hm)⟩) ⟨h,[],(List.append_nil _).symm,fun r hr => by cases hr⟩
  have hsub : ∀ l : AppendOnlyStore.State P, Appended x s.journal.rows (l.readable.map StateLedgerEntry.core) →
      s.journal.rows ⊆ l.readable.map StateLedgerEntry.core := by
    rintro l ⟨extra,hl,-⟩
    exact hl ▸ List.subset_append_left _ _
  rw [appendForeign, Program.wp_bind]
  refine Program.wp_zoom s.putStore_self hkept ?_ ?_
  · rintro l m ⟨hm,hl,happended⟩
    have happended' := happended.trans (hgrows l m hm)
    refine ⟨⟨hm.1,?_⟩,m,rfl,hm.1,happended'⟩
    rw [LeaseManagerState.journal_putStore (hsub l happended), LeaseManagerState.journal_putStore (hsub m happended')]
    obtain ⟨hsound,hsame | ⟨r,hpayload,hid,hr⟩⟩ := hm
    · rw [hsame]
      exact LeaseMove.quiet
    · have hunused := (hr ▸ hsound.wellFormed).of_append.2.2.2
      rw [hr, List.map_append]
      refine LeaseMove.foreign f r.core hf (fun q hq hqr => hunused ?_) hpayload.core hid
      obtain ⟨p,hp,rfl⟩ := List.mem_map.mp hq
      have hid : p.recordId = r.recordId := hqr
      exact hid ▸ List.mem_map_of_mem hp
  · rintro (e | r) l ⟨-,hl,happended⟩
    · exact ⟨l,rfl,hl,happended⟩
    · rw [Except.mapError, Program.then_ok, Program.wp_pure]
      exact ⟨l,rfl,hl,happended⟩

theorem appendInterleaved_spec (h : s.ledger.Sound (.core c.toLedgerFormat)) {entry : ForeignRecord × Option ℕ}
    (hf : entry.1 ∈ x.operation.foreign) :
    Program.Wp (Traces c x fresh k) (appendInterleaved c a entry)
      (fun y t => y = .ok PUnit.unit ∧ OnlyAppended c x s t) s := by
  have hself : OnlyAppended c x s s :=
    ⟨s.ledger,s.putStore_self.symm,h,[],(List.append_nil _).symm,fun r hr => by cases hr⟩
  rw [appendInterleaved, Program.wp_tryCatch]
  have hcut := (appendForeign_spec (k := k) a h a.otherWriter hf).cut entry.2 (.filesystem .other)
    (I := OnlyAppended c x s) (T := fun _ t => OnlyAppended c x s t)
    (fun t u (hu : Traces c x fresh k t u ∧ OnlyAppended c x s u) _ => hu.2) hself
    (fun _ _ ht => ht) (fun _ ht => ht)
  refine hcut.mono (fun _ _ ht => ht.1) ?_
  rintro (e | v) t ht
  · rw [Program.caught_error, Program.wp_pure]
    exact ⟨rfl,ht⟩
  · exact ⟨rfl,ht⟩

theorem retainHistory_spec (ha : x.surroundings = a) {policy : RetentionPolicy} {now : ℤ}
    {interleaved : List (ForeignRecord × Option ℕ)} (hop : x.operation = .retainHistory policy now interleaved)
    (h : s.ledger.Sound (.core c.toLedgerFormat)) (hk : s.drawn = k) :
    Program.Wp (Traces c x fresh k) (retainHistory c a policy now interleaved) (Ends c fun _ _ => True) s := by
  have hI : ∀ t u, Traces c x fresh k t u → True → True := fun _ _ _ _ => trivial
  rw [retainHistory, withLeaseLock, Program.wp_bind, Program.wp_throwIf]
  refine ⟨fun _ => Ends.stop h _,fun _ => ?_⟩
  refine ends_bind hI trivial (getLedger_spec a h) (fun _ t _ hopened => ?_)
  obtain ⟨ht,hledger⟩ := hopened
  refine ends_bind hI trivial (readRegistry_spec ht) (fun _ t _ hloaded => ?_)
  obtain ⟨hsynced,hread⟩ := hloaded
  refine ends_bind hI trivial (ensureManagedStore_spec hsynced) (fun _ t _ hmanaged => ?_)
  obtain ⟨hsynced,hstore⟩ := hmanaged
  refine ends_bind hI trivial (finishReclamation_spec a hsynced) (fun _ s _ hended => ?_)
  obtain ⟨hs,_,hfinished⟩ := hended
  have hdrawn : s.drawn = k := hfinished.trans (hstore.trans (hread.trans (hledger.trans hk)))
  rw [Program.wp_bind]
  refine listRecords_wp hs.sound (fun rows hrows => ?_) (fun e => Ends.stop hs.sound _)
  simp only [memory, putMemory, writeRegistry, Program.wp_bind, Program.wp_reads, Program.wp_write, Program.wp_throwIf,
    Program.then_ok, Program.then_error, ends_error]
  rw [hs.memory, ← reclamationIntent_core, ← retentionSelection_core, hrows]
  refine ⟨Traces.quiet hs.sound rfl,fun _ => hs.sound,fun _ =>
    ⟨⟨hs.sound,LeaseMove.propose policy now interleaved hop⟩,?_⟩⟩
  generalize hu : LeaseManagerState.putRegistry _ = u
  have hdrawn : u.drawn = k := by
    rw [← hu]
    exact hdrawn
  have hu₁ : Synced c u := by
    rw [← hu]
    exact ⟨hs.sound,rfl,hs.keyed.records,hs.keyed.pending⟩
  have hforeign : x.operation.foreign = interleaved.map Prod.fst := by rw [hop, LeaseOperation.foreign]
  refine (Program.Wp.forEach (K := fun l t => l ⊆ interleaved ∧ Synced c t ∧ Still u t ∧
    Appended x u.journal.rows t.journal.rows) (fun t ht => ?_) ?_ ⟨List.Subset.refl _,hu₁,⟨rfl,rfl⟩,[],
      (List.append_nil _).symm,fun r hr => by cases hr⟩)
  · obtain ⟨-,hsynced,hstill,extra,hread,hextra⟩ := ht
    rw [Program.then_ok]
    generalize hintent : reclamationIntent s.journal.rows s.stored
      (retentionSelection s.journal.rows s.stored policy now) = intent at hu
    have hstored : t.stored = { s.stored with reclamation := some intent } := by
      rw [hstill.stored, ← hu]
      rfl
    have hread : t.journal.rows = s.journal.rows ++ extra := by rw [hread, ← hu]; rfl
    refine Program.wp_zoom t.putStore_self
      (AppendOnlyStore.compactRecords_spec hsynced.sound a.process _ a.clock) (compact_moves hsynced.sound hop hstored hread hextra
        hintent.symm) ?_
    rintro (e | r) l ⟨hl,-⟩
    · exact Ends.stop hl _
    · rw [Except.mapError, Program.then_ok]
      have hsynced : Synced c (t.putStore l) := ⟨hl,hsynced.memory,hsynced.keyed⟩
      refine (finishReclamation_spec a hsynced).mono (fun _ _ ht => ht) ?_
      rintro (e | v) t ht
      · exact Ends.stop ht.1 _
      · obtain ⟨hsynced,-,hfinished⟩ := ht.2 v rfl
        have hdrawn : t.drawn = k := hfinished.trans (hstill.drawn.trans hdrawn)
        exact (replayPending_spec a ha hsynced hdrawn).mono (fun _ _ ht => ht) (fun y t ht => ⟨ht.1,fun _ _ => trivial⟩)
  · rintro entry l t ⟨hl,ht,hstill,happended⟩
    obtain ⟨hentry,hl⟩ := List.cons_subset.mp hl
    refine (appendInterleaved_spec a ht.sound (hforeign ▸ List.mem_map_of_mem hentry)).mono (fun _ _ hu => hu) ?_
    rintro y v ⟨rfl,l',rfl,hl',happended'⟩
    rw [Program.then_ok]
    exact ⟨hl,⟨hl',ht.memory,ht.keyed⟩,⟨hstill.stored,hstill.drawn⟩,happended.trans happended'⟩

end Retention

section Runs

/-- A lease that an operation acquired was granted. -/
def Grants (x : LeaseAction P) (r : LeaseResult) (t : LeaseManagerState P) : Prop :=
  ∀ request options acquisition, x.operation = .acquire request options → r = .acquisition acquisition →
    acquisition.acquired = true → ∃ g ∈ t.grants, g.intent.record.request = request ∧
      g.intent.record.branchHead = options.branchHead ∧ acquisition.lease = some g.intent.record.lease

theorem returns_spec {α : Type} {p : LeaseProgram P α} {K : α → LeaseManagerState P → Prop} {f : α → LeaseResult}
    (hop : ∀ request options, x.operation ≠ .acquire request options)
    (hp : Program.Wp (Traces c x fresh k) p (Ends c K) s) :
    Program.Wp (Traces c x fresh k) (p >>= fun v => pure (f v)) (Ends c (Grants x)) s := by
  rw [Program.wp_bind]
  refine hp.mono (fun _ _ ht => ht) ?_
  rintro (e | v) t ht
  · exact Ends.stop ht.1 e
  · rw [Program.then_ok, Program.wp_pure, ends_ok]
    exact ⟨ht.1,fun request options _ hacquire => absurd hacquire (hop request options)⟩

variable [DecidableEq P]

/-- Every operation, to its end, makes moves of the journal only. -/
theorem program_spec (h : s.ledger.Sound (.core c.toLedgerFormat)) (hfresh : fresh → s.journal.Fresh c) :
    Program.Wp (Traces c x fresh s.drawn) (x.program c) (Ends c (Grants x)) s := by
  cases hop : x.operation with
  | acquire request options =>
    simp only [LeaseAction.program, hop, Program.wp_bind]
    refine (acquireLease_spec x.surroundings rfl (by simp [hop]) h rfl request options).mono (fun _ _ ht => ht) ?_
    rintro (e | r) t ht
    · exact Ends.stop ht.1 e
    · rw [Program.then_ok, Program.wp_pure, ends_ok]
      refine ⟨ht.1,fun request' options' acquisition hacquire hr hacquired => ?_⟩
      rw [hop] at hacquire
      cases hacquire
      cases hr
      exact ht.2 r rfl hacquired
  | renew lease options =>
    simp only [LeaseAction.program, hop]
    exact returns_spec (by simp [hop]) (renewLease_spec x.surroundings rfl (by simp [hop]) h rfl lease options)
  | release lease now =>
    simp only [LeaseAction.program, hop]
    exact returns_spec (by simp [hop]) (releaseLease_spec x.surroundings rfl hop h rfl)
  | withCleanup lease callback =>
    simp only [LeaseAction.program, hop]
    exact returns_spec (by simp [hop]) (withCleanup_spec rfl hop h rfl hfresh)
  | retainHistory policy now interleaved =>
    simp only [LeaseAction.program, hop]
    exact returns_spec (by simp [hop]) (retainHistory_spec x.surroundings rfl hop h rfl)
  | reconcile =>
    simp only [LeaseAction.program, hop]
    refine returns_spec (K := fun _ _ => True) (by simp [hop]) ?_
    refine withMutation_spec x.surroundings (I := fun _ => True) (fun _ _ _ _ => trivial) trivial rfl
      (by simp [hop]) h rfl (fun t ht _ _ _ => ?_)
    rw [Program.wp_pure]
    exact ends_ok.mpr ⟨ht.sound,trivial⟩
  | append f =>
    simp only [LeaseAction.program, hop]
    refine returns_spec (K := fun _ _ => True) (by simp [hop]) ?_
    have hf : f ∈ x.operation.foreign := by simp [hop, LeaseOperation.foreign]
    refine (appendForeign_spec x.surroundings h x.surroundings.process hf).mono (fun _ _ ht => ht.1) ?_
    rintro y t ⟨l,rfl,hl,-⟩
    exact ⟨hl,fun _ _ => trivial⟩

/-- What every move keeps, every step keeps, wherever it is cut short. -/
theorem step_invariant {t : LeaseManagerState P} {I : LeaseJournal → Prop}
    (hI : ∀ j j', LeaseMove c x fresh s.drawn j j' → I j → I j') (h : s.ledger.Sound (.core c.toLedgerFormat))
    (hfresh : fresh → s.journal.Fresh c) (hs : I s.journal) (hstep : step c s x = some t) :
    t.ledger.Sound (.core c.toLedgerFormat) ∧ I t.journal := by
  have hspec := program_spec (x := x) h hfresh
  have hinv : ∀ u v, Traces c x fresh s.drawn u v → u.ledger.Sound (.core c.toLedgerFormat) ∧ I u.journal →
      v.ledger.Sound (.core c.toLedgerFormat) ∧ I v.journal := fun u v huv hu => ⟨huv.1,hI _ _ huv.2 hu.2⟩
  unfold step at hstep
  split at hstep
  · cases hstep
    exact (hspec.invariant hinv ⟨h,hs⟩).2
  · cases hstep
    exact hspec.crash hinv ⟨h,hs⟩ _
  · cases hstep
    obtain ⟨hsound,hend⟩ := hspec.crash hinv ⟨h,hs⟩ _
    exact ⟨hsound.dropCache _,hend⟩

end Runs

end WorktreeLeaseManager
end OmniagentPlus.WorktreeLeasing
