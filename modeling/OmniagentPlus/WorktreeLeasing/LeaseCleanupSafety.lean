import OmniagentPlus.WorktreeLeasing.LeaseCleanup
import OmniagentPlus.WorktreeLeasing.LeasePublication

/-! A removal begins with its intent on disk, and a lease ends through a cleanup only where its
path was found absent or the removal of its path was reported done. -/
namespace OmniagentPlus.WorktreeLeasing
open OmniagentPlus.Foundation OmniagentPlus.CoreContracts OmniagentPlus.StateLedger
open WorktreeLeaseManager
variable {P : Type}

/-- A random UUID that was not in use when so many were. -/
def LeaseFormat.DrawnFrom (c : LeaseFormat) (k : ℕ) (id : String) : Prop := ∃ n, k ≤ n ∧ id = c.randomUUID n

/-- An intent for a lease that is to stay active, or to be released for another reason than a cleanup. -/
def PendingLeaseMutation.Unrelated (p : PendingLeaseMutation) : Prop :=
  p.removal = none ∧ (p.record.status = .active ∨ p.record.lease.release.map (·.cause) ≠ some .reconciliation)

/-- The action is a cleanup of this lease, and this is what its first inspection finds at the path. -/
def WorktreeAction.Inspects (x : WorktreeAction P) (id : String) (path : Path) (identity : Option PathIdentity) : Prop :=
  ∃ lease options w, x.operation = .cleanup lease options w ∧ lease.id = id ∧ lease.path = path ∧
    w.inspected.readPathIdentity path = .ok identity

section Evidence
variable (c : LeaseFormat) (s : CleanupState P) (x : WorktreeAction P) (events : List CleanupEvent)

/-- What an action from `s` may know of an intent that it staged, once these events are recorded. -/
inductive Staged (p : PendingLeaseMutation) : Prop
  | unrelated : p.Unrelated → Staged p
  | absent : x.Inspects p.record.lease.id p.record.lease.path none → p.removal = none → Staged p
  | removing (removal : LeaseRemoval) : x.Inspects p.record.lease.id p.record.lease.path (some removal.identity) →
    p.removal = some removal →
    (removal.state = .removalDone → .removed (some p.recordId) removal.identity.path ∈ events) → Staged p

/-- Why an action from `s` may record the release of a lease: another caller asked for it; an
intent that waited asks for it, and a removal among them was effective; or the action is a
cleanup that found the path absent, or whose own removal is reported done. -/
inductive ReleasedBy (r : StoredLeaseRecord) : Prop
  | unrelated : r.lease.release.map (·.cause) ≠ some .reconciliation → ReleasedBy r
  | replayed (p : PendingLeaseMutation) : s.durable r.lease.id = some p → p.record = r → p.removal = none → ReleasedBy r
  | replayedAbsent (p : PendingLeaseMutation) (removal : LeaseRemoval) : s.durable r.lease.id = some p → p.record = r →
    p.removal = some removal → (x.surroundings.removalWorld r.lease.id).readPathIdentity r.lease.path = .ok none →
    ReleasedBy r
  | replayedRemoved (p : PendingLeaseMutation) (removal : LeaseRemoval) : s.durable r.lease.id = some p → p.record = r →
    p.removal = some removal → .removed (some p.recordId) removal.identity.path ∈ s.events → ReleasedBy r
  | absent : x.Inspects r.lease.id r.lease.path none → ReleasedBy r
  | removed (identity : PathIdentity) (recordId : String) : x.Inspects r.lease.id r.lease.path (some identity) →
    c.DrawnFrom s.manager.drawn recordId → .removed (some recordId) identity.path ∈ events → ReleasedBy r

/-- What an action from `s` has made of the journal: the intents that waited or that it staged,
and releases with their reasons; a lease that was active is so, or a release of it is among them. -/
structure Progress (j : LeaseJournal) : Prop where
  drawn : s.manager.drawn ≤ j.drawn
  pending : ∀ id p, j.registry.pending.get? id = some p →
    s.durable id = some p ∨ c.DrawnFrom s.manager.drawn p.recordId ∧ Staged x events p
  releases : ∃ new, j.releases = s.manager.releases ++ new ∧ (∀ r ∈ new, ReleasedBy c s x events r) ∧
    ∀ id q, s.manager.stored.records.get? id = some q → q.status = .active →
      (∃ r, j.registry.records.get? id = some r ∧ r.status = .active) ∨ ∃ r ∈ new, r.lease.id = id

/-- What holds at any time: random UUIDs to come are in no intent, a removal marked done was
reported done, and a removal was begun with its intent on disk. -/
structure Secured (j : LeaseJournal) : Prop where
  keyed : j.registry.Keyed
  unused : ∀ n, j.drawn ≤ n → ∀ id p, j.registry.pending.get? id = some p → p.recordId ≠ c.randomUUID n
  done : ∀ id p removal, j.registry.pending.get? id = some p → p.removal = some removal → removal.state = .removalDone →
    .removed (some p.recordId) removal.identity.path ∈ events
  begun : ∀ durable identity path, .removing durable identity path ∈ events → ∃ p, durable = some p ∧
    p.operation = .remove ∧ p.removal = some ⟨identity,.prepared⟩ ∧ identity.path = path

/-- No removal that the action staged is still to be done. -/
def Finished (j : LeaseJournal) : Prop :=
  ∀ id p, j.registry.pending.get? id = some p → c.DrawnFrom s.manager.drawn p.recordId →
    ∀ removal, p.removal = some removal → removal.state = .removalDone

end Evidence

section Moves
variable {c : LeaseFormat} {s : CleanupState P} {x : WorktreeAction P} {y : LeaseAction P} {k : ℕ} {j j' : LeaseJournal}
  {events : List CleanupEvent}

/-- A move that marks no removal leaves an intent, or stages it with a random UUID of its own. -/
theorem LeaseMove.pending (h : LeaseMove c y False k j j') (hmark : .markRemovalDone ∉ y.operation.callback) {id : String}
    {p : PendingLeaseMutation} (hp : j'.registry.pending.get? id = some p) :
    j.registry.pending.get? id = some p ∨
      (∃ n, j.drawn ≤ n ∧ n < j'.drawn ∧ p.recordId = c.randomUUID n) ∧
        (p.removal = none ∧ p.record.status = .active ∨ ∃ previous, Releasing c y False j p previous) := by
  have hstage : ∀ (q : PendingLeaseMutation) (draws : ℕ), (j.stage q draws).registry.pending.get? id = some p →
      p = q ∨ j.registry.pending.get? id = some p := by
    intro q draws hq
    simp only [LeaseJournal.stage, WorktreeLeaseRegistry.putPending, Dictionary.get?_set] at hq
    split at hq
    · cases hq
      exact .inl rfl
    · exact .inr hq
  have hdrop : ∀ l, (j.registry.pending.erase l).get? id = some p → j.registry.pending.get? id = some p := by
    intro l hq
    rw [Dictionary.get?_erase] at hq
    split at hq
    · cases hq
    · exact hq
  cases h with
  | acquire q h =>
    obtain rfl | hold := hstage q 3 hp
    · exact .inr ⟨⟨j.drawn + 2,by omega,by simp [LeaseJournal.stage],h.recordId⟩,.inl ⟨h.removal,h.active⟩⟩
    · exact .inl hold
  | renew q existing h =>
    obtain rfl | hold := hstage q 1 hp
    · have hactive : p.record.status = .active := by
        obtain ⟨renewedAt,expiresAt,dirtyState,updatedAt,branchHead,hrecord⟩ := h.record
        rw [hrecord]
        exact h.active
      exact .inr ⟨⟨j.drawn,Nat.le_refl _,by simp [LeaseJournal.stage],h.recordId⟩,.inl ⟨h.removal,hactive⟩⟩
    · exact .inl hold
  | release q previous h =>
    obtain rfl | hold := hstage q 1 hp
    · exact .inr ⟨⟨j.drawn,Nat.le_refl _,by simp [LeaseJournal.stage],h.recordId⟩,.inr ⟨previous,h⟩⟩
    · exact .inl hold
  | mark q removal _ _ hmarked => exact absurd hmarked hmark
  | clear q _ _ _ _ => exact .inl (hdrop _ hp)
  | refuse q _ _ _ => exact .inl (hdrop _ hp)
  | cancel q _ _ _ _ _ _ => exact .inl (hdrop _ hp)
  | finish intent _ =>
    rw [LeaseJournal.putRegistry, finishedRegistry_pending] at hp
    exact .inl hp
  | _ => exact .inl hp

theorem LeaseMove.keyed (h : LeaseMove c y False k j j') (hj : j.registry.Keyed) : j'.registry.Keyed := by
  cases h with
  | acquire q _ => exact hj.putPending q
  | renew q _ _ => exact hj.putPending q
  | release q _ _ => exact hj.putPending q
  | mark q removal _ _ _ => exact hj.putPending _
  | commit q _ _ _ => exact hj.putRecord _
  | clear q _ _ _ _ => exact hj.dropPending _
  | refuse q _ _ _ => exact hj.dropPending _
  | cancel q _ _ _ _ _ _ => exact hj.dropPending _
  | propose _ _ _ _ => exact ⟨hj.records,hj.pending⟩
  | finish intent _ => exact finishedRegistry_keyed _ _ _ hj
  | _ => exact hj

theorem secured_move (h : LeaseMove c y False k j j') (hmark : .markRemovalDone ∉ y.operation.callback)
    (hj : Secured c events j) : Secured c events j' where
  keyed := h.keyed hj.keyed
  unused n hn id p hp := by
    obtain hold | ⟨⟨m,_,hm,hid⟩,_⟩ := h.pending hmark hp
    · exact hj.unused n (Nat.le_trans h.drawn hn) id p hold
    · intro heq
      have := c.distinct (hid.symm.trans heq)
      omega
  done id p removal hp hremoval hdone := by
    obtain hold | ⟨_,⟨hnone,_⟩ | ⟨previous,hreleasing⟩⟩ := h.pending hmark hp
    · exact hj.done id p removal hold hremoval hdone
    · rw [hnone] at hremoval
      cases hremoval
    · obtain ⟨_,hnone⟩ | ⟨_,identity,_,hprepared,_⟩ := hreleasing.operation
      · rw [hnone] at hremoval
        cases hremoval
      · rw [hprepared] at hremoval
        cases hremoval
        cases hdone
  begun := hj.begun

/-- An operation is sealed where it marks no removal and stages no other release than it may. -/
structure Sealed (c : LeaseFormat) (s : CleanupState P) (x : WorktreeAction P) (events : List CleanupEvent)
    (y : LeaseAction P) : Prop where
  surroundings : y.surroundings = x.surroundings
  unmarked : .markRemovalDone ∉ y.operation.callback
  staged : ∀ j p previous, Releasing c y False j p previous → p.removal = none ∧ Staged x events p

theorem Sealed.finished (h : Sealed c s x events y) (hmove : LeaseMove c y False k j j') (hj : Finished c s j) :
    Finished c s j' := by
  intro id p hp hown removal hremoval
  obtain hold | ⟨_,⟨hnone,_⟩ | ⟨previous,hreleasing⟩⟩ := hmove.pending h.unmarked hp
  · exact hj id p hold hown removal hremoval
  · rw [hnone] at hremoval
    cases hremoval
  · rw [(h.staged j p previous hreleasing).1] at hremoval
    cases hremoval

/-- A prepared removal that inspection finds absent has nothing at its path. -/
theorem inspectRemoval_absent {w : World} {p : PendingLeaseMutation} {removal : LeaseRemoval}
    (h : inspectRemoval w p removal = .ok .absent) : w.readPathIdentity p.record.lease.path = .ok none := by
  unfold inspectRemoval at h
  split at h
  · next inspection heffect =>
    cases h
    unfold inspectRemovalEffect at heffect
    obtain ⟨path,hpath,hrest⟩ := except_bind_eq_ok.mp heffect
    split at hrest
    · cases hrest
    obtain ⟨registration,_,hrest⟩ := except_bind_eq_ok.mp hrest
    cases path with
    | none => exact hpath
    | some path =>
      dsimp only at hrest
      split at hrest
      · obtain ⟨verified,_,hrest⟩ := except_bind_eq_ok.mp hrest
        split at hrest
        · obtain ⟨_,_,hrest⟩ := except_bind_eq_ok.mp hrest
          split at hrest <;> cases hrest
        · cases hrest
      · cases hrest
  · split at h <;> cases h

/-- The identity read last is the one that was staged. -/
theorem recheckRemoval_ok {record : StoredLeaseRecord} {w : CleanupWorld} {repoRoot : Path}
    {identity finalIdentity : PathIdentity} (h : recheckRemoval record w repoRoot identity = .ok finalIdentity) :
    finalIdentity = identity := by
  unfold recheckRemoval at h
  obtain ⟨registration,_,h⟩ := except_bind_eq_ok.mp h
  split at h
  · cases h
  obtain ⟨_,_,h⟩ := except_bind_eq_ok.mp h
  split at h
  · cases h
  obtain ⟨_,_,h⟩ := except_bind_eq_ok.mp h
  split at h
  · cases h
  obtain ⟨_,_,h⟩ := except_bind_eq_ok.mp h
  split at h
  · cases h
  obtain ⟨found,_,h⟩ := except_bind_eq_ok.mp h
  cases found with
  | none => cases h
  | some found =>
    dsimp only at h
    split at h
    · next hsame =>
      cases h
      exact hsame
    · cases h

/-- Why an intent that is carried out may release its lease. -/
theorem releasedBy_of_waits (hs : Secured c s.events s.manager.journal) (hx : y.surroundings = x.surroundings)
    (hj : Progress c s x events j) (hfinished : Finished c s j) {p : PendingLeaseMutation}
    (hp : j.Waits p) (hsettles : Settles c y s.manager.drawn p) (hreleased : p.record.status = .released) :
    ReleasedBy c s x events p.record := by
  obtain hold | ⟨hown,hstaged⟩ := hj.pending _ _ hp
  · cases hremoval : p.removal with
    | none => exact .replayed p hold rfl hremoval
    | some removal =>
      cases hstate : removal.state with
      | removalDone => exact .replayedRemoved p removal hold rfl hremoval (hs.done _ p removal hold hremoval hstate)
      | prepared =>
        obtain ⟨n,hn,hid⟩ | habsent := hsettles removal hremoval hstate
        · exact absurd hid (hs.unused n hn _ p hold)
        · rw [hx] at habsent
          exact .replayedAbsent p removal hold rfl hremoval (inspectRemoval_absent habsent)
  · cases hstaged with
    | unrelated h =>
      obtain ⟨_,hactive | hcause⟩ := h
      · cases hreleased.symm.trans hactive
      · exact .unrelated hcause
    | absent hinspects _ => exact .absent hinspects
    | removing removal hinspects hremoval hdone =>
      have hstate := hfinished _ p hp hown removal hremoval
      exact .removed removal.identity p.recordId hinspects hown (hdone hstate)

theorem progress_move (hs : Secured c s.events s.manager.journal) (hy : Sealed c s x events y)
    (h : LeaseMove c y False s.manager.drawn j j') (hfinished : Finished c s j)
    (hj : Progress c s x events j) : Progress c s x events j' where
  drawn := Nat.le_trans hj.drawn h.drawn
  pending id p hp := by
    obtain hold | ⟨⟨n,hn,_,hid⟩,⟨hnone,hactive⟩ | ⟨previous,hreleasing⟩⟩ := h.pending hy.unmarked hp
    · exact hj.pending id p hold
    · exact .inr ⟨⟨n,Nat.le_trans hj.drawn hn,hid⟩,.unrelated ⟨hnone,.inl hactive⟩⟩
    · exact .inr ⟨⟨n,Nat.le_trans hj.drawn hn,hid⟩,(hy.staged j p previous hreleasing).2⟩
  releases := by
    obtain ⟨new,hnew,hreasons,hactive⟩ := hj.releases
    cases h with
    | commit p hp hpublished hsettles =>
      by_cases hlogged : (p.record.status == .released &&
          !(j.registry.records.get? p.record.lease.id == some p.record)) = true
      · have hreleased : p.record.status = .released := by
          rw [Bool.and_eq_true] at hlogged
          exact eq_of_beq hlogged.1
        refine ⟨new ++ [p.record],?_,?_,?_⟩
        · simp only [LeaseJournal.commit, hlogged, if_true]
          rw [hnew, List.append_assoc]
        · intro r hr
          obtain hr | hr := List.mem_append.mp hr
          · exact hreasons r hr
          · rw [List.mem_singleton.mp hr]
            exact releasedBy_of_waits hs hy.surroundings hj hfinished hp hsettles hreleased
        · intro id q hq hstatus
          by_cases hid : id = p.record.lease.id
          · exact .inr ⟨p.record,List.mem_append_right _ (List.mem_singleton_self _),hid.symm⟩
          · obtain ⟨r,hr,hr'⟩ | ⟨r,hr,hr'⟩ := hactive id q hq hstatus
            · refine .inl ⟨r,?_,hr'⟩
              simp only [LeaseJournal.commit, WorktreeLeaseRegistry.putRecord]
              rw [Dictionary.get?_set_of_ne _ _ hid]
              exact hr
            · exact .inr ⟨r,List.mem_append_left _ hr,hr'⟩
      · refine ⟨new,?_,hreasons,?_⟩
        · simp only [LeaseJournal.commit, hlogged]
          exact hnew
        · intro id q hq hstatus
          obtain ⟨r,hr,hr'⟩ | hright := hactive id q hq hstatus
          · by_cases hid : id = p.record.lease.id
            · subst hid
              refine .inl ⟨p.record,Dictionary.get?_set_self _ _ _,?_⟩
              cases hrecord : p.record.status with
              | active => rfl
              | released =>
                -- a release that is not logged is one that was there
                rw [hrecord] at hlogged
                have hsame : j.registry.records.get? p.record.lease.id = some p.record := by simpa using hlogged
                rw [hr] at hsame
                cases hsame
                exact hrecord.symm.trans hr'
            · refine .inl ⟨r,?_,hr'⟩
              simp only [LeaseJournal.commit, WorktreeLeaseRegistry.putRecord]
              rw [Dictionary.get?_set_of_ne _ _ hid]
              exact hr
          · exact .inr hright
    | finish intent hintent =>
      refine ⟨new,hnew,hreasons,fun id q hq hstatus => ?_⟩
      obtain ⟨r,hr,hr'⟩ | hright := hactive id q hq hstatus
      · refine .inl ⟨r,?_,hr'⟩
        obtain hsame | ⟨_,_,q',hq',hreleased,_⟩ := finishedRegistry_records j.rows intent j.registry id
        · exact hsame.trans hr
        · rw [hr] at hq'
          cases hq'
          cases hr'.symm.trans hreleased
      · exact .inr hright
    | _ => exact ⟨new,hnew,hreasons,hactive⟩

/-- More events are no harm. -/
theorem Staged.mono {p : PendingLeaseMutation} (h : Staged x events p) (event : CleanupEvent) :
    Staged x (events ++ [event]) p := by
  cases h with
  | unrelated h => exact .unrelated h
  | absent h hnone => exact .absent h hnone
  | removing removal h hremoval hdone =>
    exact .removing removal h hremoval (fun hstate => List.mem_append_left _ (hdone hstate))

theorem ReleasedBy.mono {r : StoredLeaseRecord} (h : ReleasedBy c s x events r) (event : CleanupEvent) :
    ReleasedBy c s x (events ++ [event]) r := by
  cases h with
  | unrelated h => exact .unrelated h
  | replayed p h hr hnone => exact .replayed p h hr hnone
  | replayedAbsent p removal h hr hremoval habsent => exact .replayedAbsent p removal h hr hremoval habsent
  | replayedRemoved p removal h hr hremoval hdone => exact .replayedRemoved p removal h hr hremoval hdone
  | absent h => exact .absent h
  | removed identity recordId h hown hdone => exact .removed identity recordId h hown (List.mem_append_left _ hdone)

theorem Progress.mono (h : Progress c s x events j) (event : CleanupEvent) : Progress c s x (events ++ [event]) j where
  drawn := h.drawn
  pending id p hp := (h.pending id p hp).imp_right (fun hstaged => ⟨hstaged.1,hstaged.2.mono event⟩)
  releases := by
    obtain ⟨new,hnew,hreasons,hactive⟩ := h.releases
    exact ⟨new,hnew,fun r hr => (hreasons r hr).mono event,hactive⟩

/-- An intent in the registry in place of another, or as a new one. -/
theorem Progress.put (h : Progress c s x events j) {p : PendingLeaseMutation}
    (hown : c.DrawnFrom s.manager.drawn p.recordId) (hp : Staged x events p) {j' : LeaseJournal}
    (hdrawn : j.drawn ≤ j'.drawn) (hregistry : j'.registry = j.registry.putPending p) (hreleases : j'.releases = j.releases) :
    Progress c s x events j' where
  drawn := Nat.le_trans h.drawn hdrawn
  pending id q hq := by
    rw [hregistry, WorktreeLeaseRegistry.putPending, Dictionary.get?_set] at hq
    split at hq
    · cases hq
      exact .inr ⟨hown,hp⟩
    · exact h.pending id q hq
  releases := by
    rw [hreleases, hregistry]
    exact h.releases

theorem Secured.put (h : Secured c events j) {p : PendingLeaseMutation} {j' : LeaseJournal} (hdrawn : j.drawn ≤ j'.drawn)
    (hregistry : j'.registry = j.registry.putPending p)
    (hunused : ∀ n, j'.drawn ≤ n → p.recordId ≠ c.randomUUID n)
    (hdone : ∀ removal, p.removal = some removal → removal.state = .removalDone →
      .removed (some p.recordId) removal.identity.path ∈ events) : Secured c events j' where
  keyed := by
    rw [hregistry]
    exact h.keyed.putPending p
  unused n hn id q hq := by
    rw [hregistry, WorktreeLeaseRegistry.putPending, Dictionary.get?_set] at hq
    split at hq
    · cases hq
      exact hunused n hn
    · exact h.unused n (Nat.le_trans hdrawn hn) id q hq
  done id q removal hq := by
    rw [hregistry, WorktreeLeaseRegistry.putPending, Dictionary.get?_set] at hq
    split at hq
    · cases hq
      exact hdone removal
    · exact h.done id q removal hq
  begun := h.begun

end Moves

section Programs
variable {c : LeaseFormat} {s : CleanupState P} {x : WorktreeAction P} {y : LeaseAction P} {u : CleanupState P}
  (a : Surroundings P)

/-- What holds of every state that an action from `s` publishes. -/
structure Safe (c : LeaseFormat) (s : CleanupState P) (x : WorktreeAction P) (u : CleanupState P) : Prop where
  sound : u.manager.ledger.Sound (.core c.toLedgerFormat)
  secured : Secured c u.events u.manager.journal
  progress : Progress c s x u.events u.manager.journal

/-- A published state is safe where the one before it is. -/
def KeepsSafe (c : LeaseFormat) (s : CleanupState P) (x : WorktreeAction P) (u v : CleanupState P) : Prop :=
  Safe c s x u → Safe c s x v

/-- A part of the manager under a sealed operation. -/
theorem onManager_spec {α : Type} {p : LeaseProgram P α} {K : α → LeaseManagerState P → Prop}
    (hs : Secured c s.events s.manager.journal) (hy : Sealed c s x u.events y) (hu : Safe c s x u)
    (hfinished : Finished c s u.manager.journal)
    (hp : Program.Wp (Traces c y False s.manager.drawn) p (Ends c K) u.manager) :
    Program.Wp (KeepsSafe c s x) (onManager p) (fun r t => Safe c s x t ∧ Finished c s t.manager.journal ∧
      t.events = u.events ∧ ∀ v, r = .ok v → K v t.manager) u := by
  have hkept := hp.with_invariant (I := fun m => Safe c s x (u.putManager m) ∧ Finished c s m.journal)
    (fun m m' hm hi => ⟨⟨hm.1,secured_move hm.2 hy.unmarked hi.1.secured,
      progress_move hs hy hm.2 hi.2 hi.1.progress⟩,hy.finished hm.2 hi.2⟩) ⟨hu,hfinished⟩
  refine Program.wp_zoom rfl hkept ?_ ?_
  · rintro m m' ⟨hm,hi⟩ -
    exact ⟨hm.1,secured_move hm.2 hy.unmarked hi.1.secured,progress_move hs hy hm.2 hi.2 hi.1.progress⟩
  · rintro r m ⟨⟨-,hok⟩,hsafe,hdone⟩
    refine ⟨hsafe,hdone,rfl,fun v hv => hok v ?_⟩
    cases r with
    | error e => cases hv
    | ok w =>
      cases hv
      rfl

/-- What `withCleanup` gives its callback. -/
structure Opened (c : LeaseFormat) (k : ℕ) (lease : WorktreeLease) (record : StoredLeaseRecord) (m : LeaseManagerState P) :
    Prop where
  cleaning : Cleaning c False k record m
  active : record.status = .active
  lease : record.lease.id = lease.id ∧ record.lease.path = lease.path

/-- An operation that stages no release for a cleanup is sealed. -/
theorem sealed_of_causes {events : List CleanupEvent} (hx : y.surroundings = x.surroundings)
    (hcauses : .reconciliation ∉ y.operation.causes) (hmark : .markRemovalDone ∉ y.operation.callback)
    (hstage : ∀ identity now, .stageRemoval identity now ∉ y.operation.callback) : Sealed c s x events y where
  surroundings := hx
  unmarked := hmark
  staged j p previous h := by
    obtain ⟨_,hnone⟩ | ⟨_,identity,now,_,hstaged⟩ := h.operation
    · refine ⟨hnone,.unrelated ⟨hnone,.inr ?_⟩⟩
      obtain ⟨now,_,cause,hcause,hintent⟩ := h.record
      have hrecord := congrArg PendingLeaseMutation.record (releaseIntent_ok hintent)
      have hrecord : p.record = _ := hrecord
      rw [hrecord]
      intro heq
      cases heq
      exact hcauses hcause
    · exact absurd hstaged (hstage identity now)

/-- A release by a cleanup that found the path absent. -/
theorem sealed_of_absent {events : List CleanupEvent} {lease : WorktreeLease} {now : Instant}
    (hx : y.surroundings = x.surroundings) (hop : y.operation = .withCleanup lease [.release now none])
    (habsent : x.Inspects lease.id lease.path none) : Sealed c s x events y where
  surroundings := hx
  unmarked := by simp [hop, LeaseOperation.callback]
  staged j p previous h := by
    obtain ⟨_,hnone⟩ | ⟨_,identity,now',_,hstaged⟩ := h.operation
    · obtain ⟨hid,hpath⟩ := h.lease _ _ hop
      obtain ⟨now',_,cause,_,hintent⟩ := h.record
      have hrecord := congrArg PendingLeaseMutation.record (releaseIntent_ok hintent)
      have hrecord : p.record = _ := hrecord
      refine ⟨hnone,.absent ?_ hnone⟩
      rw [hrecord]
      change x.Inspects previous.lease.id previous.lease.path none
      rw [hid, hpath]
      exact habsent
    · simp [hop, LeaseOperation.callback] at hstaged

/-- The operation that a part of a cleanup is when it stages nothing. -/
def settling (x : WorktreeAction P) : LeaseAction P := ⟨x.surroundings,.reconcile,x.ending⟩

theorem settling_sealed {events : List CleanupEvent} : Sealed c s x events (settling x) :=
  sealed_of_causes rfl (by simp [settling, LeaseOperation.causes, LeaseOperation.callback])
    (by simp [settling, LeaseOperation.callback]) (by simp [settling, LeaseOperation.callback])

/-- A prepared removal of this identity waits on disk for the lease; no other that the action
staged is still to be done. -/
structure Prepared (c : LeaseFormat) (s : CleanupState P) (x : WorktreeAction P) (record : StoredLeaseRecord)
    (identity : PathIdentity) (p : PendingLeaseMutation) (u : CleanupState P) : Prop where
  safe : Safe c s x u
  synced : Synced c u.manager
  lease : p.record.lease.id = record.lease.id ∧ p.record.lease.path = record.lease.path
  durable : u.durable record.lease.id = some p
  operation : p.operation = .remove
  removal : p.removal = some ⟨identity,.prepared⟩
  own : c.DrawnFrom s.manager.drawn p.recordId
  drawn : s.manager.drawn < u.manager.drawn
  inspects : x.Inspects record.lease.id record.lease.path (some identity)
  others : ∀ id q, id ≠ record.lease.id → u.durable id = some q → c.DrawnFrom s.manager.drawn q.recordId →
    ∀ removal, q.removal = some removal → removal.state = .removalDone

variable {record : StoredLeaseRecord} {identity : PathIdentity} {p : PendingLeaseMutation}

/-- An event that says of a removal what is so. -/
theorem Prepared.recorded (h : Prepared c s x record identity p u) {e : CleanupEvent}
    (hevent : ∀ durable i path, e = .removing durable i path → durable = some p ∧ i = identity ∧ path = identity.path) :
    Prepared c s x record identity p (u.record e) where
  safe := {
    sound := h.safe.sound
    secured := {
      keyed := h.safe.secured.keyed
      unused := h.safe.secured.unused
      done := fun id q removal hq hremoval hdone => List.mem_append_left _ (h.safe.secured.done id q removal hq hremoval hdone)
      begun := by
        intro durable i path hmem
        obtain hmem | hmem := List.mem_append.mp hmem
        · exact h.safe.secured.begun durable i path hmem
        · obtain ⟨rfl,rfl,rfl⟩ := hevent durable i path (List.mem_singleton.mp hmem).symm
          exact ⟨p,rfl,h.operation,h.removal,rfl⟩ }
    progress := h.safe.progress.mono e }
  synced := h.synced
  lease := h.lease
  durable := h.durable
  operation := h.operation
  removal := h.removal
  own := h.own
  drawn := h.drawn
  inspects := h.inspects
  others := h.others

/-- Whether the removal is reported done; then an event says so. -/
theorem removeWorktree_spec (h : Prepared c s x record identity p u) (w : CleanupWorlds) (repoRoot : Path) :
    Program.Wp (KeepsSafe c s x) (removeWorktree record w repoRoot identity)
      (fun r t => ∀ removed, r = .ok removed → removed = true → Prepared c s x record identity p t ∧
        .removed (some p.recordId) identity.path ∈ t.events) u := by
  simp only [removeWorktree, Program.wp_tryCatch, Program.wp_bind, Program.wp_ofExcept]
  cases hrecheck : recheckRemoval record w.final repoRoot identity with
  | error e =>
    simp only [Program.then_error, Program.caught_error, Program.wp_pure]
    exact fun removed hr htrue => by cases hr; cases htrue
  | ok finalIdentity =>
    have hfinal : finalIdentity = identity := recheckRemoval_ok hrecheck
    subst hfinal
    have hbegun : Prepared c s x record finalIdentity p
        (u.record (.removing (u.durable record.lease.id) finalIdentity finalIdentity.path)) := by
      apply h.recorded
      rintro durable i path ⟨⟩
      exact ⟨h.durable,rfl,rfl⟩
    simp only [Program.then_ok, Program.wp_write]
    refine ⟨fun _ => hbegun.safe,?_⟩
    cases w.removeGitWorktree repoRoot finalIdentity.path with
    | error e =>
      simp only [Program.then_error, Program.caught_error, Program.wp_pure]
      exact fun removed hr htrue => by cases hr; cases htrue
    | ok v =>
      simp only [Program.then_ok, Program.wp_pure, Program.caught_ok]
      have hremoved := hbegun.recorded (e := .removed ((u.durable record.lease.id).map (·.recordId)) finalIdentity.path)
        (fun _ _ _ heq => by cases heq)
      refine ⟨fun _ => hremoved.safe,fun removed _ _ => ⟨hremoved,?_⟩⟩
      rw [hbegun.durable]
      exact List.mem_append_right _ (List.mem_singleton_self _)

variable [DecidableEq P]

theorem openCleanup_spec {k : ℕ} {m : LeaseManagerState P} (ha : y.surroundings = a)
    (hop : ∀ policy now interleaved, y.operation ≠ .retainHistory policy now interleaved)
    (h : m.ledger.Sound (.core c.toLedgerFormat)) (hk : m.drawn = k) (lease : WorktreeLease) :
    Program.Wp (Traces c y False k) (openCleanup c a lease) (Ends c fun record t => Opened c k lease record t) m := by
  rw [openCleanup, Program.wp_bind, Program.wp_throwIf]
  refine ⟨fun _ => Ends.stop h _,fun _ => ?_⟩
  refine withMutation_spec a (I := fun _ => True) (fun _ _ _ _ => trivial) trivial ha hop h hk
    (fun t ht hreclaimed hdrawn _ => ?_)
  simp only [memory, Program.wp_bind, Program.wp_reads, Program.then_ok, Program.wp_ofExcept]
  rw [ht.memory]
  cases howner : requireOwner t.stored lease with
  | error e => exact ends_error.mpr ht.sound
  | ok record =>
    obtain ⟨hcurrent,hactive,hidle⟩ := requireOwner_ok howner
    have hid := ht.keyed.records _ _ hcurrent
    have hpath := requireOwner_path howner
    rw [← hid] at hcurrent hidle
    have hcleared : ∀ p, t.stored.pending.get? record.lease.id ≠ some p := fun p hp => by simp [hidle] at hp
    have hcleaning : Cleaning c False k record t :=
      ⟨ht,hreclaimed,⟨record,hcurrent,rfl,.inl rfl⟩,fun p hp => absurd hp (hcleared p),
        fun hf => hf.elim,fun hf => hf.elim,hdrawn.ge,fun p hp => absurd hp (hcleared p),
        fun p hp => absurd hp (hcleared p)⟩
    exact ends_ok.mpr ⟨ht.sound,hcleaning,hactive,hid,hpath⟩

theorem stageRemoval_spec (hu : Safe c s x u) (hfinished : Finished c s u.manager.journal)
    (hcleaning : Cleaning c False s.manager.drawn record u.manager)
    (hinspects : x.Inspects record.lease.id record.lease.path (some identity)) (now : Instant) :
    Program.Wp (KeepsSafe c s x) (onManager (cleanupControl c a record (.stageRemoval identity now)))
      (fun r t => r = .ok PUnit.unit → ∃ p, Prepared c s x record identity p t) u := by
  have hsynced := hcleaning.synced
  refine Program.wp_zoom (S := fun m m' => KeepsSafe c s x (u.putManager m) (u.putManager m'))
    (T := fun r m => r = .ok PUnit.unit → ∃ p, Prepared c s x record identity p (u.putManager m)) rfl ?_
    (fun _ _ hm => hm) ?_
  · simp only [cleanupControl, randomUUID, memory, putMemory, writeRegistry, Program.wp_bind, Program.wp_reads,
      Program.wp_write, Program.wp_throwIf, Program.then_ok, Program.wp_ofExcept]
    cases hintent : releaseIntent record now .remove .reconciliation (c.randomUUID (u.manager.drawn + 0)) with
    | error e => exact (fun he => by cases he)
    | ok intent =>
    obtain rfl := releaseIntent_ok hintent
    rw [Program.then_ok, hsynced.memory]
    generalize hp : (PendingLeaseMutation.mk _ _ _ (some ⟨identity,.prepared⟩)) = p
    have hrecordId : p.recordId = c.randomUUID (u.manager.drawn + 0) := by rw [← hp]
    have hremoval : p.removal = some ⟨identity,.prepared⟩ := by rw [← hp]
    have hoperation : p.operation = .remove := by rw [← hp]
    have hlease : p.record.lease.id = record.lease.id ∧ p.record.lease.path = record.lease.path := by
      rw [← hp]
      exact ⟨rfl,rfl⟩
    have hown : c.DrawnFrom s.manager.drawn p.recordId := ⟨u.manager.drawn + 0,hcleaning.drawn,hrecordId⟩
    have hstaged : Staged x u.events p := by
      refine .removing ⟨identity,.prepared⟩ ?_ hremoval (fun hdone => by cases hdone)
      rw [hlease.1, hlease.2]
      exact hinspects
    have hsafe : Safe c s x (u.putManager ((u.manager.putMemory (u.manager.stored.putPending p)).putStaged p 1)) := {
      sound := hu.sound
      secured := hu.secured.put (Nat.le_succ _) rfl (fun n hn heq => by
          have := c.distinct (hrecordId.symm.trans heq)
          have hn : u.manager.drawn + 1 ≤ n := hn
          omega) (fun removal hr hdone => by
          rw [hremoval] at hr
          cases hr
          cases hdone)
      progress := hu.progress.put hown hstaged (Nat.le_succ _) rfl rfl }
    refine ⟨fun _ => ⟨hu.sound,hu.secured,hu.progress⟩,fun _ he => (by cases he),fun _ => ⟨fun _ => hsafe,fun _ => ⟨p,{
      safe := hsafe
      synced := ⟨hu.sound,rfl,hsynced.keyed.putPending p⟩
      lease := hlease
      durable := ?_
      operation := hoperation
      removal := hremoval
      own := hown
      drawn := Nat.lt_succ_of_le hcleaning.drawn
      inspects := hinspects
      others := ?_ }⟩⟩⟩
    · rw [← hlease.1]
      exact Dictionary.get?_set_self _ _ _
    · intro id q hne hq
      have hq : (u.manager.stored.pending.set p.record.lease.id p).get? id = some q := hq
      rw [Dictionary.get?_set_of_ne _ _ (hlease.1 ▸ hne)] at hq
      exact hfinished id q hq
  · rintro (e | v) m hm hr
    · cases hr
    · exact hm rfl

/-- The removal is marked done on disk. -/
structure Marked (c : LeaseFormat) (s : CleanupState P) (x : WorktreeAction P) (record : StoredLeaseRecord)
    (q : PendingLeaseMutation) (u : CleanupState P) : Prop where
  safe : Safe c s x u
  synced : Synced c u.manager
  lease : q.record.lease.id = record.lease.id
  durable : u.durable record.lease.id = some q
  operation : q.operation = .remove
  own : c.DrawnFrom s.manager.drawn q.recordId
  drawn : s.manager.drawn < u.manager.drawn
  finished : Finished c s u.manager.journal

theorem markRemovalDone_spec (h : Prepared c s x record identity p u)
    (hremoved : .removed (some p.recordId) identity.path ∈ u.events) :
    Program.Wp (KeepsSafe c s x) (onManager (cleanupControl c a record .markRemovalDone))
      (fun r t => r = .ok PUnit.unit → ∃ q, Marked c s x record q t) u := by
  refine Program.wp_zoom (S := fun m m' => KeepsSafe c s x (u.putManager m) (u.putManager m'))
    (T := fun r m => r = .ok PUnit.unit → ∃ q, Marked c s x record q (u.putManager m)) rfl ?_ (fun _ _ hm => hm) ?_
  · have hpending : u.manager.stored.pending.get? record.lease.id = some p := h.durable
    simp only [cleanupControl, memory, putMemory, writeRegistry, Program.wp_bind, Program.wp_reads, Program.then_ok]
    rw [h.synced.memory]
    simp only [hpending, Option.bind_some, h.removal, Option.map_some, Program.wp_bind, Program.wp_write,
      Program.wp_reads, Program.wp_throwIf, Program.then_ok, Program.then_error]
    generalize hq : PendingLeaseMutation.mk p.recordId p.record p.operation (some ⟨identity,.removalDone⟩) = q
    have hid : q.recordId = p.recordId := by rw [← hq]
    have hremoval : q.removal = some ⟨identity,.removalDone⟩ := by rw [← hq]
    have hoperation : q.operation = .remove := by
      rw [← hq]
      exact h.operation
    have hlease : q.record.lease.id = record.lease.id ∧ q.record.lease.path = record.lease.path := by
      rw [← hq]
      exact h.lease
    have hown : c.DrawnFrom s.manager.drawn q.recordId := hid ▸ h.own
    have hdone : ∀ removal, q.removal = some removal → removal.state = .removalDone →
        .removed (some q.recordId) removal.identity.path ∈ u.events := by
      intro removal hr _
      rw [hremoval] at hr
      cases hr
      rw [hid]
      exact hremoved
    have hstaged : Staged x u.events q := by
      refine .removing ⟨identity,.removalDone⟩ ?_ hremoval (hdone _ hremoval)
      rw [hlease.1, hlease.2]
      exact h.inspects
    have hsafe : Safe c s x (u.putManager (u.manager.putMemory (u.manager.stored.putPending q)).putRegistry) := {
      sound := h.safe.sound
      secured := h.safe.secured.put (Nat.le_refl _) rfl
        (fun n hn => hid ▸ h.safe.secured.unused n hn _ p h.durable) hdone
      progress := h.safe.progress.put hown hstaged (Nat.le_refl _) rfl rfl }
    refine ⟨fun _ => ⟨h.safe.sound,h.safe.secured,h.safe.progress⟩,fun _ he => (by cases he),fun _ => ⟨fun _ => hsafe,
      fun _ => ⟨q,{
        safe := hsafe
        synced := ⟨h.safe.sound,rfl,h.synced.keyed.putPending q⟩
        lease := hlease.1
        durable := ?_
        operation := hoperation
        own := hown
        drawn := h.drawn
        finished := ?_ }⟩⟩⟩
    · rw [← hlease.1]
      exact Dictionary.get?_set_self _ _ _
    · intro id r hr hr' removal hsome
      have hr : (u.manager.stored.pending.set q.record.lease.id q).get? id = some r := hr
      rw [Dictionary.get?_set] at hr
      split at hr
      · cases hr
        rw [hremoval] at hsome
        cases hsome
        rfl
      · next hne => exact h.others id r (hlease.1 ▸ hne) hr hr' removal hsome
  · rintro (e | v) m hm hr
    · cases hr
    · exact hm rfl

theorem releaseRemoved_spec (hs : Secured c s.events s.manager.journal) (h : Prepared c s x record identity p u)
    (hremoved : .removed (some p.recordId) identity.path ∈ u.events) (now : Instant) :
    Program.Wp (KeepsSafe c s x) (releaseRemoved c a record now) (fun _ _ => True) u := by
  simp only [releaseRemoved, Program.wp_tryCatch, Program.wp_bind]
  refine (markRemovalDone_spec a h hremoved).mono (fun _ _ ht => ht) ?_
  rintro (e | v) t ht
  · simp only [Program.then_error, Program.caught_error, Program.wp_pure]
  · obtain ⟨q,hq⟩ := ht rfl
    have hpending : t.manager.stored.pending.get? record.lease.id = some q := hq.durable
    have hacquire : q.operation ≠ .acquire := by simp [hq.operation]
    have hsame : t.manager.stored.putPending q = t.manager.stored := by
      rw [WorktreeLeaseRegistry.putPending, Dictionary.set_of_get? _ (hq.lease.symm ▸ hpending)]
    have hquiet : t.manager.journal.stage q 0 = t.manager.journal := by
      simp only [LeaseJournal.stage, if_neg hacquire, if_pos]
      change { t.manager.journal with registry := t.manager.stored.putPending q } = t.manager.journal
      rw [hsame]
      rfl
    obtain ⟨n,hn,hid⟩ := hq.own
    have hpublish : Program.Wp (Traces c (settling x) False s.manager.drawn)
        (cleanupControl c a record (.release now none)) (Ends c fun _ _ => True) t.manager := by
      simp only [cleanupControl, memory, Program.wp_bind, Program.wp_reads, Program.then_ok]
      rw [hq.synced.memory, hpending]
      have hdrawn := hq.drawn
      refine (publishMutation_spec a hq.synced (by omega) (.of_own hn hid) (fun _ => ?_)).mono (fun _ _ hm => hm)
        (fun _ _ hm => ⟨hm.1,fun _ _ => trivial⟩)
      rw [hquiet]
      exact LeaseMove.quiet
    rw [Program.then_ok]
    refine (onManager_spec hs settling_sealed hq.safe hq.finished hpublish).mono (fun _ _ hm => hm) ?_
    rintro (e | v) w -
    · simp only [Program.then_error, Program.caught_error, Program.wp_pure]
    · simp only [Program.then_ok, Program.caught_ok, Program.wp_pure]

/-- What the callback of a cleanup starts from. -/
structure Ready (c : LeaseFormat) (s : CleanupState P) (x : WorktreeAction P) (lease : WorktreeLease)
    (record : StoredLeaseRecord) (u : CleanupState P) : Prop where
  safe : Safe c s x u
  finished : Finished c s u.manager.journal
  opened : Opened c s.manager.drawn lease record u.manager

theorem validatePath_spec :
    Program.Wp (KeepsSafe c s x) (onManager (cleanupControl c a record .validatePath)) (fun _ t => t = u) u := by
  refine Program.wp_zoom (S := fun _ _ => False) (T := fun _ m => m = u.manager) rfl ?_ (fun _ _ hm => hm.elim) ?_
  · rw [cleanupControl]
    split
    · rw [Program.wp_throw]
    · rw [Program.wp_ofExcept]
  · rintro r m rfl
    rfl

theorem removePresent_spec {lease : WorktreeLease} {options : CleanupLeaseOptions} {w : CleanupWorlds}
    (hs : Secured c s.events s.manager.journal) (hx : x.operation = .cleanup lease options w)
    (hu : Ready c s x lease record u) (hidentity : w.inspected.readPathIdentity record.lease.path = .ok (some identity))
    (now : Instant) (blocked : CleanupReason → CleanupResult) (repoRoot : Path) (registered : Bool) :
    Program.Wp (KeepsSafe c s x) (removePresent c a record now w blocked repoRoot registered identity)
      (fun _ _ => True) u := by
  have hinspects : x.Inspects record.lease.id record.lease.path (some identity) :=
    ⟨lease,options,w,hx,hu.opened.lease.1.symm,hu.opened.lease.2.symm,hidentity⟩
  simp only [removePresent, Program.wp_bind, Program.wp_tryCatch]
  refine (validatePath_spec a).mono (fun _ _ ht => ht) ?_
  rintro (e | v) t rfl
  · rw [Program.then_error, Program.caught_error]
    cases e <;> simp
  · simp only [Program.then_ok, Program.wp_pure, Program.caught_ok, Program.wp_bind, Program.wp_ofExcept]
    cases removalRefusal record w.examined repoRoot registered identity with
    | error e => trivial
    | ok refusal =>
    cases refusal with
    | some reason => simp
    | none =>
      simp only [Program.then_ok, Program.wp_bind]
      refine (stageRemoval_spec a hu.safe hu.finished hu.opened.cleaning hinspects now).mono (fun _ _ ht => ht) ?_
      rintro (e | v) t ht
      · trivial
      · obtain ⟨p,hp⟩ := ht rfl
        rw [Program.then_ok]
        refine (removeWorktree_spec hp w repoRoot).mono (fun _ _ ht => ht) ?_
        rintro (e | removed) t' ht'
        · trivial
        · rw [Program.then_ok]
          cases removed with
          | false => simp
          | true =>
            obtain ⟨hprepared,hremoved⟩ := ht' true rfl rfl
            simp only [if_true, Program.wp_bind]
            refine (releaseRemoved_spec a hs hprepared hremoved now).mono (fun _ _ ht => ht) ?_
            rintro (e | released) w' -
            · trivial
            · cases released <;> simp

theorem cleanupRecord_spec {lease : WorktreeLease} {options : CleanupLeaseOptions} {w : CleanupWorlds}
    (hs : Secured c s.events s.manager.journal) (ha : x.surroundings = a) (hx : x.operation = .cleanup lease options w)
    (hu : Ready c s x lease record u) (blocked : CleanupReason → CleanupResult) :
    Program.Wp (KeepsSafe c s x) (cleanupRecord c a record options w blocked) (fun _ _ => True) u := by
  unfold cleanupRecord
  split
  · simp
  simp only [Program.wp_bind, Program.wp_ofExcept]
  cases hidentity : w.inspected.readPathIdentity record.lease.path with
  | error e => trivial
  | ok identity =>
  rw [Program.then_ok]
  split
  · simp
  next repoRoot hroot =>
  simp only [Program.wp_bind, Program.wp_ofExcept]
  cases w.inspected.readGitWorktreeRegistration repoRoot record.lease.path with
  | error e => trivial
  | ok registration =>
  rw [Program.then_ok]
  split
  · simp
  cases identity with
  | some identity =>
    dsimp only
    split
    · simp
    · exact removePresent_spec a hs hx hu hidentity options.now blocked repoRoot registration.isSome
  | none =>
    dsimp only
    split
    · simp
    have hinspects : x.Inspects lease.id lease.path none :=
      ⟨lease,options,w,hx,rfl,rfl,hu.opened.lease.2 ▸ hidentity⟩
    let y : LeaseAction P := ⟨a,.withCleanup lease [.release options.now none],x.ending⟩
    have hsealed : Sealed c s x u.events y := sealed_of_absent ha.symm rfl hinspects
    have hcontrol := cleanupControl_spec (x := y) (a := a) rfl hu.opened.active hu.opened.lease hu.opened.cleaning
      (List.mem_singleton_self _)
    rw [Program.wp_bind]
    refine (onManager_spec hs hsealed hu.safe hu.finished hcontrol).mono (fun _ _ ht => ht) ?_
    rintro (e | v) t -
    · trivial
    · simp

theorem cleanupLeasedWorktree_spec {lease : WorktreeLease} {options : CleanupLeaseOptions} {w : CleanupWorlds}
    (hs : Safe c s x s) (hfinished : Finished c s s.manager.journal) (ha : x.surroundings = a)
    (hx : x.operation = .cleanup lease options w) :
    Program.Wp (KeepsSafe c s x) (cleanupLeasedWorktree c a lease options w) (fun _ _ => True) s := by
  have hopen := openCleanup_spec (c := c) (y := settling x) a (k := s.manager.drawn) ha (by simp [settling]) hs.sound rfl lease
  simp only [cleanupLeasedWorktree, Program.wp_tryCatch, Program.wp_bind]
  refine (onManager_spec hs.secured settling_sealed hs hfinished hopen).mono (fun _ _ ht => ht) ?_
  rintro (e | record) t ⟨ht,htf,_,hok⟩
  · rw [Program.then_error, Program.caught_error]
    split <;> simp
  · rw [Program.then_ok]
    refine (cleanupRecord_spec a hs.secured ha hx ⟨ht,htf,hok record rfl⟩ _).mono (fun _ _ hv => hv) ?_
    rintro (e | result) v -
    · rw [Program.caught_error]
      split <;> simp
    · trivial

theorem recoverStaleLease_spec {inspection : StaleRecoveryInspection} {m : LeaseManagerState P} {k : ℕ}
    (hop : y.operation = .withCleanup inspection.lease [.release inspection.now (some .recovery)])
    (ha : y.surroundings = a) (h : m.ledger.Sound (.core c.toLedgerFormat)) (hk : m.drawn = k) (w : CleanupWorld) :
    Program.Wp (Traces c y False k) (recoverStaleLease c a inspection w) (Ends c fun _ _ => True) m := by
  rw [recoverStaleLease]
  dsimp only
  split
  · rw [Program.wp_pure]
    exact ends_ok.mpr ⟨h,trivial⟩
  rw [Program.wp_bind]
  refine (openCleanup_spec a ha (by simp [hop]) h hk inspection.lease).mono (fun _ _ ht => ht) ?_
  rintro (e | record) t ht
  · exact Ends.stop ht.1 e
  obtain ⟨hsound,hopened⟩ := ht
  have hopened := hopened record rfl
  rw [Program.then_ok]
  split
  · rw [Program.wp_pure]
    exact ends_ok.mpr ⟨hsound,trivial⟩
  split
  · rw [Program.wp_pure]
    exact ends_ok.mpr ⟨hsound,trivial⟩
  rw [Program.wp_bind, Program.wp_ofExcept]
  cases inspectRecovery record inspection w _ with
  | error e => exact Ends.stop hsound e
  | ok inspected =>
  rw [Program.then_ok, Program.wp_bind]
  refine listRecords_wp hsound (fun records _ => ?_) (fun e => Ends.stop hsound _)
  rw [Program.then_ok]
  split
  · rw [Program.wp_bind]
    refine (cleanupControl_spec (a := a) hop hopened.active hopened.lease hopened.cleaning (List.mem_singleton_self _)).mono
      (fun _ _ hv => hv) ?_
    rintro (e | v) v hv
    · exact Ends.stop hv.1 e
    · rw [Program.then_ok, Program.wp_pure]
      exact ends_ok.mpr ⟨hv.1,trivial⟩
  · rw [Program.wp_pure]
    exact ends_ok.mpr ⟨hsound,trivial⟩

/-- Every action keeps every state that it publishes safe. -/
theorem action_spec (hraw : x.operation.isRawCleanup = false) (hs : Safe c s x s)
    (hfinished : Finished c s s.manager.journal) :
    Program.Wp (KeepsSafe c s x) (x.program c) (fun _ _ => True) s := by
  rw [WorktreeAction.program]
  cases hx : x.operation with
  | manage operation =>
    simp only [Program.wp_bind]
    let y : LeaseAction P := ⟨x.surroundings,operation,x.ending⟩
    have hcallback : y.operation.callback = [] := by
      rw [hx] at hraw
      cases operation with
      | withCleanup lease callback => cases hraw
      | _ => rfl
    have hcauses : .reconciliation ∉ y.operation.causes := by
      rw [hx] at hraw
      cases operation with
      | withCleanup lease callback => cases hraw
      | _ => simp [y, LeaseOperation.causes, LeaseOperation.callback]
    have hsealed : Sealed c s x s.events y :=
      sealed_of_causes rfl hcauses (by simp [hcallback]) (by simp [hcallback])
    refine (onManager_spec hs.secured hsealed hs hfinished
      (program_spec (x := y) hs.sound fun hf => hf.elim)).mono (fun _ _ ht => ht) ?_
    rintro (e | v) t -
    · trivial
    · simp
  | cleanup lease options w =>
    simp only [Program.wp_bind]
    refine (cleanupLeasedWorktree_spec x.surroundings hs hfinished rfl hx).mono (fun _ _ ht => ht) ?_
    rintro (e | v) t -
    · trivial
    · simp
  | recover inspection w =>
    simp only [Program.wp_bind]
    let y : LeaseAction P :=
      ⟨x.surroundings,.withCleanup inspection.lease [.release inspection.now (some .recovery)],x.ending⟩
    have hsealed : Sealed c s x s.events y := sealed_of_causes rfl
      (by simp [y, LeaseOperation.causes, LeaseOperation.callback, CleanupControl.cause])
      (by simp [y, LeaseOperation.callback]) (by simp [y, LeaseOperation.callback])
    refine (onManager_spec hs.secured hsealed hs hfinished
      (recoverStaleLease_spec (y := y) x.surroundings rfl rfl hs.sound rfl w)).mono (fun _ _ ht => ht) ?_
    rintro (e | v) t -
    · trivial
    · simp

end Programs

section Runs
variable {c : LeaseFormat} {s : CleanupState P} {x : WorktreeAction P}

/-- The store is sound and secured between actions. -/
structure Reachable (c : LeaseFormat) (s : CleanupState P) : Prop where
  sound : s.manager.ledger.Sound (.core c.toLedgerFormat)
  secured : Secured c s.events s.manager.journal

theorem Reachable.safe (h : Reachable c s) (x : WorktreeAction P) : Safe c s x s where
  sound := h.sound
  secured := h.secured
  progress := {
    drawn := Nat.le_refl _
    pending := fun _ _ hp => .inl hp
    releases := ⟨[],(List.append_nil _).symm,fun _ hr => (by cases hr),fun _ q hq hactive => .inl ⟨q,hq,hactive⟩⟩ }

theorem Reachable.finished (h : Reachable c s) : Finished c s s.manager.journal := by
  rintro id p hp ⟨n,hn,hid⟩
  exact absurd hid (h.secured.unused n hn id p hp)

theorem reachable_init : Reachable c (CleanupState.init : CleanupState P) where
  sound := AppendOnlyStore.State.Sound.init
  secured := {
    keyed := ⟨fun id q hq => (by cases hq),fun id p hp => by cases hp⟩
    unused := fun n _ id p hp => by cases hp
    done := fun id p removal hp => by cases hp
    begun := fun durable identity path h => by cases h }

variable [DecidableEq P]

/-- An action, wherever it ends, leaves a safe state. -/
theorem step_safe {t : CleanupState P} (hs : Reachable c s) (h : CleanupState.step c s x = some t) : Safe c s x t := by
  unfold CleanupState.step at h
  split at h
  · cases h
  next hraw =>
  have hspec := action_spec (by simpa using hraw) (hs.safe x) hs.finished
  have hkeeps : ∀ u v, KeepsSafe c s x u v → Safe c s x u → Safe c s x v := fun _ _ huv hu => huv hu
  split at h
  · cases h
    exact (hspec.invariant hkeeps (hs.safe x)).2
  · cases h
    exact hspec.crash hkeeps (hs.safe x) _
  · cases h
    have hend := hspec.crash hkeeps (hs.safe x)
    exact ⟨(hend _).sound.dropCache _,(hend _).secured,(hend _).progress⟩

theorem reachable_run {xs : List (WorktreeAction P)} (hs : Reachable c s) {t : CleanupState P}
    (h : run (CleanupState.step c) s xs = some t) : Reachable c t := by
  induction xs generalizing s with
  | nil =>
    cases h
    exact hs
  | cons x xs ih =>
    obtain ⟨u,hu,h⟩ := (run_cons_eq_some _).mp h
    have hsafe := step_safe hs hu
    exact ih ⟨hsafe.sound,hsafe.secured⟩ h

/-- In every run, whatever the world answers and wherever an action ends: a removal is begun only
with a prepared intent on disk that has the identity just read; an action stages a release for a
cleanup only where that cleanup found the path absent, and marks a removal done only where it was
reported done; and a lease that was active is so still, or its release is recorded for one of
the reasons of `ReleasedBy`. -/
theorem cleanup_safe (c : LeaseFormat) {xs : List (WorktreeAction P)} {s : CleanupState P}
    (h : run (CleanupState.step c) CleanupState.init xs = some s) :
    (∀ durable identity path, .removing durable identity path ∈ s.events → ∃ p, durable = some p ∧
      p.operation = .remove ∧ p.removal = some ⟨identity,.prepared⟩ ∧ identity.path = path) ∧
    ∀ x t, CleanupState.step c s x = some t →
      (∀ id p, t.durable id = some p → s.durable id = some p ∨ Staged x t.events p) ∧
      ∃ new, t.manager.releases = s.manager.releases ++ new ∧ (∀ r ∈ new, ReleasedBy c s x t.events r) ∧
        ∀ id q, s.manager.stored.records.get? id = some q → q.status = .active →
          (∃ r, t.manager.stored.records.get? id = some r ∧ r.status = .active) ∨ ∃ r ∈ new, r.lease.id = id := by
  have hs := reachable_run reachable_init h
  refine ⟨hs.secured.begun,fun x t ht => ?_⟩
  have hsafe := step_safe hs ht
  exact ⟨fun id p hp => (hsafe.progress.pending id p hp).imp_right fun hstaged => hstaged.2,hsafe.progress.releases⟩

end Runs

section Sample

def sampleCleanupWorld (there : Bool) : CleanupWorld :=
  { sampleTreeWorld there with
    readGitBranch := fun _ => .ok "a"
    getCurrentHostIdentity := "host"
    processId := 1 }

def sampleCleanupSurroundings (there : Bool) : Surroundings Bool :=
  { sampleReplay there with
    world := sampleTreeWorld true
    options := { (sampleReplay there).options with managedRoot := some ⟨[],0,0⟩ } }

/-- A lease with a worktree, and a cleanup that removes the worktree and then ends early. -/
def sampleCleanup (ending : AppendOnlyStore.Ending) : List (WorktreeAction Bool) :=
  [⟨sampleCleanupSurroundings true,.manage (.acquire (sampleRequest .exclusiveWrite)
      { sampleOptions 0 (some ["w","a"]) with repoRoot := some ["r"] }),.returns⟩,
   ⟨sampleCleanupSurroundings true,.cleanup sampleLease
      ⟨"host","uu",some ⟨1,"host",none,none⟩,none,none,none,none,some 1,none,none⟩
      ⟨sampleCleanupWorld true,sampleCleanupWorld true,sampleCleanupWorld true,fun _ _ => .ok ()⟩,ending⟩]

def sampleReconcile : WorktreeAction Bool := ⟨sampleCleanupSurroundings true,.manage .reconcile,.returns⟩

/-- The replay after a cleanup that ended once its removal was marked done. -/
theorem cleanup_safe_sample : ∃ s t, run (CleanupState.step sampleLeaseFormat) CleanupState.init
    (sampleCleanup (.crashes 7)) = some s ∧ CleanupState.step sampleLeaseFormat s sampleReconcile = some t ∧
    (∃ identity path p, .removing (some p) identity path ∈ s.events ∧ p.removal = some ⟨identity,.prepared⟩) ∧
    ∃ r ∈ t.manager.releases, ReleasedBy sampleLeaseFormat s sampleReconcile t.events r := by
  have hshape : (run (CleanupState.step sampleLeaseFormat) CleanupState.init (sampleCleanup (.crashes 7))).map (fun s =>
      (s.events.map (fun e => match e with
        | .removing _ identity path => some (identity,path)
        | .removed _ _ => none),s.manager.releases.length,
        (CleanupState.step sampleLeaseFormat s sampleReconcile).map (·.manager.releases.length))) =
      some ([some (⟨["w","a"],0,1⟩,["w","a"]),none],0,some 1) := by
    decide +kernel
  obtain ⟨s,hs,hshape⟩ := Option.map_eq_some_iff.mp hshape
  simp only [Prod.mk.injEq] at hshape
  obtain ⟨hevents,hbefore,hstep⟩ := hshape
  obtain ⟨t,ht,hafter⟩ := Option.map_eq_some_iff.mp hstep
  obtain ⟨hbegun,hsteps⟩ := cleanup_safe sampleLeaseFormat hs
  obtain ⟨-,new,hnew,hreasons,-⟩ := hsteps sampleReconcile t ht
  refine ⟨s,t,hs,ht,?_,?_⟩
  · cases hlist : s.events with
    | nil => simp [hlist] at hevents
    | cons e es =>
      cases e with
      | removed _ _ => simp [hlist] at hevents
      | removing durable identity path =>
        have hmem : CleanupEvent.removing durable identity path ∈ s.events := by simp [hlist]
        obtain ⟨p,rfl,_,hremoval,_⟩ := hbegun _ _ _ hmem
        exact ⟨identity,path,p,by simp,hremoval⟩
  · rw [List.length_eq_zero_iff.mp hbefore, List.nil_append] at hnew
    obtain ⟨r,hr⟩ := List.length_eq_one_iff.mp hafter
    exact ⟨r,by simp [hr],hreasons r (by simp [← hnew, hr])⟩

end Sample
end OmniagentPlus.WorktreeLeasing
