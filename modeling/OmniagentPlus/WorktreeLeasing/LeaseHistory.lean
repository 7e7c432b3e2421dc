import OmniagentPlus.Foundation.EventLog
import OmniagentPlus.WorktreeLeasing.LiveLeases

/-! The events that the local lease store keeps: they replay to its leases, and tell of each live one
its acquisition and what happened to it last. -/
namespace OmniagentPlus.WorktreeLeasing
open OmniagentPlus.Foundation OmniagentPlus.CoreContracts OmniagentPlus.StateLedger

/-- `events.length` is never over it. -/
def eventLimit : ℕ := 10000

/-- Acquisitions and renewals put the lease, releases and expiries delete it. -/
def LeaseEvent.outcome (e : LeaseEvent) : Option ConsiliencyLease :=
  match e.eventType with
  | .acquire | .renew => e.lease
  | .release | .expire => none

/-- The event of the acquisition of a lease. -/
def Acquisition (l : ConsiliencyLease) (e : LeaseEvent) : Prop :=
  e.eventType = .acquire ∧ e.leaseId = l.lease_id ∧ e.lease.map (·.acquired_at) = some l.acquired_at ∧
    e.holder = l.holder

/-- It is there, and what comes after it under its id are renewals. -/
def HasAcquisition (es : List LeaseEvent) (l : ConsiliencyLease) : Prop :=
  ∃ before e after, es = before ++ e :: after ∧ Acquisition l e ∧ ∀ x ∈ after, x.leaseId = l.lease_id → x.eventType = .renew

/-- What events tell of leases. -/
structure Recorded (leases : Dictionary Text ConsiliencyLease) (es : List LeaseEvent) : Prop where
  keyed : ∀ k l, leases.get? k = some l → l.lease_id = k
  mirrors : Mirrors LeaseEvent.leaseId LeaseEvent.outcome leases.get? es
  acquired : ∀ k l, leases.get? k = some l → HasAcquisition es l

section Events
variable {leases : Dictionary Text ConsiliencyLease} {es : List LeaseEvent}

lemma HasAcquisition.append {l : ConsiliencyLease} (h : HasAcquisition es l) {e : LeaseEvent}
    (he : e.leaseId = l.lease_id → e.eventType = .renew) : HasAcquisition (es ++ [e]) l := by
  obtain ⟨before,a,after,rfl,ha,hafter⟩ := h
  refine ⟨before,a,after ++ [e],by simp,ha,fun x hx => ?_⟩
  obtain hx | hx := List.mem_append.mp hx
  · exact hafter x hx
  · rw [List.mem_singleton.mp hx]
    exact he

lemma recorded_empty : Recorded .empty [] :=
  ⟨fun k l h => (by cases h),fun k => Or.inr ⟨fun e he => absurd he List.not_mem_nil,rfl⟩,fun k l h => (by cases h)⟩

/-- A put and its event. -/
lemma Recorded.put (h : Recorded leases es) {l : ConsiliencyLease} {e : LeaseEvent} (hid : e.leaseId = l.lease_id)
    (houtcome : e.outcome = some l) (hacquired : HasAcquisition (es ++ [e]) l) :
    Recorded (leases.set l.lease_id l) (es ++ [e]) := by
  constructor
  · intro k m hm
    rw [Dictionary.get?_set] at hm
    split_ifs at hm with hk
    · cases hm
      exact hk.symm
    · exact h.keyed k m hm
  · have happend := h.mirrors.append e
    have hlive : (fun k => if k = e.leaseId then e.outcome else leases.get? k) = (leases.set l.lease_id l).get? := by
      funext k
      rw [Dictionary.get?_set, hid, houtcome]
    rwa [hlive] at happend
  · intro k m hm
    rw [Dictionary.get?_set] at hm
    split_ifs at hm with hk
    · cases hm
      exact hacquired
    · refine (h.acquired k m hm).append fun heq => absurd ?_ hk
      rw [← h.keyed k m hm, ← heq, hid]

/-- A deletion and its event. -/
lemma Recorded.delete (h : Recorded leases es) {e : LeaseEvent} (houtcome : e.outcome = none) :
    Recorded (leases.erase e.leaseId) (es ++ [e]) := by
  constructor
  · intro k m hm
    rw [Dictionary.get?_erase] at hm
    split_ifs at hm
    exact h.keyed k m hm
  · have happend := h.mirrors.append e
    have hlive : (fun k => if k = e.leaseId then e.outcome else leases.get? k) = (leases.erase e.leaseId).get? := by
      funext k
      rw [Dictionary.get?_erase, houtcome]
    rwa [hlive] at happend
  · intro k m hm
    rw [Dictionary.get?_erase] at hm
    split_ifs at hm with hk
    refine (h.acquired k m hm).append fun heq => absurd ?_ hk
    rw [← h.keyed k m hm, ← heq]

/-- The sweep of expired leases. -/
lemma Recorded.expireState {state : LocalLeaseStoreState} (h : Recorded state.leases state.events) (now : ℤ) :
    Recorded (expireState state now).1.leases (expireState state now).1.events := by
  have hfold : ∀ (entries : List (Text × ConsiliencyLease)) (acc : LocalLeaseStoreState × ℕ),
      Recorded acc.1.leases acc.1.events → Recorded (entries.foldl (expireLease now) acc).1.leases
        (entries.foldl (expireLease now) acc).1.events := by
    intro entries
    induction entries with
    | nil => exact fun acc hacc => hacc
    | cons e entries ih =>
      intro acc hacc
      rw [List.foldl_cons]
      apply ih
      unfold expireLease
      split_ifs
      · exact hacc.delete (rfl : LeaseEvent.outcome ⟨.expire,e.1,e.2.holder,some e.2,now,some "ttl_expired"⟩ = none)
      · exact hacc
  exact hfold _ _ h

end Events

section Prune

/-- The places that stay are those that are kept, and all from some place on. -/
lemma pruneEvents_eq (kept : List ℕ) (remove n : ℕ) (es : List LeaseEvent) :
    ∃ cut, n ≤ cut ∧ pruneEvents kept remove (es.zipIdx n) =
      ((es.zipIdx n).filter fun e => kept.contains e.2 || decide (cut ≤ e.2)).map Prod.fst := by
  induction es generalizing remove n with
  | nil => exact ⟨n,Nat.le_refl n,by cases remove <;> rfl⟩
  | cons e es ih =>
    rw [List.zipIdx_cons]
    cases remove with
    | zero =>
      refine ⟨n,Nat.le_refl n,?_⟩
      have hzero : pruneEvents kept 0 ((e,n) :: es.zipIdx (n + 1)) = ((e,n) :: es.zipIdx (n + 1)).map Prod.fst := rfl
      rw [hzero, List.filter_eq_self.mpr]
      intro x hx
      have hplace : n ≤ x.2 := by
        rw [← List.zipIdx_cons] at hx
        exact List.le_snd_of_mem_zipIdx hx
      simp [hplace]
    | succ remove =>
      rw [pruneEvents]
      split_ifs with hkept
      · obtain ⟨cut,hcut,heq⟩ := ih (remove + 1) (n + 1)
        refine ⟨cut,by omega,?_⟩
        rw [heq, List.filter_cons_of_pos (by rw [hkept]; rfl)]
        rfl
      · obtain ⟨cut,hcut,heq⟩ := ih remove (n + 1)
        refine ⟨cut,by omega,?_⟩
        have hgone : ¬ cut ≤ n := by omega
        have hcut : ¬ (kept.contains n || decide (cut ≤ n)) = true := by
          rw [decide_eq_false hgone, Bool.or_false]
          exact hkept
        rw [heq, List.filter_cons, if_neg hcut]

/-- So many go as should, or only what is kept stays. -/
lemma length_pruneEvents (kept : List ℕ) (remove : ℕ) (es : List (LeaseEvent × ℕ)) :
    (pruneEvents kept remove es).length ≤ (es.filter fun e => kept.contains e.2).length ∨
      (pruneEvents kept remove es).length + remove = es.length := by
  induction es generalizing remove with
  | nil => exact Or.inl (by cases remove <;> exact Nat.le_refl 0)
  | cons e es ih =>
    cases remove with
    | zero =>
      have hzero : pruneEvents kept 0 (e :: es) = (e :: es).map Prod.fst := rfl
      rw [hzero, List.length_map]
      exact Or.inr rfl
    | succ remove =>
      rw [pruneEvents, List.filter_cons]
      split_ifs with hkept
      · simp only [List.length_cons]
        exact (ih (remove + 1)).imp Nat.succ_le_succ fun h => by omega
      · rw [List.length_cons]
        exact (ih remove).imp id fun h => by omega

variable {state : LocalLeaseStoreState}

/-- The lease id of an event of a live lease. -/
def liveId (leases : Dictionary Text ConsiliencyLease) (e : LeaseEvent) : Option Text :=
  (leases.get? e.leaseId).map (·.lease_id)

/-- That of the acquisition of a live lease. -/
def acquiredId (leases : Dictionary Text ConsiliencyLease) (e : LeaseEvent) : Option Text :=
  (leases.get? e.leaseId).bind fun lease =>
    if e.eventType = .acquire ∧ e.lease.map (·.acquired_at) = some lease.acquired_at ∧ e.holder = lease.holder then
      some lease.lease_id
    else none

lemma protectedIndices_eq (state : LocalLeaseStoreState) : protectedIndices state =
    ((lastPlaces (liveId state.leases) state.events.zipIdx).values ++
      (lastPlaces (acquiredId state.leases) state.events.zipIdx).values).eraseDups := by
  unfold protectedIndices lastPlaces
  dsimp only
  congr 4
  · funext m e
    unfold liveId
    cases state.leases.get? e.1.leaseId <;> rfl
  · funext m e
    unfold acquiredId
    cases state.leases.get? e.1.leaseId with
    | none => rfl
    | some lease =>
      simp only [Option.bind_some]
      split_ifs <;> rfl

/-- What stays of the events when they are written. -/
lemma trimmed_pruneEvents (state : LocalLeaseStoreState) (remove : ℕ) : ∃ stays,
    Trimmed (· ∈ protectedIndices state) state.events (pruneEvents (protectedIndices state) remove state.events.zipIdx)
      stays := by
  obtain ⟨cut,-,heq⟩ := pruneEvents_eq (protectedIndices state) remove 0 state.events
  refine ⟨fun i => (protectedIndices state).contains i || decide (cut ≤ i),⟨fun i hi => ?_,fun i j hji hgone hstays => ?_,heq⟩⟩
  · simp [hi]
  · simp only [Bool.or_eq_false_iff, decide_eq_false_iff_not, Bool.or_eq_true, List.contains_iff_mem,
      decide_eq_true_eq] at hgone hstays
    exact hstays.resolve_right fun hcut => hgone.2 (le_trans hcut hji)

variable {leases : Dictionary Text ConsiliencyLease} {es : List LeaseEvent}

lemma mem_protectedIndices {i : ℕ} : i ∈ protectedIndices state ↔
    (∃ k, (lastPlaces (liveId state.leases) state.events.zipIdx).get? k = some i) ∨
      ∃ k, (lastPlaces (acquiredId state.leases) state.events.zipIdx).get? k = some i := by
  rw [protectedIndices_eq, List.mem_eraseDups, List.mem_append, Dictionary.mem_values_iff, Dictionary.mem_values_iff]

/-- Only events of live leases are kept. -/
lemma live_of_protected {i : ℕ} {e : LeaseEvent} (hi : state.events[i]? = some e) (h : i ∈ protectedIndices state) :
    (state.leases.get? e.leaseId).isSome := by
  have hplace : ∀ {x : LeaseEvent}, (x,i) ∈ state.events.zipIdx → x = e := fun hx =>
    Option.some.inj ((List.mem_zipIdx_iff_getElem?.mp hx).symm.trans hi)
  obtain ⟨k,hk⟩ | ⟨k,hk⟩ := mem_protectedIndices.mp h
  · obtain ⟨x,hx,hid⟩ := mem_of_lastPlaces hk
    rw [← hplace hx]
    obtain ⟨lease,hlease,-⟩ := Option.map_eq_some_iff.mp hid
    rw [hlease]
    rfl
  · obtain ⟨x,hx,hid⟩ := mem_of_lastPlaces hk
    rw [← hplace hx]
    obtain ⟨lease,hlease,-⟩ := Option.bind_eq_some_iff.mp hid
    rw [hlease]
    rfl

/-- The split of a log with its places. -/
lemma zipIdx_split (before after : List LeaseEvent) (e : LeaseEvent) :
    (before ++ e :: after).zipIdx = before.zipIdx ++ (e,before.length) :: after.zipIdx (before.length + 1) := by
  rw [List.zipIdx_append, List.zipIdx_cons, Nat.zero_add]

/-- The last event of a live lease is kept. -/
lemma protected_last (hkeyed : ∀ k l, state.leases.get? k = some l → l.lease_id = k) {before after : List LeaseEvent}
    {e : LeaseEvent} (hsplit : state.events = before ++ e :: after) (hlive : (state.leases.get? e.leaseId).isSome)
    (hafter : ∀ x ∈ after, x.leaseId ≠ e.leaseId) : before.length ∈ protectedIndices state := by
  obtain ⟨lease,hlease⟩ := Option.isSome_iff_exists.mp hlive
  refine mem_protectedIndices.mpr (Or.inl ⟨e.leaseId,?_⟩)
  rw [hsplit, zipIdx_split]
  refine get?_lastPlaces ?_ fun x hx hid => ?_
  · change (state.leases.get? e.leaseId).map (·.lease_id) = some e.leaseId
    rw [hlease, Option.map_some, hkeyed _ _ hlease]
  · obtain ⟨other,hother,hsame⟩ := Option.map_eq_some_iff.mp hid
    rw [hkeyed _ _ hother] at hsame
    exact hafter x.1 (List.fst_mem_of_mem_zipIdx hx) hsame

/-- The acquisition of a live lease is kept. -/
lemma protected_acquisition (hkeyed : ∀ k l, state.leases.get? k = some l → l.lease_id = k)
    {before after : List LeaseEvent} {e : LeaseEvent} {l : ConsiliencyLease} (hsplit : state.events = before ++ e :: after)
    (hlive : state.leases.get? l.lease_id = some l) (he : Acquisition l e)
    (hafter : ∀ x ∈ after, x.leaseId = l.lease_id → x.eventType = .renew) : before.length ∈ protectedIndices state := by
  obtain ⟨htype,hid,htime,hholder⟩ := he
  refine mem_protectedIndices.mpr (Or.inr ⟨l.lease_id,?_⟩)
  rw [hsplit, zipIdx_split]
  refine get?_lastPlaces ?_ fun x hx hfound => ?_
  · change (state.leases.get? e.leaseId).bind _ = some l.lease_id
    rw [hid, hlive, Option.bind_some, if_pos ⟨htype,htime,hholder⟩]
  · obtain ⟨other,hother,hsame⟩ := Option.bind_eq_some_iff.mp hfound
    split_ifs at hsame with hacquire
    have hkey : x.1.leaseId = l.lease_id := by
      rw [← Option.some.inj hsame, hkeyed _ _ hother]
    rw [hafter x.1 (List.fst_mem_of_mem_zipIdx hx) hkey] at hacquire
    exact absurd hacquire.1 (by decide)

/-- Trimming loses nothing that the events tell. -/
lemma Recorded.trim (h : Recorded state.leases state.events) (remove : ℕ) :
    Recorded state.leases (pruneEvents (protectedIndices state) remove state.events.zipIdx) := by
  obtain ⟨stays,htrim⟩ := trimmed_pruneEvents state remove
  refine ⟨h.keyed,h.mirrors.trim htrim (fun before e after hsplit hlive hafter => ?_) (fun i e hi hkept => ?_),fun k l hl => ?_⟩
  · exact protected_last h.keyed hsplit hlive hafter
  · exact live_of_protected hi hkept
  · obtain ⟨before,e,after,hsplit,he,hafter⟩ := h.acquired k l hl
    have hkept := protected_acquisition h.keyed hsplit (by rw [h.keyed k l hl]; exact hl) he hafter
    have hstays := htrim.kept_stays _ hkept
    rw [hsplit] at htrim
    obtain ⟨before',after',heq,-,hsub⟩ := trimmed_of_stays htrim hstays
    rw [← hsplit] at heq
    exact ⟨before',e,after',heq,he,fun x hx => hafter x (hsub.mem hx)⟩

end Prune

/-- What is stored: events within the limit, which tell of the leases. -/
def HistoryKept (file : Option LocalLeaseStoreState) : Prop :=
  ∀ s ∈ file, s.events.length ≤ eventLimit ∧ Recorded s.leases s.events

section Written
variable {state written : LocalLeaseStoreState} {now : ℤ}

lemma writeState_kept (h : writeState state now = .ok written) (hstate : Recorded state.leases state.events) :
    HistoryKept (some written) := by
  unfold writeState at h
  dsimp only at h
  split_ifs at h with hleases hkept
  cases h
  intro s hs
  cases hs
  refine ⟨?_,hstate.trim _⟩
  have hplaces : (state.events.zipIdx.filter fun e => (protectedIndices state).contains e.2).length ≤
      (protectedIndices state).length := by
    have hnodup : ((state.events.zipIdx.filter fun e => (protectedIndices state).contains e.2).map Prod.snd).Nodup := by
      refine (List.filter_sublist.map _).nodup ?_
      rw [List.zipIdx_map_snd]
      exact List.nodup_range'
    rw [← List.length_map]
    refine hnodup.length_le_of_subset fun i hi => ?_
    obtain ⟨e,he,rfl⟩ := List.mem_map.mp hi
    simpa using (List.mem_filter.mp he).2
  obtain hfew | hrest := length_pruneEvents (protectedIndices state) (state.events.length - 10000) state.events.zipIdx
  · exact le_trans hfew (le_trans hplaces (Nat.le_of_not_lt hkept))
  · rw [List.length_zipIdx] at hrest
    change (pruneEvents _ _ _).length ≤ 10000
    omega

/-- What is read back is what was kept. -/
lemma readState_kept {file : Option LocalLeaseStoreState} (hfile : HistoryKept file) (h : readState file now = .ok state) :
    Recorded state.leases state.events := by
  unfold readState at h
  cases file with
  | none =>
    cases h
    exact recorded_empty
  | some s =>
    dsimp only at h
    split_ifs at h
    cases h
    exact (hfile state rfl).2

end Written

section Operations
variable {file written : Option LocalLeaseStoreState}

theorem acquire_kept (hfile : HistoryKept file) {request : LeaseAcquireRequest} {prepared clock : ℤ} {uuid : Text}
    {result : LeaseAcquireResult} (h : acquire file request prepared clock uuid = .ok (result,written)) :
    HistoryKept (written.or file) := by
  unfold acquire at h
  obtain ⟨draft,-,h⟩ := except_bind_eq_ok.mp h
  obtain ⟨lease,-,h⟩ := except_bind_eq_ok.mp h
  obtain ⟨state,hread,h⟩ := except_bind_eq_ok.mp h
  have hswept := (readState_kept hfile hread).expireState (toContractTimestamp (request.now.getD clock))
  dsimp only at h
  generalize (expireState state (toContractTimestamp (request.now.getD clock))).1 = swept at h hswept
  cases hexisting : swept.leases.get? lease.lease_id with
  | some existing =>
    rw [hexisting] at h
    obtain ⟨t,ht,h⟩ := except_bind_eq_ok.mp h
    cases h
    exact writeState_kept ht hswept
  | none =>
    rw [hexisting] at h
    dsimp only at h
    cases hconflict : findConflict swept lease with
    | some conflict =>
      rw [hconflict] at h
      obtain ⟨t,ht,h⟩ := except_bind_eq_ok.mp h
      cases h
      exact writeState_kept ht hswept
    | none =>
      rw [hconflict] at h
      obtain ⟨t,ht,h⟩ := except_bind_eq_ok.mp h
      cases h
      refine writeState_kept ht (hswept.put rfl rfl ?_)
      exact ⟨swept.events,_,[],rfl,⟨rfl,rfl,rfl,rfl⟩,fun x hx => absurd hx List.not_mem_nil⟩

theorem renew_kept (hfile : HistoryKept file) {leaseId holder : Text} {ttlSeconds requested : Option ℤ} {clock : ℤ}
    {result : LeaseRenewResult} (h : renew file leaseId holder ttlSeconds requested clock = .ok (result,written)) :
    HistoryKept (written.or file) := by
  unfold renew at h
  obtain ⟨-,-,h⟩ := except_bind_eq_ok.mp h
  obtain ⟨state,hread,h⟩ := except_bind_eq_ok.mp h
  have hswept := (readState_kept hfile hread).expireState (toContractTimestamp (requested.getD clock))
  dsimp only at h
  have hlive : ∀ k l, (expireState state (toContractTimestamp (requested.getD clock))).1.leases.get? k = some l →
      isLeaseExpired l (toContractTimestamp (requested.getD clock)) = false := fun k l hl =>
    (stored_of_swept hread hl).2
  generalize (expireState state (toContractTimestamp (requested.getD clock))).1 = swept at h hswept hlive
  cases hexisting : swept.leases.get? leaseId with
  | none =>
    rw [hexisting] at h
    obtain ⟨t,ht,h⟩ := except_bind_eq_ok.mp h
    cases h
    exact writeState_kept ht hswept
  | some existing =>
    rw [hexisting] at h
    dsimp only at h
    split_ifs at h with hholder hexpired
    · cases h
      exact hfile
    · rw [hlive leaseId existing hexisting] at hexpired
      cases hexpired
    · obtain ⟨lease,hlease,h⟩ := except_bind_eq_ok.mp h
      obtain ⟨t,ht,h⟩ := except_bind_eq_ok.mp h
      cases h
      have hfields := parseLease_eq_ok.mp hlease
      have hid : lease.lease_id = leaseId := by
        rw [hfields]
        exact hswept.keyed leaseId existing hexisting
      have hsame : Acquisition lease = Acquisition existing := by
        unfold Acquisition
        rw [hfields]
      subst hid
      refine writeState_kept ht (hswept.put rfl rfl ?_)
      obtain ⟨before,e,after,heq,he,hafter⟩ := (hswept.acquired _ existing hexisting).append
        (e := ⟨.renew,lease.lease_id,holder,some lease,toContractTimestamp (requested.getD clock),none⟩) fun _ => rfl
      refine ⟨before,e,after,heq,hsame ▸ he,fun x hx hkey => hafter x hx ?_⟩
      rw [hkey, hswept.keyed _ existing hexisting]

theorem release_kept (hfile : HistoryKept file) {leaseId holder : Text} {requested : Option ℤ} {clock : ℤ}
    {result : LeaseReleaseResult} (h : release file leaseId holder requested clock = .ok (result,written)) :
    HistoryKept (written.or file) := by
  unfold release at h
  obtain ⟨-,-,h⟩ := except_bind_eq_ok.mp h
  obtain ⟨state,hread,h⟩ := except_bind_eq_ok.mp h
  have hswept := (readState_kept hfile hread).expireState (toContractTimestamp (requested.getD clock))
  dsimp only at h
  generalize (expireState state (toContractTimestamp (requested.getD clock))).1 = swept at h hswept
  cases hexisting : swept.leases.get? leaseId with
  | none =>
    rw [hexisting] at h
    obtain ⟨t,ht,h⟩ := except_bind_eq_ok.mp h
    cases h
    exact writeState_kept ht hswept
  | some existing =>
    rw [hexisting] at h
    dsimp only at h
    split_ifs at h with hholder
    · cases h
      exact hfile
    · obtain ⟨t,ht,h⟩ := except_bind_eq_ok.mp h
      cases h
      have hdeleted := hswept.delete
        (e := ⟨.release,leaseId,holder,some existing,toContractTimestamp (requested.getD clock),none⟩) rfl
      exact writeState_kept ht hdeleted

theorem expire_kept (hfile : HistoryKept file) {instant : ℤ} {expired : ℕ} (h : expire file instant = .ok (expired,written)) :
    HistoryKept (written.or file) := by
  unfold expire at h
  obtain ⟨state,hread,h⟩ := except_bind_eq_ok.mp h
  have hswept := (readState_kept hfile hread).expireState (toContractTimestamp instant)
  dsimp only at h
  obtain ⟨t,ht,h⟩ := except_bind_eq_ok.mp h
  cases h
  exact writeState_kept ht hswept

/-- What an operation stores is kept, if what it writes is. -/
lemma stored_kept {ρ : Type} (hfile : HistoryKept file) {x : Except LeaseStoreError (ρ × Option LocalLeaseStoreState)}
    (h : ∀ result written, x = .ok (result,written) → HistoryKept (written.or file)) : HistoryKept (stored file x) := by
  cases x with
  | error e => exact hfile
  | ok answer =>
    obtain ⟨result,written⟩ := answer
    have hkept := h result written rfl
    cases written with
    | none => exact hfile
    | some t => exact hkept

/-- An operation leaves a history that is kept. -/
theorem step_kept (hfile : HistoryKept file) {a : LeaseStoreAction} {next : Option LocalLeaseStoreState}
    (h : leaseStoreStep file a = some next) : HistoryKept next := by
  cases a with
  | acquire request prepared clock uuid =>
    cases h
    exact stored_kept hfile fun _ _ hresult => acquire_kept hfile hresult
  | renew leaseId holder ttl requested clock =>
    cases h
    exact stored_kept hfile fun _ _ hresult => renew_kept hfile hresult
  | release leaseId holder requested clock =>
    cases h
    exact stored_kept hfile fun _ _ hresult => release_kept hfile hresult
  | query q clock =>
    cases h
    exact hfile
  | expire instant =>
    cases h
    exact stored_kept hfile fun _ _ hresult => expire_kept hfile hresult

end Operations

/-- The events that a run leaves are within the limit and replay to its leases, and of each live lease
its acquisition and its last event, which put it as it is stored, are among them. -/
theorem run_history {actions : List LeaseStoreAction} {s : LocalLeaseStoreState}
    (h : run leaseStoreStep none actions = some (some s)) : s.events.length ≤ eventLimit ∧
      (∀ k, (replay LeaseEvent.leaseId LeaseEvent.outcome s.events).get? k = s.leases.get? k) ∧
        ∀ k l, s.leases.get? k = some l →
          HasAcquisition s.events l ∧ ∃ e, LastOf LeaseEvent.leaseId k s.events e ∧ e.outcome = some l := by
  have hkept : HistoryKept (some s) :=
    run_invariant leaseStoreStep (fun _ _ _ hfile hstep => step_kept hfile hstep) (fun s hs => (by cases hs)) h
  obtain ⟨hlength,hrecorded⟩ := hkept s rfl
  refine ⟨hlength,hrecorded.mirrors.get?_replay,fun k l hl => ⟨hrecorded.acquired k l hl,?_⟩⟩
  obtain ⟨e,he,houtcome⟩ | ⟨-,hdead⟩ := hrecorded.mirrors k
  · exact ⟨e,he,houtcome.trans hl⟩
  · rw [hdead] at hl
    cases hl

/-- A lease that is acquired and renewed. -/
def renewedRun : List LeaseStoreAction :=
  [.acquire ⟨some (Text.of "build"),Text.of "agent",60,.hard,⟨.pathSet,[Text.of "src"]⟩,Text.of "plan",none⟩ 0 0 [],
    .renew (Text.of "build") (Text.of "agent") none none 30000]

theorem renewedRun_history : ∃ s, run leaseStoreStep none renewedRun = some (some s) ∧
    (s.events.length ≤ eventLimit ∧
      (∀ k, (replay LeaseEvent.leaseId LeaseEvent.outcome s.events).get? k = s.leases.get? k) ∧
        ∀ k l, s.leases.get? k = some l →
          HasAcquisition s.events l ∧ ∃ e, LastOf LeaseEvent.leaseId k s.events e ∧ e.outcome = some l) := by
  have hsome : ((run leaseStoreStep none renewedRun).bind id).isSome = true := by decide +kernel
  obtain ⟨s,hs⟩ := Option.isSome_iff_exists.mp hsome
  obtain ⟨file,hrun,rfl⟩ := Option.bind_eq_some_iff.mp hs
  exact ⟨s,hrun,run_history hrun⟩

end OmniagentPlus.WorktreeLeasing
