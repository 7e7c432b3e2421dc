import OmniagentPlus.Coordinator.LeaseArbiter

/-! Launches that arbiters allow over one lease file: a lease stays until its holder releases it or an operation
finds it out of date, and so long no other hard launch goes where it is. -/
namespace OmniagentPlus.Coordinator
open OmniagentPlus.Foundation OmniagentPlus.CoreContracts OmniagentPlus.StateLedger OmniagentPlus.WorktreeLeasing

section Keeping

/-- A lease that a launch was allowed by, whatever its heartbeat and its time to live are by now. -/
structure ClaimOf (r : ArbitratedRoute) (q : ConsiliencyLease) : Prop where
  holder : q.holder = r.holder
  mode : q.mode = r.mode
  scope : q.scope = r.scope

/-- Such a lease is stored under a key. -/
def Stands (file : Option LocalLeaseStoreState) (k : Text) (r : ArbitratedRoute) : Prop :=
  ∃ s q, file = some s ∧ s.leases.get? k = some q ∧ ClaimOf r q

/-- The reading by which an operation tells what is out of date. -/
def actedAt (a : LeaseStoreAction) : ℤ := toContractTimestamp (a.now.getD a.clock)

/-- An operation that the lease does not outlast: its release by its holder, or one by whose clock it is past. -/
def Frees (file : Option LocalLeaseStoreState) (k : Text) (r : ArbitratedRoute) (a : LeaseStoreAction) : Prop :=
  (∃ requested clock, a = .release k r.holder requested clock) ∨
    ∃ s q, file = some s ∧ s.leases.get? k = some q ∧ ClaimOf r q ∧ isLeaseExpired q (actedAt a) = true

variable {file : Option LocalLeaseStoreState} {k : Text} {r : ArbitratedRoute}

/-- What an operation that the lease outlasts reads has it. -/
lemma swept_of_stands {a : LeaseStoreAction} {state : LocalLeaseStoreState} (h : Stands file k r) (hkept : ¬Frees file k r a)
    (hread : readState file (actedAt a) = .ok state) :
    ∃ q, (expireState state (actedAt a)).1.leases.get? k = some q ∧ ClaimOf r q := by
  obtain ⟨s,q,rfl,hq,hsame⟩ := h
  have hlive : isLeaseExpired q (actedAt a) = false := by
    by_contra hpast
    exact hkept (Or.inr ⟨s,q,rfl,hq,hsame,by simpa using hpast⟩)
  unfold readState at hread
  dsimp only at hread
  split_ifs at hread
  cases hread
  refine ⟨q,?_,hsame⟩
  rw [get?_expireState, hq, Option.filter_some, hlive]
  rfl

/-- What an `acquire` answers, and what it writes. -/
theorem acquire_answer {request : LeaseAcquireRequest} {prepared clock : ℤ} {uuid : Text} {result : LeaseAcquireResult}
    {written : Option LocalLeaseStoreState} (h : acquire file request prepared clock uuid = .ok (result,written)) :
    ∃ state t lease, readState file (toContractTimestamp (request.now.getD clock)) = .ok state ∧ written = some t ∧
      lease.lease_id = request.leaseId.getD (Text.of "lease:" ++ uuid) ∧ lease.mode = request.mode ∧
      let swept := (expireState state (toContractTimestamp (request.now.getD clock))).1
      (result = ⟨true,some lease,none,none⟩ ∧ t.leases = swept.leases.set lease.lease_id lease ∧
          swept.leases.get? lease.lease_id = none ∧ findConflict swept lease = none) ∨
        ∃ conflict, result = ⟨false,none,some conflict,some .conflict⟩ ∧ t.leases = swept.leases ∧
          (swept.leases.get? lease.lease_id = some conflict ∨ findConflict swept lease = some conflict) := by
  unfold acquire at h
  obtain ⟨draft,hdraft,h⟩ := except_bind_eq_ok.mp h
  obtain ⟨lease,hlease,h⟩ := except_bind_eq_ok.mp h
  obtain ⟨state,hstate,h⟩ := except_bind_eq_ok.mp h
  have hfields := parseLease_eq_ok.mp hlease
  have hdrafted := parseLease_eq_ok.mp hdraft
  have hid : lease.lease_id = request.leaseId.getD (Text.of "lease:" ++ uuid) := by rw [hfields, hdrafted]
  have hmode : lease.mode = request.mode := by rw [hfields, hdrafted]
  refine ⟨state,?_⟩
  dsimp only at h
  split at h
  · next existing hget =>
    obtain ⟨t,ht,h⟩ := except_bind_eq_ok.mp h
    cases h
    exact ⟨t,lease,hstate,rfl,hid,hmode,Or.inr ⟨existing,rfl,writeState_leases ht,Or.inl hget⟩⟩
  · next hnone =>
    split at h
    · next conflict hfind =>
      obtain ⟨t,ht,h⟩ := except_bind_eq_ok.mp h
      cases h
      exact ⟨t,lease,hstate,rfl,hid,hmode,Or.inr ⟨conflict,rfl,writeState_leases ht,Or.inr hfind⟩⟩
    · next hfind =>
      obtain ⟨t,ht,h⟩ := except_bind_eq_ok.mp h
      cases h
      exact ⟨t,lease,hstate,rfl,hid,hmode,Or.inl ⟨rfl,writeState_leases ht,hnone,hfind⟩⟩

lemma stands_of_get? {t : LocalLeaseStoreState} {q : ConsiliencyLease} (hget : t.leases.get? k = some q)
    (hsame : ClaimOf r q) : Stands (some t) k r := ⟨t,q,rfl,hget,hsame⟩

lemma acquire_keeps {request : LeaseAcquireRequest} {prepared clock : ℤ} {uuid : Text} {result : LeaseAcquireResult}
    {written : Option LocalLeaseStoreState} (h : Stands file k r)
    (hkept : ¬Frees file k r (.acquire request prepared clock uuid))
    (hok : acquire file request prepared clock uuid = .ok (result,written)) : ∃ t, written = some t ∧ Stands (some t) k r := by
  obtain ⟨state,t,lease,hstate,rfl,-,-,hcases⟩ := acquire_answer hok
  obtain ⟨q,hq,hsame⟩ := swept_of_stands h hkept hstate
  change (expireState state (toContractTimestamp (request.now.getD clock))).1.leases.get? k = some q at hq
  refine ⟨t,rfl,?_⟩
  obtain ⟨-,hleases,hnone,-⟩ | ⟨-,-,hleases,-⟩ := hcases
  · refine stands_of_get? ?_ hsame
    rw [hleases, Dictionary.get?_set, if_neg, hq]
    rintro rfl
    cases hnone.symm.trans hq
  · exact stands_of_get? (by rw [hleases, hq]) hsame

lemma renew_keeps {leaseId holder : Text} {ttl requested : Option ℤ} {clock : ℤ} {result : LeaseRenewResult}
    {written : Option LocalLeaseStoreState} (h : Stands file k r)
    (hkept : ¬Frees file k r (.renew leaseId holder ttl requested clock))
    (hok : renew file leaseId holder ttl requested clock = .ok (result,written)) :
    written = none ∨ ∃ t, written = some t ∧ Stands (some t) k r := by
  unfold renew at hok
  obtain ⟨-,-,hok⟩ := except_bind_eq_ok.mp hok
  obtain ⟨state,hstate,hok⟩ := except_bind_eq_ok.mp hok
  obtain ⟨q,hq,hsame⟩ := swept_of_stands h hkept hstate
  change (expireState state (toContractTimestamp (requested.getD clock))).1.leases.get? k = some q at hq
  dsimp only at hok
  split at hok
  · obtain ⟨t,ht,hok⟩ := except_bind_eq_ok.mp hok
    cases hok
    exact Or.inr ⟨t,rfl,stands_of_get? (by rw [writeState_leases ht, hq]) hsame⟩
  · next existing hget =>
    split at hok
    · cases hok
      exact Or.inl rfl
    · split at hok
      · next hpast =>
        obtain ⟨t,ht,hok⟩ := except_bind_eq_ok.mp hok
        cases hok
        rw [get?_expireState] at hget
        obtain ⟨-,hlive⟩ := Option.filter_eq_some_iff.mp hget
        rw [hpast] at hlive
        cases hlive
      · obtain ⟨lease,hlease,hok⟩ := except_bind_eq_ok.mp hok
        obtain ⟨t,ht,hok⟩ := except_bind_eq_ok.mp hok
        cases hok
        have hfields := parseLease_eq_ok.mp hlease
        by_cases hk : k = leaseId
        · subst hk
          cases hget.symm.trans hq
          refine Or.inr ⟨t,rfl,stands_of_get? (q := lease) (by rw [writeState_leases ht, Dictionary.get?_set, if_pos rfl])
            ⟨?_,?_,?_⟩⟩
          · rw [hfields, hsame.holder]
          · rw [hfields, hsame.mode]
          · rw [hfields, hsame.scope]
        · exact Or.inr ⟨t,rfl,stands_of_get? (by rw [writeState_leases ht, Dictionary.get?_set, if_neg hk, hq]) hsame⟩

lemma release_keeps {leaseId holder : Text} {requested : Option ℤ} {clock : ℤ} {result : LeaseReleaseResult}
    {written : Option LocalLeaseStoreState} (h : Stands file k r)
    (hkept : ¬Frees file k r (.release leaseId holder requested clock))
    (hok : release file leaseId holder requested clock = .ok (result,written)) :
    written = none ∨ ∃ t, written = some t ∧ Stands (some t) k r := by
  unfold release at hok
  obtain ⟨-,-,hok⟩ := except_bind_eq_ok.mp hok
  obtain ⟨state,hstate,hok⟩ := except_bind_eq_ok.mp hok
  obtain ⟨q,hq,hsame⟩ := swept_of_stands h hkept hstate
  change (expireState state (toContractTimestamp (requested.getD clock))).1.leases.get? k = some q at hq
  dsimp only at hok
  split at hok
  · obtain ⟨t,ht,hok⟩ := except_bind_eq_ok.mp hok
    cases hok
    exact Or.inr ⟨t,rfl,stands_of_get? (by rw [writeState_leases ht, hq]) hsame⟩
  · next existing hget =>
    split at hok
    · cases hok
      exact Or.inl rfl
    · next hholder =>
      obtain ⟨t,ht,hok⟩ := except_bind_eq_ok.mp hok
      cases hok
      have hk : k ≠ leaseId := by
        rintro rfl
        cases hget.symm.trans hq
        refine hkept (Or.inl ⟨requested,clock,?_⟩)
        rw [← hsame.holder, not_not.mp hholder]
      exact Or.inr ⟨t,rfl,stands_of_get? (by rw [writeState_leases ht, Dictionary.get?_erase, if_neg hk, hq]) hsame⟩

/-- A lease outlasts every operation that does not free it. -/
theorem leaseStoreStep_keeps {after : Option LocalLeaseStoreState} {a : LeaseStoreAction} (h : Stands file k r)
    (hkept : ¬Frees file k r a) (hstep : leaseStoreStep file a = some after) : Stands after k r := by
  have hstored : ∀ {ρ : Type} {outcome : Except LeaseStoreError (ρ × Option LocalLeaseStoreState)},
      (∀ result written, outcome = .ok (result,written) → written = none ∨ ∃ t, written = some t ∧ Stands (some t) k r) →
        Stands (stored file outcome) k r := by
    intro ρ outcome hout
    cases outcome with
    | error e => exact h
    | ok answer =>
      obtain ⟨result,written⟩ := answer
      obtain rfl | ⟨t,rfl,hstands⟩ := hout result written rfl
      · exact h
      · exact hstands
  cases a with
  | acquire request prepared clock uuid =>
    cases hstep
    exact hstored fun result written hok => Or.inr (acquire_keeps h hkept hok)
  | renew leaseId holder ttl requested clock =>
    cases hstep
    exact hstored fun result written hok => renew_keeps h hkept hok
  | release leaseId holder requested clock =>
    cases hstep
    exact hstored fun result written hok => release_keeps h hkept hok
  | query q clock =>
    cases hstep
    exact h
  | expire instant =>
    cases hstep
    refine hstored fun result written hok => Or.inr ?_
    unfold expire at hok
    obtain ⟨state,hstate,hok⟩ := except_bind_eq_ok.mp hok
    obtain ⟨q,hq,hsame⟩ := swept_of_stands (a := .expire instant) h hkept hstate
    obtain ⟨t,ht,hok⟩ := except_bind_eq_ok.mp hok
    cases hok
    exact ⟨t,rfl,stands_of_get? ((congrArg (·.get? k) (writeState_leases ht)).trans hq) hsame⟩

end Keeping

/-- An arbitration with what it reads and draws, or another operation on the leases. -/
inductive LaunchAction
  | arbitrate (request : LeaseArbitrationRequest) (arrived prepared clock : ℤ) (drawn uuid : Text) (delivery : Delivery)
  | store (action : LeaseStoreAction)

section Launches
variable {ν : Type} (channel : Option (CoordinationMessageInput ν → Except BackendFailureCause Unit))

def launchStep (file : Option LocalLeaseStoreState) : LaunchAction → Option (Option LocalLeaseStoreState)
  | .arbitrate request arrived prepared clock drawn uuid delivery =>
    match LeaseArbiter.arbitrate channel file request arrived prepared clock drawn uuid delivery with
    | .ok (_,after) => some after
    | .error _ => some file
  | .store action => leaseStoreStep file action

/-- The decision that an arbitration comes to. -/
def decided (file : Option LocalLeaseStoreState) : LaunchAction → Option (LeaseArbitrationDecision ν)
  | .arbitrate request arrived prepared clock drawn uuid delivery =>
    (LeaseArbiter.arbitrate channel file request arrived prepared clock drawn uuid delivery).toOption.map (·.1)
  | .store _ => none

/-- What reaches the store. -/
def storeAction : LaunchAction → Option LeaseStoreAction
  | .arbitrate _ _ _ _ _ _ (.unreached _) => none
  | .arbitrate request arrived prepared clock drawn uuid _ =>
    (createLeaseFromAcquireRequest request.toLeaseAcquireRequest arrived drawn).toOption.map fun lease =>
      .acquire (LeaseArbiter.askedOf request lease) prepared clock uuid
  | .store action => some action

def HardLaunch (d : LeaseArbitrationDecision ν) : Prop := d.launchAllowed = true ∧ d.routeDecision.mode = .hard

/-- A launch's lease does not outlast the action. -/
def FreesLaunch (r : ArbitratedRoute) (file : Option LocalLeaseStoreState) (a : LaunchAction) : Prop :=
  ∃ k ∈ r.leaseId, ∃ action ∈ storeAction a, Frees file k r action

variable {channel} {file after : Option LocalLeaseStoreState} {a : LaunchAction}

/-- An arbitration is one operation of the store, or none. -/
lemma launchStep_store (h : launchStep channel file a = some after) :
    after = file ∨ ∃ action ∈ storeAction a, leaseStoreStep file action = some after := by
  cases a with
  | store action => exact Or.inr ⟨action,rfl,h⟩
  | arbitrate request arrived prepared clock drawn uuid delivery =>
    cases harbitrate : LeaseArbiter.arbitrate channel file request arrived prepared clock drawn uuid delivery with
    | error e =>
      rw [launchStep, harbitrate] at h
      exact Or.inl (Option.some.inj h).symm
    | ok answer =>
      obtain ⟨d,written⟩ := answer
      rw [launchStep, harbitrate] at h
      cases h
      obtain ⟨lease,hlease,-,rfl⟩ := LeaseArbiter.arbitrate_eq_ok.mp harbitrate
      by_cases hreached : ∀ cause, delivery ≠ .unreached cause
      · refine Or.inr ⟨.acquire (LeaseArbiter.askedOf request lease) prepared clock uuid,?_,?_⟩
        · rw [storeAction, hlease]
          · rfl
          · exact hreached
        · rw [LeaseArbiter.askStore_file _ _ _ _ _ hreached]
          rfl
      · obtain ⟨cause,hcause⟩ := not_forall.mp hreached
        rw [not_not.mp hcause]
        exact Or.inl rfl

/-- A lease that nothing frees stays. -/
lemma launchStep_keeps {r : ArbitratedRoute} {k : Text} (hk : k ∈ r.leaseId) (h : Stands file k r)
    (hkept : ¬FreesLaunch r file a) (hstep : launchStep channel file a = some after) : Stands after k r := by
  obtain rfl | ⟨action,haction,hstore⟩ := launchStep_store hstep
  · exact h
  · exact leaseStoreStep_keeps h (fun hfrees => hkept ⟨k,hk,action,haction,hfrees⟩) hstore

/-- A hard launch is allowed by a lease that was granted for it, and is stored. -/
theorem hardLaunch_granted {d : LeaseArbitrationDecision ν} (hd : decided channel file a = some d) (hlaunch : HardLaunch d) :
    ∃ request prepared clock uuid lease t, storeAction a = some (.acquire request prepared clock uuid) ∧
      acquire file request prepared clock uuid = .ok (⟨true,some lease,none,none⟩,some t) ∧
      launchStep channel file a = some (some t) ∧
      d.routeDecision = ⟨.acquired,lease.mode,some lease.lease_id,none,lease.holder,lease.scope⟩ := by
  cases a with
  | store action => cases hd
  | arbitrate request arrived prepared clock drawn uuid delivery =>
    obtain ⟨⟨d',after⟩,harbitrate,rfl⟩ := Option.map_eq_some_iff.mp hd
    have harbitrate := toOption_eq_some.mp harbitrate
    obtain ⟨lease,hlease,rfl,hafter⟩ := LeaseArbiter.arbitrate_eq_ok.mp harbitrate
    obtain ⟨hgranted,granted,hresult,hroute⟩ := LeaseArbiter.decision_hard hlaunch.1 hlaunch.2
    obtain ⟨hreached,written,hacquire⟩ := LeaseArbiter.askStore_granted hgranted
    obtain ⟨state,t,kept,-,rfl,-,-,hcases⟩ := acquire_answer hacquire
    obtain ⟨hanswer,-⟩ | ⟨conflict,hanswer,-⟩ := hcases
    · rw [hanswer] at hacquire hresult
      cases hresult
      refine ⟨LeaseArbiter.askedOf request lease,prepared,clock,uuid,granted,t,?_,hacquire,?_,hroute⟩
      · rw [storeAction, hlease]
        · rfl
        · exact hreached
      · rw [launchStep, harbitrate, hafter, LeaseArbiter.askStore_file _ _ _ _ _ hreached, hacquire]
        rfl
    · rw [hanswer] at hgranted
      cases hgranted

/-- A granted lease goes where no hard lease is that the clock does not find out of date. -/
lemma granted_apart {request : LeaseAcquireRequest} {prepared clock : ℤ} {uuid : Text} {lease : ConsiliencyLease}
    {written : Option LocalLeaseStoreState} {k : Text} {r : ArbitratedRoute}
    (hacquire : acquire file request prepared clock uuid = .ok (⟨true,some lease,none,none⟩,written))
    (hhard : lease.mode = .hard) (hstands : Stands file k r) (hmode : r.mode = .hard)
    (hkept : ¬Frees file k r (.acquire request prepared clock uuid)) :
    leaseScopesOverlap r.scope lease.scope = false := by
  obtain ⟨state,t,granted,hstate,-,-,-,hcases⟩ := acquire_answer hacquire
  obtain ⟨hanswer,-,-,hfind⟩ | ⟨conflict,hanswer,-⟩ := hcases
  · cases hanswer
    obtain ⟨q,hq,hclaim⟩ := swept_of_stands (a := .acquire request prepared clock uuid) hstands hkept hstate
    rw [← hclaim.scope]
    exact findConflict_eq_none hfind hhard hq (hclaim.mode.trans hmode)
  · cases hanswer

variable (channel)

/-- No two hard launches are allowed into one place: before the second one, or by it, the lease of the first was
released by its holder or found out of date. -/
theorem launches_exclusive (a b : LaunchAction) (between : List LaunchAction) (file t u : Option LocalLeaseStoreState)
    (d d' : LeaseArbitrationDecision ν) (ha : decided channel file a = some d) (hlaunch : HardLaunch d)
    (hstep : launchStep channel file a = some t) (hrun : run (launchStep channel) t between = some u)
    (hb : decided channel u b = some d') (hlaunch' : HardLaunch d')
    (hoverlap : leaseScopesOverlap d.routeDecision.scope d'.routeDecision.scope = true) :
    ∃ before c rest x, between ++ [b] = before ++ c :: rest ∧ run (launchStep channel) t before = some x ∧
      FreesLaunch d.routeDecision x c := by
  by_contra hnone
  have hkept : Meets (launchStep channel) (fun x c => ¬FreesLaunch d.routeDecision x c) t (between ++ [b]) :=
    meets_of_at _ fun before c rest x hsplit hx hfrees => hnone ⟨before,c,rest,x,hsplit,hx,hfrees⟩
  obtain ⟨request,prepared,clock,uuid,lease,s,-,hacquire,hfirst,hroute⟩ := hardLaunch_granted ha hlaunch
  cases hstep.symm.trans hfirst
  have hid : lease.lease_id ∈ d.routeDecision.leaseId := by rw [hroute]; rfl
  have hstands : Stands (some s) lease.lease_id d.routeDecision := by
    obtain ⟨state,s',granted,-,hs,-,-,hcases⟩ := acquire_answer hacquire
    cases hs
    obtain ⟨hanswer,hleases,-⟩ | ⟨conflict,hanswer,-⟩ := hcases
    · cases hanswer
      exact ⟨s,lease,rfl,by rw [hleases, Dictionary.get?_set, if_pos rfl],by rw [hroute],by rw [hroute],by rw [hroute]⟩
    · cases hanswer
  have hu : Stands u lease.lease_id d.routeDecision :=
    run_invariant_of_meets (launchStep channel) (fun x c y hx hc hy => launchStep_keeps hid hx hc hy) hstands
      (meets_start _ hkept) hrun
  have hlast : ¬FreesLaunch d.routeDecision u b := meets_at _ hkept hrun
  obtain ⟨request',prepared',clock',uuid',lease',s',haction',hacquire',-,hroute'⟩ := hardLaunch_granted hb hlaunch'
  have hhard : lease'.mode = .hard := by
    have hmode := hlaunch'.2
    rwa [hroute'] at hmode
  have hscope : d'.routeDecision.scope = lease'.scope := by rw [hroute']
  have hapart := granted_apart hacquire' hhard hu hlaunch.2
    fun hfrees => hlast ⟨lease.lease_id,hid,_,haction',hfrees⟩
  rw [hscope, hapart] at hoverlap
  cases hoverlap

end Launches

section Sample

/-- A hard launch of an agent into a directory. -/
def sampleLaunch (holder directory : String) (clock : ℤ) : LaunchAction :=
  .arbitrate ⟨⟨some (Text.of holder),Text.of holder,60,.hard,⟨.pathSet,[Text.of directory]⟩,Text.of "work",none⟩,none,
    Text.of "task",true⟩ clock clock clock [] [] .answered

def sampleRoute (holder directory : String) : ArbitratedRoute :=
  ⟨.acquired,.hard,some (Text.of holder),none,Text.of holder,⟨.pathSet,[Text.of directory]⟩⟩

/-- No channel to send messages on. -/
def noChannel : Option (CoordinationMessageInput Unit → Except BackendFailureCause Unit) := none

def sampleRelease : LaunchAction := .store (.release (Text.of "lease:a") (Text.of "lease:a") none 5000)

def afterLaunch : Option LocalLeaseStoreState := ((launchStep noChannel none (sampleLaunch "lease:a" "src" 0)).getD none)

def afterRelease : Option LocalLeaseStoreState := ((launchStep noChannel afterLaunch sampleRelease).getD none)

theorem launches_exclusive_release : ∃ before c rest x,
    [sampleRelease] ++ [sampleLaunch "lease:b" "src/b" 6000] = before ++ c :: rest ∧
      run (launchStep noChannel) afterLaunch before = some x ∧ FreesLaunch (sampleRoute "lease:a" "src") x c := by
  have hfirst : (decided noChannel none (sampleLaunch "lease:a" "src" 0)).map (fun d =>
      (d.launchAllowed,d.routeDecision)) = some (true,sampleRoute "lease:a" "src") := by decide +kernel
  have hsecond : (decided noChannel afterRelease (sampleLaunch "lease:b" "src/b" 6000)).map (fun d =>
      (d.launchAllowed,d.routeDecision)) = some (true,sampleRoute "lease:b" "src/b") := by decide +kernel
  obtain ⟨d,hd,hshape⟩ := Option.map_eq_some_iff.mp hfirst
  obtain ⟨d',hd',hshape'⟩ := Option.map_eq_some_iff.mp hsecond
  obtain ⟨hallowed,hroute⟩ := Prod.mk.inj hshape
  obtain ⟨hallowed',hroute'⟩ := Prod.mk.inj hshape'
  rw [← hroute]
  exact launches_exclusive noChannel _ _ [sampleRelease] none afterLaunch afterRelease d d' hd
    ⟨hallowed,by rw [hroute]; rfl⟩ (by decide +kernel) (by decide +kernel) hd' ⟨hallowed',by rw [hroute']; rfl⟩
    (by rw [hroute, hroute']; decide +kernel)

end Sample
end OmniagentPlus.Coordinator
