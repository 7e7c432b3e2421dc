import OmniagentPlus.StateLedger.CoordinationStore
import OmniagentPlus.StateLedger.LedgerDurability

/-! Exclusive leases of the coordination store: they are kept as long as no two of them share a
key, which is made of texts that may hold its separator. -/
namespace OmniagentPlus.StateLedger.CoordinationStore
open OmniagentPlus.Foundation OmniagentPlus.CoreContracts
variable {P : Type} {c : StoreFormat} {s t : State P}

/-- The recorded leases. -/
def State.leaseMap (s : State P) : Dictionary String WorktreeLease := s.leases.getD .empty

@[simp] theorem State.grant_nil (s : State P) : s.grant [] = s := by
  simp [State.grant]

/-- A claim that no recorded lease stands against has the key of none. -/
def Separate (s : State P) (x : Action P) : Bool :=
  match x.operation with
  | .acquireExclusiveLease request _ options =>
    let leases := clearReleasedLeases s.leaseMap
    (leases.values.any (standsAgainst x.surroundings request (claimPath x.surroundings request options))) ||
      (leases.get? (leaseKey request.repoId request.branchName request.mode)).isNone
  | _ => true

/-- Every recorded lease is a valid one under its key that was not released, and the granted ones
are among them. -/
structure State.Orderly (s : State P) : Prop where
  standalone : s.managed = false
  entries : ∀ k l, s.leaseMap.get? k = some l →
    l.allowed = true ∧ k = leaseKey l.repoId l.branchName l.mode ∧ l.release = none
  granted : ∀ l ∈ s.granted, l ∈ s.leaseMap.values

namespace State.Orderly

theorem init : Orderly (State.init : State P) where
  standalone := rfl
  entries k l h := by simp [State.leaseMap, State.init] at h
  granted l hl := by cases hl

theorem putLedger (h : Orderly s) (l : AppendOnlyStore.State P) : Orderly (s.putLedger l) :=
  ⟨h.standalone,h.entries,h.granted⟩

theorem putCooldowns (h : Orderly s) (d : Dictionary String ProviderFamilyCooldown) : Orderly (s.putCooldowns d) :=
  ⟨h.standalone,h.entries,h.granted⟩

/-- The map of the leases passes the checks of a read. -/
theorem readMap_eq (h : Orderly s) :
    readMap (fun lease : WorktreeLease => leaseKey lease.repoId lease.branchName lease.mode) (·.allowed) s.leases =
      .ok s.leaseMap := by
  have hall : s.leaseMap.entries.all (fun e => e.2.allowed && e.1 == leaseKey e.2.repoId e.2.branchName e.2.mode) = true := by
    refine List.all_eq_true.mpr fun e he => ?_
    obtain ⟨hallowed,hkey,-⟩ := h.entries e.1 e.2 ((s.leaseMap.mem_entries_iff e.1 e.2).mp he)
    rw [hallowed, Bool.true_and, beq_iff_eq]
    exact hkey
  simp only [readMap, State.leaseMap] at hall ⊢
  rw [if_pos hall]

theorem clearReleasedLeases_eq (h : Orderly s) : clearReleasedLeases s.leaseMap = s.leaseMap := by
  refine Dictionary.filter_eq_self _ fun l hl => ?_
  obtain ⟨k,hk⟩ := (s.leaseMap.mem_values_iff l).mp hl
  rw [(h.entries k l hk).2.2]
  rfl

/-- A valid lease under a new key is recorded beside the others, and may be granted. -/
theorem putLease (h : Orderly s) (lease : WorktreeLease) (hallowed : lease.allowed = true) (hrelease : lease.release = none)
    (hnew : s.leaseMap.get? (leaseKey lease.repoId lease.branchName lease.mode) = none) :
    Orderly (s.putLeases (s.leaseMap.set (leaseKey lease.repoId lease.branchName lease.mode) lease)) ∧
      Orderly ((s.putLeases (s.leaseMap.set (leaseKey lease.repoId lease.branchName lease.mode) lease)).grant [lease]) := by
  have hmap : (s.putLeases (s.leaseMap.set (leaseKey lease.repoId lease.branchName lease.mode) lease)).leaseMap =
      s.leaseMap.set (leaseKey lease.repoId lease.branchName lease.mode) lease := rfl
  have hentries : ∀ k l, (s.leaseMap.set (leaseKey lease.repoId lease.branchName lease.mode) lease).get? k = some l →
      l.allowed = true ∧ k = leaseKey l.repoId l.branchName l.mode ∧ l.release = none := by
    intro k l hl
    rw [Dictionary.get?_set] at hl
    split_ifs at hl with hk
    · cases hl
      exact ⟨hallowed,hk,hrelease⟩
    · exact h.entries k l hl
  have hkept : ∀ l ∈ s.granted, l ∈ (s.leaseMap.set (leaseKey lease.repoId lease.branchName lease.mode) lease).values :=
    fun l hl => (s.leaseMap.mem_values_set hnew l).mpr (Or.inl (h.granted l hl))
  refine ⟨⟨h.standalone,hentries,hkept⟩,⟨h.standalone,hentries,fun l hl => ?_⟩⟩
  rcases List.mem_append.mp hl with hl | hl
  · exact hkept l hl
  · exact (s.leaseMap.mem_values_set hnew l).mpr (Or.inr (List.mem_singleton.mp hl))

end State.Orderly

section Programs
variable {a : Surroundings P}

/-- A call of the ledger changes nothing else. -/
theorem onLedger_wp {α : Type} (p : AppendOnlyStore.StoreProgram P α) (s : State P) :
    Program.Wp (fun t u => ∃ l, u = t.putLedger l) (onLedger p) (fun _ t => ∃ l, t = s.putLedger l) s :=
  Program.wp_zoom rfl (Program.wp_true p s.ledger) (fun _ u _ => ⟨u,rfl⟩) fun _ t _ => ⟨t,rfl⟩

/-- What a call of the ledger keeps of the rest. -/
theorem onLedger_orderly {α : Type} (p : AppendOnlyStore.StoreProgram P α) (h : s.Orderly) :
    Program.Wp (fun _ u => u.Orderly) (onLedger p) (fun _ t => ∃ l, t = s.putLedger l) s := by
  have hkept := (onLedger_wp p s).with_invariant (I := State.Orderly)
    (fun t u hu ht => by obtain ⟨l,rfl⟩ := hu; exact ht.putLedger l) h
  refine hkept.mono (fun t u hu => ?_) fun _ _ ht => ht.1
  obtain ⟨⟨l,rfl⟩,ht⟩ := hu
  exact ht.putLedger l

theorem readLeaseMap_spec (h : s.Orderly) {R : State P → State P → Prop}
    {Q : Except CoordinationStoreError (Dictionary String WorktreeLease) → State P → Prop} (hQ : Q (.ok s.leaseMap) s) :
    Program.Wp R readLeaseMap Q s := by
  simp only [readLeaseMap, Program.wp_bind, Program.wp_reads, Program.then_ok, Program.wp_ofExcept, h.readMap_eq]
  exact hQ

theorem listActiveLeases_eq (h : s.Orderly) : (listActiveLeases s).2 = .ok s.leaseMap.values := by
  have hspec : Program.Wp (fun _ _ => True) listActiveLeases (fun x _ => x = .ok s.leaseMap.values) s := by
    rw [listActiveLeases, Program.wp_bind]
    refine readLeaseMap_spec h ?_
    rw [Program.then_ok, Program.wp_pure]
  exact hspec.2

variable [DecidableEq P]

/-- What a claim does: it is refused where a recorded lease stands against it, and else it may be
granted, with its lease set in the map. -/
theorem acquireExclusiveLease_spec (h : s.Orderly) (request : WorktreeLeaseRequest) (holder : LeaseHolder)
    (options : LeaseAcquisitionOptions)
    (hseparate : Separate s ⟨a,.acquireExclusiveLease request holder options,.returns⟩ = true) :
    Program.Wp (fun _ u => u.Orderly) (acquireExclusiveLease c a request holder options)
      (fun x t => t.Orderly ∧ ∀ r, x = .ok r → (t.grant (Result.acquisition r).granted).Orderly) s := by
  have herror : ∀ {t : State P} {e : CoordinationStoreError}, t.Orderly → t.Orderly ∧
      ∀ r, (.error e : Except CoordinationStoreError LeaseAcquisitionResult) = .ok r →
        (t.grant (Result.acquisition r).granted).Orderly := fun ht => ⟨ht,fun r hr => by cases hr⟩
  simp only [acquireExclusiveLease, Program.wp_bind, Program.wp_throwIf, Program.wp_reads, Program.then_ok,
    Program.then_error]
  refine ⟨fun _ => herror h,fun _ => ⟨fun _ => herror h,fun _ => readLeaseMap_spec h ?_⟩⟩
  simp only [Program.then_ok, h.clearReleasedLeases_eq]
  simp only [Separate, h.clearReleasedLeases_eq] at hseparate
  cases hfind : s.leaseMap.values.find? (standsAgainst a request (claimPath a request options)) with
  | some existing =>
    rw [Program.wp_pure]
    refine ⟨h,fun r hr => ?_⟩
    cases hr
    have hgranted : (Result.acquisition ⟨false,none,some existing⟩).granted = [] := rfl
    rwa [hgranted, State.grant_nil]
  | none =>
    have hnone : s.leaseMap.values.any (standsAgainst a request (claimPath a request options)) = false := by
      rw [List.any_eq_false]
      exact fun l hl => List.find?_eq_none.mp hfind l hl
    have hnew : s.leaseMap.get? (leaseKey request.repoId request.branchName request.mode) = none := by
      simpa [hnone] using hseparate
    simp only [Program.wp_bind, Program.wp_ofExcept]
    cases claimExpiry (options.now.getD a.clock) (claimTtl request options) with
    | error e => exact herror h
    | ok expiresAt =>
      simp only [Program.then_ok, Program.wp_throwIf, Program.then_error]
      refine ⟨fun _ => herror h,fun hallowed => ?_⟩
      refine (onLedger_orderly _ h).mono (fun _ _ hu => hu) ?_
      rintro (e | r) t ⟨l,rfl⟩
      · exact herror (h.putLedger l)
      simp only [Program.then_ok, Program.wp_write, Program.wp_pure]
      obtain ⟨hput,hgrant⟩ := (h.putLedger l).putLease (claimedLease a request holder options expiresAt)
        (by simpa using hallowed) rfl hnew
      refine ⟨hput,hput,fun r hr => ?_⟩
      cases hr
      exact hgrant

/-- A claim that a recorded lease stands against is refused and changes nothing. -/
theorem acquireExclusiveLease_refused (h : s.Orderly) {request : WorktreeLeaseRequest} (hallowed : request.allowed = true)
    (holder : LeaseHolder) {options : LeaseAcquisitionOptions} {l : WorktreeLease} (hl : l ∈ s.leaseMap.values)
    (hstands : standsAgainst a request (claimPath a request options) l = true) :
    ∃ existing, (acquireExclusiveLease c a request holder options s).2 = .ok ⟨false,none,some existing⟩ := by
  obtain ⟨existing,hfind⟩ := Option.isSome_iff_exists.mp (List.find?_isSome.mpr ⟨l,hl,hstands⟩)
  have hspec : Program.Wp (fun _ _ => True) (acquireExclusiveLease c a request holder options)
      (fun x _ => x = .ok ⟨false,none,some existing⟩) s := by
    simp only [acquireExclusiveLease, Program.wp_bind, Program.wp_throwIf, Program.wp_reads, Program.then_ok,
      Program.then_error, hallowed, h.standalone]
    refine ⟨fun hno => (by cases hno),fun _ => ⟨fun hno => (by cases hno),fun _ => readLeaseMap_spec h ?_⟩⟩
    simp only [Program.then_ok, h.clearReleasedLeases_eq, hfind, Program.wp_pure]
  exact ⟨existing,hspec.2⟩

end Programs

section Runs
variable [DecidableEq P]

theorem program_orderly (h : s.Orderly) {x : Action P} (hseparate : Separate s x = true) :
    Program.Wp (fun _ u => u.Orderly) (x.program c)
      (fun r t => t.Orderly ∧ ∀ y, r = .ok y → (t.grant y.granted).Orderly) s := by
  have hplain : ∀ {t : State P}, t.Orderly → (t.grant []).Orderly := by
    intro t ht
    rwa [State.grant_nil]
  obtain ⟨a,operation,ending⟩ := x
  have hledger : ∀ {α : Type} (p : AppendOnlyStore.StoreProgram P α),
      Program.Wp (fun _ u => u.Orderly) (onLedger p >>= fun _ => pure Result.done)
        (fun r t => t.Orderly ∧ ∀ y, r = .ok y → (t.grant y.granted).Orderly) s := by
    intro α p
    rw [Program.wp_bind]
    refine (onLedger_orderly p h).mono (fun _ _ hu => hu) ?_
    rintro (e | r) t ⟨l,rfl⟩
    · exact ⟨h.putLedger l,fun y hy => by cases hy⟩
    · rw [Program.then_ok, Program.wp_pure]
      refine ⟨h.putLedger l,fun y hy => ?_⟩
      cases hy
      exact hplain (h.putLedger l)
  have hread : ∀ {t : State P} {r : Except CoordinationStoreError Result}, t.Orderly → (∀ y, r = .ok y → y.granted = []) →
      t.Orderly ∧ ∀ y, r = .ok y → (t.grant y.granted).Orderly := fun ht hr => ⟨ht,fun y hy => hr y hy ▸ hplain ht⟩
  cases operation with
  | opening => exact hledger _
  | ledger operation => exact hledger _
  | getProviderCooldown provider =>
    simp only [Action.program, getProviderCooldown, readCooldownMap, Program.wp_bind, Program.wp_reads, Program.then_ok,
      Program.wp_ofExcept]
    cases readMap (fun cooldown : ProviderFamilyCooldown => cooldown.provider.name) cooldownAllowed s.cooldowns with
    | error e => exact hread h fun y hy => by cases hy
    | ok d =>
      simp only [Program.then_ok, Program.wp_pure]
      exact hread h fun y hy => by cases hy; rfl
  | setProviderCooldown cooldown =>
    simp only [Action.program, setProviderCooldown, readCooldownMap, Program.wp_bind, Program.wp_reads, Program.then_ok,
      Program.wp_ofExcept, Program.wp_throwIf, Program.then_error]
    refine ⟨fun _ => hread h fun y hy => (by cases hy),fun _ => ?_⟩
    cases readMap (fun cooldown : ProviderFamilyCooldown => cooldown.provider.name) cooldownAllowed s.cooldowns with
    | error e => exact hread h fun y hy => by cases hy
    | ok d =>
      simp only [Program.then_ok, Program.wp_write]
      have hput := h.putCooldowns (d.set cooldown.provider.name cooldown)
      refine ⟨hput,(onLedger_orderly _ hput).mono (fun _ _ hu => hu) ?_⟩
      rintro (e | r) t ⟨l,rfl⟩
      · exact hread (hput.putLedger l) fun y hy => by cases hy
      · simp only [Program.then_ok, Program.wp_pure]
        exact hread (hput.putLedger l) fun y hy => by cases hy; rfl
  | acquireExclusiveLease request holder options =>
    rw [Action.program, Program.wp_bind]
    refine (acquireExclusiveLease_spec h request holder options hseparate).mono (fun _ _ hu => hu) ?_
    rintro (e | r) t ⟨ht,hgrant⟩
    · exact hread ht fun y hy => by cases hy
    · rw [Program.then_ok, Program.wp_pure]
      refine ⟨ht,fun y hy => ?_⟩
      cases hy
      exact hgrant r rfl
  | listActiveLeases =>
    simp only [Action.program, listActiveLeases, Program.wp_bind]
    refine readLeaseMap_spec h ?_
    simp only [Program.then_ok, Program.wp_pure]
    exact hread h fun y hy => by cases hy; rfl

theorem step_orderly (h : s.Orderly) {x : Action P} (hseparate : Separate s x = true) (hx : step c s x = some t) :
    t.Orderly := by
  have hspec := program_orderly (c := c) h hseparate
  unfold step at hx
  split at hx
  · split at hx
    · next r hr =>
      cases hx
      exact hspec.2.2 r hr
    · cases hx
      exact hspec.2.1
  · cases hx
    exact hspec.crash (fun _ _ hu _ => hu) h _
  · cases hx
    exact (hspec.crash (fun _ _ hu _ => hu) h _).putLedger _

/-- In every run whose claims share no key with a recorded lease that does not stand against them:
every lease that was granted is recorded, and every claim of its repository and branch, or of its
path, is refused. -/
theorem exclusive_leases_kept (c : StoreFormat) {xs : List (Action P)} {s : State P}
    (hseparate : Meets (step c) (fun s x => Separate s x = true) State.init xs)
    (h : run (step c) State.init xs = some s) :
    (∃ leases, (listActiveLeases s).2 = .ok leases ∧ ∀ l ∈ s.granted, l ∈ leases) ∧
    ∀ l ∈ s.granted, ∀ (a : Surroundings P) request holder options, request.allowed = true →
      l.repoId = request.repoId ∧ l.branchName = request.branchName ∨
        a.resolve l.path = a.resolve (claimPath a request options) →
      ∃ existing, (acquireExclusiveLease c a request holder options s).2 = .ok ⟨false,none,some existing⟩ := by
  have hs : s.Orderly := run_invariant_of_meets (step c) (fun _ _ _ hs hx hst => step_orderly hs hx hst) State.Orderly.init
    hseparate h
  refine ⟨⟨_,listActiveLeases_eq hs,hs.granted⟩,fun l hl a request holder options hallowed hsame => ?_⟩
  refine acquireExclusiveLease_refused hs hallowed holder (hs.granted l hl) ?_
  simpa [standsAgainst] using hsame

def sampleSurroundings : Surroundings Bool := ⟨true,⟨100,1000⟩,some 0,"lease","token","record",4,fun repoId branchName => [repoId,branchName],id⟩

def sampleClaim (repoId branchName leaseId : String) : Action Bool :=
  ⟨{ sampleSurroundings with leaseId := leaseId, generatedId := leaseId },
    .acquireExclusiveLease ⟨repoId,none,none,branchName,"task",.exclusiveWrite,none,none⟩ ⟨1,"host",none,none⟩
      ⟨none,none,none,none⟩,.returns⟩

/-- Claims of two branches, and a third that the lease of the second is against. -/
theorem exclusive_leases_kept_twoBranches :
    ∃ s l, run (step AppendOnlyStore.sampleFormat) State.init
        [⟨sampleSurroundings,.opening,.returns⟩,sampleClaim "a" "b" "1",sampleClaim "a" "c" "2"] = some s ∧
      l ∈ s.granted ∧ l.branchName = "c" ∧
      ∃ existing, (acquireExclusiveLease AppendOnlyStore.sampleFormat sampleSurroundings
        ⟨"a",none,none,"c","task",.readOnly,none,none⟩ ⟨2,"host",none,none⟩ ⟨none,none,some ["other"],none⟩ s).2 =
          .ok ⟨false,none,some existing⟩ := by
  have hrun : ∃ s, run (step AppendOnlyStore.sampleFormat) State.init
      [⟨sampleSurroundings,.opening,.returns⟩,sampleClaim "a" "b" "1",sampleClaim "a" "c" "2"] = some s := ⟨_,rfl⟩
  obtain ⟨s,hs⟩ := hrun
  have hgranted : ∃ l ∈ s.granted, l.repoId = "a" ∧ l.branchName = "c" := by
    cases hs
    exact ⟨_,List.mem_cons_of_mem _ List.mem_cons_self,rfl,rfl⟩
  obtain ⟨l,hl,hrepo,hbranch⟩ := hgranted
  exact ⟨s,l,hs,hl,hbranch,(exclusive_leases_kept AppendOnlyStore.sampleFormat (by decide +kernel) hs).2 l hl
    sampleSurroundings ⟨"a",none,none,"c","task",.readOnly,none,none⟩ ⟨2,"host",none,none⟩ ⟨none,none,some ["other"],none⟩
    (by decide) (Or.inl ⟨hrepo,hbranch⟩)⟩

/-- A claim whose texts join to the key of another lease takes that lease's place in the map. -/
theorem colliding_lease_lost :
    ¬ ∀ (xs : List (Action Bool)) (s : State Bool), run (step AppendOnlyStore.sampleFormat) State.init xs = some s →
      ∀ l ∈ s.granted, ∃ leases, (listActiveLeases s).2 = .ok leases ∧ l ∈ leases := by
  intro hkept
  have hlost : ∃ s : State Bool, run (step AppendOnlyStore.sampleFormat) State.init
      [⟨sampleSurroundings,.opening,.returns⟩,sampleClaim "a:b" "c" "1",sampleClaim "a" "b:c" "2"] = some s ∧
      s.granted.map (·.id) = ["1","2"] ∧ (listActiveLeases s).2.toOption.map (fun ls => ls.map (·.id)) = some ["2"] :=
    ⟨_,rfl,rfl,rfl⟩
  obtain ⟨s,hs,hgranted,hlisted⟩ := hlost
  have hfirst : "1" ∈ s.granted.map (·.id) := by rw [hgranted]; exact List.mem_cons_self
  obtain ⟨l,hl,hid⟩ := List.mem_map.mp hfirst
  obtain ⟨leases,hleases,hmem⟩ := hkept _ s hs l hl
  have hids : leases.map (·.id) = ["2"] := by simpa [hleases, Except.toOption] using hlisted
  have hone : "1" ∈ leases.map (·.id) := hid ▸ List.mem_map_of_mem hmem
  rw [hids] at hone
  simp at hone

end Runs

end OmniagentPlus.StateLedger.CoordinationStore
