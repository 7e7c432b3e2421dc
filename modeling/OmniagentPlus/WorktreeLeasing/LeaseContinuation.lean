import OmniagentPlus.WorktreeLeasing.LeaseLifecycle
import OmniagentPlus.WorktreeLeasing.LeaseMutualExclusion

/-! A lease in mode `sequential_continue` goes on from the latest release of its task, repository
and branch: what a retention reclaims leaves a watermark while something older could be taken
for the latest. -/
namespace OmniagentPlus.WorktreeLeasing
open OmniagentPlus.Foundation OmniagentPlus.CoreContracts OmniagentPlus.StateLedger
open WorktreeLeaseManager (LeaseAction step)
variable {P : Type}

section Latest

/-- The later of two releases; of equals the second. -/
def laterRelease (m r : StoredLeaseRecord) : StoredLeaseRecord := if r.updatedAt.before m.updatedAt then m else r

/-- The latest release of a key; of equals the one that was recorded last. -/
def latestRelease (releases : List StoredLeaseRecord) (key : ContinuationKey) : Option StoredLeaseRecord :=
  (releases.filter fun r => continuationKey r.request == key).foldl
    (fun latest r => some (latest.elim r fun m => laterRelease m r)) none

variable {releases : List StoredLeaseRecord} {key : ContinuationKey} {m r : StoredLeaseRecord}

theorem laterRelease_cases (m r : StoredLeaseRecord) :
    laterRelease m r = r ∨ laterRelease m r = m ∧ r.updatedAt.before m.updatedAt = true := by
  unfold laterRelease
  split
  · next h => exact Or.inr ⟨rfl,h⟩
  · exact Or.inl rfl

/-- Neither of two releases is later than the later one. -/
theorem laterRelease_max (hm : m.updatedAt.isSome) (hr : r.updatedAt.isSome) :
    m.updatedAt.notAfter (laterRelease m r).updatedAt = true ∧
      r.updatedAt.notAfter (laterRelease m r).updatedAt = true := by
  unfold laterRelease
  split
  · next h => exact ⟨Instant.notAfter_refl hm,Instant.notAfter_of_before h⟩
  · next h => exact ⟨Instant.notAfter_of_not_before hr hm (Bool.eq_false_iff.mpr h),Instant.notAfter_refl hr⟩

theorem latestRelease_append (hr : continuationKey r.request = key) :
    latestRelease (releases ++ [r]) key = some ((latestRelease releases key).elim r fun m => laterRelease m r) := by
  simp [latestRelease, List.filter_append, hr]

theorem latestRelease_append_of_ne (hr : continuationKey r.request ≠ key) :
    latestRelease (releases ++ [r]) key = latestRelease releases key := by
  simp [latestRelease, List.filter_append, hr]

theorem latestRelease_mem (h : latestRelease releases key = some m) :
    m ∈ releases ∧ continuationKey m.request = key := by
  induction releases using List.reverseRecOn generalizing m with
  | nil => cases h
  | append_singleton rs r ih =>
    have hlast : r ∈ rs ++ [r] := List.mem_append_right _ (List.mem_singleton_self _)
    by_cases hkey : continuationKey r.request = key
    · rw [latestRelease_append hkey, Option.some.injEq] at h
      cases hlatest : latestRelease rs key with
      | none =>
        rw [hlatest] at h
        cases h
        exact ⟨hlast,hkey⟩
      | some m' =>
        rw [hlatest, Option.elim_some] at h
        subst h
        obtain ⟨hmem,hkey'⟩ := ih hlatest
        rcases laterRelease_cases m' r with heq | ⟨heq,-⟩
        · rw [heq]
          exact ⟨hlast,hkey⟩
        · rw [heq]
          exact ⟨List.mem_append_left _ hmem,hkey'⟩
    · rw [latestRelease_append_of_ne hkey] at h
      exact ⟨List.mem_append_left _ (ih h).1,(ih h).2⟩

/-- There is a latest release of a key that was released, and none of the key is later. -/
theorem latestRelease_max (htimed : ∀ r ∈ releases, r.updatedAt.isSome) (hr : r ∈ releases)
    (hkey : continuationKey r.request = key) :
    ∃ m, latestRelease releases key = some m ∧ r.updatedAt.notAfter m.updatedAt = true := by
  induction releases using List.reverseRecOn with
  | nil => cases hr
  | append_singleton rs q ih =>
    have hq := htimed q (List.mem_append_right _ (List.mem_singleton_self _))
    have htimed : ∀ r ∈ rs, r.updatedAt.isSome := fun r hr => htimed r (List.mem_append_left _ hr)
    by_cases hqkey : continuationKey q.request = key
    · rw [latestRelease_append hqkey]
      refine ⟨_,rfl,?_⟩
      cases hlatest : latestRelease rs key with
      | none =>
        rcases List.mem_append.mp hr with hr | hr
        · obtain ⟨m,hm,-⟩ := ih htimed hr
          cases hlatest.symm.trans hm
        · rw [List.mem_singleton.mp hr]
          exact Instant.notAfter_refl hq
      | some m =>
        obtain ⟨hm,hq⟩ := laterRelease_max (htimed m (latestRelease_mem hlatest).1) hq
        rcases List.mem_append.mp hr with hr | hr
        · obtain ⟨m',hm',hle⟩ := ih htimed hr
          obtain rfl := Option.some.inj (hlatest.symm.trans hm')
          exact Instant.notAfter_trans hle hm
        · rw [List.mem_singleton.mp hr]
          exact hq
    · rw [latestRelease_append_of_ne hqkey]
      rcases List.mem_append.mp hr with hr | hr
      · exact ih htimed hr
      · rw [List.mem_singleton.mp hr] at hkey
        exact absurd hkey hqkey

end Latest

/-- What the acquisition of a grant goes on from: the latest release of its key, which is in the
registry still, clean, of a branch head that is not another than the request's, and which
every recorded release at its time agrees with. -/
structure LeaseGrant.Continues (g : LeaseGrant) (m : StoredLeaseRecord) : Prop where
  latest : latestRelease g.releases (continuationKey g.intent.record.request) = some m
  recorded : g.registry.records.get? m.lease.id = some m
  clean : m.lease.dirtyState = .clean
  head : g.intent.record.branchHead = none ∨ m.branchHead = none ∨ g.intent.record.branchHead = m.branchHead
  tied : ∀ id q, g.registry.records.get? id = some q → q.status = .released →
    continuationKey q.request = continuationKey g.intent.record.request → q.updatedAt = m.updatedAt →
    q.lease.path = m.lease.path ∧ q.lease.dirtyState = m.lease.dirtyState ∧ q.branchHead = m.branchHead

section Order

instance laterFirst_total : Std.Total fun a b => laterFirst a b = true where
  total a b := by
    simp only [laterFirst, decide_eq_true_eq]
    rcases lt_trichotomy a.time b.time with hlt | heq | hlt
    · exact Or.inr (Or.inl hlt)
    · rcases String.le_total a.lease.id b.lease.id with hid | hid
      · exact Or.inr (Or.inr ⟨heq,hid⟩)
      · exact Or.inl (Or.inr ⟨heq.symm,hid⟩)
    · exact Or.inl (Or.inl hlt)

instance laterFirst_trans : IsTrans StoredLeaseRecord fun a b => laterFirst a b = true where
  trans a b d hab hbd := by
    simp only [laterFirst, decide_eq_true_eq] at hab hbd ⊢
    rcases hab with hab | ⟨hab,hid⟩
    · left
      omega
    · rcases hbd with hbd | ⟨hbd,hid'⟩
      · left
        omega
      · exact Or.inr ⟨hbd.trans hab,String.le_trans hid' hid⟩

end Order

section Invariant

/-- What a proposed reclamation would leave: watermarks for all the leases that it takes away. -/
structure WorktreeLeaseRegistry.Proposes (r : WorktreeLeaseRegistry) (intent : LeaseReclamationIntent) : Prop where
  timed : Timed intent.watermarks
  leases : ∀ id ∈ intent.leaseIds, ∃ q, r.records.get? id = some q ∧ q.status = .released ∧
    r.pending.get? id = none ∧ Covers (effective r intent.watermarks (continuationKey q.request)) q.updatedAt

/-- The latest release of a key is in the registry, or a watermark stands for it as long as
something older could be taken for it. -/
def WorktreeLeaseRegistry.Remembers (r : WorktreeLeaseRegistry) (key : ContinuationKey) (m : StoredLeaseRecord) : Prop :=
  r.records.get? m.lease.id = some m ∨
  (∀ id q, r.records.get? id = some q → q.status = .released → continuationKey q.request = key →
    Covers (r.reclaimedThrough.get? key) m.updatedAt) ∧
  ∀ id p, r.pending.get? id = some p → p.record.status = .released → continuationKey p.record.request = key →
    m.updatedAt.notAfter p.record.updatedAt = true ∨ Covers (r.reclaimedThrough.get? key) m.updatedAt

structure LeaseJournal.Continuity (j : LeaseJournal) : Prop where
  logged : ∀ q ∈ j.releases, q.status = .released ∧ q.updatedAt.isSome ∧ q.updatedAt ∈ j.readings
  recorded : ∀ id q, j.registry.records.get? id = some q → q.status = .released → q ∈ j.releases
  waiting : ∀ id p, j.registry.pending.get? id = some p → p.record.status = .released →
    p.record.updatedAt.isSome ∧ p.record.updatedAt ∈ j.readings
  later : ∀ id p q, j.registry.pending.get? id = some p → j.registry.records.get? id = some q →
    q.status = .released → q.updatedAt.notAfter p.record.updatedAt = true
  watermarks : Timed j.registry.reclaimedThrough
  proposal : ∀ intent, j.registry.reclamation = some intent → j.registry.Proposes intent
  latest : ∀ key m, latestRelease j.releases key = some m → j.registry.Remembers key m
  granted : ∀ g ∈ j.grants, g.intent.record.request.mode = .sequentialContinue → ∃ m, g.Continues m

namespace LeaseJournal.Continuity
variable {c : LeaseFormat} {j : LeaseJournal}

theorem timed (h : j.Continuity) : ∀ q ∈ j.releases, q.updatedAt.isSome := fun q hq => (h.logged q hq).2.1

/-- A recorded release is not later than the latest of its key. -/
theorem not_later (h : j.Continuity) {id : String} {q m : StoredLeaseRecord}
    (hq : j.registry.records.get? id = some q) (hstatus : q.status = .released)
    (hm : latestRelease j.releases (continuationKey q.request) = some m) :
    q.updatedAt.notAfter m.updatedAt = true := by
  obtain ⟨m',hm',hle⟩ := latestRelease_max h.timed (h.recorded id q hq hstatus) rfl
  obtain rfl := Option.some.inj (hm.symm.trans hm')
  exact hle

/-- Intents that stay or go, and no other change of the registry. -/
theorem of_le (h : j.Continuity) {j' : LeaseJournal} (hrecords : j'.registry.records = j.registry.records)
    (hwatermarks : j'.registry.reclaimedThrough = j.registry.reclaimedThrough)
    (hreclamation : j'.registry.reclamation = j.registry.reclamation)
    (hpending : ∀ id p, j'.registry.pending.get? id = some p →
      ∃ p', j.registry.pending.get? id = some p' ∧ p'.record = p.record)
    (hreadings : j'.readings = j.readings) (hreleases : j'.releases = j.releases) (hgrants : j'.grants = j.grants) :
    j'.Continuity where
  logged := by
    rw [hreleases, hreadings]
    exact h.logged
  recorded := by
    rw [hrecords, hreleases]
    exact h.recorded
  waiting id p hp hstatus := by
    obtain ⟨p',hp',hrecord⟩ := hpending id p hp
    rw [hreadings, ← hrecord]
    exact h.waiting id p' hp' (hrecord ▸ hstatus)
  later id p q hp hq hstatus := by
    obtain ⟨p',hp',hrecord⟩ := hpending id p hp
    rw [← hrecord]
    exact h.later id p' q hp' (hrecords ▸ hq) hstatus
  watermarks := hwatermarks ▸ h.watermarks
  proposal intent hintent := by
    obtain ⟨htimed,hleases⟩ := h.proposal intent (hreclamation ▸ hintent)
    refine ⟨htimed,fun id hid => ?_⟩
    obtain ⟨q,hq,hstatus,hnone,hcovers⟩ := hleases id hid
    refine ⟨q,hrecords ▸ hq,hstatus,?_,?_⟩
    · refine Option.eq_none_iff_forall_ne_some.mpr (fun p hp => ?_)
      obtain ⟨p',hp',-⟩ := hpending id p hp
      cases hnone.symm.trans hp'
    · rwa [effective, hwatermarks]
  latest key m hm := by
    rw [hreleases] at hm
    rcases h.latest key m hm with hkept | ⟨hrecorded,hwaiting⟩
    · exact Or.inl (hrecords ▸ hkept)
    · refine Or.inr ⟨fun id q hq => ?_,fun id p hp hstatus hkey => ?_⟩
      · rw [hwatermarks]
        exact hrecorded id q (hrecords ▸ hq)
      · obtain ⟨p',hp',hrecord⟩ := hpending id p hp
        rw [hwatermarks, ← hrecord]
        exact hwaiting id p' hp' (hrecord ▸ hstatus) (hrecord ▸ hkey)
  granted := hgrants ▸ h.granted

theorem drop (h : j.Continuity) {j' : LeaseJournal} {id : String} (hrecords : j'.registry.records = j.registry.records)
    (hwatermarks : j'.registry.reclaimedThrough = j.registry.reclaimedThrough)
    (hreclamation : j'.registry.reclamation = j.registry.reclamation)
    (hpending : j'.registry.pending = j.registry.pending.erase id)
    (hreadings : j'.readings = j.readings) (hreleases : j'.releases = j.releases) (hgrants : j'.grants = j.grants) :
    j'.Continuity := by
  refine h.of_le hrecords hwatermarks hreclamation (fun l p hp => ⟨p,?_,rfl⟩) hreadings hreleases hgrants
  rw [hpending, Dictionary.get?_erase] at hp
  split at hp
  · cases hp
  · exact hp

/-- An intent that is staged at a reading that no earlier one is later than. -/
theorem stage (h : j.Continuity) {p : PendingLeaseMutation} {draws : ℕ} (hdraws : draws ≠ 0)
    (hreclaimed : j.registry.reclamation = none)
    (hlatest : ∀ t ∈ j.readings, t.notAfter p.record.updatedAt = true)
    (hreleased : p.record.status = .released → p.record.updatedAt.isSome)
    (hgranted : p.operation = .acquire → p.record.request.mode = .sequentialContinue →
      ∃ m, LeaseGrant.Continues ⟨p,j.registry,j.releases⟩ m) : (j.stage p draws).Continuity where
  logged q hq := by
    obtain ⟨hstatus,hsome,hmem⟩ := h.logged q hq
    simp only [LeaseJournal.stage, if_neg hdraws]
    exact ⟨hstatus,hsome,List.mem_append_left _ hmem⟩
  recorded := h.recorded
  waiting id p' hp' hstatus := by
    simp only [LeaseJournal.stage, WorktreeLeaseRegistry.putPending, Dictionary.get?_set, if_neg hdraws] at hp' ⊢
    split at hp'
    · cases hp'
      exact ⟨hreleased hstatus,List.mem_append_right _ (List.mem_singleton_self _)⟩
    · obtain ⟨hsome,hmem⟩ := h.waiting id p' hp' hstatus
      exact ⟨hsome,List.mem_append_left _ hmem⟩
  later id p' q hp' hq hstatus := by
    simp only [LeaseJournal.stage, WorktreeLeaseRegistry.putPending, Dictionary.get?_set] at hp'
    split at hp'
    · cases hp'
      exact hlatest _ (h.logged q (h.recorded id q hq hstatus)).2.2
    · exact h.later id p' q hp' hq hstatus
  watermarks := h.watermarks
  proposal intent hintent := by
    have hintent : j.registry.reclamation = some intent := hintent
    cases hreclaimed.symm.trans hintent
  latest key m hm := by
    rcases h.latest key m hm with hkept | ⟨hrecorded,hwaiting⟩
    · exact Or.inl hkept
    · refine Or.inr ⟨hrecorded,fun id p' hp' hstatus hkey => ?_⟩
      simp only [LeaseJournal.stage, WorktreeLeaseRegistry.putPending, Dictionary.get?_set] at hp'
      split at hp'
      · cases hp'
        exact Or.inl (hlatest _ (h.logged m (latestRelease_mem hm).1).2.2)
      · exact hwaiting id p' hp' hstatus hkey
  granted g hg hmode := by
    by_cases hop : p.operation = .acquire
    · simp only [LeaseJournal.stage, if_pos hop] at hg
      rcases List.mem_append.mp hg with hg | hg
      · exact h.granted g hg hmode
      · rw [List.mem_singleton.mp hg] at hmode ⊢
        exact hgranted hop hmode
    · simp only [LeaseJournal.stage, if_neg hop] at hg
      exact h.granted g hg hmode

/-- A release that is recorded for the first time. -/
theorem Remembers_record (h : j.Continuity) (hlife : j.Lifecycle c) {p : PendingLeaseMutation} (hp : j.Waits p)
    (hstatus : p.record.status = .released) {key : ContinuationKey} {m : StoredLeaseRecord}
    (hm : latestRelease (j.releases ++ [p.record]) key = some m) : (j.registry.putRecord p.record).Remembers key m := by
  have hself : (j.registry.putRecord p.record).records.get? p.record.lease.id = some p.record :=
    Dictionary.get?_set_self _ _ _
  have hold : ∀ m', latestRelease j.releases key = some m' →
      (continuationKey p.record.request = key → p.record.updatedAt.before m'.updatedAt = true) →
      (j.registry.putRecord p.record).Remembers key m' := by
    intro m' hm' hbefore
    obtain ⟨hmem,hkey⟩ := latestRelease_mem hm'
    rcases h.latest key m' hm' with hkept | ⟨hrecorded,hwaiting⟩
    · left
      have hne : m'.lease.id ≠ p.record.lease.id := by
        intro heq
        have hsame := (hlife.continues _ p m' hp (heq ▸ hkept)).1
        have hlater := h.later _ p m' hp (heq ▸ hkept) (h.logged m' hmem).1
        have hkey : continuationKey p.record.request = key := by rw [hsame, hkey]
        exact Bool.false_ne_true ((Instant.not_before_of_notAfter hlater).symm.trans (hbefore hkey))
      exact (Dictionary.get?_set_of_ne _ _ hne).trans hkept
    · refine Or.inr ⟨fun id q hq hq' hkey' => ?_,hwaiting⟩
      simp only [WorktreeLeaseRegistry.putRecord, Dictionary.get?_set] at hq
      split at hq
      · cases hq
        rcases hwaiting _ p hp hstatus hkey' with hle | hcovers
        · exact absurd (hbefore hkey') (Bool.eq_false_iff.mp (Instant.not_before_of_notAfter hle))
        · exact hcovers
      · exact hrecorded id q hq hq' hkey'
  by_cases hkey : continuationKey p.record.request = key
  · rw [latestRelease_append hkey, Option.some.injEq] at hm
    subst hm
    cases hlatest : latestRelease j.releases key with
    | none => exact Or.inl hself
    | some m' =>
      rw [Option.elim_some]
      rcases laterRelease_cases m' p.record with heq | ⟨heq,hbefore⟩
      · rw [heq]
        exact Or.inl hself
      · rw [heq]
        exact hold m' hlatest (fun _ => hbefore)
  · rw [latestRelease_append_of_ne hkey] at hm
    exact hold m hm (fun heq => absurd heq hkey)

theorem commit (h : j.Continuity) (hlife : j.Lifecycle c) {p : PendingLeaseMutation} (hp : j.Waits p) :
    (j.commit p.record).Continuity := by
  have hrecord : ∀ id q, (j.registry.putRecord p.record).records.get? id = some q →
      id = p.record.lease.id ∧ q = p.record ∨ j.registry.records.get? id = some q := by
    intro id q hq
    simp only [WorktreeLeaseRegistry.putRecord, Dictionary.get?_set] at hq
    split at hq
    · next heq =>
      cases hq
      exact Or.inl ⟨heq,rfl⟩
    · exact Or.inr hq
  have hproposal : ∀ intent, j.registry.reclamation = some intent →
      (j.registry.putRecord p.record).Proposes intent := by
    intro intent hintent
    obtain ⟨htimed,hleases⟩ := h.proposal intent hintent
    refine ⟨htimed,fun id hid => ?_⟩
    obtain ⟨q,hq,hstatus,hnone,hcovers⟩ := hleases id hid
    have hne : id ≠ p.record.lease.id := by
      rintro rfl
      cases hnone.symm.trans hp
    exact ⟨q,(Dictionary.get?_set_of_ne _ _ hne).trans hq,hstatus,hnone,hcovers⟩
  have hlater : ∀ id p' q, j.registry.pending.get? id = some p' →
      (j.registry.putRecord p.record).records.get? id = some q → q.status = .released →
      q.updatedAt.notAfter p'.record.updatedAt = true := by
    intro id p' q hp' hq hstatus
    rcases hrecord id q hq with ⟨rfl,rfl⟩ | hq
    · obtain rfl := Option.some.inj (Eq.trans (Eq.symm hp) hp')
      exact Instant.notAfter_refl (h.waiting _ p hp hstatus).1
    · exact h.later id p' q hp' hq hstatus
  by_cases hnew : p.record.status = .released ∧ j.registry.records.get? p.record.lease.id ≠ some p.record
  · have hreleases : (j.commit p.record).releases = j.releases ++ [p.record] := by
      simp [LeaseJournal.commit, hnew.1, hnew.2]
    refine ⟨fun q hq => ?_,fun id q hq hstatus => ?_,h.waiting,hlater,h.watermarks,hproposal,fun key m hm => ?_,
      h.granted⟩
    · rw [hreleases] at hq
      rcases List.mem_append.mp hq with hq | hq
      · exact h.logged q hq
      · rw [List.mem_singleton.mp hq]
        exact ⟨hnew.1,h.waiting _ p hp hnew.1⟩
    · rw [hreleases]
      rcases hrecord id q hq with ⟨-,rfl⟩ | hq
      · exact List.mem_append_right _ (List.mem_singleton_self _)
      · exact List.mem_append_left _ (h.recorded id q hq hstatus)
    · rw [hreleases] at hm
      exact h.Remembers_record hlife hp hnew.1 hm
  · have hreleases : (j.commit p.record).releases = j.releases := by
      simp only [LeaseJournal.commit]
      rw [if_neg]
      simpa using hnew
    have hknown : p.record.status = .released → j.registry.records.get? p.record.lease.id = some p.record := by
      intro hstatus
      by_contra hne
      exact hnew ⟨hstatus,hne⟩
    have hback : ∀ id q, (j.registry.putRecord p.record).records.get? id = some q → q.status = .released →
        j.registry.records.get? id = some q := by
      intro id q hq hstatus
      rcases hrecord id q hq with ⟨rfl,rfl⟩ | hq
      · exact hknown hstatus
      · exact hq
    refine ⟨hreleases ▸ h.logged,fun id q hq hstatus => hreleases ▸ h.recorded id q (hback id q hq hstatus) hstatus,
      h.waiting,hlater,h.watermarks,hproposal,fun key m hm => ?_,h.granted⟩
    rw [hreleases] at hm
    rcases h.latest key m hm with hkept | ⟨hrecorded,hwaiting⟩
    · left
      by_cases heq : m.lease.id = p.record.lease.id
      · rw [heq] at hkept
        have hstatus := (hlife.continues _ p m hp hkept).2 (h.logged m (latestRelease_mem hm).1).1
        obtain rfl := Option.some.inj (hkept.symm.trans (hknown hstatus))
        exact Dictionary.get?_set_self _ _ _
      · exact (Dictionary.get?_set_of_ne _ _ heq).trans hkept
    · exact Or.inr ⟨fun id q hq hstatus => hrecorded id q (hback id q hq hstatus) hstatus,hwaiting⟩

theorem propose (h : j.Continuity) (hlife : j.Lifecycle c) (rows : List StateLedgerEntry) (selected : Finset ℕ) :
    (j.putRegistry { j.registry with reclamation := some (reclamationIntent rows j.registry selected) }).Continuity := by
  refine ⟨h.logged,h.recorded,h.waiting,h.later,h.watermarks,fun intent hintent => ?_,h.latest,h.granted⟩
  cases hintent
  have hreclaimable : ∀ q ∈ reclaimable rows j.registry selected, j.registry.records.get? q.lease.id = some q ∧
      q.status = .released ∧ j.registry.pending.get? q.lease.id = none := by
    intro q hq
    obtain ⟨hq,hcheck⟩ := List.mem_filter.mp hq
    obtain ⟨id,hid⟩ := (Dictionary.mem_values_iff _ _).mp hq
    obtain rfl := hlife.keyed.records id q hid
    simp only [Bool.and_eq_true, beq_iff_eq, Option.isNone_iff_eq_none] at hcheck
    exact ⟨hid,hcheck.1.1.1,hcheck.1.1.2⟩
  have hempty : Timed (Dictionary.empty : Dictionary ContinuationKey Instant) := fun k w hw => by cases hw
  obtain ⟨htimed,hcovers,-⟩ := raiseWatermarks_covers h.watermarks (fun q hq =>
    h.timed q (h.recorded _ q (hreclaimable q hq).1 (hreclaimable q hq).2.1)) hempty
  refine ⟨htimed,fun id hid => ?_⟩
  obtain ⟨q,hq,rfl⟩ := List.mem_map.mp hid
  obtain ⟨hrecord,hstatus,hnone⟩ := hreclaimable q hq
  exact ⟨q,hrecord,hstatus,hnone,hcovers q hq⟩

/-- A watermark that covers the latest release is left where a record or an intent could be
taken for a later one. -/
theorem finish (h : j.Continuity) {intent : LeaseReclamationIntent} (hintent : j.registry.reclamation = some intent) :
    (j.putRegistry (finishedRegistry j.rows intent j.registry)).Continuity := by
  obtain ⟨hproposed,hleases⟩ := h.proposal intent hintent
  generalize hr : ({ intent.leaseIds.foldl (reclaimLease j.rows intent) j.registry with reclamation := none } :
    WorktreeLeaseRegistry) = r
  have hregistry : finishedRegistry j.rows intent j.registry = dropWatermarks r := by rw [← hr]; rfl
  obtain ⟨htimed,hmono,hreclaimed⟩ := reclaimLeases_covers h.watermarks hproposed intent.leaseIds
  have hthrough : r.reclaimedThrough = (intent.leaseIds.foldl (reclaimLease j.rows intent) j.registry).reclaimedThrough := by
    rw [← hr]
  rw [← hthrough] at htimed hmono hreclaimed
  have hrecords : ∀ id q, r.records.get? id = some q → j.registry.records.get? id = some q := by
    intro id q hq
    refine finishedRegistry_mem j.rows intent j.registry ?_
    rw [hregistry]
    exact hq
  have hpending : r.pending = j.registry.pending := by
    have := finishedRegistry_pending j.rows intent j.registry
    rwa [hregistry] at this
  rw [hregistry]
  refine ⟨h.logged,fun id q hq => h.recorded id q (hrecords id q hq),fun id p hp => h.waiting id p (hpending ▸ hp),
    fun id p q hp hq => h.later id p q (hpending ▸ hp) (hrecords id q hq),dropWatermarks_timed htimed,
    fun intent hnone => ?_,fun key m hm => ?_,h.granted⟩
  · have hnone : r.reclamation = some intent := hnone
    rw [← hr] at hnone
    cases hnone
  have hmtimed := h.timed m (latestRelease_mem hm).1
  -- what could be taken for a later release keeps the watermark
  have hneeded : ∀ q, (q ∈ r.records.values ∨ q ∈ r.pending.values.map (·.record)) →
      continuationKey q.request = key → q.updatedAt.notAfter m.updatedAt = true →
      Covers (r.reclaimedThrough.get? key) m.updatedAt →
      Covers ((dropWatermarks r).reclaimedThrough.get? key) m.updatedAt := by
    rintro q hq hkey hle ⟨w,hw,hmw⟩
    refine ⟨w,dropWatermarks_get? hw ?_,hmw⟩
    refine List.any_eq_true.mpr ⟨q,List.mem_append.mpr hq,?_⟩
    simp [hkey, Instant.notAfter_trans hle hmw]
  have hcovered : ∀ (hm' : Covers (r.reclaimedThrough.get? key) m.updatedAt ∨
      ∀ id q, r.records.get? id = some q → q.status = .released → continuationKey q.request = key →
        Covers (r.reclaimedThrough.get? key) m.updatedAt),
      (∀ id p, r.pending.get? id = some p → p.record.status = .released → continuationKey p.record.request = key →
        m.updatedAt.notAfter p.record.updatedAt = true ∨ Covers (r.reclaimedThrough.get? key) m.updatedAt) →
      (dropWatermarks r).Remembers key m := by
    intro hm' hwaiting
    refine Or.inr ⟨fun id q hq hstatus hkey => ?_,fun id p hp hstatus hkey => ?_⟩
    · have hq : r.records.get? id = some q := hq
      refine hneeded q (Or.inl ((Dictionary.mem_values_iff _ _).mpr ⟨id,hq⟩)) hkey
        (h.not_later (hrecords id q hq) hstatus (hkey ▸ hm)) ?_
      rcases hm' with hcovers | hcovers
      · exact hcovers
      · exact hcovers id q hq hstatus hkey
    · have hp : r.pending.get? id = some p := hp
      rcases hwaiting id p hp hstatus hkey with hle | hcovers
      · exact Or.inl hle
      · cases hbefore : p.record.updatedAt.before m.updatedAt with
        | false => exact Or.inl (Instant.notAfter_of_not_before (h.waiting id p (hpending ▸ hp) hstatus).1 hmtimed hbefore)
        | true =>
          refine Or.inr (hneeded p.record (Or.inr ?_) hkey (Instant.notAfter_of_before hbefore) hcovers)
          exact List.mem_map_of_mem ((Dictionary.mem_values_iff _ _).mpr ⟨id,hp⟩)
  rcases h.latest key m hm with hkept | ⟨hrecorded,hwaiting⟩
  · cases hgone : r.records.get? m.lease.id with
    | some q =>
      left
      obtain rfl := Option.some.inj (hkept.symm.trans (hrecords _ q hgone))
      exact hgone
    | none =>
      have hgone : (intent.leaseIds.foldl (reclaimLease j.rows intent) j.registry).records.get? m.lease.id = none := by
        rw [← hr] at hgone
        exact hgone
      have hcovers : Covers (r.reclaimedThrough.get? key) m.updatedAt := by
        rcases reclaimLeases_records j.rows intent j.registry intent.leaseIds m.lease.id with hsame | ⟨-,hid,-⟩
        · cases (hsame.symm.trans hgone).symm.trans hkept
        · obtain ⟨q,hq,-,-,hcovers⟩ := hleases _ hid
          obtain rfl := Option.some.inj (hkept.symm.trans hq)
          rw [← (latestRelease_mem hm).2]
          exact hreclaimed _ m m.updatedAt hkept hgone hcovers
      exact hcovered (Or.inl hcovers) (fun _ _ _ _ _ => Or.inr hcovers)
  · refine hcovered (Or.inr fun id q hq hstatus hkey => hmono _ _ (hrecorded id q (hrecords id q hq) hstatus hkey))
      (fun id p hp hstatus hkey => ?_)
    exact (hwaiting id p (hpending ▸ hp) hstatus hkey).imp_right (hmono _ _)

/-- The candidate of an acquisition that is granted is the latest release of its key. -/
theorem continues (h : j.Continuity) {p : PendingLeaseMutation} {e : SequentialContinuationEvidence}
    (he : getSequentialCandidate j.registry p.record.request p.record.branchHead = some e)
    (hclean : e.dirtyState = .clean) (hhead : e.branchHeadMatches = true) :
    ∃ m, LeaseGrant.Continues ⟨p,j.registry,j.releases⟩ m := by
  have hmem : ∀ q, q ∈ matchingReleases j.registry p.record.request ↔ (∃ id, j.registry.records.get? id = some q) ∧
      q.status = .released ∧ continuationKey q.request = continuationKey p.record.request := by
    intro q
    simp only [matchingReleases, List.mem_insertionSort, List.mem_filter, Dictionary.mem_values_iff, Bool.and_eq_true,
      beq_iff_eq]
  have hsorted : (matchingReleases j.registry p.record.request).Pairwise (fun a b => laterFirst a b = true) := by
    exact List.pairwise_insertionSort (fun a b => laterFirst a b = true) _
  unfold getSequentialCandidate at he
  dsimp only at he
  cases hfound : matchingReleases j.registry p.record.request with
  | nil =>
    rw [hfound] at he
    cases he
  | cons candidate others =>
  rw [hfound] at he hmem hsorted
  cases he
  obtain ⟨hchecked,hclean⟩ : ¬ _ ∧ candidate.lease.dirtyState = .clean := by
    dsimp only at hclean
    split at hclean
    · cases hclean
    · next hchecked => exact ⟨hchecked,hclean⟩
  rw [Bool.or_eq_true, not_or] at hchecked
  obtain ⟨htied,hcovered⟩ := hchecked
  have hagree : ∀ q ∈ candidate :: others, q.updatedAt = candidate.updatedAt → q.lease.path = candidate.lease.path ∧
      q.lease.dirtyState = candidate.lease.dirtyState ∧ q.branchHead = candidate.branchHead := by
    intro q hq htime
    by_contra hdiffers
    refine htied (List.any_eq_true.mpr ⟨q,hq,?_⟩)
    have hne : q ≠ candidate := by
      rintro rfl
      exact hdiffers ⟨rfl,rfl,rfl⟩
    simp only [htime, bne_iff_ne, ne_eq, hne, not_false_eq_true, beq_self_eq_true, Bool.and_true, Bool.and_eq_true,
      Bool.or_eq_true, true_and]
    tauto
  obtain ⟨⟨id,hid⟩,hstatus,hkey⟩ := (hmem candidate).mp List.mem_cons_self
  obtain ⟨m,hm,hle⟩ := latestRelease_max h.timed (h.recorded id candidate hid hstatus) hkey
  obtain ⟨hreleased,hmkey⟩ := latestRelease_mem hm
  have hkept : j.registry.records.get? m.lease.id = some m := by
    rcases h.latest _ m hm with hkept | ⟨hrecorded,-⟩
    · exact hkept
    · obtain ⟨w,hw,hmw⟩ := hrecorded id candidate hid hstatus hkey
      refine absurd ?_ hcovered
      rw [hw, Option.any_some]
      exact Instant.notAfter_trans hle hmw
  have hfoundm : m ∈ candidate :: others := (hmem m).mpr ⟨⟨_,hkept⟩,(h.logged m hreleased).1,hmkey⟩
  have htime : m.updatedAt = candidate.updatedAt := by
    rcases List.mem_cons.mp hfoundm with rfl | hothers
    · rfl
    · have hfirst := (List.pairwise_cons.mp hsorted).1 m hothers
      obtain ⟨t,u,ht,hu,htu⟩ := Instant.notAfter_iff.mp hle
      simp only [laterFirst, StoredLeaseRecord.time, ht, hu, Option.getD_some, decide_eq_true_eq] at hfirst
      rw [ht, hu, Option.some.injEq]
      omega
  obtain ⟨hpath,hdirty,hbranch⟩ := hagree m hfoundm htime
  refine ⟨m,hm,hkept,hdirty.trans hclean,?_,fun id q hq hstatus hkey hqtime => ?_⟩
  · simp only [Bool.or_eq_true, Option.isNone_iff_eq_none, beq_iff_eq] at hhead
    rw [hbranch]
    tauto
  · obtain ⟨hpath',hdirty',hbranch'⟩ := hagree q ((hmem q).mpr ⟨⟨id,hq⟩,hstatus,hkey⟩) (hqtime.trans htime)
    exact ⟨hpath'.trans hpath.symm,hdirty'.trans hdirty.symm,hbranch'.trans hbranch.symm⟩

end LeaseJournal.Continuity
theorem LeaseMove.readings {c : LeaseFormat} {x : LeaseAction P} {fresh : Prop} {k : ℕ} {j j' : LeaseJournal}
    (h : LeaseMove c x fresh k j j') : ∃ ts, j'.readings = j.readings ++ ts := by
  cases h with
  | acquire p _ => exact ⟨[p.record.updatedAt],rfl⟩
  | renew p _ _ => exact ⟨[p.record.updatedAt],rfl⟩
  | release p _ _ => exact ⟨[p.record.updatedAt],rfl⟩
  | _ => exact ⟨[],(List.append_nil _).symm⟩

/-- The clock does not go backwards from one staged intent to the next. -/
def LeaseJournal.Clocked (j : LeaseJournal) : Prop := j.readings.Pairwise fun a b => a.notAfter b = true

theorem continuity_move {c : LeaseFormat} {x : LeaseAction P} {fresh : Prop} {k : ℕ} {j j' : LeaseJournal}
    (h : LeaseMove c x fresh k j j') (hlife : j.Lifecycle c) (hclock : j'.Clocked) (hj : j.Continuity) :
    j'.Continuity := by
  have hstage : ∀ (p : PendingLeaseMutation) (draws : ℕ), draws ≠ 0 → (j.stage p draws).Clocked →
      ∀ t ∈ j.readings, t.notAfter p.record.updatedAt = true := by
    intro p draws hdraws hclock t ht
    simp only [LeaseJournal.Clocked, LeaseJournal.stage, if_neg hdraws] at hclock
    exact (List.pairwise_append.mp hclock).2.2 t ht _ (List.mem_singleton_self _)
  cases h with
  | acquire p h =>
    refine hj.stage (by omega) h.reclaimed (hstage p 3 (by omega) hclock) (fun hstatus => ?_) (fun _ hmode => ?_)
    · cases h.active.symm.trans hstatus
    · obtain ⟨e,he,hclean,hhead⟩ := h.continued hmode
      exact hj.continues he hclean hhead
  | renew p existing h =>
    refine hj.stage (by omega) h.reclaimed (hstage p 1 (by omega) hclock) (fun hstatus => ?_) (fun hop => ?_)
    · cases h.request.2.symm.trans hstatus
    · cases h.operation.symm.trans hop
  | release p previous h =>
    exact hj.stage (by omega) h.reclaimed (hstage p 1 (by omega) hclock) (fun _ => h.released.2.2)
      (fun hop => absurd hop h.operation_ne)
  | mark p removal hp _ _ =>
    refine hj.of_le rfl rfl rfl (fun id p' hp' => ?_) rfl rfl rfl
    simp only [LeaseJournal.putRegistry, WorktreeLeaseRegistry.putPending, Dictionary.get?_set] at hp'
    split at hp'
    · next heq =>
      cases hp'
      exact ⟨p,heq ▸ hp,rfl⟩
    · exact ⟨p',hp',rfl⟩
  | commit p hp _ _ => exact hj.commit hlife hp
  | clear p _ _ _ _ => exact hj.drop rfl rfl rfl rfl rfl rfl rfl
  | refuse p _ _ _ => exact hj.drop rfl rfl rfl rfl rfl rfl rfl
  | cancel p _ _ _ _ _ _ => exact hj.drop rfl rfl rfl rfl rfl rfl rfl
  | propose policy now interleaved _ => exact hj.propose hlife _ _
  | finish intent hintent => exact hj.finish hintent
  | _ => exact hj.of_le rfl rfl rfl (fun id p hp => ⟨p,hp,rfl⟩) rfl rfl rfl

/-- What holds of every journal: so long as the clock did not go backwards, the rest does. -/
def LeaseJournal.Continued (c : LeaseFormat) (j : LeaseJournal) : Prop :=
  j.Lifecycle c ∧ (j.Clocked → j.Continuity)

theorem continued_move {c : LeaseFormat} {x : LeaseAction P} {fresh : Prop} {k : ℕ} {j j' : LeaseJournal}
    (h : LeaseMove c x fresh k j j') (hj : j.Continued c) : j'.Continued c := by
  refine ⟨lifecycle_move h hj.1,fun hclock => continuity_move h hj.1 hclock (hj.2 ?_)⟩
  obtain ⟨ts,hts⟩ := h.readings
  rw [LeaseJournal.Clocked, hts] at hclock
  exact (List.pairwise_append.mp hclock).1

theorem continued_init {c : LeaseFormat} : (LeaseManagerState.init : LeaseManagerState P).journal.Continued c := by
  refine ⟨lifecycle_init,fun _ => ?_⟩
  refine ⟨?_,?_,?_,?_,?_,?_,?_,?_⟩
  · exact fun q hq => by cases hq
  · exact fun id q hq => by cases hq
  · exact fun id p hp => by cases hp
  · exact fun id p q hp => by cases hp
  · exact fun k w hw => by cases hw
  · exact fun intent hintent => by cases hintent
  · exact fun key m hm => by cases hm
  · exact fun g hg => by cases hg

variable [DecidableEq P]

/-- In every run, with retentions and wherever it is cut short, as long as the clock does not go
backwards: every acquisition in mode `sequential_continue` that was staged goes on from the
latest release, and so does every one that an operation returns as acquired. -/
theorem sequentialContinue_safe (c : LeaseFormat) {xs : List (LeaseAction P)} {s : LeaseManagerState P}
    (h : run (step c) LeaseManagerState.init xs = some s)
    (hclock : s.readings.Pairwise fun a b => a.notAfter b = true) :
    (∀ g ∈ s.grants, g.intent.record.request.mode = .sequentialContinue → ∃ m, g.Continues m) ∧
    ∀ (x : LeaseAction P) (request : WorktreeLeaseRequest) (options : AcquireWorktreeLeaseOptions)
      (acquisition : WorktreeLeaseAcquisition), x.operation = .acquire request options →
      ((x.program c) s).2 = .ok (.acquisition acquisition) → acquisition.acquired = true →
      request.mode = .sequentialContinue →
      (((x.program c).final s).readings.Pairwise fun a b => a.notAfter b = true) →
      ∃ g ∈ ((x.program c).final s).grants, g.intent.record.request = request ∧
        g.intent.record.branchHead = options.branchHead ∧ acquisition.lease = some g.intent.record.lease ∧
        ∃ m, g.Continues m := by
  have hinit : (LeaseManagerState.init : LeaseManagerState P).ledger.Sound (.core c.toLedgerFormat) ∧
      (LeaseManagerState.init : LeaseManagerState P).journal.Continued c :=
    ⟨AppendOnlyStore.State.Sound.init,continued_init⟩
  have hrun := run_invariant (step c) (I := fun s => s.ledger.Sound (.core c.toLedgerFormat) ∧ s.journal.Continued c)
    (fun s x t hs hstep => WorktreeLeaseManager.step_invariant (fun _ _ hmove => continued_move hmove)
      hs.1 False.elim hs.2 hstep) hinit h
  refine ⟨(hrun.2.2 hclock).granted,fun x request options acquisition hop hresult hacquired hmode hclock' => ?_⟩
  have hspec := WorktreeLeaseManager.program_spec (c := c) (x := x) hrun.1 False.elim
  have hend := hspec.invariant (I := fun s => s.journal.Continued c) (fun _ _ hmove => continued_move hmove.2) hrun.2
  obtain ⟨g,hg,hrequest,hhead,hlease⟩ := hspec.2.2 _ hresult request options acquisition hop rfl hacquired
  exact ⟨g,hg,hrequest,hhead,hlease,(hend.2.2 hclock').granted g hg (hrequest ▸ hmode)⟩

end Invariant

section Sample
open WorktreeLeaseManager

def sampleRequest (mode : WorktreeLeaseMode) : WorktreeLeaseRequest :=
  ⟨"repo",none,none,"a","task",mode,some true,none⟩

def sampleOptions (now : ℤ) (leasePath : Option Path) : AcquireWorktreeLeaseOptions :=
  ⟨⟨1,"host",none,none⟩,leasePath,some .clean,none,some now,none,none⟩

def sampleLease : WorktreeLease :=
  ⟨"u","uu","repo",["w","a"],"a",.exclusiveWrite,⟨1,"host",none,none⟩,some 0,some 0,some 300000,.clean,none⟩

/-- A clean lease and its release. -/
def samplePredecessor : List (LeaseAction Bool) :=
  [⟨sampleSurroundings true,.acquire (sampleRequest .exclusiveWrite) (sampleOptions 0 (some ["w","a"])),.returns⟩,
   ⟨sampleSurroundings true,.release sampleLease (some 1),.returns⟩]

/-- The lease that goes on from it. -/
def sampleSuccessor : LeaseAction Bool :=
  ⟨sampleSurroundings false,.acquire (sampleRequest .sequentialContinue) (sampleOptions 2 none),.returns⟩

/-- A call that acquires a new lease. -/
def acquires : Except LeaseError LeaseResult → Bool
  | .ok (.acquisition acquisition) => acquisition.acquired
  | _ => false

theorem sequentialContinue_safe_sample : ∃ s g m,
    run (step sampleLeaseFormat) LeaseManagerState.init samplePredecessor = some s ∧
    g ∈ ((sampleSuccessor.program sampleLeaseFormat).final s).grants ∧
    g.intent.record.request = sampleRequest .sequentialContinue ∧ LeaseGrant.Continues g m := by
  have hshape : (run (step sampleLeaseFormat) LeaseManagerState.init samplePredecessor).map (fun s =>
      (s.readings,((sampleSuccessor.program sampleLeaseFormat).final s).readings,
        acquires ((sampleSuccessor.program sampleLeaseFormat) s).2)) = some ([some 0,some 1],[some 0,some 1,some 2],true) := by
    decide +kernel
  obtain ⟨s,hs,hshape⟩ := Option.map_eq_some_iff.mp hshape
  simp only [Prod.mk.injEq] at hshape
  obtain ⟨hbefore,hafter,hacquired⟩ := hshape
  have hclock : s.readings.Pairwise fun a b => a.notAfter b = true := by
    rw [hbefore]
    decide
  have hclock' : ((sampleSuccessor.program sampleLeaseFormat).final s).readings.Pairwise
      fun a b => a.notAfter b = true := by
    rw [hafter]
    decide
  cases hresult : ((sampleSuccessor.program sampleLeaseFormat) s).2 with
  | error e => simp [hresult, acquires] at hacquired
  | ok result =>
  cases result with
  | renewed lease => simp [hresult, acquires] at hacquired
  | done => simp [hresult, acquires] at hacquired
  | acquisition acquisition =>
  rw [hresult] at hacquired
  obtain ⟨g,hg,hrequest,-,-,m,hm⟩ := (sequentialContinue_safe sampleLeaseFormat hs hclock).2 sampleSuccessor _ _ _ rfl
    hresult hacquired rfl hclock'
  exact ⟨s,g,m,hs,hg,hrequest,hm⟩

end Sample
end OmniagentPlus.WorktreeLeasing
