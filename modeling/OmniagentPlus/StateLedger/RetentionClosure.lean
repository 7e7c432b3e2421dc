import OmniagentPlus.StateLedger.Retention
import Mathlib.Data.Finset.Card

/-! The closure loop of `selectRetentionSequences` ends by itself, and what it has then closed. -/
namespace OmniagentPlus.StateLedger
open OmniagentPlus.Foundation OmniagentPlus.CoreContracts

instance : PartialOrder Selection :=
  PartialOrder.lift (fun s => (s.keep,s.tasks)) (fun s t h => by
    cases s
    cases t
    simpa using h)

theorem Selection.le_iff {s t : Selection} : s ≤ t ↔ s.keep ⊆ t.keep ∧ s.tasks ⊆ t.tasks := Iff.rfl

/-- How much of the records and their tasks a selection has. -/
def Selection.size (s : Selection) : ℕ := s.keep.card + s.tasks.card

theorem Selection.size_lt {s t : Selection} (h : s < t) : s.size < t.size := by
  obtain ⟨hk,ht⟩ := Selection.le_iff.mp h.le
  have hne : s.keep ≠ t.keep ∨ s.tasks ≠ t.tasks := by
    by_contra hno
    simp only [not_or, not_not] at hno
    exact h.ne (by cases s; cases t; simp_all)
  have hkc := Finset.card_le_card hk
  have htc := Finset.card_le_card ht
  unfold Selection.size
  rcases hne with hne | hne
  · have := Finset.card_lt_card (lt_of_le_of_ne hk hne)
    omega
  · have := Finset.card_lt_card (lt_of_le_of_ne ht hne)
    omega

theorem addKeep_grows (sequence : ℕ) : Grows (addKeep sequence) := by
  have hlt : ∀ m : Selection × Bool, sequence ∉ m.1.keep →
      m.1 < { m.1 with keep := insert sequence m.1.keep } := by
    intro m hm
    refine lt_of_le_of_ne (Selection.le_iff.mpr ⟨Finset.subset_insert _ _,Finset.Subset.refl _⟩) ?_
    intro h
    have := congrArg Selection.keep h
    exact hm (by rw [this]; exact Finset.mem_insert_self _ _)
  constructor
  · intro m
    unfold addKeep
    split_ifs with hm
    · exact le_refl _
    · exact (hlt m hm).le
  · intro m h
    unfold addKeep at h ⊢
    split_ifs at h ⊢
    rfl
  · intro m h
    unfold addKeep at h ⊢
    split_ifs at h ⊢ with hm
    · exact Or.inl h
    · exact Or.inr (hlt m hm)

theorem addTask_grows (value : Option String) : Grows (addTask value) := by
  unfold addTask
  cases truthy value with
  | none => exact Grows.id
  | some task =>
    have hlt : ∀ m : Selection × Bool, task ∉ m.1.tasks →
        m.1 < { m.1 with tasks := insert task m.1.tasks } := by
      intro m hm
      refine lt_of_le_of_ne (Selection.le_iff.mpr ⟨Finset.Subset.refl _,Finset.subset_insert _ _⟩) ?_
      intro h
      have := congrArg Selection.tasks h
      exact hm (by rw [this]; exact Finset.mem_insert_self _ _)
    constructor
    · intro m
      dsimp only
      split_ifs with hm
      · exact le_refl _
      · exact (hlt m hm).le
    · intro m h
      dsimp only at h ⊢
      split_ifs at h ⊢
      rfl
    · intro m h
      dsimp only at h ⊢
      split_ifs at h ⊢ with hm
      · exact Or.inl h
      · exact Or.inr (hlt m hm)

theorem reference_grows (newest : Dictionary EntityKey StateLedgerEntry) (key : EntityKey) :
    Grows (reference newest key) := by
  unfold reference
  cases newest.get? key with
  | none => exact Grows.id
  | some dependency => exact addKeep_grows dependency.sequence

theorem keepDependencies_grows (newest : Dictionary EntityKey StateLedgerEntry) (isProtected : Bool)
    (r : StateLedgerEntry) : Grows (keepDependencies newest isProtected r) :=
  ((reference_grows newest (entityKey r)).comp ((addTask_grows r.taskId).ite fun _ => isProtected)).comp
    (Grows.foldl (reference_grows newest) (referencedKeys r))

lemma dependencies_grows (newest : Dictionary EntityKey StateLedgerEntry) (isProtected : Bool)
    (r : StateLedgerEntry) : Grows (fun m : Selection × Bool =>
      if r.sequence ∈ m.1.keep then keepDependencies newest isProtected r m else m) := by
  have h := (keepDependencies_grows newest isProtected r).ite fun m => decide (r.sequence ∈ m.1.keep)
  simpa only [decide_eq_true_eq] using h

/-- `visitRecord`, once it is known whether the record is protected. -/
lemma visit_grows (newest : Dictionary EntityKey StateLedgerEntry) (r : StateLedgerEntry)
    (isProtected : Bool) :
    Grows (fun m : Selection × Bool =>
      let m := if isProtected then addKeep r.sequence m else m
      if r.sequence ∈ m.1.keep then keepDependencies newest isProtected r m else m) :=
  ((addKeep_grows r.sequence).ite fun _ => isProtected).comp (dependencies_grows newest isProtected r)

theorem visitRecord_grows (newest : Dictionary EntityKey StateLedgerEntry)
    (nonRoots : List StateLedgerRecordKind) (live : LiveSets) (r : StateLedgerEntry) :
    Grows (visitRecord newest nonRoots live r) :=
  Grows.choose (visit_grows newest r) fun m => protectedHistory nonRoots live m.1.tasks r

/-- A selection of sequences and tasks of the records. -/
structure Selection.Within (records : List StateLedgerEntry) (s : Selection) : Prop where
  keep : ∀ n ∈ s.keep, ∃ r ∈ records, r.sequence = n
  tasks : ∀ task ∈ s.tasks, ∃ r ∈ records, r.taskId = some task

lemma Selection.Within.addKeep {records : List StateLedgerEntry} {m : Selection × Bool}
    (h : m.1.Within records) {r : StateLedgerEntry} (hr : r ∈ records) :
    (addKeep r.sequence m).1.Within records := by
  unfold StateLedger.addKeep
  split_ifs
  · exact h
  · refine ⟨fun n hn => ?_,h.tasks⟩
    rcases Finset.mem_insert.mp hn with rfl | hn
    · exact ⟨r,hr,rfl⟩
    · exact h.keep n hn

lemma Selection.Within.addTask {records : List StateLedgerEntry} {m : Selection × Bool}
    (h : m.1.Within records) {r : StateLedgerEntry} (hr : r ∈ records) :
    (addTask r.taskId m).1.Within records := by
  unfold StateLedger.addTask
  cases htask : truthy r.taskId with
  | none => exact h
  | some task =>
    dsimp only
    split_ifs
    · exact h
    · refine ⟨h.keep,fun u hu => ?_⟩
      rcases Finset.mem_insert.mp hu with rfl | hu
      · exact ⟨r,hr,(Option.filter_eq_some_iff.mp htask).1⟩
      · exact h.tasks u hu

lemma Selection.Within.reference {records : List StateLedgerEntry} {m : Selection × Bool}
    (h : m.1.Within records) (key : EntityKey) : (reference (latest records) key m).1.Within records := by
  unfold StateLedger.reference
  cases hd : (latest records).get? key with
  | none => exact h
  | some dependency => exact h.addKeep (Dictionary.mem_of_get?_indexBy hd).1

lemma Selection.Within.references {records : List StateLedgerEntry} (keys : List EntityKey)
    {m : Selection × Bool} (h : m.1.Within records) :
    (keys.foldl (fun m key => StateLedger.reference (latest records) key m) m).1.Within records := by
  induction keys generalizing m with
  | nil => exact h
  | cons key keys ih => exact ih (h.reference key)

lemma Selection.Within.visitRecord {records : List StateLedgerEntry} {m : Selection × Bool}
    (h : m.1.Within records) {r : StateLedgerEntry} (hr : r ∈ records)
    (nonRoots : List StateLedgerRecordKind) (live : LiveSets) :
    (visitRecord (latest records) nonRoots live r m).1.Within records := by
  unfold StateLedger.visitRecord
  cases protectedHistory nonRoots live m.1.tasks r with
  | false =>
    simp only [Bool.false_eq_true, if_false]
    split_ifs
    · exact (h.reference _).references _
    · exact h
  | true =>
    simp only [if_true]
    split_ifs
    · exact (((h.addKeep hr).reference _).addTask hr).references _
    · exact h.addKeep hr

lemma initialKeep_within (records : List StateLedgerEntry) (policy : RetentionPolicy) (now : ℤ) :
    (⟨initialKeep records policy now,∅⟩ : Selection).Within records := by
  refine ⟨fun n hn => ?_,fun task h => by simp at h⟩
  simp only [initialKeep, List.mem_toFinset, List.mem_map, List.mem_append, List.mem_flatMap] at hn
  obtain ⟨r,h | ⟨kind,-,h⟩,rfl⟩ := hn
  · exact ⟨r,(List.mem_filter.mp h).1,rfl⟩
  · split_ifs at h
    · cases h
    · exact ⟨r,(List.mem_filter.mp (List.mem_of_mem_drop h)).1,rfl⟩

lemma Selection.Within.size_le {records : List StateLedgerEntry} {s : Selection}
    (h : s.Within records) : s.size ≤ 2 * records.length := by
  have hkeep : s.keep ⊆ (records.map StateLedgerEntry.sequence).toFinset := by
    intro n hn
    obtain ⟨r,hr,rfl⟩ := h.keep n hn
    exact List.mem_toFinset.mpr (List.mem_map.mpr ⟨r,hr,rfl⟩)
  have htasks : s.tasks ⊆ (records.filterMap StateLedgerEntry.taskId).toFinset := by
    intro task htask
    obtain ⟨r,hr,ht⟩ := h.tasks task htask
    exact List.mem_toFinset.mpr (List.mem_filterMap.mpr ⟨r,hr,ht⟩)
  have hk := (Finset.card_le_card hkeep).trans (List.toFinset_card_le _)
  have ht := (Finset.card_le_card htasks).trans (List.toFinset_card_le _)
  rw [List.length_map] at hk
  have := List.length_filterMap_le StateLedgerEntry.taskId records
  unfold Selection.size
  omega

/-- The closure loop ends, and then no visit of a record changes anything. -/
theorem retentionClosure_closed (records : List StateLedgerEntry) (policy : RetentionPolicy) (now : ℤ) :
    ∀ r ∈ records, visitRecord (latest records) (policy.nonRootKinds.getD [])
      (liveSets (latest records) (policy.nonRootKinds.getD []) now) r
      (retentionClosure records policy now,false) = (retentionClosure records policy now,false) :=
  saturate_closed (fun r => visitRecord_grows _ _ _ r) (I := Selection.Within records)
    (fun _ hr _ h => h.visitRecord hr _ _) (fun _ _ => Selection.size_lt) (fun _ => Selection.Within.size_le)
    (initialKeep_within records policy now) (by unfold closureFuel; omega)

/-- What holds of the kept records and their tasks once the loop has ended. -/
structure Selection.Closed (records : List StateLedgerEntry) (nonRoots : List StateLedgerRecordKind)
    (now : ℤ) (s : Selection) : Prop where
  history : ∀ r ∈ records,
    protectedHistory nonRoots (liveSets (latest records) nonRoots now) s.tasks r = true →
    r.sequence ∈ s.keep ∧ ∀ task, truthy r.taskId = some task → task ∈ s.tasks
  newest : ∀ r ∈ records, r.sequence ∈ s.keep → ∀ n, (latest records).get? (entityKey r) = some n →
    n.sequence ∈ s.keep
  referenced : ∀ r ∈ records, r.sequence ∈ s.keep → ∀ key ∈ referencedKeys r, ∀ d,
    (latest records).get? key = some d → d.sequence ∈ s.keep

lemma mem_of_addKeep_quiet {n : ℕ} {s : Selection} (h : addKeep n (s,false) = (s,false)) : n ∈ s.keep := by
  unfold addKeep at h
  split_ifs at h with hn
  · exact hn
  · cases congrArg Prod.snd h

lemma mem_of_reference_quiet {newest : Dictionary EntityKey StateLedgerEntry} {key : EntityKey}
    {s : Selection} (h : reference newest key (s,false) = (s,false)) {d : StateLedgerEntry}
    (hd : newest.get? key = some d) : d.sequence ∈ s.keep := by
  unfold reference at h
  rw [hd] at h
  exact mem_of_addKeep_quiet h

lemma mem_of_addTask_quiet {value : Option String} {s : Selection}
    (h : addTask value (s,false) = (s,false)) {task : String} (ht : truthy value = some task) :
    task ∈ s.tasks := by
  unfold addTask at h
  rw [ht] at h
  dsimp only at h
  split_ifs at h with hmem
  · exact hmem
  · cases congrArg Prod.snd h

/-- A visit that changes nothing: each of its parts changes nothing. -/
lemma visitRecord_quiet {newest : Dictionary EntityKey StateLedgerEntry}
    {nonRoots : List StateLedgerRecordKind} {live : LiveSets} {r : StateLedgerEntry} {s : Selection}
    (h : visitRecord newest nonRoots live r (s,false) = (s,false)) :
    (protectedHistory nonRoots live s.tasks r = true → addKeep r.sequence (s,false) = (s,false)) ∧
    (r.sequence ∈ s.keep →
      keepDependencies newest (protectedHistory nonRoots live s.tasks r) r (s,false) = (s,false)) := by
  obtain ⟨hkeep,hrest⟩ := Grows.comp_quiet
    (f := fun m => if protectedHistory nonRoots live s.tasks r then addKeep r.sequence m else m)
    (dependencies_grows newest (protectedHistory nonRoots live s.tasks r) r) h
  constructor
  · intro hp
    simpa only [hp, if_true] using hkeep
  · intro hmem
    simpa only [hmem, if_true] using hrest

lemma keepDependencies_quiet {newest : Dictionary EntityKey StateLedgerEntry} {isProtected : Bool}
    {r : StateLedgerEntry} {s : Selection}
    (h : keepDependencies newest isProtected r (s,false) = (s,false)) :
    reference newest (entityKey r) (s,false) = (s,false) ∧
    (isProtected = true → addTask r.taskId (s,false) = (s,false)) ∧
    ∀ key ∈ referencedKeys r, reference newest key (s,false) = (s,false) := by
  have htask : Grows (fun m => if isProtected then addTask r.taskId m else m) :=
    (addTask_grows r.taskId).ite fun _ => isProtected
  obtain ⟨hfirst,hkeys⟩ := Grows.comp_quiet
    (f := fun m => if isProtected then addTask r.taskId (reference newest (entityKey r) m)
      else reference newest (entityKey r) m)
    (Grows.foldl (reference_grows newest) (referencedKeys r)) h
  obtain ⟨hnewest,htask⟩ := Grows.comp_quiet (f := reference newest (entityKey r)) htask hfirst
  refine ⟨hnewest,?_,Grows.foldl_quiet (reference_grows newest) hkeys⟩
  intro hp
  simpa only [hp, if_true] using htask

theorem retentionClosure_spec (records : List StateLedgerEntry) (policy : RetentionPolicy) (now : ℤ) :
    (retentionClosure records policy now).Closed records (policy.nonRootKinds.getD []) now := by
  have hclosed := retentionClosure_closed records policy now
  generalize retentionClosure records policy now = s at hclosed ⊢
  have hquiet := fun r hr => visitRecord_quiet (hclosed r hr)
  have hdeps := fun r hr hmem => keepDependencies_quiet ((hquiet r hr).2 hmem)
  constructor
  · intro r hr hp
    have hmem := mem_of_addKeep_quiet ((hquiet r hr).1 hp)
    exact ⟨hmem,fun task ht => mem_of_addTask_quiet ((hdeps r hr hmem).2.1 hp) ht⟩
  · intro r hr hmem n hn
    exact mem_of_reference_quiet (hdeps r hr hmem).1 hn
  · intro r hr hmem key hkey d hd
    exact mem_of_reference_quiet ((hdeps r hr hmem).2.2 key hkey) hd

/-- The records that the policy itself keeps are kept. -/
theorem initialKeep_subset (records : List StateLedgerEntry) (policy : RetentionPolicy) (now : ℤ) :
    initialKeep records policy now ⊆ selectRetentionSequences records policy now := by
  have hle : (⟨initialKeep records policy now,∅⟩ : Selection) ≤ retentionClosure records policy now :=
    le_saturate (fun r => visitRecord_grows _ _ _ r) _ _
  exact (Selection.le_iff.mp hle).1

/-- A record whose id is protected is kept. -/
theorem protected_selected {records : List StateLedgerEntry} {policy : RetentionPolicy} {now : ℤ} {pins : List String}
    (hpins : policy.protectedRecordIds = some pins) {r : StateLedgerEntry} (hr : r ∈ records)
    (hpin : r.recordId ∈ pins) : r.sequence ∈ selectRetentionSequences records policy now := by
  apply initialKeep_subset
  simp only [initialKeep, hpins, Option.getD_some, List.mem_toFinset, List.mem_map, List.mem_append]
  exact ⟨r,Or.inl (List.mem_filter.mpr ⟨hr,by simp [hpin]⟩),rfl⟩

end OmniagentPlus.StateLedger
