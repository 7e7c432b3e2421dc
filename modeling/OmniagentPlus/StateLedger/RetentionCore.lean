import OmniagentPlus.StateLedger.Retention

/-! A retention policy does not look at what the schema may spell anew of a record. -/
namespace OmniagentPlus.StateLedger
open OmniagentPlus.Foundation OmniagentPlus.CoreContracts

section Records
variable (r : StateLedgerEntry)

@[simp] theorem core_kind : r.core.kind = r.kind := r.payload.core_kind

@[simp] theorem entityKey_core : entityKey r.core = entityKey r := by
  obtain ⟨_,_,_,_,_,_,_,payload⟩ := r
  cases payload <;> rfl

theorem scopedSession_core : scopedSession r.core = scopedSession r := by
  obtain ⟨_,_,_,_,_,_,_,payload⟩ := r
  cases payload <;> rfl

theorem referencedKeys_core : referencedKeys r.core = referencedKeys r := by
  rw [referencedKeys, scopedSession_core]
  obtain ⟨_,_,_,_,_,_,_,payload⟩ := r
  cases payload <;> rfl

theorem protectedHistory_core (nonRoots : List StateLedgerRecordKind) (live : LiveSets) (tasks : Finset String) :
    protectedHistory nonRoots live tasks r.core = protectedHistory nonRoots live tasks r := by
  rw [protectedHistory, core_kind, scopedSession_core]
  obtain ⟨_,_,_,_,_,_,_,payload⟩ := r
  cases payload <;> rfl

end Records

section Newest
variable (newest : Dictionary EntityKey StateLedgerEntry) (nonRoots : List StateLedgerRecordKind)

theorem addLive_core (now : ℤ) (s : LiveSets) (r : StateLedgerEntry) :
    addLive (newest.mapValues StateLedgerEntry.core) nonRoots now s r.core = addLive newest nonRoots now s r := by
  have hnewest : ∀ key, ((newest.mapValues StateLedgerEntry.core).get? key).isSome = (newest.get? key).isSome := by
    intro key
    rw [Dictionary.get?_mapValues, Option.isSome_map]
  simp only [addLive, core_kind, hnewest]
  obtain ⟨_,_,_,_,_,_,_,payload⟩ := r
  cases payload <;> rfl

theorem liveSets_core (now : ℤ) :
    liveSets (newest.mapValues StateLedgerEntry.core) nonRoots now = liveSets newest nonRoots now := by
  simp only [liveSets, Dictionary.values_mapValues, List.foldl_map, addLive_core]

theorem reference_core (key : EntityKey) (m : Selection × Bool) :
    reference (newest.mapValues StateLedgerEntry.core) key m = reference newest key m := by
  simp only [reference, Dictionary.get?_mapValues]
  cases newest.get? key <;> rfl

theorem visitRecord_core (live : LiveSets) (r : StateLedgerEntry) (m : Selection × Bool) :
    visitRecord (newest.mapValues StateLedgerEntry.core) nonRoots live r.core m = visitRecord newest nonRoots live r m := by
  simp only [visitRecord, keepDependencies, protectedHistory_core, entityKey_core, referencedKeys_core, reference_core]
  rfl

end Newest

section Selection
variable (records : List StateLedgerEntry) (policy : RetentionPolicy) (now : ℤ)

theorem latest_core : latest (records.map StateLedgerEntry.core) = (latest records).mapValues StateLedgerEntry.core :=
  Dictionary.indexBy_map entityKey_core records

/-- Records are chosen before or after they lose what is spelled anew. -/
theorem filter_core {p : StateLedgerEntry → Bool} (h : ∀ r, p r.core = p r) :
    (records.map StateLedgerEntry.core).filter p = (records.filter p).map StateLedgerEntry.core := by
  rw [List.filter_map]
  exact congrArg _ (List.filter_congr fun r _ => h r)

theorem initialKeep_core : initialKeep (records.map StateLedgerEntry.core) policy now = initialKeep records policy now := by
  have hnewest : ∀ kind n, ((records.map StateLedgerEntry.core).filter fun r => decide (r.kind = kind)).rtake n =
      ((records.filter fun r => decide (r.kind = kind)).rtake n).map StateLedgerEntry.core := by
    intro kind n
    rw [filter_core _ fun r => by rw [core_kind], List.rtake, List.rtake, List.length_map, List.map_drop]
  simp only [initialKeep, hnewest]
  rw [filter_core _ fun r => by rw [core_kind]; rfl]
  have hif : ∀ (b : Bool) (l : List StateLedgerEntry), (if b = true then [] else l.map StateLedgerEntry.core) =
      (if b = true then [] else l).map StateLedgerEntry.core := by
    intro b l
    cases b <;> rfl
  simp only [hif, ← List.map_flatMap, ← List.map_append]
  rw [List.map_map]
  rfl

theorem selectRetentionSequences_core :
    selectRetentionSequences (records.map StateLedgerEntry.core) policy now = selectRetentionSequences records policy now := by
  have hvisit : ∀ live, (fun r : StateLedgerEntry => visitRecord ((latest records).mapValues StateLedgerEntry.core)
      (policy.nonRootKinds.getD []) live r.core) = visitRecord (latest records) (policy.nonRootKinds.getD []) live :=
    fun live => funext fun r => funext fun m => visitRecord_core _ _ live r m
  simp only [selectRetentionSequences, retentionClosure, latest_core, liveSets_core, saturate_map, hvisit,
    initialKeep_core, closureFuel, List.length_map]

end Selection
end OmniagentPlus.StateLedger
