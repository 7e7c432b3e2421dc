import OmniagentPlus.StateLedger.RetentionSnapshot

/-! The closure loop of `selectRetentionSequences` ends by itself, and the policy applied again to
the records it selected selects all of them again. -/
namespace OmniagentPlus.StateLedger
open OmniagentPlus.Foundation OmniagentPlus.CoreContracts

/-- The loop as the code has it, without a limit: no value where it has not ended after so many turns. -/
def closureLoop (records : List StateLedgerEntry) (policy : RetentionPolicy) (now : ℤ) (turns : ℕ) :
    Option Selection :=
  let newest := latest records
  let nonRoots := policy.nonRootKinds.getD []
  whileChanged (visitRecord newest nonRoots (liveSets newest nonRoots now)) records turns
    ⟨initialKeep records policy now,∅⟩

theorem closureLoop_ends (records : List StateLedgerEntry) (policy : RetentionPolicy) (now : ℤ) :
    closureLoop records policy now (closureFuel records) = some (retentionClosure records policy now) :=
  whileChanged_saturate (fun r => visitRecord_grows _ _ _ r) (I := Selection.Within records)
    (fun _ hr _ h => h.visitRecord hr _ _) (fun _ _ => Selection.size_lt) (fun _ => Selection.Within.size_le)
    (initialKeep_within records policy now) (by unfold closureFuel; omega)

section Live
variable {newest : Dictionary EntityKey StateLedgerEntry} {nonRoots : List StateLedgerRecordKind} {now : ℤ}

structure LiveSets.Sub (s t : LiveSets) : Prop where
  sessions : s.sessions ⊆ t.sessions
  turns : s.turns ⊆ t.turns
  leases : s.leases ⊆ t.leases
  requests : s.requests ⊆ t.requests

lemma LiveSets.Sub.refl (s : LiveSets) : s.Sub s :=
  ⟨Finset.Subset.refl _,Finset.Subset.refl _,Finset.Subset.refl _,Finset.Subset.refl _⟩

lemma LiveSets.Sub.trans {s t u : LiveSets} (h : s.Sub t) (h' : t.Sub u) : s.Sub u :=
  ⟨h.sessions.trans h'.sessions,h.turns.trans h'.turns,h.leases.trans h'.leases,h.requests.trans h'.requests⟩

lemma LiveSets.Sub.antisymm {s t : LiveSets} (h : s.Sub t) (h' : t.Sub s) : s = t := by
  cases s
  cases t
  rw [LiveSets.mk.injEq]
  exact ⟨Finset.Subset.antisymm h.sessions h'.sessions,Finset.Subset.antisymm h.turns h'.turns,
    Finset.Subset.antisymm h.leases h'.leases,Finset.Subset.antisymm h.requests h'.requests⟩

lemma LiveSets.empty_sub (s : LiveSets) : LiveSets.Sub ⟨∅,∅,∅,∅⟩ s :=
  ⟨Finset.empty_subset _,Finset.empty_subset _,Finset.empty_subset _,Finset.empty_subset _⟩

def LiveSets.union (s t : LiveSets) : LiveSets :=
  ⟨s.sessions ∪ t.sessions,s.turns ∪ t.turns,s.leases ∪ t.leases,s.requests ∪ t.requests⟩

lemma LiveSets.sub_union_left (s t : LiveSets) : s.Sub (s.union t) :=
  ⟨Finset.subset_union_left,Finset.subset_union_left,Finset.subset_union_left,Finset.subset_union_left⟩

lemma LiveSets.sub_union_right (s t : LiveSets) : t.Sub (s.union t) :=
  ⟨Finset.subset_union_right,Finset.subset_union_right,Finset.subset_union_right,Finset.subset_union_right⟩

lemma LiveSets.Sub.union {s t u : LiveSets} (h : s.Sub u) (h' : t.Sub u) : (s.union t).Sub u :=
  ⟨Finset.union_subset h.sessions h'.sessions,Finset.union_subset h.turns h'.turns,
    Finset.union_subset h.leases h'.leases,Finset.union_subset h.requests h'.requests⟩

/-- What one newest record makes live. -/
def liveOf (newest : Dictionary EntityKey StateLedgerEntry) (nonRoots : List StateLedgerRecordKind) (now : ℤ)
    (r : StateLedgerEntry) : LiveSets :=
  addLive newest nonRoots now ⟨∅,∅,∅,∅⟩ r

lemma addLive_eq (s : LiveSets) (r : StateLedgerEntry) :
    addLive newest nonRoots now s r = s.union (liveOf newest nonRoots now r) := by
  obtain ⟨sessions,turns,leases,requests⟩ := s
  unfold liveOf addLive
  split
  · simp [LiveSets.union]
  · split
    · split <;> simp [LiveSets.union, LiveSets.addSession]
    · split <;> simp [LiveSets.union, LiveSets.addSession, LiveSets.addTurn]
    · rename_i p _
      split
      · cases truthy p.holder.turnId <;> cases truthy p.holder.sessionId <;>
          simp [LiveSets.union, LiveSets.addSession, LiveSets.addTurn]
      · simp [LiveSets.union]
    · split <;> simp [LiveSets.union, LiveSets.addSession, LiveSets.addTurn]
    · simp [LiveSets.union]

lemma sub_foldl_addLive (l : List StateLedgerEntry) (s : LiveSets) :
    s.Sub (l.foldl (addLive newest nonRoots now) s) ∧
      ∀ r ∈ l, (liveOf newest nonRoots now r).Sub (l.foldl (addLive newest nonRoots now) s) := by
  induction l generalizing s with
  | nil => exact ⟨LiveSets.Sub.refl s,fun r hr => absurd hr List.not_mem_nil⟩
  | cons a l ih =>
    obtain ⟨hs,hl⟩ := ih (addLive newest nonRoots now s a)
    rw [List.foldl_cons]
    constructor
    · refine LiveSets.Sub.trans ?_ hs
      rw [addLive_eq]
      exact LiveSets.sub_union_left _ _
    · intro r hr
      rcases List.mem_cons.mp hr with rfl | hr
      · refine LiveSets.Sub.trans ?_ hs
        rw [addLive_eq]
        exact LiveSets.sub_union_right _ _
      · exact hl r hr

lemma foldl_addLive_sub {l : List StateLedgerEntry} {s t : LiveSets} (hs : s.Sub t)
    (hl : ∀ r ∈ l, (liveOf newest nonRoots now r).Sub t) : (l.foldl (addLive newest nonRoots now) s).Sub t := by
  induction l generalizing s with
  | nil => exact hs
  | cons a l ih =>
    rw [List.foldl_cons]
    apply ih
    · rw [addLive_eq]
      exact hs.union (hl a List.mem_cons_self)
    · exact fun r hr => hl r (List.mem_cons_of_mem a hr)

/-- What a newest record makes live is live. -/
lemma liveOf_sub {k : EntityKey} {r : StateLedgerEntry} (h : newest.get? k = some r) :
    (liveOf newest nonRoots now r).Sub (liveSets newest nonRoots now) :=
  (sub_foldl_addLive _ _).2 r ((Dictionary.mem_values_iff _ _).mpr ⟨k,h⟩)

/-- Nothing is live but what some newest record makes live. -/
lemma liveSets_sub {t : LiveSets} (h : ∀ k r, newest.get? k = some r → (liveOf newest nonRoots now r).Sub t) :
    (liveSets newest nonRoots now).Sub t := by
  refine foldl_addLive_sub (LiveSets.empty_sub t) fun r hr => ?_
  obtain ⟨k,hk⟩ := (Dictionary.mem_values_iff _ _).mp hr
  exact h k r hk

/-- Of the other records, only the answer to a request decides what a record makes live. -/
lemma liveOf_congr {newest' : Dictionary EntityKey StateLedgerEntry} {r : StateLedgerEntry}
    (h : ∀ p, r.payload = .approvalRequest p → newest'.get? (responseKey p) = newest.get? (responseKey p)) :
    liveOf newest' nonRoots now r = liveOf newest nonRoots now r := by
  unfold liveOf addLive
  cases hp : r.payload with
  | approvalRequest p => simp only [h p hp]
  | _ => rfl

lemma protectedHistory_mono {live live' : LiveSets} (hlive : live.Sub live') {tasks tasks' : Finset String}
    (htasks : tasks ⊆ tasks') {r : StateLedgerEntry} (h : protectedHistory nonRoots live tasks r = true) :
    protectedHistory nonRoots live' tasks' r = true := by
  simp only [protectedHistory, Bool.and_eq_true, Bool.or_eq_true, Option.any_eq_true, decide_eq_true_eq] at h ⊢
  refine ⟨h.1,?_⟩
  rcases h.2 with ((⟨id,hid,hs⟩ | ht) | ⟨task,hid,ht⟩) | hp
  · exact Or.inl (Or.inl (Or.inl ⟨id,hid,hlive.sessions hs⟩))
  · exact Or.inl (Or.inl (Or.inr (hlive.turns ht)))
  · exact Or.inl (Or.inr ⟨task,hid,htasks ht⟩)
  · right
    cases hpayload : r.payload with
    | worktreeLease p =>
      simp only [hpayload, decide_eq_true_eq] at hp ⊢
      exact hlive.leases hp
    | approvalRequest p =>
      simp only [hpayload, decide_eq_true_eq] at hp ⊢
      exact hlive.requests hp
    | _ => simp [hpayload] at hp

end Live

/-- A newest record that makes anything live is itself protected history. -/
lemma protected_of_live {ledger : Ledger} (nonRoots : List StateLedgerRecordKind) (now : ℤ) {k : EntityKey}
    {r : StateLedgerEntry} (h : (latest ledger.records).get? k = some r) (tasks : Finset String) :
    liveOf (latest ledger.records) nonRoots now r = ⟨∅,∅,∅,∅⟩ ∨
      protectedHistory nonRoots (liveSets (latest ledger.records) nonRoots now) tasks r = true := by
  have hr := (Dictionary.mem_of_get?_indexBy h).1
  have hsub : (liveOf (latest ledger.records) nonRoots now r).Sub (liveSets (latest ledger.records) nonRoots now) :=
    liveOf_sub h
  have hscope := (normalizeLedgerScope_scope (ledger.normalized r hr)).2.1
  have hnonempty : r.sessionId ≠ some "" := by
    have := ledger.allowed r hr
    simp only [StateLedgerEntry.envelopeAllowed, Bool.and_eq_true, bne_iff_ne] at this
    exact this.1.1.2
  generalize liveSets (latest ledger.records) nonRoots now = live at hsub ⊢
  unfold liveOf addLive at hsub ⊢
  split_ifs at hsub ⊢ with hroot
  · exact Or.inl rfl
  · have hroot : r.kind ∉ nonRoots := by simpa using hroot
    have hsession : ∀ id, r.payload.scope.1 = some id → scopedSession r = some id → id ∈ live.sessions →
        protectedHistory nonRoots live tasks r = true := by
      intro id hid hscoped hmem
      have hne : id ≠ "" := fun he => hnonempty (by rw [hscope id hid, he])
      simp [protectedHistory, hroot, hscoped, truthy, Option.filter, hne, hmem]
    cases hp : r.payload with
    | session p =>
      simp only [hp] at hsub ⊢
      split_ifs at hsub ⊢
      · exact Or.inl rfl
      · refine Or.inr (hsession p.id (by rw [hp]; rfl) (by simp [scopedSession, hp]) (hsub.sessions ?_))
        simp [LiveSets.addSession]
    | turn p =>
      simp only [hp] at hsub ⊢
      split_ifs at hsub ⊢
      · exact Or.inl rfl
      · have hid : r.payload.scope.1 = some p.sessionId := by rw [hp]; rfl
        refine Or.inr (hsession p.sessionId hid (by simp [scopedSession, hp, hscope _ hid]) (hsub.sessions ?_))
        simp [LiveSets.addSession]
    | worktreeLease p =>
      simp only [hp] at hsub ⊢
      split_ifs at hsub ⊢
      · right
        have hmem : p.id ∈ live.leases := by
          apply hsub.leases
          cases truthy p.holder.sessionId <;> cases truthy p.holder.turnId <;>
            simp [LiveSets.addSession, LiveSets.addTurn]
        simp [protectedHistory, hroot, hp, hmem]
      · exact Or.inl rfl
    | approvalRequest p =>
      simp only [hp] at hsub ⊢
      split_ifs at hsub ⊢
      · exact Or.inl rfl
      · right
        have hmem : (p.sessionId,p.turnId,p.approvalRequestId) ∈ live.requests := by
          apply hsub.requests
          simp [LiveSets.addSession, LiveSets.addTurn]
        simp [protectedHistory, hroot, hp, hmem]
    | _ => exact Or.inl rfl

section Least
variable {records : List StateLedgerEntry} {nonRoots : List StateLedgerRecordKind} {now : ℤ} {s : Selection}

lemma addKeep_le {m : Selection × Bool} (hm : m.1 ≤ s) {n : ℕ} (hn : n ∈ s.keep) : (addKeep n m).1 ≤ s := by
  unfold addKeep
  split_ifs
  · exact hm
  · obtain ⟨hkeep,htasks⟩ := Selection.le_iff.mp hm
    exact Selection.le_iff.mpr ⟨Finset.insert_subset hn hkeep,htasks⟩

lemma addTask_le {m : Selection × Bool} (hm : m.1 ≤ s) {value : Option String}
    (h : ∀ task, truthy value = some task → task ∈ s.tasks) : (addTask value m).1 ≤ s := by
  unfold addTask
  cases hv : truthy value with
  | none => exact hm
  | some task =>
    dsimp only
    split_ifs
    · exact hm
    · obtain ⟨hkeep,htasks⟩ := Selection.le_iff.mp hm
      exact Selection.le_iff.mpr ⟨hkeep,Finset.insert_subset (h task hv) htasks⟩

lemma reference_le {newest : Dictionary EntityKey StateLedgerEntry} {m : Selection × Bool} (hm : m.1 ≤ s)
    {key : EntityKey} (h : ∀ d, newest.get? key = some d → d.sequence ∈ s.keep) :
    (reference newest key m).1 ≤ s := by
  unfold reference
  cases hd : newest.get? key with
  | none => exact hm
  | some d => exact addKeep_le hm (h d hd)

lemma references_le {newest : Dictionary EntityKey StateLedgerEntry} {keys : List EntityKey} {m : Selection × Bool}
    (hm : m.1 ≤ s) (h : ∀ key ∈ keys, ∀ d, newest.get? key = some d → d.sequence ∈ s.keep) :
    (keys.foldl (fun m key => reference newest key m) m).1 ≤ s := by
  induction keys generalizing m with
  | nil => exact hm
  | cons key keys ih =>
    exact ih (reference_le hm (h key List.mem_cons_self)) fun k hk => h k (List.mem_cons_of_mem key hk)

/-- A visit does not leave a closed selection. -/
lemma visitRecord_le (hs : s.Closed records nonRoots now) {r : StateLedgerEntry} (hr : r ∈ records)
    {m : Selection × Bool} (hm : m.1 ≤ s) :
    (visitRecord (latest records) nonRoots (liveSets (latest records) nonRoots now) r m).1 ≤ s := by
  have hhistory : protectedHistory nonRoots (liveSets (latest records) nonRoots now) m.1.tasks r = true →
      r.sequence ∈ s.keep ∧ ∀ task, truthy r.taskId = some task → task ∈ s.tasks :=
    fun hp => hs.history r hr (protectedHistory_mono (LiveSets.Sub.refl _) (Selection.le_iff.mp hm).2 hp)
  unfold visitRecord
  dsimp only
  generalize protectedHistory nonRoots (liveSets (latest records) nonRoots now) m.1.tasks r = protect at hhistory ⊢
  have hkept : (if protect = true then addKeep r.sequence m else m).1 ≤ s := by
    split_ifs with hp
    · exact addKeep_le hm (hhistory hp).1
    · exact hm
  generalize (if protect = true then addKeep r.sequence m else m) = m' at hkept ⊢
  split_ifs with hmem
  · have hmem := (Selection.le_iff.mp hkept).1 hmem
    refine references_le ?_ (hs.referenced r hr hmem)
    have hnewest := reference_le hkept (hs.newest r hr hmem)
    split_ifs with hp
    · exact addTask_le hnewest (hhistory hp).2
    · exact hnewest
  · exact hkept

/-- The loop selects the least closed selection with what the policy keeps by itself. -/
theorem retentionClosure_le {policy : RetentionPolicy} (hs : s.Closed records (policy.nonRootKinds.getD []) now)
    (hkeep : initialKeep records policy now ⊆ s.keep) : retentionClosure records policy now ≤ s := by
  refine saturate_invariant (I := fun t => t ≤ s) (fun r hr m hm => visitRecord_le hs hr hm) _ ?_
  exact Selection.le_iff.mpr ⟨hkeep,Finset.empty_subset _⟩

end Least

/-- A filter that lets the last few elements through leaves them the last few. -/
lemma rtake_filter {α : Type} (p : α → Bool) (l : List α) (n : ℕ) (h : ∀ a ∈ l.rtake n, p a = true) :
    l.rtake n ⊆ (l.filter p).rtake n := by
  have hsplit : l.take (l.length - n) ++ l.rtake n = l := List.take_append_drop _ _
  have hfilter : l.filter p = (l.take (l.length - n)).filter p ++ l.rtake n := by
    conv_lhs => rw [← hsplit]
    rw [List.filter_append, List.filter_eq_self.mpr h]
  have hlength : (l.rtake n).length ≤ n := by
    simp only [List.rtake, List.length_drop]
    omega
  have hfront : ∀ front : List α, l.rtake n ⊆ (front ++ l.rtake n).rtake n := by
    intro front a ha
    have hdrop : (front ++ l.rtake n).length - n - front.length = 0 := by
      rw [List.length_append]
      omega
    rw [List.rtake.eq_1 (front ++ l.rtake n) n, List.drop_append, hdrop, List.drop_zero]
    exact List.mem_append_right _ ha
  rw [hfilter]
  exact hfront _

section Again
variable (ledger : Ledger) (policy : RetentionPolicy) (now : ℤ)

/-- The newest record of an entity with a retained record is retained. -/
lemma latest_again {r : StateLedgerEntry} (hr : r ∈ retained ledger.records policy now) {k : EntityKey}
    (hk : k = entityKey r ∨ k ∈ referencedKeys r) :
    (latest (retained ledger.records policy now)).get? k = (latest ledger.records).get? k := by
  obtain ⟨hmem,hkeep⟩ := mem_retained.mp hr
  have hclosed := retentionClosure_spec ledger.records policy now
  apply latest_retained
  intro d hd
  rcases hk with rfl | hk
  · exact hclosed.newest r hmem hkeep d hd
  · exact hclosed.referenced r hmem hkeep k hk d hd

lemma latest_of_again {k : EntityKey} {r : StateLedgerEntry}
    (h : (latest (retained ledger.records policy now)).get? k = some r) :
    r ∈ retained ledger.records policy now ∧ (latest ledger.records).get? k = some r := by
  obtain ⟨hr,hkey⟩ := Dictionary.mem_of_get?_indexBy h
  exact ⟨hr,by rw [← latest_again ledger policy now hr (Or.inl hkey.symm), h]⟩

lemma liveOf_again {nonRoots : List StateLedgerRecordKind} {r : StateLedgerEntry}
    (hr : r ∈ retained ledger.records policy now) :
    liveOf (latest (retained ledger.records policy now)) nonRoots now r =
      liveOf (latest ledger.records) nonRoots now r := by
  refine liveOf_congr fun p hp => latest_again ledger policy now hr (Or.inr ?_)
  simp [referencedKeys, hp]

/-- The same is live in the retained records. -/
lemma liveSets_again :
    liveSets (latest (retained ledger.records policy now)) (policy.nonRootKinds.getD []) now =
      liveSets (latest ledger.records) (policy.nonRootKinds.getD []) now := by
  have hsub : (liveSets (latest (retained ledger.records policy now)) (policy.nonRootKinds.getD []) now).Sub
      (liveSets (latest ledger.records) (policy.nonRootKinds.getD []) now) := by
    refine liveSets_sub fun k r hk => ?_
    obtain ⟨hr,hk⟩ := latest_of_again ledger policy now hk
    rw [liveOf_again ledger policy now hr]
    exact liveOf_sub hk
  have hsup : (liveSets (latest ledger.records) (policy.nonRootKinds.getD []) now).Sub
      (liveSets (latest (retained ledger.records policy now)) (policy.nonRootKinds.getD []) now) := by
    refine liveSets_sub fun k r hk => ?_
    obtain ⟨hmem,hkey⟩ := Dictionary.mem_of_get?_indexBy hk
    rcases protected_of_live (policy.nonRootKinds.getD []) now hk
      (retentionClosure ledger.records policy now).tasks with hempty | hprotected
    · rw [hempty]
      exact LiveSets.empty_sub _
    · -- what makes something live is kept, so it is among the retained newest records too
      have hkeep := ((retentionClosure_spec ledger.records policy now).history r hmem hprotected).1
      have hr : r ∈ retained ledger.records policy now := mem_retained.mpr ⟨hmem,hkeep⟩
      rw [← liveOf_again ledger policy now hr]
      apply liveOf_sub (k := k)
      rw [latest_again ledger policy now hr (Or.inl hkey.symm), hk]
  exact hsub.antisymm hsup

/-- What the policy keeps by itself it keeps by itself among the retained records. -/
lemma initialKeep_again :
    initialKeep ledger.records policy now ⊆ initialKeep (retained ledger.records policy now) policy now := by
  have hselected := initialKeep_subset ledger.records policy now
  intro n hn
  have hr : ∀ r ∈ ledger.records, r.sequence ∈ initialKeep ledger.records policy now →
      r ∈ retained ledger.records policy now := fun r hr hn => mem_retained.mpr ⟨hr,hselected hn⟩
  unfold initialKeep at hn hr ⊢
  simp only [List.mem_toFinset, List.mem_map, List.mem_append] at hn hr ⊢
  obtain ⟨r,hcases,rfl⟩ := hn
  refine ⟨r,?_,rfl⟩
  rcases hcases with hrooted | hnewest
  · have hrooted' := List.mem_filter.mp hrooted
    exact Or.inl (List.mem_filter.mpr ⟨hr r hrooted'.1 ⟨r,Or.inl hrooted,rfl⟩,hrooted'.2⟩)
  · right
    obtain ⟨kind,hkind,hmem⟩ := List.mem_flatMap.mp hnewest
    refine List.mem_flatMap.mpr ⟨kind,hkind,?_⟩
    split_ifs at hmem ⊢ with hskip
    · exact hmem
    · rw [retained, List.filter_comm]
      refine rtake_filter _ _ _ (fun a ha => ?_) hmem
      have ha' := (List.mem_filter.mp (List.mem_of_mem_drop ha)).1
      refine decide_eq_true (mem_retained.mp (hr a ha' ⟨a,Or.inr (List.mem_flatMap.mpr ⟨kind,hkind,?_⟩),rfl⟩)).2
      rw [if_neg hskip]
      exact ha

/-- Applied again, the policy selects the same records and tasks. -/
theorem retentionClosure_again :
    retentionClosure (retained ledger.records policy now) policy now =
      retentionClosure ledger.records policy now := by
  have hfirst := retentionClosure_spec ledger.records policy now
  have hagain := retentionClosure_spec (retained ledger.records policy now) policy now
  have hlive := liveSets_again ledger policy now
  have hkept : ∀ r ∈ ledger.records, r.sequence ∈ (retentionClosure ledger.records policy now).keep →
      r ∈ retained ledger.records policy now := fun r hr hn => mem_retained.mpr ⟨hr,hn⟩
  have hle : retentionClosure (retained ledger.records policy now) policy now ≤
      retentionClosure ledger.records policy now := by
    apply retentionClosure_le
    · constructor
      · intro r hr hp
        rw [hlive] at hp
        exact hfirst.history r (mem_retained.mp hr).1 hp
      · intro r hr hn d hd
        exact hfirst.newest r (mem_retained.mp hr).1 hn d (by rw [← hd, latest_again ledger policy now hr (Or.inl rfl)])
      · intro r hr hn key hkey d hd
        exact hfirst.referenced r (mem_retained.mp hr).1 hn key hkey d
          (by rw [← hd, latest_again ledger policy now hr (Or.inr hkey)])
    · intro n hn
      obtain ⟨r,hr,rfl⟩ := (initialKeep_within _ policy now).keep n hn
      exact (mem_retained.mp hr).2
  obtain ⟨hkeep,htasks⟩ := Selection.le_iff.mp hle
  refine le_antisymm hle (retentionClosure_le ?_ ?_)
  · constructor
    · intro r hr hp
      have hn := (hfirst.history r hr (protectedHistory_mono (LiveSets.Sub.refl _) htasks hp)).1
      rw [← hlive] at hp
      exact hagain.history r (hkept r hr hn) hp
    · intro r hr hn d hd
      have hr' := hkept r hr (hkeep hn)
      exact hagain.newest r hr' hn d (by rw [← hd, latest_again ledger policy now hr' (Or.inl rfl)])
    · intro r hr hn key hkey d hd
      have hr' := hkept r hr (hkeep hn)
      exact hagain.referenced r hr' hn key hkey d
        (by rw [← hd, latest_again ledger policy now hr' (Or.inr hkey)])
  · exact (initialKeep_again ledger policy now).trans (initialKeep_subset _ policy now)

/-- The closure loop of `selectRetentionSequences` ends, and the policy applied again at the same
time to the records it selected selects all of them again. -/
theorem retention_settles :
    (∃ turns s, closureLoop ledger.records policy now turns = some s ∧
        s.keep = selectRetentionSequences ledger.records policy now) ∧
      retained (retained ledger.records policy now) policy now = retained ledger.records policy now := by
  refine ⟨⟨_,_,closureLoop_ends ledger.records policy now,rfl⟩,?_⟩
  rw [retained.eq_1 (retained ledger.records policy now), selectRetentionSequences, retentionClosure_again,
    List.filter_eq_self]
  intro r hr
  exact decide_eq_true (mem_retained.mp hr).2

end Again
end OmniagentPlus.StateLedger
