import OmniagentPlus.OmnigentTransport.TextGroups

/-! How `trimDeliveredHistoryText` goes about it: which message of the history is matched with which
delivered text, and what is left of a text event when a delivered front is cut off its message. -/
namespace OmniagentPlus.OmnigentTransport
open OmniagentPlus.Foundation OmniagentPlus.CoreContracts

section Matching

lemma matchGroups_of_false {p : RuntimeTextGroup → DeliveredTextGroup → Bool} {cs : List RuntimeTextGroup}
    {ds : List DeliveredTextGroup} (h : ∀ c ∈ cs, ∀ d ∈ ds, p c d = false) : matchGroups p cs ds = ⟨[],cs,ds⟩ := by
  induction cs with
  | nil => rfl
  | cons c cs ih =>
    have hfind : ds.find? (p c) = none :=
      List.find?_eq_none.mpr fun d hd => by simp [h c List.mem_cons_self d hd]
    rw [matchGroups, hfind, ih fun c' hc' => h c' (List.mem_cons_of_mem c hc')]

lemma round_of_false {p : RuntimeTextGroup → DeliveredTextGroup → Bool} {m : TextMatching}
    (h : ∀ c ∈ m.remainingCurrent, ∀ d ∈ m.remainingDelivered, p c d = false) : m.round p = m := by
  rw [TextMatching.round, matchGroups_of_false h, List.append_nil]

/-- Where a group goes with at most one other on either side, whatever goes together is matched. -/
structure Pairing (p : RuntimeTextGroup → DeliveredTextGroup → Bool) (cs : List RuntimeTextGroup)
    (ds : List DeliveredTextGroup) (m : TextMatching) : Prop where
  matched : ∀ c d, (c,d) ∈ m.matched ↔ c ∈ cs ∧ d ∈ ds ∧ p c d = true
  current : ∀ c ∈ m.remainingCurrent, c ∈ cs ∧ ∀ d ∈ ds, p c d = false
  delivered : ∀ d ∈ m.remainingDelivered, d ∈ ds ∧ ∀ c ∈ cs, p c d = false

lemma matchGroups_pairing {p : RuntimeTextGroup → DeliveredTextGroup → Bool} {cs : List RuntimeTextGroup}
    {ds : List DeliveredTextGroup} (hcs : cs.Pairwise fun c c' => ∀ d ∈ ds, p c d = true → p c' d = false)
    (hds : ds.Pairwise fun d d' => ∀ c ∈ cs, p c d = true → p c d' = false) :
    Pairing p cs ds (matchGroups p cs ds) := by
  induction cs generalizing ds with
  | nil => exact ⟨by simp [matchGroups],by simp [matchGroups],by simp [matchGroups]⟩
  | cons c cs ih =>
    obtain ⟨hc,hcs⟩ := List.pairwise_cons.mp hcs
    rw [matchGroups]
    cases hfind : ds.find? (p c) with
    | none =>
      have hno : ∀ d ∈ ds, p c d = false := by simpa using hfind
      obtain ⟨hmatched,hcurrent,hdelivered⟩ := ih hcs (hds.imp fun h c' hc' => h c' (List.mem_cons_of_mem c hc'))
      refine ⟨fun c' d => ?_,fun c' hc' => ?_,fun d hd => ?_⟩
      · rw [hmatched]
        constructor
        · intro h
          exact ⟨List.mem_cons_of_mem c h.1,h.2⟩
        · intro h
          obtain ⟨hmem,hd,hp⟩ := h
          obtain rfl | hmem := List.mem_cons.mp hmem
          · rw [hno d hd] at hp
            cases hp
          · exact ⟨hmem,hd,hp⟩
      · obtain rfl | hc' := List.mem_cons.mp hc'
        · exact ⟨List.mem_cons_self,hno⟩
        · exact ⟨List.mem_cons_of_mem c (hcurrent c' hc').1,(hcurrent c' hc').2⟩
      · obtain ⟨hmem,hfalse⟩ := hdelivered d hd
        refine ⟨hmem,fun c' hc' => ?_⟩
        obtain rfl | hc' := List.mem_cons.mp hc'
        · exact hno d hmem
        · exact hfalse c' hc'
    | some d₀ =>
      obtain ⟨hp₀,front,back,rfl,hfront⟩ := List.find?_eq_some_iff_append.mp hfind
      have hfront : ∀ d ∈ front, p c d = false := fun d hd => by simpa using hfront d hd
      have herase : (front ++ d₀ :: back).eraseP (p c) = front ++ back := by
        rw [List.eraseP_append_right _ fun d hd => by simp [hfront d hd], List.eraseP_cons_of_pos hp₀]
      have hsub : (front ++ back).Sublist (front ++ d₀ :: back) := (List.sublist_cons_self d₀ back).append_left front
      have hback : ∀ d ∈ back, p c d = false := fun d hd =>
        (List.pairwise_cons.mp (List.pairwise_append.mp hds).2.1).1 d hd c List.mem_cons_self hp₀
      have hmid : ∀ c' ∈ cs, p c' d₀ = false := fun c' hc' => hc c' hc' d₀ (by simp) hp₀
      rw [herase]
      have hrest := @ih (front ++ back) (hcs.imp fun h d hd => h d (hsub.subset hd))
        ((hds.sublist hsub).imp fun h c' hc' => h c' (List.mem_cons_of_mem c hc'))
      refine ⟨fun c' d => ?_,fun c' hc' => ?_,fun d hd => ?_⟩
      · rw [List.mem_cons, hrest.matched, Prod.mk.injEq]
        constructor
        · intro h
          obtain ⟨rfl,rfl⟩ | ⟨hmem,hd,hp⟩ := h
          · exact ⟨List.mem_cons_self,by simp,hp₀⟩
          · exact ⟨List.mem_cons_of_mem c hmem,hsub.subset hd,hp⟩
        · intro h
          obtain ⟨hmem,hd,hp⟩ := h
          have hother : d = d₀ ∨ d ∈ front ++ back := by
            simpa [or_left_comm, or_comm, or_assoc] using hd
          obtain rfl | hmem := List.mem_cons.mp hmem
          · obtain rfl | hd := hother
            · exact Or.inl ⟨rfl,rfl⟩
            · obtain hd | hd := List.mem_append.mp hd
              · rw [hfront d hd] at hp
                cases hp
              · rw [hback d hd] at hp
                cases hp
          · obtain rfl | hd := hother
            · rw [hmid c' hmem] at hp
              cases hp
            · exact Or.inr ⟨hmem,hd,hp⟩
      · obtain ⟨hmem,hfalse⟩ := hrest.current c' hc'
        refine ⟨List.mem_cons_of_mem c hmem,fun d hd => ?_⟩
        obtain hd | hd := List.mem_append.mp hd
        · exact hfalse d (List.mem_append_left back hd)
        · obtain rfl | hd := List.mem_cons.mp hd
          · exact hmid c' hmem
          · exact hfalse d (List.mem_append_right front hd)
      · obtain ⟨hmem,hfalse⟩ := hrest.delivered d hd
        refine ⟨hsub.subset hmem,fun c' hc' => ?_⟩
        obtain rfl | hc' := List.mem_cons.mp hc'
        · obtain hd | hd := List.mem_append.mp hmem
          · exact hfront d hd
          · exact hback d hd
        · exact hfalse c' hc'

end Matching

section Cutting

lemma cutGroup_other (remaining : Text) (l : List (ℕ × Text)) (d : Dictionary ℕ Text) {place : ℕ}
    (h : place ∉ l.map Prod.fst) : (cutGroup remaining l d).get? place = d.get? place := by
  induction l generalizing remaining d with
  | nil => rfl
  | cons p l ih =>
    obtain ⟨q,delta⟩ := p
    rw [List.map_cons, List.mem_cons, not_or] at h
    rw [cutGroup]
    split_ifs
    · rw [ih _ _ h.2, Dictionary.get?_set_of_ne _ _ h.1]
    · rw [ih _ _ h.2, Dictionary.get?_set_of_ne _ _ h.1]
    · exact ih _ _ h.2

/-- Of a text in a group stays what lies behind the delivered front of the group. -/
lemma cutGroup_here (remaining : Text) (l r : List (ℕ × Text)) (d : Dictionary ℕ Text) {place : ℕ} {delta : Text}
    (hfront : remaining <+: ((l ++ (place,delta) :: r).map Prod.snd).flatten)
    (hplaces : ((l ++ (place,delta) :: r).map Prod.fst).Nodup) :
    (cutGroup remaining (l ++ (place,delta) :: r) d).get? place =
      some (delta.drop (remaining.length - (l.map Prod.snd).flatten.length)) := by
  induction l generalizing remaining d with
  | nil =>
    have hnot : place ∉ r.map Prod.fst := by
      rw [List.nil_append, List.map_cons] at hplaces
      exact (List.nodup_cons.mp hplaces).1
    rw [List.nil_append, cutGroup]
    split_ifs with hleft hright
    · have hlong := (List.isPrefixOf_iff_prefix.mp hleft).length_le
      rw [cutGroup_other _ _ _ hnot, Dictionary.get?_set_self, List.map_nil, List.flatten_nil, List.length_nil,
        Nat.sub_zero, List.drop_eq_nil_of_le hlong]
    · rw [cutGroup_other _ _ _ hnot, Dictionary.get?_set_self]
      rfl
    · rw [List.nil_append, List.map_cons, List.flatten_cons] at hfront
      obtain hshort | hlong := List.prefix_or_prefix_of_prefix hfront (List.prefix_append _ _)
      · exact absurd (List.isPrefixOf_iff_prefix.mpr hshort) hright
      · exact absurd (List.isPrefixOf_iff_prefix.mpr hlong) hleft
  | cons p l ih =>
    obtain ⟨q,first⟩ := p
    simp only [List.cons_append, List.map_cons, List.flatten_cons] at hfront hplaces ⊢
    have hrest := (List.nodup_cons.mp hplaces).2
    rw [cutGroup]
    split_ifs with hleft hright
    · obtain ⟨rest,rfl⟩ := List.isPrefixOf_iff_prefix.mp hleft
      rw [List.drop_left, ih rest _ ((List.prefix_append_right_inj first).mp hfront) hrest]
      congr 2
      simp only [List.length_append]
      omega
    · have hshort := (List.isPrefixOf_iff_prefix.mp hright).length_le
      rw [ih [] _ List.nil_prefix hrest]
      congr 2
      simp only [List.length_append, List.length_nil]
      omega
    · obtain hshort | hlong := List.prefix_or_prefix_of_prefix hfront (List.prefix_append _ _)
      · exact absurd (List.isPrefixOf_iff_prefix.mpr hshort) hright
      · exact absurd (List.isPrefixOf_iff_prefix.mpr hlong) hleft

/-- Groups cut one after another, where those that hold a place agree on it. -/
lemma foldl_cutGroup {jobs : List (Text × List (ℕ × Text))} {place : ℕ} {rest : Text} (d : Dictionary ℕ Text)
    (hagree : ∀ job ∈ jobs, place ∈ job.2.map Prod.fst → ∀ d, (cutGroup job.1 job.2 d).get? place = some rest)
    (hhere : d.get? place = some rest ∨ ∃ job ∈ jobs, place ∈ job.2.map Prod.fst) :
    (jobs.foldl (fun d job => cutGroup job.1 job.2 d) d).get? place = some rest := by
  induction jobs generalizing d with
  | nil => simpa using hhere
  | cons job jobs ih =>
    rw [List.foldl_cons]
    refine ih _ (fun job' hjob => hagree job' (List.mem_cons_of_mem job hjob)) ?_
    by_cases hplace : place ∈ job.2.map Prod.fst
    · exact Or.inl (hagree job List.mem_cons_self hplace d)
    · rw [cutGroup_other _ _ _ hplace]
      refine hhere.imp_right fun hexists => ?_
      obtain ⟨job',hjob,hin⟩ := hexists
      obtain rfl | hjob := List.mem_cons.mp hjob
      · exact absurd hin hplace
      · exact ⟨job',hjob,hin⟩

lemma foldl_cutGroup_other {jobs : List (Text × List (ℕ × Text))} {place : ℕ} (d : Dictionary ℕ Text)
    (h : ∀ job ∈ jobs, place ∉ job.2.map Prod.fst) :
    (jobs.foldl (fun d job => cutGroup job.1 job.2 d) d).get? place = d.get? place := by
  induction jobs generalizing d with
  | nil => rfl
  | cons job jobs ih =>
    rw [List.foldl_cons, ih _ fun job' hjob => h job' (List.mem_cons_of_mem job hjob),
      cutGroup_other _ _ _ (h job List.mem_cons_self)]

end Cutting
namespace EventReplay

/-- The text of each message that a reader with the cursor has. -/
def deliveredTo (s : EventReplay) (sessionId : Text) (afterSequence : Option ℕ) (turnId key : Text) : Option Text :=
  afterSequence.bind fun cursor => ((s.deliveredGroups (turnKey sessionId turnId) cursor).get? key).map (·.text)

end EventReplay
end OmniagentPlus.OmnigentTransport
