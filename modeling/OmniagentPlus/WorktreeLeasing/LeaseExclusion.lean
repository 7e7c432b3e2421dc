import OmniagentPlus.WorktreeLeasing.LeaseStore

/-! Exclusion of hard leases in the stored state of `LocalLeaseStore`, over every run. -/
namespace OmniagentPlus.WorktreeLeasing
open OmniagentPlus.Foundation OmniagentPlus.CoreContracts

abbrev Leases := Dictionary Text ConsiliencyLease

/-- No two hard leases overlap. -/
def Exclusive (d : Leases) : Prop :=
  ∀ j k a b, d.get? j = some a → d.get? k = some b → j ≠ k → a.mode = .hard → b.mode = .hard →
    ¬ ScopesOverlap a.scope b.scope

/-- Every lease of `d` continues one of `e`: the same key, mode and scope. -/
def Continues (d e : Leases) : Prop :=
  ∀ k l, d.get? k = some l → ∃ old, e.get? k = some old ∧ l.mode = old.mode ∧ l.scope = old.scope

theorem Continues.refl (d : Leases) : Continues d d := fun _ l h => ⟨l,h,rfl,rfl⟩

theorem Continues.trans {d e f : Leases} (hde : Continues d e) (hef : Continues e f) :
    Continues d f := by
  intro k l hl
  obtain ⟨m,hm,hmode,hscope⟩ := hde k l hl
  obtain ⟨n,hn,hmode',hscope'⟩ := hef k m hm
  exact ⟨n,hn,hmode.trans hmode',hscope.trans hscope'⟩

theorem Continues.erase (d : Leases) (k : Text) : Continues (d.erase k) d := by
  intro j l hl
  rw [Dictionary.get?_erase] at hl
  split_ifs at hl
  exact ⟨l,hl,rfl,rfl⟩

theorem Continues.set {d : Leases} {k : Text} {old new : ConsiliencyLease} (h : d.get? k = some old)
    (hmode : new.mode = old.mode) (hscope : new.scope = old.scope) : Continues (d.set k new) d := by
  intro j l hl
  rw [Dictionary.get?_set] at hl
  split_ifs at hl with hj
  · subst hj
    cases hl
    exact ⟨old,h,hmode,hscope⟩
  · exact ⟨l,hl,rfl,rfl⟩

theorem Continues.expireState (state : LocalLeaseStoreState) (now : ℤ) :
    Continues (expireState state now).1.leases state.leases := by
  intro k l hl
  rw [get?_expireState] at hl
  exact ⟨l,(Option.filter_eq_some_iff.mp hl).1,rfl,rfl⟩

theorem Exclusive.insert {d : Leases} {k : Text} {new : ConsiliencyLease} (hd : Exclusive d)
    (h : ∀ j a, d.get? j = some a → a.mode = .hard → new.mode = .hard →
      ¬ ScopesOverlap a.scope new.scope) : Exclusive (d.set k new) := by
  intro i j a b ha hb hij ham hbm hov
  rw [Dictionary.get?_set] at ha hb
  split_ifs at ha hb with hi hj hj
  · exact hij (hi.trans hj.symm)
  · cases ha
    exact h j b hb hbm ham (scopesOverlap_symm hov)
  · cases hb
    exact h i a ha ham hbm hov
  · exact hd i j a b ha hb hij ham hbm hov

/-- What an operation other than a granted `acquire` writes continues what was stored. -/
def WritesContinuation (file written : Option LocalLeaseStoreState) : Prop :=
  ∀ t, written = some t → ∀ k l, t.leases.get? k = some l →
    ∃ s old, file = some s ∧ s.leases.get? k = some old ∧ l.mode = old.mode ∧ l.scope = old.scope

lemma writesContinuation {file : Option LocalLeaseStoreState} {state t : LocalLeaseStoreState} {now : ℤ}
    (hread : readState file now = .ok state)
    (h : Continues t.leases (expireState state now).1.leases) : WritesContinuation file (some t) := by
  intro t' ht k l hl
  cases ht
  obtain ⟨old,hold,hmode,hscope⟩ := h.trans (Continues.expireState state now) k l hl
  obtain ⟨s,hs,hsl⟩ := readState_get? hread hold
  exact ⟨s,old,hs,hsl,hmode,hscope⟩

theorem renew_continues {file : Option LocalLeaseStoreState} {leaseId holder : Text}
    {ttl requested : Option ℤ} {clock : ℤ} {result : LeaseRenewResult}
    {written : Option LocalLeaseStoreState}
    (h : renew file leaseId holder ttl requested clock = .ok (result,written)) :
    WritesContinuation file written := by
  unfold renew at h
  obtain ⟨-,-,h⟩ := except_bind_eq_ok.mp h
  obtain ⟨state,hstate,h⟩ := except_bind_eq_ok.mp h
  dsimp only at h
  split at h
  · obtain ⟨t,ht,h⟩ := except_bind_eq_ok.mp h
    cases h
    exact writesContinuation hstate (writeState_leases ht ▸ Continues.refl _)
  · rename_i existing hget
    split at h
    · cases h
      intro t ht
      cases ht
    · split at h
      · obtain ⟨t,ht,h⟩ := except_bind_eq_ok.mp h
        cases h
        exact writesContinuation hstate (writeState_leases ht ▸ Continues.erase _ _)
      · obtain ⟨lease,hlease,h⟩ := except_bind_eq_ok.mp h
        obtain ⟨t,ht,h⟩ := except_bind_eq_ok.mp h
        cases h
        have hfields := parseLease_eq_ok.mp hlease
        have hmode : lease.mode = existing.mode := by rw [hfields]
        have hscope : lease.scope = existing.scope := by rw [hfields]
        exact writesContinuation hstate (writeState_leases ht ▸ Continues.set hget hmode hscope)

theorem release_continues {file : Option LocalLeaseStoreState} {leaseId holder : Text}
    {requested : Option ℤ} {clock : ℤ} {result : LeaseReleaseResult}
    {written : Option LocalLeaseStoreState}
    (h : release file leaseId holder requested clock = .ok (result,written)) :
    WritesContinuation file written := by
  unfold release at h
  obtain ⟨-,-,h⟩ := except_bind_eq_ok.mp h
  obtain ⟨state,hstate,h⟩ := except_bind_eq_ok.mp h
  dsimp only at h
  split at h
  · obtain ⟨t,ht,h⟩ := except_bind_eq_ok.mp h
    cases h
    exact writesContinuation hstate (writeState_leases ht ▸ Continues.refl _)
  · split at h
    · cases h
      intro t ht
      cases ht
    · obtain ⟨t,ht,h⟩ := except_bind_eq_ok.mp h
      cases h
      exact writesContinuation hstate (writeState_leases ht ▸ Continues.erase _ _)

theorem expire_continues {file : Option LocalLeaseStoreState} {instant : ℤ} {count : ℕ}
    {written : Option LocalLeaseStoreState} (h : expire file instant = .ok (count,written)) :
    WritesContinuation file written := by
  unfold expire at h
  obtain ⟨state,hstate,h⟩ := except_bind_eq_ok.mp h
  dsimp only at h
  obtain ⟨t,ht,h⟩ := except_bind_eq_ok.mp h
  cases h
  exact writesContinuation hstate (writeState_leases ht ▸ Continues.refl _)

/-- A hard path-set `acquire` spells plainly whatever path it shares with a stored lease that
stands in its way: neither of the two selectors has an empty or `.` segment. -/
def SharedPathsPlain (file : Option LocalLeaseStoreState) : LeaseStoreAction → Prop
  | .acquire request _ clock _ =>
    request.mode = .hard → request.scope.granularity = .pathSet →
    ∀ s, file = some s → ∀ k l, s.leases.get? k = some l →
      isLeaseExpired l (toContractTimestamp (request.now.getD clock)) = false →
      l.mode = .hard → l.scope.granularity = .pathSet →
      ∀ t ∈ l.scope.selector, ∀ u ∈ request.scope.selector, PathsOverlap t u → Plain t ∧ Plain u
  | _ => True

/-- The stored state of a file, if there is one, is exclusive. -/
def FileExclusive (file : Option LocalLeaseStoreState) : Prop := ∀ s, file = some s → Exclusive s.leases

lemma FileExclusive.after {ρ : Type} {file : Option LocalLeaseStoreState}
    {outcome : Except LeaseStoreError (ρ × Option LocalLeaseStoreState)} (hfile : FileExclusive file)
    (h : ∀ result written, outcome = .ok (result,written) → FileExclusive written) :
    FileExclusive (stored file outcome) := by
  unfold stored
  split
  · rename_i result state
    exact h result (some state) rfl
  · exact hfile

lemma FileExclusive.continuation {file written : Option LocalLeaseStoreState} (hfile : FileExclusive file)
    (h : WritesContinuation file written) : FileExclusive written := by
  intro t ht j k a b ha hb hjk ham hbm hov
  obtain ⟨s,a',hs,ha',hamode,hascope⟩ := h t ht j a ha
  obtain ⟨s',b',hs',hb',hbmode,hbscope⟩ := h t ht k b hb
  cases hs.symm.trans hs'
  rw [hascope, hbscope] at hov
  exact hfile s hs j k a' b' ha' hb' hjk (hamode ▸ ham) (hbmode ▸ hbm) hov

lemma plain_trimSlashes {t : Text} : Plain (trimSlashes t) ↔ Plain t := by
  simp [Plain, trimSlashes, List.rdropWhile_idempotent]

lemma pathsOverlap_trimSlashes {t u : Text} : PathsOverlap t (trimSlashes u) ↔ PathsOverlap t u := by
  simp [PathsOverlap, segments_trimSlashes]

/-- A granted `acquire` overlaps no lease that the sweep left. -/
theorem acquire_exclusive {file : Option LocalLeaseStoreState} {request : LeaseAcquireRequest}
    {prepared clock : ℤ} {uuid : Text} {result : LeaseAcquireResult}
    {written : Option LocalLeaseStoreState} (hfile : FileExclusive file)
    (hplain : SharedPathsPlain file (.acquire request prepared clock uuid))
    (h : acquire file request prepared clock uuid = .ok (result,written)) : FileExclusive written := by
  obtain ⟨state,t,lease,hstate,rfl,hscope,hmode,hleases⟩ := acquire_cases h
  dsimp only at hleases
  rcases hleases with hleases | ⟨hleases,-,hfind⟩
  · exact hfile.continuation (writesContinuation hstate (hleases ▸ Continues.refl _))
  · intro t' ht
    cases ht
    rw [hleases]
    have hswept : Exclusive (expireState state _).1.leases :=
      hfile.continuation (writesContinuation hstate (Continues.refl _)) _ rfl
    refine hswept.insert fun k l hl hlm hm hov => ?_
    obtain ⟨⟨s,hs,hsl⟩,hlive⟩ := stored_of_swept hstate hl
    have hnone := findConflict_eq_none hfind hm hl hlm
    have hseen : leaseScopesOverlap l.scope lease.scope = true := by
      refine leaseScopesOverlap_of_scopesOverlap l.scope_allowed lease.scope_allowed ?_ hov
      intro hlp hnp u hu v hv huv
      rw [hscope] at hnp hv
      obtain ⟨-,w,hw,rfl⟩ := mem_normalizeSelector.mp hv
      obtain ⟨hpu,hpw⟩ := hplain (hmode ▸ hm) hnp s hs k l hsl hlive hlm hlp u hu w hw
        (pathsOverlap_trimSlashes.mp huv)
      exact ⟨hpu,plain_trimSlashes.mpr hpw⟩
    simp [hnone] at hseen

/-- Every operation keeps the stored leases exclusive. -/
theorem leaseStoreStep_exclusive {file after : Option LocalLeaseStoreState} {a : LeaseStoreAction}
    (hfile : FileExclusive file) (hplain : SharedPathsPlain file a)
    (h : leaseStoreStep file a = some after) : FileExclusive after := by
  cases a with
  | acquire request prepared clock uuid =>
    cases h
    exact hfile.after fun result written h => acquire_exclusive hfile hplain h
  | renew leaseId holder ttl requested clock =>
    cases h
    exact hfile.after fun result written h => hfile.continuation (renew_continues h)
  | release leaseId holder requested clock =>
    cases h
    exact hfile.after fun result written h => hfile.continuation (release_continues h)
  | query q clock =>
    cases h
    exact hfile
  | expire instant =>
    cases h
    exact hfile.after fun result written h => hfile.continuation (expire_continues h)

/-- In every run whose hard path-set requests spell shared paths plainly, the stored hard leases
of any two keys cover disjoint scopes. -/
theorem hardLeases_disjoint (as : List LeaseStoreAction) (s : LocalLeaseStoreState)
    (h : run leaseStoreStep none as = some (some s)) (hm : Meets leaseStoreStep SharedPathsPlain none as)
    (j k : Text) (a b : ConsiliencyLease) (ha : s.leases.get? j = some a)
    (hb : s.leases.get? k = some b) (hjk : j ≠ k) (ham : a.mode = .hard) (hbm : b.mode = .hard) :
    ¬ ScopesOverlap a.scope b.scope :=
  run_invariant_of_meets leaseStoreStep (I := FileExclusive)
    (fun _ _ _ hfile hplain hstep => leaseStoreStep_exclusive hfile hplain hstep)
    (fun s hs => by cases hs) hm h s rfl j k a b ha hb hjk ham hbm

def hardRequest (leaseId selector : String) : LeaseStoreAction :=
  .acquire ⟨some (Text.of leaseId),Text.of "agent",60,.hard,⟨.pathSet,[Text.of selector]⟩,Text.of "work",none⟩
    0 0 []

/-- What such a request is granted at instant zero. -/
def hardFields (leaseId selector : String) : LeaseFields :=
  ⟨Text.of leaseId,Text.of "agent",0,60,0,.hard,⟨.pathSet,[Text.of selector]⟩,Text.of "work"⟩

/-- The leases after a run that starts without a file. -/
def leasesAfter (as : List LeaseStoreAction) : List (Text × LeaseFields) :=
  match run leaseStoreStep none as with
  | some (some s) => s.leases.entries.map fun e => (e.1,e.2.toLeaseFields)
  | _ => []

lemma get?_of_leasesAfter {as : List LeaseStoreAction} {k : Text} {l : LeaseFields}
    {s : LocalLeaseStoreState} (hs : run leaseStoreStep none as = some (some s))
    (h : (k,l) ∈ leasesAfter as) : ∃ lease, s.leases.get? k = some lease ∧ lease.toLeaseFields = l := by
  simp only [leasesAfter, hs, List.mem_map] at h
  obtain ⟨⟨j,lease⟩,hmem,he⟩ := h
  cases he
  exact ⟨lease,(Dictionary.mem_entries_iff _ _ _).mp hmem,rfl⟩

lemma exists_state {a : List LeaseStoreAction} (h : leasesAfter a ≠ []) :
    ∃ s, run leaseStoreStep none a = some (some s) := by
  unfold leasesAfter at h
  cases hrun : run leaseStoreStep none a with
  | none => simp [hrun] at h
  | some file =>
    cases file with
    | none => simp [hrun] at h
    | some s => exact ⟨s,rfl⟩

/-- Two requests next to each other meet the condition, and both leases are stored. -/
theorem hardLeases_disjoint_siblings :
    ∃ s a b, run leaseStoreStep none [hardRequest "lease:a" "src/a",hardRequest "lease:b" "src/b"] =
        some (some s) ∧ s.leases.get? (Text.of "lease:a") = some a ∧
      s.leases.get? (Text.of "lease:b") = some b ∧ ¬ ScopesOverlap a.scope b.scope := by
  obtain ⟨s,hs⟩ := exists_state
    (a := [hardRequest "lease:a" "src/a",hardRequest "lease:b" "src/b"]) (by decide +kernel)
  obtain ⟨a,ha,hfa⟩ := get?_of_leasesAfter (k := Text.of "lease:a") (l := hardFields "lease:a" "src/a") hs
    (by decide +kernel)
  obtain ⟨b,hb,hfb⟩ := get?_of_leasesAfter (k := Text.of "lease:b") (l := hardFields "lease:b" "src/b") hs
    (by decide +kernel)
  have hm : Meets leaseStoreStep SharedPathsPlain none
      [hardRequest "lease:a" "src/a",hardRequest "lease:b" "src/b"] := by
    refine ⟨?_,fun t ht => ⟨?_,fun _ _ => trivial⟩⟩
    · intro _ _ s hs
      cases hs
    · intro _ _ s₁ hs₁ k l hl _ _ _ u hu v hv huv
      have hrun : run leaseStoreStep none [hardRequest "lease:a" "src/a"] = some (some s₁) := by
        rw [run_cons_eq_some]
        exact ⟨t,ht,by rw [hs₁, run_nil]⟩
      have hone : leasesAfter [hardRequest "lease:a" "src/a"] =
          [(Text.of "lease:a",hardFields "lease:a" "src/a")] := by decide +kernel
      have hfields : (k,l.toLeaseFields) ∈ leasesAfter [hardRequest "lease:a" "src/a"] := by
        simp only [leasesAfter, hrun, List.mem_map]
        exact ⟨(k,l),(Dictionary.mem_entries_iff _ _ _).mpr hl,rfl⟩
      rw [hone, List.mem_singleton, Prod.mk.injEq] at hfields
      rw [hfields.2] at hu
      have hnot : ¬ PathsOverlap (Text.of "src/a") (Text.of "src/b") := by decide +kernel
      cases List.mem_singleton.mp hu
      cases List.mem_singleton.mp hv
      exact absurd huv hnot
  exact ⟨s,a,b,hs,ha,hb,hardLeases_disjoint _ s hs hm (Text.of "lease:a") (Text.of "lease:b") a b ha hb
    (by decide +kernel) (by rw [hfa]; rfl) (by rw [hfb]; rfl)⟩

/-- Without the condition it fails: `src/a` and `./src/a` are one directory. -/
theorem hardLeases_overlap_dotSegment :
    ¬ ∀ (as : List LeaseStoreAction) (s : LocalLeaseStoreState),
      run leaseStoreStep none as = some (some s) →
      ∀ (j k : Text) (a b : ConsiliencyLease), s.leases.get? j = some a → s.leases.get? k = some b →
        j ≠ k → a.mode = .hard → b.mode = .hard → ¬ ScopesOverlap a.scope b.scope := by
  intro h
  obtain ⟨s,hs⟩ := exists_state
    (a := [hardRequest "lease:a" "src/a",hardRequest "lease:b" "./src/a"]) (by decide +kernel)
  obtain ⟨a,ha,hfa⟩ := get?_of_leasesAfter (k := Text.of "lease:a") (l := hardFields "lease:a" "src/a") hs
    (by decide +kernel)
  obtain ⟨b,hb,hfb⟩ := get?_of_leasesAfter (k := Text.of "lease:b") (l := hardFields "lease:b" "./src/a") hs
    (by decide +kernel)
  refine h _ s hs (Text.of "lease:a") (Text.of "lease:b") a b ha hb (by decide +kernel)
    (by rw [hfa]; rfl) (by rw [hfb]; rfl) ?_
  rw [hfa, hfb]
  exact Or.inr (Or.inr (Or.inr ⟨rfl,rfl,Text.of "src/a",List.mem_singleton.mpr rfl,Text.of "./src/a",
    List.mem_singleton.mpr rfl,by decide +kernel⟩))

end OmniagentPlus.WorktreeLeasing
