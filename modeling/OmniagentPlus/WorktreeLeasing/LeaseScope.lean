import OmniagentPlus.CoreContracts.CoordinationContract

/-! Lease scopes in `lease-store.ts`: the textual normalisation and overlap test, and the
overlap of the files that the selectors name. -/
namespace OmniagentPlus.WorktreeLeasing
open OmniagentPlus.Foundation OmniagentPlus.CoreContracts

/-- `entry.replace(/\/+$/u, "")` -/
def trimSlashes (t : Text) : Text := t.rdropWhile (· == slash)

def normalizeSelector (selector : List Text) : List Text :=
  Text.sort (((selector.map trimSlashes).eraseDups).filter (fun t => !t.isEmpty))

def normalizeLeaseScope (s : LeaseScope) : LeaseScope :=
  ⟨s.granularity,normalizeSelector s.selector⟩

def pathOverlaps (left right : Text) : Bool :=
  left == right || (right ++ [slash]).isPrefixOf left || (left ++ [slash]).isPrefixOf right

def leaseScopesOverlap (left right : LeaseScope) : Bool :=
  let normalizedLeft := normalizeLeaseScope left
  let normalizedRight := normalizeLeaseScope right
  if normalizedLeft.granularity = .repo ∨ normalizedRight.granularity = .repo then true
  else if normalizedLeft.granularity ≠ normalizedRight.granularity then false
  else if normalizedLeft.granularity = .symbol then
    normalizedLeft.selector.any (fun selector => normalizedRight.selector.contains selector)
  else
    normalizedLeft.selector.any fun leftSelector =>
      normalizedRight.selector.any fun rightSelector => pathOverlaps leftSelector rightSelector

theorem mem_normalizeSelector {t : Text} {selector : List Text} :
    t ∈ normalizeSelector selector ↔ t ≠ [] ∧ ∃ u ∈ selector, trimSlashes u = t := by
  simp only [normalizeSelector, Text.mem_sort, List.mem_filter, List.mem_eraseDups, List.mem_map,
    Bool.not_eq_true', List.isEmpty_eq_false_iff]
  tauto

lemma nodup_eraseDups {α : Type*} [BEq α] [LawfulBEq α] (ts : List α) : ts.eraseDups.Nodup := by
  induction h : ts.length using Nat.strong_induction_on generalizing ts with
  | _ n ih =>
    subst h
    cases ts with
    | nil => exact List.nodup_nil
    | cons t ts =>
      rw [List.eraseDups_cons]
      refine List.nodup_cons.mpr ⟨?_,ih _ (Nat.lt_succ_of_le (List.length_filter_le _ ts)) _ rfl⟩
      rw [List.mem_eraseDups, List.mem_filter]
      simp

lemma eraseDups_of_nodup {ts : List Text} (h : ts.Nodup) : ts.eraseDups = ts := by
  induction ts with
  | nil => rfl
  | cons t ts ih =>
    obtain ⟨hnot,hts⟩ := List.nodup_cons.mp h
    have hsame : (ts.filter fun u => !u == t) = ts := by
      apply List.filter_eq_self.mpr
      intro u hu
      have hne : u ≠ t := fun he => hnot (he ▸ hu)
      simpa using hne
    rw [List.eraseDups_cons, hsame, ih hts]

/-- A selector in normal form is its own. -/
theorem normalizeSelector_idem (selector : List Text) :
    normalizeSelector (normalizeSelector selector) = normalizeSelector selector := by
  have htrim : (normalizeSelector selector).map trimSlashes = normalizeSelector selector := by
    conv_rhs => rw [← List.map_id (normalizeSelector selector)]
    apply List.map_congr_left
    intro t ht
    obtain ⟨-,u,-,rfl⟩ := mem_normalizeSelector.mp ht
    exact List.rdropWhile_idempotent _ u
  have hnodup : (normalizeSelector selector).Nodup :=
    (List.mergeSort_perm _ _).nodup_iff.mpr (List.filter_sublist.nodup (nodup_eraseDups _))
  have hfull : (normalizeSelector selector).filter (fun t => !t.isEmpty) = normalizeSelector selector := by
    apply List.filter_eq_self.mpr
    intro t ht
    simpa using (mem_normalizeSelector.mp ht).1
  conv_lhs => rw [normalizeSelector, htrim, eraseDups_of_nodup hnodup, hfull]
  apply List.mergeSort_of_pairwise
  apply List.pairwise_mergeSort
  · intro a b c hab hbc
    simp only [decide_eq_true_eq] at hab hbc ⊢
    exact List.le_trans hab hbc
  · intro a b
    simpa using List.le_total a b

theorem normalizeLeaseScope_idem (s : LeaseScope) :
    normalizeLeaseScope (normalizeLeaseScope s) = normalizeLeaseScope s := by
  simp only [normalizeLeaseScope, normalizeSelector_idem]

/-- The segments of a path, with empty and `.` segments ignored. -/
def segments (t : Text) : List Text := (t.splitOn slash).filter (fun p => p ≠ [] ∧ p ≠ [dot])

/-- Two selectors name the same file, or one contains the other. -/
def PathsOverlap (left right : Text) : Prop :=
  segments left <+: segments right ∨ segments right <+: segments left

/-- The overlap of two scopes of one repository. -/
def ScopesOverlap (left right : LeaseScope) : Prop :=
  left.granularity = .repo ∨ right.granularity = .repo ∨
  (left.granularity = .symbol ∧ right.granularity = .symbol ∧
    ∃ t, t ∈ left.selector ∧ t ∈ right.selector) ∨
  (left.granularity = .pathSet ∧ right.granularity = .pathSet ∧
    ∃ l ∈ left.selector, ∃ r ∈ right.selector, PathsOverlap l r)

instance (left right : Text) : Decidable (PathsOverlap left right) := by
  unfold PathsOverlap; infer_instance

/-- No empty and no `.` segment once trailing slashes are gone. -/
def Plain (t : Text) : Prop := ∀ p ∈ (trimSlashes t).splitOn slash, p ≠ [] ∧ p ≠ [dot]

instance (t : Text) : Decidable (Plain t) := by unfold Plain; infer_instance

lemma pathsOverlap_comm {l r : Text} : PathsOverlap l r ↔ PathsOverlap r l := or_comm

lemma scopesOverlap_symm {l r : LeaseScope} (h : ScopesOverlap l r) : ScopesOverlap r l := by
  rcases h with h | h | ⟨hl,hr,t,htl,htr⟩ | ⟨hl,hr,t,ht,u,hu,h⟩
  · exact Or.inr (Or.inl h)
  · exact Or.inl h
  · exact Or.inr (Or.inr (Or.inl ⟨hr,hl,t,htr,htl⟩))
  · exact Or.inr (Or.inr (Or.inr ⟨hr,hl,u,hu,t,ht,pathsOverlap_comm.mp h⟩))

/-- A trailing slash only adds an empty segment. -/
lemma segments_append_slash (t : Text) : segments (t ++ [slash]) = segments t := by
  have h := List.splitOn_append_cons_self (a := slash) t []
  simp [segments, h, List.filter_append]

lemma segments_trimSlashes (t : Text) : segments (trimSlashes t) = segments t := by
  induction t using List.reverseRecOn with
  | nil => rfl
  | append_singleton t u ih =>
    by_cases h : u = slash
    · subst h
      rw [segments_append_slash, trimSlashes, List.rdropWhile_concat_pos _ _ _ (by simp)]
      exact ih
    · rw [trimSlashes, List.rdropWhile_concat_neg _ _ _ (by simpa using h)]

lemma segments_of_plain {t : Text} (h : Plain t) : segments t = (trimSlashes t).splitOn slash := by
  rw [← segments_trimSlashes, segments, List.filter_eq_self]
  intro p hp
  simpa using h p hp

/-- Where both selectors are plain the textual test sees every overlap. -/
theorem pathOverlaps_of_pathsOverlap {l r : Text} (hl : Plain l) (hr : Plain r)
    (h : PathsOverlap l r) : pathOverlaps (trimSlashes l) (trimSlashes r) = true := by
  simp only [PathsOverlap, segments_of_plain hl, segments_of_plain hr, splitOn_isPrefix_iff] at h
  simp only [pathOverlaps, Bool.or_eq_true, beq_iff_eq, List.isPrefixOf_iff_prefix]
  rcases h with (h | h) | (h | h)
  · exact Or.inl (Or.inl h)
  · exact Or.inr h
  · exact Or.inl (Or.inl h.symm)
  · exact Or.inl (Or.inr h)

/-- A selector that the schema accepts is not made of slashes alone. -/
lemma trimSlashes_ne_nil {t : Text} (h : selectorAllowed t = true) : trimSlashes t ≠ [] := by
  cases t with
  | nil => simp [selectorAllowed] at h
  | cons u t =>
    intro hnil
    have hu : u = slash := by simpa using (List.rdropWhile_eq_nil_iff.mp hnil) u List.mem_cons_self
    subst hu
    simp [selectorAllowed] at h

lemma trimSlashes_mem_normalizeSelector {s : LeaseScope} (hs : s.allowed = true) {t : Text}
    (ht : t ∈ s.selector) : trimSlashes t ∈ (normalizeLeaseScope s).selector := by
  simp only [LeaseScope.allowed, Bool.and_eq_true, List.all_eq_true] at hs
  exact mem_normalizeSelector.mpr ⟨trimSlashes_ne_nil (hs.2 t ht),t,ht,rfl⟩

/-- The code's test sees every overlap of accepted scopes, for path sets when the selectors
that overlap are plain. -/
theorem leaseScopesOverlap_of_scopesOverlap {l r : LeaseScope} (hl : l.allowed = true)
    (hr : r.allowed = true)
    (hplain : l.granularity = .pathSet → r.granularity = .pathSet → ∀ t ∈ l.selector,
      ∀ u ∈ r.selector, PathsOverlap t u → Plain t ∧ Plain u)
    (h : ScopesOverlap l r) : leaseScopesOverlap l r = true := by
  have hgl : (normalizeLeaseScope l).granularity = l.granularity := rfl
  have hgr : (normalizeLeaseScope r).granularity = r.granularity := rfl
  rcases h with h | h | ⟨h₁,h₂,t,htl,htr⟩ | ⟨h₁,h₂,t,ht,u,hu,h⟩
  · simp [leaseScopesOverlap, hgl, h]
  · simp [leaseScopesOverlap, hgr, h]
  · have hsame : (normalizeLeaseScope l).selector.any
        (fun selector => (normalizeLeaseScope r).selector.contains selector) = true :=
      List.any_eq_true.mpr ⟨trimSlashes t,trimSlashes_mem_normalizeSelector hl htl,
        by simpa using trimSlashes_mem_normalizeSelector hr htr⟩
    simp only [leaseScopesOverlap, hgl, hgr, h₁, h₂]
    simpa using hsame
  · obtain ⟨hpt,hpu⟩ := hplain h₁ h₂ t ht u hu h
    have hsame : (normalizeLeaseScope l).selector.any (fun leftSelector =>
        (normalizeLeaseScope r).selector.any fun rightSelector =>
          pathOverlaps leftSelector rightSelector) = true :=
      List.any_eq_true.mpr ⟨trimSlashes t,trimSlashes_mem_normalizeSelector hl ht,
        List.any_eq_true.mpr ⟨trimSlashes u,trimSlashes_mem_normalizeSelector hr hu,
          pathOverlaps_of_pathsOverlap hpt hpu h⟩⟩
    simp only [leaseScopesOverlap, hgl, hgr, h₁, h₂]
    simpa using hsame

example : leaseScopesOverlap ⟨.pathSet,[Text.of "src/a"]⟩ ⟨.pathSet,[Text.of "src/a/b/"]⟩ = true := by
  decide +kernel

example : leaseScopesOverlap ⟨.pathSet,[Text.of "src/a"]⟩ ⟨.pathSet,[Text.of "./src/a"]⟩ = false := by
  decide +kernel

end OmniagentPlus.WorktreeLeasing
