import OmniagentPlus.Foundation.Text

/-! POSIX paths as texts: `path.posix.normalize` and `isAbsolute`, and what normalizing does to a
path that does not begin at the root and goes to no parent. -/
namespace OmniagentPlus.Foundation

lemma sep_notMem_of_mem_splitOn {α : Type*} [BEq α] [LawfulBEq α] {sep : α} {xs piece : List α}
    (h : piece ∈ xs.splitOn sep) : sep ∉ piece := by
  induction xs generalizing piece with
  | nil =>
    have hnil : piece = [] := by simpa using h
    rw [hnil]
    exact List.not_mem_nil
  | cons x xs ih =>
    rw [List.splitOn_cons_eq_if_modifyHead] at h
    split at h
    · obtain rfl | h := List.mem_cons.mp h
      · exact List.not_mem_nil
      · exact ih h
    · rename_i hx
      obtain ⟨first,rest,hsplit⟩ := List.exists_cons_of_ne_nil (List.splitOn_ne_nil sep xs)
      rw [hsplit, List.modifyHead_cons] at h
      have hfirst := ih (hsplit ▸ List.mem_cons_self)
      obtain rfl | h := List.mem_cons.mp h
      · intro hmem
        obtain rfl | hmem := List.mem_cons.mp hmem
        · exact hx (beq_self_eq_true _)
        · exact hfirst hmem
      · exact ih (hsplit ▸ List.mem_cons_of_mem _ h)

lemma intercalate_sublist {α : Type*} (sep : List α) {ps qs : List (List α)} (h : ps.Sublist qs) :
    (sep.intercalate ps).Sublist (sep.intercalate qs) := by
  induction h with
  | slnil => exact List.Sublist.refl _
  | @cons ps qs q h ih =>
    cases qs with
    | nil =>
      cases h
      exact List.nil_sublist _
    | cons q' qs =>
      rw [List.intercalate_cons_cons]
      exact ih.trans (List.sublist_append_right _ _)
  | @cons_cons ps qs q h ih =>
    cases ps with
    | nil =>
      cases qs with
      | nil => exact List.Sublist.refl _
      | cons q' qs =>
        rw [List.intercalate_cons_cons, List.append_assoc]
        simp
    | cons p' ps =>
      cases qs with
      | nil => cases h
      | cons q' qs =>
        rw [List.intercalate_cons_cons, List.intercalate_cons_cons]
        exact ih.append_left _

namespace PosixPath

def slash : UInt16 := 0x2F

def segments (path : Text) : List Text := path.splitOn slash

/-- `path.isAbsolute(path)` -/
def isAbsolute (path : Text) : Bool := path.head? == some slash

def endsInSlash (path : Text) : Bool := path.getLast? == some slash

/-- Neither empty nor a dot. -/
def isNamed (segment : Text) : Bool := !(segment == [] || segment == Text.of ".")

/-- The segments kept so far, the last first, with one more. -/
def keepSegment (allowAboveRoot : Bool) (kept : List Text) (segment : Text) : List Text :=
  if !isNamed segment then kept
  else if segment == Text.of ".." then
    match kept with
    | [] => if allowAboveRoot then [segment] else []
    | last :: rest => if last == Text.of ".." then (if allowAboveRoot then segment :: kept else kept) else rest
  else segment :: kept

def normalizeString (path : Text) (allowAboveRoot : Bool) : Text :=
  [slash].intercalate ((segments path).foldl (keepSegment allowAboveRoot) []).reverse

/-- `path.posix.normalize(path)` -/
def normalize (path : Text) : Text :=
  let normalized := normalizeString path (!isAbsolute path)
  if path.isEmpty then Text.of "."
  else if normalized.isEmpty then
    if isAbsolute path then [slash] else if endsInSlash path then Text.of "./" else Text.of "."
  else (if isAbsolute path then [slash] else []) ++ normalized ++ if endsInSlash path then [slash] else []

section Plain

/-- A path that does not begin at the root and goes to no parent. -/
structure Plain (path : Text) : Prop where
  ne_nil : path ≠ []
  relative : isAbsolute path = false
  inside : Text.of ".." ∉ segments path

/-- The named segments, or a dot where there is none, and behind them what a slash at the end leaves. -/
def plainSegments (path : Text) : List Text :=
  (if ((segments path).filter isNamed).isEmpty then [Text.of "."] else (segments path).filter isNamed) ++
    if endsInSlash path then [[]] else []

/-- A path without its empty segments and its dots. -/
def settled (path : Text) : Text := [slash].intercalate (plainSegments path)

lemma segments_ne_nil (path : Text) : segments path ≠ [] := List.splitOn_ne_nil slash path

lemma isNamed_iff {segment : Text} : isNamed segment = true ↔ segment ≠ [] ∧ segment ≠ Text.of "." := by
  simp [isNamed]

lemma foldl_keepSegment (above : Bool) {l : List Text} (h : Text.of ".." ∉ l) (kept : List Text) :
    l.foldl (keepSegment above) kept = (l.filter isNamed).reverse ++ kept := by
  induction l generalizing kept with
  | nil => rfl
  | cons segment l ih =>
    obtain ⟨hne,hl⟩ := not_or.mp (mt List.mem_cons.mpr h)
    rw [List.foldl_cons, ih hl]
    cases hnamed : isNamed segment with
    | false =>
      rw [keepSegment.eq_def, hnamed, if_pos (by rfl), List.filter_cons_of_neg (by simp [hnamed])]
    | true =>
      have hparent : ¬(segment == Text.of "..") = true := by simpa using Ne.symm hne
      rw [keepSegment.eq_def, hnamed, if_neg (by simp), if_neg hparent, List.filter_cons_of_pos hnamed]
      simp

lemma intercalate_eq_nil_iff {pieces : List Text} (h : ∀ piece ∈ pieces, piece ≠ []) :
    [slash].intercalate pieces = [] ↔ pieces = [] := by
  cases pieces with
  | nil => simp
  | cons piece pieces =>
    have hpiece := h piece List.mem_cons_self
    cases pieces with
    | nil => simpa using hpiece
    | cons next pieces => simp [List.intercalate_cons_cons]

theorem normalize_of_plain {path : Text} (h : Plain path) : normalize path = settled path := by
  have hkept : ∀ segment ∈ (segments path).filter isNamed, segment ≠ [] := fun segment hs =>
    (isNamed_iff.mp (List.mem_filter.mp hs).2).1
  have hempty : path.isEmpty = false := by simpa using h.ne_nil
  rw [normalize, normalizeString, foldl_keepSegment _ h.inside, List.append_nil, List.reverse_reverse, settled,
    plainSegments, hempty, h.relative]
  cases hnone : ((segments path).filter isNamed) with
  | nil => cases endsInSlash path <;> rfl
  | cons segment rest =>
    have hsome : ([slash].intercalate (segment :: rest)).isEmpty = false := by
      rw [hnone] at hkept
      simpa using mt (intercalate_eq_nil_iff hkept).mp (List.cons_ne_nil segment rest)
    simp only [hsome, Bool.false_eq_true, if_false, List.isEmpty_cons]
    cases endsInSlash path with
    | true =>
      rw [if_pos rfl, if_pos rfl, intercalate_append slash (List.cons_ne_nil segment rest) (List.cons_ne_nil [] [])]
      simp
    | false => simp

/-- A path ends in a slash exactly where its last segment, after others, is empty. -/
theorem endsInSlash_iff (path : Text) :
    endsInSlash path = true ↔ ∃ front, front ≠ [] ∧ segments path = front ++ [[]] := by
  rw [endsInSlash, beq_iff_eq, List.getLast?_eq_some_iff]
  constructor
  · rintro ⟨front,rfl⟩
    refine ⟨segments front,segments_ne_nil front,?_⟩
    rw [segments, List.splitOn_append_cons_self]
    rfl
  · rintro ⟨front,hne,hsplit⟩
    refine ⟨[slash].intercalate front,?_⟩
    have hpath : [slash].intercalate (segments path) = path := List.intercalate_splitOn slash
    rw [hsplit, intercalate_append slash hne (List.cons_ne_nil [] [])] at hpath
    simpa using hpath.symm

lemma slash_notMem_dot : slash ∉ Text.of "." := by decide

lemma plainSegments_spec (path : Text) : ∃ front, front ≠ [] ∧ (∀ segment ∈ front, segment ≠ [] ∧ slash ∉ segment) ∧
    front.filter isNamed = (segments path).filter isNamed ∧
      plainSegments path = front ++ if endsInSlash path then [[]] else [] := by
  by_cases hnone : (segments path).filter isNamed = []
  · refine ⟨[Text.of "."],by simp,?_,by rw [hnone]; rfl,by rw [plainSegments, hnone]; rfl⟩
    intro segment hs
    rw [List.mem_singleton.mp hs]
    exact ⟨by decide,slash_notMem_dot⟩
  · refine ⟨_,hnone,?_,by rw [List.filter_filter]; simp,?_⟩
    · intro segment hs
      obtain ⟨hmem,hnamed⟩ := List.mem_filter.mp hs
      exact ⟨(isNamed_iff.mp hnamed).1,sep_notMem_of_mem_splitOn hmem⟩
    · rw [plainSegments, if_neg (by simpa using hnone)]

theorem segments_settled (path : Text) : segments (settled path) = plainSegments path := by
  obtain ⟨front,hne,hfront,-,heq⟩ := plainSegments_spec path
  refine List.splitOn_intercalate slash ?_ (by rw [heq]; simp [hne])
  intro segment hs
  rw [heq] at hs
  obtain hs | hs := List.mem_append.mp hs
  · exact (hfront segment hs).2
  · split_ifs at hs
    · rw [List.mem_singleton.mp hs]
      exact List.not_mem_nil
    · cases hs

theorem endsInSlash_settled (path : Text) : endsInSlash (settled path) = endsInSlash path := by
  obtain ⟨front,hne,hfront,-,heq⟩ := plainSegments_spec path
  rw [Bool.eq_iff_iff, endsInSlash_iff, segments_settled, heq]
  cases hend : endsInSlash path with
  | true => exact iff_of_true ⟨front,hne,rfl⟩ rfl
  | false =>
    refine iff_of_false ?_ Bool.false_ne_true
    rintro ⟨front',-,hfront'⟩
    rw [if_neg Bool.false_ne_true, List.append_nil] at hfront'
    exact (hfront [] (hfront' ▸ by simp)).1 rfl

theorem plainSegments_settled (path : Text) : plainSegments (settled path) = plainSegments path := by
  obtain ⟨front,hne,hfront,hnamed,heq⟩ := plainSegments_spec path
  have hfilter : (segments (settled path)).filter isNamed = (segments path).filter isNamed := by
    rw [segments_settled, heq, List.filter_append, hnamed]
    cases endsInSlash path <;> simp [isNamed]
  rw [plainSegments, hfilter, endsInSlash_settled, plainSegments]

theorem settled_settled (path : Text) : settled (settled path) = settled path := by
  rw [settled, plainSegments_settled, settled]

lemma first_segment {path : Text} (h : Plain path) : ∃ first rest, segments path = first :: rest ∧ first ≠ [] := by
  obtain ⟨u,tail,rfl⟩ := List.exists_cons_of_ne_nil h.ne_nil
  have hu : ¬(u == slash) = true := by simpa [isAbsolute] using h.relative
  obtain ⟨first,rest,hsplit⟩ := List.exists_cons_of_ne_nil (List.splitOn_ne_nil slash tail)
  refine ⟨u :: first,rest,?_,List.cons_ne_nil _ _⟩
  rw [segments, List.splitOn_cons_eq_if_modifyHead, if_neg hu, hsplit, List.modifyHead_cons]

lemma plainSegments_sublist {path : Text} (h : Plain path) : (plainSegments path).Sublist (segments path) := by
  obtain ⟨first,rest,hsplit,hfirst⟩ := first_segment h
  have hfront : ∀ front, front ≠ [] → (∃ back, segments path = front ++ back ∧ back.filter isNamed = []) →
      List.Sublist (if ((segments path).filter isNamed).isEmpty then [Text.of "."] else (segments path).filter isNamed)
        front := by
    rintro front hne ⟨back,heq,hback⟩
    have hnamed : (segments path).filter isNamed = front.filter isNamed := by
      rw [heq, List.filter_append, hback, List.append_nil]
    rw [hnamed]
    split_ifs with hempty
    · obtain ⟨first',front',rfl⟩ := List.exists_cons_of_ne_nil hne
      rw [hsplit, List.cons_append] at heq
      obtain ⟨rfl,-⟩ := List.cons.inj heq
      have hdot : first = Text.of "." := by
        by_contra hother
        have hmem : first ∈ (first :: front').filter isNamed :=
          List.mem_filter.mpr ⟨List.mem_cons_self,isNamed_iff.mpr ⟨hfirst,hother⟩⟩
        rw [List.isEmpty_iff.mp hempty] at hmem
        cases hmem
      rw [hdot]
      simp
    · exact List.filter_sublist
  cases hend : endsInSlash path with
  | true =>
    obtain ⟨front,hne,heq⟩ := (endsInSlash_iff path).mp hend
    rw [plainSegments, hend, if_pos rfl, heq]
    have hsub := hfront front hne ⟨[[]],heq,rfl⟩
    rw [heq] at hsub
    exact hsub.append (List.Sublist.refl _)
  | false =>
    rw [plainSegments, hend, if_neg Bool.false_ne_true, List.append_nil]
    exact hfront _ (segments_ne_nil path) ⟨[],(List.append_nil _).symm,rfl⟩

/-- Settling a path only leaves units out. -/
theorem settled_sublist {path : Text} (h : Plain path) : (settled path).Sublist path := by
  have hsub := intercalate_sublist [slash] (plainSegments_sublist h)
  rwa [segments, List.intercalate_splitOn] at hsub

theorem plain_settled {path : Text} (h : Plain path) : Plain (settled path) := by
  obtain ⟨front,hne,hfront,-,heq⟩ := plainSegments_spec path
  obtain ⟨first,rest,rfl⟩ := List.exists_cons_of_ne_nil hne
  obtain ⟨hfirst,hslash⟩ := hfront first List.mem_cons_self
  obtain ⟨u,tail,rfl⟩ := List.exists_cons_of_ne_nil hfirst
  have hu : u ≠ slash := fun hu => hslash (hu ▸ List.mem_cons_self)
  have hhead : ∃ more, settled path = u :: more := by
    rw [settled, heq, List.cons_append]
    cases rest ++ (if endsInSlash path then [[]] else []) <;> simp [List.intercalate_cons_cons]
  obtain ⟨more,hmore⟩ := hhead
  refine ⟨by rw [hmore]; simp,by simp [isAbsolute, hmore, hu],fun hmem => ?_⟩
  rw [segments_settled] at hmem
  exact h.inside ((plainSegments_sublist h).subset hmem)

end Plain
end PosixPath
end OmniagentPlus.Foundation
