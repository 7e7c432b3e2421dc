import OmniagentPlus.Foundation.Regex
import Mathlib.Tactic.Common

/-! What a regular expression finds within a segment of a text it finds wherever the segment stands
between separators or ends. `sep` is what the separators are. -/
namespace OmniagentPlus.Foundation
namespace Regex

/-- The places of a text at which matches end. -/
def found (r : Regex) (text : Text) : List Place :=
  (List.range (text.length + 1)).flatMap fun n => r.ends ⟨(text.take n).reverse,text.drop n⟩

theorem mem_found {r : Regex} {text : Text} {m : Place} :
    m ∈ r.found text ↔ ∃ p : Place, p.before.reverse ++ p.after = text ∧ m ∈ r.ends p := by
  simp only [found, List.mem_flatMap, List.mem_range]
  constructor
  · rintro ⟨n,-,hm⟩
    exact ⟨_,by rw [List.reverse_reverse, List.take_append_drop],hm⟩
  · rintro ⟨⟨before,after⟩,rfl,hm⟩
    refine ⟨before.length,by simp only [List.length_append, List.length_reverse]; omega,?_⟩
    have hlength : before.length = before.reverse.length := List.length_reverse.symm
    have htake : (before.reverse ++ after).take before.length = before.reverse := by rw [hlength, List.take_left]
    have hdrop : (before.reverse ++ after).drop before.length = after := by rw [hlength, List.drop_left]
    rwa [htake, hdrop, List.reverse_reverse]

theorem test_iff {r : Regex} {text : Text} :
    r.test text = true ↔ ∃ p : Place, p.before.reverse ++ p.after = text ∧ r.ends p ≠ [] := by
  have hfound : r.test text = true ↔ ∃ m, m ∈ r.found text := by
    simp only [test, found, List.any_eq_true, List.mem_flatMap, Bool.not_eq_true', List.isEmpty_eq_false_iff_exists_mem]
    constructor
    · rintro ⟨n,hn,m,hm⟩
      exact ⟨m,n,hn,hm⟩
    · rintro ⟨m,n,hn,hm⟩
      exact ⟨n,hn,m,hm⟩
  rw [hfound]
  constructor
  · rintro ⟨m,hm⟩
    obtain ⟨p,hp,hm⟩ := mem_found.mp hm
    exact ⟨p,hp,List.ne_nil_of_mem hm⟩
  · rintro ⟨p,hp,hne⟩
    obtain ⟨m,hm⟩ := List.exists_mem_of_ne_nil _ hne
    exact ⟨m,mem_found.mpr ⟨p,hp,hm⟩⟩

theorem mem_ends_seq {r s : Regex} {p m : Place} : m ∈ (seq r s).ends p ↔ ∃ n ∈ r.ends p, m ∈ s.ends n := List.mem_flatMap

theorem ends_seq_ne_nil {r s : Regex} {p : Place} :
    (seq r s).ends p ≠ [] ↔ ∃ m ∈ r.ends p, s.ends m ≠ [] := by
  rw [ends, ne_eq, List.flatMap_eq_nil_iff]
  push Not
  rfl

section Segments
variable {sep : UInt16 → Bool}

/-- Separators or ends stand on both sides. -/
structure Bounded (sep : UInt16 → Bool) (p : Place) : Prop where
  before : p.before.head?.all sep = true
  after : p.after.head?.all sep = true

/-- The place in a segment with so much of it before and after, among these neighbours. -/
def within (b a : Text) (p : Place) : Place := ⟨b ++ p.before,a ++ p.after⟩

/-- No separator is read, and an assertion takes each of them for an end. -/
def Local (sep : UInt16 → Bool) : Regex → Prop
  | empty => True
  | unit f => ∀ u, sep u = true → f u = false
  | place f => ∀ x x' y y' : Option UInt16, x = x' ∨ x.all sep = true ∧ x'.all sep = true →
      y = y' ∨ y.all sep = true ∧ y'.all sep = true → f x y = f x' y'
  | seq r s | alt r s => r.Local sep ∧ s.Local sep
  | star r => r.Local sep

lemma head?_within {l x x' : Text} (hx : x.head?.all sep = true) (hx' : x'.head?.all sep = true) :
    (l ++ x).head? = (l ++ x').head? ∨ (l ++ x).head?.all sep = true ∧ (l ++ x').head?.all sep = true := by
  cases l with
  | nil => exact .inr ⟨hx,hx'⟩
  | cons u l => exact .inl rfl

variable {p q : Place}

/-- A match that reads no separator stays in its segment, and is one where the segment has other neighbours. -/
theorem ends_within (hp : Bounded sep p) (hq : Bounded sep q) {r : Regex} (hr : r.Local sep) {b a : Text} {m : Place}
    (hm : m ∈ r.ends (within b a p)) :
    ∃ b' a', m = within b' a' p ∧ within b' a' q ∈ r.ends (within b a q) := by
  induction r generalizing b a m with
  | empty =>
    rw [ends, List.mem_singleton] at hm
    exact ⟨b,a,hm,List.mem_singleton_self _⟩
  | unit f =>
    cases a with
    | nil =>
      simp only [within, ends, List.nil_append] at hm
      split at hm
      · cases hm
      · next u after hafter =>
        have hsep : sep u = true := by simpa [hafter] using hp.after
        rw [hr u hsep] at hm
        cases hm
    | cons u a =>
      simp only [within, ends, List.cons_append] at hm ⊢
      split at hm
      · next hu =>
        rw [List.mem_singleton] at hm
        exact ⟨u :: b,a,hm,by rw [if_pos hu]; exact List.mem_singleton_self _⟩
      · cases hm
  | place f =>
    obtain ⟨hf,hm⟩ := List.mem_ite_nil_right.mp hm
    refine ⟨b,a,List.mem_singleton.mp hm,List.mem_ite_nil_right.mpr ⟨?_,List.mem_singleton_self _⟩⟩
    exact (hr _ _ _ _ (head?_within hp.before hq.before) (head?_within hp.after hq.after)).symm.trans hf
  | seq r s ihr ihs =>
    obtain ⟨n,hn,hm⟩ := List.mem_flatMap.mp hm
    obtain ⟨b',a',rfl,hn'⟩ := ihr hr.1 hn
    obtain ⟨b'',a'',rfl,hm'⟩ := ihs hr.2 hm
    exact ⟨b'',a'',rfl,List.mem_flatMap.mpr ⟨_,hn',hm'⟩⟩
  | alt r s ihr ihs =>
    obtain hm | hm := List.mem_append.mp hm
    · obtain ⟨b',a',rfl,hm'⟩ := ihr hr.1 hm
      exact ⟨b',a',rfl,List.mem_append_left _ hm'⟩
    · obtain ⟨b',a',rfl,hm'⟩ := ihs hr.2 hm
      exact ⟨b',a',rfl,List.mem_append_right _ hm'⟩
  | star r ih =>
    -- a round that counts reads some of the segment, so it counts among the other neighbours too
    have hrounds : ∀ k l : ℕ, ∀ b a : Text, (within b a q).after.length ≤ l → m ∈ rounds r.ends k (within b a p) →
        ∃ b' a', m = within b' a' p ∧ within b' a' q ∈ rounds r.ends l (within b a q) := by
      intro k
      induction k with
      | zero =>
        intro l b a _ hm
        rw [rounds, List.mem_singleton] at hm
        refine ⟨b,a,hm,?_⟩
        cases l <;> simp [rounds]
      | succ k ihk =>
        intro l b a hl hm
        rw [rounds] at hm
        obtain rfl | hm := List.mem_cons.mp hm
        · refine ⟨b,a,rfl,?_⟩
          cases l <;> simp [rounds]
        obtain ⟨n,hn,hm⟩ := List.mem_flatMap.mp hm
        obtain ⟨hn,hshort⟩ := List.mem_filter.mp hn
        obtain ⟨b',a',rfl,hn'⟩ := ih hr hn
        have hshort : a'.length < a.length := by simpa [within] using hshort
        have hl : (a ++ q.after).length ≤ l := hl
        rw [List.length_append] at hl
        obtain ⟨l,rfl⟩ : ∃ l', l = l' + 1 := ⟨l - 1,by omega⟩
        obtain ⟨b'',a'',rfl,hm'⟩ := ihk l b' a' (by simp only [within, List.length_append]; omega) hm
        refine ⟨b'',a'',rfl,?_⟩
        rw [rounds]
        refine List.mem_cons_of_mem _ (List.mem_flatMap.mpr ⟨_,List.mem_filter.mpr ⟨hn',?_⟩,hm'⟩)
        simpa [within] using hshort
    exact hrounds _ _ b a le_rfl hm

/-- What matches at a place of a segment matches there among other neighbours that are as near. -/
def Carried (sep : UInt16 → Bool) (r : Regex) : Prop :=
  ∀ (p q : Place) (b a : Text), Bounded sep p → Bounded sep q → (p.after = [] ∨ q.after ≠ []) →
    r.ends (within b a p) ≠ [] → r.ends (within b a q) ≠ []

theorem Local.ends_ne_nil {r : Regex} (h : r.Local sep) (hp : Bounded sep p) (hq : Bounded sep q) {b a : Text}
    (hne : r.ends (within b a p) ≠ []) : r.ends (within b a q) ≠ [] := by
  obtain ⟨m,hm⟩ := List.exists_mem_of_ne_nil _ hne
  obtain ⟨_,_,-,hm'⟩ := ends_within hp hq h hm
  exact List.ne_nil_of_mem hm'

theorem Local.carried {r : Regex} (h : r.Local sep) : r.Carried sep :=
  fun _ _ _ _ hp hq _ hne => h.ends_ne_nil hp hq hne

theorem Carried.seq {r s : Regex} (hr : r.Local sep) (hs : s.Carried sep) : (Regex.seq r s).Carried sep := by
  intro p q b a hp hq hback hne
  obtain ⟨m,hm,hne⟩ := ends_seq_ne_nil.mp hne
  obtain ⟨b',a',rfl,hm'⟩ := ends_within hp hq hr hm
  exact ends_seq_ne_nil.mpr ⟨_,hm',hs p q b' a' hp hq hback hne⟩

end Segments

section Shapes
variable {f : UInt16 → Bool}

theorem ends_star_ne_nil (r : Regex) (p : Place) : (star r).ends p ≠ [] := by
  rw [ends]
  cases p.after.length <;> simp [rounds]

theorem ends_times_unit_ne_nil {n : ℕ} {p : Place} :
    (times n (unit f)).ends p ≠ [] ↔ n ≤ (p.after.takeWhile f).length := by
  induction n generalizing p with
  | zero => simp [times, ends]
  | succ n ih =>
    obtain ⟨before,after⟩ := p
    simp only [times, ends_seq_ne_nil, ih]
    cases after with
    | nil => simp [ends]
    | cons u after => cases hu : f u <;> simp [ends, hu]

theorem ends_atLeast_unit_ne_nil {n : ℕ} {p : Place} :
    (atLeast n (unit f)).ends p ≠ [] ↔ n ≤ (p.after.takeWhile f).length := by
  rw [atLeast, ends_seq_ne_nil, ← ends_times_unit_ne_nil]
  constructor
  · rintro ⟨m,hm,-⟩
    exact List.ne_nil_of_mem hm
  · intro hne
    obtain ⟨m,hm⟩ := List.exists_mem_of_ne_nil _ hne
    exact ⟨m,hm,ends_star_ne_nil _ m⟩

theorem ends_atLeast_one_ne_nil {p : Place} : (atLeast 1 (unit f)).ends p ≠ [] ↔ p.after.head?.any f = true := by
  rw [ends_atLeast_unit_ne_nil]
  cases p.after with
  | nil => simp
  | cons u after => cases hu : f u <;> simp [hu]

/-- A match begins behind a unit or where an assertion holds of what is before. -/
theorem test_behind {g : Option UInt16 → Bool} {r : Regex} {text : Text} :
    (seq (alt (place fun before _ => g before) (unit f)) r).test text = true ↔
      ∃ p : Place, p.before.reverse ++ p.after = text ∧ (g p.before.head? || p.before.head?.any f) = true ∧ r.ends p ≠ [] := by
  rw [test_iff]
  constructor
  · rintro ⟨p,hp,hmatch⟩
    obtain ⟨m,hm,hne⟩ := ends_seq_ne_nil.mp hmatch
    obtain hm | hm := List.mem_append.mp hm
    · obtain ⟨hg,hm⟩ := List.mem_ite_nil_right.mp hm
      rw [List.mem_singleton.mp hm] at hne
      exact ⟨p,hp,Bool.or_eq_true_iff.mpr (.inl hg),hne⟩
    · obtain ⟨before,after⟩ := p
      cases after with
      | nil => cases hm
      | cons u after =>
        obtain ⟨hu,hm⟩ := List.mem_ite_nil_right.mp hm
        rw [List.mem_singleton.mp hm] at hne
        exact ⟨_,by rw [← hp]; simp,by simp [hu],hne⟩
  · rintro ⟨p,hp,hbehind,hne⟩
    obtain hg | hu := Bool.or_eq_true_iff.mp hbehind
    · exact ⟨p,hp,ends_seq_ne_nil.mpr ⟨p,List.mem_append_left _ (List.mem_ite_nil_right.mpr ⟨hg,List.mem_singleton_self p⟩),hne⟩⟩
    · obtain ⟨before,after⟩ := p
      cases before with
      | nil => cases hu
      | cons u before =>
        refine ⟨⟨before,u :: after⟩,by rw [← hp]; simp,ends_seq_ne_nil.mpr ⟨_,List.mem_append_right _ ?_,hne⟩⟩
        exact List.mem_ite_nil_right.mpr ⟨by simpa using hu,List.mem_singleton_self _⟩

/-- A match does not change the text that it is in. -/
theorem ends_text (r : Regex) (p m : Place) (h : m ∈ r.ends p) :
    m.before.reverse ++ m.after = p.before.reverse ++ p.after := by
  induction r generalizing p m with
  | empty => rw [List.mem_singleton.mp h]
  | unit f =>
    obtain ⟨before,after⟩ := p
    cases after with
    | nil => cases h
    | cons u after =>
      obtain ⟨-,h⟩ := List.mem_ite_nil_right.mp h
      rw [List.mem_singleton.mp h]
      simp
  | place f =>
    obtain ⟨-,h⟩ := List.mem_ite_nil_right.mp h
    rw [List.mem_singleton.mp h]
  | seq r s ihr ihs =>
    obtain ⟨n,hn,hm⟩ := List.mem_flatMap.mp h
    exact (ihs n m hm).trans (ihr p n hn)
  | alt r s ihr ihs => exact (List.mem_append.mp h).elim (ihr p m) (ihs p m)
  | star r ih =>
    have hrounds : ∀ k p, m ∈ rounds r.ends k p → m.before.reverse ++ m.after = p.before.reverse ++ p.after := by
      intro k
      induction k with
      | zero =>
        intro p hm
        rw [List.mem_singleton.mp hm]
      | succ k ihk =>
        intro p hm
        rw [rounds] at hm
        obtain rfl | hm := List.mem_cons.mp hm
        · rfl
        obtain ⟨n,hn,hm⟩ := List.mem_flatMap.mp hm
        exact (ihk n hm).trans (ih p n (List.mem_filter.mp hn).1)
    exact hrounds _ p h

/-- What asserts nothing about its neighbours is found where its language has a part of the text. -/
theorem test_plain_iff {r : Regex} (h : r.Plain) {text : Text} :
    r.test text = true ↔ ∃ before part after, text = before ++ part ++ after ∧ r.Matches part := by
  rw [test_iff]
  constructor
  · rintro ⟨p,rfl,hne⟩
    obtain ⟨m,hm⟩ := List.exists_mem_of_ne_nil _ hne
    obtain ⟨part,⟨hpart,-⟩,hmatch⟩ := (mem_ends_iff h p m).mp hm
    exact ⟨p.before.reverse,part,m.after,by rw [hpart, List.append_assoc],hmatch⟩
  · rintro ⟨before,part,after,rfl,hmatch⟩
    refine ⟨⟨before.reverse,part ++ after⟩,by simp,List.ne_nil_of_mem (a := ⟨part.reverse ++ before.reverse,after⟩) ?_⟩
    exact (mem_ends_iff h _ _).mpr ⟨part,⟨rfl,rfl⟩,hmatch⟩

/-- What asserts nothing is found from the start where a text begins with a part of its language. -/
theorem test_from_start {r : Regex} (h : r.Plain) {text : Text} :
    (seq start r).test text = true ↔ ∃ part after, text = part ++ after ∧ r.Matches part := by
  rw [test_iff]
  constructor
  · rintro ⟨⟨before,after⟩,rfl,hne⟩
    obtain ⟨m,hm,hmatch⟩ := ends_seq_ne_nil.mp hne
    obtain ⟨hstart,hm⟩ := List.mem_ite_nil_right.mp hm
    obtain rfl : before = [] := by simpa using hstart
    rw [List.mem_singleton.mp hm] at hmatch
    obtain ⟨q,hq⟩ := List.exists_mem_of_ne_nil _ hmatch
    obtain ⟨part,⟨hpart,-⟩,hmatch⟩ := (mem_ends_iff h _ q).mp hq
    exact ⟨part,q.after,hpart,hmatch⟩
  · rintro ⟨part,after,rfl,hmatch⟩
    refine ⟨⟨[],part ++ after⟩,rfl,ends_seq_ne_nil.mpr ⟨_,List.mem_ite_nil_right.mpr ⟨rfl,List.mem_singleton_self _⟩,?_⟩⟩
    exact List.ne_nil_of_mem (a := ⟨part.reverse,after⟩) ((mem_ends_iff h _ _).mpr ⟨part,⟨rfl,by simp⟩,hmatch⟩)

end Shapes

section Separators
variable {sep : UInt16 → Bool}

/-- Whether a regular expression without assertions reads none of some units. -/
def readsNone (seps : List UInt16) : Regex → Bool
  | empty => true
  | unit f => seps.all fun u => !f u
  | place _ => false
  | seq r s | alt r s => r.readsNone seps && s.readsNone seps
  | star r => r.readsNone seps

theorem local_of_readsNone {seps : List UInt16} (hsep : ∀ u, sep u = true → u ∈ seps) {r : Regex}
    (h : r.readsNone seps = true) : r.Local sep := by
  induction r with
  | empty => trivial
  | unit f => exact fun u hu => by simpa using List.all_eq_true.mp h u (hsep u hu)
  | place f => cases h
  | seq r s ihr ihs | alt r s ihr ihs =>
    obtain ⟨hr,hs⟩ := Bool.and_eq_true_iff.mp h
    exact ⟨ihr hr,ihs hs⟩
  | star r ih => exact ih h

/-- Whether the first members of a sequence read none of some units. -/
def firstReadNone (seps : List UInt16) : ℕ → Regex → Bool
  | 0, _ => true
  | n + 1, seq r s => r.readsNone seps && firstReadNone seps n s
  | _ + 1, _ => false

/-- What comes behind the first members of a sequence. -/
def behindFirst : ℕ → Regex → Regex
  | n + 1, seq _ s => behindFirst n s
  | _, r => r

theorem carried_of_first {seps : List UInt16} (hsep : ∀ u, sep u = true → u ∈ seps) {n : ℕ} {r : Regex}
    (h : firstReadNone seps n r = true) (hrest : (behindFirst n r).Carried sep) : r.Carried sep := by
  induction n generalizing r with
  | zero => exact hrest
  | succ n ih =>
    cases r with
    | seq r s =>
      obtain ⟨hr,hs⟩ := Bool.and_eq_true_iff.mp h
      exact .seq (local_of_readsNone hsep hr) (ih hs hrest)
    | empty | unit | place | alt | star => cases h

theorem plain_of_readsNone (seps : List UInt16) {r : Regex} (h : r.readsNone seps = true) : r.Plain := by
  induction r with
  | empty | unit f => trivial
  | place f => cases h
  | seq r s ihr ihs | alt r s ihr ihs =>
    obtain ⟨hr,hs⟩ := Bool.and_eq_true_iff.mp h
    exact ⟨ihr hr,ihs hs⟩
  | star r ih => exact ih h

/-- What is matched without reading some units has none of them. -/
theorem notMem_of_matches (seps : List UInt16) {r : Regex} (h : r.readsNone seps = true) {text : Text} (ht : r.Matches text)
    {u : UInt16} (hu : u ∈ seps) : u ∉ text := by
  induction r generalizing text with
  | empty =>
    rw [show text = [] from ht]
    exact List.not_mem_nil
  | unit f =>
    obtain ⟨v,hv,rfl⟩ := ht
    have hf := List.all_eq_true.mp h u hu
    rintro hmem
    rw [List.mem_singleton.mp hmem, hv] at hf
    cases hf
  | place f => cases h
  | seq r s ihr ihs =>
    obtain ⟨hr,hs⟩ := Bool.and_eq_true_iff.mp h
    obtain ⟨first,rest,hfirst,hrest,rfl⟩ := ht
    rw [List.mem_append]
    exact not_or.mpr ⟨ihr hr hfirst,ihs hs hrest⟩
  | alt r s ihr ihs =>
    obtain ⟨hr,hs⟩ := Bool.and_eq_true_iff.mp h
    exact ht.elim (ihr hr) (ihs hs)
  | star r ih =>
    obtain ⟨pieces,hpieces,rfl⟩ := ht
    intro hmem
    obtain ⟨piece,hpiece,hmem⟩ := List.mem_flatten.mp hmem
    exact ih h (hpieces piece hpiece) hmem

/-- An assertion about one side, by a property that no separator has. -/
lemma any_eq_of_edge {f : UInt16 → Bool} (hf : ∀ u, sep u = true → f u = false) {x x' : Option UInt16}
    (h : x = x' ∨ x.all sep = true ∧ x'.all sep = true) : x.any f = x'.any f := by
  obtain rfl | ⟨hx,hx'⟩ := h
  · rfl
  · have hnone : ∀ y : Option UInt16, y.all sep = true → y.any f = false := by
      rintro (_ | u) hy
      · rfl
      · exact hf u hy
    rw [hnone x hx, hnone x' hx']

theorem local_wordBoundary (hsep : ∀ u, sep u = true → isWord u = false) : wordBoundary.Local sep := by
  intro x x' y y' hx hy
  exact congrArg₂ _ (any_eq_of_edge hsep hx) (any_eq_of_edge hsep hy)

theorem carried_atLeast_one {f : UInt16 → Bool} (hf : ∀ u, sep u = true → f u = true) :
    (atLeast 1 (unit f)).Carried sep := by
  intro p q b a hp hq hback hne
  rw [ends_atLeast_one_ne_nil] at hne ⊢
  cases a with
  | cons u a => exact hne
  | nil =>
    obtain hnil | hsome := hback
    · simp [within, hnil] at hne
    · obtain ⟨u,after,hafter⟩ := List.exists_cons_of_ne_nil hsome
      have hu : sep u = true := by simpa [hafter] using hq.after
      simpa [within, hafter] using hf u hu

end Separators
end Regex
end OmniagentPlus.Foundation
