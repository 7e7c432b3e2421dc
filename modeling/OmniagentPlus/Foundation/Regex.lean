import OmniagentPlus.Foundation.Text

/-! Regular expressions over code units, and whether one is found in a text as
`RegExp.prototype.test` finds it. What one finds between `^` and `$` is its language. -/
namespace OmniagentPlus.Foundation

/-- `place` is an assertion about the units next to a place. -/
inductive Regex where
  | empty
  | unit (p : UInt16 → Bool)
  | place (p : Option UInt16 → Option UInt16 → Bool)
  | seq (r s : Regex)
  | alt (r s : Regex)
  | star (r : Regex)

/-- A place in a text: the units before it, the nearest first, and those after it. -/
structure Place where
  before : Text
  after : Text

namespace Regex

/-- Every place that some rounds of a step lead to; a round that reads nothing ends it. -/
def rounds (step : Place → List Place) : ℕ → Place → List Place
  | 0, at' => [at']
  | n + 1, at' => at' :: ((step at').filter (fun next => next.after.length < at'.after.length)).flatMap (rounds step n)

/-- The places where a match from a place may end. -/
def ends : Regex → Place → List Place
  | empty, at' => [at']
  | unit p, at' =>
    match at'.after with
    | [] => []
    | u :: after => if p u then [⟨u :: at'.before,after⟩] else []
  | place p, at' => if p at'.before.head? at'.after.head? then [at'] else []
  | seq r s, at' => (r.ends at').flatMap s.ends
  | alt r s, at' => r.ends at' ++ s.ends at'
  | star r, at' => rounds r.ends at'.after.length at'

/-- `regex.test(text)` -/
def test (r : Regex) (text : Text) : Bool :=
  (List.range (text.length + 1)).any fun n => !(r.ends ⟨(text.take n).reverse,text.drop n⟩).isEmpty

def sequence : List Regex → Regex
  | [] => empty
  | [r] => r
  | r :: rs => seq r (sequence rs)

def oneOf : List Regex → Regex
  | [] => unit fun _ => false
  | [r] => r
  | r :: rs => alt r (oneOf rs)

def optional (r : Regex) : Regex := alt r empty

def times : ℕ → Regex → Regex
  | 0, _ => empty
  | n + 1, r => seq r (times n r)

/-- `r{n,}` -/
def atLeast (n : ℕ) (r : Regex) : Regex := seq (times n r) (star r)

/-- `r{0,n}` -/
def atMost : ℕ → Regex → Regex
  | 0, _ => empty
  | n + 1, r => optional (seq r (atMost n r))

/-- The units of some pairs of first and last characters. -/
def ranges (pairs : List (Char × Char)) (u : UInt16) : Bool :=
  pairs.any fun pair => decide (pair.1.toNat ≤ u.toNat) && decide (u.toNat ≤ pair.2.toNat)

/-- The units of some characters. -/
def among (characters : String) (u : UInt16) : Bool := (Text.of characters).contains u

/-- An ASCII letter in its other case. -/
def otherCase (u : UInt16) : UInt16 :=
  if ranges [('A','Z')] u then u + 0x20 else if ranges [('a','z')] u then u - 0x20 else u

/-- A class of ASCII characters under the flag `i`. -/
def anyCase (p : UInt16 → Bool) (u : UInt16) : Bool := p u || p (otherCase u)

/-- The characters of a text one after another. -/
def literal (characters : String) : Regex := sequence ((Text.of characters).map fun c => unit fun u => u == c)

/-- The same under the flag `i`. -/
def literalAnyCase (characters : String) : Regex :=
  sequence ((Text.of characters).map fun c => unit (anyCase fun u => u == c))

/-- `\w` -/
def isWord : UInt16 → Bool := fun u => ranges [('A','Z'),('a','z'),('0','9')] u || among "_" u

/-- `\b` -/
def wordBoundary : Regex := place fun before after => before.any isWord != after.any isWord

/-- `^` and `$` without the flag `m`. -/
def start : Regex := place fun before _ => before.isNone

def finish : Regex := place fun _ after => after.isNone

/-- `\s` and `\S` -/
def space : Regex := unit Text.isSpace

def nonSpace : Regex := unit fun u => !Text.isSpace u

section Language

/-- The texts that a regular expression matches from end to end. -/
def Matches : Regex → Text → Prop
  | empty, text => text = []
  | unit p, text => ∃ u, p u = true ∧ text = [u]
  | place _, text => text = []
  | seq r s, text => ∃ first rest, r.Matches first ∧ s.Matches rest ∧ text = first ++ rest
  | alt r s, text => r.Matches text ∨ s.Matches text
  | star r, text => ∃ pieces : List Text, (∀ piece ∈ pieces, r.Matches piece) ∧ text = pieces.flatten

/-- Nothing is asserted about the units around the match. -/
def Plain : Regex → Prop
  | empty | unit _ => True
  | place _ => False
  | seq r s | alt r s => r.Plain ∧ s.Plain
  | star r => r.Plain

/-- The place behind a text that comes next. -/
def Past (p : Place) (text : Text) (q : Place) : Prop :=
  p.after = text ++ q.after ∧ q.before = text.reverse ++ p.before

theorem Past.append {p q r : Place} {first rest : Text} (h : Past p first q) (h' : Past q rest r) :
    Past p (first ++ rest) r := by
  obtain ⟨ha,hb⟩ := h
  obtain ⟨ha',hb'⟩ := h'
  refine ⟨by rw [ha, ha', List.append_assoc],?_⟩
  rw [hb', hb, List.reverse_append, List.append_assoc]

/-- Between two places that are one text apart lies every part of the text. -/
theorem Past.split {p r : Place} {first rest : Text} (h : Past p (first ++ rest) r) :
    ∃ q, Past p first q ∧ Past q rest r := by
  obtain ⟨ha,hb⟩ := h
  refine ⟨⟨first.reverse ++ p.before,rest ++ r.after⟩,⟨?_,rfl⟩,rfl,?_⟩
  · rw [ha, List.append_assoc]
  · rw [hb, List.reverse_append, List.append_assoc]

theorem past_nil_iff {p q : Place} : Past p [] q ↔ q = p := by
  constructor
  · rintro ⟨ha,hb⟩
    obtain ⟨before,after⟩ := q
    obtain ⟨before',after'⟩ := p
    simp only [List.nil_append, List.reverse_nil] at ha hb
    rw [ha, hb]
  · rintro rfl
    exact ⟨rfl,rfl⟩

/-- Rounds that each read something. -/
theorem mem_rounds_iff {step : Place → List Place} {P : Text → Prop}
    (hstep : ∀ p q, q ∈ step p ↔ ∃ text, Past p text q ∧ P text) (n : ℕ) (p q : Place) (hn : p.after.length ≤ n) :
    q ∈ rounds step n p ↔ ∃ pieces : List Text, (∀ piece ∈ pieces, P piece) ∧ Past p pieces.flatten q := by
  induction n generalizing p with
  | zero =>
    have hnil : p.after = [] := List.eq_nil_of_length_eq_zero (by omega)
    rw [rounds, List.mem_singleton]
    constructor
    · rintro rfl
      exact ⟨[],by simp,past_nil_iff.mpr rfl⟩
    · rintro ⟨pieces,-,hpast⟩
      have hflat : pieces.flatten = [] := by
        have h := hpast.1
        rw [hnil] at h
        exact (List.append_eq_nil_iff.mp h.symm).1
      rw [hflat] at hpast
      exact past_nil_iff.mp hpast
  | succ n ih =>
    simp only [rounds, List.mem_cons, List.mem_flatMap, List.mem_filter, decide_eq_true_eq]
    constructor
    · rintro (rfl | ⟨m,⟨hm,hshort⟩,hq⟩)
      · exact ⟨[],by simp,past_nil_iff.mpr rfl⟩
      · obtain ⟨piece,hpast,hpiece⟩ := (hstep p m).mp hm
        obtain ⟨pieces,hpieces,hrest⟩ := (ih m (by omega)).mp hq
        exact ⟨piece :: pieces,List.forall_mem_cons.mpr ⟨hpiece,hpieces⟩,hpast.append hrest⟩
    · rintro ⟨pieces,hpieces,hpast⟩
      -- the first piece that reads something is the first round
      induction pieces with
      | nil => exact .inl (past_nil_iff.mp hpast)
      | cons piece pieces ihp =>
        obtain ⟨hpiece,hrest⟩ := List.forall_mem_cons.mp hpieces
        by_cases hnil : piece = []
        · subst hnil
          exact ihp hrest hpast
        · obtain ⟨m,hm,hmq⟩ := Past.split hpast
          have hlength : p.after.length = piece.length + m.after.length := by rw [hm.1, List.length_append]
          have hpos := List.length_pos_of_ne_nil hnil
          exact .inr ⟨m,⟨(hstep p m).mpr ⟨piece,hm,hpiece⟩,by omega⟩,(ih m (by omega)).mpr ⟨pieces,hrest,hmq⟩⟩

theorem mem_ends_iff {r : Regex} (h : r.Plain) (p q : Place) :
    q ∈ r.ends p ↔ ∃ text, Past p text q ∧ r.Matches text := by
  induction r generalizing p q with
  | empty => simp [ends, Matches, past_nil_iff]
  | unit f =>
    obtain ⟨before,after⟩ := p
    cases after with
    | nil =>
      simp only [ends, List.not_mem_nil, Matches, false_iff]
      rintro ⟨text,⟨ha,-⟩,u,-,rfl⟩
      cases ha
    | cons u after =>
      simp only [ends, Matches]
      constructor
      · intro hq
        split_ifs at hq with hu
        · rw [List.mem_singleton] at hq
          subst hq
          exact ⟨[u],⟨rfl,rfl⟩,u,hu,rfl⟩
        · cases hq
      · rintro ⟨text,⟨ha,hb⟩,v,hv,rfl⟩
        obtain ⟨rfl,hafter⟩ := List.cons.inj ha
        rw [if_pos hv, List.mem_singleton]
        obtain ⟨before',after'⟩ := q
        simp only at hb hafter
        rw [hb, hafter]
        rfl
  | place f => cases h
  | seq r s ihr ihs =>
    simp only [ends, List.mem_flatMap, ihr h.1, ihs h.2, Matches]
    constructor
    · rintro ⟨m,⟨first,hfirst,hr⟩,rest,hrest,hs⟩
      exact ⟨first ++ rest,hfirst.append hrest,first,rest,hr,hs,rfl⟩
    · rintro ⟨text,hpast,first,rest,hr,hs,rfl⟩
      obtain ⟨m,hfirst,hrest⟩ := hpast.split
      exact ⟨m,⟨first,hfirst,hr⟩,rest,hrest,hs⟩
  | alt r s ihr ihs =>
    simp only [ends, List.mem_append, ihr h.1, ihs h.2, Matches]
    constructor
    · rintro (⟨text,hpast,hr⟩ | ⟨text,hpast,hs⟩)
      · exact ⟨text,hpast,.inl hr⟩
      · exact ⟨text,hpast,.inr hs⟩
    · rintro ⟨text,hpast,hr | hs⟩
      · exact .inl ⟨text,hpast,hr⟩
      · exact .inr ⟨text,hpast,hs⟩
  | star r ih =>
    rw [ends, mem_rounds_iff (ih h) _ p q le_rfl]
    constructor
    · rintro ⟨pieces,hpieces,hpast⟩
      exact ⟨pieces.flatten,hpast,pieces,hpieces,rfl⟩
    · rintro ⟨text,hpast,pieces,hpieces,rfl⟩
      exact ⟨pieces,hpieces,hpast⟩

/-- The test of a regular expression between `^` and `$`. -/
theorem test_anchored {r : Regex} (h : r.Plain) (text : Text) :
    (sequence [start,r,finish]).test text = true ↔ r.Matches text := by
  have hends : ∀ n, ((sequence [start,r,finish]).ends ⟨(text.take n).reverse,text.drop n⟩).isEmpty = false ↔
      (text.take n = [] ∧ ∃ q, q ∈ r.ends ⟨(text.take n).reverse,text.drop n⟩ ∧ q.after = []) := by
    intro n
    by_cases hnil : text.take n = []
    · have hstart : (sequence [start,r,finish]).ends ⟨(text.take n).reverse,text.drop n⟩ =
          (r.ends ⟨(text.take n).reverse,text.drop n⟩).flatMap (ends finish) := by
        simp [sequence, start, ends, hnil]
      rw [hstart, List.isEmpty_eq_false_iff, ne_eq, List.flatMap_eq_nil_iff]
      simp only [not_forall, hnil, true_and, finish, ends]
      refine exists_congr fun q => ?_
      cases q.after <;> simp
    · have hstart : (sequence [start,r,finish]).ends ⟨(text.take n).reverse,text.drop n⟩ = [] := by
        obtain ⟨u,rest,hrest⟩ := List.exists_cons_of_ne_nil (List.reverse_ne_nil_iff.mpr hnil)
        simp [sequence, start, ends, hrest]
      simp [hstart, hnil]
  simp only [test, List.any_eq_true, List.mem_range, Bool.not_eq_true', hends, mem_ends_iff h]
  constructor
  · rintro ⟨n,-,hnil,q,⟨found,hpast,hr⟩,hafter⟩
    have htext : text.drop n = text := by
      have happ := List.take_append_drop n text
      rwa [hnil, List.nil_append] at happ
    have hfound := hpast.1
    rw [hafter, List.append_nil] at hfound
    obtain rfl : text = found := htext.symm.trans hfound
    exact hr
  · intro hr
    refine ⟨0,by omega,rfl,⟨text.reverse,[]⟩,⟨text,⟨?_,?_⟩,hr⟩,rfl⟩
    · simp
    · simp

theorem matches_optional {r : Regex} {text : Text} : (optional r).Matches text ↔ r.Matches text ∨ text = [] := Iff.rfl

theorem matches_star_unit {p : UInt16 → Bool} {text : Text} : (star (unit p)).Matches text ↔ ∀ u ∈ text, p u = true := by
  constructor
  · rintro ⟨pieces,hpieces,rfl⟩ u hu
    obtain ⟨piece,hpiece,hmem⟩ := List.mem_flatten.mp hu
    obtain ⟨v,hv,rfl⟩ := hpieces piece hpiece
    rwa [List.mem_singleton.mp hmem]
  · intro h
    refine ⟨text.map fun u => [u],fun piece hpiece => ?_,?_⟩
    · obtain ⟨u,hu,rfl⟩ := List.mem_map.mp hpiece
      exact ⟨u,h u hu,rfl⟩
    · induction text with
      | nil => rfl
      | cons u text ih =>
        rw [List.map_cons, List.flatten_cons, ← ih fun v hv => h v (List.mem_cons_of_mem u hv)]
        rfl

theorem matches_atLeast_one {p : UInt16 → Bool} {text : Text} :
    (atLeast 1 (unit p)).Matches text ↔ text ≠ [] ∧ ∀ u ∈ text, p u = true := by
  constructor
  · rintro ⟨_,rest,⟨_,_,⟨u,hu,rfl⟩,rfl,rfl⟩,hrest,rfl⟩
    refine ⟨by simp,?_⟩
    intro v hv
    rcases List.mem_cons.mp hv with rfl | hv
    · exact hu
    · exact matches_star_unit.mp hrest v hv
  · rintro ⟨hne,h⟩
    obtain ⟨u,rest,rfl⟩ := List.exists_cons_of_ne_nil hne
    exact ⟨[u],rest,⟨[u],[],⟨u,h u List.mem_cons_self,rfl⟩,rfl,rfl⟩,
      matches_star_unit.mpr fun v hv => h v (List.mem_cons_of_mem u hv),rfl⟩

theorem matches_literalUnits {units text : Text} :
    (sequence (units.map fun c => unit fun u => u == c)).Matches text ↔ text = units := by
  induction units generalizing text with
  | nil => rfl
  | cons c units ih =>
    cases units with
    | nil => simp [sequence, Matches]
    | cons c' units =>
      simp only [List.map_cons, sequence, Matches, beq_iff_eq, exists_eq_left] at ih ⊢
      constructor
      · rintro ⟨first,rest,rfl,hrest,rfl⟩
        rw [ih.mp hrest]
        rfl
      · rintro rfl
        exact ⟨_,c' :: units,rfl,ih.mpr rfl,rfl⟩

theorem plain_literalUnits (units : Text) : (sequence (units.map fun c => unit fun u => u == c)).Plain := by
  induction units with
  | nil => trivial
  | cons c units ih =>
    cases units with
    | nil => trivial
    | cons c' units => exact ⟨trivial,ih⟩

theorem plain_times {r : Regex} (h : r.Plain) (n : ℕ) : (times n r).Plain := by
  induction n with
  | zero => trivial
  | succ n ih => exact ⟨h,ih⟩

theorem matches_times_unit {p : UInt16 → Bool} {n : ℕ} {text : Text} :
    (times n (unit p)).Matches text ↔ text.length = n ∧ ∀ u ∈ text, p u = true := by
  induction n generalizing text with
  | zero =>
    rw [times, Matches, List.length_eq_zero_iff]
    constructor
    · rintro rfl
      exact ⟨rfl,fun u hu => absurd hu List.not_mem_nil⟩
    · exact fun h => h.1
  | succ n ih =>
    simp only [times, Matches]
    constructor
    · rintro ⟨_,rest,⟨u,hu,rfl⟩,hrest,rfl⟩
      obtain ⟨hlength,hall⟩ := ih.mp hrest
      exact ⟨by simp [hlength],by simpa [hu] using hall⟩
    · rintro ⟨hlength,hall⟩
      obtain ⟨u,rest,rfl⟩ := List.exists_cons_of_length_eq_add_one hlength
      obtain ⟨hu,hrest⟩ := List.forall_mem_cons.mp hall
      exact ⟨[u],rest,⟨u,hu,rfl⟩,ih.mpr ⟨by simpa using hlength,hrest⟩,rfl⟩

end Language

section Alphabet

/-- Whether a match may lie in a text of these units only; an assertion is taken to hold. -/
def feasible (alphabet : List UInt16) : Regex → Bool
  | empty | place _ | star _ => true
  | unit p => alphabet.any p
  | seq r s => r.feasible alphabet && s.feasible alphabet
  | alt r s => r.feasible alphabet || s.feasible alphabet

lemma rounds_after {step : Place → List Place} (h : ∀ p q, q ∈ step p → q.after ⊆ p.after) (n : ℕ) (p q : Place)
    (hq : q ∈ rounds step n p) : q.after ⊆ p.after := by
  induction n generalizing p with
  | zero =>
    rw [rounds, List.mem_singleton] at hq
    rw [hq]
    exact fun _ => id
  | succ n ih =>
    rw [rounds] at hq
    obtain rfl | hq := List.mem_cons.mp hq
    · exact fun _ => id
    · obtain ⟨m,hm,hq⟩ := List.mem_flatMap.mp hq
      exact List.Subset.trans (ih m hq) (h p m (List.mem_filter.mp hm).1)

/-- A match leaves units of the text. -/
theorem ends_after (r : Regex) (p q : Place) (h : q ∈ r.ends p) : q.after ⊆ p.after := by
  induction r generalizing p q with
  | empty =>
    rw [ends, List.mem_singleton] at h
    rw [h]
    exact fun _ => id
  | unit f =>
    obtain ⟨before,after⟩ := p
    cases after with
    | nil => cases h
    | cons u after =>
      simp only [ends] at h
      split_ifs at h
      · rw [List.mem_singleton.mp h]
        exact List.subset_cons_self u after
      · cases h
  | place f =>
    simp only [ends] at h
    split_ifs at h
    · rw [List.mem_singleton.mp h]
      exact fun _ => id
    · cases h
  | seq r s ihr ihs =>
    obtain ⟨m,hm,hq⟩ := List.mem_flatMap.mp h
    exact List.Subset.trans (ihs m q hq) (ihr p m hm)
  | alt r s ihr ihs =>
    obtain h | h := List.mem_append.mp h
    · exact ihr p q h
    · exact ihs p q h
  | star r ih => exact rounds_after ih _ p q h

theorem ends_eq_nil {alphabet : List UInt16} {r : Regex} (hr : r.feasible alphabet = false) (p : Place)
    (hp : p.after ⊆ alphabet) : r.ends p = [] := by
  induction r generalizing p with
  | empty => cases hr
  | place f => cases hr
  | star r _ => cases hr
  | unit f =>
    obtain ⟨before,after⟩ := p
    cases after with
    | nil => rfl
    | cons u after =>
      have hu : ¬f u = true := fun hf => by
        rw [feasible, List.any_eq_false] at hr
        exact hr u (hp List.mem_cons_self) hf
      exact if_neg hu
  | seq r s ihr ihs =>
    rw [feasible, Bool.and_eq_false_iff] at hr
    rw [ends, List.flatMap_eq_nil_iff]
    intro m hm
    obtain hr | hs := hr
    · rw [ihr hr p hp] at hm
      cases hm
    · exact ihs hs m (List.Subset.trans (ends_after r p m hm) hp)
  | alt r s ihr ihs =>
    obtain ⟨hr,hs⟩ := Bool.or_eq_false_iff.mp hr
    rw [ends, ihr hr p hp, ihs hs p hp]
    rfl

/-- Nothing is found in a text whose units do not make up a match. -/
theorem test_eq_false {alphabet : List UInt16} {r : Regex} {text : Text} (hr : r.feasible alphabet = false)
    (ht : text ⊆ alphabet) : r.test text = false := by
  rw [test, List.any_eq_false]
  intro n _
  rw [ends_eq_nil hr _ (List.Subset.trans (List.drop_subset n text) ht)]
  simp

end Alphabet
end Regex
end OmniagentPlus.Foundation
