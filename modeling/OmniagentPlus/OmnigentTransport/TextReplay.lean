import OmniagentPlus.Foundation.Text

/-! Texts that come again in pieces: the pieces that a reader who compares each with the start,
or else with the first match, of what is left takes for a repetition. -/
namespace OmniagentPlus.OmnigentTransport
open OmniagentPlus.Foundation

/-- The pieces up to the last that is not empty. -/
def shown : List Text → List Text
  | [] => []
  | d :: ds => if shown ds = [] ∧ d = [] then [] else d :: shown ds

/-- The first match of `d` in `R` is at the end of `R`. -/
def EndsFirst (d R : Text) : Prop := ∃ k, Text.indexOf d R = some k ∧ k + d.length = R.length

/-- No empty piece stands before another piece, and the pieces go on from the start of `H`,
except that the last may be where its first match ends what is left of `H`. -/
def Replayable (H : Text) (ds : List Text) : Prop :=
  [] ∉ shown ds ∧ ((shown ds).flatten <+: H ∨
    ∃ front last R, shown ds = front ++ [last] ∧ H = front.flatten ++ R ∧ EndsFirst last R)

theorem shown_eq_nil {ds : List Text} : shown ds = [] ↔ ds.flatten = [] := by
  induction ds with
  | nil => simp [shown]
  | cons d ds ih =>
    rw [shown, List.flatten_cons, List.append_eq_nil_iff, ← ih]
    by_cases h : shown ds = [] ∧ d = []
    · simp [h]
    · rw [if_neg h]
      simp only [reduceCtorEq, false_iff]
      exact fun hd => h ⟨hd.2,hd.1⟩

lemma shown_cons_of_ne {d : Text} {ds : List Text} (h : d ≠ []) : shown (d :: ds) = d :: shown ds :=
  if_neg (fun hd => h hd.2)

theorem replayable_of_shown_nil {R : Text} {ds : List Text} (h : shown ds = []) : Replayable R ds := by
  rw [Replayable, h]
  exact ⟨List.not_mem_nil,Or.inl List.nil_prefix⟩

/-- The last piece. -/
theorem replayable_single {R d : Text} {ds : List Text} (hd : d ≠ []) (h : shown ds = []) :
    Replayable R (d :: ds) ↔ d <+: R ∨ EndsFirst d R := by
  rw [Replayable, shown_cons_of_ne hd, h]
  constructor
  · intro hr
    cases hr.2 with
    | inl hp => exact Or.inl (by simpa using hp)
    | inr he =>
      obtain ⟨front,last,R',hsplit,hR,he⟩ := he
      have hlen := congrArg List.length hsplit
      have hfront : front = [] := by
        apply List.length_eq_zero_iff.mp
        rw [List.length_append, List.length_singleton, List.length_singleton] at hlen
        omega
      subst hfront
      cases hsplit
      rw [List.flatten_nil, List.nil_append] at hR
      subst hR
      exact Or.inr he
  · intro hr
    refine ⟨by simpa using hd.symm,?_⟩
    cases hr with
    | inl hp => exact Or.inl (by simpa using hp)
    | inr he => exact Or.inr ⟨[],d,R,rfl,rfl,he⟩

/-- A piece with another one after it. -/
theorem replayable_cons {R d : Text} {ds : List Text} (hd : d ≠ []) (h : shown ds ≠ []) :
    Replayable R (d :: ds) ↔ d <+: R ∧ Replayable (R.drop d.length) ds := by
  rw [Replayable, Replayable, shown_cons_of_ne hd]
  constructor
  · rintro ⟨hempty,hrest⟩
    have hempty' : [] ∉ shown ds := fun hm => hempty (List.mem_cons_of_mem d hm)
    cases hrest with
    | inl hp =>
      obtain ⟨t,rfl⟩ := hp
      rw [List.flatten_cons, List.append_assoc]
      exact ⟨List.prefix_append _ _,hempty',Or.inl (by simp)⟩
    | inr he =>
      obtain ⟨front,last,R',hsplit,rfl,he⟩ := he
      cases front with
      | nil => exact absurd (List.cons.inj hsplit).2 h
      | cons f front =>
        rw [List.cons_append] at hsplit
        obtain ⟨rfl,htail⟩ := List.cons.inj hsplit
        rw [List.flatten_cons, List.append_assoc]
        exact ⟨List.prefix_append _ _,hempty',Or.inr ⟨front,last,R',htail,by simp,he⟩⟩
  · rintro ⟨⟨t,rfl⟩,hempty,hrest⟩
    rw [List.drop_left] at hrest
    refine ⟨?_,?_⟩
    · intro hm
      cases List.mem_cons.mp hm with
      | inl heq => exact hd heq.symm
      | inr hm => exact hempty hm
    · cases hrest with
      | inl hp => exact Or.inl ((List.prefix_append_right_inj d).mpr hp)
      | inr he =>
        obtain ⟨front,last,R',hsplit,rfl,he⟩ := he
        refine Or.inr ⟨d :: front,last,R',?_,?_,he⟩
        · rw [hsplit, List.cons_append]
        · rw [List.flatten_cons, List.append_assoc]

/-- In the text that is left, a piece that is not the last of its suffix has an earlier match. -/
theorem endsFirst_last {R d rest : Text} (h : d ++ rest <:+ R) (he : EndsFirst d R) : rest = [] := by
  obtain ⟨k,hk,hend⟩ := he
  obtain ⟨front,rfl⟩ := h
  have hmatch : d <+: (front ++ (d ++ rest)).drop front.length := by simp
  obtain ⟨j,hj,hle⟩ := Text.indexOf_le (by simp) hmatch
  rw [hk] at hj
  cases hj
  rw [List.length_append, List.length_append] at hend
  exact List.length_eq_zero_iff.mp (by omega)

/-- What is left of a suffix after a piece is a suffix of what is left of the text after it. -/
theorem suffix_drop {R d rest : Text} (h : d ++ rest <:+ R) : rest <:+ R.drop d.length := by
  obtain ⟨front,rfl⟩ := h
  rw [← List.append_assoc]
  rw [List.drop_append_of_le_length (by simp)]
  exact List.suffix_append _ _

end OmniagentPlus.OmnigentTransport
