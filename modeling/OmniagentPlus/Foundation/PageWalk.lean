import Mathlib.Data.List.Sort
import Mathlib.Tactic.Common

/-! Pages of entries in the order of their keys, and the walk that follows the cursor of the last
entry of each page until one is empty. -/
namespace OmniagentPlus.Foundation

section Order
variable {α τ : Type*} (cmp : τ → τ → Ordering) (key : α → τ)

def InOrder (xs : List α) : Prop := xs.Pairwise fun a b => (cmp (key a) (key b)).isLE = true

variable [Std.TransCmp cmp]

lemma cmp_swap (a b : τ) : cmp a b = (cmp b a).swap := Std.OrientedCmp.eq_swap

lemma cmp_self (a : τ) : cmp a a = .eq := Std.ReflCmp.compare_self

theorem inOrder_mergeSort (xs : List α) :
    InOrder cmp key (xs.mergeSort fun a b => cmp (key a) (key b) != .gt) := by
  have hle : ∀ a b : α, (cmp (key a) (key b) != .gt) = (cmp (key a) (key b)).isLE := fun a b => by
    cases cmp (key a) (key b) <;> rfl
  simp only [hle]
  apply List.pairwise_mergeSort
  · intro a b c hab hbc
    exact Std.TransCmp.isLE_trans hab hbc
  · intro a b
    rw [Bool.or_eq_true]
    cases h : cmp (key a) (key b) with
    | gt =>
      right
      rw [cmp_swap cmp, h]
      rfl
    | lt => exact Or.inl rfl
    | eq => exact Or.inl rfl

section Insertion
variable (le : α → α → Prop) [DecidableRel le] [IsTrans α le]

/-- What a filter drops does not change where an entry goes. -/
lemma orderedInsert_filter (kept : α → Bool) (a : α) {xs : List α} (h : xs.Pairwise le) :
    (xs.orderedInsert le a).filter kept =
      if kept a then (xs.filter kept).orderedInsert le a else xs.filter kept := by
  induction xs with
  | nil => cases ha : kept a <;> simp [ha]
  | cons b xs ih =>
    obtain ⟨hb,hxs⟩ := List.pairwise_cons.mp h
    by_cases hab : le a b
    · rw [List.orderedInsert_cons_of_le le xs hab, List.filter_cons]
      cases ha : kept a with
      | false => rfl
      | true =>
        -- All of the sorted list is above `a`, and so is what is kept of it.
        have hfirst : ∀ c ∈ (b :: xs).filter kept, le a c := by
          intro c hc
          obtain rfl | hc := List.mem_cons.mp (List.mem_filter.mp hc).1
          · exact hab
          · exact IsTrans.trans _ _ _ hab (hb c hc)
        generalize (b :: xs).filter kept = ys at hfirst
        cases ys with
        | nil => rfl
        | cons c ys => exact (List.orderedInsert_cons_of_le le ys (hfirst c List.mem_cons_self)).symm
    · rw [List.orderedInsert_of_not_le le xs hab, List.filter_cons, ih hxs, List.filter_cons]
      cases hkept : kept b with
      | false => rfl
      | true =>
        cases ha : kept a with
        | false => rfl
        | true => exact (List.orderedInsert_of_not_le le _ hab).symm

/-- Sorting keeps the order of entries of one place, whatever a filter drops between them. -/
theorem insertionSort_filter [Std.Total le] (kept : α → Bool) (xs : List α) :
    (xs.insertionSort le).filter kept = (xs.filter kept).insertionSort le := by
  induction xs with
  | nil => rfl
  | cons a xs ih =>
    rw [List.insertionSort_cons, orderedInsert_filter le kept a (List.pairwise_insertionSort le xs), ih, List.filter_cons]
    cases kept a <;> rfl

end Insertion

/-- An entry is among the first ones where these have room for all that come no later. -/
theorem mem_take_of_room {xs : List α} (h : InOrder cmp key xs) {m : α} (hm : m ∈ xs) {limit : ℕ}
    (hroom : (xs.filter fun x => cmp (key x) (key m) != .gt).length ≤ limit) : m ∈ xs.take limit := by
  by_contra hnot
  have hsplit := List.take_append_drop limit xs
  rw [← hsplit, List.mem_append] at hm
  have hdrop := hm.resolve_left hnot
  have hbefore : ∀ x ∈ xs.take limit, (cmp (key x) (key m) != .gt) = true := fun x hx => by
    rw [InOrder, ← hsplit] at h
    have hle := (List.pairwise_append.mp h).2.2 x hx m hdrop
    cases hcmp : cmp (key x) (key m) with
    | gt =>
      rw [hcmp] at hle
      cases hle
    | lt => rfl
    | eq => rfl
  have hself : (cmp (key m) (key m) != .gt) = true := by
    rw [cmp_self cmp]
    rfl
  have hlast : 0 < ((xs.drop limit).filter fun x => cmp (key x) (key m) != .gt).length :=
    List.length_pos_of_mem (List.mem_filter.mpr ⟨hdrop,hself⟩)
  have hlong : limit < xs.length := by
    by_contra hshort
    rw [List.drop_of_length_le (Nat.le_of_not_lt hshort)] at hdrop
    cases hdrop
  rw [← hsplit, List.filter_append, List.length_append, List.filter_eq_self.mpr hbefore, List.length_take] at hroom
  omega

end Order

section Walk
variable {α κ : Type*} (fetch : Option κ → Option (List α)) (cursorOf : α → κ)

/-- The entries of the pages from a cursor on, up to the first page that is empty. -/
def walk : ℕ → Option κ → Option (List α)
  | 0, _ => none
  | fuel + 1, cursor => (fetch cursor).bind fun page =>
    page.getLast?.elim (some []) fun last => (walk fuel (some (cursorOf last))).map (page ++ ·)

variable {fetch cursorOf}

end Walk

section Pages
variable {α τ κ : Type*} (cmp : τ → τ → Ordering) (key : α → τ) (accepted : α → Prop) (cursorOf : α → κ)

variable {cmp key accepted cursorOf} [Std.TransCmp cmp]

end Pages
end OmniagentPlus.Foundation
