import Mathlib.Order.Basic
import Mathlib.Tactic.Common

/-! Loops of the form `while (changed) { changed = false; for (const item of items) visit(item); }`
over a state that only grows, where a visit raises the flag when it changes the state. -/
namespace OmniagentPlus.Foundation
variable {σ α : Type*}

section Loop
variable (visit : α → σ × Bool → σ × Bool) (items : List α)

/-- One turn of the `for` loop, from a lowered flag. -/
def pass (s : σ) : σ × Bool := items.foldl (fun m a => visit a m) (s,false)

/-- The `while` loop, for at most so many turns. -/
def saturate : ℕ → σ → σ
  | 0, s => s
  | fuel + 1, s => if (pass visit items s).2 then saturate fuel (pass visit items s).1 else (pass visit items s).1

/-- The `while` loop without a limit of its own: no value where it has not ended after so many turns. -/
def whileChanged : ℕ → σ → Option σ
  | 0, _ => none
  | fuel + 1, s =>
    if (pass visit items s).2 then whileChanged fuel (pass visit items s).1 else some (pass visit items s).1

/-- Visits of changed items are visits that change them first. -/
theorem saturate_map (g : α → α) (fuel : ℕ) (s : σ) :
    saturate visit (items.map g) fuel s = saturate (fun a => visit (g a)) items fuel s := by
  have hpass : ∀ s, pass visit (items.map g) s = pass (fun a => visit (g a)) items s := fun s => List.foldl_map
  induction fuel generalizing s with
  | zero => rfl
  | succ fuel ih => simp only [saturate, hpass, ih]

variable {visit items}

/-- What visits keep, the loop keeps. -/
theorem saturate_invariant {I : σ → Prop} (hI : ∀ a ∈ items, ∀ m : σ × Bool, I m.1 → I (visit a m).1)
    (fuel : ℕ) {s : σ} (hs : I s) : I (saturate visit items fuel s) := by
  have hpass : ∀ (l : List α) (m : σ × Bool), (∀ a ∈ l, a ∈ items) → I m.1 →
      I (l.foldl (fun m a => visit a m) m).1 := by
    intro l
    induction l with
    | nil => exact fun m _ hm => hm
    | cons a l ih =>
      intro m hl hm
      exact ih (visit a m) (fun b hb => hl b (List.mem_cons_of_mem a hb))
        (hI a (hl a List.mem_cons_self) m hm)
  induction fuel generalizing s with
  | zero => exact hs
  | succ fuel ih =>
    have hnext : I (pass visit items s).1 := hpass items (s,false) (fun _ ha => ha) hs
    simp only [saturate]
    split_ifs
    · exact ih hnext
    · exact hnext

end Loop

section Growth
variable [PartialOrder σ]

/-- A piece of a visit: it grows the state, and raises the flag exactly when it does. -/
structure Grows (f : σ × Bool → σ × Bool) : Prop where
  le : ∀ m, m.1 ≤ (f m).1
  quiet : ∀ m, (f m).2 = false → f m = m
  moved : ∀ m, (f m).2 = true → m.2 = true ∨ m.1 < (f m).1

namespace Grows

theorem id : Grows (fun m : σ × Bool => m) where
  le m := le_refl m.1
  quiet _ _ := rfl
  moved _ h := Or.inl h

theorem comp {f g : σ × Bool → σ × Bool} (hf : Grows f) (hg : Grows g) : Grows (fun m => g (f m)) where
  le m := (hf.le m).trans (hg.le (f m))
  quiet m h := by
    have hfg := hg.quiet (f m) h
    rw [hfg] at h ⊢
    exact hf.quiet m h
  moved m h := by
    rcases hg.moved (f m) h with h | h
    · rcases hf.moved m h with h | h
      · exact Or.inl h
      · exact Or.inr (h.trans_le (hg.le (f m)))
    · exact Or.inr ((hf.le m).trans_lt h)

/-- Where the whole changes nothing, neither part does. -/
theorem comp_quiet {f g : σ × Bool → σ × Bool} (hg : Grows g) {s : σ}
    (h : g (f (s,false)) = (s,false)) : f (s,false) = (s,false) ∧ g (s,false) = (s,false) := by
  have hfg := hg.quiet (f (s,false)) (by rw [h])
  have hf' := hfg.symm.trans h
  exact ⟨hf',by rw [hf'] at h; exact h⟩

/-- A choice made by looking at the state. -/
theorem choose {β : Type*} {F : β → σ × Bool → σ × Bool} (hF : ∀ b, Grows (F b)) (c : σ × Bool → β) :
    Grows (fun m => F (c m) m) where
  le m := (hF (c m)).le m
  quiet m := (hF (c m)).quiet m
  moved m := (hF (c m)).moved m

theorem ite {f : σ × Bool → σ × Bool} (hf : Grows f) (c : σ × Bool → Bool) :
    Grows (fun m => if c m then f m else m) :=
  Grows.choose (F := fun b m => if b then f m else m)
    (fun b => by cases b; exacts [Grows.id,hf]) c

theorem foldl {f : α → σ × Bool → σ × Bool} (hf : ∀ a, Grows (f a)) (l : List α) :
    Grows (fun m => l.foldl (fun m a => f a m) m) := by
  induction l with
  | nil => exact Grows.id
  | cons a l ih => exact (hf a).comp ih

theorem foldl_quiet {f : α → σ × Bool → σ × Bool} (hf : ∀ a, Grows (f a)) {l : List α} {s : σ}
    (h : l.foldl (fun m a => f a m) (s,false) = (s,false)) : ∀ a ∈ l, f a (s,false) = (s,false) := by
  induction l with
  | nil =>
    intro a ha
    cases ha
  | cons b l ih =>
    obtain ⟨hb,hl⟩ := comp_quiet (Grows.foldl hf l) h
    intro a ha
    rcases List.mem_cons.mp ha with rfl | ha
    · exact hb
    · exact ih hl a ha

end Grows

variable {visit : α → σ × Bool → σ × Bool} {items : List α}

theorem le_saturate (hv : ∀ a, Grows (visit a)) (fuel : ℕ) (s : σ) :
    s ≤ saturate visit items fuel s := by
  induction fuel generalizing s with
  | zero => exact le_refl s
  | succ fuel ih =>
    have hpass : s ≤ (pass visit items s).1 := (Grows.foldl hv items).le (s,false)
    simp only [saturate]
    split_ifs
    · exact hpass.trans (ih _)
    · exact hpass

/-- With a measure that grows with the state and stays below a bound, that many turns are
enough for the loop to end. -/
theorem whileChanged_saturate (hv : ∀ a, Grows (visit a)) {I : σ → Prop}
    (hI : ∀ a ∈ items, ∀ m : σ × Bool, I m.1 → I (visit a m).1) {μ : σ → ℕ} {bound : ℕ}
    (hμ : ∀ s t, s < t → μ s < μ t) (hbound : ∀ s, I s → μ s ≤ bound) {fuel : ℕ} {s : σ} (hs : I s)
    (hfuel : bound < fuel + μ s) :
    whileChanged visit items fuel s = some (saturate visit items fuel s) := by
  induction fuel generalizing s with
  | zero =>
    have := hbound s hs
    omega
  | succ fuel ih =>
    have hnext : I (pass visit items s).1 := by
      have := saturate_invariant hI 1 hs
      simpa [saturate] using this
    simp only [whileChanged, saturate]
    split_ifs with hflag
    · rcases (Grows.foldl hv items).moved (s,false) hflag with h | h
      · cases h
      · have hlt : μ s < μ (pass visit items s).1 := hμ s _ h
        exact ih hnext (by omega)
    · rfl

/-- With a measure that grows with the state and stays below a bound, that many turns are
enough for the loop to end by itself, and then no visit changes anything. -/
theorem saturate_closed (hv : ∀ a, Grows (visit a)) {I : σ → Prop}
    (hI : ∀ a ∈ items, ∀ m : σ × Bool, I m.1 → I (visit a m).1) {μ : σ → ℕ} {bound : ℕ}
    (hμ : ∀ s t, s < t → μ s < μ t) (hbound : ∀ s, I s → μ s ≤ bound) {fuel : ℕ} {s : σ} (hs : I s)
    (hfuel : bound < fuel + μ s) :
    ∀ a ∈ items, visit a (saturate visit items fuel s,false) = (saturate visit items fuel s,false) := by
  induction fuel generalizing s with
  | zero =>
    have := hbound s hs
    omega
  | succ fuel ih =>
    have hgrows := Grows.foldl hv items
    have hnext : I (pass visit items s).1 := by
      have := saturate_invariant hI 1 hs
      simpa [saturate] using this
    simp only [saturate]
    by_cases hflag : (pass visit items s).2 = true
    · rw [if_pos hflag]
      rcases hgrows.moved (s,false) hflag with h | h
      · cases h
      · have hlt : μ s < μ (pass visit items s).1 := hμ s _ h
        exact ih hnext (by omega)
    · have hflag : (pass visit items s).2 = false := by simpa using hflag
      have hsame : pass visit items s = (s,false) := hgrows.quiet (s,false) hflag
      rw [hsame, if_neg Bool.false_ne_true]
      exact Grows.foldl_quiet hv hsame

end Growth
end OmniagentPlus.Foundation
