import Mathlib.Data.Set.Basic
import Mathlib.Data.List.Nodup
import Mathlib.Data.List.Range

/-! Machines that read inputs one at a time and emit a list of outputs for each. -/
namespace OmniagentPlus.Foundation

variable {σ ι ο κ : Type*}

/-- The state after all inputs, and everything emitted. -/
def emitAll (step : σ → ι → σ × List ο) : σ → List ι → σ × List ο
  | s, [] => (s,[])
  | s, i :: is => ((emitAll step (step s i).1 is).1,(step s i).2 ++ (emitAll step (step s i).1 is).2)

theorem emitAll_append (step : σ → ι → σ × List ο) (s : σ) (is js : List ι) :
    emitAll step s (is ++ js) = ((emitAll step (emitAll step s is).1 js).1,
      (emitAll step s is).2 ++ (emitAll step (emitAll step s is).1 js).2) := by
  induction is generalizing s with
  | nil => rfl
  | cons i is ih => simp only [List.cons_append, emitAll, ih, List.append_assoc]

/-- What holds of a step and composes holds of a run. -/
theorem emitAll_of_step {step : σ → ι → σ × List ο} {R : σ → σ → List ο → Prop} (refl : ∀ s, R s s [])
    (trans : ∀ {s t u xs ys}, R s t xs → R t u ys → R s u (xs ++ ys))
    (hstep : ∀ s i, R s (step s i).1 (step s i).2) (s : σ) (is : List ι) :
    R s (emitAll step s is).1 (emitAll step s is).2 := by
  induction is generalizing s with
  | nil => exact refl s
  | cons i is ih => exact trans (hstep s i) (ih (step s i).1)

/-- Two machines, one after the other: the second reads what the first emits. -/
def pipe {τ π : Type*} (first : σ → ι → σ × List ο) (second : τ → ο → τ × List π) (s : σ × τ) (i : ι) :
    (σ × τ) × List π :=
  (((first s.1 i).1,(emitAll second s.2 (first s.1 i).2).1),(emitAll second s.2 (first s.1 i).2).2)

/-- A pipe runs the second machine on the whole output of the first. -/
theorem emitAll_pipe {τ π : Type*} (first : σ → ι → σ × List ο) (second : τ → ο → τ × List π) (s : σ) (t : τ)
    (is : List ι) : emitAll (pipe first second) (s,t) is =
      (((emitAll first s is).1,(emitAll second t (emitAll first s is).2).1),
        (emitAll second t (emitAll first s is).2).2) := by
  induction is generalizing s t with
  | nil => rfl
  | cons i is ih =>
    rw [emitAll, pipe, ih]
    simp only [emitAll, emitAll_append]

/-- Of the keys a machine has marked, none is emitted; those emitted are marked, each once. -/
structure EmitsOnce (key : ο → Option κ) (marked : σ → Set κ) (s t : σ) (out : List ο) : Prop where
  keeps : marked s ⊆ marked t
  nodup : (out.filterMap key).Nodup
  fresh : ∀ k ∈ out.filterMap key, k ∉ marked s
  marks : ∀ k ∈ out.filterMap key, k ∈ marked t

namespace EmitsOnce
variable {key : ο → Option κ} {marked : σ → Set κ} {s t u : σ} {xs ys : List ο}

theorem nil (h : marked s ⊆ marked t) : EmitsOnce key marked s t [] :=
  ⟨h,List.nodup_nil,by simp,by simp⟩

theorem trans (h : EmitsOnce key marked s t xs) (h' : EmitsOnce key marked t u ys) :
    EmitsOnce key marked s u (xs ++ ys) where
  keeps := h.keeps.trans h'.keeps
  nodup := by
    rw [List.filterMap_append]
    apply List.Nodup.append h.nodup h'.nodup
    intro k hx hy
    exact h'.fresh k hy (h.marks k hx)
  fresh := by
    intro k hk
    rw [List.filterMap_append, List.mem_append] at hk
    cases hk with
    | inl hx => exact h.fresh k hx
    | inr hy => exact fun hs => h'.fresh k hy (h.keeps hs)
  marks := by
    intro k hk
    rw [List.filterMap_append, List.mem_append] at hk
    cases hk with
    | inl hx => exact h'.keeps (h.marks k hx)
    | inr hy => exact h'.marks k hy

end EmitsOnce

/-- The outputs are numbered on from the machine's counter. -/
structure EmitsNumbered (number : ο → ℕ) (next : σ → ℕ) (s t : σ) (out : List ο) : Prop where
  counts : next t = next s + out.length
  numbers : out.map number = List.range' (next s) out.length

namespace EmitsNumbered
variable {number : ο → ℕ} {next : σ → ℕ} {s t u : σ} {xs ys : List ο}

theorem nil (h : next t = next s) : EmitsNumbered number next s t [] := ⟨h,rfl⟩

theorem trans (h : EmitsNumbered number next s t xs) (h' : EmitsNumbered number next t u ys) :
    EmitsNumbered number next s u (xs ++ ys) where
  counts := by
    rw [h'.counts, h.counts, List.length_append]
    omega
  numbers := by
    rw [List.map_append, h.numbers, h'.numbers, h.counts, List.length_append, List.range'_append_1]

end EmitsNumbered
end OmniagentPlus.Foundation
