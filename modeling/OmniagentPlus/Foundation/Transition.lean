import Mathlib.Tactic.Common

/-! Runs of a partial step function. All nondeterminism of a system sits in its
actions, so a run is a list of actions and the state it ends in. -/
namespace OmniagentPlus.Foundation

/-- Code that may throw returns when each of its parts does. -/
theorem except_bind_eq_ok {ε α β : Type} {x : Except ε α} {f : α → Except ε β} {b : β} :
    (x >>= f) = .ok b ↔ ∃ a, x = .ok a ∧ f a = .ok b := by
  cases x with
  | error e =>
    constructor
    · intro h
      cases h
    · rintro ⟨a,h,-⟩
      cases h
  | ok a =>
    constructor
    · intro h
      exact ⟨a,rfl,h⟩
    · rintro ⟨a',h,hf⟩
      cases h
      exact hf

/-- The code returns something that meets `P`, or it throws one of the errors `E`. -/
def Yields {ε α : Type} (E : ε → Prop) (P : α → Prop) : Except ε α → Prop
  | .ok a => P a
  | .error e => E e

theorem yields_bind {ε α β : Type} {E : ε → Prop} {Q : α → Prop} {P : β → Prop} {x : Except ε α}
    {f : α → Except ε β} (hx : Yields E Q x) (hf : ∀ a, Q a → Yields E P (f a)) : Yields E P (x >>= f) := by
  cases x with
  | error e => exact hx
  | ok a => exact hf a hx

theorem yields_mono {ε α : Type} {E : ε → Prop} {P Q : α → Prop} {x : Except ε α} (hx : Yields E P x)
    (h : ∀ a, P a → Q a) : Yields E Q x := by
  cases x with
  | error e => exact hx
  | ok a => exact h a hx

variable {σ α : Type*} (step : σ → α → Option σ)

/-- The state after a list of actions, when every action is enabled in turn. -/
def run : σ → List α → Option σ
  | s, [] => some s
  | s, a :: as => (step s a).bind (fun t => run t as)

@[simp] theorem run_nil (s : σ) : run step s [] = some s := rfl

theorem run_cons_eq_some {s t : σ} {a : α} {as : List α} :
    run step s (a :: as) = some t ↔ ∃ u, step s a = some u ∧ run step u as = some t := by
  simp [run, Option.bind_eq_some_iff]

/-- A loop over a list that may throw is such a run. -/
theorem foldlM_eq_run (s : σ) (as : List α) : as.foldlM step s = run step s as := by
  induction as generalizing s with
  | nil => rfl
  | cons a as ih =>
    rw [List.foldlM_cons, run]
    cases step s a with
    | none => rfl
    | some t => exact ih t

theorem run_append (s : σ) (as bs : List α) :
    run step s (as ++ bs) = (run step s as).bind (fun t => run step t bs) := by
  induction as generalizing s with
  | nil => rfl
  | cons a as ih =>
    simp only [List.cons_append, run]
    cases step s a with
    | none => rfl
    | some u => exact ih u

/-- What every step preserves holds at the end of every run. -/
theorem run_invariant {I : σ → Prop} (hstep : ∀ s a t, I s → step s a = some t → I t)
    {s t : σ} {as : List α} (hs : I s) (h : run step s as = some t) : I t := by
  induction as generalizing s with
  | nil => cases h; exact hs
  | cons a as ih =>
    obtain ⟨u,hu,h⟩ := (run_cons_eq_some step).mp h
    exact ih (hstep s a u hs hu) h

/-- Every step of the run is taken from a state and by an action that meet `P`. -/
def Meets (P : σ → α → Prop) : σ → List α → Prop
  | _, [] => True
  | s, a :: as => P s a ∧ ∀ t, step s a = some t → Meets P t as

instance decidableMeets {P : σ → α → Prop} [∀ s a, Decidable (P s a)] :
    ∀ (s : σ) (as : List α), Decidable (Meets step P s as)
  | _, [] => isTrue trivial
  | s, a :: as =>
    match h : step s a with
    | none => decidable_of_iff (P s a) ⟨fun hp => ⟨hp,fun t ht => by cases h.symm.trans ht⟩,And.left⟩
    | some u =>
      have : Decidable (Meets step P u as) := decidableMeets u as
      decidable_of_iff (P s a ∧ Meets step P u as)
        ⟨fun hp => ⟨hp.1,fun t ht => by cases h.symm.trans ht; exact hp.2⟩,fun hp => ⟨hp.1,hp.2 u h⟩⟩

/-- The condition holds of each step on the way. -/
theorem meets_at {P : σ → α → Prop} {s t : σ} {as bs : List α} {a : α}
    (hm : Meets step P s (as ++ a :: bs)) (h : run step s as = some t) : P t a := by
  induction as generalizing s with
  | nil =>
    cases h
    exact hm.1
  | cons b as ih =>
    obtain ⟨u,hu,h⟩ := (run_cons_eq_some step).mp h
    exact ih (hm.2 u hu) h

/-- A condition that holds of each step on the way is met. -/
theorem meets_of_at {P : σ → α → Prop} {s : σ} {as : List α}
    (h : ∀ before a after t, as = before ++ a :: after → run step s before = some t → P t a) : Meets step P s as := by
  induction as generalizing s with
  | nil => trivial
  | cons a as ih =>
    refine ⟨h [] a as s rfl rfl,fun t ht => ih fun before b after u hsplit hrun => ?_⟩
    refine h (a :: before) b after u (by rw [hsplit]; rfl) ?_
    rw [run, ht]
    exact hrun

theorem meets_start {P : σ → α → Prop} {s : σ} {as bs : List α} (h : Meets step P s (as ++ bs)) : Meets step P s as := by
  induction as generalizing s with
  | nil => trivial
  | cons a as ih => exact ⟨h.1,fun t ht => ih (h.2 t ht)⟩

/-- A condition that the actions meet whatever the state. -/
theorem meets_of_always {P : σ → α → Prop} {as : List α} (h : ∀ a ∈ as, ∀ s, P s a) (s : σ) :
    Meets step P s as := by
  induction as generalizing s with
  | nil => trivial
  | cons a as ih =>
    exact ⟨h a List.mem_cons_self s,fun t _ => ih (fun b hb => h b (List.mem_cons_of_mem a hb)) t⟩

theorem meets_of_forall {P : α → Prop} {as : List α} (h : ∀ a ∈ as, P a) (s : σ) :
    Meets step (fun _ a => P a) s as :=
  meets_of_always step (fun a ha _ => h a ha) s

theorem meets_and {P Q : σ → α → Prop} {s : σ} {as : List α} (hp : Meets step P s as) (hq : Meets step Q s as) :
    Meets step (fun s a => P s a ∧ Q s a) s as := by
  induction as generalizing s with
  | nil => trivial
  | cons a as ih => exact ⟨⟨hp.1,hq.1⟩,fun t ht => ih (hp.2 t ht) (hq.2 t ht)⟩

/-- What an invariant and the condition on each step give at each step. -/
theorem meets_of_invariant {I : σ → Prop} {P Q : σ → α → Prop}
    (hstep : ∀ s a t, I s → P s a → step s a = some t → I t) (hq : ∀ s a, I s → P s a → Q s a)
    {s : σ} {as : List α} (hs : I s) (hm : Meets step P s as) : Meets step Q s as := by
  induction as generalizing s with
  | nil => trivial
  | cons a as ih => exact ⟨hq s a hs hm.1,fun t ht => ih (hstep s a t hs hm.1 ht) (hm.2 t ht)⟩

/-- The invariant rule for runs whose steps all meet a condition. -/
theorem run_invariant_of_meets {I : σ → Prop} {P : σ → α → Prop}
    (hstep : ∀ s a t, I s → P s a → step s a = some t → I t)
    {s t : σ} {as : List α} (hs : I s) (hm : Meets step P s as) (h : run step s as = some t) :
    I t := by
  induction as generalizing s with
  | nil => cases h; exact hs
  | cons a as ih =>
    obtain ⟨u,hu,h⟩ := (run_cons_eq_some step).mp h
    exact ih (hstep s a u hs hm.1 hu) (hm.2 u hu) h

end OmniagentPlus.Foundation
