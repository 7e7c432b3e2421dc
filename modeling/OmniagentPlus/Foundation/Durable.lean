import Mathlib.Data.List.Chain
import Mathlib.Tactic.Common

/-! Programs over a durable state, and crash Hoare logic for them. A program publishes
states one after the other; a crash leaves the last state published before it. -/
namespace OmniagentPlus.Foundation
universe u v

/-- From a start state, the states published in turn and what is returned or thrown. -/
def Program (σ : Type u) (ε α : Type v) := σ → List σ × Except ε α

namespace Program
variable {σ : Type u} {ε α β γ : Type v}

/-- The state after the program has run to its end. -/
def final (p : Program σ ε α) (s : σ) : σ := (p s).1.getLastD s

/-- The state a crash leaves that comes after so many published states. -/
def crash (p : Program σ ε α) (k : ℕ) (s : σ) : σ := ((p s).1.take k).getLastD s

def pure (a : α) : Program σ ε α := fun _ => ([],.ok a)

def throw (e : ε) : Program σ ε α := fun _ => ([],.error e)

def bind (p : Program σ ε α) (f : α → Program σ ε β) : Program σ ε β := fun s =>
  match (p s).2 with
  | .ok a => ((p s).1 ++ (f a (p.final s)).1,(f a (p.final s)).2)
  | .error e => ((p s).1,.error e)

instance : Monad (Program σ ε) where
  pure := pure
  bind := bind

/-- What a function of the current state computes. -/
def reads (f : σ → α) : Program σ ε α := fun s => ([],.ok (f s))

/-- One durable write. -/
def write (f : σ → σ) : Program σ ε PUnit := fun s => ([f s],.ok PUnit.unit)

def throwIf (c : Bool) (e : ε) : Program σ ε PUnit := if c then throw e else pure PUnit.unit

def ofExcept : Except ε α → Program σ ε α
  | .ok a => pure a
  | .error e => throw e

/-- `try p catch (e) { h(e) }` -/
def tryCatch (p : Program σ ε α) (h : ε → Program σ ε α) : Program σ ε α := fun s =>
  match (p s).2 with
  | .ok a => ((p s).1,.ok a)
  | .error e => ((p s).1 ++ (h e (p.final s)).1,(h e (p.final s)).2)

/-- The loop over a list, ended by the first throw. -/
def forEach (f : α → Program σ ε PUnit) : List α → Program σ ε PUnit
  | [] => pure PUnit.unit
  | a :: l => bind (f a) fun _ => forEach f l

/-- The program cut short, after so many published states, by an error. -/
def cut (n : Option ℕ) (e : ε) (p : Program σ ε α) : Program σ ε α := fun s =>
  match n with
  | none => p s
  | some k => ((p s).1.take k,.error e)

/-- A program over one component of the state. -/
def zoom {τ : Type u} {ε' : Type v} (get : σ → τ) (set : σ → τ → σ) (f : ε' → ε) (p : Program τ ε' α) :
    Program σ ε α := fun s =>
  ((p (get s)).1.map (set s),(p (get s)).2.mapError f)

/-- The weakest precondition: the start and the published states follow one another by `R`, and
the end meets `Q`. -/
def Wp (R : σ → σ → Prop) (p : Program σ ε α) (Q : Except ε α → σ → Prop) (s : σ) : Prop :=
  List.IsChain R (s :: (p s).1) ∧ Q (p s).2 (p.final s)

section Rules
variable {R : σ → σ → Prop} {s : σ}

/-- What follows the part of a program that returned, or the postcondition where it threw. -/
def Then (Q : Except ε β → σ → Prop) (K : α → σ → Prop) : Except ε α → σ → Prop
  | .ok a, t => K a t
  | .error e, t => Q (.error e) t

@[simp] theorem then_ok (Q : Except ε β → σ → Prop) (K : α → σ → Prop) (a : α) (t : σ) :
    Then Q K (.ok a) t ↔ K a t := Iff.rfl

@[simp] theorem then_error (Q : Except ε β → σ → Prop) (K : α → σ → Prop) (e : ε) (t : σ) :
    Then Q K (.error e) t ↔ Q (.error e) t := Iff.rfl

theorem wp_silent {p : Program σ ε α} {x : Except ε α} (hp : p s = ([],x)) (Q : Except ε α → σ → Prop) :
    Wp R p Q s ↔ Q x s := by
  have hs : p.final s = s := by
    rw [final, hp]
    rfl
  simp [Wp, hp, hs]

@[simp] theorem wp_pure (a : α) (Q : Except ε α → σ → Prop) :
    Wp R (Pure.pure a : Program σ ε α) Q s ↔ Q (.ok a) s := wp_silent (x := .ok a) (p := pure a) rfl Q

@[simp] theorem wp_throw (e : ε) (Q : Except ε α → σ → Prop) :
    Wp R (throw e) Q s ↔ Q (.error e) s := wp_silent (x := .error e) (p := throw e) rfl Q

@[simp] theorem wp_reads (f : σ → α) (Q : Except ε α → σ → Prop) :
    Wp R (reads f) Q s ↔ Q (.ok (f s)) s := wp_silent (x := .ok (f s)) (p := reads f) rfl Q

@[simp] theorem wp_write (f : σ → σ) (Q : Except ε PUnit → σ → Prop) :
    Wp R (write f) Q s ↔ R s (f s) ∧ Q (.ok PUnit.unit) (f s) := by
  simp [Wp, write, final]

theorem bind_ok {p : Program σ ε α} {f : α → Program σ ε β} {a : α} (h : (p s).2 = .ok a) :
    (p >>= f) s = ((p s).1 ++ (f a (p.final s)).1,(f a (p.final s)).2) := by
  change Program.bind p f s = _
  rw [Program.bind, h]

theorem bind_error {p : Program σ ε α} {f : α → Program σ ε β} {e : ε} (h : (p s).2 = .error e) :
    (p >>= f) s = ((p s).1,.error e) := by
  change Program.bind p f s = _
  rw [Program.bind, h]

theorem getLastD_append (l m : List σ) : (l ++ m).getLastD s = m.getLastD (l.getLastD s) := by
  cases m <;> simp [List.getLastD_eq_getLast?]

theorem final_bind_ok {p : Program σ ε α} {f : α → Program σ ε β} {a : α} (h : (p s).2 = .ok a) :
    (p >>= f).final s = (f a).final (p.final s) := by
  rw [final, bind_ok h, getLastD_append]
  rfl

/-- Two runs of states, the second from where the first ends. -/
theorem isChain_append (l m : List σ) :
    List.IsChain R (s :: (l ++ m)) ↔ List.IsChain R (s :: l) ∧ List.IsChain R (l.getLastD s :: m) := by
  induction l generalizing s with
  | nil => simp
  | cons t l ih =>
    rw [List.cons_append, List.isChain_cons_cons, List.isChain_cons_cons, ih, and_assoc, List.getLastD_cons]

@[simp] theorem wp_bind (p : Program σ ε α) (f : α → Program σ ε β) (Q : Except ε β → σ → Prop) :
    Wp R (p >>= f) Q s ↔ Wp R p (Then Q fun a t => Wp R (f a) Q t) s := by
  cases h : (p s).2 with
  | ok a =>
    simp only [Wp, final_bind_ok h, bind_ok h, h, then_ok, isChain_append, and_assoc]
    rfl
  | error e => simp only [Wp, final, bind_error h, h, then_error]

@[simp] theorem wp_throwIf (c : Bool) (e : ε) (Q : Except ε PUnit → σ → Prop) :
    Wp R (throwIf c e) Q s ↔ (c = true → Q (.error e) s) ∧ (c = false → Q (.ok PUnit.unit) s) := by
  cases c with
  | true => simp [throwIf]
  | false =>
    simp only [throwIf, Bool.false_eq_true, if_false, false_imp_iff, true_and, true_imp_iff]
    exact wp_pure PUnit.unit Q

@[simp] theorem wp_ofExcept (x : Except ε α) (Q : Except ε α → σ → Prop) :
    Wp R (ofExcept x) Q s ↔ Q x s := by
  cases x with
  | ok a => exact wp_pure a Q
  | error e => exact wp_throw e Q

/-- What the handler is run for, or the postcondition where nothing was thrown. -/
def Caught (Q : Except ε α → σ → Prop) (K : ε → σ → Prop) : Except ε α → σ → Prop
  | .ok a, t => Q (.ok a) t
  | .error e, t => K e t

@[simp] theorem caught_ok (Q : Except ε α → σ → Prop) (K : ε → σ → Prop) (a : α) (t : σ) :
    Caught Q K (.ok a) t ↔ Q (.ok a) t := Iff.rfl

@[simp] theorem caught_error (Q : Except ε α → σ → Prop) (K : ε → σ → Prop) (e : ε) (t : σ) :
    Caught Q K (.error e) t ↔ K e t := Iff.rfl

@[simp] theorem wp_tryCatch (p : Program σ ε α) (h : ε → Program σ ε α) (Q : Except ε α → σ → Prop) :
    Wp R (tryCatch p h) Q s ↔ Wp R p (Caught Q fun e t => Wp R (h e) Q t) s := by
  cases hp : (p s).2 with
  | ok a =>
    have hc : tryCatch p h s = ((p s).1,.ok a) := by rw [tryCatch, hp]
    simp only [Wp, final, hc, hp, caught_ok]
  | error e =>
    have hc : tryCatch p h s = ((p s).1 ++ (h e (p.final s)).1,(h e (p.final s)).2) := by rw [tryCatch, hp]
    have hf : (tryCatch p h).final s = (h e).final (p.final s) := by
      rw [final, hc, getLastD_append]
      rfl
    simp only [Wp, hf, hc, hp, caught_error, isChain_append, and_assoc]
    rfl

theorem forEach_nil (f : α → Program σ ε PUnit) : forEach f [] = Pure.pure PUnit.unit := rfl

theorem forEach_cons (f : α → Program σ ε PUnit) (a : α) (l : List α) :
    forEach f (a :: l) = f a >>= fun _ => forEach f l := rfl

theorem isChain_take {l : List σ} (h : List.IsChain R (s :: l)) (k : ℕ) : List.IsChain R (s :: l.take k) := by
  have hk := h.take (k + 1)
  rwa [List.take_succ_cons] at hk

theorem isChain_invariant {I : σ → Prop} (hR : ∀ t u, R t u → I t → I u) {l : List σ} (hs : I s)
    (h : List.IsChain R (s :: l)) : (∀ t ∈ l, I t) ∧ I (l.getLastD s) := by
  induction l generalizing s with
  | nil => exact ⟨by simp,hs⟩
  | cons t l ih =>
    obtain ⟨hst,hl⟩ := List.isChain_cons_cons.mp h
    have ht := hR s t hst hs
    obtain ⟨hl,hlast⟩ := ih ht hl
    refine ⟨fun u hu => ?_,by rwa [List.getLastD_cons]⟩
    rcases List.mem_cons.mp hu with rfl | hu
    · exact ht
    · exact hl u hu

/-- What every step keeps holds of every published state and of the end. -/
theorem Wp.invariant {p : Program σ ε α} {I : σ → Prop} {Q : Except ε α → σ → Prop} (h : Wp R p Q s)
    (hR : ∀ t u, R t u → I t → I u) (hs : I s) : (∀ t ∈ (p s).1, I t) ∧ I (p.final s) :=
  isChain_invariant hR hs h.1

/-- The rule of consequence. -/
theorem Wp.mono {p : Program σ ε α} {R' : σ → σ → Prop} {Q Q' : Except ε α → σ → Prop} (h : Wp R p Q s)
    (hR : ∀ t u, R t u → R' t u) (hQ : ∀ x t, Q x t → Q' x t) : Wp R' p Q' s :=
  ⟨h.1.imp hR,hQ _ _ h.2⟩

theorem isChain_and {R' : σ → σ → Prop} {l : List σ} (h : List.IsChain R (s :: l)) (h' : List.IsChain R' (s :: l)) :
    List.IsChain (fun t u => R t u ∧ R' t u) (s :: l) := by
  induction l generalizing s with
  | nil => exact List.isChain_singleton s
  | cons t l ih =>
    obtain ⟨hst,hl⟩ := List.isChain_cons_cons.mp h
    obtain ⟨hst',hl'⟩ := List.isChain_cons_cons.mp h'
    exact List.isChain_cons_cons.mpr ⟨⟨hst,hst'⟩,ih hl hl'⟩

/-- A part whose result is only passed on. -/
theorem then_pure {I : σ → Prop} {f : α → β} {x : Except ε α} (h : I s) :
    Then (fun (_ : Except ε β) t => I t) (fun a t => Wp R (Pure.pure (f a) : Program σ ε β) (fun _ u => I u) t) x s := by
  cases x with
  | ok a => rwa [then_ok, wp_pure]
  | error e => exact h

theorem wp_true (p : Program σ ε α) (s : σ) : Wp (fun _ _ => True) p (fun _ _ => True) s :=
  ⟨(List.pairwise_of_forall fun _ _ => trivial).isChain,trivial⟩

/-- The rule of conjunction. -/
theorem Wp.and {p : Program σ ε α} {R' : σ → σ → Prop} {Q Q' : Except ε α → σ → Prop} (h : Wp R p Q s) (h' : Wp R' p Q' s) :
    Wp (fun t u => R t u ∧ R' t u) p (fun x t => Q x t ∧ Q' x t) s :=
  ⟨isChain_and h.1 h'.1,h.2,h'.2⟩

theorem isChain_with_invariant {I : σ → Prop} (hR : ∀ t u, R t u → I t → I u) {l : List σ} (hs : I s)
    (h : List.IsChain R (s :: l)) : List.IsChain (fun t u => R t u ∧ I t) (s :: l) := by
  induction l generalizing s with
  | nil => exact List.isChain_singleton s
  | cons t l ih =>
    obtain ⟨hst,hl⟩ := List.isChain_cons_cons.mp h
    exact List.isChain_cons_cons.mpr ⟨⟨hst,hs⟩,ih (hR s t hst hs) hl⟩

/-- What every step keeps may be used of the state that a step starts in, and of the end. -/
theorem Wp.with_invariant {p : Program σ ε α} {I : σ → Prop} {Q : Except ε α → σ → Prop} (h : Wp R p Q s)
    (hR : ∀ t u, R t u → I t → I u) (hs : I s) : Wp (fun t u => R t u ∧ I t) p (fun x t => Q x t ∧ I t) s :=
  ⟨isChain_with_invariant hR hs h.1,h.2,(isChain_invariant hR hs h.1).2⟩

/-- The rule of loops: `K` holds before each turn, of the items that are left. -/
theorem Wp.forEach {K : List α → σ → Prop} {f : α → Program σ ε PUnit} {Q : Except ε PUnit → σ → Prop}
    (hnil : ∀ t, K [] t → Q (.ok PUnit.unit) t)
    (hcons : ∀ a l t, K (a :: l) t → Wp R (f a) (Then Q fun _ u => K l u) t) {l : List α} (hs : K l s) :
    Wp R (forEach f l) Q s := by
  induction l generalizing s with
  | nil =>
    rw [forEach_nil, wp_pure]
    exact hnil s hs
  | cons a l ih =>
    rw [forEach_cons, wp_bind]
    refine (hcons a l s hs).mono (fun _ _ ht => ht) ?_
    rintro (e | u) t ht
    · exact ht
    · exact ih ht

/-- A program that is cut has published some of its states, and nothing more is known of it. -/
theorem Wp.cut {p : Program σ ε α} {Q T : Except ε α → σ → Prop} (h : Wp R p Q s) (n : Option ℕ) (e : ε)
    {I : σ → Prop} (hI : ∀ t u, R t u → I t → I u) (hs : I s) (hQ : ∀ x t, Q x t → T x t)
    (hcut : ∀ t, I t → T (.error e) t) : Wp R (cut n e p) T s := by
  cases n with
  | none => exact ⟨h.1,hQ _ _ h.2⟩
  | some k =>
    have htake := isChain_take h.1 k
    exact ⟨htake,hcut _ (isChain_invariant hI hs htake).2⟩

theorem wp_zoom {τ : Type u} {ε' : Type v} {get : σ → τ} {set : σ → τ → σ} {f : ε' → ε} {p : Program τ ε' α}
    {S : τ → τ → Prop} {T : Except ε' α → τ → Prop} {Q : Except ε α → σ → Prop} (hset : set s (get s) = s)
    (h : Wp S p T (get s)) (hR : ∀ t u, S t u → R (set s t) (set s u))
    (hQ : ∀ x t, T x t → Q (x.mapError f) (set s t)) : Wp R (zoom get set f p) Q s := by
  have hfinal : (zoom get set f p).final s = set s (p.final (get s)) := by
    simp only [final, zoom]
    cases hl : (p (get s)).1 using List.reverseRecOn with
    | nil => simp [hset]
    | append_singleton l t => simp
  refine ⟨?_,hfinal ▸ hQ _ _ h.2⟩
  have hmap := (List.isChain_map (R := R) (set s) (l := get s :: (p (get s)).1)).mpr (h.1.imp fun t u => hR t u)
  rwa [List.map_cons, hset] at hmap

/-- A crash leaves the start state or a published one. -/
theorem crash_mem (p : Program σ ε α) (k : ℕ) : p.crash k s = s ∨ p.crash k s ∈ (p s).1 := by
  rcases List.eq_nil_or_concat ((p s).1.take k) with hk | ⟨l,t,hk⟩
  · left
    simp [Program.crash, hk]
  · right
    have ht : t ∈ (p s).1 := List.mem_of_mem_take (by rw [hk]; simp : t ∈ (p s).1.take k)
    simpa [Program.crash, hk] using ht

theorem Wp.crash {p : Program σ ε α} {I : σ → Prop} {Q : Except ε α → σ → Prop} (h : Wp R p Q s)
    (hR : ∀ t u, R t u → I t → I u) (hs : I s) (k : ℕ) : I (p.crash k s) := by
  rcases p.crash_mem k (s := s) with hk | hk
  · rwa [hk]
  · exact (h.invariant hR hs).1 _ hk

theorem take_succ_getLastD {l : List σ} (h : List.IsChain R (s :: l)) (k : ℕ) :
    (l.take (k + 1)).getLastD s = (l.take k).getLastD s ∨ R ((l.take k).getLastD s) ((l.take (k + 1)).getLastD s) := by
  induction l generalizing s k with
  | nil => simp
  | cons t l ih =>
    obtain ⟨hst,hl⟩ := List.isChain_cons_cons.mp h
    cases k with
    | zero => exact Or.inr (by simpa using hst)
    | succ k =>
      rw [List.take_succ_cons, List.take_succ_cons, List.getLastD_cons, List.getLastD_cons]
      exact ih hl k

/-- One published state more, or none where there are no more. -/
theorem Wp.crash_succ {p : Program σ ε α} {Q : Except ε α → σ → Prop} (h : Wp R p Q s) (k : ℕ) :
    p.crash (k + 1) s = p.crash k s ∨ R (p.crash k s) (p.crash (k + 1) s) :=
  take_succ_getLastD h.1 k

end Rules
section Frame
universe w
variable {δ : Type w} {g : σ → δ}

/-- No published state differs from the start in what `g` reads. -/
def Leaves (g : σ → δ) (p : Program σ ε α) : Prop := ∀ s, ∀ t ∈ (p s).1, g t = g s

theorem leaves_silent {p : Program σ ε α} (h : ∀ s, (p s).1 = []) : p.Leaves g := by
  intro s t ht
  rw [h s] at ht
  cases ht

theorem leaves_pure (a : α) : (Pure.pure a : Program σ ε α).Leaves g := leaves_silent fun _ => rfl

theorem leaves_throw (e : ε) : (throw e : Program σ ε α).Leaves g := leaves_silent fun _ => rfl

theorem leaves_reads (f : σ → α) : (reads f : Program σ ε α).Leaves g := leaves_silent fun _ => rfl

theorem leaves_write {f : σ → σ} (h : ∀ s, g (f s) = g s) : (write f : Program σ ε PUnit).Leaves g := by
  intro s t ht
  rw [List.mem_singleton.mp ht]
  exact h s

theorem leaves_throwIf (c : Bool) (e : ε) : (throwIf c e : Program σ ε PUnit).Leaves g := by
  cases c with
  | true => exact leaves_throw e
  | false => exact leaves_pure PUnit.unit

theorem leaves_ofExcept (x : Except ε α) : (ofExcept x : Program σ ε α).Leaves g := by
  cases x with
  | error e => exact leaves_throw e
  | ok a => exact leaves_pure a

theorem Leaves.final {p : Program σ ε α} (h : p.Leaves g) (s : σ) : g (p.final s) = g s := by
  obtain hstart | hmem := List.mem_cons.mp (List.getLastD_mem_cons (l := (p s).1) (a := s))
  · rw [Program.final, hstart]
  · exact h s _ hmem

theorem Leaves.crash {p : Program σ ε α} (h : p.Leaves g) (k : ℕ) (s : σ) : g (p.crash k s) = g s := by
  obtain hstart | hmem := p.crash_mem k (s := s)
  · rw [hstart]
  · exact h s _ hmem

theorem Leaves.bind {p : Program σ ε α} {f : α → Program σ ε β} (hp : p.Leaves g) (hf : ∀ a, (f a).Leaves g) :
    (p >>= f).Leaves g := by
  intro s t ht
  cases h : (p s).2 with
  | error e =>
    rw [bind_error h] at ht
    exact hp s t ht
  | ok a =>
    rw [bind_ok h] at ht
    obtain hfirst | hrest := List.mem_append.mp ht
    · exact hp s t hfirst
    · exact (hf a _ t hrest).trans (hp.final s)

end Frame
end Program
end OmniagentPlus.Foundation
