import OmniagentPlus.OmnigentTransport.ProviderSegments

/-! Rules for the stretches of the provider's code: what they may do to it, and what they return. -/
namespace OmniagentPlus.OmnigentTransport
open OmniagentPlus.Foundation OmniagentPlus.CoreContracts
variable {ν : Type}

/-- A relation between the provider before and after some code that code in sequence keeps. -/
structure Allowance (ν : Type) where
  allows : OmnigentHttpProvider ν → OmnigentHttpProvider ν → Prop
  refl : ∀ p, allows p p
  trans : ∀ p q r, allows p q → allows q r → allows p r

/-- Code in a loop. -/
theorem Allowance.foldl {α : Type} {R : Allowance ν} {f : OmnigentHttpProvider ν → α → OmnigentHttpProvider ν}
    (h : ∀ p a, R.allows p (f p a)) (p : OmnigentHttpProvider ν) (l : List α) : R.allows p (l.foldl f p) := by
  induction l generalizing p with
  | nil => exact R.refl p
  | cons a l ih => exact R.trans p _ _ (h p a) (ih _)

namespace Segment
variable {α β : Type} {R : Allowance ν}

/-- The code changes the provider as it is allowed to, also where it throws. -/
def Within (R : Allowance ν) (segment : Segment ν α) : Prop := ∀ p, R.allows p (segment p).2

theorem within_pure (a : α) : Within R (pure a : Segment ν α) := R.refl

theorem within_throw (e : ProviderError ν) : Within R (throw e : Segment ν α) := R.refl

theorem Within.bind {x : Segment ν α} {f : α → Segment ν β} (hx : Within R x) (hf : ∀ a, Within R (f a)) :
    Within R (x >>= f) := by
  intro p
  have hstep : (x >>= f) p = ExceptT.bindCont f (x p).1 (x p).2 := rfl
  rw [hstep]
  cases (x p).1 with
  | ok a => exact R.trans p _ _ (hx p) (hf a _)
  | error e => exact hx p

theorem within_change {f : OmnigentHttpProvider ν → OmnigentHttpProvider ν} (h : ∀ p, R.allows p (f p)) :
    Within R (change f) := h

theorem within_look (f : OmnigentHttpProvider ν → α) : Within R (look f) := R.refl

theorem within_take {f : OmnigentHttpProvider ν → α × OmnigentHttpProvider ν} (h : ∀ p, R.allows p (f p).2) :
    Within R (take f) := h

theorem within_require (c : Bool) (e : ProviderError ν) : Within R (require c e) := by
  unfold require
  split_ifs
  · exact within_pure ()
  · exact within_throw e

theorem within_check (f : OmnigentHttpProvider ν → Bool) (e : ProviderError ν) : Within R (check f e) :=
  Within.bind (within_look f) fun c => within_require c e

theorem within_ofOption (o : Option α) : Within R (ofOption o) := by
  cases o with
  | none => exact within_throw _
  | some a => exact within_pure a

/-- From where `P` holds the code returns only where `Q` does. -/
def Ensures (P : OmnigentHttpProvider ν → Prop) (Q : α → OmnigentHttpProvider ν → Prop) (segment : Segment ν α) : Prop :=
  ∀ p a, P p → (segment p).1 = .ok a → Q a (segment p).2

section Ensures
variable {P : OmnigentHttpProvider ν → Prop} {K : α → OmnigentHttpProvider ν → Prop}
  {Q : β → OmnigentHttpProvider ν → Prop}

theorem Ensures.bind {x : Segment ν α} {f : α → Segment ν β} (hx : Ensures P K x) (hf : ∀ a, Ensures (K a) Q (f a)) :
    Ensures P Q (x >>= f) := by
  intro p b hp hb
  have hstep : (x >>= f) p = ExceptT.bindCont f (x p).1 (x p).2 := rfl
  rw [hstep] at hb ⊢
  cases hx' : (x p).1 with
  | ok a =>
    rw [hx'] at hb
    exact hf a _ b (hx p a hp hx') hb
  | error e =>
    rw [hx'] at hb
    cases hb

theorem Ensures.weaken {x : Segment ν α} {L : α → OmnigentHttpProvider ν → Prop} (h : Ensures P K x)
    (hL : ∀ a p, K a p → L a p) : Ensures P L x := fun p a hp ha => hL a _ (h p a hp ha)

theorem ensures_change {f : OmnigentHttpProvider ν → OmnigentHttpProvider ν} {Q : OmnigentHttpProvider ν → Prop}
    (h : ∀ p, P p → Q (f p)) : Ensures P (fun _ => Q) (change f) := fun p _ hp _ => h p hp

theorem ensures_look (f : OmnigentHttpProvider ν → α) : Ensures P (fun _ => P) (look f) := fun _ _ hp _ => hp

theorem ensures_take {f : OmnigentHttpProvider ν → α × OmnigentHttpProvider ν} (h : ∀ p, P p → K (f p).1 (f p).2) :
    Ensures P K (take f) := by
  intro p a hp ha
  cases ha
  exact h p hp

theorem ensures_require (c : Bool) (e : ProviderError ν) : Ensures P (fun _ p => P p ∧ c = true) (require c e) := by
  intro p a hp h
  unfold require at h ⊢
  split_ifs at h ⊢ with hc
  · exact ⟨hp,hc⟩
  · cases h

theorem ensures_check (f : OmnigentHttpProvider ν → Bool) (e : ProviderError ν) :
    Ensures P (fun _ p => P p ∧ f p = true) (check f e) := by
  have hlook : Ensures P (fun c p => P p ∧ c = f p) (look f) := by
    intro p c hp hc
    cases hc
    exact ⟨hp,rfl⟩
  refine hlook.bind fun c => ?_
  intro p a hp h
  obtain ⟨⟨hp',hc⟩,htrue⟩ := ensures_require (P := fun p => P p ∧ c = f p) c e p a hp h
  exact ⟨hp',hc ▸ htrue⟩

/-- Code in sequence does what it may where the second part is to, given what the first ensures. -/
theorem allows_bind {x : Segment ν α} {f : α → Segment ν β} (hx : ∀ p, P p → R.allows p (x p).2) (hK : Ensures P K x)
    (hf : ∀ a p, K a p → R.allows p (f a p).2) (p : OmnigentHttpProvider ν) (hp : P p) :
    R.allows p ((x >>= f) p).2 := by
  have hstep : (x >>= f) p = ExceptT.bindCont f (x p).1 (x p).2 := rfl
  rw [hstep]
  cases hx' : (x p).1 with
  | ok a => exact R.trans p _ _ (hx p hp) (hf a _ (hK p a hp hx'))
  | error e => exact hx p hp

end Ensures
end Segment
end OmniagentPlus.OmnigentTransport
