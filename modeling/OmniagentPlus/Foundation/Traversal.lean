import OmniagentPlus.Foundation.Transition
import Mathlib.Data.List.Forall2

/-! Code that is run for every element of a list and may fail. Where it succeeds, the results stand beside
the elements one by one; what is known of a pair is known of the lists. -/
namespace OmniagentPlus.Foundation
variable {α β γ ε : Type}

/-- The results stand beside the elements. -/
theorem mapM_eq_some {f : α → Option β} {as : List α} {bs : List β} :
    as.mapM f = some bs ↔ List.Forall₂ (fun a b => f a = some b) as bs := by
  induction as generalizing bs with
  | nil =>
    rw [List.forall₂_nil_left_iff, eq_comm]
    exact Option.some_inj
  | cons a as ih =>
    rw [List.mapM_cons, List.forall₂_cons_left_iff]
    constructor
    · intro h
      obtain ⟨b,hb,h⟩ := Option.bind_eq_some_iff.mp h
      obtain ⟨rest,hrest,h⟩ := Option.bind_eq_some_iff.mp h
      cases h
      exact ⟨b,rest,hb,ih.mp hrest,rfl⟩
    · rintro ⟨b,rest,hb,hrest,rfl⟩
      exact Option.bind_eq_some_iff.mpr ⟨b,hb,Option.bind_eq_some_iff.mpr ⟨rest,ih.mpr hrest,rfl⟩⟩

/-- The same of code that throws. -/
theorem mapM_eq_ok {f : α → Except ε β} {as : List α} {bs : List β} :
    as.mapM f = .ok bs ↔ List.Forall₂ (fun a b => f a = .ok b) as bs := by
  induction as generalizing bs with
  | nil =>
    rw [List.forall₂_nil_left_iff, eq_comm]
    exact ⟨fun h => by cases h; rfl,fun h => by rw [h]; rfl⟩
  | cons a as ih =>
    rw [List.mapM_cons, List.forall₂_cons_left_iff]
    constructor
    · intro h
      obtain ⟨b,hb,h⟩ := except_bind_eq_ok.mp h
      obtain ⟨rest,hrest,h⟩ := except_bind_eq_ok.mp h
      cases h
      exact ⟨b,rest,hb,ih.mp hrest,rfl⟩
    · rintro ⟨b,rest,hb,hrest,rfl⟩
      exact except_bind_eq_ok.mpr ⟨b,hb,except_bind_eq_ok.mpr ⟨rest,ih.mpr hrest,rfl⟩⟩

/-- The traversal succeeds where the code does at every element. -/
theorem exists_mapM_eq_some {f : α → Option β} {as : List α} (h : ∀ a ∈ as, ∃ b, f a = some b) :
    ∃ bs, as.mapM f = some bs := by
  induction as with
  | nil => exact ⟨[],rfl⟩
  | cons a as ih =>
    obtain ⟨b,hb⟩ := h a List.mem_cons_self
    obtain ⟨bs,hbs⟩ := ih fun a' ha' => h a' (List.mem_cons_of_mem a ha')
    exact ⟨b :: bs,by rw [List.mapM_cons, hb, hbs]; rfl⟩

theorem forall₂_mem_right {R : α → β → Prop} {as : List α} {bs : List β} (h : List.Forall₂ R as bs) {b : β}
    (hb : b ∈ bs) : ∃ a ∈ as, R a b := by
  induction h with
  | nil => cases hb
  | cons hab _ ih =>
    obtain rfl | hb := List.mem_cons.mp hb
    · exact ⟨_,List.mem_cons_self,hab⟩
    · obtain ⟨a,ha,hrel⟩ := ih hb
      exact ⟨a,List.mem_cons_of_mem _ ha,hrel⟩

theorem forall₂_mem_left {R : α → β → Prop} {as : List α} {bs : List β} (h : List.Forall₂ R as bs) {a : α}
    (ha : a ∈ as) : ∃ b ∈ bs, R a b :=
  forall₂_mem_right h.flip ha

/-- What a pair agrees on, the lists agree on. -/
theorem forall₂_map_eq {R : α → β → Prop} {as : List α} {bs : List β} (h : List.Forall₂ R as bs) {f : α → γ} {g : β → γ}
    (hsame : ∀ a ∈ as, ∀ b, R a b → g b = f a) : bs.map g = as.map f := by
  induction h with
  | nil => rfl
  | cons hab _ ih =>
    rw [List.map_cons, List.map_cons, hsame _ List.mem_cons_self _ hab,
      ih fun a ha => hsame a (List.mem_cons_of_mem _ ha)]

/-- What is done with each result may be done where it is made. -/
theorem map_mapM (f : α → Except ε β) (e : β → γ) (as : List α) :
    (as.mapM f).map (List.map e) = as.mapM fun a => (f a).map e := by
  induction as with
  | nil => rfl
  | cons a as ih =>
    rw [List.mapM_cons, List.mapM_cons, ← ih]
    cases f a with
    | error err => rfl
    | ok b =>
      cases as.mapM f with
      | error err => rfl
      | ok bs => rfl

end OmniagentPlus.Foundation
