import Mathlib.Data.List.Nodup
import Mathlib.Data.List.DropRight
import OmniagentPlus.Foundation.Dictionary

/-! Logs of events, each of which leaves a value at its key or none, and what may be cut from their
front so that they still tell every value. -/
namespace OmniagentPlus.Foundation

section Log
variable {ε κ β : Type*} (key : ε → κ) (outcome : ε → Option β)

/-- The log's last event of a key. -/
def LastOf (k : κ) (es : List ε) (e : ε) : Prop :=
  ∃ before after, es = before ++ e :: after ∧ key e = k ∧ ∀ x ∈ after, key x ≠ k

/-- The values are what the last events leave, and no key without an event has one. -/
def Mirrors (live : κ → Option β) (es : List ε) : Prop :=
  ∀ k, (∃ e, LastOf key k es e ∧ outcome e = live k) ∨ ((∀ e ∈ es, key e ≠ k) ∧ live k = none)

variable {key outcome} {live : κ → Option β} {es : List ε}

/-- A new event leaves its value. -/
theorem Mirrors.append [DecidableEq κ] (h : Mirrors key outcome live es) (e : ε) :
    Mirrors key outcome (fun k => if k = key e then outcome e else live k) (es ++ [e]) := by
  intro k
  dsimp only
  by_cases hk : k = key e
  · subst hk
    left
    refine ⟨e,⟨es,[],rfl,rfl,fun x hx => absurd hx List.not_mem_nil⟩,?_⟩
    rw [if_pos rfl]
  · rw [if_neg hk]
    obtain ⟨last,⟨before,after,rfl,hkey,hafter⟩,hvalue⟩ | ⟨hnone,hdead⟩ := h k
    · left
      refine ⟨last,⟨before,after ++ [e],by simp,hkey,fun x hx => ?_⟩,hvalue⟩
      obtain hx | hx := List.mem_append.mp hx
      · exact hafter x hx
      · rw [List.mem_singleton.mp hx]
        exact Ne.symm hk
    · right
      refine ⟨fun x hx => ?_,hdead⟩
      obtain hx | hx := List.mem_append.mp hx
      · exact hnone x hx
      · rw [List.mem_singleton.mp hx]
        exact Ne.symm hk

/-- The events from the front on, each of them setting the value of its key or clearing it. -/
def replay [DecidableEq κ] (key : ε → κ) (outcome : ε → Option β) (es : List ε) : Dictionary κ β :=
  es.foldl (fun d e => match outcome e with
    | some v => d.set (key e) v
    | none => d.erase (key e)) .empty

lemma get?_replay_append [DecidableEq κ] (es : List ε) (e : ε) (k : κ) :
    (replay key outcome (es ++ [e])).get? k = if k = key e then outcome e else (replay key outcome es).get? k := by
  rw [replay, List.foldl_append, List.foldl_cons, List.foldl_nil, ← replay]
  cases hvalue : outcome e with
  | some v => rw [Dictionary.get?_set]
  | none => rw [Dictionary.get?_erase]

/-- What a log mirrors it replays. -/
theorem Mirrors.get?_replay [DecidableEq κ] (h : Mirrors key outcome live es) (k : κ) :
    (replay key outcome es).get? k = live k := by
  have hlater : ∀ before after : List ε, (∀ x ∈ after, key x ≠ k) →
      (replay key outcome (before ++ after)).get? k = (replay key outcome before).get? k := by
    intro before after
    induction after using List.reverseRecOn with
    | nil => intro _; rw [List.append_nil]
    | append_singleton after x ih =>
      intro hafter
      have hx : k ≠ key x := Ne.symm (hafter x (List.mem_append_right _ (List.mem_singleton_self x)))
      rw [← List.append_assoc, get?_replay_append, if_neg hx]
      exact ih fun y hy => hafter y (List.mem_append_left _ hy)
  obtain ⟨e,⟨before,after,rfl,hkey,hafter⟩,hvalue⟩ | ⟨hnone,hdead⟩ := h k
  · have hsplit : before ++ e :: after = (before ++ [e]) ++ after := by simp
    rw [hsplit, hlater _ _ hafter, get?_replay_append, if_pos hkey.symm]
    exact hvalue
  · rw [hdead, ← List.nil_append es, hlater _ _ hnone]
    rfl

end Log

section Trim
variable {ε : Type*}

/-- What stays where a place is cut only if it is not kept and nothing before it stays but what is kept. -/
structure Trimmed (kept : ℕ → Prop) (es trimmed : List ε) (stays : ℕ → Bool) : Prop where
  kept_stays : ∀ i, kept i → stays i = true
  cut : ∀ i j, j ≤ i → stays i = false → stays j = true → kept j
  eq : trimmed = (es.zipIdx.filter fun e => stays e.2).map Prod.fst

variable {kept : ℕ → Prop} {es trimmed : List ε} {stays : ℕ → Bool}

lemma trimmed_split {before after : List ε} {e : ε} (h : Trimmed kept (before ++ e :: after) trimmed stays) :
    ∃ before' after', before'.Sublist before ∧ after'.Sublist after ∧
      (∀ x ∈ before', ∃ i, before[i]? = some x ∧ stays i = true) ∧
      trimmed = if stays before.length = true then before' ++ e :: after' else before' ++ after' := by
  have hsub : ∀ (xs : List ε) (n : ℕ), (((xs.zipIdx n).filter fun x => stays x.2).map Prod.fst).Sublist xs := by
    intro xs n
    have hmap := (List.filter_sublist (p := fun x : ε × ℕ => stays x.2) (l := xs.zipIdx n)).map Prod.fst
    rwa [List.zipIdx_map_fst] at hmap
  refine ⟨_,_,hsub before 0,hsub after (before.length + 1),fun x hx => ?_,?_⟩
  · obtain ⟨⟨y,i⟩,hy,rfl⟩ := List.mem_map.mp hx
    obtain ⟨hmem,hstays⟩ := List.mem_filter.mp hy
    exact ⟨i,List.mem_zipIdx_iff_getElem?.mp hmem,hstays⟩
  · rw [h.eq, List.zipIdx_append, List.zipIdx_cons, List.filter_append, List.map_append, List.filter_cons]
    rw [Nat.zero_add]
    split_ifs <;> rfl

/-- A place that stays splits what is left as it splits the log. -/
lemma trimmed_of_stays {before after : List ε} {e : ε} (h : Trimmed kept (before ++ e :: after) trimmed stays)
    (hstays : stays before.length = true) :
    ∃ before' after', trimmed = before' ++ e :: after' ∧ before'.Sublist before ∧ after'.Sublist after := by
  obtain ⟨before',after',hbefore,hafter,-,heq⟩ := trimmed_split h
  rw [if_pos hstays] at heq
  exact ⟨before',after',heq,hbefore,hafter⟩

lemma Trimmed.sublist (h : Trimmed kept es trimmed stays) : trimmed.Sublist es := by
  rw [h.eq]
  have hmap := (List.filter_sublist (p := fun x : ε × ℕ => stays x.2) (l := es.zipIdx)).map Prod.fst
  rwa [List.zipIdx_map_fst] at hmap

variable {κ β : Type*} {key : ε → κ} {outcome : ε → Option β} {live : κ → Option β}

/-- A trimmed log mirrors what the log did, where the last event of every key with a value is kept, and
only events of such keys are. -/
theorem Mirrors.trim (h : Mirrors key outcome live es) (htrim : Trimmed kept es trimmed stays)
    (hlast : ∀ before e after, es = before ++ e :: after → (live (key e)).isSome → (∀ x ∈ after, key x ≠ key e) →
      kept before.length)
    (honly : ∀ i e, es[i]? = some e → kept i → (live (key e)).isSome) : Mirrors key outcome live trimmed := by
  intro k
  obtain ⟨e,⟨before,after,rfl,rfl,hafter⟩,hvalue⟩ | ⟨hnone,hdead⟩ := h k
  · obtain ⟨before',after',hbefore,hafter',hstayed,heq⟩ := trimmed_split htrim
    by_cases hstays : stays before.length = true
    · rw [if_pos hstays] at heq
      exact Or.inl ⟨e,⟨before',after',heq,rfl,fun x hx => hafter x (hafter'.mem hx)⟩,hvalue⟩
    · rw [if_neg hstays] at heq
      have hdead : live (key e) = none := by
        by_contra hlive
        exact hstays (htrim.kept_stays _ (hlast before e after rfl (Option.isSome_iff_ne_none.mpr hlive) hafter))
      refine Or.inr ⟨fun x hx hkey => ?_,hdead⟩
      rw [heq] at hx
      obtain hx | hx := List.mem_append.mp hx
      · obtain ⟨i,hi,hs⟩ := hstayed x hx
        have hlt : i < before.length := (List.getElem?_eq_some_iff.mp hi).1
        have hkept := htrim.cut before.length i hlt.le (by simpa using hstays) hs
        have hget : (before ++ e :: after)[i]? = some x := by rw [List.getElem?_append_left hlt, hi]
        have hsome := honly i x hget hkept
        rw [hkey, hdead] at hsome
        cases hsome
      · exact hafter x (hafter'.mem hx) hkey
  · exact Or.inr ⟨fun x hx => hnone x (htrim.sublist.mem hx),hdead⟩

end Trim
section Places
variable {ε κ : Type*} [DecidableEq κ] (f : ε → Option κ)

/-- The last place of each key among events that have one, each event with its place. -/
def lastPlaces (es : List (ε × ℕ)) : Dictionary κ ℕ :=
  es.foldl (fun m e => match f e.1 with
    | none => m
    | some k => m.set k e.2) .empty

variable {f}

lemma lastPlaces_append (es : List (ε × ℕ)) (e : ε × ℕ) (k : κ) :
    (lastPlaces f (es ++ [e])).get? k = if f e.1 = some k then some e.2 else (lastPlaces f es).get? k := by
  rw [lastPlaces, List.foldl_append, List.foldl_cons, List.foldl_nil, ← lastPlaces]
  cases hkey : f e.1 with
  | none => rfl
  | some j =>
    rw [Dictionary.get?_set]
    by_cases hj : k = j
    · rw [if_pos hj, if_pos (congrArg some hj.symm)]
    · rw [if_neg hj, if_neg fun heq => hj (Option.some.inj heq).symm]

/-- The place of an event after which its key has no more. -/
lemma get?_lastPlaces {before after : List (ε × ℕ)} {e : ε × ℕ} {k : κ} (hkey : f e.1 = some k)
    (hafter : ∀ x ∈ after, f x.1 ≠ some k) : (lastPlaces f (before ++ e :: after)).get? k = some e.2 := by
  induction after using List.reverseRecOn with
  | nil => rw [lastPlaces_append, if_pos hkey]
  | append_singleton after x ih =>
    rw [← List.cons_append, ← List.append_assoc, lastPlaces_append,
      if_neg (hafter x (List.mem_append_right _ (List.mem_singleton_self x)))]
    exact ih fun y hy => hafter y (List.mem_append_left _ hy)

/-- A place that is found is one of the key. -/
lemma mem_of_lastPlaces {es : List (ε × ℕ)} {k : κ} {i : ℕ} (h : (lastPlaces f es).get? k = some i) :
    ∃ e, (e,i) ∈ es ∧ f e = some k := by
  induction es using List.reverseRecOn with
  | nil => cases h
  | append_singleton es x ih =>
    rw [lastPlaces_append] at h
    split_ifs at h with hkey
    · cases h
      exact ⟨x.1,List.mem_append_right _ (List.mem_singleton_self _),hkey⟩
    · obtain ⟨e,he,hek⟩ := ih h
      exact ⟨e,List.mem_append_left _ he,hek⟩

end Places
end OmniagentPlus.Foundation
