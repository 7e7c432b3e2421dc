import Mathlib.Data.List.Nodup
import Mathlib.Tactic.Common

/-! Maps that remember insertion order, as a JavaScript `Map` does: setting a present key
keeps its place, setting an absent one appends. -/
namespace OmniagentPlus.Foundation

/-- Entries in insertion order, at most one for each key. -/
structure Dictionary (κ β : Type*) where
  entries : List (κ × β)
  nodup : (entries.map Prod.fst).Nodup
  deriving DecidableEq

namespace Dictionary
variable {κ β : Type*}

def empty : Dictionary κ β := ⟨[],List.nodup_nil⟩

def keys (d : Dictionary κ β) : List κ := d.entries.map Prod.fst

def values (d : Dictionary κ β) : List β := d.entries.map Prod.snd

variable [DecidableEq κ]

def get? (d : Dictionary κ β) (k : κ) : Option β := d.entries.lookup k

def setEntry (k : κ) (v : β) : List (κ × β) → List (κ × β)
  | [] => [(k,v)]
  | e :: es => if e.1 = k then (k,v) :: es else e :: setEntry k v es

lemma mem_keys_setEntry (k l : κ) (v : β) (es : List (κ × β)) :
    l ∈ (setEntry k v es).map Prod.fst ↔ l = k ∨ l ∈ es.map Prod.fst := by
  induction es with
  | nil => simp [setEntry]
  | cons e es ih =>
    by_cases h : e.1 = k
    · subst h
      simp [setEntry]
    · simp only [setEntry, if_neg h, List.map_cons, List.mem_cons, ih]
      tauto

lemma nodup_setEntry (k : κ) (v : β) (es : List (κ × β)) (h : (es.map Prod.fst).Nodup) :
    ((setEntry k v es).map Prod.fst).Nodup := by
  induction es with
  | nil => simp [setEntry]
  | cons e es ih =>
    obtain ⟨he,hes⟩ := List.nodup_cons.mp h
    by_cases hk : e.1 = k
    · subst hk
      simpa [setEntry] using h
    · simp only [setEntry, if_neg hk, List.map_cons]
      refine List.nodup_cons.mpr ⟨?_,ih hes⟩
      rw [mem_keys_setEntry]
      rintro (h' | h')
      · exact hk h'
      · exact he h'

/-- `map.set(k, v)`. -/
def set (d : Dictionary κ β) (k : κ) (v : β) : Dictionary κ β :=
  ⟨setEntry k v d.entries,nodup_setEntry k v d.entries d.nodup⟩

/-- `map.delete(k)`. -/
def erase (d : Dictionary κ β) (k : κ) : Dictionary κ β :=
  ⟨d.entries.filter (fun e => decide (e.1 ≠ k)),(List.filter_sublist.map Prod.fst).nodup d.nodup⟩

/-- Every value replaced by `f` of it. -/
def mapValues (d : Dictionary κ β) (f : β → β) : Dictionary κ β :=
  ⟨d.entries.map (fun e => (e.1,f e.2)),by simpa [Function.comp_def] using d.nodup⟩

/-- The entries that meet `p`. -/
def filter (d : Dictionary κ β) (p : β → Bool) : Dictionary κ β :=
  ⟨d.entries.filter (fun e => p e.2),(List.filter_sublist.map Prod.fst).nodup d.nodup⟩

/-- The entries that meet `p`, by key and value. -/
def filterEntries (d : Dictionary κ β) (p : κ → β → Bool) : Dictionary κ β :=
  ⟨d.entries.filter (fun e => p e.1 e.2),(List.filter_sublist.map Prod.fst).nodup d.nodup⟩

/-- The entries under some keys. -/
def restrict (d : Dictionary κ β) (p : κ → Bool) : Dictionary κ β := d.filterEntries (fun k _ => p k)

@[simp] theorem get?_empty (k : κ) : (empty : Dictionary κ β).get? k = none := rfl

lemma lookup_cons_ite (k a : κ) (v : β) (es : List (κ × β)) :
    List.lookup k ((a,v) :: es) = if k = a then some v else List.lookup k es := by
  by_cases h : k = a
  · subst h
    simp
  · have hb : (k == a) = false := beq_eq_false_iff_ne.mpr h
    rw [List.lookup_cons, hb, if_neg h]

theorem get?_set (d : Dictionary κ β) (k l : κ) (v : β) :
    (d.set k v).get? l = if l = k then some v else d.get? l := by
  obtain ⟨es,hes⟩ := d
  simp only [get?, set]
  clear hes
  induction es with
  | nil => exact lookup_cons_ite l k v []
  | cons e es ih =>
    obtain ⟨a,w⟩ := e
    by_cases hk : a = k
    · subst hk
      simp only [setEntry, if_true, lookup_cons_ite]
      split_ifs <;> rfl
    · simp only [setEntry, if_neg hk, lookup_cons_ite, ih]
      by_cases hl : l = a
      · subst hl
        simp [hk]
      · simp only [if_neg hl]

@[simp] theorem get?_set_self (d : Dictionary κ β) (k : κ) (v : β) : (d.set k v).get? k = some v := by
  simp [get?_set]

theorem get?_set_of_ne (d : Dictionary κ β) {k l : κ} (v : β) (h : l ≠ k) :
    (d.set k v).get? l = d.get? l := by
  simp [get?_set, h]

/-- A new key comes last. -/
theorem entries_set_of_none (d : Dictionary κ β) {k : κ} (v : β) (h : d.get? k = none) :
    (d.set k v).entries = d.entries ++ [(k,v)] := by
  obtain ⟨es,hes⟩ := d
  simp only [get?, set] at h ⊢
  clear hes
  induction es with
  | nil => rfl
  | cons e es ih =>
    obtain ⟨a,w⟩ := e
    rw [lookup_cons_ite] at h
    split_ifs at h with hk
    rw [setEntry, if_neg (Ne.symm hk), ih h]
    rfl

/-- Setting a key to what it is mapped to changes nothing. -/
theorem set_of_get? (d : Dictionary κ β) {k : κ} {v : β} (h : d.get? k = some v) : d.set k v = d := by
  obtain ⟨es,hes⟩ := d
  have hsame : setEntry k v es = es := by
    simp only [get?] at h
    clear hes
    induction es with
    | nil => cases h
    | cons e es ih =>
      obtain ⟨a,w⟩ := e
      rw [lookup_cons_ite] at h
      by_cases hk : a = k
      · rw [if_pos hk.symm] at h
        cases h
        simp [setEntry, hk]
      · rw [if_neg (Ne.symm hk)] at h
        simp [setEntry, hk, ih h]
  simp only [set, hsame]

theorem get?_erase (d : Dictionary κ β) (k l : κ) :
    (d.erase k).get? l = if l = k then none else d.get? l := by
  obtain ⟨es,hes⟩ := d
  simp only [get?, erase]
  clear hes
  induction es with
  | nil => simp
  | cons e es ih =>
    obtain ⟨a,w⟩ := e
    rw [List.filter_cons]
    by_cases hk : a = k
    · subst hk
      simp only [ne_eq, not_true_eq_false, decide_false, Bool.false_eq_true, if_false, lookup_cons_ite]
      rw [ih]
      split_ifs <;> rfl
    · simp only [ne_eq, hk, not_false_eq_true, decide_true, if_true, lookup_cons_ite]
      rw [ih]
      by_cases hl : l = a
      · subst hl
        simp [hk]
      · simp only [if_neg hl]

theorem get?_mapValues (d : Dictionary κ β) (f : β → β) (k : κ) :
    (d.mapValues f).get? k = (d.get? k).map f := by
  obtain ⟨es,hes⟩ := d
  simp only [get?, mapValues]
  clear hes
  induction es with
  | nil => rfl
  | cons e es ih =>
    obtain ⟨a,w⟩ := e
    simp only [List.map_cons, lookup_cons_ite, ih]
    split_ifs <;> rfl

/-- An entry is in the map exactly when it is what its key is mapped to. -/
theorem mem_entries_iff (d : Dictionary κ β) (k : κ) (v : β) :
    (k,v) ∈ d.entries ↔ d.get? k = some v := by
  obtain ⟨es,hes⟩ := d
  simp only [get?]
  induction es with
  | nil => simp
  | cons e es ih =>
    obtain ⟨a,w⟩ := e
    obtain ⟨he,ht⟩ := List.nodup_cons.mp hes
    rw [lookup_cons_ite, List.mem_cons, ih ht, Prod.mk.injEq]
    by_cases hk : k = a
    · subst hk
      have hno : List.lookup k es ≠ some v :=
        fun h => he (List.mem_map.mpr ⟨(k,v),(ih ht).mpr h,rfl⟩)
      simp [hno, eq_comm]
    · simp [hk]

theorem get?_filter (d : Dictionary κ β) (p : β → Bool) (k : κ) :
    (d.filter p).get? k = (d.get? k).filter p := by
  apply Option.ext
  intro v
  rw [← mem_entries_iff, Option.filter_eq_some_iff, ← mem_entries_iff]
  exact List.mem_filter

section Restriction
variable {p : κ → Bool}

theorem restrict_set_of_not (d : Dictionary κ β) {k : κ} (v : β) (h : p k = false) :
    (d.set k v).restrict p = d.restrict p := by
  obtain ⟨es,hes⟩ := d
  simp only [restrict, filterEntries, set, mk.injEq]
  clear hes
  induction es with
  | nil => simp [setEntry, h]
  | cons e es ih =>
    by_cases hk : e.1 = k
    · simp [setEntry, hk, h]
    · simp only [setEntry, if_neg hk, List.filter_cons, ih]

omit [DecidableEq κ] in
theorem restrict_filterEntries (d : Dictionary κ β) {q : κ → β → Bool} (h : ∀ k v, p k = true → q k v = true) :
    (d.filterEntries q).restrict p = d.restrict p := by
  simp only [restrict, filterEntries, mk.injEq, List.filter_filter]
  refine List.filter_congr fun e _ => ?_
  cases hp : p e.1 with
  | false => rfl
  | true => rw [h e.1 e.2 hp]; rfl

theorem restrict_erase_of_not (d : Dictionary κ β) {k : κ} (h : p k = false) :
    (d.erase k).restrict p = d.restrict p := by
  refine restrict_filterEntries d (q := fun l _ => decide (l ≠ k)) fun l _ hl => ?_
  refine decide_eq_true fun hlk => ?_
  rw [hlk, h] at hl
  cases hl

theorem get?_filterEntries (d : Dictionary κ β) (q : κ → β → Bool) (k : κ) :
    (d.filterEntries q).get? k = (d.get? k).filter (q k) := by
  apply Option.ext
  intro v
  rw [← mem_entries_iff, Option.filter_eq_some_iff, ← mem_entries_iff]
  exact List.mem_filter

theorem get?_restrict (d : Dictionary κ β) (k : κ) :
    (d.restrict p).get? k = if p k = true then d.get? k else none := by
  rw [restrict, get?_filterEntries]
  cases hp : p k <;> cases d.get? k <;> simp

omit [DecidableEq κ] in
theorem keys_restrict (d : Dictionary κ β) : (d.restrict p).keys = d.keys.filter p := by
  simp [restrict, filterEntries, keys, List.filter_map, Function.comp_def]

end Restriction

theorem mem_values_iff (d : Dictionary κ β) (v : β) : v ∈ d.values ↔ ∃ k, d.get? k = some v := by
  simp only [values, List.mem_map, ← mem_entries_iff]
  constructor
  · rintro ⟨⟨k,w⟩,h,rfl⟩
    exact ⟨k,h⟩
  · rintro ⟨k,h⟩
    exact ⟨(k,v),h,rfl⟩

omit [DecidableEq κ] in
/-- A filter that every value passes. -/
theorem filter_eq_self (d : Dictionary κ β) {p : β → Bool} (h : ∀ v ∈ d.values, p v = true) : d.filter p = d := by
  obtain ⟨es,hes⟩ := d
  have hall : es.filter (fun e => p e.2) = es :=
    List.filter_eq_self.mpr fun e he => h e.2 (List.mem_map.mpr ⟨e,he,rfl⟩)
  simp only [filter, hall]

/-- A value set under a new key joins the values. -/
theorem mem_values_set (d : Dictionary κ β) {k : κ} {v : β} (h : d.get? k = none) (w : β) :
    w ∈ (d.set k v).values ↔ w ∈ d.values ∨ w = v := by
  simp [values, entries_set_of_none d v h]

/-- Deleting an absent key changes nothing. -/
theorem erase_of_none (d : Dictionary κ β) {k : κ} (h : d.get? k = none) : d.erase k = d := by
  obtain ⟨es,hes⟩ := d
  simp only [erase, mk.injEq]
  refine List.filter_eq_self.mpr fun e he => decide_eq_true fun hk => ?_
  have hget : (⟨es,hes⟩ : Dictionary κ β).get? k = some e.2 := (mem_entries_iff _ k e.2).mp (by rw [← hk]; exact he)
  rw [h] at hget
  cases hget

/-- How many values meet `p` once a new key is set. -/
theorem countP_set (d : Dictionary κ β) {k : κ} {v : β} (h : d.get? k = none) (p : β → Bool) :
    (d.set k v).values.countP p = d.values.countP p + if p v then 1 else 0 := by
  simp [values, entries_set_of_none d v h]

/-- How many values meet `p` once a key is deleted. -/
theorem countP_erase (d : Dictionary κ β) {k : κ} {v : β} (h : d.get? k = some v) (p : β → Bool) :
    (d.erase k).values.countP p + (if p v then 1 else 0) = d.values.countP p := by
  obtain ⟨es,hes⟩ := d
  simp only [get?, values, erase] at h ⊢
  induction es with
  | nil => cases h
  | cons e es ih =>
    obtain ⟨a,w⟩ := e
    obtain ⟨he,ht⟩ := List.nodup_cons.mp hes
    rw [lookup_cons_ite] at h
    by_cases hk : k = a
    · subst hk
      rw [if_pos rfl] at h
      cases h
      have hrest : es.filter (fun e => decide (e.1 ≠ k)) = es := by
        refine List.filter_eq_self.mpr fun e hmem => decide_eq_true fun heq => he ?_
        exact List.mem_map.mpr ⟨e,hmem,heq⟩
      rw [List.filter_cons_of_neg (by simp), hrest, List.map_cons, List.countP_cons]
    · rw [if_neg hk] at h
      rw [List.filter_cons_of_pos (by simpa using Ne.symm hk), List.map_cons, List.map_cons, List.countP_cons,
        List.countP_cons, ← ih ht h]
      omega

/-- Values of different keys are related where any two of them are. -/
theorem pairwise_values (d : Dictionary κ β) {R : β → β → Prop}
    (h : ∀ k v l w, d.get? k = some v → d.get? l = some w → k ≠ l → R v w) : d.values.Pairwise R := by
  refine List.pairwise_map.mpr ((List.pairwise_map.mp d.nodup).imp_of_mem ?_)
  intro e f he hf hne
  exact h e.1 e.2 f.1 f.2 ((mem_entries_iff d e.1 e.2).mp he) ((mem_entries_iff d f.1 f.2).mp hf) hne

theorem mem_keys_iff (d : Dictionary κ β) (k : κ) : k ∈ d.keys ↔ (d.get? k).isSome := by
  simp only [keys, List.mem_map, Option.isSome_iff_exists, ← mem_entries_iff]
  constructor
  · rintro ⟨⟨l,v⟩,h,rfl⟩
    exact ⟨v,h⟩
  · rintro ⟨v,h⟩
    exact ⟨(k,v),h,rfl⟩

/-- `for (const x of l) map.set(f(x), x)`, from an empty map. -/
def indexBy {α : Type*} (f : α → κ) (l : List α) : Dictionary κ α :=
  l.foldl (fun d x => d.set (f x) x) empty

/-- Such a map holds the last item of each key. -/
theorem get?_indexBy {α : Type*} (f : α → κ) (l : List α) (k : κ) :
    (indexBy f l).get? k = (l.filter (fun x => decide (f x = k))).getLast? := by
  have hfold : ∀ d : Dictionary κ α, (l.foldl (fun d x => d.set (f x) x) d).get? k =
      (l.filter (fun x => decide (f x = k))).getLast?.or (d.get? k) := by
    induction l with
    | nil => simp
    | cons x l ih =>
      intro d
      rw [List.foldl_cons, ih]
      by_cases hx : f x = k
      · subst hx
        rw [List.filter_cons_of_pos (by simp), get?_set_self, List.getLast?_cons]
        cases (l.filter (fun y => decide (f y = f x))).getLast? <;> rfl
      · rw [List.filter_cons_of_neg (by simpa using hx), get?_set_of_ne _ _ (Ne.symm hx)]
  rw [indexBy, hfold empty, get?_empty, Option.or_none]

omit [DecidableEq κ] in
theorem values_mapValues (d : Dictionary κ β) (f : β → β) : (d.mapValues f).values = d.values.map f := by
  simp only [values, mapValues, List.map_map]
  rfl

theorem mapValues_set (d : Dictionary κ β) (f : β → β) (k : κ) (v : β) :
    (d.set k v).mapValues f = (d.mapValues f).set k (f v) := by
  have hentries : ∀ es : List (κ × β), (setEntry k v es).map (fun e => (e.1,f e.2)) =
      setEntry k (f v) (es.map fun e => (e.1,f e.2)) := by
    intro es
    induction es with
    | nil => rfl
    | cons e es ih =>
      by_cases hk : e.1 = k
      · simp only [setEntry, List.map_cons, if_pos hk]
      · simp only [setEntry, List.map_cons, if_neg hk, ih]
  simp only [set, mapValues, hentries]

/-- Items may be changed before or after they are indexed, if that leaves their keys. -/
theorem indexBy_map {α : Type*} {f : α → κ} {g : α → α} (h : ∀ x, f (g x) = f x) (l : List α) :
    indexBy f (l.map g) = (indexBy f l).mapValues g := by
  have hfold : ∀ d : Dictionary κ α, (l.map g).foldl (fun d x => d.set (f x) x) (d.mapValues g) =
      (l.foldl (fun d x => d.set (f x) x) d).mapValues g := by
    induction l with
    | nil => exact fun d => rfl
    | cons x l ih =>
      intro d
      rw [List.map_cons, List.foldl_cons, List.foldl_cons, ← ih, mapValues_set, h]
  exact hfold empty

theorem mem_of_get?_indexBy {α : Type*} {f : α → κ} {l : List α} {k : κ} {x : α}
    (h : (indexBy f l).get? k = some x) : x ∈ l ∧ f x = k := by
  rw [get?_indexBy] at h
  have hx := List.mem_of_getLast? h
  simpa using List.mem_filter.mp hx

theorem get?_indexBy_isSome {α : Type*} {f : α → κ} {l : List α} {x : α} (h : x ∈ l) :
    ∃ y, (indexBy f l).get? (f x) = some y := by
  have hx : x ∈ l.filter (fun y => decide (f y = f x)) := List.mem_filter.mpr ⟨h,by simp⟩
  rw [get?_indexBy]
  exact ⟨_,List.getLast?_eq_getLast_of_ne_nil (List.ne_nil_of_mem hx)⟩

end Dictionary
end OmniagentPlus.Foundation
