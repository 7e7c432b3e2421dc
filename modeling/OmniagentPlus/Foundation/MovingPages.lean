import Mathlib.Data.List.Induction
import Mathlib.Data.List.Sort
import Mathlib.Data.List.Perm.Subperm
import Mathlib.Order.Basic

/-! Pages of a table that changes between them: each has the first rows after the last one that was read. What
never left the table is read, whatever came and went. -/
namespace OmniagentPlus.Foundation

section Pages
variable {α κ τ : Type*} (key : α → κ) (place : κ → τ)

def lastPlace (xs : List α) : Option τ := xs.getLast?.map fun a => place (key a)

variable {key place} in
lemma lastPlace_mem {xs : List α} {p : τ} (h : p ∈ lastPlace key place xs) : ∃ a ∈ xs, place (key a) = p := by
  obtain ⟨a,ha,rfl⟩ := Option.map_eq_some_iff.mp h
  exact ⟨a,List.mem_of_getLast? ha,rfl⟩

variable {key place} in
lemma lastPlace_append {xs ys : List α} (h : ys ≠ []) :
    lastPlace key place (xs ++ ys) = lastPlace key place ys := by
  rw [lastPlace, lastPlace, List.getLast?_append_of_ne_nil xs h]

variable [LinearOrder τ]

def Ascending (xs : List α) : Prop := xs.Pairwise fun a b => place (key a) < place (key b)

/-- The rows after a place, all of them where there is none. -/
def beyond (after : Option τ) (xs : List α) : List α :=
  xs.filter fun a => after.all fun p => decide (p < place (key a))

/-- What `n` pages give, of which page `i` has `size i` rows of table `i` at most. -/
def pagesRead (tables : ℕ → List α) (size : ℕ → ℕ) : ℕ → List α
  | 0 => []
  | n + 1 =>
    let before := pagesRead tables size n
    before ++ (beyond key place (lastPlace key place before) (tables n)).take (size n)

/-- The rows that a page is taken from. -/
def remaining (tables : ℕ → List α) (size : ℕ → ℕ) (n : ℕ) : List α :=
  beyond key place (lastPlace key place (pagesRead key place tables size n)) (tables n)

/-- There are rows after those of the page. -/
def HasMore (tables : ℕ → List α) (size : ℕ → ℕ) (n : ℕ) : Prop :=
  size n < (remaining key place tables size n).length

variable {key place}

lemma mem_beyond {after : Option τ} {xs : List α} {a : α} :
    a ∈ beyond key place after xs ↔ a ∈ xs ∧ ∀ p ∈ after, p < place (key a) := by
  simp only [beyond, List.mem_filter, Option.all_eq_true, decide_eq_true_eq, Option.mem_def]

/-- No row comes after the last one. -/
lemma Ascending.le_last {xs : List α} (h : Ascending key place xs) {a : α} (ha : a ∈ xs) :
    ∃ p ∈ lastPlace key place xs, place (key a) ≤ p := by
  induction xs using List.reverseRecOn with
  | nil => cases ha
  | append_singleton xs b _ =>
    refine ⟨place (key b),by simp [lastPlace],?_⟩
    obtain hin | hlast := List.mem_append.mp ha
    · exact le_of_lt ((List.pairwise_append.mp h).2.2 a hin b (List.mem_singleton_self b))
    · rw [List.mem_singleton.mp hlast]

/-- A page continues what was read. -/
lemma Ascending.append_page {xs ys : List α} (hx : Ascending key place xs) (hy : Ascending key place ys) (k : ℕ) :
    Ascending key place (xs ++ (beyond key place (lastPlace key place xs) ys).take k) := by
  refine List.pairwise_append.mpr ⟨hx,(hy.filter _).take,fun a ha b hb => ?_⟩
  obtain ⟨p,hp,hle⟩ := hx.le_last ha
  exact lt_of_le_of_lt hle ((mem_beyond.mp (List.mem_of_mem_take hb)).2 p hp)

section Tables
variable {tables : ℕ → List α} {size : ℕ → ℕ}

lemma pagesRead_succ (n : ℕ) : pagesRead key place tables size (n + 1) =
    pagesRead key place tables size n ++ (remaining key place tables size n).take (size n) := rfl

/-- Rows are read in ascending order, so none twice. -/
theorem pagesRead_ascending (h : ∀ i, Ascending key place (tables i)) (n : ℕ) :
    Ascending key place (pagesRead key place tables size n) := by
  induction n with
  | zero => exact List.Pairwise.nil
  | succ n ih => exact ih.append_page (h n) (size n)

theorem mem_of_pagesRead {n : ℕ} {a : α} (h : a ∈ pagesRead key place tables size n) : ∃ i < n, a ∈ tables i := by
  induction n with
  | zero => cases h
  | succ n ih =>
    rw [pagesRead_succ] at h
    obtain hin | hpage := List.mem_append.mp h
    · obtain ⟨i,hi,ha⟩ := ih hin
      exact ⟨i,by omega,ha⟩
    · exact ⟨n,by omega,(mem_beyond.mp (List.mem_of_mem_take hpage)).1⟩

/-- Of the rows up to the last one read none is missed that was there all the time. -/
theorem pagesRead_reaches (h : ∀ i, Ascending key place (tables i)) {n : ℕ} {k : κ}
    (hthere : ∀ i < n, ∃ a ∈ tables i, key a = k) {p : τ}
    (hp : p ∈ lastPlace key place (pagesRead key place tables size n)) (hle : place k ≤ p) :
    ∃ a ∈ pagesRead key place tables size n, key a = k := by
  induction n generalizing p with
  | zero => cases hp
  | succ n ih =>
    rw [pagesRead_succ] at hp ⊢
    by_cases hbefore : ∃ q ∈ lastPlace key place (pagesRead key place tables size n), place k ≤ q
    · obtain ⟨q,hq,hkq⟩ := hbefore
      obtain ⟨a,ha,hkey⟩ := ih (fun i hi => hthere i (by omega)) hq hkq
      exact ⟨a,List.mem_append_left _ ha,hkey⟩
    · obtain ⟨b,hb,rfl⟩ := hthere n (by omega)
      have hremains : b ∈ remaining key place tables size n := mem_beyond.mpr ⟨hb,fun q hq => by
        by_contra hnot
        exact hbefore ⟨q,hq,not_lt.mp hnot⟩⟩
      have hpage : (remaining key place tables size n).take (size n) ≠ [] := by
        intro hempty
        rw [hempty, List.append_nil] at hp
        exact hbefore ⟨p,hp,hle⟩
      rw [lastPlace_append hpage] at hp
      refine ⟨b,List.mem_append_right _ ?_,rfl⟩
      obtain ⟨last,hlast,rfl⟩ := lastPlace_mem hp
      by_contra hmissed
      rw [← List.take_append_drop (size n) (remaining key place tables size n), List.mem_append] at hremains
      have hsorted : Ascending key place (remaining key place tables size n) := (h n).filter _
      rw [Ascending, ← List.take_append_drop (size n) (remaining key place tables size n)] at hsorted
      have hlt := (List.pairwise_append.mp hsorted).2.2 last hlast b (hremains.resolve_left hmissed)
      exact absurd hle (not_le.mpr hlt)

/-- When a page is the last one, no row is missed that was there all the time. -/
theorem pagesRead_covers (h : ∀ i, Ascending key place (tables i)) {n : ℕ}
    (hlast : ¬HasMore key place tables size n) {k : κ} (hthere : ∀ i ≤ n, ∃ a ∈ tables i, key a = k) :
    ∃ a ∈ pagesRead key place tables size (n + 1), key a = k := by
  rw [pagesRead_succ, List.take_of_length_le (not_lt.mp hlast)]
  by_cases hbefore : ∃ q ∈ lastPlace key place (pagesRead key place tables size n), place k ≤ q
  · obtain ⟨q,hq,hkq⟩ := hbefore
    obtain ⟨a,ha,hkey⟩ := pagesRead_reaches h (fun i hi => hthere i (by omega)) hq hkq
    exact ⟨a,List.mem_append_left _ ha,hkey⟩
  · obtain ⟨b,hb,rfl⟩ := hthere n (by omega)
    refine ⟨b,List.mem_append_right _ (mem_beyond.mpr ⟨hb,fun q hq => ?_⟩),rfl⟩
    by_contra hnot
    exact hbefore ⟨q,hq,not_lt.mp hnot⟩

lemma Ascending.nodup_keys {xs : List α} (h : Ascending key place xs) : (xs.map key).Nodup :=
  List.pairwise_map.mpr (h.imp fun hlt heq => by
    rw [heq] at hlt
    exact lt_irrefl _ hlt)

lemma length_readPages {n : ℕ} (hsize : ∀ i, 0 < size i) (hmore : ∀ i < n, HasMore key place tables size i) :
    n ≤ (pagesRead key place tables size n).length := by
  induction n with
  | zero => exact Nat.zero_le _
  | succ n ih =>
    have hbefore := ih fun i hi => hmore i (by omega)
    have hpos := hsize n
    have hlong := hmore n (by omega)
    unfold HasMore at hlong
    rw [pagesRead_succ, List.length_append, List.length_take]
    omega

/-- There are no more pages than keys but for the last one. -/
lemma pages_le (h : ∀ i, Ascending key place (tables i)) (hsize : ∀ i, 0 < size i) {keys : List κ}
    (hkeys : ∀ i, ∀ a ∈ tables i, key a ∈ keys) {n : ℕ} (hmore : ∀ i < n, HasMore key place tables size i) :
    n ≤ keys.length := by
  have hsubset : (pagesRead key place tables size n).map key ⊆ keys := fun k hk => by
    obtain ⟨a,ha,rfl⟩ := List.mem_map.mp hk
    obtain ⟨i,-,hin⟩ := mem_of_pagesRead ha
    exact hkeys i a hin
  calc n ≤ (pagesRead key place tables size n).length := length_readPages hsize hmore
    _ = ((pagesRead key place tables size n).map key).length := (List.length_map _).symm
    _ ≤ keys.length := ((pagesRead_ascending h n).nodup_keys.subperm hsubset).length_le

/-- Where the rows are of finitely many keys, one of the pages is the last. -/
theorem exists_last_page (h : ∀ i, Ascending key place (tables i)) (hsize : ∀ i, 0 < size i) {keys : List κ}
    (hkeys : ∀ i, ∀ a ∈ tables i, key a ∈ keys) :
    ∃ n ≤ keys.length, ¬HasMore key place tables size n ∧ ∀ i < n, HasMore key place tables size i := by
  classical
  have hsome : ∃ n, ¬HasMore key place tables size n := by
    by_contra hnone
    have hlong := pages_le h hsize hkeys (n := keys.length + 1) fun i _ => by_contra fun hi => hnone ⟨i,hi⟩
    omega
  have hmore : ∀ i < Nat.find hsome, HasMore key place tables size i := fun i hi => not_not.mp (Nat.find_min hsome hi)
  exact ⟨Nat.find hsome,pages_le h hsize hkeys hmore,Nat.find_spec hsome,hmore⟩

end Tables
end Pages
end OmniagentPlus.Foundation
