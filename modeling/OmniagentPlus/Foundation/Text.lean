import Mathlib.Data.List.DropRight
import Mathlib.Data.List.Infix
import Mathlib.Tactic.Common

/-! JavaScript strings as lists of UTF-16 code units, and texts cut at a separator. -/
namespace OmniagentPlus.Foundation

abbrev Text := List UInt16

instance : LawfulBEq Text := inferInstance

namespace Text

/-- The code units of one character: one, or a surrogate pair. -/
def ofChar (c : Char) : Text :=
  if c.toNat < 0x10000 then [UInt16.ofNat c.toNat]
  else [UInt16.ofNat (0xD800 + (c.toNat - 0x10000) / 0x400),
    UInt16.ofNat (0xDC00 + (c.toNat - 0x10000) % 0x400)]

def of (s : String) : Text := s.toList.flatMap ofChar

/-- Code points, with a lone surrogate replaced by U+FFFD as in an encoding to UTF-8. -/
def codePoints : Text → List ℕ
  | [] => []
  | [u] => [if 0xD800 ≤ u.toNat ∧ u.toNat < 0xE000 then 0xFFFD else u.toNat]
  | u :: v :: rest =>
    if 0xD800 ≤ u.toNat ∧ u.toNat < 0xDC00 ∧ 0xDC00 ≤ v.toNat ∧ v.toNat < 0xE000 then
      (0x10000 + (u.toNat - 0xD800) * 0x400 + (v.toNat - 0xDC00)) :: codePoints rest
    else (if 0xD800 ≤ u.toNat ∧ u.toNat < 0xE000 then 0xFFFD else u.toNat) :: codePoints (v :: rest)

def isSurrogate (u : UInt16) : Bool := decide (0xD800 ≤ u.toNat ∧ u.toNat < 0xE000)

/-- `text.isWellFormed()`: no surrogate is without its other half. -/
def isWellFormed : Text → Bool
  | [] => true
  | [u] => !isSurrogate u
  | u :: v :: rest =>
    if 0xD800 ≤ u.toNat ∧ u.toNat < 0xDC00 ∧ 0xDC00 ≤ v.toNat ∧ v.toNat < 0xE000 then isWellFormed rest
    else !isSurrogate u && isWellFormed (v :: rest)

theorem isWellFormed_of_units {t : Text} (h : ∀ u ∈ t, u.toNat < 0xD800) : isWellFormed t = true := by
  have hunit : ∀ u : UInt16, u.toNat < 0xD800 → isSurrogate u = false := by
    intro u hu
    rw [isSurrogate, decide_eq_false_iff_not]
    omega
  induction t using isWellFormed.induct with
  | case1 => rfl
  | case2 u =>
    rw [isWellFormed, hunit u (h u List.mem_cons_self)]
    rfl
  | case3 u v rest hpair _ =>
    have hu := h u List.mem_cons_self
    omega
  | case4 u v rest hpair ih =>
    rw [isWellFormed, if_neg hpair, hunit u (h u List.mem_cons_self), ih fun w hw => h w (List.mem_cons_of_mem u hw)]
    rfl

/-- A unit that is no surrogate ends a text as well as it stands alone. -/
theorem isWellFormed_append_singleton {t : Text} {w : UInt16} (hw : isSurrogate w = false) :
    isWellFormed (t ++ [w]) = isWellFormed t := by
  have hlow : ¬ (0xDC00 ≤ w.toNat ∧ w.toNat < 0xE000) := by
    rw [isSurrogate, decide_eq_false_iff_not] at hw
    omega
  induction t using isWellFormed.induct with
  | case1 =>
    change (!isSurrogate w) = true
    rw [hw]
    rfl
  | case2 u =>
    have hpair : ¬ (0xD800 ≤ u.toNat ∧ u.toNat < 0xDC00 ∧ 0xDC00 ≤ w.toNat ∧ w.toNat < 0xE000) :=
      fun hpair => hlow hpair.2.2
    have hnew : isWellFormed [u,w] = (!isSurrogate u && isWellFormed [w]) := if_neg hpair
    have hend : isWellFormed [w] = true := by
      change (!isSurrogate w) = true
      rw [hw]
      rfl
    rw [List.singleton_append, hnew, hend, Bool.and_true]
    rfl
  | case3 u v rest hpair ih =>
    rw [List.cons_append, List.cons_append, isWellFormed, if_pos hpair, isWellFormed, if_pos hpair]
    exact ih
  | case4 u v rest hpair ih =>
    rw [List.cons_append, List.cons_append, isWellFormed, if_neg hpair, isWellFormed, if_neg hpair, ← List.cons_append, ih]

/-- Where no unit is a surrogate the code points are the units. -/
theorem codePoints_eq_map {t : Text} (h : ∀ u ∈ t, u.toNat < 0xD800) : codePoints t = t.map UInt16.toNat := by
  induction t using codePoints.induct with
  | case1 => rfl
  | case2 u =>
    have hu := h u List.mem_cons_self
    rw [codePoints, if_neg (by omega)]
    rfl
  | case3 u v rest hpair _ =>
    have hu := h u List.mem_cons_self
    omega
  | case4 u v rest hpair ih =>
    have hu := h u List.mem_cons_self
    rw [codePoints, if_neg hpair, if_neg (by omega), ih fun w hw => h w (List.mem_cons_of_mem u hw)]
    rfl

/-- `Array.prototype.sort` without a comparator. -/
def sort (ts : List Text) : List Text := ts.mergeSort (fun s t => decide (s ≤ t))

/-- White space and line terminators, as `trim` takes them off. -/
def isSpace (u : UInt16) : Bool :=
  let n := u.toNat
  decide (9 ≤ n ∧ n ≤ 13) || n == 0x20 || n == 0xA0 || n == 0x1680 || decide (0x2000 ≤ n ∧ n ≤ 0x200A) ||
    n == 0x2028 || n == 0x2029 || n == 0x202F || n == 0x205F || n == 0x3000 || n == 0xFEFF

/-- `text.trim()` -/
def trim (text : Text) : Text := (text.dropWhile isSpace).rdropWhile isSpace

theorem trim_sublist (text : Text) : text.trim.Sublist text := by
  have hback := List.rdropWhile_prefix isSpace (text.dropWhile isSpace)
  exact hback.sublist.trans (text.dropWhile_suffix isSpace).sublist

theorem trim_trim (text : Text) : text.trim.trim = text.trim := by
  have hfront : text.trim.dropWhile isSpace = text.trim := by
    rw [List.dropWhile_eq_self_iff]
    intro hpos
    have hprefix : text.trim <+: text.dropWhile isSpace := List.rdropWhile_prefix _ _
    have hlong := hprefix.length_le
    have hhead : text.trim[0] = (text.dropWhile isSpace)[0] := hprefix.getElem hpos
    rw [hhead]
    exact List.dropWhile_get_zero_not isSpace text (by omega)
  rw [trim, hfront]
  exact List.rdropWhile_idempotent _ _

theorem trim_eq_self_iff {text : Text} :
    text.trim = text ↔ text.head?.any isSpace = false ∧ text.getLast?.any isSpace = false := by
  constructor
  · intro h
    have hback := List.rdropWhile_prefix isSpace (text.dropWhile isSpace)
    have hfront : text.dropWhile isSpace = text :=
      (text.dropWhile_suffix isSpace).eq_of_length_le (by
        have hle := hback.length_le
        rwa [← trim, h] at hle)
    rw [trim, hfront] at h
    rw [List.dropWhile_eq_self_iff] at hfront
    rw [List.rdropWhile_eq_self_iff] at h
    constructor
    · cases text with
      | nil => rfl
      | cons u text =>
        have hu := hfront (Nat.zero_lt_succ _)
        rw [List.getElem_cons_zero] at hu
        simpa using hu
    · rcases List.eq_nil_or_concat text with rfl | ⟨front,last,rfl⟩
      · rfl
      · simpa using h (by simp)
  · rintro ⟨hhead,hlast⟩
    have hfront : text.dropWhile isSpace = text := by
      cases text with
      | nil => rfl
      | cons u text => exact List.dropWhile_cons_of_neg (by simpa using hhead)
    rw [trim, hfront, List.rdropWhile_eq_self_iff]
    intro hne
    rw [List.getLast?_eq_some_getLast hne] at hlast
    simpa using hlast

theorem trim_eq_self {text : Text} (h : ∀ u ∈ text, isSpace u = false) : text.trim = text := by
  refine trim_eq_self_iff.mpr ⟨?_,?_⟩
  · rw [Option.any_eq_false]
    exact fun u hu => by simp [h u (List.mem_of_head? hu)]
  · rw [Option.any_eq_false]
    exact fun u hu => by simp [h u (List.mem_of_getLast? hu)]

/-- `text.includes(part)` -/
def includes (text part : Text) : Bool := decide (part <:+: text)

/-- `text.indexOf(part)`, `none` for `-1`. -/
def indexOf (part : Text) : Text → Option ℕ
  | [] => if part.isEmpty then some 0 else none
  | u :: text => if part.isPrefixOf (u :: text) then some 0 else (indexOf part text).map (· + 1)

/-- `indexOf` finds no later place than any other. -/
theorem indexOf_le {part text : Text} {j : ℕ} (hj : j ≤ text.length) (h : part <+: text.drop j) :
    ∃ k, indexOf part text = some k ∧ k ≤ j := by
  induction text generalizing j with
  | nil =>
    have hpart : part = [] := List.prefix_nil.mp (by simpa using h)
    exact ⟨0,by simp [indexOf, hpart],Nat.zero_le j⟩
  | cons u text ih =>
    by_cases hhere : part <+: u :: text
    · exact ⟨0,by rw [indexOf, if_pos (List.isPrefixOf_iff_prefix.mpr hhere)],Nat.zero_le j⟩
    · cases j with
      | zero => exact absurd h hhere
      | succ j =>
        obtain ⟨k,hk,hle⟩ := ih (Nat.le_of_succ_le_succ hj) h
        refine ⟨k + 1,?_,Nat.succ_le_succ hle⟩
        rw [indexOf, if_neg (fun hp => hhere (List.isPrefixOf_iff_prefix.mp hp)), hk]
        rfl

@[simp] theorem mem_sort {t : Text} {ts : List Text} : t ∈ sort ts ↔ t ∈ ts := List.mem_mergeSort

end Text

section Split
variable {α : Type*} (sep : α)

lemma intercalate_append {ps qs : List (List α)} (hp : ps ≠ []) (hq : qs ≠ []) :
    [sep].intercalate (ps ++ qs) = [sep].intercalate ps ++ sep :: [sep].intercalate qs := by
  induction ps with
  | nil => exact absurd rfl hp
  | cons p ps ih =>
    cases ps with
    | nil => simp [List.intercalate_cons_of_ne_nil hq]
    | cons p' ps =>
      have h := ih (List.cons_ne_nil p' ps)
      rw [List.cons_append, List.intercalate_cons_of_ne_nil (by simp), h,
        List.intercalate_cons_of_ne_nil (List.cons_ne_nil p' ps)]
      simp

variable [DecidableEq α]

/-- The pieces of one text are a prefix of the pieces of another exactly when the texts are
equal or the first text and a separator start the second. -/
theorem splitOn_isPrefix_iff (l r : List α) :
    l.splitOn sep <+: r.splitOn sep ↔ l = r ∨ (l ++ [sep]) <+: r := by
  constructor
  · rintro ⟨m,hm⟩
    have hl : [sep].intercalate (l.splitOn sep) = l := List.intercalate_splitOn sep
    have hr : [sep].intercalate (r.splitOn sep) = r := List.intercalate_splitOn sep
    rw [← hm] at hr
    cases m with
    | nil =>
      left
      rw [← hl, ← hr, List.append_nil]
    | cons p m =>
      right
      refine ⟨[sep].intercalate (p :: m),?_⟩
      rw [← hr, intercalate_append sep (List.splitOn_ne_nil sep l) (List.cons_ne_nil p m), hl]
      simp
  · rintro (rfl | ⟨t,rfl⟩)
    · exact List.prefix_rfl
    · rw [List.append_assoc, List.singleton_append, List.splitOn_append_cons_self]
      exact List.prefix_append _ _

end Split
end OmniagentPlus.Foundation
