import OmniagentPlus.Foundation.Emission
import Mathlib.Tactic.Common

/-! Lists cut at delimiters, all at once and as the list arrives in chunks. A delimiter is a
function that gives the length of a match at the start of a list. -/
namespace OmniagentPlus.Foundation
variable {α : Type*}

/-- The first piece and the others, after the first `skip` elements are passed over. -/
def cutAt (delim : List α → Option ℕ) : ℕ → List α → List α × List (List α)
  | _, [] => ([],[])
  | skip + 1, _ :: cs => cutAt delim skip cs
  | 0, c :: cs =>
    match delim (c :: cs) with
    | some (n + 1) => ([],(cutAt delim n cs).1 :: (cutAt delim n cs).2)
    | _ => (c :: (cutAt delim 0 cs).1,(cutAt delim 0 cs).2)

/-- The pieces between the delimiters. -/
def pieces (delim : List α → Option ℕ) (text : List α) : List (List α) :=
  (cutAt delim 0 text).1 :: (cutAt delim 0 text).2

lemma pieces_ne_nil (delim : List α → Option ℕ) (text : List α) : pieces delim text ≠ [] := List.cons_ne_nil _ _

/-- The pieces that a delimiter ends. -/
def complete (delim : List α → Option ℕ) (text : List α) : List (List α) := (pieces delim text).dropLast

/-- What comes after the last delimiter. -/
def leftover (delim : List α → Option ℕ) (text : List α) : List α :=
  (pieces delim text).getLast (pieces_ne_nil delim text)

/-- A match lies in the list and does not depend on what follows, and a match that only what
follows completes has no other match begun and ended inside it. -/
structure IsDelimiter (delim : List α → Option ℕ) : Prop where
  pos : ∀ xs n, delim xs = some n → 0 < n
  bound : ∀ xs n, delim xs = some n → n ≤ xs.length
  stable : ∀ xs ys n, delim xs = some n → delim (xs ++ ys) = some n
  pending : ∀ xs ys n, delim xs = none → delim (xs ++ ys) = some n → ∀ k, delim (xs.drop k) = none

section Cuts
variable {delim : List α → Option ℕ}

lemma cutAt_skip (n : ℕ) (cs : List α) : cutAt delim n cs = cutAt delim 0 (cs.drop n) := by
  induction cs generalizing n with
  | nil => cases n <;> rfl
  | cons c cs ih =>
    cases n with
    | zero => rfl
    | succ n => exact ih n

lemma pieces_of_match {text : List α} {n : ℕ} (hd : IsDelimiter delim) (h : delim text = some n) :
    pieces delim text = [] :: pieces delim (text.drop n) := by
  have hpos := hd.pos text n h
  cases text with
  | nil =>
    have hbound := hd.bound [] n h
    rw [List.length_nil] at hbound
    omega
  | cons c cs =>
    cases n with
    | zero => omega
    | succ n =>
      simp only [pieces, cutAt, h, List.drop_succ_cons]
      rw [cutAt_skip n cs]

lemma pieces_of_none {c : α} {cs : List α} (h : delim (c :: cs) = none) :
    pieces delim (c :: cs) = (c :: (cutAt delim 0 cs).1) :: (cutAt delim 0 cs).2 := by
  simp only [pieces, cutAt, h]

/-- Without a match the list is one piece. -/
lemma pieces_eq_self {text : List α} (h : ∀ k, delim (text.drop k) = none) : pieces delim text = [text] := by
  induction text with
  | nil => rfl
  | cons c cs ih =>
    have hcs := ih (fun k => h (k + 1))
    rw [pieces, List.cons.injEq] at hcs
    rw [pieces_of_none (h 0), hcs.1, hcs.2]

/-- One piece is the whole list. -/
lemma cutAt_single (hd : IsDelimiter delim) {text : List α} (h : (cutAt delim 0 text).2 = []) :
    (cutAt delim 0 text).1 = text := by
  induction text with
  | nil => rfl
  | cons c cs ih =>
    cases hm : delim (c :: cs) with
    | some n =>
      have hp := pieces_of_match hd hm
      rw [pieces, List.cons.injEq] at hp
      rw [h] at hp
      cases hp.2
    | none =>
      have hp := pieces_of_none hm
      rw [pieces, List.cons.injEq] at hp
      rw [hp.2] at h
      rw [hp.1, ih h]

/-- More of the list changes only what the last delimiter leaves over. -/
theorem pieces_append (hd : IsDelimiter delim) (xs ys : List α) :
    pieces delim (xs ++ ys) = complete delim xs ++ pieces delim (leftover delim xs ++ ys) := by
  induction hn : xs.length using Nat.strongRecOn generalizing xs with
  | ind n ih =>
    by_cases hnone : ∀ k, delim (xs.drop k) = none
    · simp [complete, leftover, pieces_eq_self hnone]
    · cases hm : delim xs with
      | some k =>
        have hbound := hd.bound xs k hm
        have hpos := hd.pos xs k hm
        have hlen : (xs.drop k).length < n := by
          rw [List.length_drop]
          omega
        have hrest := ih _ hlen (xs.drop k) rfl
        have hboth := pieces_of_match hd (hd.stable xs ys k hm)
        rw [List.drop_append_of_le_length hbound] at hboth
        have hone := pieces_of_match hd hm
        simp only [complete, leftover] at hrest ⊢
        simp only [hboth, hone, hrest]
        simp [pieces]
      | none =>
        cases xs with
        | nil => exact absurd (fun k => by simpa using hm) hnone
        | cons c cs =>
          have hmore : delim (c :: (cs ++ ys)) = none := by
            cases hboth : delim (c :: (cs ++ ys)) with
            | none => rfl
            | some k => exact absurd (hd.pending _ ys k hm hboth) hnone
          have hlen : cs.length < n := by
            rw [← hn, List.length_cons]
            omega
          have hrest := ih _ hlen cs rfl
          have hboth := pieces_of_none hmore
          have hone := pieces_of_none hm
          simp only [complete, leftover] at hrest ⊢
          cases htail : (cutAt delim 0 cs).2 with
          | nil =>
            -- no delimiter in `cs` either
            have hwhole := cutAt_single hd htail
            simp [hone, htail, hwhole]
          | cons q qs =>
            have hpieces : pieces delim cs = (cutAt delim 0 cs).1 :: q :: qs := by rw [pieces, htail]
            have hsplit : pieces delim (cs ++ ys) = (cutAt delim 0 cs).1 ::
                ((q :: qs).dropLast ++ pieces delim ((q :: qs).getLast (List.cons_ne_nil q qs) ++ ys)) := by
              rw [hrest]
              simp only [hpieces, List.dropLast_cons_cons, List.getLast_cons_cons, List.cons_append]
            rw [pieces, List.cons.injEq] at hsplit
            rw [htail] at hone
            rw [List.cons_append, hboth, hsplit.1, hsplit.2]
            simp only [hone, List.dropLast_cons_cons, List.getLast_cons_cons, List.cons_append]

/-- What is left over has no delimiter in it. -/
theorem pieces_leftover (hd : IsDelimiter delim) (xs : List α) : pieces delim (leftover delim xs) = [leftover delim xs] := by
  have h := pieces_append hd xs []
  rw [List.append_nil, List.append_nil] at h
  have hlen := congrArg List.length h
  rw [List.length_append, complete, List.length_dropLast] at hlen
  have hone : (pieces delim (leftover delim xs)).length = 1 := by
    have hpos : 0 < (pieces delim xs).length := Nat.succ_pos _
    omega
  obtain ⟨piece,hpiece⟩ := List.length_eq_one_iff.mp hone
  rw [pieces, List.cons.injEq] at hpiece
  rw [pieces, cutAt_single hd hpiece.2, hpiece.2]

/-- Reading the next chunk after the leftover of the first part. -/
theorem complete_append (hd : IsDelimiter delim) (xs ys : List α) :
    complete delim (xs ++ ys) = complete delim xs ++ complete delim (leftover delim xs ++ ys) := by
  rw [complete, pieces_append hd, List.dropLast_append_of_ne_nil (pieces_ne_nil delim _)]
  rfl

theorem leftover_append (hd : IsDelimiter delim) (xs ys : List α) :
    leftover delim (xs ++ ys) = leftover delim (leftover delim xs ++ ys) := by
  simp only [leftover, pieces_append hd xs ys]
  rw [List.getLast_append_of_ne_nil]

/-- One chunk: the buffer it leaves, and the pieces it completes. -/
def readChunk (delim : List α → Option ℕ) (buffer chunk : List α) : List α × List (List α) :=
  (leftover delim (buffer ++ chunk),complete delim (buffer ++ chunk))

/-- However a list arrives in chunks, its pieces are complete once and what is left over is the same. -/
theorem emitAll_readChunk (hd : IsDelimiter delim) {buffer : List α} (hbuffer : pieces delim buffer = [buffer])
    (chunks : List (List α)) : emitAll (readChunk delim) buffer chunks =
      (leftover delim (buffer ++ chunks.flatten),complete delim (buffer ++ chunks.flatten)) := by
  induction chunks generalizing buffer with
  | nil => simp [emitAll, leftover, complete, hbuffer]
  | cons chunk chunks ih =>
    rw [emitAll, readChunk, ih (pieces_leftover hd (buffer ++ chunk)), List.flatten_cons, ← List.append_assoc,
      leftover_append hd (buffer ++ chunk), complete_append hd (buffer ++ chunk)]

end Cuts
end OmniagentPlus.Foundation
