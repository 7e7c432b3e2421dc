import OmniagentPlus.Foundation.Text
import OmniagentPlus.Foundation.Emission

/-! UTF-8 bytes as UTF-16 code units, one byte at a time: the `TextDecoder` of the language; and
how many bytes a text has. -/
namespace OmniagentPlus.Foundation

/-- The code units of a code point. -/
def Text.ofCodePoint (n : ℕ) : Text :=
  if n < 0x10000 then [UInt16.ofNat n]
  else [UInt16.ofNat (0xD800 + (n - 0x10000) / 0x400),UInt16.ofNat (0xDC00 + (n - 0x10000) % 0x400)]

/-- A character begun: its bits so far, the bytes to come, and the bounds of the next one. -/
structure Utf8State where
  codePoint : ℕ := 0
  needed : ℕ := 0
  lower : ℕ := 0x80
  upper : ℕ := 0xBF
  deriving DecidableEq, Repr

namespace Utf8State

/-- A first byte; `none` among the code points stands for an error. -/
def lead (b : UInt8) : Utf8State × List (Option ℕ) :=
  let n := b.toNat
  if n ≤ 0x7F then ({},[some n])
  else if 0xC2 ≤ n ∧ n ≤ 0xDF then ({ codePoint := n - 0xC0, needed := 1 },[])
  else if n = 0xE0 then ({ needed := 2, lower := 0xA0 },[])
  else if n = 0xED then ({ codePoint := 0xD, needed := 2, upper := 0x9F },[])
  else if 0xE1 ≤ n ∧ n ≤ 0xEF then ({ codePoint := n - 0xE0, needed := 2 },[])
  else if n = 0xF0 then ({ needed := 3, lower := 0x90 },[])
  else if n = 0xF4 then ({ codePoint := 4, needed := 3, upper := 0x8F },[])
  else if 0xF1 ≤ n ∧ n ≤ 0xF3 then ({ codePoint := n - 0xF0, needed := 3 },[])
  else ({},[none])

def step (s : Utf8State) (b : UInt8) : Utf8State × List (Option ℕ) :=
  if s.needed = 0 then lead b
  else if s.lower ≤ b.toNat ∧ b.toNat ≤ s.upper then
    let codePoint := 64 * s.codePoint + (b.toNat - 0x80)
    if s.needed = 1 then ({},[some codePoint]) else ({ codePoint := codePoint, needed := s.needed - 1 },[])
  else ((lead b).1,none :: (lead b).2)

end Utf8State

/-- A decoder that replaces errors by U+FFFD and drops a byte order mark at the start. -/
structure TextDecoder where
  state : Utf8State := {}
  started : Bool := false
  deriving DecidableEq, Repr

namespace TextDecoder

/-- The text of the next code point. -/
def emit (d : TextDecoder) (codePoint : Option ℕ) : TextDecoder × Text :=
  let n := codePoint.getD 0xFFFD
  ({ d with started := true },if !d.started && n == 0xFEFF then [] else Text.ofCodePoint n)

def decodeByte (d : TextDecoder) (b : UInt8) : TextDecoder × Text :=
  let r := d.state.step b
  emitAll emit { d with state := r.1 } r.2

/-- `decoder.decode(bytes, { stream: true })` -/
def decode (d : TextDecoder) (bytes : List UInt8) : TextDecoder × Text := emitAll decodeByte d bytes

/-- `decoder.decode()` -/
def flush (d : TextDecoder) : Text := if d.state.needed = 0 then [] else Text.ofCodePoint 0xFFFD

/-- One part of the bytes as one text. -/
def decodeChunk (d : TextDecoder) (bytes : List UInt8) : TextDecoder × List Text :=
  ((d.decode bytes).1,[(d.decode bytes).2])

/-- Decoding in parts is decoding the whole. -/
theorem emitAll_decodeChunk (d : TextDecoder) (chunks : List (List UInt8)) :
    (emitAll decodeChunk d chunks).1 = (d.decode chunks.flatten).1 ∧
      (emitAll decodeChunk d chunks).2.flatten = (d.decode chunks.flatten).2 := by
  induction chunks generalizing d with
  | nil => exact ⟨rfl,rfl⟩
  | cons chunk chunks ih =>
    obtain ⟨hstate,htext⟩ := ih (d.decode chunk).1
    rw [List.flatten_cons, decode, emitAll_append, emitAll]
    simp only [decodeChunk, List.singleton_append, List.flatten_cons]
    rw [hstate, htext]
    exact ⟨rfl,rfl⟩

end TextDecoder

namespace Text

/-- The bytes of a code point in UTF-8. -/
def utf8Length (n : ℕ) : ℕ := if n < 0x80 then 1 else if n < 0x800 then 2 else if n < 0x10000 then 3 else 4

/-- `Buffer.byteLength(text, "utf8")` -/
def byteLength (text : Text) : ℕ := text.codePoints.foldr (fun n bytes => utf8Length n + bytes) 0

/-- Two units that make one code point. -/
def Surrogates (u v : UInt16) : Prop := 0xD800 ≤ u.toNat ∧ u.toNat < 0xDC00 ∧ 0xDC00 ≤ v.toNat ∧ v.toNat < 0xE000

instance (u v : UInt16) : Decidable (Surrogates u v) := inferInstanceAs (Decidable (_ ∧ _ ∧ _ ∧ _))

/-- The bytes of a unit that stands alone. -/
def unitLength (u : UInt16) : ℕ := utf8Length (if 0xD800 ≤ u.toNat ∧ u.toNat < 0xE000 then 0xFFFD else u.toNat)

@[simp] theorem byteLength_nil : byteLength [] = 0 := rfl

theorem byteLength_pair {u v : UInt16} (h : Surrogates u v) (text : Text) :
    byteLength (u :: v :: text) = 4 + byteLength text := by
  unfold Surrogates at h
  rw [byteLength, codePoints, if_pos h, List.foldr_cons, ← byteLength]
  obtain ⟨hu,-,hv,-⟩ := h
  rw [utf8Length, if_neg (by omega), if_neg (by omega), if_neg (by omega)]

theorem byteLength_alone (u : UInt16) (text : Text) (h : ∀ v ∈ text.head?, ¬Surrogates u v) :
    byteLength (u :: text) = unitLength u + byteLength text := by
  cases text with
  | nil => rfl
  | cons v text =>
    have halone := h v rfl
    unfold Surrogates at halone
    rw [byteLength, codePoints, if_neg halone]
    rfl

theorem unitLength_pos (u : UInt16) : 0 < unitLength u := by
  unfold unitLength utf8Length
  split_ifs <;> omega

theorem unitLength_le (u : UInt16) : unitLength u ≤ 3 := by
  have hu := u.toNat_lt
  unfold unitLength utf8Length
  split_ifs <;> omega

theorem unitLength_surrogate {u : UInt16} (h : 0xD800 ≤ u.toNat ∧ u.toNat < 0xE000) : unitLength u = 3 := by
  rw [unitLength, if_pos h]
  rfl

/-- A low surrogate makes a code point with nothing behind it. -/
theorem byteLength_low {v : UInt16} (h : 0xDC00 ≤ v.toNat ∧ v.toNat < 0xE000) (text : Text) :
    byteLength (v :: text) = 3 + byteLength text := by
  rw [byteLength_alone, unitLength_surrogate ⟨by omega,h.2⟩]
  intro w _ hw
  have hlow := hw.2.1
  omega

/-- One more unit in front adds to the bytes, at most its own. -/
theorem byteLength_cons (u : UInt16) (text : Text) :
    byteLength text ≤ byteLength (u :: text) ∧ byteLength (u :: text) ≤ unitLength u + byteLength text := by
  by_cases h : ∃ v rest, text = v :: rest ∧ Surrogates u v
  · obtain ⟨v,rest,rfl,hpair⟩ := h
    have hu : unitLength u = 3 := unitLength_surrogate ⟨hpair.1,hpair.2.1.trans (by decide)⟩
    rw [byteLength_pair hpair, byteLength_low hpair.2.2]
    omega
  · rw [byteLength_alone]
    · have hpos := unitLength_pos u
      omega
    · intro v hv hpair
      obtain ⟨rest,rfl⟩ := List.head?_eq_some_iff.mp hv
      exact h ⟨v,rest,rfl,hpair⟩

theorem byteLength_le (text : Text) : byteLength text ≤ 3 * text.length := by
  induction text with
  | nil => simp
  | cons u text ih =>
    have hcons := (byteLength_cons u text).2
    have hu := unitLength_le u
    rw [List.length_cons]
    omega

/-- So does one more behind the first. -/
theorem byteLength_cons_cons (u v : UInt16) (text : Text) : byteLength (u :: text) ≤ byteLength (u :: v :: text) := by
  by_cases hpair : Surrogates u v
  · have hle := (byteLength_cons u text).2
    have hu := unitLength_le u
    rw [byteLength_pair hpair]
    omega
  · have hle := (byteLength_cons u text).2
    have hv := (byteLength_cons v text).1
    rw [byteLength_alone u (v :: text) (by simpa using hpair)]
    omega

/-- Leaving units out never adds bytes, even where it joins two surrogates. -/
theorem byteLength_le_of_sublist {l r : Text} (h : l.Sublist r) :
    byteLength l ≤ byteLength r ∧ ∀ u, byteLength (u :: l) ≤ byteLength (u :: r) := by
  induction h with
  | slnil => exact ⟨le_rfl,fun _ => le_rfl⟩
  | @cons l r v h ih =>
    exact ⟨ih.1.trans (byteLength_cons v r).1,fun u => (ih.2 u).trans (byteLength_cons_cons u v r)⟩
  | @cons_cons l r v h ih =>
    refine ⟨ih.2 v,fun u => ?_⟩
    by_cases hpair : Surrogates u v
    · rw [byteLength_pair hpair, byteLength_pair hpair]
      exact Nat.add_le_add_left ih.1 4
    · rw [byteLength_alone u (v :: l) (by simpa using hpair),
        byteLength_alone u (v :: r) (by simpa using hpair)]
      exact Nat.add_le_add_left (ih.2 v) _

/-- Writing ASCII units for ASCII units changes no bytes. -/
theorem byteLength_map {f : UInt16 → UInt16} (h : ∀ u, f u = u ∨ u.toNat < 0x80 ∧ (f u).toNat < 0x80) (text : Text) :
    byteLength (text.map f) = byteLength text := by
  have hlength : ∀ u, unitLength (f u) = unitLength u := by
    intro u
    obtain heq | ⟨hu,hf⟩ := h u
    · rw [heq]
    · rw [unitLength, unitLength, if_neg (by omega), if_neg (by omega), utf8Length, utf8Length, if_pos hu, if_pos hf]
  have hpair : ∀ u v, Surrogates (f u) (f v) ↔ Surrogates u v := by
    intro u v
    unfold Surrogates
    obtain heq | ⟨hu,hf⟩ := h u <;> obtain heq' | ⟨hv,hf'⟩ := h v
    · rw [heq, heq']
    · rw [heq]
      omega
    · rw [heq']
      omega
    · omega
  induction text using codePoints.induct with
  | case1 => rfl
  | case2 u =>
    rw [List.map_singleton, byteLength_alone _ [] (by simp), byteLength_alone u [] (by simp), hlength]
  | case3 u v rest h ih =>
    rw [List.map_cons, List.map_cons, byteLength_pair ((hpair u v).mpr h), byteLength_pair h, ih]
  | case4 u v rest h ih =>
    have hnot : ¬Surrogates u v := h
    rw [List.map_cons, byteLength_alone (f u) _ (by simpa [hpair] using hnot),
      byteLength_alone u (v :: rest) (by simpa using hnot), ih, hlength]

end Text
end OmniagentPlus.Foundation
