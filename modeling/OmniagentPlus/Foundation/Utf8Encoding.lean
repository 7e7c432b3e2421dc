import OmniagentPlus.Foundation.Utf8
import Mathlib.Algebra.Ring.Nat

/-! Texts written as UTF-8, and what a decoder that refuses errors reads in the bytes of a text and
in any bytes that these begin with. -/
namespace OmniagentPlus.Foundation

namespace Utf8

/-- The last bytes of a code point, six bits each. -/
def trail : ℕ → ℕ → List UInt8
  | 0, _ => []
  | k + 1, n => UInt8.ofNat (0x80 + n / 64 ^ k % 64) :: trail k n

/-- The bytes of a code point. -/
def encodePoint (n : ℕ) : List UInt8 :=
  if n < 0x80 then [UInt8.ofNat n]
  else if n < 0x800 then UInt8.ofNat (0xC0 + n / 64) :: trail 1 n
  else if n < 0x10000 then UInt8.ofNat (0xE0 + n / 64 ^ 2) :: trail 2 n
  else UInt8.ofNat (0xF0 + n / 64 ^ 3) :: trail 3 n

/-- A code point that is no surrogate. -/
def Scalar (n : ℕ) : Prop := n < 0xD800 ∨ 0xE000 ≤ n ∧ n < 0x110000

/-- The code points without a byte order mark in front. -/
def withoutMark (points : List ℕ) : List ℕ := if points.head? = some 0xFEFF then points.tail else points

/-- `decoder.decode(bytes, { stream: true })` of a decoder with `fatal`, `none` for a thrown error,
and whether `decoder.decode()` throws after it. -/
def decodeStream (bytes : List UInt8) : Option (Text × Bool) :=
  let read := emitAll Utf8State.step {} bytes
  (read.2.mapM id).map fun points => ((withoutMark points).flatMap Text.ofCodePoint,read.1.needed != 0)

/-- `decoder.decode(bytes)` of a decoder with `fatal`. -/
def decodeFatal (bytes : List UInt8) : Option Text :=
  (decodeStream bytes).bind fun read => if read.2 then none else some read.1

end Utf8

/-- `Buffer.from(text, "utf8")` -/
def Text.utf8 (text : Text) : List UInt8 := text.codePoints.flatMap Utf8.encodePoint

namespace Utf8
section Points

lemma toNat_ofNat {n : ℕ} (h : n < 256) : (UInt8.ofNat n).toNat = n := UInt8.toNat_ofNat_of_lt' h

/-- The bytes that a character begun still needs complete it. -/
lemma emitAll_trail {n k : ℕ} {s : Utf8State} (hneeded : s.needed = k + 1) (hpoint : s.codePoint = n / 64 ^ (k + 1))
    (hlower : s.lower ≤ 0x80 + n / 64 ^ k % 64) (hupper : 0x80 + n / 64 ^ k % 64 ≤ s.upper) :
    emitAll Utf8State.step s (trail (k + 1) n) = ({},[some n]) ∧
      ∀ cut, cut <+: trail (k + 1) n → cut ≠ trail (k + 1) n →
        (emitAll Utf8State.step s cut).2 = [] ∧ (emitAll Utf8State.step s cut).1.needed ≠ 0 := by
  induction k generalizing s with
  | zero =>
    have hbyte : (UInt8.ofNat (0x80 + n / 64 ^ 0 % 64)).toNat = 0x80 + n / 64 ^ 0 % 64 := toNat_ofNat (by omega)
    have hstep : Utf8State.step s (UInt8.ofNat (0x80 + n / 64 ^ 0 % 64)) = ({},[some n]) := by
      rw [Utf8State.step, if_neg (by omega), hbyte, if_pos ⟨hlower,hupper⟩, if_pos hneeded, hpoint]
      have hvalue : 64 * (n / 64 ^ (0 + 1)) + (0x80 + n / 64 ^ 0 % 64 - 0x80) = n := by
        rw [pow_one, pow_zero, Nat.div_one]
        omega
      rw [hvalue]
    refine ⟨by rw [trail, trail, emitAll, hstep]; rfl,fun cut hcut hne => ?_⟩
    obtain rfl | ⟨rest,rfl,hrest⟩ := List.prefix_cons_iff.mp hcut
    · exact ⟨rfl,by simp [emitAll, hneeded]⟩
    · rw [trail, List.prefix_nil] at hrest
      exact absurd (by rw [hrest, trail, trail]) hne
  | succ k ih =>
    have hbyte : (UInt8.ofNat (0x80 + n / 64 ^ (k + 1) % 64)).toNat = 0x80 + n / 64 ^ (k + 1) % 64 :=
      toNat_ofNat (by omega)
    have hdiv : n / 64 ^ (k + 1 + 1) = n / 64 ^ (k + 1) / 64 := by rw [Nat.div_div_eq_div_mul, pow_succ]
    have hstep : Utf8State.step s (UInt8.ofNat (0x80 + n / 64 ^ (k + 1) % 64)) =
        ({ codePoint := n / 64 ^ (k + 1), needed := k + 1 },[]) := by
      rw [Utf8State.step, if_neg (by omega), hbyte, if_pos ⟨hlower,hupper⟩, if_neg (by omega), hpoint, hneeded]
      have hvalue : 64 * (n / 64 ^ (k + 1 + 1)) + (0x80 + n / 64 ^ (k + 1) % 64 - 0x80) = n / 64 ^ (k + 1) := by
        rw [hdiv]
        omega
      rw [hvalue]
      rfl
    obtain ⟨hall,hcuts⟩ := ih (s := { codePoint := n / 64 ^ (k + 1), needed := k + 1 }) rfl rfl
      (Nat.le_add_right _ _) (by dsimp only; omega)
    refine ⟨?_,fun cut hcut hne => ?_⟩
    · rw [trail, emitAll, hstep, hall]
      rfl
    · obtain rfl | ⟨rest,rfl,hrest⟩ := List.prefix_cons_iff.mp hcut
      · exact ⟨rfl,by simp [emitAll, hneeded]⟩
      · rw [emitAll, hstep]
        exact hcuts rest hrest fun heq => hne (by rw [heq, ← trail])

/-- How the bytes of a code point beyond ASCII begin. -/
lemma encodePoint_lead {n : ℕ} (h : Scalar n) (hn : 0x80 ≤ n) : ∃ (k : ℕ) (b : UInt8) (lower upper : ℕ),
    encodePoint n = b :: trail (k + 1) n ∧ 0x80 ≤ b.toNat ∧
    Utf8State.lead b = (⟨n / 64 ^ (k + 1),k + 1,lower,upper⟩,[]) ∧
    lower ≤ 0x80 + n / 64 ^ k % 64 ∧ 0x80 + n / 64 ^ k % 64 ≤ upper := by
  unfold Scalar at h
  by_cases htwo : n < 0x800
  · have hbyte : (UInt8.ofNat (0xC0 + n / 64)).toNat = 0xC0 + n / 64 := toNat_ofNat (by omega)
    refine ⟨0,UInt8.ofNat (0xC0 + n / 64),0x80,0xBF,?_,by omega,?_,Nat.le_add_right _ _,by omega⟩
    · rw [encodePoint, if_neg (by omega), if_pos htwo]
    · rw [Utf8State.lead, hbyte, if_neg (by omega), if_pos (by omega), zero_add, pow_one, Nat.add_sub_cancel_left]
  · by_cases hthree : n < 0x10000
    · have hbyte : (UInt8.ofNat (0xE0 + n / 64 ^ 2)).toNat = 0xE0 + n / 64 ^ 2 := toNat_ofNat (by omega)
      have hencode : encodePoint n = UInt8.ofNat (0xE0 + n / 64 ^ 2) :: trail 2 n := by
        rw [encodePoint, if_neg (by omega), if_neg htwo, if_pos hthree]
      by_cases hE0 : n / 64 ^ 2 = 0
      · refine ⟨1,_,0xA0,0xBF,hencode,by omega,?_,by omega,by omega⟩
        rw [Utf8State.lead, hbyte, hE0]
        rfl
      · by_cases hED : n / 64 ^ 2 = 0xD
        · refine ⟨1,_,0x80,0x9F,hencode,by omega,?_,by omega,by omega⟩
          rw [Utf8State.lead, hbyte, hED]
          rfl
        · refine ⟨1,_,0x80,0xBF,hencode,by omega,?_,by omega,by omega⟩
          rw [Utf8State.lead, hbyte, if_neg (by omega), if_neg (by omega), if_neg (by omega), if_neg (by omega), if_pos (by omega),
            Nat.add_sub_cancel_left]
    · have hbyte : (UInt8.ofNat (0xF0 + n / 64 ^ 3)).toNat = 0xF0 + n / 64 ^ 3 := toNat_ofNat (by omega)
      have hencode : encodePoint n = UInt8.ofNat (0xF0 + n / 64 ^ 3) :: trail 3 n := by
        rw [encodePoint, if_neg (by omega), if_neg htwo, if_neg hthree]
      by_cases hF0 : n / 64 ^ 3 = 0
      · refine ⟨2,_,0x90,0xBF,hencode,by omega,?_,by omega,by omega⟩
        rw [Utf8State.lead, hbyte, hF0]
        rfl
      · by_cases hF4 : n / 64 ^ 3 = 4
        · refine ⟨2,_,0x80,0x8F,hencode,by omega,?_,by omega,by omega⟩
          rw [Utf8State.lead, hbyte, hF4]
          rfl
        · refine ⟨2,_,0x80,0xBF,hencode,by omega,?_,by omega,by omega⟩
          rw [Utf8State.lead, hbyte, if_neg (by omega), if_neg (by omega), if_neg (by omega), if_neg (by omega), if_neg (by omega),
            if_neg (by omega), if_neg (by omega), if_pos (by omega), Nat.add_sub_cancel_left]

/-- The bytes of a code point are read as it, and not before the last of them. -/
lemma emitAll_encodePoint {n : ℕ} (h : Scalar n) :
    emitAll Utf8State.step {} (encodePoint n) = ({},[some n]) ∧
      ∀ cut, cut <+: encodePoint n → cut ≠ [] → cut ≠ encodePoint n → 0x80 ≤ n ∧
        (emitAll Utf8State.step {} cut).2 = [] ∧ (emitAll Utf8State.step {} cut).1.needed ≠ 0 := by
  by_cases hn : n < 0x80
  · have hbyte : (UInt8.ofNat n).toNat = n := toNat_ofNat (by omega)
    have hencode : encodePoint n = [UInt8.ofNat n] := by rw [encodePoint, if_pos hn]
    have hstep : Utf8State.step {} (UInt8.ofNat n) = ({},[some n]) := by
      rw [Utf8State.step, if_pos rfl, Utf8State.lead, hbyte, if_pos (by omega)]
    refine ⟨by simp [hencode, emitAll, hstep],fun cut hcut hsome hne => ?_⟩
    rw [hencode] at hcut hne
    obtain rfl | ⟨rest,rfl,hrest⟩ := List.prefix_cons_iff.mp hcut
    · exact absurd rfl hsome
    · rw [List.prefix_nil] at hrest
      exact absurd (by rw [hrest]) hne
  · obtain ⟨k,b,lower,upper,hencode,-,hlead,hlower,hupper⟩ := encodePoint_lead h (Nat.le_of_not_lt hn)
    obtain ⟨hall,hcuts⟩ := emitAll_trail (n := n) (s := ⟨n / 64 ^ (k + 1),k + 1,lower,upper⟩) rfl rfl hlower hupper
    have hstep : Utf8State.step {} b = (⟨n / 64 ^ (k + 1),k + 1,lower,upper⟩,[]) := by
      rw [Utf8State.step, if_pos rfl, hlead]
    refine ⟨by simp [hencode, emitAll, hstep, hall],fun cut hcut hsome hne => ⟨Nat.le_of_not_lt hn,?_⟩⟩
    rw [hencode] at hcut hne
    obtain rfl | ⟨rest,rfl,hrest⟩ := List.prefix_cons_iff.mp hcut
    · exact absurd rfl hsome
    · rw [emitAll, hstep]
      exact hcuts rest hrest fun heq => hne (by rw [heq])

lemma emitAll_encodePoints {points : List ℕ} (h : ∀ n ∈ points, Scalar n) :
    emitAll Utf8State.step {} (points.flatMap encodePoint) = ({},points.map some) := by
  induction points with
  | nil => rfl
  | cons n points ih =>
    obtain ⟨hn,hpoints⟩ := List.forall_mem_cons.mp h
    rw [List.flatMap_cons, emitAll_append, (emitAll_encodePoint hn).1, ih hpoints]
    rfl

/-- What a list begins with is what one of two parts begins with. -/
lemma prefix_append_cases {cut l r : List UInt8} (h : cut <+: l ++ r) :
    (cut <+: l ∧ cut ≠ l) ∨ ∃ rest, cut = l ++ rest ∧ rest <+: r := by
  by_cases hlength : l.length ≤ cut.length
  · obtain ⟨rest,rfl⟩ := List.prefix_of_prefix_length_le (List.prefix_append l r) h hlength
    exact Or.inr ⟨rest,rfl,(List.prefix_append_right_inj l).mp h⟩
  · refine Or.inl ⟨List.prefix_of_prefix_length_le h (List.prefix_append l r) (by omega),?_⟩
    rintro rfl
    exact hlength le_rfl

/-- Bytes that those of some code points begin with: those of the first of them, and perhaps some of the next one's. -/
lemma cut_encodePoints {points : List ℕ} (h : ∀ n ∈ points, Scalar n) {cut : List UInt8}
    (hcut : cut <+: points.flatMap encodePoint) : ∃ before after, points = before ++ after ∧
      (cut = before.flatMap encodePoint ∨ ∃ n rest more, after = n :: more ∧ cut = before.flatMap encodePoint ++ rest ∧
        rest <+: encodePoint n ∧ rest ≠ [] ∧ rest ≠ encodePoint n) := by
  induction points generalizing cut with
  | nil => exact ⟨[],[],rfl,Or.inl (List.prefix_nil.mp hcut)⟩
  | cons n points ih =>
    obtain ⟨-,hpoints⟩ := List.forall_mem_cons.mp h
    rw [List.flatMap_cons] at hcut
    obtain ⟨hfront,hne⟩ | ⟨rest,rfl,hrest⟩ := prefix_append_cases hcut
    · by_cases hnil : cut = []
      · exact ⟨[],n :: points,rfl,Or.inl hnil⟩
      · exact ⟨[],n :: points,rfl,Or.inr ⟨n,cut,points,rfl,rfl,hfront,hnil,hne⟩⟩
    · obtain ⟨before,after,rfl,hcase⟩ := ih hpoints hrest
      refine ⟨n :: before,after,rfl,?_⟩
      obtain rfl | ⟨m,last,more,hafter,rfl,hlast⟩ := hcase
      · exact Or.inl (by rw [List.flatMap_cons])
      · exact Or.inr ⟨m,last,more,hafter,by rw [List.flatMap_cons, List.append_assoc],hlast⟩

end Points
section Texts

/-- Text in which every surrogate has its other half: units that are no surrogates, and pairs. -/
inductive Paired : Text → Prop
  | nil : Paired []
  | alone {u : UInt16} {rest : Text} (hu : u.toNat < 0xD800 ∨ 0xE000 ≤ u.toNat) (h : Paired rest) : Paired (u :: rest)
  | pair {u v : UInt16} {rest : Text} (huv : Text.Surrogates u v) (h : Paired rest) : Paired (u :: v :: rest)

lemma Paired.append {l r : Text} (hl : Paired l) (hr : Paired r) : Paired (l ++ r) := by
  induction hl with
  | nil => exact hr
  | alone hu _ ih => exact .alone hu ih
  | pair huv _ ih => exact .pair huv ih

lemma paired_of_units {text : Text} (h : ∀ u ∈ text, u.toNat < 0xD800) : Paired text := by
  induction text with
  | nil => exact .nil
  | cons u text ih =>
    obtain ⟨hu,htext⟩ := List.forall_mem_cons.mp h
    exact .alone (Or.inl hu) (ih htext)

lemma codePoints_alone {u : UInt16} (hu : u.toNat < 0xD800 ∨ 0xE000 ≤ u.toNat) (rest : Text) :
    Text.codePoints (u :: rest) = u.toNat :: rest.codePoints := by
  have halone : ¬(0xD800 ≤ u.toNat ∧ u.toNat < 0xE000) := by omega
  cases rest with
  | nil => simp only [Text.codePoints, if_neg halone]
  | cons v rest => rw [Text.codePoints, if_neg (by omega), if_neg halone]

lemma codePoints_pair {u v : UInt16} (huv : Text.Surrogates u v) (rest : Text) :
    Text.codePoints (u :: v :: rest) = (0x10000 + (u.toNat - 0xD800) * 0x400 + (v.toNat - 0xDC00)) :: rest.codePoints := by
  unfold Text.Surrogates at huv
  rw [Text.codePoints, if_pos huv]

lemma Paired.codePoints_append {l : Text} (hl : Paired l) (r : Text) :
    (l ++ r).codePoints = l.codePoints ++ r.codePoints := by
  induction hl with
  | nil => rfl
  | alone hu _ ih => rw [List.cons_append, codePoints_alone hu, codePoints_alone hu, ih, List.cons_append]
  | pair huv _ ih =>
    rw [List.cons_append, List.cons_append, codePoints_pair huv, codePoints_pair huv, ih, List.cons_append]

/-- A text is what its code points say. -/
lemma Paired.codePoints_read {text : Text} (h : Paired text) :
    (∀ n ∈ text.codePoints, Scalar n) ∧ text.codePoints.flatMap Text.ofCodePoint = text := by
  induction h with
  | nil => exact ⟨by simp [Text.codePoints],rfl⟩
  | @alone u rest hu _ ih =>
    have hlt := u.toNat_lt
    rw [codePoints_alone hu]
    refine ⟨List.forall_mem_cons.mpr ⟨?_,ih.1⟩,?_⟩
    · unfold Scalar
      omega
    · rw [List.flatMap_cons, ih.2, Text.ofCodePoint, if_pos (by omega), UInt16.ofNat_toNat]
      rfl
  | @pair u v rest huv _ ih =>
    rw [codePoints_pair huv]
    unfold Text.Surrogates at huv
    refine ⟨List.forall_mem_cons.mpr ⟨?_,ih.1⟩,?_⟩
    · unfold Scalar
      omega
    · rw [List.flatMap_cons, ih.2, Text.ofCodePoint, if_neg (by omega)]
      have hhigh : 0xD800 + (0x10000 + (u.toNat - 0xD800) * 0x400 + (v.toNat - 0xDC00) - 0x10000) / 0x400 = u.toNat := by
        omega
      have hlow : 0xDC00 + (0x10000 + (u.toNat - 0xD800) * 0x400 + (v.toNat - 0xDC00) - 0x10000) % 0x400 = v.toNat := by
        omega
      rw [hhigh, hlow, UInt16.ofNat_toNat, UInt16.ofNat_toNat]
      rfl

/-- Code points that are no surrogates are those of the text that they make. -/
lemma codePoints_flatMap {points : List ℕ} (h : ∀ n ∈ points, Scalar n) :
    Text.codePoints (points.flatMap Text.ofCodePoint) = points := by
  induction points with
  | nil => rfl
  | cons n points ih =>
    obtain ⟨hn,hpoints⟩ := List.forall_mem_cons.mp h
    unfold Scalar at hn
    rw [List.flatMap_cons, Text.ofCodePoint]
    split_ifs with hplain
    · have hunit : (UInt16.ofNat n).toNat = n := UInt16.toNat_ofNat_of_lt' hplain
      rw [List.singleton_append, codePoints_alone (by omega), hunit, ih hpoints]
    · have hhigh : (UInt16.ofNat (0xD800 + (n - 0x10000) / 0x400)).toNat = 0xD800 + (n - 0x10000) / 0x400 :=
        UInt16.toNat_ofNat_of_lt' (show _ < 2 ^ 16 by omega)
      have hlow : (UInt16.ofNat (0xDC00 + (n - 0x10000) % 0x400)).toNat = 0xDC00 + (n - 0x10000) % 0x400 :=
        UInt16.toNat_ofNat_of_lt' (show _ < 2 ^ 16 by omega)
      have hpair : Text.Surrogates (UInt16.ofNat (0xD800 + (n - 0x10000) / 0x400))
          (UInt16.ofNat (0xDC00 + (n - 0x10000) % 0x400)) := by
        unfold Text.Surrogates
        omega
      have hpoint : 0x10000 + (0xD800 + (n - 0x10000) / 0x400 - 0xD800) * 0x400 +
          (0xDC00 + (n - 0x10000) % 0x400 - 0xDC00) = n := by
        omega
      rw [List.cons_append, List.cons_append, List.nil_append, codePoints_pair hpair, hhigh, hlow, hpoint, ih hpoints]

/-- A code point beyond ASCII begins with a unit beyond ASCII. -/
lemma ofCodePoint_begins {n : ℕ} (h : Scalar n) (hn : 0x80 ≤ n) :
    ∃ u more, Text.ofCodePoint n = u :: more ∧ 0x80 ≤ u := by
  unfold Scalar at h
  unfold Text.ofCodePoint
  split_ifs with hplain
  · refine ⟨_,_,rfl,UInt16.le_iff_toNat_le.mpr ?_⟩
    rw [UInt16.toNat_ofNat_of_lt' hplain]
    exact hn
  · refine ⟨_,_,rfl,UInt16.le_iff_toNat_le.mpr ?_⟩
    rw [UInt16.toNat_ofNat_of_lt' (show _ < 2 ^ 16 by omega)]
    exact le_trans (by decide) (Nat.le_add_right 0xD800 _)

lemma mapM_some (points : List ℕ) : (points.map some).mapM id = some points := by
  induction points with
  | nil => rfl
  | cons n points ih => simp [List.mapM_cons, ih]

/-- The code points of a text without a byte order mark in front have none in front either. -/
lemma withoutMark_front {points : List ℕ} (h : ((points.flatMap Text.ofCodePoint).head? ≠ some 0xFEFF)) :
    withoutMark points = points := by
  unfold withoutMark
  split_ifs with hmark
  · obtain ⟨rest,rfl⟩ := List.head?_eq_some_iff.mp hmark
    exact absurd rfl h
  · rfl

lemma utf8_append {l : Text} (hl : Paired l) (r : Text) : (l ++ r).utf8 = l.utf8 ++ r.utf8 := by
  rw [Text.utf8, hl.codePoints_append, List.flatMap_append]
  rfl

/-- A text is read from its bytes. -/
theorem decodeStream_utf8 {text : Text} (h : Paired text) (hmark : text.head? ≠ some 0xFEFF) :
    decodeStream text.utf8 = some (text,false) := by
  obtain ⟨hscalar,hread⟩ := h.codePoints_read
  rw [← hread] at hmark
  rw [Text.utf8, decodeStream, emitAll_encodePoints hscalar, mapM_some, Option.map_some, withoutMark_front hmark, hread]
  rfl

/-- Bytes that those of a text begin with are read as what the text begins with. Where they end in a
character, the next unit is not ASCII. -/
theorem decodeStream_cut {text : Text} (h : Paired text) (hmark : text.head? ≠ some 0xFEFF) {cut : List UInt8}
    (hcut : cut <+: text.utf8) : ∃ front rest, text = front ++ rest ∧
      ((cut = front.utf8 ∧ decodeStream cut = some (front,false)) ∨
        ∃ u more, rest = u :: more ∧ 0x80 ≤ u ∧ decodeStream cut = some (front,true)) := by
  obtain ⟨hscalar,hread⟩ := h.codePoints_read
  obtain ⟨before,after,hpoints,hcase⟩ := cut_encodePoints hscalar hcut
  rw [hpoints] at hscalar hread
  obtain ⟨hbefore,hafter⟩ := List.forall_mem_append.mp hscalar
  rw [List.flatMap_append] at hread
  have hfront : withoutMark before = before := by
    refine withoutMark_front fun hfirst => hmark ?_
    obtain ⟨rest,hrest⟩ := List.head?_eq_some_iff.mp hfirst
    rw [← hread, hrest]
    rfl
  refine ⟨before.flatMap Text.ofCodePoint,after.flatMap Text.ofCodePoint,hread.symm,?_⟩
  obtain rfl | ⟨n,rest,more,rfl,rfl,hbegins,hsome,hne⟩ := hcase
  · left
    rw [Text.utf8, codePoints_flatMap hbefore, decodeStream, emitAll_encodePoints hbefore, mapM_some, Option.map_some, hfront]
    exact ⟨rfl,rfl⟩
  · right
    obtain ⟨hn,-⟩ := List.forall_mem_cons.mp hafter
    obtain ⟨hbig,hquiet,hneeded⟩ := (emitAll_encodePoint hn).2 rest hbegins hsome hne
    obtain ⟨u,units,hunits,hu⟩ := ofCodePoint_begins hn hbig
    refine ⟨u,units ++ more.flatMap Text.ofCodePoint,by rw [List.flatMap_cons, hunits, List.cons_append],hu,?_⟩
    rw [decodeStream, emitAll_append, emitAll_encodePoints hbefore, hquiet, List.append_nil, mapM_some, Option.map_some,
      hfront]
    simp [hneeded]

lemma trail_high (k n : ℕ) : ∀ b ∈ trail k n, 0x80 ≤ b.toNat := by
  induction k with
  | zero => simp [trail]
  | succ k ih =>
    refine List.forall_mem_cons.mpr ⟨?_,ih⟩
    rw [toNat_ofNat (by omega)]
    exact Nat.le_add_right _ _

/-- An ASCII byte of a text stands for a unit of it. -/
theorem mem_of_mem_utf8 {text : Text} (h : Paired text) {b : UInt8} (hb : b.toNat < 0x80) (hmem : b ∈ text.utf8) :
    UInt16.ofNat b.toNat ∈ text := by
  obtain ⟨hscalar,hread⟩ := h.codePoints_read
  obtain ⟨n,hn,hbyte⟩ := List.mem_flatMap.mp hmem
  by_cases hsmall : n < 0x80
  · rw [encodePoint, if_pos hsmall, List.mem_singleton] at hbyte
    rw [hbyte, toNat_ofNat (by omega), ← hread]
    refine List.mem_flatMap.mpr ⟨n,hn,?_⟩
    rw [Text.ofCodePoint, if_pos (by omega)]
    exact List.mem_singleton_self _
  · obtain ⟨k,lead,lower,upper,hencode,hlead,-⟩ := encodePoint_lead (hscalar n hn) (Nat.le_of_not_lt hsmall)
    rw [hencode] at hbyte
    obtain rfl | htrail := List.mem_cons.mp hbyte
    · omega
    · have hhigh := trail_high (k + 1) n b htrail
      omega

end Texts
end Utf8
end OmniagentPlus.Foundation
