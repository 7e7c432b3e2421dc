import OmniagentPlus.Foundation.JsonParse
import OmniagentPlus.Foundation.Regex

/-! The number literals of JSON and what may become one, as the machine reads them and as regular
expressions. -/
namespace OmniagentPlus.Foundation
namespace JsonParse

def Digits (text : Text) : Prop := ∀ u ∈ text, isDigit u = true

def isExponent (u : UInt16) : Bool := u == 0x65 || u == 0x45

def isSign (u : UInt16) : Bool := u == 0x2B || u == 0x2D

/-- `-?` -/
def Sign (text : Text) : Prop := text = [] ∨ text = [0x2D]

/-- `-?(?:0|[1-9]\d*)` -/
def Whole (text : Text) : Prop :=
  (∃ sign, Sign sign ∧ text = sign ++ [0x30]) ∨
    ∃ sign d ds, Sign sign ∧ isDigit d = true ∧ d ≠ 0x30 ∧ Digits ds ∧ text = sign ++ d :: ds

/-- The same with `\.\d+` behind it. -/
def Fractional (text : Text) : Prop := ∃ whole ds, Whole whole ∧ ds ≠ [] ∧ Digits ds ∧ text = whole ++ 0x2E :: ds

def Mantissa (text : Text) : Prop := Whole text ∨ Fractional text

/-- The texts that are this much of a number. -/
def Reads : NumberPart → Text → Prop
  | .minus, text => text = [0x2D]
  | .zero, text => ∃ sign, Sign sign ∧ text = sign ++ [0x30]
  | .integer, text => ∃ sign d ds, Sign sign ∧ isDigit d = true ∧ d ≠ 0x30 ∧ Digits ds ∧ text = sign ++ d :: ds
  | .point, text => ∃ whole, Whole whole ∧ text = whole ++ [0x2E]
  | .fraction, text => Fractional text
  | .exponent, text => ∃ mantissa e, Mantissa mantissa ∧ isExponent e = true ∧ text = mantissa ++ [e]
  | .exponentSign, text =>
    ∃ mantissa e s, Mantissa mantissa ∧ isExponent e = true ∧ isSign s = true ∧ text = mantissa ++ [e,s]
  | .exponentDigits, text => ∃ mantissa e sign ds, Mantissa mantissa ∧ isExponent e = true ∧
      (sign = [] ∨ ∃ s, isSign s = true ∧ sign = [s]) ∧ ds ≠ [] ∧ Digits ds ∧ text = mantissa ++ e :: (sign ++ ds)

/-- How much of a number the machine takes a text for. -/
def numberPart : Text → Option NumberPart
  | [] => none
  | u :: rest => (numberStart u).bind fun part => rest.foldlM numberNext part

theorem numberPart_append {text : Text} (h : text ≠ []) (more : Text) :
    numberPart (text ++ more) = (numberPart text).bind fun part => more.foldlM numberNext part := by
  cases text with
  | nil => exact absurd rfl h
  | cons u text =>
    simp only [List.cons_append, numberPart, List.foldlM_append]
    cases numberStart u <;> rfl

theorem digits_append {first rest : Text} (h : Digits first) (h' : Digits rest) : Digits (first ++ rest) := by
  intro u hu
  rcases List.mem_append.mp hu with hu | hu
  · exact h u hu
  · exact h' u hu

theorem digits_singleton {u : UInt16} (h : isDigit u = true) : Digits [u] := by
  intro v hv
  rwa [List.mem_singleton.mp hv]

section Sound

theorem reads_start {u : UInt16} {part : NumberPart} (h : numberStart u = some part) : Reads part [u] := by
  unfold numberStart at h
  split_ifs at h with hminus hzero hdigit
  · cases h
    rw [beq_iff_eq.mp hminus]
    rfl
  · cases h
    rw [beq_iff_eq.mp hzero]
    exact ⟨[],.inl rfl,rfl⟩
  · cases h
    exact ⟨[],u,[],.inl rfl,hdigit,fun he => hzero (by rw [he]; rfl),by simp [Digits],rfl⟩

theorem reads_next {part part' : NumberPart} {text : Text} {u : UInt16} (h : Reads part text)
    (hnext : numberNext part u = some part') : Reads part' (text ++ [u]) := by
  cases part with
  | minus =>
    obtain rfl : text = [0x2D] := h
    simp only [numberNext] at hnext
    split_ifs at hnext with hzero hdigit
    · cases hnext
      exact ⟨[0x2D],.inr rfl,by rw [beq_iff_eq.mp hzero]⟩
    · cases hnext
      exact ⟨[0x2D],u,[],.inr rfl,hdigit,fun he => hzero (by rw [he]; rfl),by simp [Digits],rfl⟩
  | zero =>
    have hwhole : Whole text := .inl h
    simp only [numberNext] at hnext
    split_ifs at hnext with hpoint he
    · cases hnext
      exact ⟨text,hwhole,by rw [beq_iff_eq.mp hpoint]⟩
    · cases hnext
      exact ⟨text,u,.inl hwhole,he,rfl⟩
  | integer =>
    have hwhole : Whole text := .inr h
    simp only [numberNext] at hnext
    split_ifs at hnext with hdigit hpoint he
    · cases hnext
      obtain ⟨sign,d,ds,hsign,hd,hd0,hds,rfl⟩ := h
      exact ⟨sign,d,ds ++ [u],hsign,hd,hd0,digits_append hds (digits_singleton hdigit),by simp⟩
    · cases hnext
      exact ⟨text,hwhole,by rw [beq_iff_eq.mp hpoint]⟩
    · cases hnext
      exact ⟨text,u,.inl hwhole,he,rfl⟩
  | point =>
    obtain ⟨whole,hwhole,rfl⟩ := h
    simp only [numberNext] at hnext
    split_ifs at hnext with hdigit
    cases hnext
    exact ⟨whole,[u],hwhole,by simp,digits_singleton hdigit,by simp⟩
  | fraction =>
    simp only [numberNext] at hnext
    split_ifs at hnext with hdigit he
    · cases hnext
      obtain ⟨whole,ds,hwhole,hne,hds,rfl⟩ := h
      exact ⟨whole,ds ++ [u],hwhole,by simp,digits_append hds (digits_singleton hdigit),by simp⟩
    · cases hnext
      exact ⟨text,u,.inr h,he,rfl⟩
  | exponent =>
    obtain ⟨mantissa,e,hmantissa,he,rfl⟩ := h
    simp only [numberNext] at hnext
    split_ifs at hnext with hsign hdigit
    · cases hnext
      exact ⟨mantissa,e,u,hmantissa,he,hsign,by simp⟩
    · cases hnext
      exact ⟨mantissa,e,[],[u],hmantissa,he,.inl rfl,by simp,digits_singleton hdigit,by simp⟩
  | exponentSign =>
    obtain ⟨mantissa,e,s,hmantissa,he,hs,rfl⟩ := h
    simp only [numberNext] at hnext
    split_ifs at hnext with hdigit
    cases hnext
    exact ⟨mantissa,e,[s],[u],hmantissa,he,.inr ⟨s,hs,rfl⟩,by simp,digits_singleton hdigit,by simp⟩
  | exponentDigits =>
    obtain ⟨mantissa,e,sign,ds,hmantissa,he,hsign,hne,hds,rfl⟩ := h
    simp only [numberNext] at hnext
    split_ifs at hnext with hdigit
    cases hnext
    exact ⟨mantissa,e,sign,ds ++ [u],hmantissa,he,hsign,by simp,digits_append hds (digits_singleton hdigit),by simp⟩

theorem reads_of_numberPart {text : Text} {part : NumberPart} (h : numberPart text = some part) : Reads part text := by
  induction text using List.reverseRecOn generalizing part with
  | nil => cases h
  | append_singleton text u ih =>
    cases text with
    | nil =>
      rw [List.nil_append, numberPart, Option.bind_eq_some_iff] at h
      obtain ⟨first,hfirst,hlast⟩ := h
      cases hlast
      exact reads_start hfirst
    | cons v text =>
      rw [numberPart_append (List.cons_ne_nil v text), Option.bind_eq_some_iff] at h
      obtain ⟨before,hbefore,hlast⟩ := h
      rw [List.foldlM_cons] at hlast
      obtain ⟨next,hnext,hpart⟩ := Option.bind_eq_some_iff.mp hlast
      cases hpart
      exact reads_next (ih hbefore) hnext

end Sound

section Complete

theorem foldlM_digits {part : NumberPart} (h : ∀ u, isDigit u = true → numberNext part u = some part) {ds : Text}
    (hds : Digits ds) : ds.foldlM numberNext part = some part := by
  induction ds with
  | nil => rfl
  | cons d ds ih =>
    rw [List.foldlM_cons, h d (hds d List.mem_cons_self)]
    exact ih fun u hu => hds u (List.mem_cons_of_mem d hu)

/-- Digits where one digit leads to a place that more digits do not leave. -/
theorem foldlM_someDigits {part next : NumberPart} (hfirst : ∀ u, isDigit u = true → numberNext part u = some next)
    (hmore : ∀ u, isDigit u = true → numberNext next u = some next) {ds : Text} (hne : ds ≠ []) (hds : Digits ds) :
    ds.foldlM numberNext part = some next := by
  cases ds with
  | nil => exact absurd rfl hne
  | cons d ds =>
    rw [List.foldlM_cons, hfirst d (hds d List.mem_cons_self)]
    exact foldlM_digits hmore fun u hu => hds u (List.mem_cons_of_mem d hu)

theorem beq_zero_of_digit {d : UInt16} (hd0 : d ≠ 0x30) : (d == 0x30) = false := beq_eq_false_iff_ne.mpr hd0

theorem not_minus_of_digit {d : UInt16} (hd : isDigit d = true) : (d == 0x2D) = false := by
  refine beq_eq_false_iff_ne.mpr ?_
  rintro rfl
  exact absurd hd (by decide)

theorem numberPart_zero {sign : Text} (h : Sign sign) : numberPart (sign ++ [0x30]) = some .zero := by
  rcases h with rfl | rfl <;> rfl

theorem numberPart_integer {sign ds : Text} {d : UInt16} (h : Sign sign) (hd : isDigit d = true) (hd0 : d ≠ 0x30)
    (hds : Digits ds) : numberPart (sign ++ d :: ds) = some .integer := by
  have hmore : ds.foldlM numberNext NumberPart.integer = some .integer :=
    foldlM_digits (fun u hu => by simp [numberNext, hu]) hds
  rcases h with rfl | rfl
  · have hstart : numberStart d = some .integer := by
      simp [numberStart, not_minus_of_digit hd, beq_zero_of_digit hd0, hd]
    rw [List.nil_append, numberPart, hstart]
    exact hmore
  · have hnext : numberNext .minus d = some .integer := by simp [numberNext, beq_zero_of_digit hd0, hd]
    have hstart : numberStart 0x2D = some .minus := rfl
    rw [List.singleton_append, numberPart, hstart, Option.bind_some, List.foldlM_cons, hnext]
    exact hmore

theorem numberPart_whole {text : Text} (h : Whole text) : numberPart text = some .zero ∨ numberPart text = some .integer := by
  rcases h with ⟨sign,hsign,rfl⟩ | ⟨sign,d,ds,hsign,hd,hd0,hds,rfl⟩
  · exact .inl (numberPart_zero hsign)
  · exact .inr (numberPart_integer hsign hd hd0 hds)

theorem Whole.ne_nil {text : Text} (h : Whole text) : text ≠ [] := by
  rcases h with ⟨sign,-,rfl⟩ | ⟨sign,d,ds,-,-,-,-,rfl⟩ <;> simp

theorem numberPart_point {whole : Text} (h : Whole whole) : numberPart (whole ++ [0x2E]) = some .point := by
  rw [numberPart_append h.ne_nil]
  rcases numberPart_whole h with hpart | hpart <;> rw [hpart] <;> rfl

theorem numberPart_fractional {text : Text} (h : Fractional text) : numberPart text = some .fraction := by
  obtain ⟨whole,ds,hwhole,hne,hds,rfl⟩ := h
  rw [List.append_cons, numberPart_append (by simp), numberPart_point hwhole, Option.bind_some]
  exact foldlM_someDigits (fun u hu => by simp [numberNext, hu]) (fun u hu => by simp [numberNext, hu]) hne hds

theorem Mantissa.ne_nil {text : Text} (h : Mantissa text) : text ≠ [] := by
  rcases h with h | ⟨whole,ds,-,-,-,rfl⟩
  · exact h.ne_nil
  · simp

theorem not_digit_of_exponent {e : UInt16} (h : isExponent e = true) : isDigit e = false ∧ (e == 0x2E) = false := by
  simp only [isExponent, Bool.or_eq_true, beq_iff_eq] at h
  rcases h with rfl | rfl <;> decide

theorem numberPart_exponent {mantissa : Text} (h : Mantissa mantissa) {e : UInt16} (he : isExponent e = true) :
    numberPart (mantissa ++ [e]) = some .exponent := by
  obtain ⟨hdigit,hpoint⟩ := not_digit_of_exponent he
  have hnext : ∀ part ∈ [NumberPart.zero,.integer,.fraction], numberNext part e = some .exponent := by
    intro part hpart
    have he' : (e == 0x65 || e == 0x45) = true := he
    simp only [List.mem_cons, List.not_mem_nil, or_false] at hpart
    rcases hpart with rfl | rfl | rfl <;> simp [numberNext, hdigit, hpoint, he']
  rw [numberPart_append h.ne_nil]
  rcases h with h | h
  · rcases numberPart_whole h with hpart | hpart <;> rw [hpart, Option.bind_some, List.foldlM_cons, hnext _ (by simp)] <;> rfl
  · rw [numberPart_fractional h, Option.bind_some, List.foldlM_cons, hnext _ (by simp)]
    rfl

theorem numberPart_exponentSign {mantissa : Text} (h : Mantissa mantissa) {e s : UInt16} (he : isExponent e = true)
    (hs : isSign s = true) : numberPart (mantissa ++ [e,s]) = some .exponentSign := by
  have hnext : numberNext .exponent s = some .exponentSign := by
    have hs' : (s == 0x2B || s == 0x2D) = true := hs
    simp only [numberNext, hs', if_true]
  rw [List.append_cons, numberPart_append (by simp), numberPart_exponent h he, Option.bind_some, List.foldlM_cons, hnext]
  rfl

theorem not_sign_of_digit {u : UInt16} (h : isDigit u = true) : isSign u = false := by
  simp only [isSign, Bool.or_eq_false_iff, beq_eq_false_iff_ne]
  constructor <;> rintro rfl <;> exact absurd h (by decide)

theorem numberPart_exponentDigits {mantissa sign ds : Text} (h : Mantissa mantissa) {e : UInt16} (he : isExponent e = true)
    (hsign : sign = [] ∨ ∃ s, isSign s = true ∧ sign = [s]) (hne : ds ≠ []) (hds : Digits ds) :
    numberPart (mantissa ++ e :: (sign ++ ds)) = some .exponentDigits := by
  have hmore : ∀ u, isDigit u = true → numberNext .exponentDigits u = some .exponentDigits :=
    fun u hu => by simp [numberNext, hu]
  rcases hsign with rfl | ⟨s,hs,rfl⟩
  · rw [List.nil_append, List.append_cons, numberPart_append (by simp), numberPart_exponent h he, Option.bind_some]
    refine foldlM_someDigits (fun u hu => ?_) hmore hne hds
    have hsign : (u == 0x2B || u == 0x2D) = false := not_sign_of_digit hu
    simp [numberNext, hsign, hu]
  · have htext : mantissa ++ e :: ([s] ++ ds) = (mantissa ++ [e,s]) ++ ds := by simp
    rw [htext, numberPart_append (by simp), numberPart_exponentSign h he hs, Option.bind_some]
    exact foldlM_someDigits (fun u hu => by simp [numberNext, hu]) hmore hne hds

end Complete
end JsonParse

namespace JsonNumber
open Regex JsonParse

def minus : Regex := Regex.unit fun u => u == 0x2D

def point : Regex := Regex.unit fun u => u == 0x2E

def digits : Regex := atLeast 1 (Regex.unit isDigit)

def exponentMark : Regex := Regex.unit isExponent

def exponentSign : Regex := optional (Regex.unit isSign)

/-- `-?(?:0|[1-9]\d*)` -/
def whole : Regex :=
  seq (optional minus) (oneOf [Regex.unit fun u => u == 0x30,
    seq (Regex.unit fun u => isDigit u && u != 0x30) (star (Regex.unit isDigit))])

/-- `(?:\.\d+)?` -/
def fraction : Regex := optional (seq point digits)

/-- `-?(?:0|[1-9]\d*)(?:\.\d+)?(?:[eE][+-]?\d+)?` -/
def number : Regex := sequence [whole,fraction,optional (sequence [exponentMark,exponentSign,digits])]

/-- `-|-?(?:0|[1-9]\d*)\.|-?(?:0|[1-9]\d*)(?:\.\d+)?[eE][+-]?` -/
def begun : Regex := oneOf [minus,seq whole point,sequence [whole,fraction,exponentMark,exponentSign]]

theorem matches_unit_beq {c : UInt16} {text : Text} : (Regex.unit fun u => u == c).Matches text ↔ text = [c] := by
  constructor
  · rintro ⟨u,hu,rfl⟩
    rw [beq_iff_eq.mp hu]
  · rintro rfl
    exact ⟨c,beq_self_eq_true c,rfl⟩

theorem matches_sign {text : Text} : (optional minus).Matches text ↔ Sign text := by
  rw [matches_optional, minus, matches_unit_beq, Sign, or_comm]

theorem matches_whole {text : Text} : whole.Matches text ↔ Whole text := by
  constructor
  · rintro ⟨sign,rest,hsign,hzero | ⟨_,ds,⟨d,hd,rfl⟩,hds,rfl⟩,rfl⟩
    · exact .inl ⟨sign,matches_sign.mp hsign,by rw [matches_unit_beq.mp hzero]⟩
    · rw [Bool.and_eq_true, bne_iff_ne] at hd
      exact .inr ⟨sign,d,ds,matches_sign.mp hsign,hd.1,hd.2,matches_star_unit.mp hds,rfl⟩
  · rintro (⟨sign,hsign,rfl⟩ | ⟨sign,d,ds,hsign,hd,hd0,hds,rfl⟩)
    · exact ⟨sign,_,matches_sign.mpr hsign,.inl (matches_unit_beq.mpr rfl),rfl⟩
    · refine ⟨sign,_,matches_sign.mpr hsign,.inr ⟨[d],ds,⟨d,?_,rfl⟩,matches_star_unit.mpr hds,rfl⟩,rfl⟩
      rw [Bool.and_eq_true, bne_iff_ne]
      exact ⟨hd,hd0⟩

theorem matches_digits {text : Text} : digits.Matches text ↔ text ≠ [] ∧ Digits text := matches_atLeast_one

theorem matches_mantissa {text : Text} : (seq whole fraction).Matches text ↔ Mantissa text := by
  constructor
  · rintro ⟨first,rest,hfirst,⟨_,ds,hpoint,hds,rfl⟩ | rfl,rfl⟩
    · obtain ⟨hne,hdigits⟩ := matches_digits.mp hds
      exact .inr ⟨first,ds,matches_whole.mp hfirst,hne,hdigits,by rw [matches_unit_beq.mp hpoint]; rfl⟩
    · rw [List.append_nil]
      exact .inl (matches_whole.mp hfirst)
  · rintro (h | ⟨first,ds,hfirst,hne,hdigits,rfl⟩)
    · exact ⟨text,[],matches_whole.mpr h,.inr rfl,(List.append_nil text).symm⟩
    · exact ⟨first,_,matches_whole.mpr hfirst,
        .inl ⟨_,ds,matches_unit_beq.mpr rfl,matches_digits.mpr ⟨hne,hdigits⟩,rfl⟩,rfl⟩

theorem matches_exponentSign {text : Text} : exponentSign.Matches text ↔ text = [] ∨ ∃ s, isSign s = true ∧ text = [s] := by
  rw [exponentSign, matches_optional, or_comm]
  rfl

theorem matches_number {text : Text} : number.Matches text ↔ Mantissa text ∨ Reads .exponentDigits text := by
  constructor
  · rintro ⟨first,_,hfirst,⟨middle,last,hmiddle,hlast,rfl⟩,rfl⟩
    have hmantissa := matches_mantissa.mp ⟨first,middle,hfirst,hmiddle,rfl⟩
    rw [← List.append_assoc]
    rcases hlast with ⟨_,_,⟨e,he,rfl⟩,⟨sign,ds,hsign,hds,rfl⟩,rfl⟩ | rfl
    · obtain ⟨hne,hdigits⟩ := matches_digits.mp hds
      exact .inr ⟨_,e,sign,ds,hmantissa,he,matches_exponentSign.mp hsign,hne,hdigits,rfl⟩
    · rw [List.append_nil]
      exact .inl hmantissa
  · rintro (h | ⟨mantissa,e,sign,ds,hmantissa,he,hsign,hne,hdigits,rfl⟩)
    · obtain ⟨first,middle,hfirst,hmiddle,rfl⟩ := matches_mantissa.mpr h
      exact ⟨first,middle,hfirst,⟨middle,[],hmiddle,.inr rfl,(List.append_nil middle).symm⟩,rfl⟩
    · obtain ⟨first,middle,hfirst,hmiddle,rfl⟩ := matches_mantissa.mpr hmantissa
      refine ⟨first,_,hfirst,⟨middle,_,hmiddle,.inl ⟨[e],_,⟨e,he,rfl⟩,
        ⟨sign,ds,matches_exponentSign.mpr hsign,matches_digits.mpr ⟨hne,hdigits⟩,rfl⟩,rfl⟩,rfl⟩,?_⟩
      simp

theorem matches_begun {text : Text} : begun.Matches text ↔
    Reads .minus text ∨ Reads .point text ∨ Reads .exponent text ∨ Reads .exponentSign text := by
  constructor
  · rintro (h | ⟨first,_,hfirst,hpoint,rfl⟩ | ⟨first,_,hfirst,⟨middle,_,hmiddle,⟨_,sign,⟨e,he,rfl⟩,hsign,rfl⟩,rfl⟩,rfl⟩)
    · exact .inl (matches_unit_beq.mp h)
    · exact .inr (.inl ⟨first,matches_whole.mp hfirst,by rw [matches_unit_beq.mp hpoint]⟩)
    · have hmantissa := matches_mantissa.mp ⟨first,middle,hfirst,hmiddle,rfl⟩
      rcases matches_exponentSign.mp hsign with rfl | ⟨s,hs,rfl⟩
      · exact .inr (.inr (.inl ⟨_,e,hmantissa,he,by simp⟩))
      · exact .inr (.inr (.inr ⟨_,e,s,hmantissa,he,hs,by simp⟩))
  · rintro (h | ⟨first,hfirst,rfl⟩ | ⟨mantissa,e,hmantissa,he,rfl⟩ | ⟨mantissa,e,s,hmantissa,he,hs,rfl⟩)
    · exact .inl (matches_unit_beq.mpr h)
    · exact .inr (.inl ⟨first,_,matches_whole.mpr hfirst,matches_unit_beq.mpr rfl,rfl⟩)
    · obtain ⟨first,middle,hfirst,hmiddle,rfl⟩ := matches_mantissa.mpr hmantissa
      refine .inr (.inr ⟨first,_,hfirst,⟨middle,_,hmiddle,⟨[e],[],⟨e,he,rfl⟩,matches_exponentSign.mpr (.inl rfl),rfl⟩,rfl⟩,?_⟩)
      simp
    · obtain ⟨first,middle,hfirst,hmiddle,rfl⟩ := matches_mantissa.mpr hmantissa
      refine .inr (.inr ⟨first,_,hfirst,⟨middle,_,hmiddle,⟨[e],[s],⟨e,he,rfl⟩,
        matches_exponentSign.mpr (.inr ⟨s,hs,rfl⟩),rfl⟩,rfl⟩,?_⟩)
      simp

theorem reads_iff {text : Text} {part : NumberPart} : Reads part text ↔ numberPart text = some part := by
  refine ⟨fun h => ?_,reads_of_numberPart⟩
  cases part with
  | minus =>
    obtain rfl : text = [0x2D] := h
    rfl
  | zero =>
    obtain ⟨sign,hsign,rfl⟩ := h
    exact numberPart_zero hsign
  | integer =>
    obtain ⟨sign,d,ds,hsign,hd,hd0,hds,rfl⟩ := h
    exact numberPart_integer hsign hd hd0 hds
  | point =>
    obtain ⟨first,hfirst,rfl⟩ := h
    exact numberPart_point hfirst
  | fraction => exact numberPart_fractional h
  | exponent =>
    obtain ⟨mantissa,e,hmantissa,he,rfl⟩ := h
    exact numberPart_exponent hmantissa he
  | exponentSign =>
    obtain ⟨mantissa,e,s,hmantissa,he,hs,rfl⟩ := h
    exact numberPart_exponentSign hmantissa he hs
  | exponentDigits =>
    obtain ⟨mantissa,e,sign,ds,hmantissa,he,hsign,hne,hds,rfl⟩ := h
    exact numberPart_exponentDigits hmantissa he hsign hne hds

/-- A text is a number literal where the machine may end in it. -/
theorem matches_number_iff {text : Text} :
    number.Matches text ↔ ∃ part, numberPart text = some part ∧ numberEnds part = true := by
  rw [matches_number]
  constructor
  · rintro ((h | h) | h)
    · rcases numberPart_whole h with hpart | hpart
      · exact ⟨_,hpart,rfl⟩
      · exact ⟨_,hpart,rfl⟩
    · exact ⟨.fraction,reads_iff.mp h,rfl⟩
    · exact ⟨.exponentDigits,reads_iff.mp h,rfl⟩
  · rintro ⟨part,hpart,hends⟩
    have h := reads_iff.mpr hpart
    cases part with
    | zero => exact .inl (.inl (.inl h))
    | integer => exact .inl (.inl (.inr h))
    | fraction => exact .inl (.inr h)
    | exponentDigits => exact .inr h
    | _ => cases hends

/-- A text begins a number literal, and is none, where the machine may not end in it. -/
theorem matches_begun_iff {text : Text} :
    begun.Matches text ↔ ∃ part, numberPart text = some part ∧ numberEnds part = false := by
  rw [matches_begun]
  constructor
  · rintro (h | h | h | h)
    · exact ⟨_,reads_iff.mp h,rfl⟩
    · exact ⟨_,reads_iff.mp h,rfl⟩
    · exact ⟨_,reads_iff.mp h,rfl⟩
    · exact ⟨_,reads_iff.mp h,rfl⟩
  · rintro ⟨part,hpart,hends⟩
    have h := reads_iff.mpr hpart
    cases part with
    | minus => exact .inl h
    | point => exact .inr (.inl h)
    | exponent => exact .inr (.inr (.inl h))
    | exponentSign => exact .inr (.inr (.inr h))
    | _ => cases hends

end JsonNumber
end OmniagentPlus.Foundation
