import OmniagentPlus.Foundation.Json

/-! `JSON.stringify(value, null, 2)`. What it gives has line feeds of its own, and no other control
character. -/
namespace OmniagentPlus.Foundation
namespace JsonStringify

def hexUnit (n : ℕ) : UInt16 := UInt16.ofNat (if n < 10 then 0x30 + n else 0x61 + (n - 10))

/-- `\uXXXX` of a code unit. -/
def unicodeEscape (u : UInt16) : Text :=
  let n := u.toNat
  [0x5C,0x75,hexUnit (n / 4096),hexUnit (n / 256 % 16),hexUnit (n / 16 % 16),hexUnit (n % 16)]

/-- The letter of a two-character escape. -/
def shortEscape (u : UInt16) : Option UInt16 :=
  if u == 0x08 then some 0x62 else if u == 0x09 then some 0x74 else if u == 0x0A then some 0x6E
  else if u == 0x0C then some 0x66 else if u == 0x0D then some 0x72
  else if u == 0x22 || u == 0x5C then some u else none

/-- A unit that is no part of a surrogate pair. -/
def quoteUnit (u : UInt16) : Text :=
  match shortEscape u with
  | some letter => [0x5C,letter]
  | none => if u.toNat < 0x20 ∨ 0xD800 ≤ u.toNat ∧ u.toNat < 0xE000 then unicodeEscape u else [u]

def quoteUnits : Text → Text
  | [] => []
  | [u] => quoteUnit u
  | u :: v :: rest =>
    if 0xD800 ≤ u.toNat ∧ u.toNat < 0xDC00 ∧ 0xDC00 ≤ v.toNat ∧ v.toNat < 0xE000 then u :: v :: quoteUnits rest
    else quoteUnit u ++ quoteUnits (v :: rest)

/-- `JSON.stringify(text)` -/
def quote (text : Text) : Text := 0x22 :: quoteUnits text ++ [0x22]

section Values
variable {ν : Type} [JsNumber ν]

/-- The members of an array or an object between its brackets, on lines of their own. -/
def block (opening closing : UInt16) (indent : Text) (members : List Text) : Text :=
  if members.isEmpty then [opening,closing]
  else opening :: 0x0A :: indent ++ Text.of "  " ++
    ((0x2C :: 0x0A :: indent ++ Text.of "  ").intercalate members) ++ 0x0A :: indent ++ [closing]

mutual

/-- A value at an indentation. -/
def pretty (indent : Text) : Json ν → Text
  | .null => Text.of "null"
  | .bool b => if b then Text.of "true" else Text.of "false"
  | .number n => if JsNumber.isFinite n then JsNumber.toText n else Text.of "null"
  | .string t => quote t
  | .array items => block 0x5B 0x5D indent (prettyItems (indent ++ Text.of "  ") items)
  | .object fields => block 0x7B 0x7D indent (prettyFields (indent ++ Text.of "  ") fields)

def prettyItems (indent : Text) : List (Json ν) → List Text
  | [] => []
  | item :: items => pretty indent item :: prettyItems indent items

def prettyFields (indent : Text) : List (Text × Json ν) → List Text
  | [] => []
  | (key,value) :: fields => (quote key ++ Text.of ": " ++ pretty indent value) :: prettyFields indent fields

end
end Values

section Printed

/-- The text of a number has no control character. -/
class PrintableNumbers (ν : Type) [JsNumber ν] : Prop where
  printable : ∀ (n : ν), ∀ u ∈ JsNumber.toText n, 0x20 ≤ u.toNat

/-- Line feeds and units that are no control characters. -/
def Printed (text : Text) : Prop := ∀ u ∈ text, u = 0x0A ∨ 0x20 ≤ u.toNat

theorem printed_append {l r : Text} : Printed (l ++ r) ↔ Printed l ∧ Printed r := List.forall_mem_append

theorem printed_cons {u : UInt16} {text : Text} : Printed (u :: text) ↔ (u = 0x0A ∨ 0x20 ≤ u.toNat) ∧ Printed text :=
  List.forall_mem_cons

theorem printed_intercalate {sep : Text} {pieces : List Text} (hsep : Printed sep) (h : ∀ piece ∈ pieces, Printed piece) :
    Printed (sep.intercalate pieces) := by
  induction pieces with
  | nil => exact fun u hu => absurd hu (by simp)
  | cons piece pieces ih =>
    obtain ⟨hpiece,hpieces⟩ := List.forall_mem_cons.mp h
    cases pieces with
    | nil => simpa using hpiece
    | cons next pieces =>
      rw [List.intercalate_cons_cons]
      exact printed_append.mpr ⟨printed_append.mpr ⟨hpiece,hsep⟩,ih hpieces⟩

lemma printed_of_all {text : Text} (h : text.all (fun u => u == 0x0A || decide (0x20 ≤ u.toNat)) = true) : Printed text := by
  intro u hu
  have hunit := List.all_eq_true.mp h u hu
  rw [Bool.or_eq_true, beq_iff_eq, decide_eq_true_eq] at hunit
  exact hunit

lemma printed_spaces : Printed (Text.of "  ") := printed_of_all rfl

lemma hexUnit_printed {n : ℕ} (h : n < 16) : 0x20 ≤ (hexUnit n).toNat := by
  have hall : ∀ n < 16, 0x20 ≤ (hexUnit n).toNat := by decide
  exact hall n h

lemma quoteUnit_printed (u : UInt16) : Printed (quoteUnit u) := by
  unfold quoteUnit
  cases hshort : shortEscape u with
  | some letter =>
    have hletter : 0x20 ≤ letter.toNat := by
      unfold shortEscape at hshort
      split_ifs at hshort with h₁ h₂ h₃ h₄ h₅ h₆
      all_goals cases hshort
      · decide
      · decide
      · decide
      · decide
      · decide
      · rw [Bool.or_eq_true, beq_iff_eq, beq_iff_eq] at h₆
        obtain rfl | rfl := h₆ <;> decide
    exact printed_cons.mpr ⟨Or.inr (by decide),printed_cons.mpr ⟨Or.inr hletter,fun u hu => absurd hu List.not_mem_nil⟩⟩
  | none =>
    have hu := u.toNat_lt
    dsimp only
    split_ifs with hcontrol
    · intro v hv
      simp only [unicodeEscape, List.mem_cons, List.not_mem_nil, or_false] at hv
      right
      obtain rfl | rfl | rfl | rfl | rfl | rfl := hv
      · decide
      · decide
      · exact hexUnit_printed (by omega)
      · exact hexUnit_printed (by omega)
      · exact hexUnit_printed (by omega)
      · exact hexUnit_printed (by omega)
    · exact printed_cons.mpr ⟨Or.inr (by omega),fun u hu => absurd hu List.not_mem_nil⟩

theorem quote_printed (text : Text) : Printed (quote text) := by
  have hunits : Printed (quoteUnits text) := by
    induction text using quoteUnits.induct with
    | case1 => exact fun u hu => absurd hu List.not_mem_nil
    | case2 u => exact quoteUnit_printed u
    | case3 u v rest hpair ih =>
      rw [quoteUnits, if_pos hpair]
      exact printed_cons.mpr ⟨Or.inr (by omega),printed_cons.mpr ⟨Or.inr (by omega),ih⟩⟩
    | case4 u v rest hpair ih =>
      rw [quoteUnits, if_neg hpair]
      exact printed_append.mpr ⟨quoteUnit_printed u,ih⟩
  have hquote : (0x22 : UInt16) = 0x0A ∨ 0x20 ≤ (0x22 : UInt16).toNat := Or.inr (by decide)
  exact printed_cons.mpr ⟨hquote,printed_append.mpr ⟨hunits,printed_cons.mpr ⟨hquote,fun u hu => absurd hu List.not_mem_nil⟩⟩⟩

lemma block_printed {opening closing : UInt16} {indent : Text} {members : List Text} (hopening : 0x20 ≤ opening.toNat)
    (hclosing : 0x20 ≤ closing.toNat) (hindent : Printed indent) (h : ∀ member ∈ members, Printed member) :
    Printed (block opening closing indent members) := by
  have hend : Printed [closing] := printed_cons.mpr ⟨Or.inr hclosing,fun u hu => absurd hu List.not_mem_nil⟩
  unfold block
  split_ifs
  · exact printed_cons.mpr ⟨Or.inr hopening,hend⟩
  · have hbreak : Printed (0x0A :: indent) := printed_cons.mpr ⟨Or.inl rfl,hindent⟩
    have hfirst : Printed (opening :: 0x0A :: indent ++ Text.of "  ") :=
      printed_append.mpr ⟨printed_cons.mpr ⟨Or.inr hopening,hbreak⟩,printed_spaces⟩
    have hcomma : Printed (0x2C :: 0x0A :: indent ++ Text.of "  ") :=
      printed_append.mpr ⟨printed_cons.mpr ⟨Or.inr (by decide),hbreak⟩,printed_spaces⟩
    have hmembers := printed_intercalate hcomma h
    exact printed_append.mpr ⟨printed_append.mpr ⟨printed_append.mpr ⟨hfirst,hmembers⟩,hbreak⟩,hend⟩

variable {ν : Type} [JsNumber ν] [PrintableNumbers ν]

/-- The only control characters that `JSON.stringify` gives are line feeds. -/
theorem pretty_printed (value : Json ν) (indent : Text) (hindent : Printed indent) : Printed (pretty indent value) := by
  have hdeeper : ∀ {indent}, Printed indent → Printed (indent ++ Text.of "  ") :=
    fun h => printed_append.mpr ⟨h,printed_spaces⟩
  revert indent
  refine @Json.rec ν (fun value => ∀ indent, Printed indent → Printed (pretty indent value))
    (fun items => ∀ indent, Printed indent → ∀ member ∈ prettyItems indent items, Printed member)
    (fun fields => ∀ indent, Printed indent → ∀ member ∈ prettyFields indent fields, Printed member)
    (fun field => ∀ indent, Printed indent → Printed (pretty indent field.2))
    ?_ ?_ ?_ ?_ ?_ ?_ ?_ ?_ ?_ ?_ ?_ value
  · intro indent _
    rw [pretty]
    exact printed_of_all rfl
  · intro b indent _
    rw [pretty]
    cases b <;> exact printed_of_all rfl
  · intro n indent _
    rw [pretty]
    split_ifs
    · exact fun u hu => Or.inr (PrintableNumbers.printable n u hu)
    · exact printed_of_all rfl
  · intro t indent _
    rw [pretty]
    exact quote_printed t
  · intro items ih indent hindent
    rw [pretty]
    exact block_printed (by decide) (by decide) hindent (ih _ (hdeeper hindent))
  · intro fields ih indent hindent
    rw [pretty]
    exact block_printed (by decide) (by decide) hindent (ih _ (hdeeper hindent))
  · intro indent _ member hmember
    rw [prettyItems] at hmember
    cases hmember
  · intro item items hitem hitems indent hindent member hmember
    rw [prettyItems] at hmember
    obtain rfl | hmember := List.mem_cons.mp hmember
    · exact hitem indent hindent
    · exact hitems indent hindent member hmember
  · intro indent _ member hmember
    rw [prettyFields] at hmember
    cases hmember
  · intro field fields hfield hfields indent hindent member hmember
    obtain ⟨key,value⟩ := field
    rw [prettyFields] at hmember
    obtain rfl | hmember := List.mem_cons.mp hmember
    · have hcolon : Printed (Text.of ": ") := printed_of_all rfl
      exact printed_append.mpr ⟨printed_append.mpr ⟨quote_printed key,hcolon⟩,hfield indent hindent⟩
    · exact hfields indent hindent member hmember
  · exact fun key value ih => ih

/-- The text of an integer is a sign and digits. -/
theorem integer_printable (n : ℤ) : ∀ u ∈ Text.of (toString n), 0x20 ≤ u.toNat := by
  have hunits : ∀ c : Char, c.isDigit = true ∨ c = '-' → ∀ u ∈ Text.ofChar c, 0x20 ≤ u.toNat := by
    intro c hc u hu
    have hrange : 0x20 ≤ c.toNat ∧ c.toNat < 0x10000 := by
      obtain hdigit | rfl := hc
      · simp only [Char.isDigit, Bool.and_eq_true, decide_eq_true_eq, UInt32.le_iff_toNat_le] at hdigit
        exact ⟨le_trans (by decide) hdigit.1,lt_of_le_of_lt hdigit.2 (by decide)⟩
      · decide
    rw [Text.ofChar, if_pos hrange.2, List.mem_singleton] at hu
    rw [hu, UInt16.toNat_ofNat_of_lt' hrange.2]
    exact hrange.1
  have hdigits : ∀ m : ℕ, ∀ c ∈ (toString m).toList, c.isDigit = true := by
    intro m c hc
    rw [Nat.toString_eq_repr, Nat.toList_repr] at hc
    exact Nat.isDigit_of_mem_toDigits (by decide) (by decide) hc
  intro u hu
  obtain ⟨c,hc,hu⟩ := List.mem_flatMap.mp hu
  refine hunits c ?_ u hu
  rw [Int.toString_eq_repr, Int.repr_eq_if] at hc
  split_ifs at hc
  · exact Or.inl (hdigits _ c hc)
  · rw [String.toList_append] at hc
    obtain hc | hc := List.mem_append.mp hc
    · exact Or.inr (List.mem_singleton.mp hc)
    · exact Or.inl (hdigits _ c hc)

instance integerPrintable : PrintableNumbers ℤ where
  printable n := integer_printable n

end Printed
end JsonStringify
end OmniagentPlus.Foundation
