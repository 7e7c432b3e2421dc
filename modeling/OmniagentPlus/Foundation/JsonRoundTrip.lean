import OmniagentPlus.Foundation.JsonStringify
import OmniagentPlus.Foundation.JsonNumber
import OmniagentPlus.Foundation.Utf8Encoding

/-! `JSON.stringify(value)`, and that `JSON.parse` reads the value back from it. -/
namespace OmniagentPlus.Foundation

namespace JsonStringify
variable {ν : Type} [JsNumber ν]

mutual

def compact : Json ν → Text
  | .null => Text.of "null"
  | .bool b => if b then Text.of "true" else Text.of "false"
  | .number n => if JsNumber.isFinite n then JsNumber.toText n else Text.of "null"
  | .string t => quote t
  | .array items => 0x5B :: compactItems [] items ++ [0x5D]
  | .object fields => 0x7B :: compactFields [] fields ++ [0x7D]

/-- The items, each behind a comma but the first one, which has `separator` before it. -/
def compactItems (separator : Text) : List (Json ν) → Text
  | [] => []
  | item :: items => separator ++ compact item ++ compactItems [0x2C] items

def compactFields (separator : Text) : List (Text × Json ν) → Text
  | [] => []
  | (key,value) :: fields => separator ++ quote key ++ 0x3A :: compact value ++ compactFields [0x2C] fields

end

end JsonStringify

namespace JsonParse
open JsonStringify
variable {ν : Type} [JsNumber ν]

/-- A finite number whose text is a literal of it. -/
def NumberReads (n : ν) : Prop :=
  JsNumber.isFinite n = true ∧ JsNumber.ofLiteral (JsNumber.toText n) = n ∧
    ∃ part, numberPart (JsNumber.toText n) = some part ∧ numberEnds part = true

mutual

/-- A value with such numbers, and with no key twice in an object. -/
def Readable : Json ν → Prop
  | .null | .bool _ | .string _ => True
  | .number n => NumberReads n
  | .array items => ReadableItems items
  | .object fields => (fields.map Prod.fst).Nodup ∧ ReadableFields fields

def ReadableItems : List (Json ν) → Prop
  | [] => True
  | item :: items => Readable item ∧ ReadableItems items

def ReadableFields : List (Text × Json ν) → Prop
  | [] => True
  | (_,value) :: fields => Readable value ∧ ReadableFields fields

end

section Strings

lemma hexDigit_hexUnit {n : ℕ} (h : n < 16) : hexDigit (hexUnit n) = some n := by
  have hall : ∀ n < 16, hexDigit (hexUnit n) = some n := by decide
  exact hall n h

/-- The unit that comes behind the backslash stands for the one before it. -/
lemma simpleEscape_shortEscape {u letter : UInt16} (h : shortEscape u = some letter) :
    simpleEscape letter = some u ∧ (letter == 0x75) = false := by
  unfold shortEscape at h
  split_ifs at h with h8 h9 hA hC hD hsame <;> cases h
  · rw [beq_iff_eq.mp h8]
    decide
  · rw [beq_iff_eq.mp h9]
    decide
  · rw [beq_iff_eq.mp hA]
    decide
  · rw [beq_iff_eq.mp hC]
    decide
  · rw [beq_iff_eq.mp hD]
    decide
  · obtain h | h := Bool.or_eq_true _ _ |>.mp hsame <;> rw [beq_iff_eq.mp h] <;> decide

lemma step_hex {n : ℕ} (h : n < 16) (frames : List (JsonFrame ν)) (isKey : Bool) (read : Text) (digits : List ℕ) :
    step (⟨frames,.hex isKey read digits⟩ : JsonState ν) (hexUnit n) =
      some (if (digits ++ [n]).length = 4 then
        ⟨frames,.string isKey (read ++ [UInt16.ofNat ((digits ++ [n]).foldl (fun n d => 16 * n + d) 0)])⟩
      else ⟨frames,.hex isKey read (digits ++ [n])⟩) := by
  simp only [step, hexDigit_hexUnit h, Option.map_some]

/-- Four hexadecimal digits are read as one unit. -/
lemma foldlM_hex {a b c d : ℕ} (ha : a < 16) (hb : b < 16) (hc : c < 16) (hd : d < 16) (frames : List (JsonFrame ν))
    (isKey : Bool) (read rest : Text) :
    (hexUnit a :: hexUnit b :: hexUnit c :: hexUnit d :: rest).foldlM step ⟨frames,.hex isKey read []⟩ =
      rest.foldlM step ⟨frames,.string isKey (read ++ [UInt16.ofNat ([a,b,c,d].foldl (fun n d => 16 * n + d) 0)])⟩ := by
  have h1 : step (⟨frames,.hex isKey read []⟩ : JsonState ν) (hexUnit a) = some ⟨frames,.hex isKey read [a]⟩ :=
    step_hex ha frames isKey read []
  have h2 : step (⟨frames,.hex isKey read [a]⟩ : JsonState ν) (hexUnit b) = some ⟨frames,.hex isKey read [a,b]⟩ :=
    step_hex hb frames isKey read [a]
  have h3 : step (⟨frames,.hex isKey read [a,b]⟩ : JsonState ν) (hexUnit c) = some ⟨frames,.hex isKey read [a,b,c]⟩ :=
    step_hex hc frames isKey read [a,b]
  have h4 : step (⟨frames,.hex isKey read [a,b,c]⟩ : JsonState ν) (hexUnit d) =
      some ⟨frames,.string isKey (read ++ [UInt16.ofNat ([a,b,c,d].foldl (fun n d => 16 * n + d) 0)])⟩ :=
    step_hex hd frames isKey read [a,b,c]
  simp only [List.foldlM_cons, h1, h2, h3, h4, Option.bind_eq_bind, Option.bind_some]

/-- A unit of a string is read back from how it is quoted. -/
lemma foldlM_quoteUnit (u : UInt16) (frames : List (JsonFrame ν)) (isKey : Bool) (read rest : Text) :
    (quoteUnit u ++ rest).foldlM step ⟨frames,.string isKey read⟩ =
      rest.foldlM step ⟨frames,.string isKey (read ++ [u])⟩ := by
  unfold quoteUnit
  cases hshort : shortEscape u with
  | some letter =>
    obtain ⟨hsimple,hletter⟩ := simpleEscape_shortEscape hshort
    simp [step, hsimple, hletter]
  | none =>
    dsimp only
    have hquote : (u == 0x22) = false ∧ (u == 0x5C) = false := by
      unfold shortEscape at hshort
      split_ifs at hshort with h8 h9 hA hC hD hsame
      simpa using hsame
    split_ifs with hescape
    · have hlt := u.toNat_lt
      have hdigits : UInt16.ofNat ([u.toNat / 4096,u.toNat / 256 % 16,u.toNat / 16 % 16,u.toNat % 16].foldl
          (fun n d => 16 * n + d) 0) = u := by
        have hnat : [u.toNat / 4096,u.toNat / 256 % 16,u.toNat / 16 % 16,u.toNat % 16].foldl (fun n d => 16 * n + d) 0 =
            u.toNat := by
          simp only [List.foldl_cons, List.foldl_nil]
          omega
        rw [hnat, UInt16.ofNat_toNat]
      have hhex := foldlM_hex (show u.toNat / 4096 < 16 by omega) (show u.toNat / 256 % 16 < 16 by omega)
        (show u.toNat / 16 % 16 < 16 by omega) (show u.toNat % 16 < 16 by omega) frames isKey read rest
      rw [hdigits] at hhex
      rw [← hhex]
      rfl
    · have hcontrol : ¬u < 0x20 := by
        intro hlt
        exact hescape (Or.inl (UInt16.lt_iff_toNat_lt.mp hlt))
      simp [step, hquote, hcontrol]

/-- A string is read back from how its units are quoted. -/
lemma foldlM_quoteUnits (text : Text) (frames : List (JsonFrame ν)) (isKey : Bool) (read rest : Text) :
    (quoteUnits text ++ rest).foldlM step ⟨frames,.string isKey read⟩ =
      rest.foldlM step ⟨frames,.string isKey (read ++ text)⟩ := by
  induction text using quoteUnits.induct generalizing read with
  | case1 => rw [quoteUnits, List.nil_append, List.append_nil]
  | case2 u => rw [quoteUnits, foldlM_quoteUnit]
  | case3 u v text hpair ih =>
    have hplain : ∀ (w : UInt16) (read : Text), 0xD800 ≤ w.toNat →
        step (⟨frames,.string isKey read⟩ : JsonState ν) w = some ⟨frames,.string isKey (read ++ [w])⟩ := by
      intro w read hw
      have hquote : (w == 0x22) = false := beq_eq_false_iff_ne.mpr (by rintro rfl; exact absurd hw (by decide))
      have hback : (w == 0x5C) = false := beq_eq_false_iff_ne.mpr (by rintro rfl; exact absurd hw (by decide))
      have hcontrol : ¬w < 0x20 := by
        intro hlt
        have hnat : w.toNat < 0x20 := UInt16.lt_iff_toNat_lt.mp hlt
        omega
      simp [step, hquote, hback, hcontrol]
    rw [quoteUnits, if_pos hpair, List.cons_append, List.cons_append, List.foldlM_cons, hplain u read hpair.1]
    change (v :: (quoteUnits text ++ rest)).foldlM step _ = _
    rw [List.foldlM_cons, hplain v (read ++ [u]) (by omega)]
    change (quoteUnits text ++ rest).foldlM step _ = _
    rw [ih]
    simp
  | case4 u v text hpair ih =>
    rw [quoteUnits, if_neg hpair, List.append_assoc, foldlM_quoteUnit, ih]
    simp

lemma foldlM_quote (text : Text) (frames : List (JsonFrame ν)) (isKey : Bool) (rest : Text) :
    (quoteUnits text ++ [0x22] ++ rest).foldlM step (⟨frames,.string isKey []⟩ : JsonState ν) =
      (endString frames isKey text).bind (rest.foldlM step) := by
  rw [List.append_assoc, foldlM_quoteUnits, List.nil_append]
  rfl

end Strings
section Units

/-- Text without control characters in which every surrogate has its other half. -/
def Plain (text : Text) : Prop := Utf8.Paired text ∧ ∀ u ∈ text, 0x20 ≤ u.toNat

lemma plain_append {l r : Text} (hl : Plain l) (hr : Plain r) : Plain (l ++ r) :=
  ⟨hl.1.append hr.1,List.forall_mem_append.mpr ⟨hl.2,hr.2⟩⟩

lemma plain_of_ascii {text : Text} (h : text.all (fun u => decide (0x20 ≤ u.toNat) && decide (u.toNat < 0x80)) = true) :
    Plain text := by
  have hunits : ∀ u ∈ text, 0x20 ≤ u.toNat ∧ u.toNat < 0x80 := by
    intro u hu
    have hunit := List.all_eq_true.mp h u hu
    rw [Bool.and_eq_true, decide_eq_true_eq, decide_eq_true_eq] at hunit
    exact hunit
  refine ⟨Utf8.paired_of_units fun u hu => ?_,fun u hu => (hunits u hu).1⟩
  have hunit := (hunits u hu).2
  omega

lemma plain_cons {u : UInt16} {text : Text} (hu : 0x20 ≤ u.toNat ∧ u.toNat < 0x80) (h : Plain text) : Plain (u :: text) :=
  ⟨.alone (Or.inl (by omega)) h.1,List.forall_mem_cons.mpr ⟨hu.1,h.2⟩⟩

/-- The units of a number. -/
lemma numberNext_unit {part next : NumberPart} {u : UInt16} (h : numberNext part u = some next) :
    0x20 ≤ u.toNat ∧ u.toNat < 0x80 := by
  by_contra hout
  have hne : ∀ c : UInt16, 0x20 ≤ c.toNat → c.toNat < 0x80 → (u == c) = false := by
    intro c hlow hhigh
    refine beq_eq_false_iff_ne.mpr ?_
    rintro rfl
    exact hout ⟨hlow,hhigh⟩
  have hdigit : isDigit u = false := by
    rw [isDigit, Bool.and_eq_false_iff, decide_eq_false_iff_not, decide_eq_false_iff_not, UInt16.le_iff_toNat_le,
      UInt16.le_iff_toNat_le]
    change ¬0x30 ≤ u.toNat ∨ ¬u.toNat ≤ 0x39
    omega
  cases part <;> simp [numberNext, hdigit, hne 0x30 (by decide) (by decide), hne 0x2E (by decide) (by decide),
    hne 0x65 (by decide) (by decide), hne 0x45 (by decide) (by decide), hne 0x2B (by decide) (by decide),
    hne 0x2D (by decide) (by decide)] at h

lemma plain_digits {text : Text} {part part' : NumberPart} (h : text.foldlM numberNext part = some part') : Plain text := by
  induction text generalizing part with
  | nil => exact ⟨.nil,by simp⟩
  | cons u text ih =>
    rw [List.foldlM_cons] at h
    obtain ⟨next,hnext,hrest⟩ := Option.bind_eq_some_iff.mp h
    exact plain_cons (numberNext_unit hnext) (ih hrest)

lemma plain_number {text : Text} {part : NumberPart} (h : numberPart text = some part) : Plain text := by
  cases text with
  | nil => cases h
  | cons u text =>
    obtain ⟨first,hfirst,hrest⟩ := Option.bind_eq_some_iff.mp h
    have hminus : numberNext .minus u = some first ∨ u = 0x2D := by
      unfold numberStart at hfirst
      split_ifs at hfirst with hminus hzero hdigit
      · exact Or.inr (beq_iff_eq.mp hminus)
      · exact Or.inl (by rw [numberNext, if_pos hzero, ← hfirst])
      · exact Or.inl (by rw [numberNext, if_neg hzero, if_pos hdigit, ← hfirst])
    refine plain_cons ?_ (plain_digits hrest)
    obtain hunit | rfl := hminus
    · exact numberNext_unit hunit
    · decide

lemma plain_quoteUnit (u : UInt16) : Plain (quoteUnit u) := by
  unfold quoteUnit
  cases hshort : shortEscape u with
  | some letter =>
    have hletter : 0x20 ≤ letter.toNat ∧ letter.toNat < 0x80 := by
      unfold shortEscape at hshort
      split_ifs at hshort with h8 h9 hA hC hD hsame <;> cases hshort
      · decide
      · decide
      · decide
      · decide
      · decide
      · rw [Bool.or_eq_true, beq_iff_eq, beq_iff_eq] at hsame
        obtain rfl | rfl := hsame <;> decide
    exact plain_cons (by decide) (plain_cons hletter ⟨.nil,by simp⟩)
  | none =>
    have hu := u.toNat_lt
    have hhex : ∀ n < 16, 0x20 ≤ (hexUnit n).toNat ∧ (hexUnit n).toNat < 0x80 := by decide
    dsimp only
    split_ifs with hescape
    · exact plain_cons (by decide) (plain_cons (by decide) (plain_cons (hhex _ (by omega)) (plain_cons (hhex _ (by omega))
        (plain_cons (hhex _ (by omega)) (plain_cons (hhex _ (by omega)) ⟨.nil,by simp⟩)))))
    · refine ⟨.alone (by omega) .nil,fun v hv => ?_⟩
      obtain rfl := List.mem_singleton.mp hv
      omega

/-- A surrogate without its other half is escaped. -/
lemma plain_quote (text : Text) : Plain (quote text) := by
  have hunits : Plain (quoteUnits text) := by
    induction text using quoteUnits.induct with
    | case1 => exact ⟨.nil,by simp [quoteUnits]⟩
    | case2 u => exact plain_quoteUnit u
    | case3 u v rest hpair ih =>
      rw [quoteUnits, if_pos hpair]
      refine ⟨.pair hpair ih.1,List.forall_mem_cons.mpr ⟨by omega,List.forall_mem_cons.mpr ⟨by omega,ih.2⟩⟩⟩
    | case4 u v rest hpair ih =>
      rw [quoteUnits, if_neg hpair]
      exact plain_append (plain_quoteUnit u) ih
  exact plain_cons (by decide) (plain_append hunits (plain_cons (by decide) ⟨.nil,by simp⟩))

/-- `JSON.stringify(value)` has no control characters, and no surrogate without its other half. -/
theorem plain_compact {v : Json ν} (h : Readable v) : Plain (compact v) := by
  revert h
  refine @Json.rec ν (fun v => Readable v → Plain (compact v))
    (fun items => ∀ separator, Plain separator → ReadableItems items → Plain (compactItems separator items))
    (fun fields => ∀ separator, Plain separator → ReadableFields fields → Plain (compactFields separator fields))
    (fun field => Readable field.2 → Plain (compact field.2))
    ?_ ?_ ?_ ?_ ?_ ?_ ?_ ?_ ?_ ?_ ?_ v
  · intro _
    rw [compact]
    exact plain_of_ascii rfl
  · intro b _
    rw [compact]
    cases b <;> exact plain_of_ascii rfl
  · intro n hn
    rw [Readable] at hn
    obtain ⟨hfinite,-,part,hpart,-⟩ := hn
    rw [compact, if_pos hfinite]
    exact plain_number hpart
  · intro t _
    rw [compact]
    exact plain_quote t
  · intro items ih h
    rw [Readable] at h
    rw [compact]
    exact plain_cons (by decide) (plain_append (ih [] ⟨.nil,by simp⟩ h) (plain_of_ascii rfl))
  · intro fields ih h
    rw [Readable] at h
    rw [compact]
    exact plain_cons (by decide) (plain_append (ih [] ⟨.nil,by simp⟩ h.2) (plain_of_ascii rfl))
  · intro separator _ _
    rw [compactItems]
    exact ⟨.nil,by simp⟩
  · intro item items hitem hitems separator hseparator h
    rw [compactItems]
    exact plain_append (plain_append hseparator (hitem h.1)) (hitems [0x2C] (plain_of_ascii rfl) h.2)
  · intro separator _ _
    rw [compactFields]
    exact ⟨.nil,by simp⟩
  · intro field fields hfield hfields separator hseparator h
    obtain ⟨key,value⟩ := field
    rw [compactFields]
    have hvalue : Plain (0x3A :: compact value) := plain_cons (by decide) (hfield h.1)
    exact plain_append (plain_append (plain_append hseparator (plain_quote key)) hvalue)
      (hfields [0x2C] (plain_of_ascii rfl) h.2)
  · exact fun key value ih => ih

end Units
section Values

/-- What comes behind a value in an array or an object. -/
def Closer (c : UInt16) : Prop := c = 0x2C ∨ c = 0x5D ∨ c = 0x7D

/-- The machine reads a text as a value, once the next unit shows that it is over. -/
def ReadsAs (text : Text) (v : Json ν) : Prop :=
  ∀ (frames : List (JsonFrame ν)) (c : UInt16) (rest : Text), Closer c →
    (text ++ c :: rest).foldlM step ⟨frames,.value⟩ = (c :: rest).foldlM step (complete frames v)

/-- The machine reads a text as a value at its last unit. -/
def EndsAs (text : Text) (v : Json ν) : Prop :=
  ∀ (frames : List (JsonFrame ν)) (rest : Text),
    (text ++ rest).foldlM step ⟨frames,.value⟩ = rest.foldlM step (complete frames v)

lemma EndsAs.readsAs {text : Text} {v : Json ν} (h : EndsAs text v) : ReadsAs text v :=
  fun frames c rest _ => h frames (c :: rest)

lemma step_complete (frames : List (JsonFrame ν)) (v : Json ν) (c : UInt16) :
    step (complete frames v) c = afterValue (complete frames v) c := by
  cases frames with
  | nil => rfl
  | cons frame frames => cases frame <;> rfl

lemma numberNext_closer {c : UInt16} (h : Closer c) (part : NumberPart) : numberNext part c = none := by
  obtain rfl | rfl | rfl := h <;> cases part <;> rfl

lemma foldlM_digits_number {part part' : NumberPart} {text : Text} (h : text.foldlM numberNext part = some part')
    (frames : List (JsonFrame ν)) (read rest : Text) :
    (text ++ rest).foldlM step (⟨frames,.number part read⟩ : JsonState ν) =
      rest.foldlM step ⟨frames,.number part' (read ++ text)⟩ := by
  induction text generalizing part read with
  | nil =>
    cases h
    rw [List.nil_append, List.append_nil]
  | cons u text ih =>
    rw [List.foldlM_cons] at h
    obtain ⟨next,hnext,htext⟩ := Option.bind_eq_some_iff.mp h
    have hstep : step (⟨frames,.number part read⟩ : JsonState ν) u = some ⟨frames,.number next (read ++ [u])⟩ := by
      simp [step, hnext]
    rw [List.cons_append, List.foldlM_cons, hstep]
    change (text ++ rest).foldlM step _ = _
    rw [ih htext]
    simp

omit [JsNumber ν] in
lemma numberStart_plain {u : UInt16} {part : NumberPart} (h : numberStart u = some part) (frames : List (JsonFrame ν)) :
    isWhitespace u = false ∧ (u == 0x5D) = false ∧ startValue frames u = some ⟨frames,.number part [u]⟩ := by
  have hrange : u = 0x2D ∨ 0x30 ≤ u.toNat ∧ u.toNat ≤ 0x39 := by
    unfold numberStart at h
    split_ifs at h with hminus hzero hdigit
    · exact Or.inl (beq_iff_eq.mp hminus)
    · rw [beq_iff_eq.mp hzero]
      exact Or.inr (by decide)
    · simp only [isDigit, Bool.and_eq_true, decide_eq_true_eq, UInt16.le_iff_toNat_le] at hdigit
      exact Or.inr hdigit
  have hne : ∀ c : UInt16, c.toNat < 0x2D ∨ 0x39 < c.toNat → (u == c) = false := by
    intro c hc
    refine beq_eq_false_iff_ne.mpr ?_
    rintro rfl
    obtain rfl | hrange := hrange
    · exact absurd hc (by decide)
    · omega
  refine ⟨?_,hne 0x5D (by decide),?_⟩
  · simp [isWhitespace, hne 0x20 (by decide), hne 0x09 (by decide), hne 0x0A (by decide), hne 0x0D (by decide)]
  · simp [startValue, hne 0x7B (by decide), hne 0x5B (by decide), hne 0x22 (by decide), hne 0x74 (by decide),
      hne 0x66 (by decide), hne 0x6E (by decide), h]

lemma number_readsAs {n : ν} (h : NumberReads n) : ReadsAs (compact (.number n)) (.number n) := by
  obtain ⟨hfinite,hliteral,part,hpart,hends⟩ := h
  intro frames c rest hc
  rw [compact, if_pos hfinite]
  cases htext : JsNumber.toText n with
  | nil =>
    rw [htext] at hpart
    cases hpart
  | cons u text =>
    rw [htext] at hpart hliteral
    obtain ⟨first,hfirst,hnext⟩ := Option.bind_eq_some_iff.mp hpart
    obtain ⟨hspace,-,hstart⟩ := numberStart_plain hfirst frames
    have hvalue : step (⟨frames,.value⟩ : JsonState ν) u = some ⟨frames,.number first [u]⟩ := by
      simp [step, hspace, hstart]
    rw [List.cons_append, List.foldlM_cons, hvalue]
    change (text ++ c :: rest).foldlM step _ = _
    rw [foldlM_digits_number hnext, List.foldlM_cons, List.foldlM_cons, step_complete]
    simp [step, numberNext_closer hc, hends, hliteral]

lemma literal_endsAs {u : UInt16} {word : Text} {v : Json ν} (hspace : isWhitespace u = false) (hword : word ≠ [])
    (hstart : ∀ frames : List (JsonFrame ν), startValue frames u = some ⟨frames,.literal word v⟩) :
    EndsAs (u :: word) v := by
  intro frames rest
  have hvalue : step (⟨frames,.value⟩ : JsonState ν) u = some ⟨frames,.literal word v⟩ := by
    simp [step, hspace, hstart]
  rw [List.cons_append, List.foldlM_cons, hvalue]
  change (word ++ rest).foldlM step _ = _
  clear hvalue hstart
  induction word with
  | nil => exact absurd rfl hword
  | cons c word ih =>
    cases hrest : word with
    | nil => simp [step]
    | cons d more =>
      have hstep : step (⟨frames,.literal (c :: word) v⟩ : JsonState ν) c = some ⟨frames,.literal word v⟩ := by
        simp [step, hrest]
      rw [← hrest, List.cons_append, List.foldlM_cons, hstep]
      exact ih (by simp [hrest])

lemma string_endsAs (text : Text) : EndsAs (quote text) (.string text : Json ν) := by
  intro frames rest
  have hquote := foldlM_quote text frames false rest
  rw [quote, List.cons_append, List.cons_append, List.foldlM_cons]
  exact hquote

/-- How the text of a value begins. -/
lemma compact_begins {v : Json ν} (h : Readable v) :
    ∃ u rest, compact v = u :: rest ∧ isWhitespace u = false ∧ (u == 0x5D) = false := by
  cases v with
  | null => exact ⟨_,_,rfl,rfl,rfl⟩
  | bool b => cases b <;> exact ⟨_,_,rfl,rfl,rfl⟩
  | number n =>
    rw [Readable] at h
    obtain ⟨hfinite,-,part,hpart,-⟩ := h
    rw [compact, if_pos hfinite]
    cases htext : JsNumber.toText n with
    | nil =>
      rw [htext] at hpart
      cases hpart
    | cons u text =>
      rw [htext] at hpart
      obtain ⟨first,hfirst,-⟩ := Option.bind_eq_some_iff.mp hpart
      obtain ⟨hspace,hclose,-⟩ := @numberStart_plain ν u first hfirst []
      exact ⟨u,text,rfl,hspace,hclose⟩
  | string t =>
    rw [compact, quote]
    exact ⟨_,_,rfl,rfl,rfl⟩
  | array items =>
    rw [compact]
    exact ⟨_,_,rfl,rfl,rfl⟩
  | object fields =>
    rw [compact]
    exact ⟨_,_,rfl,rfl,rfl⟩

/-- What comes behind a value where an array goes on or is over. -/
lemma compactItems_begins (items : List (Json ν)) (rest : Text) :
    ∃ c more, compactItems [0x2C] items ++ 0x5D :: rest = c :: more ∧ Closer c := by
  cases items with
  | nil => exact ⟨0x5D,rest,rfl,Or.inr (Or.inl rfl)⟩
  | cons item items =>
    rw [compactItems]
    exact ⟨0x2C,_,rfl,Or.inl rfl⟩

lemma compactFields_begins (fields : List (Text × Json ν)) (rest : Text) :
    ∃ c more, compactFields [0x2C] fields ++ 0x7D :: rest = c :: more ∧ Closer c := by
  cases fields with
  | nil => exact ⟨0x7D,rest,rfl,Or.inr (Or.inr rfl)⟩
  | cons field fields =>
    rw [compactFields]
    exact ⟨0x2C,_,rfl,Or.inl rfl⟩

/-- Every item of a list is read as it is. -/
def ItemsRead (items : List (Json ν)) : Prop :=
  ∀ (frames : List (JsonFrame ν)) (before : List (Json ν)) (rest : Text),
    (compactItems [0x2C] items ++ 0x5D :: rest).foldlM step ⟨.array before :: frames,.comma⟩ =
      rest.foldlM step (complete frames (.array (before ++ items)))

lemma itemsRead_nil : ItemsRead ([] : List (Json ν)) := by
  intro frames before rest
  rw [compactItems, List.nil_append, List.foldlM_cons, List.append_nil]
  rfl

/-- One more item behind those already read. -/
lemma item_read {item : Json ν} {items : List (Json ν)} (hitem : ReadsAs (compact item) item) (hitems : ItemsRead items)
    (frames : List (JsonFrame ν)) (before : List (Json ν)) (rest : Text) :
    (compact item ++ compactItems [0x2C] items ++ 0x5D :: rest).foldlM step ⟨.array before :: frames,.value⟩ =
      rest.foldlM step (complete frames (.array (before ++ item :: items))) := by
  obtain ⟨c,more,hmore,hc⟩ := compactItems_begins items rest
  have hnext := hitems frames (before ++ [item]) rest
  rw [hmore, List.append_assoc, List.singleton_append] at hnext
  rw [List.append_assoc, hmore, hitem _ c more hc]
  exact hnext

lemma itemsRead_cons {item : Json ν} {items : List (Json ν)} (hitem : ReadsAs (compact item) item) (hitems : ItemsRead items) :
    ItemsRead (item :: items) := by
  intro frames before rest
  rw [compactItems, List.singleton_append, List.cons_append, List.cons_append, List.foldlM_cons]
  exact item_read hitem hitems frames before rest

lemma array_endsAs {items : List (Json ν)} (hread : ReadableItems items)
    (h : ∀ item rest, items = item :: rest → ReadsAs (compact item) item ∧ ItemsRead rest) :
    EndsAs (compact (.array items)) (.array items) := by
  intro frames rest
  rw [compact, List.cons_append, List.cons_append, List.foldlM_cons, List.append_assoc, List.singleton_append]
  change (compactItems [] items ++ 0x5D :: rest).foldlM step ⟨.array [] :: frames,.valueOrEnd⟩ = _
  cases items with
  | nil => rfl
  | cons item items =>
    obtain ⟨hitem,hitems⟩ := h item items rfl
    have hall := item_read hitem hitems frames [] rest
    obtain ⟨u,text,htext,hspace,hclose⟩ := compact_begins hread.1
    rw [compactItems, List.nil_append]
    rw [htext, List.cons_append, List.cons_append, List.foldlM_cons] at hall ⊢
    rw [List.nil_append] at hall
    rw [← hall]
    simp [step, hspace, hclose]

/-- Every field of a list is read as it is, behind fields with other keys. -/
def FieldsRead (fields : List (Text × Json ν)) : Prop :=
  ∀ (frames : List (JsonFrame ν)) (before : List (Text × Json ν)) (key rest : Text),
    ((before ++ fields).map Prod.fst).Nodup →
    (compactFields [0x2C] fields ++ 0x7D :: rest).foldlM step ⟨.object before key :: frames,.comma⟩ =
      rest.foldlM step (complete frames (.object (before ++ fields)))

lemma fieldsRead_nil : FieldsRead ([] : List (Text × Json ν)) := by
  intro frames before key rest _
  rw [compactFields, List.nil_append, List.foldlM_cons, List.append_nil]
  rfl

omit [JsNumber ν] in
lemma setEntry_of_notMem {key : Text} {v : Json ν} {fields : List (Text × Json ν)} (h : key ∉ fields.map Prod.fst) :
    Dictionary.setEntry key v fields = fields ++ [(key,v)] := by
  induction fields with
  | nil => rfl
  | cons field fields ih =>
    rw [List.map_cons, List.mem_cons, not_or] at h
    rw [Dictionary.setEntry, if_neg (Ne.symm h.1), ih h.2]
    rfl

/-- One more field behind those already read, from where its key is to come. -/
lemma field_read {key : Text} {v : Json ν} {fields : List (Text × Json ν)} (hv : ReadsAs (compact v) v)
    (hfields : FieldsRead fields) (frames : List (JsonFrame ν)) (before : List (Text × Json ν)) (old rest : Text)
    (hkeys : ((before ++ (key,v) :: fields).map Prod.fst).Nodup) :
    (quoteUnits key ++ [0x22] ++ 0x3A :: compact v ++ compactFields [0x2C] fields ++ 0x7D :: rest).foldlM step
        ⟨.object before old :: frames,.string true []⟩ =
      rest.foldlM step (complete frames (.object (before ++ (key,v) :: fields))) := by
  obtain ⟨c,more,hmore,hc⟩ := compactFields_begins fields rest
  have hnew : key ∉ before.map Prod.fst := by
    rw [List.map_append, List.map_cons] at hkeys
    intro hin
    exact (List.nodup_append.mp hkeys).2.2 key hin key List.mem_cons_self rfl
  have hnext := hfields frames (before ++ [(key,v)]) key rest (by rwa [List.append_assoc])
  rw [hmore, List.append_assoc, List.singleton_append] at hnext
  have hquote := foldlM_quote key (.object before old :: frames) true (0x3A :: (compact v ++ c :: more))
  have hvalue := hv (.object before key :: frames) c more hc
  rw [← hmore] at hquote
  have hcomplete : complete (.object before key :: frames) v = ⟨.object (before ++ [(key,v)]) key :: frames,.comma⟩ := by
    rw [complete, setEntry_of_notMem hnew]
  rw [hcomplete] at hvalue
  rw [← hnext, ← hvalue, ← hmore]
  simp only [List.append_assoc, List.cons_append] at hquote ⊢
  exact hquote

lemma fieldsRead_cons {key : Text} {v : Json ν} {fields : List (Text × Json ν)} (hv : ReadsAs (compact v) v)
    (hfields : FieldsRead fields) : FieldsRead ((key,v) :: fields) := by
  intro frames before old rest hkeys
  have hfield := field_read hv hfields frames before old rest hkeys
  rw [compactFields, quote]
  simp only [List.append_assoc, List.cons_append, List.nil_append] at hfield ⊢
  rw [List.foldlM_cons]
  exact hfield

lemma object_endsAs {fields : List (Text × Json ν)} (hkeys : (fields.map Prod.fst).Nodup)
    (h : ∀ key v rest, fields = (key,v) :: rest → ReadsAs (compact v) v ∧ FieldsRead rest) :
    EndsAs (compact (.object fields)) (.object fields) := by
  intro frames rest
  rw [compact, List.cons_append, List.cons_append, List.foldlM_cons, List.append_assoc, List.singleton_append]
  change (compactFields [] fields ++ 0x7D :: rest).foldlM step ⟨.object [] [] :: frames,.keyOrEnd⟩ = _
  cases fields with
  | nil => rfl
  | cons field fields =>
    obtain ⟨key,v⟩ := field
    obtain ⟨hv,hfields⟩ := h key v fields rfl
    have hfield := field_read hv hfields frames [] [] rest hkeys
    rw [compactFields, quote]
    simp only [List.append_assoc, List.cons_append, List.nil_append] at hfield ⊢
    rw [List.foldlM_cons]
    exact hfield

/-- A value is read back from its text, behind whatever is open, and at its last unit unless it is a number. -/
lemma compact_read (v : Json ν) (h : Readable v) :
    ReadsAs (compact v) v ∧ ((∀ n, v ≠ .number n) → EndsAs (compact v) v) := by
  have hends : ∀ {v : Json ν}, EndsAs (compact v) v → ReadsAs (compact v) v ∧ ((∀ n, v ≠ .number n) → EndsAs (compact v) v) :=
    fun hv => ⟨hv.readsAs,fun _ => hv⟩
  revert h
  refine @Json.rec ν (fun v => Readable v → ReadsAs (compact v) v ∧ ((∀ n, v ≠ .number n) → EndsAs (compact v) v))
    (fun items => ReadableItems items → ItemsRead items ∧
      ∀ item rest, items = item :: rest → ReadsAs (compact item) item ∧ ItemsRead rest)
    (fun fields => ReadableFields fields → FieldsRead fields ∧
      ∀ key v rest, fields = (key,v) :: rest → ReadsAs (compact v) v ∧ FieldsRead rest)
    (fun field => Readable field.2 → ReadsAs (compact field.2) field.2)
    ?_ ?_ ?_ ?_ ?_ ?_ ?_ ?_ ?_ ?_ ?_ v
  · exact fun _ => hends (literal_endsAs rfl (by decide) fun _ => rfl)
  · intro b _
    cases b
    · exact hends (literal_endsAs rfl (by decide) fun _ => rfl)
    · exact hends (literal_endsAs rfl (by decide) fun _ => rfl)
  · intro n hn
    rw [Readable] at hn
    exact ⟨number_readsAs hn,fun hno => absurd rfl (hno n)⟩
  · intro t _
    rw [compact]
    exact ⟨(string_endsAs t).readsAs,fun _ => string_endsAs t⟩
  · intro items ih h
    rw [Readable] at h
    exact hends (array_endsAs h (ih h).2)
  · intro fields ih h
    rw [Readable] at h
    exact hends (object_endsAs h.1 (ih h.2).2)
  · exact fun _ => ⟨itemsRead_nil,fun _ _ heq => by cases heq⟩
  · intro item items hitem hitems h
    have hread := (hitem h.1).1
    refine ⟨itemsRead_cons hread (hitems h.2).1,fun first rest heq => ?_⟩
    cases heq
    exact ⟨hread,(hitems h.2).1⟩
  · exact fun _ => ⟨fieldsRead_nil,fun _ _ _ heq => by cases heq⟩
  · intro field fields hfield hfields h
    obtain ⟨key,value⟩ := field
    have hread := hfield h.1
    refine ⟨fieldsRead_cons hread (hfields h.2).1,fun first other rest heq => ?_⟩
    cases heq
    exact ⟨hread,(hfields h.2).1⟩
  · exact fun key value ih h => (ih h).1

/-- `JSON.parse(JSON.stringify(value))` is the value. -/
theorem parse_compact {v : Json ν} (h : Readable v) : Json.parse (compact v) = some v := by
  by_cases hnumber : ∃ n, v = .number n
  · obtain ⟨n,rfl⟩ := hnumber
    rw [Readable] at h
    obtain ⟨hfinite,hliteral,part,hpart,hends⟩ := h
    rw [compact, if_pos hfinite]
    cases htext : JsNumber.toText n with
    | nil =>
      rw [htext] at hpart
      cases hpart
    | cons u text =>
      rw [htext] at hpart hliteral
      obtain ⟨first,hfirst,hnext⟩ := Option.bind_eq_some_iff.mp hpart
      obtain ⟨hspace,-,hstart⟩ := @numberStart_plain ν u first hfirst []
      have hvalue : step (⟨[],.value⟩ : JsonState ν) u = some ⟨[],.number first [u]⟩ := by
        simp [step, hspace, hstart]
      have hdigits := @foldlM_digits_number ν _ first part text hnext [] [u] []
      rw [List.append_nil] at hdigits
      rw [Json.parse, List.foldlM_cons, hvalue]
      change (text.foldlM step _).bind result = _
      rw [hdigits]
      simp [result, hends, hliteral]
  · have hend := (compact_read v h).2 (fun n hn => hnumber ⟨n,hn⟩) [] []
    rw [List.append_nil] at hend
    rw [Json.parse, hend]
    rfl

end Values
end JsonParse
end OmniagentPlus.Foundation
