import ReportTemplate.Number.Exact
import ReportTemplate.Proofs.Condition.Word

/-! Texts that are read as numbers, by their forms.
The forms are stated on whole texts: a numeral is digits with at most one point among or around
them and an optional exponent, and besides numerals three words name numbers that are not finite.
-/

namespace ReportTemplate

namespace Number

open Condition

-----------------------------------------------------------------------------------------
-- Signs
-----------------------------------------------------------------------------------------

/-- An optional sign. -/
def IsSign (sign : List Char) : Prop :=
  sign = [] ∨ sign = ['+'] ∨ sign = ['-']

/-- Holds for the texts of a form with an optional sign in front. -/
def IsSigned (IsForm : List Char → Prop) (text : List Char) : Prop :=
  ∃ sign rest, text = sign ++ rest ∧ IsSign sign ∧ IsForm rest

/-- Holds for the forms none of whose texts starts with a sign. -/
def HasNoSign (IsForm : List Char → Prop) : Prop :=
  ∀ rest, IsForm rest → rest.head? ≠ some '+' ∧ rest.head? ≠ some '-'

/-- A form without signs is found behind the sign that is split off, by the cases of the sign. -/
theorem isSigned_iff {IsForm : List Char → Prop} (hn : HasNoSign IsForm) {text : List Char}
    : IsSigned IsForm text ↔ IsForm (splitSign text).2 := by
  constructor
  · rintro ⟨sign, rest, rfl, rfl | rfl | rfl, hf⟩
    · obtain ⟨hplus, hminus⟩ := hn rest hf
      unfold splitSign
      split
      · next he => exact absurd (congrArg List.head? he) hminus
      · next he => exact absurd (congrArg List.head? he) hplus
      · exact hf
    · exact hf
    · exact hf
  · intro hf
    unfold splitSign at hf
    split at hf
    · next rest => exact ⟨['-'], rest, rfl, .inr (.inr rfl), hf⟩
    · next rest => exact ⟨['+'], rest, rfl, .inr (.inl rfl), hf⟩
    · exact ⟨[], text, rfl, .inl rfl, hf⟩

-----------------------------------------------------------------------------------------
-- Numerals
-----------------------------------------------------------------------------------------

/-- A numeral without a sign: digits, a fraction and an exponent, with at least one digit before
or behind the point.
-/
def IsUnsignedNumeral (text : List Char) : Prop :=
  ∃ whole fraction exponent, text = whole ++ (fraction ++ exponent)
    ∧ whole.all isDigit = true ∧ IsFraction fraction ∧ IsExponent exponent
    ∧ ∃ c ∈ whole ++ fraction, isDigit c = true

/-- A numeral: an optional sign in front of digits with at most one point and an exponent. -/
def IsNumeral (text : List Char) : Prop :=
  IsSigned IsUnsignedNumeral text

theorem hasNoSign_isUnsignedNumeral : HasNoSign IsUnsignedNumeral := by
  rintro rest ⟨whole, fraction, exponent, rfl, hw, hf, -, d, hd, -⟩
  cases whole with
  | cons first whole =>
      rw [List.all_cons, Bool.and_eq_true] at hw
      constructor <;> rintro ⟨⟩ <;> exact absurd hw.1 (by decide)
  | nil =>
      rcases hf with rfl | ⟨digits, rfl, -⟩
      · simp at hd
      · constructor <;> rintro ⟨⟩

/-- A row of digits has a digit in it unless it is empty. -/
theorem exists_isDigit_iff {digits : List Char} (h : digits.all isDigit = true)
    : (∃ c ∈ digits, isDigit c = true) ↔ digits ≠ [] := by
  constructor
  · rintro ⟨c, hc, -⟩
    exact List.ne_nil_of_mem hc
  · intro hne
    obtain ⟨c, rest, rfl⟩ := List.exists_cons_of_ne_nil hne
    exact ⟨c, by simp, List.all_eq_true.mp h c (by simp)⟩

/-- Digits with no point behind them need an exponent there, if anything. -/
theorem unsignedNumeral_isSome_of_digits {whole rest : List Char} (hw : whole.all isDigit = true)
    (hs : Stops isDigit rest) (hp : rest.head? ≠ some '.')
    : (unsignedNumeral (whole ++ rest)).isSome = true
      ↔ (∃ c ∈ whole, isDigit c = true) ∧ IsExponent rest := by
  obtain ⟨ht, hd⟩ := takeWhile_append_of_stops hw hs
  rw [exists_isDigit_iff hw, ← exponentPart_isSome_iff, unsignedNumeral, ht, hd]
  split
  next fraction behind hcut =>
    split at hcut
    · exact absurd rfl hp
    · obtain ⟨rfl, rfl⟩ := Prod.mk.inj hcut
      cases whole <;> simp

/-- Digits around a point need an exponent behind them, if anything. -/
theorem unsignedNumeral_isSome_of_point {whole digits rest : List Char}
    (hw : whole.all isDigit = true) (ha : digits.all isDigit = true) (hs : Stops isDigit rest)
    : (unsignedNumeral (whole ++ ('.' :: digits ++ rest))).isSome = true
      ↔ (∃ c ∈ whole ++ '.' :: digits, isDigit c = true) ∧ IsExponent rest := by
  have hpoint : Stops isDigit ('.' :: (digits ++ rest)) := by
    rintro c ⟨⟩
    rfl
  obtain ⟨ht, hd⟩ := takeWhile_append_of_stops hw hpoint
  obtain ⟨htake, hdrop⟩ := takeWhile_append_of_stops ha hs
  have hdigit : (∃ c ∈ whole ++ '.' :: digits, isDigit c = true) ↔ whole ≠ [] ∨ digits ≠ [] := by
    rw [← exists_isDigit_iff hw, ← exists_isDigit_iff ha]
    simp [isDigit, or_and_right, exists_or]
  rw [hdigit, ← exponentPart_isSome_iff, unsignedNumeral, List.cons_append, ht, hd]
  simp only [htake, hdrop]
  cases whole <;> cases digits <;> simp

/-- The texts without a sign that have a decimal are the numerals: the digits in front are the
longest row, those behind a point as well, and the rest is the exponent.
-/
theorem unsignedNumeral_isSome_iff {text : List Char}
    : (unsignedNumeral text).isSome = true ↔ IsUnsignedNumeral text := by
  constructor
  · intro h
    have htext := List.takeWhile_append_dropWhile (p := isDigit) (l := text)
    have hwhole : (text.takeWhile isDigit).all isDigit = true := List.all_takeWhile
    have hstops := stops_dropWhile isDigit text
    -- The text is cut where the reader cuts it; a point decides whether digits follow.
    generalize text.takeWhile isDigit = whole at htext hwhole
    generalize text.dropWhile isDigit = rest at htext hstops
    subst htext
    by_cases hp : rest.head? = some '.'
    · obtain ⟨after, rfl⟩ := List.head?_eq_some_iff.mp hp
      have hafter := List.takeWhile_append_dropWhile (p := isDigit) (l := after)
      have hdigits : (after.takeWhile isDigit).all isDigit = true := List.all_takeWhile
      rw [← hafter, ← List.cons_append] at h ⊢
      obtain ⟨hdigit, he⟩ :=
        (unsignedNumeral_isSome_of_point hwhole hdigits (stops_dropWhile isDigit after)).mp h
      exact ⟨whole, _, _, rfl, hwhole, .inr ⟨_, rfl, hdigits⟩, he, hdigit⟩
    · obtain ⟨hdigit, he⟩ := (unsignedNumeral_isSome_of_digits hwhole hstops hp).mp h
      exact ⟨whole, [], rest, rfl, hwhole, .inl rfl, he, by simpa using hdigit⟩
  · rintro ⟨whole, fraction, exponent, rfl, hw, hf, he, hdigit⟩
    have hs : Stops isDigit exponent := stops_isDigit (.inl rfl) he
    rcases hf with rfl | ⟨digits, rfl, ha⟩
    · rw [List.append_nil] at hdigit
      have hp : exponent.head? ≠ some '.' := by
        rcases he with rfl | ⟨mark, sign, digits, rfl, rfl | rfl, -⟩ <;> simp
      exact (unsignedNumeral_isSome_of_digits hw hs hp).mpr ⟨hdigit, he⟩
    · exact (unsignedNumeral_isSome_of_point hw ha hs).mpr ⟨hdigit, he⟩

/-- The texts that have a value as numerals are the numerals. -/
theorem numeral_isSome_iff {text : List Char} : (numeral text).isSome = true ↔ IsNumeral text := by
  rw [IsNumeral, isSigned_iff hasNoSign_isUnsignedNumeral, ← unsignedNumeral_isSome_iff]
  simp [numeral]

instance (text : List Char) : Decidable (IsNumeral text) :=
  decidable_of_iff _ numeral_isSome_iff

/-- An integer is a numeral without a point and an exponent. -/
theorem isNumeral_of_integer {text : List Char} (h : (integer text).isSome = true)
    : IsNumeral text := by
  obtain ⟨hne, hd⟩ := integer_isSome_iff.mp h
  obtain ⟨c, hc, hdigit⟩ := (exists_isDigit_iff hd).mpr hne
  rw [IsNumeral, isSigned_iff hasNoSign_isUnsignedNumeral]
  exact ⟨_, [], [], by simp, hd, .inl rfl, .inl rfl, c, by simpa using hc, hdigit⟩

/-- No integer is read from a text that is no numeral. -/
theorem int64_eq_none {text : List Char} (h : ¬ IsNumeral text) : int64 text = none := by
  rw [int64, Option.not_isSome_iff_eq_none.mp (mt isNumeral_of_integer h)]
  rfl

-----------------------------------------------------------------------------------------
-- Names of numbers
-----------------------------------------------------------------------------------------

/-- A word that names a number, in any case: `inf`, `infinity` or `nan`. -/
def IsNumberWord (word : List Char) : Prop :=
  String.ofList (word.map Char.toLower) ∈ ["inf", "infinity", "nan"]

/-- A name of a number: an optional sign in front of a word. -/
def IsNumberName (text : List Char) : Prop :=
  IsSigned IsNumberWord text

instance (word : List Char) : Decidable (IsNumberWord word) :=
  inferInstanceAs (Decidable (_ ∈ _))

theorem hasNoSign_isNumberWord : HasNoSign IsNumberWord := by
  intro rest h
  have hlower : rest.map Char.toLower ∈ [['i', 'n', 'f'], "infinity".toList, ['n', 'a', 'n']] := by
    simpa [IsNumberWord, ← String.toList_inj] using h
  constructor <;> intro he <;> obtain ⟨after, rfl⟩ := List.head?_eq_some_iff.mp he <;>
    simp at hlower

instance (text : List Char) : Decidable (IsNumberName text) :=
  decidable_of_iff _ (isSigned_iff hasNoSign_isNumberWord).symm

theorem namedNumber_isSome_iff {word : List Char}
    : (namedNumber word).isSome = true ↔ IsNumberWord word := by
  unfold namedNumber IsNumberWord
  split <;> simp_all

/-- No number with a name is finite, with either sign. -/
theorem isFinite_of_namedNumber {word : List Char} {x : Float} (h : namedNumber word = some x)
    (negative : Bool)
    : isFinite (signed negative x) = false := by
  have hall : ∀ negative, isFinite (signed negative (1 / 0)) = false
      ∧ isFinite (signed negative (0 / 0)) = false := by
    decide +kernel
  unfold namedNumber at h
  split at h
  · obtain rfl := Option.some.inj h
    exact (hall negative).1
  · obtain rfl := Option.some.inj h
    exact (hall negative).1
  · obtain rfl := Option.some.inj h
    exact (hall negative).2
  · simp at h

-----------------------------------------------------------------------------------------
-- Numbers
-----------------------------------------------------------------------------------------

/-- A name of a number is read as a number that is not finite. -/
theorem exists_float_of_isNumberName {text : List Char} (h : IsNumberName text)
    : ∃ n, float text = some n ∧ isFinite n = false := by
  rw [IsNumberName, isSigned_iff hasNoSign_isNumberWord, ← namedNumber_isSome_iff] at h
  obtain ⟨x, hx⟩ := Option.isSome_iff_exists.mp h
  refine ⟨signed (splitSign text).1 x, ?_, isFinite_of_namedNumber hx _⟩
  rw [float]
  simp only [hx]

/-- Texts that are read as numbers are numerals and names of numbers. -/
theorem float_isSome_iff {text : List Char}
    : (float text).isSome = true ↔ IsNumeral text ∨ IsNumberName text := by
  rw [IsNumberName, isSigned_iff hasNoSign_isNumberWord, ← namedNumber_isSome_iff,
    ← numeral_isSome_iff, float]
  cases hx : namedNumber (splitSign text).2 <;> simp [hx]

end Number

namespace Condition

/-- The numbers of conditions are numerals that start with a digit behind their sign. -/
theorem IsNumber.isNumeral {text : List Char} (h : IsNumber text) : Number.IsNumeral text := by
  obtain ⟨minus, digits, fraction, exponent, rfl, hm, ⟨hne, hd⟩, hf, he⟩ := h
  obtain ⟨c, hc, hdigit⟩ := (Number.exists_isDigit_iff hd).mpr hne
  refine ⟨minus, _, rfl, ?_, digits, fraction, exponent, rfl, hd, hf, he, c, ?_, hdigit⟩
  · exact hm.imp_right .inr
  · exact List.mem_append_left fraction hc

/-- Every text of a number has a value, since it is a numeral. -/
theorem float_isSome {text : List Char} (h : IsNumber text)
    : (Number.float text).isSome = true :=
  Number.float_isSome_iff.mpr (.inl h.isNumeral)

end Condition

end ReportTemplate
