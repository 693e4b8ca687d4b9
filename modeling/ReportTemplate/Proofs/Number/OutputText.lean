import ReportTemplate.Proofs.Json.Numeral
import ReportTemplate.Proofs.Number.Numeral
import ReportTemplate.Proofs.Number.Special

/-! The output text of numbers, which is a numeral exactly for finite ones. -/

namespace ReportTemplate.Number

open Condition

/-- A row of digits is a numeral. -/
theorem isUnsignedNumeral_of_digits {digits : List Char} (hd : digits.all isDigit = true)
    (hne : digits ≠ [])
    : IsUnsignedNumeral digits := by
  obtain ⟨c, hc, hdigit⟩ := (exists_isDigit_iff hd).mpr hne
  exact ⟨digits, [], [], by simp, hd, .inl rfl, .inl rfl, c, by simpa using hc, hdigit⟩

/-- A minus sign or none is an optional sign. -/
theorem isNumeral_of_isUnsignedNumeral {text : List Char} (h : IsUnsignedNumeral text)
    (negative : Bool)
    : IsNumeral ((if negative then ['-'] else []) ++ text) := by
  cases negative with
  | false => exact ⟨[], text, rfl, .inl rfl, h⟩
  | true => exact ⟨['-'], text, rfl, .inr (.inr rfl), h⟩

theorem isNumeral_intText (z : Int) : IsNumeral (intText z) := by
  have htext : intText z = (if decide (z < 0) then ['-'] else []) ++ natText z.natAbs := by
    rw [intText]
    by_cases h : z < 0 <;> simp [h]
  rw [htext]
  exact isNumeral_of_isUnsignedNumeral
    (isUnsignedNumeral_of_digits (all_isDigit_natText _) (natText_ne_nil _)) _

/-- A decimal in positional form is a numeral: its digits with zeros behind them, or with a point
among them and zeros in front.
-/
theorem isUnsignedNumeral_positionalText (d : Decimal)
    : IsUnsignedNumeral (positionalText false d) := by
  have hdigits := all_isDigit_natText d.digits
  have hne := natText_ne_nil d.digits
  have hzeros : ∀ count, (List.replicate count '0').all isDigit = true := by
    intro count
    rw [List.all_replicate]
    simp [isDigit]
  rw [positionalText]
  dsimp only
  split
  · rw [if_neg Bool.false_ne_true, List.append_nil]
    have hall : (natText d.digits ++ List.replicate d.exponent.toNat '0').all isDigit = true := by
      rw [List.all_append, hdigits, hzeros]
      rfl
    exact isUnsignedNumeral_of_digits hall (by simp [hne])
  · generalize hpadded : List.replicate _ '0' ++ natText d.digits = padded
    generalize padded.length - _ = count
    have hall : padded.all isDigit = true := by
      rw [← hpadded, List.all_append, hdigits, hzeros]
      rfl
    have hsome : padded ≠ [] := by
      rw [← hpadded]
      simp [hne]
    have hcut := List.take_append_drop count padded
    obtain ⟨c, hc, hdigit⟩ := (exists_isDigit_iff hall).mpr hsome
    rw [← hcut, List.all_append, Bool.and_eq_true] at hall
    refine ⟨_, _, [], by rw [List.append_nil], hall.1, .inr ⟨_, rfl, hall.2⟩, .inl rfl, c, ?_,
      hdigit⟩
    rw [← hcut, List.mem_append] at hc
    exact List.mem_append.mpr (hc.imp_right (List.mem_cons_of_mem _))

/-- The output text of a number is a numeral exactly when the number is finite, since the others
have names.
-/
theorem isNumeral_plain_iff {x : Float}
    : IsNumeral (outputStyle.plain x) ↔ x.isFinite = true := by
  cases hf : x.isFinite with
  | false =>
      refine iff_of_false ?_ Bool.false_ne_true
      rw [Style.plain, integer?, ratio?]
      rcases unpack_of_not_isFinite hf with hu | ⟨sign, hu⟩
      · rw [Style.text, hu]
        decide
      · rw [Style.text, hu]
        cases sign <;> decide
  | true =>
      refine iff_of_true ?_ rfl
      rw [Style.plain]
      split
      · exact isNumeral_intText _
      · have hdecimal : ∀ d, IsUnsignedNumeral (outputStyle.decimal d) :=
          isUnsignedNumeral_positionalText
        rw [Style.text]
        obtain ⟨sign, hu⟩ | ⟨sign, m, e, hp, hu⟩ := unpack_of_isFinite hf <;> rw [hu] <;>
          exact isNumeral_of_isUnsignedNumeral (hdecimal _) _

end ReportTemplate.Number
