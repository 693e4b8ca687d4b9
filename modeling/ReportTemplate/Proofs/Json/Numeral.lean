import ReportTemplate.Json.Token
import ReportTemplate.Number.Notation
import ReportTemplate.Proofs.Number.Arithmetic

/-! Integers written as JSON numerals are read as the same integers.
Their digits fit into the gathered 64 bits, so the only arithmetic is a product with one.
-/

namespace ReportTemplate

namespace Number

-----------------------------------------------------------------------------------------
-- Digits of integers
-----------------------------------------------------------------------------------------

theorem isDigit_eq (c : Char) : isDigit c = c.isDigit := by
  simp only [isDigit, Char.isDigit, Char.le_def]

theorem natText_ne_nil (n : Nat) : natText n ≠ [] :=
  Nat.toDigits_ne_nil

theorem all_isDigit_natText (n : Nat) : (natText n).all isDigit = true := by
  rw [List.all_eq_true]
  intro c hc
  rw [isDigit_eq]
  exact Nat.isDigit_of_mem_toDigits (by decide) (by decide) hc

/-- The digits of a number have its value. -/
theorem digitsValue_natText (n : Nat) : digitsValue (natText n) = n :=
  Nat.ofDigitChars_ten_toDigits

/-- Only the text of zero starts with a zero, by induction on the number. -/
theorem head?_natText {n : Nat} (h : 0 < n) : (natText n).head? ≠ some '0' := by
  induction n using Nat.strong_induction_on with
  | h n ih =>
      rw [natText, Nat.toDigits_eq_if (by decide)]
      split
      · have hdigit : ∀ m < 10, 0 < m → m.digitChar ≠ '0' := by decide
        simpa using hdigit n ‹n < 10› h
      · have hfirst := ih (n / 10) (by omega) (by omega)
        have hne := natText_ne_nil (n / 10)
        rw [natText] at hfirst hne
        rwa [List.head?_append, Option.or_of_isSome (List.isSome_head?.mpr hne)]

end Number

namespace Json

open Number

namespace Numeral

/-- Values that fit are gathered whole, by induction on the digits. -/
theorem gather_eq {value : Nat} {digits : List Char}
    (h : digits.foldl (fun n c => 10 * n + digitValue c) value < gatherLimit)
    : gather value digits = (digits.foldl (fun n c => 10 * n + digitValue c) value, 0) := by
  induction digits generalizing value with
  | nil => rfl
  | cons c digits ih =>
      have hgrow : ∀ (rest : List Char) (n : Nat),
          n ≤ rest.foldl (fun n c => 10 * n + digitValue c) n := by
        intro rest
        induction rest with
        | nil => exact Nat.le_refl
        | cons d rest ih => exact fun n => (by omega : n ≤ 10 * n + digitValue d).trans (ih _)
      have hfits := (hgrow digits _).trans_lt h
      rw [gather, if_pos hfits, ih h]
      rfl

/-- A row of digits without a leading zero is a numeral without further parts. -/
theorem ofText?_digits {digits : List Char} (hd : digits.all isDigit = true)
    (hw : digits = ['0'] ∨ (digits ≠ [] ∧ digits.head? ≠ some '0')) (negative : Bool)
    : ofText? (if negative then '-' :: digits else digits)
      = some ⟨negative, digits, [], false, []⟩ := by
  have htake : digits.takeWhile isDigit = digits :=
    List.takeWhile_eq_self_iff.mpr (List.all_eq_true.mp hd)
  have hdrop : digits.dropWhile isDigit = [] :=
    List.dropWhile_eq_nil_iff.mpr (List.all_eq_true.mp hd)
  cases negative with
  | true => simp [ofText?, htake, hdrop, hw, exponentDigits]
  | false =>
      have hsign : ∀ rest, digits ≠ '-' :: rest := by
        rintro rest rfl
        simp [isDigit] at hd
      rw [if_neg (by decide), ofText?]
      · simp [htake, hdrop, hw, exponentDigits]
      · exact hsign

/-- Digits of less than 53 bits are read as the number of their value. -/
theorem magnitude?_digits {digits : List Char} (h : digitsValue digits < 2 ^ 53) (negative : Bool)
    : ∃ x, magnitude? ⟨negative, digits, [], false, []⟩ = some x
        ∧ IsWhole x (digitsValue digits) := by
  have hone : (tenTo 0).toModel.unpack = .finite .positive (2 ^ 52) (-52) (by decide) := rfl
  have hwhole := (isWhole_ofNat h).mul_one hone
  have hinf := isInf_of_isFinite (hwhole.isFinite (by simpa using h))
  have hgather : gather 0 digits = (digitsValue digits, 0) :=
    gather_eq (h.trans (by decide))
  have hempty : digitsValue [] = 0 := rfl
  refine ⟨_, ?_, hwhole⟩
  rw [magnitude?, significand]
  simp [hgather, gather, scaleUp?, hinf, hempty, exponentLimit, powerLimit]

end Numeral

/-- The text of an integer of less than 53 bits is read as a number that is equal to it. -/
theorem number?_intText {z : Int} (h : z.natAbs < 2 ^ 53)
    : ∃ x, number? (intText z) = some x ∧ IsWhole x z := by
  have hzero : natText z.natAbs = ['0']
      ∨ (natText z.natAbs ≠ [] ∧ (natText z.natAbs).head? ≠ some '0') := by
    rcases z.natAbs.eq_zero_or_pos with hz | hz
    · exact .inl (by rw [hz]; rfl)
    · exact .inr ⟨natText_ne_nil _, head?_natText hz⟩
  have hread := Numeral.ofText?_digits (all_isDigit_natText z.natAbs) hzero
  have hvalue := digitsValue_natText z.natAbs
  obtain ⟨x, hx, hw⟩ := Numeral.magnitude?_digits (hvalue.symm ▸ h) (decide (z < 0))
  rw [hvalue] at hw
  have htext : intText z
      = if decide (z < 0) then '-' :: natText z.natAbs else natText z.natAbs := by
    rw [intText]
    simp
  refine ⟨signed (decide (z < 0)) x, ?_, ?_⟩
  · rw [number?, htext, hread, Option.bind_some, Numeral.toFloat?, hx, Option.map_some]
  · rw [signed]
    by_cases hz : z < 0
    · rw [if_pos (decide_eq_true hz)]
      have hneg := hw.neg
      rwa [show -(z.natAbs : Int) = z by omega] at hneg
    · rw [if_neg (by simpa using hz)]
      rwa [show (z.natAbs : Int) = z by omega] at hw

end Json

end ReportTemplate
