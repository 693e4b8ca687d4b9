import ReportTemplate.Proofs.Filter.Chaining
import ReportTemplate.Proofs.Number.HalfAway
import ReportTemplate.Proofs.Number.OutputText
import ReportTemplate.Proofs.Number.PowerOfTen

/-! What becomes of a finite number that is rounded to a count of decimals.
The number is scaled by a power of ten and back. Beyond the 308th power this gives NaN, and before
it a finite number unless the scaled number or the result overflows.
-/

namespace ReportTemplate.Filter

open Number Template

/-- Holds for arguments that give a count of decimals: a number in front, or none and zero. -/
def GivesDecimals (arguments : List Value) (d : Float) : Prop :=
  arguments[0]? = some (.number d)
  ∨ (arguments[0]? = none ∨ arguments[0]? = some .null) ∧ d = 0

theorem GivesDecimals.numberArgument_eq {arguments : List Value} {d : Float}
    (h : GivesDecimals arguments d) (name : String)
    : ∃ decimals, numberArgument arguments 0 name = .ok decimals ∧ decimals.getD 0 = d := by
  rw [numberArgument]
  rcases h with h | ⟨h | h, rfl⟩ <;> rw [h]
  · exact ⟨some d, rfl, rfl⟩
  · exact ⟨none, rfl, rfl⟩
  · exact ⟨none, rfl, rfl⟩

/-- The power of ten that scales a number with decimals. -/
def scale (d : Float) : Float :=
  power 10 (truncateInt32 d)

/-- A number with decimals, scaled and rounded to a whole number. -/
def scaledWhole (n d : Float) : Float :=
  roundHalfAway (n * scale d)

/-- Counts of decimals are truncated, so those of less than 309 are below it. -/
theorem natAbs_truncateInt32_le_iff {d : Float} (h : d.isFinite = true)
    : (truncateInt32 d).natAbs ≤ 308 ↔ |exact d| < 309 := by
  obtain ⟨⟨numerator, denominator⟩, hr⟩ := exists_ratio? h
  obtain ⟨hpos, hm⟩ := mul_gridUnit_of_ratio? hr
  have hden : (0 : ℚ) < denominator := by exact_mod_cast hpos
  have hunit : (0 : ℚ) < gridUnit := by exact_mod_cast gridUnit_pos
  have hplace : (numerator : ℚ) * gridUnit = place d * denominator := by exact_mod_cast hm
  have hvalue : |exact d| = numerator.natAbs / denominator := by
    have hquotient : exact d = numerator / denominator := by
      rw [exact, div_eq_div_iff hunit.ne' hden.ne', hplace]
    rw [hquotient, abs_div, Nat.abs_cast, Nat.cast_natAbs, Int.cast_abs]
  have hnat : numerator.natAbs / denominator < 309 ↔ |exact d| < 309 := by
    rw [hvalue, div_lt_iff₀ hden, Nat.div_lt_iff_lt_mul hpos]
    exact_mod_cast Iff.rfl
  have habs : (numerator.tdiv denominator).natAbs = numerator.natAbs / denominator := by
    rw [Int.natAbs_tdiv, Int.natAbs_natCast]
    rfl
  rw [← hnat, ← habs, truncateInt32, toIntBy, hr]
  dsimp only
  rw [clamp]
  omega

/-- Describes a finite number rounded to a finite count of decimals. -/
structure IsRounding (n d rounded : Float) : Prop where
  isNaN_iff : rounded.isNaN = true ↔ 309 ≤ |exact d|
  isFinite_iff
    : rounded.isFinite = true
      ↔ |exact d| < 309
        ∧ |exact n * exact (scale d)| < overflowBound
        ∧ |exact (scaledWhole n d) / exact (scale d)| < overflowBound

/-- Scaling by a power of ten that is zero or not finite, and back, leaves NaN. -/
theorem isNaN_rescaled {n factor : Float} (hn : n.isFinite = true)
    (hf : IsZero factor ∨ factor.isFinite = false)
    : (roundHalfAway (n * factor) / factor).isNaN = true := by
  rcases hf with hz | hf
  · exact isNaN_div_of_isZero (isZero_roundHalfAway (isZero_mul hn hz)) hz
  · have hproduct := isFinite_mul_of_not (x := n) (.inr hf)
    rw [roundHalfAway_of_not_isFinite hproduct]
    exact isNaN_div_of_not_isFinite hproduct hf

/-- Scaling by any other factor and back makes no NaN, and a finite number unless it overflows. -/
theorem isFinite_rescaled_iff {n factor : Float} (hn : n.isFinite = true)
    (hf : factor.isFinite = true) (hne : exact factor ≠ 0)
    : (roundHalfAway (n * factor) / factor).isNaN = false
      ∧ ((roundHalfAway (n * factor) / factor).isFinite = true
        ↔ |exact n * exact factor| < overflowBound
          ∧ |exact (roundHalfAway (n * factor)) / exact factor| < overflowBound) := by
  obtain ⟨hnan, hinfinite⟩ := div_of_exact_ne_zero (x := roundHalfAway (n * factor)) hf hne
  refine ⟨hnan (isNaN_roundHalfAway (isNaN_mul hn hf)), ?_⟩
  rw [← isFinite_mul_iff hn hf, ← isFinite_roundHalfAway (n * factor)]
  cases hw : (roundHalfAway (n * factor)).isFinite with
  | false => simp [hinfinite hw]
  | true => rw [isFinite_div_iff hw hf hne, and_iff_right rfl]

theorem isRounding {n d : Float} (hn : n.isFinite = true) (hd : d.isFinite = true)
    : IsRounding n d (scaledWhole n d / scale d) := by
  rw [scaledWhole]
  by_cases h : |exact d| < 309
  · obtain ⟨hf, hne⟩ := power_ten_of_le ((natAbs_truncateInt32_le_iff hd).mpr h)
    obtain ⟨hnan, hfinite⟩ := isFinite_rescaled_iff hn hf hne
    refine ⟨iff_of_false ?_ (not_le.mpr h), ?_⟩
    · rw [scale, hnan]
      exact Bool.false_ne_true
    · rw [scaledWhole, scale, and_iff_right h]
      exact hfinite
  · have hlt := mt (natAbs_truncateInt32_le_iff hd).mp h
    have hnan := isNaN_rescaled hn (power_ten_of_lt (not_le.mp hlt))
    refine ⟨iff_of_true hnan (not_lt.mp h), iff_of_false ?_ fun hb => h hb.1⟩
    intro hf
    have hnot := isNaN_of_isFinite hf
    rw [scale, hnan] at hnot
    cases hnot

/-- A finite number is rounded to a number with every finite count of decimals, and between double
braces it is replaced by the text of that number, which is a numeral when the number is finite.
-/
theorem round_isRounding {n d : Float} {arguments : List Value} (hn : n.isFinite = true)
    (hd : d.isFinite = true) (ha : GivesDecimals arguments d)
    : ∃ rounded, round (.number n) arguments = .ok (.number rounded)
        ∧ IsRounding n d rounded
        ∧ (IsNumeral (Value.number rounded).outputChars ↔ rounded.isFinite = true)
        ∧ ∀ {registry : Registry} {scope : Scope} {base : Operand} {operands : List Operand}
            {inside : List Char},
            registry.filters.lookup "round" = some round
            → base.eval scope = .number n
            → operands.map (·.eval scope) = arguments
            → Expression.read? inside = some ⟨base, [⟨"round", operands⟩]⟩
            → Fragment.render registry scope (.braced inside)
              = ⟨(Value.number rounded).outputChars, []⟩ := by
  obtain ⟨decimals, hdecimals, hvalue⟩ := ha.numberArgument_eq "decimals"
  have hround : round (.number n) arguments = .ok (.number (scaledWhole n d / scale d)) := by
    rw [round, hdecimals, ← hvalue]
    rfl
  refine ⟨_, hround, isRounding hn hd, isNumeral_plain_iff, ?_⟩
  intro registry scope base operands inside hlookup hbase hoperands hread
  have happly : FilterCall.apply registry scope (.number n) ⟨"round", operands⟩
      = pure (.number (scaledWhole n d / scale d)) := by
    rw [FilterCall.apply]
    dsimp only
    rw [hoperands, Registry.apply, hlookup]
    dsimp only
    rw [hround]
  rw [render_of_read? registry scope hread, Expression.eval, hbase]
  dsimp only
  rw [List.foldlM_cons, happly]
  rfl

/-- Two decimals of a number: the text is a numeral, so the number is finite and nothing overflows.
-/
theorem round_twoDecimals
    : ∃ rounded, round (.number 3.14159) [.number 2] = .ok (.number rounded)
        ∧ rounded.isFinite = true
        ∧ |exact 3.14159 * exact (scale 2)| < overflowBound
        ∧ Fragment.render .builtins { data := .map [] } (.braced " 3.14159 | round(2) ".toList)
          = ⟨"3.14".toList, []⟩ := by
  obtain ⟨rounded, hround, hrounding, hnumeral, hrender⟩ :=
    round_isRounding (n := 3.14159) (d := 2) (by decide +kernel) (by decide +kernel)
      (.inl (show [Value.number 2][0]? = _ from rfl))
  have htext : (Value.number rounded).outputChars = "3.14".toList := by
    have hshown : (round (.number 3.14159) [.number 2]).map Value.outputChars
        = .ok "3.14".toList := by decide +kernel
    rw [hround] at hshown
    exact Except.ok.inj hshown
  have hfinite := hnumeral.mp (by rw [htext]; decide)
  refine ⟨rounded, hround, hfinite, (hrounding.isFinite_iff.mp hfinite).2.1, ?_⟩
  rw [← htext]
  exact hrender rfl rfl rfl rfl

/-- With 400 decimals the power of ten is infinite, so a number becomes NaN. -/
theorem round_overflowing
    : (1.5 : Float).isFinite = true
      ∧ (400 : Float).isFinite = true
      ∧ (round (.number 1.5) [.number 400]).map Value.output = .ok "NaN"
      ∧ (interpolate .builtins { data := .map [] }
          "\x7b\x7b 1.5 | round(400) \x7d\x7d".toList).value = "NaN".toList
      ∧ ¬ IsNumeral "NaN".toList := by
  decide +kernel

end ReportTemplate.Filter
