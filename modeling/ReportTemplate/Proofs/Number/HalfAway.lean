import ReportTemplate.Proofs.Number.Special

/-! Rounding to whole numbers, halves away from zero.
The result is finite exactly when the rounded number is: the greatest finite numbers are whole, and
the whole number of any other one has few bits.
-/

namespace ReportTemplate.Number

open Float.Model
open Float.Model.UnpackedFloat

/-- A number of more than 53 bits gets 53 zeros behind it before it is rounded. -/
theorem toModel_ofNat {n : Nat} (h : ¬ n < 2 ^ 53)
    : (Float.ofNat n).toModel
      = Float.Model.pack (roundWithAccuracy .binary64 .positive (n <<< 53 * 1) (-53) .exact) := by
  have hne : n ≠ 0 := by omega
  rw [Float.ofNat, OfScientific.ofScientific, instOfScientificFloat]
  dsimp only
  rw [Float.ofScientific, dif_neg (by omega)]
  dsimp only
  rw [Float.Model.ofScientific, UnpackedFloat.ofScientific, dif_neg hne, if_neg (by decide),
    if_neg (by simp), if_pos (by decide), UnpackedFloat.mul]
  rfl

/-- A natural number has a finite number exactly when it is below the bound. -/
theorem isFinite_ofNat_iff {n : Nat}
    : (Float.ofNat n).isFinite = true ↔ (n : ℚ) < overflowBound := by
  by_cases hn : n < 2 ^ 53
  · have hwhole := isWhole_ofNat hn
    have hf := hwhole.isFinite (by rwa [Int.natAbs_natCast])
    have hlt := abs_exact_lt hf
    rw [hwhole.exact_eq, Int.cast_natCast, Nat.abs_cast] at hlt
    exact iff_of_true hf hlt
  · have hfull : 2 ^ 52 ≤ n <<< 53 * 1 := by
      rw [Nat.shiftLeft_eq]
      omega
    have hdoubled : (doubled (.ofMantissaAndAccuracy (n <<< 53 * 1) .exact) : ℚ)
        = 2 * (n * 2 ^ 53) := by
      change ((2 * (n <<< 53 * 1) + 0 : Nat) : ℚ) = _
      rw [Nat.shiftLeft_eq]
      push_cast
      ring
    have hvalue : 2 * ((n : ℚ) * 2 ^ 53) * 2 ^ (-53 : Int) = 2 * n := by
      rw [mul_assoc, mul_assoc, ← zpow_natCast, ← zpow_add₀ two_ne_zero]
      norm_num
    change (Float.ofNat n).toModel.unpack.isFinite = true ↔ _
    rw [toModel_ofNat hn, isFinite_pack_roundWithAccuracy _ hdoubled.le (by rw [hdoubled]; linarith)
      (.inl hfull), hvalue]
    exact mul_lt_mul_iff_right₀ two_pos

/-- The whole number nearest to a magnitude is below the bound too: the magnitude itself where it
has no fraction, and of at most 53 bits elsewhere.
-/
theorem nearest_lt_overflowBound {x : Float} {sign : Sign} {m : Nat} {e : Int} {hp : 0 < m}
    (hu : x.toModel.unpack = .finite sign m e hp)
    : (((2 * (m * 2 ^ e.toNat) + 2 ^ (-e).toNat) / (2 * 2 ^ (-e).toNat) : Nat) : ℚ)
      < overflowBound := by
  have hf : x.isFinite = true := by
    change x.toModel.unpack.isFinite = true
    rw [hu]
    rfl
  by_cases he : 0 ≤ e
  · have hwhole : (2 * (m * 2 ^ e.toNat) + 1) / (2 * 1) = m * 2 ^ e.toNat := by omega
    have hvalue : ((m * 2 ^ e.toNat : Nat) : ℚ) = |exact x| := by
      rw [abs_exact hu, Nat.cast_mul, Nat.cast_pow, ← zpow_natCast, Int.toNat_of_nonneg he,
        Nat.cast_two]
    rw [show (-e).toNat = 0 by omega, pow_zero, hwhole, hvalue]
    exact abs_exact_lt hf
  · have hc := isCanonical_unpack x.toModel
    have hm : m < 2 ^ 53 := by
      rw [hu] at hc
      cases hc
      assumption
    have hpos := Nat.two_pow_pos (-e).toNat
    rw [show e.toNat = 0 by omega, pow_zero, mul_one]
    generalize 2 ^ (-e).toNat = denominator at *
    have hlt : (2 * m + denominator) / (2 * denominator) < 2 ^ 53 := by
      rw [Nat.div_lt_iff_lt_mul (by omega)]
      omega
    exact isFinite_ofNat_iff.mp ((isWhole_ofNat hlt).isFinite (by rwa [Int.natAbs_natCast]))

/-- A finite number is rounded to a natural number below the bound or its opposite, and a zero to
zero.
-/
theorem exists_roundHalfAway {x : Float} (h : x.isFinite = true)
    : ∃ n : Nat, (n : ℚ) < overflowBound
        ∧ (IsZero x → n = 0)
        ∧ (roundHalfAway x = Float.ofNat n ∨ roundHalfAway x = -Float.ofNat n) := by
  have hsplit : ∀ (negative : Bool) (y : Float),
      (if negative then -y else y) = y ∨ (if negative then -y else y) = -y := by
    intro negative y
    cases negative
    · exact .inl rfl
    · exact .inr rfl
  obtain ⟨sign, hu⟩ | ⟨sign, m, e, hp, hu⟩ := unpack_of_isFinite h
  · refine ⟨0, by simpa using overflowBound_pos, fun _ => rfl, ?_⟩
    rw [roundHalfAway, ratio?, hu]
    exact hsplit _ _
  · refine ⟨_, nearest_lt_overflowBound hu, ?_, ?_⟩
    · rintro ⟨other, hz⟩
      rw [hu] at hz
      cases hz
    · rw [roundHalfAway, ratio?, hu]
      dsimp only
      rw [← Nat.cast_mul, natAbs_apply]
      exact hsplit _ _

theorem roundHalfAway_of_not_isFinite {x : Float} (h : x.isFinite = false)
    : roundHalfAway x = x := by
  rw [roundHalfAway, ratio?]
  rcases unpack_of_not_isFinite h with hu | ⟨sign, hu⟩ <;> rw [hu]

theorem isFinite_neg (x : Float) : (-x).isFinite = x.isFinite := by
  change (-x).toModel.unpack.isFinite = x.toModel.unpack.isFinite
  rw [unpack_neg]
  cases x.toModel.unpack <;> rfl

/-- Rounding to whole numbers keeps finite numbers finite, and others as they are. -/
theorem isFinite_roundHalfAway (x : Float) : (roundHalfAway x).isFinite = x.isFinite := by
  cases h : x.isFinite with
  | false => rw [roundHalfAway_of_not_isFinite h, h]
  | true =>
      obtain ⟨n, hlt, -, hr | hr⟩ := exists_roundHalfAway h <;> rw [hr]
      · exact isFinite_ofNat_iff.mpr hlt
      · rw [isFinite_neg]
        exact isFinite_ofNat_iff.mpr hlt

/-- Rounding to whole numbers makes no NaN. -/
theorem isNaN_roundHalfAway {x : Float} (h : x.isNaN = false)
    : (roundHalfAway x).isNaN = false := by
  cases hf : x.isFinite with
  | false => rwa [roundHalfAway_of_not_isFinite hf]
  | true => exact isNaN_of_isFinite ((isFinite_roundHalfAway x).trans hf)

theorem isZero_roundHalfAway {x : Float} (h : IsZero x) : IsZero (roundHalfAway x) := by
  obtain ⟨sign, hu⟩ := h
  have hf : x.isFinite = true := by
    change x.toModel.unpack.isFinite = true
    rw [hu]
    rfl
  obtain ⟨n, -, hn, hr | hr⟩ := exists_roundHalfAway hf <;> rw [hr, hn ⟨sign, hu⟩]
  · exact ⟨.positive, rfl⟩
  · exact ⟨.negative, rfl⟩

end ReportTemplate.Number
