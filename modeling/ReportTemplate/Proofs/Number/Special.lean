import ReportTemplate.Proofs.Number.Overflow

/-! Arithmetic with numbers that are not finite, and with zeros. -/

namespace ReportTemplate.Number

open Float.Model
open Float.Model.UnpackedFloat

theorem unpack_mul (x y : Float)
    : (x * y).toModel.unpack
      = (Float.Model.pack (x.toModel.unpack.mul .binary64 y.toModel.unpack)).unpack :=
  rfl

theorem unpack_div (x y : Float)
    : (x / y).toModel.unpack
      = (Float.Model.pack (x.toModel.unpack.div .binary64 y.toModel.unpack)).unpack :=
  rfl

/-- Numbers that are not finite are NaN and the infinities. -/
theorem unpack_of_not_isFinite {x : Float} (h : x.isFinite = false)
    : x.toModel.unpack = .notANumber ∨ ∃ sign, x.toModel.unpack = .infinity sign := by
  change x.toModel.unpack.isFinite = false at h
  cases hu : x.toModel.unpack with
  | notANumber => exact .inl rfl
  | infinity sign => exact .inr ⟨sign, rfl⟩
  | zero sign => rw [hu] at h; cases h
  | finite sign m e hp => rw [hu] at h; cases h

/-- A product with a factor that is not finite is not finite. -/
theorem isFinite_mul_of_not {x y : Float} (h : x.isFinite = false ∨ y.isFinite = false)
    : (x * y).isFinite = false := by
  have hpack : ∀ {u : UnpackedFloat}, (u = .notANumber ∨ ∃ sign, u = .infinity sign) →
      (Float.Model.pack u).unpack.isFinite = false := by
    intro u hu
    rcases hu with rfl | ⟨sign, rfl⟩
    · rw [unpack_pack .notANumber]
      rfl
    · rw [unpack_pack (.infinity sign)]
      rfl
  refine hpack ?_
  rcases h with h | h
  · rcases unpack_of_not_isFinite h with hu | ⟨sign, hu⟩ <;> rw [hu] <;>
      cases y.toModel.unpack <;> simp [UnpackedFloat.mul]
  · rcases unpack_of_not_isFinite h with hu | ⟨sign, hu⟩ <;> rw [hu] <;>
      cases x.toModel.unpack <;> simp [UnpackedFloat.mul]

/-- The factors of a finite product are finite. -/
theorem isFinite_of_mul {x y : Float} (h : (x * y).isFinite = true)
    : x.isFinite = true ∧ y.isFinite = true := by
  constructor <;> by_contra hf <;> rw [Bool.not_eq_true] at hf
  · rw [isFinite_mul_of_not (.inl hf)] at h
    cases h
  · rw [isFinite_mul_of_not (.inr hf)] at h
    cases h

/-- The quotient of two numbers that are not finite is NaN. -/
theorem isNaN_div_of_not_isFinite {x y : Float} (hx : x.isFinite = false)
    (hy : y.isFinite = false)
    : (x / y).isNaN = true := by
  have hdiv : x.toModel.unpack.div .binary64 y.toModel.unpack = .notANumber := by
    rcases unpack_of_not_isFinite hx with hu | ⟨sign, hu⟩ <;>
      rcases unpack_of_not_isFinite hy with hv | ⟨other, hv⟩ <;> rw [hu, hv] <;> rfl
  change (x / y).toModel.unpack.isNaN = true
  rw [unpack_div, hdiv, unpack_pack .notANumber]
  rfl

/-- Dividing by a finite number other than zero makes neither NaN nor a finite number of one that
is not.
-/
theorem div_of_exact_ne_zero {x y : Float} (hy : y.isFinite = true) (hne : exact y ≠ 0)
    : (x.isNaN = false → (x / y).isNaN = false)
      ∧ (x.isFinite = false → (x / y).isFinite = false) := by
  change (x.toModel.unpack.isNaN = false → (x / y).toModel.unpack.isNaN = false)
    ∧ (x.toModel.unpack.isFinite = false → (x / y).toModel.unpack.isFinite = false)
  obtain ⟨other, hv⟩ | ⟨other, n, d, hn, hv⟩ := unpack_of_isFinite hy
  · exact absurd (exact_of_zero hv) hne
  · rw [unpack_div]
    cases hu : x.toModel.unpack with
    | notANumber =>
        rw [hv, UnpackedFloat.div, unpack_pack .notANumber]
        exact ⟨id, id⟩
    | infinity sign =>
        rw [hv, UnpackedFloat.div, unpack_pack (.infinity _)]
        exact ⟨id, id⟩
    | zero sign =>
        rw [hv, UnpackedFloat.div, unpack_pack (.zero _)]
        exact ⟨id, id⟩
    | finite sign m e hp =>
        obtain ⟨q, least, accuracy, twice, hround, -⟩ := exists_div hu hv
        refine ⟨fun _ => isNaN_unpack_pack ?_, fun h => absurd h.symm Bool.false_ne_true⟩
        rw [← hu, hround, roundWithAccuracy]
        dsimp only
        split <;> rfl

-----------------------------------------------------------------------------------------
-- Zeros
-----------------------------------------------------------------------------------------

/-- Holds for the two zeros. -/
def IsZero (x : Float) : Prop :=
  ∃ sign, x.toModel.unpack = .zero sign

/-- A finite number times zero is zero. -/
theorem isZero_mul {x y : Float} (hx : x.isFinite = true) (hy : IsZero y) : IsZero (x * y) := by
  obtain ⟨other, hv⟩ := hy
  obtain ⟨sign, hu⟩ | ⟨sign, m, e, hp, hu⟩ := unpack_of_isFinite hx
  · exact ⟨sign * other, by rw [unpack_mul, hu, hv, UnpackedFloat.mul, unpack_pack (.zero _)]⟩
  · exact ⟨sign * other, by rw [unpack_mul, hu, hv, UnpackedFloat.mul, unpack_pack (.zero _)]⟩

/-- Zero divided by zero is NaN. -/
theorem isNaN_div_of_isZero {x y : Float} (hx : IsZero x) (hy : IsZero y)
    : (x / y).isNaN = true := by
  obtain ⟨sign, hu⟩ := hx
  obtain ⟨other, hv⟩ := hy
  change (x / y).toModel.unpack.isNaN = true
  rw [unpack_div, hu, hv, UnpackedFloat.div, unpack_pack .notANumber]
  rfl

/-- A finite number divided by one that is not finite is zero, or not finite either. -/
theorem isZero_div {x y : Float} (hx : x.isFinite = true) (hy : y.isFinite = false)
    : IsZero (x / y) ∨ (x / y).isFinite = false := by
  obtain hv | ⟨other, hv⟩ := unpack_of_not_isFinite hy
  · right
    have hdiv : x.toModel.unpack.div .binary64 .notANumber = .notANumber := by
      cases x.toModel.unpack <;> rfl
    change (x / y).toModel.unpack.isFinite = false
    rw [unpack_div, hv, hdiv, unpack_pack .notANumber]
    rfl
  · left
    obtain ⟨sign, hu⟩ | ⟨sign, m, e, hp, hu⟩ := unpack_of_isFinite hx
    · exact ⟨_, by rw [unpack_div, hu, hv, UnpackedFloat.div, unpack_pack (.zero _)]⟩
    · exact ⟨_, by rw [unpack_div, hu, hv, UnpackedFloat.div, unpack_pack (.zero _)]⟩

end ReportTemplate.Number
