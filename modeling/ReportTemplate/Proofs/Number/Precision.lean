import ReportTemplate.Proofs.Number.Overflow

/-! The precision of products.
A product of numbers that are at least one differs from the exact one by at most a share of it, the
52nd negative power of two, unless it overflows.
-/

namespace ReportTemplate.Number

open Float.Model
open Float.Model.UnpackedFloat

/-- The share of a place by which rounding moves it at most, as a count of places. -/
theorem roundPoint_error (n : Nat)
    : 2 ^ 52 * roundPoint n ≤ 2 ^ 52 * n + n ∧ 2 ^ 52 * n ≤ 2 ^ 52 * roundPoint n + n := by
  by_cases hlog : n.log2 ≤ 52
  · have hlt : n < 2 ^ 53 := Nat.lt_log2_self.trans_le (Nat.pow_le_pow_right (by decide) (by omega))
    have hself := roundPoint_of_lt 0 hlt
    rw [pow_zero, mul_one] at hself
    rw [hself]
    exact ⟨Nat.le_add_right _ _, Nat.le_add_right _ _⟩
  · have hn : n ≠ 0 := by
      rintro rfl
      exact hlog (by decide)
    have hunit : 2 ^ 52 * 2 ^ (n.log2 - 52) ≤ n := by
      rw [← pow_add, Nat.add_sub_cancel' (by omega)]
      exact Nat.log2_self_le hn
    have hpos := Nat.two_pow_pos (n.log2 - 52)
    obtain ⟨hlow, hhigh⟩ := divideHalfEven_bounds n (2 ^ (n.log2 - 52))
    rw [roundPoint]
    generalize 2 ^ (n.log2 - 52) = unit at *
    have hfloor := Nat.div_mul_le_self n unit
    have hceil := Nat.lt_mul_of_div_lt (Nat.lt_succ_self (n / unit)) hpos
    have hl := Nat.mul_le_mul_right unit hlow
    have hh := Nat.mul_le_mul_right unit hhigh
    rw [Nat.succ_mul] at hceil
    rw [Nat.succ_mul] at hh
    constructor <;> omega

/-- Holds for finite numbers that are at least one. -/
structure IsAtLeastOne (x : Float) : Prop where
  finite : x.isFinite = true
  one_le : 1 ≤ exact x

theorem IsAtLeastOne.pos {x : Float} (h : IsAtLeastOne x) : 0 < exact x :=
  zero_lt_one.trans_le h.one_le

/-- Such a number has a mantissa, and places to spare behind it. -/
theorem IsAtLeastOne.unpack {x : Float} (h : IsAtLeastOne x)
    : ∃ m e hp, x.toModel.unpack = .finite .positive m e hp ∧ -52 ≤ e
      ∧ exact x = m * 2 ^ e ∧ (2 ^ 52 ≤ m ∨ e = -1074) := by
  have hone := h.one_le
  obtain ⟨sign, hu⟩ | ⟨sign, m, e, hp, hu⟩ := unpack_of_isFinite h.finite
  · rw [exact_of_zero hu] at hone
    exact absurd hone (by decide)
  · have hc := isCanonical_unpack x.toModel
    have habs := abs_exact hu
    rw [abs_of_pos (by linarith)] at habs
    rw [hu] at hc
    cases hc with
    | finite hm hl hle hs =>
        have hsign : sign = .positive := by
          cases sign with
          | positive => rfl
          | negative =>
              have hneg : exact x ≤ 0 := by
                rw [exact, place, hu, point, Sign.apply]
                have hplace : (0 : ℚ) ≤ gridPoint m e := Nat.cast_nonneg _
                push_cast
                exact div_nonpos_of_nonpos_of_nonneg (by linarith) (Nat.cast_nonneg _)
              linarith
        refine ⟨m, e, hp, by rw [← hsign]; exact hu, ?_, habs, hs⟩
        by_contra hlt
        have hpow : (2 : ℚ) ^ e ≤ 2 ^ (-53 : Int) := zpow_le_zpow_right₀ one_le_two (by omega)
        have hmant : (m : ℚ) < 2 ^ 53 := by exact_mod_cast hm
        have hsmall : (m : ℚ) * 2 ^ e < 1 := by
          calc
            (m : ℚ) * 2 ^ e ≤ m * 2 ^ (-53 : Int) := by gcongr
            _ < 2 ^ 53 * 2 ^ (-53 : Int) := by gcongr
            _ = 1 := by norm_num
        linarith

/-- The greatest share of a value that rounding takes or adds. -/
def roundingShare : ℚ :=
  1 / 2 ^ 52

/-- The place of a finite product is the exact one, rounded. -/
theorem IsAtLeastOne.place_mul {x y : Float} (hx : IsAtLeastOne x) (hy : IsAtLeastOne y)
    (hf : (x * y).isFinite = true)
    : ∃ n : Nat, place (x * y) = roundPoint n ∧ (n : ℚ) = exact x * exact y * gridUnit := by
  obtain ⟨m, e, hp, hu, he, hxv, hfull⟩ := hx.unpack
  obtain ⟨n, d, hq, hv, hd, hyv, -⟩ := hy.unpack
  have hbits : 2 ^ 52 ≤ m * n ∨ e + d = -1074 :=
    .inl ((hfull.resolve_right (by omega)).trans (Nat.le_mul_of_pos_right m hq))
  obtain ⟨-, hpoint⟩ := point_roundWithAccuracy .positive (Nat.mul_pos hp hq)
    (by omega : -1074 ≤ e + d) hbits
  have hmul : (x * y).toModel.unpack
      = (Float.Model.pack
          (roundWithAccuracy .binary64 .positive (m * n) (e + d) .exact)).unpack := by
    change (Float.Model.pack (x.toModel.unpack.mul .binary64 y.toModel.unpack)).unpack = _
    rw [hu, hv]
    rfl
  rw [nearestPlace_apply, ← hmul] at hpoint
  have hfar := (isFinite_iff (isCanonical_unpack (x * y).toModel) (isNaN_of_isFinite hf)).1.mp hf
  rw [hpoint, natAbs_apply] at hfar
  refine ⟨gridPoint (m * n) (e + d), ?_, ?_⟩
  · rw [place, hpoint, Sign.apply]
    omega
  · rw [hxv, hyv, gridUnit_eq, gridPoint_eq _ (by omega), zpow_add₀ two_ne_zero, Nat.cast_mul]
    ring

/-- A finite product differs from the exact one by at most a share of it, and is at least one. -/
theorem IsAtLeastOne.mul {x y : Float} (hx : IsAtLeastOne x) (hy : IsAtLeastOne y)
    (hf : (x * y).isFinite = true)
    : IsAtLeastOne (x * y) ∧ exact (x * y) ≤ exact x * exact y * (1 + roundingShare)
      ∧ exact x * exact y * (1 - roundingShare) ≤ exact (x * y) := by
  obtain ⟨n, hplace, hn⟩ := hx.place_mul hy hf
  have hunit : (0 : ℚ) < gridUnit := by exact_mod_cast gridUnit_pos
  have hvalue : exact (x * y) * gridUnit = roundPoint n := by
    rw [exact, hplace, Int.cast_natCast, div_mul_cancel₀ _ hunit.ne']
  obtain ⟨hhigh, hlow⟩ := roundPoint_error n
  have hhighQ : (2 ^ 52 : ℚ) * roundPoint n ≤ 2 ^ 52 * n + n := by exact_mod_cast hhigh
  have hlowQ : (2 ^ 52 : ℚ) * n ≤ 2 ^ 52 * roundPoint n + n := by exact_mod_cast hlow
  have hone : gridUnit ≤ roundPoint n := by
    have hself : roundPoint gridUnit = gridUnit := roundPoint_gridPoint_self (by decide) 0
    have hge : gridUnit ≤ n := by
      have hprod := one_le_mul_of_one_le_of_one_le hx.one_le hy.one_le
      have hcast : (gridUnit : ℚ) ≤ n := by
        rw [hn]
        exact le_mul_of_one_le_left hunit.le hprod
      exact_mod_cast hcast
    rw [← hself]
    exact roundPoint_le hge
  have honeQ : (gridUnit : ℚ) ≤ roundPoint n := by exact_mod_cast hone
  rw [← hvalue] at hhighQ hlowQ honeQ
  rw [hn] at hhighQ hlowQ
  refine ⟨⟨hf, ?_⟩, ?_, ?_⟩
  · exact le_of_mul_le_mul_right (by rwa [one_mul]) hunit
  · refine le_of_mul_le_mul_right ?_ hunit
    rw [roundingShare]
    linarith
  · refine le_of_mul_le_mul_right ?_ hunit
    rw [roundingShare]
    linarith

end ReportTemplate.Number
