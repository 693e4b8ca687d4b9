import ReportTemplate.Proofs.Number.Rounding

/-! Sums, products and whole numbers on the grid.
Adding a finite number keeps the order of two others, finite numbers have no NaN among their
products, and whole numbers below the 53rd power of two are told apart by their places.
-/

namespace ReportTemplate.Number

open Float.Model
open Float.Model.UnpackedFloat

-----------------------------------------------------------------------------------------
-- Sums
-----------------------------------------------------------------------------------------

/-- Finite magnitudes with the smaller of two exponents. -/
theorem apply_gridPoint (sign : Sign) (m : Nat) {e least : Int} (hle : least ≤ e)
    (hl : -1074 ≤ least)
    : sign.apply (m <<< (e - least).toNat : Nat) * 2 ^ (least + 1074).toNat
      = sign.apply (gridPoint m e) := by
  have hleast : e - ((e - least).toNat : Nat) = least := by omega
  have hpoint := gridPoint_shiftLeft m (e - least).toNat (e := e) (by omega)
  rw [hleast] at hpoint
  rw [← hpoint, gridPoint]
  cases sign
  · rw [Sign.apply, Sign.apply, neg_mul]
    push_cast
    rfl
  · rw [Sign.apply, Sign.apply]
    push_cast
    rfl

/-- The sum of finite forms has the place nearest to the sum of their places, and the sum of
infinity and a finite form is that infinity.
-/
theorem point_add {u v : UnpackedFloat} (hu : IsCanonical u) (hv : IsCanonical v)
    (hn : u.isNaN = false) (hf : v.isFinite = true)
    : let w := (Float.Model.pack (u.add .binary64 v)).unpack
      w.isNaN = false
      ∧ point w = if u.isFinite then nearestPlace (point u + point v) else point u := by
  -- One of the forms is the sum where the other one is zero.
  have hself : ∀ {w : UnpackedFloat}, IsCanonical w → w.isNaN = false →
      (Float.Model.pack w).unpack.isNaN = false
        ∧ point (Float.Model.pack w).unpack = nearestPlace (point w) := by
    intro w hw hn
    rw [unpack_pack hw]
    exact ⟨hn, (nearestPlace_point hw).symm⟩
  have hinfinity : ∀ sign, (Float.Model.pack (.infinity sign)).unpack.isNaN = false
      ∧ point (Float.Model.pack (.infinity sign)).unpack = point (.infinity sign) := by
    intro sign
    rw [unpack_pack (.infinity sign)]
    exact ⟨rfl, rfl⟩
  cases hv with
  | notANumber => cases hf
  | infinity other => cases hf
  | zero other =>
      cases hu with
      | notANumber => cases hn
      | infinity sign => exact hinfinity sign
      | zero sign =>
          rw [UnpackedFloat.add]
          split
          · exact hself (.zero sign) rfl
          · exact hself (.zero .positive) rfl
      | @finite sign m e hp hm hl hu hs =>
          have h := hself (w := .finite sign m e hp) (.finite hm hl hu hs) rfl
          rwa [← Int.add_zero (point (.finite sign m e hp))] at h
  | @finite other n d hq hb hd hx ht =>
      have hfinite : IsCanonical (.finite other n d hq) := .finite hb hd hx ht
      cases hu with
      | notANumber => cases hn
      | infinity sign => exact hinfinity sign
      | zero sign =>
          have h := hself hfinite rfl
          rwa [← Int.zero_add (point (.finite other n d hq))] at h
      | @finite sign m e hp hm hl hu hs =>
          have h := point_normalize
            (sign.apply (m <<< (e - min e d).toNat) + other.apply (n <<< (d - min e d).toNat))
            (show -1074 ≤ min e d by omega) .positive
          rw [add_mul, apply_gridPoint _ _ (by omega) (by omega),
            apply_gridPoint _ _ (by omega) (by omega)] at h
          exact h

/-- Sums with one finite number are not NaN. -/
theorem isNaN_add {x c : Float} (hx : x.isNaN = false) (hc : c.isFinite = true)
    : (x + c).isNaN = false :=
  (point_add (isCanonical_unpack x.toModel) (isCanonical_unpack c.toModel) hx hc).1

/-- Adding one finite number to two others keeps their order. -/
theorem add_le_add_right {x y c : Float} (h : x ≤ y) (hc : c.isFinite = true)
    : x + c ≤ y + c := by
  obtain ⟨⟨hx, hy⟩, hp⟩ := le_iff.mp h
  refine le_iff.mpr ⟨⟨isNaN_add hx hc, isNaN_add hy hc⟩, ?_⟩
  have hplace : ∀ {z : Float}, z.isNaN = false → place (z + c)
      = if z.isFinite then nearestPlace (place z + place c) else place z := fun hz =>
    (point_add (isCanonical_unpack _) (isCanonical_unpack c.toModel) hz hc).2
  have hfinite : ∀ {z : Float}, z.isNaN = false →
      (z.isFinite = true ↔ (place z).natAbs < farPoint) ∧ (place z).natAbs ≤ farPoint := fun hz =>
    isFinite_iff (isCanonical_unpack _) hz
  obtain ⟨hxf, hxl⟩ := hfinite hx
  obtain ⟨hyf, hyl⟩ := hfinite hy
  have hxb := nearestPlace_bounds (place x + place c)
  have hyb := nearestPlace_bounds (place y + place c)
  rw [hplace hx, hplace hy]
  simp only [hxf, hyf]
  split <;> split
  · exact nearestPlace_le (by omega)
  · omega
  · omega
  · exact hp

-----------------------------------------------------------------------------------------
-- Products
-----------------------------------------------------------------------------------------

/-- The product of finite numbers is not NaN. -/
theorem isNaN_mul {x y : Float} (hx : x.isFinite = true) (hy : y.isFinite = true)
    : (x * y).isNaN = false := by
  refine isNaN_unpack_pack ?_
  obtain ⟨sign, hu⟩ | ⟨sign, m, d, hm, hu⟩ := unpack_of_isFinite hx
  · obtain ⟨other, hv⟩ | ⟨other, n, e, hn, hv⟩ := unpack_of_isFinite hy
    · rw [hu, hv]
      rfl
    · rw [hu, hv]
      rfl
  · obtain ⟨other, hv⟩ | ⟨other, n, e, hn, hv⟩ := unpack_of_isFinite hy
    · rw [hu, hv]
      rfl
    · rw [hu, hv, UnpackedFloat.mul, roundWithAccuracy]
      dsimp only
      split <;> rfl

-----------------------------------------------------------------------------------------
-- Whole numbers
-----------------------------------------------------------------------------------------

/-- Holds for numbers that are equal to an integer. -/
def IsWhole (x : Float) (z : Int) : Prop :=
  x.isNaN = false ∧ place x = z * gridUnit

theorem apply_neg (sign : Sign) (n : Nat) : (-sign).apply n = -sign.apply n := by
  cases sign with
  | negative => exact (Int.neg_neg n).symm
  | positive => rfl

theorem point_neg (u : UnpackedFloat) : point u.neg = -point u := by
  cases u with
  | notANumber => rfl
  | infinity sign => exact apply_neg sign farPoint
  | zero sign => rfl
  | finite sign m e hp => exact apply_neg sign (gridPoint m e)

theorem IsCanonical.neg {u : UnpackedFloat} (h : IsCanonical u) : IsCanonical u.neg := by
  cases h with
  | notANumber => exact .notANumber
  | infinity sign => exact .infinity _
  | zero sign => exact .zero _
  | finite hm hl hu hn => exact .finite hm hl hu hn

theorem unpack_neg (x : Float) : (-x).toModel.unpack = x.toModel.unpack.neg :=
  unpack_pack (isCanonical_unpack x.toModel).neg

/-- The opposite of a number has the opposite place. -/
theorem IsWhole.neg {x : Float} {z : Int} (h : IsWhole x z) : IsWhole (-x) (-z) := by
  obtain ⟨hn, hp⟩ := h
  have hnan : x.toModel.unpack.neg.isNaN = x.toModel.unpack.isNaN := by
    cases x.toModel.unpack <;> rfl
  refine ⟨?_, ?_⟩
  · change (-x).toModel.unpack.isNaN = false
    rw [unpack_neg, hnan]
    exact hn
  · rw [place, unpack_neg, point_neg, neg_mul, ← hp, place]

theorem isWhole_toFloat {n : Nat} (h : n < 2 ^ 53) : IsWhole n.toUInt64.toFloat n := by
  have hn : n.toUInt64.toNat = n := by
    rw [Nat.toUInt64_eq, UInt64.toNat_ofNat', Nat.mod_eq_of_lt (by omega)]
  have hnear := nearestPlace_apply .positive (gridPoint n 0)
  rw [roundPoint_gridPoint_self h,
    min_eq_left (gridPoint_lt_farPoint h (by decide) (by decide)).le] at hnear
  obtain ⟨hnan, hpoint⟩ := point_normalize n (show (-1074 : Int) ≤ 0 by decide) .positive
  have hplace : (n * 2 ^ (0 + 1074 : Int).toNat : Int)
      = Sign.positive.apply (gridPoint n 0 : Nat) := by
    rw [Sign.apply, gridPoint, Nat.cast_mul, Nat.cast_pow]
    rfl
  rw [hplace, hnear, Sign.apply, gridPoint_zero, Nat.cast_mul] at hpoint
  have hunpack : n.toUInt64.toFloat.toModel.unpack
      = (Float.Model.pack
          (UnpackedFloat.normalize .binary64 n.toUInt64.toNat 0 .positive)).unpack := rfl
  rw [hn] at hunpack
  refine ⟨?_, ?_⟩
  · change n.toUInt64.toFloat.toModel.unpack.isNaN = false
    rw [hunpack]
    exact hnan
  · rw [place, hunpack]
    exact hpoint

/-- Multiplying a form of at least one unit by one keeps its place: such a form has places to spare
behind its mantissa.
-/
theorem point_mul_one {u : UnpackedFloat} {z : Int} {p : 0 < 2 ^ 52} (hu : IsCanonical u)
    (hn : u.isNaN = false) (hz : point u = z * gridUnit)
    : let w := (Float.Model.pack
          (u.mul .binary64 (.finite .positive (2 ^ 52) (-52) p))).unpack
      w.isNaN = false ∧ point w = point u := by
  have hsign : ∀ sign : Sign, sign * .positive = sign := by
    intro sign
    cases sign <;> rfl
  cases hu with
  | notANumber => cases hn
  | infinity sign =>
      rw [UnpackedFloat.mul, hsign, unpack_pack (.infinity sign)]
      exact ⟨rfl, rfl⟩
  | zero sign =>
      rw [UnpackedFloat.mul, hsign, unpack_pack (.zero sign)]
      exact ⟨rfl, rfl⟩
  | @finite sign m e hp hm hl hu hs =>
      have hform : IsCanonical (.finite sign m e hp) := .finite hm hl hu hs
      have hunit : gridPoint (2 ^ 52) (-52) = gridUnit := by
        have hexponent : (0 + 1074 : Int).toNat = 52 + (-52 + 1074 : Int).toNat := rfl
        rw [gridUnit, gridPoint, gridPoint, hexponent, pow_add, one_mul]
      -- A smaller exponent has magnitudes below one unit.
      have hle : -52 ≤ e := by
        by_contra hlt
        have hsmall := gridPoint_lt_of_lt hm hl (Nat.le_refl (2 ^ 52)) (by omega : e < -52)
        have hpos : 0 < gridPoint m e := gridPoint_pos hp
        have habs : gridPoint m e = z.natAbs * gridUnit := by
          have h := congrArg Int.natAbs hz
          rwa [point, natAbs_apply, Int.natAbs_mul, Int.natAbs_natCast] at h
        rw [hunit] at hsmall
        rcases z.natAbs.eq_zero_or_pos with hzero | hpositive
        · rw [hzero, Nat.zero_mul] at habs
          exact absurd habs hpos.ne'
        · rw [habs] at hsmall
          exact absurd hsmall (Nat.not_lt.mpr (Nat.le_mul_of_pos_left _ hpositive))
      have hshift : gridPoint (m * 2 ^ 52) (e + -52) = gridPoint m e := by
        have h := gridPoint_shiftLeft m 52 (e := e) (by omega)
        rwa [Nat.shiftLeft_eq] at h
      have h := point_roundWithAccuracy sign (m := m * 2 ^ 52) (e := e + -52) (by omega) (by omega)
        (.inl (by omega))
      rw [hshift] at h
      rw [UnpackedFloat.mul, hsign]
      exact ⟨h.1, h.2.trans (nearestPlace_point hform)⟩

/-- The product of a whole number and one is the whole number. -/
theorem IsWhole.mul_one {x one : Float} {z : Int} {p : 0 < 2 ^ 52} (h : IsWhole x z)
    (hone : one.toModel.unpack = .finite .positive (2 ^ 52) (-52) p)
    : IsWhole (x * one) z := by
  obtain ⟨hn, hplace⟩ := h
  obtain ⟨hnan, hpoint⟩ := point_mul_one (p := p) (isCanonical_unpack x.toModel) hn hplace
  have hmul : (x * one).toModel.unpack
      = (Float.Model.pack (x.toModel.unpack.mul .binary64 one.toModel.unpack)).unpack := rfl
  rw [hone] at hmul
  rw [← hmul] at hnan hpoint
  exact ⟨hnan, hpoint.trans hplace⟩

theorem isWhole_ofNat {n : Nat} (h : n < 2 ^ 53) : IsWhole (Float.ofNat n) n := by
  have hone : Float.exactlyRepresentablePowersOfTen[0].toModel.unpack
      = .finite .positive (2 ^ 52) (-52) (by decide) := rfl
  have hproduct : Float.ofNat n
      = n.toUInt64.toFloat * Float.exactlyRepresentablePowersOfTen[0] := dif_pos ⟨h, by decide⟩
  rw [hproduct]
  exact (isWhole_toFloat h).mul_one hone

/-- The number of an integer is equal to it, by the sign of the integer. -/
theorem isWhole_ofInt {z : Int} (h : z.natAbs < 2 ^ 53) : IsWhole (Float.ofInt z) z := by
  cases z with
  | ofNat n => exact isWhole_ofNat h
  | negSucc n => exact (isWhole_ofNat h).neg

/-- Whole numbers are numbers of their integers. -/
theorem IsWhole.beq {x y : Float} {z : Int} (hx : IsWhole x z) (hy : IsWhole y z)
    : (x == y) = true :=
  beq_iff.mpr ⟨⟨hx.1, hy.1⟩, hx.2.trans hy.2.symm⟩

theorem IsWhole.of_beq {x y : Float} {z : Int} (h : (x == y) = true) (hy : IsWhole y z)
    : IsWhole x z := by
  obtain ⟨⟨hn, -⟩, hp⟩ := beq_iff.mp h
  exact ⟨hn, hp.trans hy.2⟩

theorem IsWhole.isFinite {x : Float} {z : Int} (h : IsWhole x z) (hz : z.natAbs < 2 ^ 53)
    : x.isFinite = true := by
  have habs : (place x).natAbs = gridPoint z.natAbs 0 := by
    rw [h.2, Int.natAbs_mul, Int.natAbs_natCast, gridPoint_zero]
  have hfar := gridPoint_lt_farPoint hz (by decide : (-1074 : Int) ≤ 0) (by decide)
  exact (isFinite_iff (isCanonical_unpack x.toModel) h.1).1.mpr (habs ▸ hfar)

theorem exists_ratio? {x : Float} (h : x.isFinite = true) : ∃ ratio, ratio? x = some ratio := by
  rw [ratio?]
  obtain ⟨sign, hu⟩ | ⟨sign, m, e, hp, hu⟩ := unpack_of_isFinite h
  · rw [hu]
    exact ⟨_, rfl⟩
  · rw [hu]
    exact ⟨_, rfl⟩

/-- Whole numbers of less than 53 bits are found to be integers. -/
theorem IsWhole.integer?_eq {x : Float} {z : Int} (h : IsWhole x z) (hz : z.natAbs < 2 ^ 53)
    : integer? x = some z := by
  have hunit : (gridUnit : Int) ≠ 0 := by
    exact_mod_cast gridUnit_pos.ne'
  have hlimit : exactLimit = 2 ^ 53 := rfl
  obtain ⟨⟨numerator, denominator⟩, hr⟩ := exists_ratio? (h.isFinite hz)
  obtain ⟨hd, hm⟩ := mul_gridUnit_of_ratio? hr
  have hnumerator : numerator = z * denominator := by
    refine mul_right_cancel₀ hunit ?_
    rw [hm, h.2]
    exact mul_right_comm z _ _
  have hquotient : numerator / denominator = z := by
    rw [hnumerator, Int.mul_ediv_cancel _ (by omega)]
  have hrest : numerator % denominator = 0 := by
    rw [hnumerator, Int.mul_emod_left]
  rw [integer?, hr]
  dsimp only
  rw [hquotient, if_pos ⟨hrest, by omega, by omega⟩]

end ReportTemplate.Number
