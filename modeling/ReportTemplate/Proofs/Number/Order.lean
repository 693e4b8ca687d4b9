import Mathlib
import ReportTemplate.Number.Exact

/-! The order of numbers by their places on a grid.
All finite binary64 numbers are multiples of the 1074th negative power of two. So each number that
is not NaN has a place among the integers, the infinities beyond all others, and numbers compare as
their places do.
-/

namespace ReportTemplate.Number

open Float.Model
open Float.Model.UnpackedFloat (Sign)

-----------------------------------------------------------------------------------------
-- Unpacked numbers
-----------------------------------------------------------------------------------------

/-- Holds for the unpacked forms that numbers have: the mantissa of a finite number has 53 bits,
or fewer with the least exponent.
-/
inductive IsCanonical : UnpackedFloat → Prop where
  | notANumber : IsCanonical .notANumber
  | infinity (sign : Sign) : IsCanonical (.infinity sign)
  | zero (sign : Sign) : IsCanonical (.zero sign)
  | finite {sign : Sign} {mantissa : Nat} {exponent : Int} {hp : 0 < mantissa}
      (hm : mantissa < 2 ^ 53) (hl : -1074 ≤ exponent) (hu : exponent ≤ 971)
      (hn : 2 ^ 52 ≤ mantissa ∨ exponent = -1074)
      : IsCanonical (.finite sign mantissa exponent hp)

theorem toNat_append_one (bits : BitVec 52) : (1#1 ++ bits).toNat = 2 ^ 52 + bits.toNat := by
  rw [BitVec.toNat_append, ← Nat.shiftLeft_add_eq_or_of_lt bits.isLt]
  rfl

/-- Numbers unpack into canonical forms, by the cases of the exponent's bits. -/
theorem isCanonical_unpack (x : Float.Model) : IsCanonical x.unpack := by
  have hbias : ((Format.binary64.exponentBias : Nat) : Int) = 1023 := rfl
  have hm : (@UnpackedFloat.unpackMantissa .binary64 x.toBits.toBitVec).toNat < 2 ^ 52 :=
    BitVec.isLt _
  have he : (@UnpackedFloat.unpackExponent .binary64 x.toBits.toBitVec).toNat < 2 ^ 11 :=
    BitVec.isLt _
  rw [Float.Model.unpack, UnpackedFloat.unpack]
  dsimp only
  split
  · split
    · exact .infinity _
    · exact .notANumber
  · next hall =>
      have hmax := mt BitVec.eq_of_toNat_eq hall
      rw [show (-1#11).toNat = 2047 from rfl] at hmax
      split
      · next hzero =>
          split
          · exact .zero _
          · rw [hzero]
            exact .finite (by omega) (by rw [hbias]; decide) (by rw [hbias]; decide)
              (.inr (by rw [hbias]; decide))
      · next hzero =>
          have hmin := mt BitVec.eq_of_toNat_eq hzero
          rw [show (0#11).toNat = 0 from rfl] at hmin
          have happend := toNat_append_one
            (@UnpackedFloat.unpackMantissa .binary64 x.toBits.toBitVec)
          exact .finite (by omega) (by rw [hbias]; omega) (by rw [hbias]; omega)
            (.inl (by omega))

-----------------------------------------------------------------------------------------
-- Places on the grid
-----------------------------------------------------------------------------------------

/-- The place of a magnitude on the grid, which has `2 ^ 1074` places for each unit. -/
def gridPoint (mantissa : Nat) (exponent : Int) : Nat :=
  mantissa * 2 ^ (exponent + 1074).toNat

/-- The place of infinity, the first one that is too great for finite numbers. -/
def farPoint : Nat :=
  gridPoint (2 ^ 52) 972

/-- The place of an unpacked number; NaN has none, and zero stands for it. -/
def point : UnpackedFloat → Int
  | .notANumber => 0
  | .infinity sign => sign.apply farPoint
  | .zero _ => 0
  | .finite sign mantissa exponent _ => sign.apply (gridPoint mantissa exponent)

/-- The place of a number on the grid. -/
def place (x : Float) : Int :=
  point x.toModel.unpack

theorem gridPoint_pos {mantissa : Nat} {exponent : Int} (h : 0 < mantissa)
    : 0 < gridPoint mantissa exponent :=
  Nat.mul_pos h (Nat.two_pow_pos _)

theorem farPoint_pos : 0 < farPoint :=
  gridPoint_pos (Nat.two_pow_pos 52)

/-- A greater exponent has the greater magnitudes, since it comes with 53 bits. -/
theorem gridPoint_lt_of_lt {m n : Nat} {d e : Int} (hm : m < 2 ^ 53) (hl : -1074 ≤ d)
    (hn : 2 ^ 52 ≤ n) (h : d < e)
    : gridPoint m d < gridPoint n e := by
  have hpow : 2 * 2 ^ (d + 1074).toNat ≤ 2 ^ (e + 1074).toNat := by
    rw [← Nat.pow_succ']
    exact Nat.pow_le_pow_right (by decide) (by omega)
  calc
    gridPoint m d < 2 ^ 53 * 2 ^ (d + 1074).toNat :=
      Nat.mul_lt_mul_of_pos_right hm (Nat.two_pow_pos _)
    _ = 2 ^ 52 * (2 * 2 ^ (d + 1074).toNat) := by ring
    _ ≤ n * 2 ^ (e + 1074).toNat := Nat.mul_le_mul hn hpow

/-- Magnitudes compare by their exponents and then by their mantissas. -/
theorem compare_gridPoint {m n : Nat} {d e : Int} (hm : m < 2 ^ 53) (hn : n < 2 ^ 53)
    (hd : -1074 ≤ d) (he : -1074 ≤ e) (hmn : 2 ^ 52 ≤ m ∨ d = -1074)
    (hnn : 2 ^ 52 ≤ n ∨ e = -1074)
    : (compare d e).then (compare m n)
      = compare (gridPoint m d : Int) (gridPoint n e : Int) := by
  rcases lt_trichotomy d e with h | rfl | h
  · have hlt := gridPoint_lt_of_lt hm hd (hnn.resolve_right (by omega)) h
    rw [Int.compare_eq_lt.mpr h, Int.compare_eq_lt.mpr (by exact_mod_cast hlt)]
    rfl
  · have hpos := Nat.two_pow_pos (d + 1074).toNat
    rw [compare_eq_iff_eq.mpr rfl, gridPoint, gridPoint]
    rcases lt_trichotomy m n with h | rfl | h
    · have hlt := Nat.mul_lt_mul_of_pos_right h hpos
      rw [Nat.compare_eq_lt.mpr h, Int.compare_eq_lt.mpr (by exact_mod_cast hlt)]
      rfl
    · rw [compare_eq_iff_eq.mpr rfl, compare_eq_iff_eq.mpr rfl]
      rfl
    · have hlt := Nat.mul_lt_mul_of_pos_right h hpos
      rw [Nat.compare_eq_gt.mpr h, Int.compare_eq_gt.mpr (by exact_mod_cast hlt)]
      rfl
  · have hlt := gridPoint_lt_of_lt hn he (hmn.resolve_right (by omega)) h
    rw [Int.compare_eq_gt.mpr h, Int.compare_eq_gt.mpr (by exact_mod_cast hlt)]
    rfl

theorem gridPoint_lt_farPoint {mantissa : Nat} {exponent : Int} (hm : mantissa < 2 ^ 53)
    (hl : -1074 ≤ exponent) (hu : exponent ≤ 971)
    : gridPoint mantissa exponent < farPoint :=
  gridPoint_lt_of_lt hm hl (Nat.le_refl _) (by omega)

theorem natAbs_apply (sign : Sign) (n : Nat) : (sign.apply n).natAbs = n := by
  cases sign
  · exact Int.natAbs_neg n
  · rfl

/-- Only infinity is as far as its place. -/
theorem isFinite_iff {u : UnpackedFloat} (h : IsCanonical u) (hn : u.isNaN = false)
    : (u.isFinite = true ↔ (point u).natAbs < farPoint) ∧ (point u).natAbs ≤ farPoint := by
  cases h with
  | notANumber => cases hn
  | infinity sign =>
      rw [point, natAbs_apply]
      exact ⟨iff_of_false Bool.false_ne_true (Nat.lt_irrefl _), Nat.le_refl _⟩
  | zero sign => exact ⟨iff_of_true rfl farPoint_pos, Nat.zero_le _⟩
  | finite hm hl hu =>
      have hlt := gridPoint_lt_farPoint hm hl hu
      rw [point, natAbs_apply]
      exact ⟨iff_of_true rfl hlt, hlt.le⟩

/-- Finite numbers are zeros and those with a mantissa. -/
theorem unpack_of_isFinite {x : Float} (h : x.isFinite = true)
    : (∃ sign, x.toModel.unpack = .zero sign)
      ∨ ∃ sign mantissa exponent hp,
          x.toModel.unpack = .finite sign mantissa exponent hp := by
  change x.toModel.unpack.isFinite = true at h
  cases hu : x.toModel.unpack with
  | notANumber => rw [hu] at h; cases h
  | infinity sign => rw [hu] at h; cases h
  | zero sign => exact .inl ⟨sign, rfl⟩
  | finite sign m e hp => exact .inr ⟨sign, m, e, hp, rfl⟩

theorem isNaN_of_isFinite {x : Float} (h : x.isFinite = true) : x.isNaN = false := by
  change x.toModel.unpack.isNaN = false
  obtain ⟨sign, hu⟩ | ⟨sign, m, e, hp, hu⟩ := unpack_of_isFinite h
  · rw [hu]
    rfl
  · rw [hu]
    rfl

theorem isInf_of_isFinite {x : Float} (h : x.isFinite = true) : x.isInf = false := by
  change x.toModel.unpack.isInf = false
  obtain ⟨sign, hu⟩ | ⟨sign, m, e, hp, hu⟩ := unpack_of_isFinite h
  · rw [hu]
    rfl
  · rw [hu]
    rfl

theorem compare_farPoint (sign other : Sign)
    : compare (sign.apply farPoint) (other.apply farPoint) = compare sign other := by
  have hfar := farPoint_pos
  cases sign <;> cases other
  · exact compare_eq_iff_eq.mpr rfl
  · exact Int.compare_eq_lt.mpr (by simp only [Sign.apply]; omega)
  · exact Int.compare_eq_gt.mpr (by simp only [Sign.apply]; omega)
  · exact compare_eq_iff_eq.mpr rfl

/-- Numbers other than NaN compare as their places do, by the cases of both: between two finite
numbers the magnitudes decide, elsewhere the signs and kinds.
-/
theorem compare_eq_of_isCanonical {u v : UnpackedFloat} (hu : IsCanonical u) (hv : IsCanonical v)
    (hun : u.isNaN = false) (hvn : v.isNaN = false)
    : u.compare v = some (compare (point u) (point v)) := by
  have hfar := farPoint_pos
  cases hu with
  | notANumber => cases hun
  | infinity sign =>
      cases hv with
      | notANumber => cases hvn
      | infinity other => exact congrArg some (compare_farPoint sign other).symm
      | zero other =>
          cases sign <;> grind [UnpackedFloat.compare, point, Sign.apply, Int.compare_eq_ite_lt]
      | @finite other n e hq hn he hx hs =>
          have hb := gridPoint_lt_farPoint hn he hx
          cases sign <;> cases other <;>
            grind [UnpackedFloat.compare, point, Sign.apply, Int.compare_eq_ite_lt]
  | zero sign =>
      cases hv with
      | notANumber => cases hvn
      | infinity other =>
          cases other <;> grind [UnpackedFloat.compare, point, Sign.apply, Int.compare_eq_ite_lt]
      | zero other => grind [UnpackedFloat.compare, point, Int.compare_eq_ite_lt]
      | @finite other n e hq hn =>
          have hb : 0 < gridPoint n e := gridPoint_pos hq
          cases other <;> grind [UnpackedFloat.compare, point, Sign.apply, Int.compare_eq_ite_lt]
  | @finite sign m d hp hm hd hx hs =>
      have hb : 0 < gridPoint m d := gridPoint_pos hp
      have ht := gridPoint_lt_farPoint hm hd hx
      cases hv with
      | notANumber => cases hvn
      | infinity other =>
          cases sign <;> cases other <;>
            grind [UnpackedFloat.compare, point, Sign.apply, Int.compare_eq_ite_lt]
      | zero other =>
          cases sign <;> grind [UnpackedFloat.compare, point, Sign.apply, Int.compare_eq_ite_lt]
      | @finite other n e hq hn he hy ht =>
          have hc : 0 < gridPoint n e := gridPoint_pos hq
          have h := compare_gridPoint hm hn hd he hs ht
          cases sign <;> cases other <;>
            grind [UnpackedFloat.compare, point, Sign.apply, Int.compare_eq_ite_lt, Ordering.swap]

-----------------------------------------------------------------------------------------
-- Comparisons of numbers
-----------------------------------------------------------------------------------------

theorem compare_of_isNaN {u v : UnpackedFloat} (h : ¬ (u.isNaN = false ∧ v.isNaN = false))
    : u.compare v = none := by
  have hnan : ∀ {w : UnpackedFloat}, ¬ w.isNaN = false → w = .notANumber := by
    intro w hw
    cases w with
    | notANumber => rfl
    | _ => exact absurd rfl hw
  by_cases hu : u.isNaN = false
  · obtain rfl := hnan (mt (And.intro hu) h)
    cases u <;> rfl
  · obtain rfl := hnan hu
    cases v <;> rfl

/-- Numbers are equal when they have one place, and NaN equals nothing. -/
theorem beq_iff {x y : Float}
    : (x == y) = true ↔ (x.isNaN = false ∧ y.isNaN = false) ∧ place x = place y := by
  have hb : (x == y) = (x.toModel.unpack.compare y.toModel.unpack == some .eq) := rfl
  rw [hb, beq_iff_eq]
  by_cases h : x.isNaN = false ∧ y.isNaN = false
  · rw [compare_eq_of_isCanonical (isCanonical_unpack _) (isCanonical_unpack _) h.1 h.2,
      Option.some_inj, Int.compare_eq_eq]
    exact (and_iff_right h).symm
  · rw [compare_of_isNaN h]
    exact iff_of_false nofun fun hb => h hb.1

theorem le_iff {x y : Float}
    : x ≤ y ↔ (x.isNaN = false ∧ y.isNaN = false) ∧ place x ≤ place y := by
  have hl : x ≤ y ↔ (x.toModel.unpack.compare y.toModel.unpack).any (·.isLE) = true :=
    decide_eq_true_iff
  rw [hl]
  by_cases h : x.isNaN = false ∧ y.isNaN = false
  · rw [compare_eq_of_isCanonical (isCanonical_unpack _) (isCanonical_unpack _) h.1 h.2,
      Option.any_some, Int.isLE_compare]
    exact (and_iff_right h).symm
  · rw [compare_of_isNaN h]
    exact iff_of_false Bool.false_ne_true fun hb => h hb.1

theorem lt_iff {x y : Float}
    : x < y ↔ (x.isNaN = false ∧ y.isNaN = false) ∧ place x < place y := by
  have hl : x < y ↔ (x.toModel.unpack.compare y.toModel.unpack == some .lt) = true :=
    decide_eq_true_iff
  rw [hl, beq_iff_eq]
  by_cases h : x.isNaN = false ∧ y.isNaN = false
  · rw [compare_eq_of_isCanonical (isCanonical_unpack _) (isCanonical_unpack _) h.1 h.2,
      Option.some_inj, Int.compare_eq_lt]
    exact (and_iff_right h).symm
  · rw [compare_of_isNaN h]
    exact iff_of_false nofun fun hb => h hb.1

-----------------------------------------------------------------------------------------
-- Rounding down
-----------------------------------------------------------------------------------------

/-- The count of places for each unit. -/
def gridUnit : Nat :=
  gridPoint 1 0

theorem gridUnit_pos : 0 < gridUnit :=
  gridPoint_pos Nat.one_pos

theorem gridPoint_zero (n : Nat) : gridPoint n 0 = n * gridUnit := by
  rw [gridUnit, gridPoint, gridPoint, one_mul]

/-- The ratio of a finite number is that of its place and the count of places for each unit. -/
theorem mul_gridUnit_of_ratio? {x : Float} {numerator : Int} {denominator : Nat}
    (h : ratio? x = some (numerator, denominator))
    : 0 < denominator ∧ numerator * gridUnit = place x * denominator := by
  have hc := isCanonical_unpack x.toModel
  rw [place]
  unfold ratio? at h
  split at h
  · cases h
  · cases h
  · next hz =>
      obtain ⟨rfl, rfl⟩ := Prod.mk.inj (Option.some.inj h)
      rw [hz]
      exact ⟨Nat.one_pos, (Int.zero_mul _).trans (Int.zero_mul _).symm⟩
  · next sign m e hp hf =>
      obtain ⟨rfl, rfl⟩ := Prod.mk.inj (Option.some.inj h)
      rw [hf] at hc ⊢
      obtain ⟨-, hl, -, -⟩ := hc
      refine ⟨Nat.two_pow_pos _, ?_⟩
      have hpow : m * 2 ^ e.toNat * gridUnit = gridPoint m e * 2 ^ (-e).toNat := by
        rw [gridUnit, gridPoint, gridPoint, one_mul, mul_assoc, mul_assoc, ← pow_add, ← pow_add]
        congr 2
        omega
      have hcast : (m * Nat.pow 2 e.toNat * gridUnit : Int)
          = gridPoint m e * Nat.pow 2 (-e).toNat := by exact_mod_cast hpow
      cases sign with
      | negative =>
          rw [point, Sign.apply, Sign.apply, neg_mul, neg_mul]
          exact congrArg Neg.neg hcast
      | positive => exact hcast

/-- The place of infinity is beyond the range of 64-bit integers. -/
theorem range_lt_farPoint : 9223372036854775808 * gridUnit < farPoint := by
  have hrange : 9223372036854775808 * gridUnit = gridPoint (2 ^ 52) 11 := by
    have hexponent : (11 + 1074 : Int).toNat = 11 + (0 + 1074 : Int).toNat := rfl
    rw [gridUnit, gridPoint, gridPoint, hexponent, pow_add]
    omega
  rw [hrange]
  exact gridPoint_lt_of_lt (by decide) (by decide) (Nat.le_refl _) (by decide)

/-- Rounding down divides the place by the count of places for each unit, within the range. -/
theorem floorInt64_eq {x : Float} (h : x.isNaN = false)
    : floorInt64 x = clamp (-9223372036854775808) 9223372036854775807 (place x / gridUnit) := by
  have hunit : 0 < (gridUnit : Int) := by exact_mod_cast gridUnit_pos
  cases hr : ratio? x with
  | some ratio =>
      obtain ⟨numerator, denominator⟩ := ratio
      obtain ⟨hd, hp⟩ := mul_gridUnit_of_ratio? hr
      have hdiv : numerator / (denominator : Int) = place x / gridUnit := by
        rw [← Int.mul_ediv_mul_of_pos_left _ _ hunit, hp, mul_comm (denominator : Int),
          Int.mul_ediv_mul_of_pos_left _ _ (by exact_mod_cast hd)]
      rw [floorInt64, toIntBy, hr, ← hdiv]
  | none =>
      have hx : x.toModel.unpack.isNaN = false := h
      have hfar : 9223372036854775808 * (gridUnit : Int) < farPoint := by
        exact_mod_cast range_lt_farPoint
      rw [floorInt64, toIntBy, hr, h, place, isNegative]
      unfold ratio? at hr
      cases hu : x.toModel.unpack with
      | notANumber => rw [hu] at hx; cases hx
      | zero sign => rw [hu] at hr; cases hr
      | finite sign m e hp => rw [hu] at hr; cases hr
      | infinity sign =>
          cases sign with
          | negative =>
              have hd : -(farPoint : Int) / gridUnit < -9223372036854775808 :=
                Int.ediv_lt_of_lt_mul hunit (by omega)
              change -9223372036854775808 = max _ (min _ (-(farPoint : Int) / gridUnit))
              omega
          | positive =>
              have hd : 9223372036854775808 ≤ (farPoint : Int) / gridUnit :=
                Int.le_ediv_of_mul_le hunit hfar.le
              change 9223372036854775807 = max _ (min _ ((farPoint : Int) / gridUnit))
              omega

theorem floorInt64_le_of_le {x y : Float} (h : x ≤ y) : floorInt64 x ≤ floorInt64 y := by
  obtain ⟨⟨hx, hy⟩, hp⟩ := le_iff.mp h
  have hd := Int.ediv_le_ediv (by exact_mod_cast gridUnit_pos : 0 < (gridUnit : Int)) hp
  rw [floorInt64_eq hx, floorInt64_eq hy, clamp, clamp]
  omega

end ReportTemplate.Number
