import ReportTemplate.Number.Notation
import ReportTemplate.Proofs.Number.Order

/-! Rounding on the grid of numbers.
Results are rounded to 53 bits, halves to the even neighbour. On the grid this is a function of
places that keeps their order and leaves the places of numbers as they are.
-/

namespace ReportTemplate.Number

open Float.Model
open Float.Model.UnpackedFloat

-----------------------------------------------------------------------------------------
-- Packing
-----------------------------------------------------------------------------------------

/-- A form with a mantissa is packed as infinity when its exponent is too great, without the first
bit of a full mantissa, and with the exponent zero when the mantissa has fewer bits.
-/
theorem unpack_pack_finite (sign : Sign) {m : Nat} (e : Int) (hp : 0 < m)
    : (Float.Model.pack (.finite sign m e hp)).unpack
      = UnpackedFloat.unpack .binary64
          (if 2 ^ 11 ≤ (e + 1075).toNat + 1 then packedInfinity .binary64 sign
          else if m.log2 + 1 = Format.binary64.mantissaBits then
            packComponents .binary64 sign (BitVec.ofNat 11 (e + 1075).toNat) (BitVec.ofNat 52 m)
          else packComponents .binary64 sign 0#11 (BitVec.ofNat 52 m)) := by
  have hbiased : (e + Format.binary64.exponentBias
      + (Format.binary64.mantissaBitsWithoutImplicit : Nat)).toNat = (e + 1075).toNat := by
    change (e + (1023 : Nat) + (52 : Nat)).toNat = _
    omega
  change UnpackedFloat.unpack .binary64 (UnpackedFloat.pack .binary64 _) = _
  rw [UnpackedFloat.pack]
  dsimp only
  rw [hbiased]

/-- A number with a greater exponent than finite numbers have is packed as infinity. -/
theorem unpack_pack_of_lt {sign : Sign} {m : Nat} {e : Int} {hp : 0 < m} (h : 971 < e)
    : (Float.Model.pack (.finite sign m e hp)).unpack = .infinity sign := by
  rw [unpack_pack_finite, if_pos (by omega)]
  cases sign <;> rfl

/-- A mantissa of 53 bits is packed without its first bit. -/
theorem unpack_pack_full {sign : Sign} {m : Nat} {e : Int} {hp : 0 < m} (hf : 2 ^ 52 ≤ m)
    (hm : m < 2 ^ 53) (hl : -1074 ≤ e) (hu : e ≤ 971)
    : (Float.Model.pack (.finite sign m e hp)).unpack = .finite sign m e hp := by
  have hbias : ((Format.binary64.exponentBias : Nat) : Int) = 1023 := rfl
  have hlog : m.log2 + 1 = Format.binary64.mantissaBits :=
    congrArg (· + 1) ((Nat.log2_eq_iff hp.ne').mpr ⟨hf, hm⟩)
  have hexponent : (BitVec.ofNat 11 (e + 1075).toNat).toNat = (e + 1075).toNat := by
    rw [BitVec.toNat_ofNat, Nat.mod_eq_of_lt (by omega)]
  have hmantissa : (1#1 ++ BitVec.ofNat 52 m).toNat = m := by
    rw [toNat_append_one, BitVec.toNat_ofNat]
    omega
  have hall : BitVec.ofNat 11 (e + 1075).toNat ≠ -1#11 := by
    rw [← BitVec.toNat_ne_iff_ne, hexponent, show (-1#11).toNat = 2047 from rfl]
    omega
  have hzero : BitVec.ofNat 11 (e + 1075).toNat ≠ 0#11 := by
    rw [← BitVec.toNat_ne_iff_ne, hexponent, show (0#11).toNat = 0 from rfl]
    omega
  rw [unpack_pack_finite, if_neg (by omega), if_pos hlog, UnpackedFloat.unpack]
  simp only [unpackExponent_packComponents, unpackMantissa_packComponents,
    unpackSign_packComponents, Sign.ofBitVec_toBitVec, hall, hzero, ↓reduceIte, hmantissa,
    hexponent, hbias]
  congr 1
  omega

/-- A mantissa of fewer bits is packed with the exponent zero. -/
theorem unpack_pack_small {sign : Sign} {m : Nat} {hp : 0 < m} (hm : m < 2 ^ 52)
    : (Float.Model.pack (.finite sign m (-1074) hp)).unpack = .finite sign m (-1074) hp := by
  have hlog : m.log2 < 52 := (Nat.log2_lt hp.ne').mpr (by omega)
  have hfew : m.log2 + 1 ≠ Format.binary64.mantissaBits := by
    rw [show Format.binary64.mantissaBits = 53 from rfl]
    omega
  have hmantissa : (BitVec.ofNat 52 m).toNat = m := by
    rw [BitVec.toNat_ofNat, Nat.mod_eq_of_lt (by omega)]
  have hzero : BitVec.ofNat 52 m ≠ 0#52 := by
    rw [← BitVec.toNat_ne_iff_ne, hmantissa, show (0#52).toNat = 0 from rfl]
    omega
  rw [unpack_pack_finite, if_neg (by decide), if_neg hfew, UnpackedFloat.unpack]
  simp only [unpackExponent_packComponents, unpackMantissa_packComponents,
    unpackSign_packComponents, Sign.ofBitVec_toBitVec, hzero, ↓reduceIte, ↓reduceDIte, hmantissa]
  rw [if_neg (by decide)]
  rfl

/-- A canonical form is packed without loss, by its cases. -/
theorem unpack_pack {u : UnpackedFloat} (h : IsCanonical u)
    : (Float.Model.pack u).unpack = u := by
  cases h with
  | notANumber => rfl
  | infinity sign => cases sign <;> rfl
  | zero sign => cases sign <;> rfl
  | @finite sign m e hp hm hl hu hn =>
      by_cases hf : 2 ^ 52 ≤ m
      · exact unpack_pack_full hf hm hl hu
      · obtain rfl : e = -1074 := hn.resolve_left hf
        exact unpack_pack_small (by omega)

/-- Packing does not make NaN. -/
theorem isNaN_unpack_pack {u : UnpackedFloat} (h : u.isNaN = false)
    : (Float.Model.pack u).unpack.isNaN = false := by
  have hcomponents : ∀ {sign : Sign} {exponent : BitVec 11} {mantissa : BitVec 52},
      exponent ≠ -1#11 →
      (UnpackedFloat.unpack .binary64
        (packComponents .binary64 sign exponent mantissa)).isNaN = false := by
    intro sign exponent mantissa hall
    simp only [UnpackedFloat.unpack, unpackExponent_packComponents, hall, ↓reduceIte]
    split
    · split <;> rfl
    · rfl
  cases u with
  | notANumber => cases h
  | infinity sign => cases sign <;> rfl
  | zero sign => cases sign <;> rfl
  | finite sign m e hp =>
      by_cases hu : 971 < e
      · rw [unpack_pack_of_lt hu]
        rfl
      · rw [unpack_pack_finite, if_neg (by omega)]
        split
        · refine hcomponents ?_
          rw [← BitVec.toNat_ne_iff_ne, BitVec.toNat_ofNat, show (-1#11).toNat = 2047 from rfl]
          omega
        · exact hcomponents (by decide)

-----------------------------------------------------------------------------------------
-- Shifting
-----------------------------------------------------------------------------------------

/-- A mantissa without its last `k` bits: the first of them is the round bit, and the sticky bit
says whether there is another one.
-/
def shifted (m k : Nat) : ExtendedMantissa where
  mantissa := m / 2 ^ k
  roundBit := decide (2 ^ k ≤ 2 * (m % 2 ^ k))
  stickyBit := decide (2 * (m % 2 ^ k) % 2 ^ k ≠ 0)

/-- Twice a rest below the divisor is nothing, reaches the divisor or leaves a rest again. -/
theorem two_mul_ne_zero_iff {rest divisor : Nat} (h : rest < divisor)
    : 2 * rest ≠ 0 ↔ divisor ≤ 2 * rest ∨ 2 * rest % divisor ≠ 0 := by
  by_cases hd : divisor ≤ 2 * rest
  · exact iff_of_true (by omega) (.inl hd)
  · rw [Nat.mod_eq_of_lt (by omega)]
    exact ⟨.inr, fun hr => hr.resolve_left hd⟩

/-- Bits are shifted out one by one, by induction on their count. -/
theorem shiftRight_eq_shifted (m k : Nat)
    : ExtendedMantissa.ofMantissaAndAccuracy m .exact >>> k = shifted m k := by
  change Nat.repeat ExtendedMantissa.shiftRightOne k ⟨m, false, false⟩ = shifted m k
  induction k with
  | zero => simp [Nat.repeat, shifted, Nat.mod_one]
  | succ k ih =>
      have hlt := Nat.mod_lt m (Nat.two_pow_pos k)
      have hmod : m % 2 ^ (k + 1) = m % 2 ^ k + 2 ^ k * (m / 2 ^ k % 2) := by
        rw [pow_succ, Nat.mod_mul]
      have hdouble : 2 * (m % 2 ^ (k + 1)) % 2 ^ (k + 1) = 2 * (m % 2 ^ k) := by
        rw [pow_succ', Nat.mul_mod_mul_left, ← pow_succ',
          Nat.mod_mod_of_dvd _ (pow_dvd_pow 2 k.le_succ)]
      have hround : 2 ^ (k + 1) ≤ 2 * (m % 2 ^ (k + 1)) ↔ m / 2 ^ k % 2 ≠ 0 := by
        rw [hmod, pow_succ]
        rcases Nat.mod_two_eq_zero_or_one (m / 2 ^ k) with hb | hb <;> rw [hb] <;> omega
      rw [Nat.repeat, ih, shifted, shifted, ExtendedMantissa.shiftRightOne]
      dsimp only
      rw [hdouble, Nat.div_div_eq_div_mul, ← pow_succ]
      congr 1
      · rw [Bool.eq_iff_iff, decide_eq_true_iff, hround, bne_iff_ne]
      · rw [Bool.eq_iff_iff, Bool.or_eq_true, decide_eq_true_iff, decide_eq_true_iff,
          decide_eq_true_iff, two_mul_ne_zero_iff hlt]

/-- Rounding what is left rounds the quotient, by the cases of the two bits. -/
theorem roundedMantissa_shifted (m k : Nat)
    : (shifted m k).roundedMantissa = divideHalfEven m (2 ^ k) := by
  have hlt := Nat.mod_lt m (Nat.two_pow_pos k)
  rw [ExtendedMantissa.roundedMantissa, shifted, divideHalfEven]
  dsimp only
  by_cases hr : 2 ^ k ≤ 2 * (m % 2 ^ k)
  · have hmod : 2 * (m % 2 ^ k) % 2 ^ k = 2 * (m % 2 ^ k) - 2 ^ k := by
      rw [Nat.mod_eq_sub_mod hr, Nat.mod_eq_of_lt (by omega)]
    by_cases ht : 2 * (m % 2 ^ k) = 2 ^ k
    · rw [decide_eq_true hr, hmod, decide_eq_false (by omega)]
      change m / 2 ^ k + m / 2 ^ k % 2 = _
      split <;> omega
    · rw [decide_eq_true hr, hmod, decide_eq_true (by omega), if_neg (by omega)]
      rfl
  · rw [decide_eq_false hr, if_pos (.inl (by omega))]
    cases decide (2 * (m % 2 ^ k) % 2 ^ k ≠ 0) <;> rfl

-----------------------------------------------------------------------------------------
-- Nearest places
-----------------------------------------------------------------------------------------

theorem divideHalfEven_bounds (n d : Nat)
    : n / d ≤ divideHalfEven n d ∧ divideHalfEven n d ≤ n / d + 1 := by
  rw [divideHalfEven]
  split <;> omega

/-- A quotient without rest is not rounded. -/
theorem divideHalfEven_mul_self (q : Nat) {d : Nat} (h : 0 < d) : divideHalfEven (q * d) d = q := by
  simp [divideHalfEven, h]

/-- Rounding a quotient does not depend on common factors. -/
theorem divideHalfEven_mul_mul (n d : Nat) {c : Nat} (h : 0 < c)
    : divideHalfEven (n * c) (d * c) = divideHalfEven n d := by
  have hlt : 2 * (n % d * c) < d * c ↔ 2 * (n % d) < d := by
    rw [← mul_assoc, Nat.mul_lt_mul_right h]
  have heq : 2 * (n % d * c) = d * c ↔ 2 * (n % d) = d := by
    rw [← mul_assoc, Nat.mul_left_inj h.ne']
  rw [divideHalfEven, divideHalfEven, Nat.mul_div_mul_right _ _ h, Nat.mul_mod_mul_right]
  simp only [hlt, heq]

/-- Greater numerators have greater quotients: one that is greater by itself is rounded up to at
most the other, and with equal quotients the rests decide.
-/
theorem divideHalfEven_le {n m : Nat} (d : Nat) (h : n ≤ m)
    : divideHalfEven n d ≤ divideHalfEven m d := by
  rcases (Nat.div_le_div_right (c := d) h).lt_or_eq with hq | hq
  · exact (divideHalfEven_bounds n d).2.trans
      ((Nat.succ_le_of_lt hq).trans (divideHalfEven_bounds m d).1)
  · have hn := Nat.div_add_mod n d
    have hm := Nat.div_add_mod m d
    rw [hq] at hn
    rw [divideHalfEven, divideHalfEven, hq]
    split <;> split <;> omega

/-- The place of the number nearest to a place: 53 bits are kept. -/
def roundPoint (n : Nat) : Nat :=
  divideHalfEven n (2 ^ (n.log2 - 52)) * 2 ^ (n.log2 - 52)

theorem roundPoint_zero : roundPoint 0 = 0 := by
  simp [roundPoint, divideHalfEven]

theorem log2_mul_two_pow {m : Nat} (h : 0 < m) (k : Nat) : (m * 2 ^ k).log2 = m.log2 + k := by
  have hpow := Nat.two_pow_pos k
  refine (Nat.log2_eq_iff (Nat.mul_pos h hpow).ne').mpr ⟨?_, ?_⟩
  · rw [pow_add]
    exact Nat.mul_le_mul_right _ (Nat.log2_self_le h.ne')
  · rw [Nat.add_right_comm, pow_add]
    exact Nat.mul_lt_mul_of_pos_right Nat.lt_log2_self hpow

/-- The quotient that is rounded has at most 53 bits. -/
theorem div_two_pow_lt (n : Nat) : n / 2 ^ (n.log2 - 52) < 2 ^ 53 := by
  rw [Nat.div_lt_iff_lt_mul (Nat.two_pow_pos _), ← pow_add]
  exact Nat.lt_log2_self.trans_le (Nat.pow_le_pow_right (by decide) (by omega))

/-- It has all 53 bits unless nothing is cut off. -/
theorem le_div_two_pow {n : Nat} (h : 52 ≤ n.log2) : 2 ^ 52 ≤ n / 2 ^ (n.log2 - 52) := by
  have hn : n ≠ 0 := by
    rintro rfl
    simp at h
  rw [Nat.le_div_iff_mul_le (Nat.two_pow_pos _), ← pow_add, Nat.add_sub_cancel' h]
  exact Nat.log2_self_le hn

/-- A place with at most 53 bits in front of zeros is kept. -/
theorem roundPoint_of_lt {m : Nat} (k : Nat) (h : m < 2 ^ 53)
    : roundPoint (m * 2 ^ k) = m * 2 ^ k := by
  rcases m.eq_zero_or_pos with rfl | hp
  · rw [Nat.zero_mul, roundPoint_zero]
  · have hlog : m.log2 < 53 := (Nat.log2_lt hp.ne').mpr h
    have hsplit : m * 2 ^ k = m * 2 ^ (k - (m.log2 + k - 52)) * 2 ^ (m.log2 + k - 52) := by
      rw [mul_assoc, ← pow_add, Nat.sub_add_cancel (by omega)]
    rw [roundPoint, log2_mul_two_pow hp, hsplit, divideHalfEven_mul_self _ (Nat.two_pow_pos _)]

/-- Rounding keeps the order of places: within a power of two by the quotients, and across one
since no place is rounded beyond the next power.
-/
theorem roundPoint_le {n m : Nat} (h : n ≤ m) : roundPoint n ≤ roundPoint m := by
  rcases n.eq_zero_or_pos with rfl | hp
  · rw [roundPoint_zero]
    exact Nat.zero_le _
  have hlog : n.log2 ≤ m.log2 :=
    (Nat.le_log2 (by omega)).mpr ((Nat.log2_self_le hp.ne').trans h)
  rcases (Nat.sub_le_sub_right hlog 52).lt_or_eq with hk | hk
  · calc
      roundPoint n ≤ 2 ^ 53 * 2 ^ (n.log2 - 52) :=
        Nat.mul_le_mul_right _ ((divideHalfEven_bounds n _).2.trans (div_two_pow_lt n))
      _ ≤ 2 ^ 52 * 2 ^ (m.log2 - 52) := by
        rw [← pow_add, ← pow_add]
        exact Nat.pow_le_pow_right (by decide) (by omega)
      _ ≤ roundPoint m :=
        Nat.mul_le_mul_right _ ((le_div_two_pow (by omega)).trans (divideHalfEven_bounds m _).1)
  · rw [roundPoint, roundPoint, hk]
    exact Nat.mul_le_mul_right _ (divideHalfEven_le _ h)

-----------------------------------------------------------------------------------------
-- Rounded numbers
-----------------------------------------------------------------------------------------

theorem targetExponent_eq (m : Nat) (e : Int)
    : Format.binary64.targetExponent (totalExponent m e) = max (m.log2 + e - 52) (-1074) := by
  change max ((m.log2 : Int) + 1 + e - 53) (-1074) = _
  omega

/-- A mantissa is cut to 53 bits when its exponent is not too small. -/
theorem shiftToTargetExponent_exact (m : Nat) {e : Int} (hl : -1074 ≤ e)
    : shiftToTargetExponent .binary64 m e .exact
      = (shifted m (m.log2 - 52), e + (m.log2 - 52 : Nat)) := by
  have hcount : (max ((m.log2 : Int) + e - 52) (-1074) - e).toNat = m.log2 - 52 := by omega
  rw [shiftToTargetExponent, shiftToExponent, targetExponent_eq, hcount, shiftRight_eq_shifted]

/-- The nearest place of a magnitude is that of its rounded mantissa, since the zeros behind the
mantissa are common to the numerator and the denominator.
-/
theorem roundPoint_gridPoint {m : Nat} {e : Int} (hp : 0 < m) (hl : -1074 ≤ e)
    (hs : 2 ^ 52 ≤ m ∨ e = -1074)
    : roundPoint (gridPoint m e)
      = gridPoint (divideHalfEven m (2 ^ (m.log2 - 52))) (e + (m.log2 - 52 : Nat)) := by
  have hlog : 2 ^ 52 ≤ m → 52 ≤ m.log2 := (Nat.le_log2 hp.ne').mpr
  have hcut : m.log2 + (e + 1074).toNat - 52 = (m.log2 - 52) + (e + 1074).toNat := by
    rcases hs with hs | hs
    · have := hlog hs
      omega
    · omega
  have hexponent : (e + (m.log2 - 52 : Nat) + 1074).toNat = (m.log2 - 52) + (e + 1074).toNat := by
    omega
  rw [gridPoint, roundPoint, log2_mul_two_pow hp, hcut, gridPoint, hexponent, pow_add,
    divideHalfEven_mul_mul _ _ (Nat.two_pow_pos _)]

/-- A zero behind 53 bits, which a carry leaves, is cut off without loss. -/
theorem gridPoint_div {r : Nat} {e : Int} (hr : r ≤ 2 ^ 53) (hl : -1074 ≤ e)
    : gridPoint (r / 2 ^ (r.log2 - 52)) (e + (r.log2 - 52 : Nat)) = gridPoint r e := by
  have hdvd : 2 ^ (r.log2 - 52) ∣ r := by
    rcases hr.lt_or_eq with hlt | rfl
    · rcases r.eq_zero_or_pos with rfl | hp
      · exact dvd_zero _
      · have hlog := (Nat.log2_lt hp.ne').mpr hlt
        rw [Nat.sub_eq_zero_of_le (by omega), pow_zero]
        exact one_dvd r
    · rw [Nat.log2_two_pow]
      decide
  have hexponent : (e + (r.log2 - 52 : Nat) + 1074).toNat = (r.log2 - 52) + (e + 1074).toNat := by
    omega
  rw [gridPoint, hexponent, pow_add, ← mul_assoc, Nat.div_mul_cancel hdvd, gridPoint]

/-- A mantissa with 53 bits, or with the least exponent, is rounded to the nearest place. -/
theorem exists_roundWithAccuracy (sign : Sign) {m : Nat} {e : Int} (hp : 0 < m) (hl : -1074 ≤ e)
    (hs : 2 ^ 52 ≤ m ∨ e = -1074)
    : ∃ n d hn,
        roundWithAccuracy .binary64 sign m e .exact = .finite sign n d hn
        ∧ n < 2 ^ 53
        ∧ -1074 ≤ d
        ∧ (2 ^ 52 ≤ n ∨ d = -1074)
        ∧ gridPoint n d = roundPoint (gridPoint m e) := by
  have hlog : ∀ {n : Nat}, 0 < n → (52 ≤ n.log2 ↔ 2 ^ 52 ≤ n) := fun hn => Nat.le_log2 hn.ne'
  have hle := (divideHalfEven_bounds m (2 ^ (m.log2 - 52))).2.trans (div_two_pow_lt m)
  -- With 53 bits some are left; with fewer nothing is cut off.
  have hbits : 2 ^ 52 ≤ divideHalfEven m (2 ^ (m.log2 - 52))
      ∨ 0 < divideHalfEven m (2 ^ (m.log2 - 52)) ∧ e + (m.log2 - 52 : Nat) = -1074
        ∧ divideHalfEven m (2 ^ (m.log2 - 52)) < 2 ^ 52 := by
    by_cases hm : 2 ^ 52 ≤ m
    · exact .inl ((le_div_two_pow ((hlog hp).mpr hm)).trans (divideHalfEven_bounds _ _).1)
    · have hnone : m.log2 - 52 = 0 := by
        have := mt (hlog hp).mp hm
        omega
      have hself := divideHalfEven_mul_self m Nat.one_pos
      rw [mul_one] at hself
      rw [hnone, pow_zero, hself]
      exact .inr ⟨hp, by omega, by omega⟩
  have hgrid := gridPoint_div hle (by omega : -1074 ≤ e + (m.log2 - 52 : Nat))
  have hlt := div_two_pow_lt (divideHalfEven m (2 ^ (m.log2 - 52)))
  rw [roundPoint_gridPoint hp hl hs, ← hgrid, roundWithAccuracy, shiftToTargetExponent_exact m hl]
  dsimp only
  rw [roundedMantissa_shifted, shiftToTargetExponent_exact _ (by omega)]
  dsimp only
  rw [shifted]
  dsimp only
  generalize divideHalfEven m (2 ^ (m.log2 - 52)) = r at *
  have hkept : 2 ^ 52 ≤ r / 2 ^ (r.log2 - 52)
      ∨ 0 < r / 2 ^ (r.log2 - 52)
        ∧ e + (m.log2 - 52 : Nat) + (r.log2 - 52 : Nat) = -1074 := by
    rcases hbits with hr | ⟨hr, he, hfew⟩
    · exact .inl (le_div_two_pow ((hlog (by omega)).mpr hr))
    · have hnone : r.log2 - 52 = 0 := by
        have := mt (hlog hr).mp (by omega)
        omega
      rw [hnone, pow_zero, Nat.div_one]
      exact .inr ⟨hr, by omega⟩
  have hpos : 0 < r / 2 ^ (r.log2 - 52) := hkept.elim (by omega) And.left
  exact ⟨_, _, hpos, dif_neg hpos.ne', hlt, by omega, hkept.imp_right And.right, rfl⟩

-----------------------------------------------------------------------------------------
-- Nearest places on either side of zero
-----------------------------------------------------------------------------------------

/-- The place of the number nearest to a place on either side of zero; what is rounded beyond all
finite numbers is infinity.
-/
def nearestPlace (z : Int) : Int :=
  if z < 0 then -(min (roundPoint z.natAbs) farPoint : Nat)
  else (min (roundPoint z.natAbs) farPoint : Nat)

theorem nearestPlace_le {z w : Int} (h : z ≤ w) : nearestPlace z ≤ nearestPlace w := by
  have hle : ∀ {n m : Nat}, n ≤ m → min (roundPoint n) farPoint ≤ min (roundPoint m) farPoint :=
    fun h => min_le_min_right _ (roundPoint_le h)
  unfold nearestPlace
  split <;> split
  · have := hle (by omega : w.natAbs ≤ z.natAbs)
    omega
  · omega
  · omega
  · have := hle (by omega : z.natAbs ≤ w.natAbs)
    omega

theorem nearestPlace_bounds (z : Int) : -farPoint ≤ nearestPlace z ∧ nearestPlace z ≤ farPoint := by
  unfold nearestPlace
  split <;> omega

theorem nearestPlace_zero : nearestPlace 0 = 0 := by
  rw [nearestPlace, if_neg (by decide), Int.natAbs_zero, roundPoint_zero, Nat.zero_min]
  rfl

theorem nearestPlace_apply (sign : Sign) (n : Nat)
    : nearestPlace (sign.apply n) = sign.apply (min (roundPoint n) farPoint : Nat) := by
  rcases n.eq_zero_or_pos with rfl | hp
  · rw [roundPoint_zero, Nat.zero_min]
    cases sign <;> exact nearestPlace_zero
  · cases sign with
    | negative =>
        rw [nearestPlace, Sign.apply, if_pos (by omega), Int.natAbs_neg, Int.natAbs_natCast,
          Sign.apply]
    | positive => rw [nearestPlace, Sign.apply, if_neg (by omega), Int.natAbs_natCast, Sign.apply]

theorem roundPoint_gridPoint_self {m : Nat} (h : m < 2 ^ 53) (e : Int)
    : roundPoint (gridPoint m e) = gridPoint m e :=
  roundPoint_of_lt _ h

/-- The place of a number is its nearest place. -/
theorem nearestPlace_point {u : UnpackedFloat} (h : IsCanonical u)
    : nearestPlace (point u) = point u := by
  have hfar : roundPoint farPoint = farPoint := by
    rw [farPoint, roundPoint_gridPoint_self (by decide)]
  cases h with
  | notANumber => exact nearestPlace_zero
  | infinity sign => rw [point, nearestPlace_apply, hfar, min_self]
  | zero sign => exact nearestPlace_zero
  | finite hm hl hu hn =>
      rw [point, nearestPlace_apply, roundPoint_gridPoint_self hm,
        min_eq_left (gridPoint_lt_farPoint hm hl hu).le]

/-- Packing a rounded magnitude gives the nearest place. -/
theorem point_roundWithAccuracy (sign : Sign) {m : Nat} {e : Int} (hp : 0 < m) (hl : -1074 ≤ e)
    (hs : 2 ^ 52 ≤ m ∨ e = -1074)
    : let u := (Float.Model.pack (roundWithAccuracy .binary64 sign m e .exact)).unpack
      u.isNaN = false ∧ point u = nearestPlace (sign.apply (gridPoint m e)) := by
  obtain ⟨n, d, hn, hr, hb, hd, hf, hg⟩ := exists_roundWithAccuracy sign hp hl hs
  rw [hr, nearestPlace_apply, ← hg]
  by_cases hu : d ≤ 971
  · rw [unpack_pack (.finite hb hd hu hf), min_eq_left (gridPoint_lt_farPoint hb hd hu).le]
    exact ⟨rfl, rfl⟩
  · have hle : farPoint ≤ gridPoint n d :=
      Nat.mul_le_mul (hf.resolve_right (by omega)) (Nat.pow_le_pow_right (by decide) (by omega))
    rw [unpack_pack_of_lt (by omega), min_eq_right hle]
    exact ⟨rfl, rfl⟩

/-- Zeros behind a mantissa and a smaller exponent leave the magnitude as it is. -/
theorem gridPoint_shiftLeft (m k : Nat) {e : Int} (hl : -1074 ≤ e - k)
    : gridPoint (m <<< k) (e - k) = gridPoint m e := by
  have hexponent : (e + 1074).toNat = k + (e - k + 1074).toNat := by omega
  rw [gridPoint, gridPoint, hexponent, pow_add, Nat.shiftLeft_eq, mul_assoc]

/-- Zeros are put behind a mantissa of fewer than 53 bits before it is rounded. -/
theorem point_round (sign : Sign) {m : Nat} {e : Int} (hp : 0 < m) (hl : -1074 ≤ e)
    : let u := (Float.Model.pack (UnpackedFloat.round .binary64 sign m e)).unpack
      u.isNaN = false ∧ point u = nearestPlace (sign.apply (gridPoint m e)) := by
  rw [UnpackedFloat.round]
  dsimp only
  rw [targetExponent_eq, decreaseExponent]
  dsimp only
  generalize hk : (e - max (m.log2 + e - 52) (-1074)).toNat = k
  have hshift : m <<< k = m * 2 ^ k := Nat.shiftLeft_eq m k
  have hpos : 0 < m <<< k := by
    rw [hshift]
    exact Nat.mul_pos hp (Nat.two_pow_pos k)
  have hbits : 2 ^ 52 ≤ m <<< k ∨ e - k = -1074 := by
    by_cases he : e - k = -1074
    · exact .inr he
    · refine .inl ((Nat.le_log2 hpos.ne').mp ?_)
      rw [hshift, log2_mul_two_pow hp]
      omega
  rw [← gridPoint_shiftLeft m k (by omega)]
  exact point_roundWithAccuracy sign hpos (by omega) hbits

theorem point_normalize (z : Int) {e : Int} (hl : -1074 ≤ e) (zeroSign : Sign)
    : let u := (Float.Model.pack (UnpackedFloat.normalize .binary64 z e zeroSign)).unpack
      u.isNaN = false ∧ point u = nearestPlace (z * 2 ^ (e + 1074).toNat) := by
  rw [UnpackedFloat.normalize]
  rcases lt_trichotomy z 0 with hz | rfl | hz
  · have h := point_round .negative (m := (-z).toNat) (by omega) hl
    rw [Int.compare_eq_lt.mpr hz]
    have hplace : Sign.negative.apply (gridPoint (-z).toNat e) = z * 2 ^ (e + 1074).toNat := by
      rw [Sign.apply, gridPoint]
      push_cast
      rw [Int.toNat_of_nonneg (by omega), neg_mul, neg_neg]
    rwa [hplace] at h
  · rw [Int.compare_eq_eq.mpr rfl, zero_mul, nearestPlace_zero]
    dsimp only
    rw [unpack_pack (.zero zeroSign)]
    exact ⟨rfl, rfl⟩
  · have h := point_round .positive (m := z.toNat) (by omega) hl
    rw [Int.compare_eq_gt.mpr hz]
    have hplace : Sign.positive.apply (gridPoint z.toNat e) = z * 2 ^ (e + 1074).toNat := by
      rw [Sign.apply, gridPoint]
      push_cast
      rw [Int.toNat_of_nonneg (by omega)]
    rwa [hplace] at h

end ReportTemplate.Number
