import ReportTemplate.Proofs.Number.Overflow

/-! The results of arithmetic that are too small for numbers other than zero.
A magnitude of at least the least place keeps a bit of its mantissa when it is rounded, so it is
never rounded to zero.
-/

namespace ReportTemplate.Number

open Float.Model
open Float.Model.UnpackedFloat

/-- A mantissa of at most 53 bits is packed as zero at no exponent, by its bits. -/
theorem unpack_pack_ne_zero {sign : Sign} {m : Nat} {e : Int} {hp : 0 < m} (hm : m < 2 ^ 53)
    (hl : -1074 ≤ e) (other : Sign)
    : (Float.Model.pack (.finite sign m e hp)).unpack ≠ .zero other := by
  by_cases hu : 971 < e
  · rw [unpack_pack_of_lt hu]
    exact nofun
  by_cases hf : 2 ^ 52 ≤ m
  · rw [unpack_pack_full hf hm hl (by omega)]
    exact nofun
  · -- Without a first bit to leave out, the packed exponent is that of the least numbers.
    have hlog : m.log2 < 52 := (Nat.log2_lt hp.ne').mpr (by omega)
    have hfew : m.log2 + 1 ≠ Format.binary64.mantissaBits := by
      rw [show Format.binary64.mantissaBits = 53 from rfl]
      omega
    have hleast : (Float.Model.pack (.finite sign m e hp)).unpack
        = (Float.Model.pack (.finite sign m (-1074) hp)).unpack := by
      rw [unpack_pack_finite, unpack_pack_finite, if_neg (by omega), if_neg hfew,
        if_neg (by decide), if_neg hfew]
    rw [hleast, unpack_pack_small (by omega)]
    exact nofun

/-- A magnitude of at least the least place keeps a bit when it is cut, and at most 53 of them. -/
theorem cut_bounds {m count : Nat} {e : Int} (hp : 0 < m) (h : -1074 ≤ m.log2 + e)
    (hc : (max (m.log2 + e - 52) (-1074) - e).toNat = count)
    : 0 < m / 2 ^ count ∧ m / 2 ^ count < 2 ^ 53 ∧ -1074 ≤ e + count := by
  refine ⟨Nat.div_pos ?_ (Nat.two_pow_pos count), hc ▸ cut_lt m e, by omega⟩
  exact (Nat.pow_le_pow_right (by decide) (by omega)).trans (Nat.log2_self_le hp.ne')

/-- Rounding keeps a bit as well, since it is cut again only behind a carry. -/
theorem unpack_pack_roundWithAccuracy_ne_zero {sign : Sign} {m : Nat} {e : Int}
    {accuracy : Accuracy} (hp : 0 < m) (h : -1074 ≤ m.log2 + e) (other : Sign)
    : (Float.Model.pack (roundWithAccuracy .binary64 sign m e accuracy)).unpack ≠ .zero other := by
  rw [roundWithAccuracy, shiftToTargetExponent_eq]
  dsimp only
  generalize hcount : (max (m.log2 + e - 52) (-1074) - e).toNat = count
  obtain ⟨hkept, -, hleast⟩ := cut_bounds hp h hcount
  generalize hem : ExtendedMantissa.ofMantissaAndAccuracy m accuracy >>> count = em
  have hcut : em.mantissa = m / 2 ^ count := by
    rw [← hem, mantissa_shiftRight, mantissa_ofMantissaAndAccuracy]
  have hround := roundedMantissa_bounds em
  generalize em.roundedMantissa = r at hround ⊢
  obtain ⟨hpos, hlt, hlow⟩ := cut_bounds (m := r) (e := e + count) (by omega) (by omega) rfl
  rw [shiftToTargetExponent_eq]
  dsimp only
  rw [mantissa_shiftRight]
  split
  · next hzero => exact absurd hzero hpos.ne'
  · exact unpack_pack_ne_zero hlt hlow other

/-- Only zeros have the value zero. -/
theorem exact_ne_zero {x : Float} (hx : x.isFinite = true)
    (h : ∀ sign, x.toModel.unpack ≠ .zero sign)
    : exact x ≠ 0 := by
  obtain ⟨sign, hu⟩ | ⟨sign, m, e, hp, hu⟩ := unpack_of_isFinite hx
  · exact absurd hu (h sign)
  · have hpos : (0 : ℚ) < m * 2 ^ e := by positivity
    rw [← abs_pos, abs_exact hu]
    exact hpos

/-- A quotient is not zero when its exact value is at least the least place. -/
theorem exact_div_ne_zero {x y : Float} (hx : x.isFinite = true) (hy : y.isFinite = true)
    (hf : (x / y).isFinite = true) (h : 2 ^ (-1074 : Int) ≤ |exact x / exact y|)
    : exact (x / y) ≠ 0 := by
  have hleast : (0 : ℚ) < 2 ^ (-1074 : Int) := by positivity
  refine exact_ne_zero hf ?_
  intro zeroSign
  change (Float.Model.pack (x.toModel.unpack.div .binary64 y.toModel.unpack)).unpack ≠ _
  obtain ⟨other, hv⟩ | ⟨other, n, d, hn, hv⟩ := unpack_of_isFinite hy
  · rw [exact_of_zero hv, div_zero, abs_zero] at h
    exact absurd h (not_le.mpr hleast)
  obtain ⟨sign, hu⟩ | ⟨sign, m, e, hp, hu⟩ := unpack_of_isFinite hx
  · rw [exact_of_zero hu, zero_div, abs_zero] at h
    exact absurd h (not_le.mpr hleast)
  · obtain ⟨q, least, accuracy, twice, hround, hfull, -, hhigh, hvalue⟩ := exists_div hu hv
    have hdouble : doubled (.ofMantissaAndAccuracy q accuracy) + 1 ≤ 2 * (q + 1) := by
      have hbit := Bool.toNat_le (ExtendedMantissa.ofMantissaAndAccuracy q accuracy).roundBit
      rw [doubled, mantissa_ofMantissaAndAccuracy]
      omega
    -- So many bits of the quotient reach the least place.
    have hbits : ∀ {bits : Nat}, q + 1 ≤ 2 ^ bits → -1074 < bits + least := by
      intro bits hq
      by_contra hlt
      have htwice : twice < 2 * 2 ^ bits := by
        refine hhigh.trans_le ?_
        exact_mod_cast hdouble.trans (Nat.mul_le_mul_left 2 hq)
      have hsmall := calc
        2 * |exact x / exact y| = twice * 2 ^ least := hvalue
        _ < 2 * 2 ^ bits * 2 ^ least := by gcongr
        _ = 2 * 2 ^ ((bits : Int) + least) := by
          rw [zpow_add₀ two_ne_zero, zpow_natCast, mul_assoc]
        _ ≤ 2 * 2 ^ (-1074 : Int) := by
          gcongr
          · exact one_le_two
          · omega
      linarith
    have hpos : 0 < q := by
      rcases q.eq_zero_or_pos with rfl | hpos
      · have hone := hbits (Nat.le_of_eq (pow_zero 2).symm)
        omega
      · exact hpos
    have hmore := hbits Nat.lt_log2_self
    rw [hround]
    exact unpack_pack_roundWithAccuracy_ne_zero hpos (by omega) zeroSign

end ReportTemplate.Number
