import ReportTemplate.Proofs.Number.Arithmetic

/-! The results of arithmetic that are too great for finite numbers.
A result overflows exactly when its exact value reaches the middle between the greatest finite
number and the next power of two, since rounding goes up from there.
-/

namespace ReportTemplate.Number

open Float.Model
open Float.Model.UnpackedFloat

-----------------------------------------------------------------------------------------
-- Packing
-----------------------------------------------------------------------------------------

/-- A magnitude is packed as a finite number exactly when its exponent is small enough. -/
theorem isFinite_unpack_pack {sign : Sign} {m : Nat} {e : Int} {hp : 0 < m}
    : (Float.Model.pack (.finite sign m e hp)).unpack.isFinite = true ↔ e ≤ 971 := by
  have hcomponents : ∀ {exponent : BitVec 11} {mantissa : BitVec 52},
      exponent ≠ -1#11 →
      (UnpackedFloat.unpack .binary64
        (packComponents .binary64 sign exponent mantissa)).isFinite = true := by
    intro exponent mantissa hall
    simp only [UnpackedFloat.unpack, unpackExponent_packComponents, hall, ↓reduceIte]
    split
    · split <;> rfl
    · rfl
  constructor
  · intro h
    by_contra hlt
    rw [unpack_pack_of_lt (by omega)] at h
    cases h
  · intro hle
    rw [unpack_pack_finite, if_neg (by omega)]
    split
    · refine hcomponents ?_
      rw [← BitVec.toNat_ne_iff_ne, BitVec.toNat_ofNat, show (-1#11).toNat = 2047 from rfl]
      omega
    · exact hcomponents (by decide)

-----------------------------------------------------------------------------------------
-- Twice a mantissa
-----------------------------------------------------------------------------------------

/-- Twice the magnitude of an extended mantissa, rounded down. -/
def doubled (em : ExtendedMantissa) : Nat :=
  2 * em.mantissa + em.roundBit.toNat

theorem mantissa_ofMantissaAndAccuracy (m : Nat) (accuracy : Accuracy)
    : (ExtendedMantissa.ofMantissaAndAccuracy m accuracy).mantissa = m := by
  rcases accuracy with _ | (_ | _ | _) <;> rfl

theorem mantissa_shiftRight (em : ExtendedMantissa) (count : Nat)
    : (em >>> count).mantissa = em.mantissa / 2 ^ count := by
  change (Nat.repeat ExtendedMantissa.shiftRightOne count em).mantissa = _
  induction count with
  | zero => simp [Nat.repeat]
  | succ count ih =>
      rw [Nat.repeat, ExtendedMantissa.shiftRightOne, ih, Nat.div_div_eq_div_mul, ← pow_succ]

/-- Shifting halves what is doubled too, since a bit that is cut off becomes the round bit. -/
theorem doubled_shiftRight (em : ExtendedMantissa) (count : Nat)
    : doubled (em >>> count) = doubled em / 2 ^ count := by
  have hone : ∀ em : ExtendedMantissa, doubled em.shiftRightOne = doubled em / 2 := by
    intro ⟨m, roundBit, stickyBit⟩
    have hm := Nat.mod_two_eq_zero_or_one m
    cases roundBit <;> rcases hm with hm | hm <;>
      simp [doubled, ExtendedMantissa.shiftRightOne, hm] <;> omega
  change doubled (Nat.repeat ExtendedMantissa.shiftRightOne count em) = _
  induction count with
  | zero => simp [Nat.repeat]
  | succ count ih => rw [Nat.repeat, hone, ih, Nat.div_div_eq_div_mul, ← pow_succ]

theorem roundedMantissa_bounds (em : ExtendedMantissa)
    : em.mantissa ≤ em.roundedMantissa ∧ em.roundedMantissa ≤ em.mantissa + 1 := by
  obtain ⟨m, roundBit, stickyBit⟩ := em
  cases roundBit <;> cases stickyBit <;>
    simp [ExtendedMantissa.roundedMantissa, ExtendedMantissa.accuracy,
      Accuracy.roundToNearestEven]
  omega

/-- A mantissa of 53 bits keeps them when it is rounded, unless all of them and the round bit are
set.
-/
theorem roundedMantissa_lt_iff {em : ExtendedMantissa} (h : em.mantissa < 2 ^ 53)
    : em.roundedMantissa < 2 ^ 53 ↔ doubled em < 2 ^ 54 - 1 := by
  obtain ⟨m, roundBit, stickyBit⟩ := em
  change m < 2 ^ 53 at h
  cases roundBit <;> cases stickyBit <;>
    simp [doubled, ExtendedMantissa.roundedMantissa, ExtendedMantissa.accuracy,
      Accuracy.roundToNearestEven] <;> omega

-----------------------------------------------------------------------------------------
-- Rounded magnitudes
-----------------------------------------------------------------------------------------

theorem shiftToTargetExponent_eq (m : Nat) (e : Int) (accuracy : Accuracy)
    : shiftToTargetExponent .binary64 m e accuracy
      = (ExtendedMantissa.ofMantissaAndAccuracy m accuracy
          >>> (max (m.log2 + e - 52) (-1074) - e).toNat,
        e + (max (m.log2 + e - 52) (-1074) - e).toNat) := by
  rw [shiftToTargetExponent, shiftToExponent, targetExponent_eq]

/-- A mantissa is cut to at most 53 bits. -/
theorem cut_lt (m : Nat) (e : Int)
    : m / 2 ^ (max (m.log2 + e - 52) (-1074) - e).toNat < 2 ^ 53 := by
  rw [Nat.div_lt_iff_lt_mul (Nat.two_pow_pos _), ← pow_add]
  exact Nat.lt_log2_self.trans_le (Nat.pow_le_pow_right (by decide) (by omega))

/-- The middle between the greatest finite number and the next power of two. -/
def overflowBound : ℚ :=
  2 ^ 1024 - 2 ^ 970

theorem two_mul_overflowBound : 2 * overflowBound = 18014398509481983 * 2 ^ (971 : Int) := by
  have hsplit : (2 : ℚ) ^ 1024 = 2 ^ 54 * 2 ^ 970 := by
    rw [← pow_add, show 54 + 970 = 1024 from rfl]
  have hunit : (2 : ℚ) ^ (((970 : Nat) : Int) + 1) = 2 ^ 970 * 2 := by
    rw [zpow_add_one₀ two_ne_zero, zpow_natCast]
  change _ = 18014398509481983 * (2 : ℚ) ^ (((970 : Nat) : Int) + 1)
  rw [overflowBound, hsplit, hunit]
  generalize (2 : ℚ) ^ 970 = unit
  ring

/-- A value is bounded by its first bits at any exponent. -/
theorem scaled_bounds {value : ℚ} {q count : Nat} (e : Int) (hq : (q * 2 ^ count : Nat) ≤ value)
    (hr : value < ((q + 1) * 2 ^ count : Nat))
    : (q : ℚ) * 2 ^ (e + count) ≤ value * 2 ^ e ∧ value * 2 ^ e < (q + 1) * 2 ^ (e + count) := by
  have hpow : (2 : ℚ) ^ (e + count) = 2 ^ count * 2 ^ e := by
    rw [zpow_add₀ two_ne_zero, zpow_natCast, mul_comm]
  push_cast at hq hr
  rw [hpow, ← mul_assoc, ← mul_assoc]
  constructor <;> gcongr

/-- Twice a magnitude is below twice the bound as its first 54 bits say, by the exponent of the
last of them against that of the greatest number.
-/
theorem lt_overflowBound_iff {twice : ℚ} {q count : Nat} {e : Int}
    (hq : (q * 2 ^ count : Nat) ≤ twice) (hr : twice < ((q + 1) * 2 ^ count : Nat))
    (hlt : q < 2 ^ 54) (hf : e + count ≤ 971 ∨ 2 ^ 53 ≤ q)
    : twice * 2 ^ e < 2 * overflowBound
      ↔ e + count < 971 ∨ e + count = 971 ∧ q < 2 ^ 54 - 1 := by
  obtain ⟨hlow, hhigh⟩ := scaled_bounds e hq hr
  have hnext : ∀ {a b : Int}, a < b → (2 : ℚ) ^ a * 2 ≤ 2 ^ b := by
    intro a b h
    rw [← zpow_add_one₀ two_ne_zero]
    exact zpow_le_zpow_right₀ one_le_two h
  have hunit : (0 : ℚ) < 2 ^ (971 : Int) := by positivity
  rw [two_mul_overflowBound]
  rcases lt_trichotomy (e + count) 971 with h | h | h
  · have hq : (q : ℚ) + 1 ≤ 18014398509481984 := by exact_mod_cast hlt
    have hless := hnext h
    refine iff_of_true ?_ (.inl h)
    generalize (2 : ℚ) ^ (971 : Int) = unit at *
    nlinarith
  · rw [h] at hlow hhigh
    generalize (2 : ℚ) ^ (971 : Int) = unit at *
    constructor
    · intro hb
      have hq := lt_of_mul_lt_mul_right (hlow.trans_lt hb) hunit.le
      exact .inr ⟨h, by exact_mod_cast hq⟩
    · intro hb
      have hq : q + 1 ≤ 18014398509481983 := by omega
      have hcast : (q : ℚ) + 1 ≤ 18014398509481983 := by exact_mod_cast hq
      exact hhigh.trans_le (mul_le_mul_of_nonneg_right hcast hunit.le)
  · have hq : (9007199254740992 : ℚ) ≤ q := by exact_mod_cast hf.resolve_left (by omega)
    have hmore := hnext h
    refine iff_of_false (not_lt.mpr ?_) (by omega)
    generalize (2 : ℚ) ^ (971 : Int) = unit at *
    nlinarith

/-- A mantissa that has been rounded is cut once more, by a bit where the rounding carried over all
of them; it is finite for its exponent, and at the greatest one without a carry.
-/
theorem isFinite_pack_cut {sign : Sign} {r count : Nat} {e : Int} (hr : r ≤ 2 ^ 53)
    (hl : -1074 ≤ e) (hf : e ≤ 971 ∨ 2 ^ 52 ≤ r)
    (hc : (max (r.log2 + e - 52) (-1074) - e).toNat = count)
    : (Float.Model.pack
        (if h : r / 2 ^ count = 0 then .zero sign
        else .finite sign (r / 2 ^ count) (e + count) (Nat.pos_of_ne_zero h))).unpack.isFinite
        = true
      ↔ e < 971 ∨ e = 971 ∧ r < 2 ^ 53 := by
  have hfew : r < 2 ^ 53 → r.log2 ≤ 52 := by
    intro hlt
    rcases r.eq_zero_or_pos with hz | hpos
    · rw [hz]
      decide
    · exact Nat.lt_succ_iff.mp ((Nat.log2_lt hpos.ne').mpr hlt)
  have hall : ¬ r < 2 ^ 53 → r.log2 = 53 := by
    intro hge
    rw [show r = 2 ^ 53 by omega, Nat.log2_two_pow]
  split
  · next hz =>
    have hone : count = 0 ∨ count = 1 := by
      by_cases hlt : r < 2 ^ 53
      · have := hfew hlt
        omega
      · have := hall hlt
        omega
    have hsmall : r < 2 := by
      rcases hone with rfl | rfl <;> omega
    rw [unpack_pack (.zero sign)]
    exact iff_of_true rfl (by omega)
  · rw [isFinite_unpack_pack]
    by_cases hlt : r < 2 ^ 53
    · have := hfew hlt
      omega
    · have := hall hlt
      omega

/-- A magnitude is rounded to a finite number exactly when it is below the bound. -/
theorem isFinite_pack_roundWithAccuracy (sign : Sign) {m : Nat} {e : Int} {accuracy : Accuracy}
    {twice : ℚ} (hq : doubled (.ofMantissaAndAccuracy m accuracy) ≤ twice)
    (hr : twice < doubled (.ofMantissaAndAccuracy m accuracy) + 1) (h : 2 ^ 52 ≤ m ∨ e ≤ 971)
    : (Float.Model.pack (roundWithAccuracy .binary64 sign m e accuracy)).unpack.isFinite = true
      ↔ twice * 2 ^ e < 2 * overflowBound := by
  have hmantissa := mantissa_ofMantissaAndAccuracy m accuracy
  have hlt := cut_lt m e
  rw [roundWithAccuracy, shiftToTargetExponent_eq]
  dsimp only
  generalize hcount : (max (m.log2 + e - 52) (-1074) - e).toNat = count at hlt ⊢
  generalize ExtendedMantissa.ofMantissaAndAccuracy m accuracy = start at hmantissa hq hr ⊢
  have hem := mantissa_shiftRight start count
  have hdoubled := doubled_shiftRight start count
  rw [hmantissa] at hem
  generalize start >>> count = em at hem hdoubled ⊢
  rw [← hem] at hlt
  have hexponent : -1074 ≤ e + count := by omega
  have hfull : e + count ≤ 971 ∨ 2 ^ 52 ≤ em.mantissa := by
    rw [or_iff_not_imp_left]
    intro hgt
    have hlog : 52 ≤ m.log2 := by
      rcases h with hm | he
      · exact (Nat.le_log2 (by omega)).mpr hm
      · omega
    have hcut : count = m.log2 - 52 := by omega
    rw [hem, hcut]
    exact le_div_two_pow hlog
  have hbit := Bool.toNat_le em.roundBit
  have hdouble : doubled em = 2 * em.mantissa + em.roundBit.toNat := rfl
  have hround := roundedMantissa_bounds em
  have hcarry := roundedMantissa_lt_iff hlt
  have hle : em.roundedMantissa ≤ 2 ^ 53 := by omega
  have hkept : e + count ≤ 971 ∨ 2 ^ 52 ≤ em.roundedMantissa := by omega
  have hlow : ((doubled em * 2 ^ count : Nat) : ℚ) ≤ twice := by
    refine le_trans (Nat.cast_le.mpr ?_) hq
    rw [hdoubled]
    exact Nat.div_mul_le_self _ _
  have hhigh : twice < ((doubled em + 1) * 2 ^ count : Nat) := by
    refine hr.trans_le ?_
    have hs : doubled start + 1 ≤ (doubled em + 1) * 2 ^ count := by
      rw [hdoubled]
      exact Nat.lt_mul_of_div_lt (Nat.lt_succ_self _) (Nat.two_pow_pos count)
    exact_mod_cast hs
  rw [lt_overflowBound_iff hlow hhigh (by omega) (by omega), ← hcarry, shiftToTargetExponent_eq]
  dsimp only
  rw [mantissa_shiftRight]
  exact isFinite_pack_cut hle hexponent hkept rfl

-----------------------------------------------------------------------------------------
-- Exact values
-----------------------------------------------------------------------------------------

/-- The value of a finite number. -/
def exact (x : Float) : ℚ :=
  place x / gridUnit

theorem overflowBound_pos : 0 < overflowBound :=
  sub_pos.mpr (pow_lt_pow_right₀ one_lt_two (by decide))

theorem exact_of_zero {x : Float} {sign : Sign} (h : x.toModel.unpack = .zero sign)
    : exact x = 0 := by
  rw [exact, place, h, point, Int.cast_zero, zero_div]

/-- The place of a magnitude, by its value. -/
theorem gridPoint_eq (m : Nat) {e : Int} (h : -1074 ≤ e)
    : (gridPoint m e : ℚ) = m * 2 ^ e * 2 ^ (1074 : Int) := by
  rw [gridPoint, Nat.cast_mul, Nat.cast_pow, ← zpow_natCast, Int.toNat_of_nonneg (by omega),
    mul_assoc, ← zpow_add₀ two_ne_zero, Nat.cast_two]

theorem gridUnit_eq : (gridUnit : ℚ) = 2 ^ (1074 : Int) := by
  rw [gridUnit, gridPoint_eq 1 (by decide), Nat.cast_one, one_mul, zpow_zero, one_mul]

/-- The magnitude of a finite number is its mantissa, scaled. -/
theorem abs_exact {x : Float} {sign : Sign} {m : Nat} {e : Int} {hp : 0 < m}
    (h : x.toModel.unpack = .finite sign m e hp)
    : |exact x| = m * 2 ^ e := by
  have hc := isCanonical_unpack x.toModel
  have hl : -1074 ≤ e := by
    rw [h] at hc
    cases hc
    assumption
  have hplace : |(place x : ℚ)| = gridPoint m e := by
    rw [← Int.cast_abs, Int.abs_eq_natAbs, place, h, point, natAbs_apply, Int.cast_natCast]
  rw [exact, abs_div, hplace, Nat.abs_cast, gridUnit_eq, gridPoint_eq m hl, mul_div_cancel_right₀]
  positivity

/-- Every finite number is below the bound. -/
theorem abs_exact_lt {x : Float} (h : x.isFinite = true) : |exact x| < overflowBound := by
  obtain ⟨sign, hu⟩ | ⟨sign, m, e, hp, hu⟩ := unpack_of_isFinite h
  · rw [exact_of_zero hu, abs_zero]
    exact overflowBound_pos
  · have hc := isCanonical_unpack x.toModel
    rw [hu] at hc
    cases hc with
    | finite hm hl hx hs =>
        have hmantissa : 2 * (m : ℚ) ≤ 18014398509481982 := by exact_mod_cast (by omega)
        have hpow : (2 : ℚ) ^ e ≤ 2 ^ (971 : Int) := zpow_le_zpow_right₀ one_le_two hx
        have hunit : (0 : ℚ) < 2 ^ (971 : Int) := by positivity
        refine lt_of_mul_lt_mul_left ?_ zero_le_two
        calc
          2 * |exact x| = 2 * (m : ℚ) * 2 ^ e := by rw [abs_exact hu, mul_assoc]
          _ ≤ 18014398509481982 * 2 ^ (971 : Int) := by gcongr
          _ < 18014398509481983 * 2 ^ (971 : Int) := by gcongr; norm_num
          _ = 2 * overflowBound := two_mul_overflowBound.symm

theorem IsWhole.exact_eq {x : Float} {z : Int} (h : IsWhole x z) : exact x = z := by
  have hunit : (gridUnit : ℚ) ≠ 0 := by exact_mod_cast gridUnit_pos.ne'
  rw [exact, h.2, Int.cast_mul, Int.cast_natCast, mul_div_cancel_right₀ _ hunit]

-----------------------------------------------------------------------------------------
-- Products and quotients
-----------------------------------------------------------------------------------------

/-- The product of finite numbers is finite exactly when its exact value is below the bound. -/
theorem isFinite_mul_iff {x y : Float} (hx : x.isFinite = true) (hy : y.isFinite = true)
    : (x * y).isFinite = true ↔ |exact x * exact y| < overflowBound := by
  have hmul : (x * y).isFinite
      = (Float.Model.pack (x.toModel.unpack.mul .binary64 y.toModel.unpack)).unpack.isFinite := rfl
  rw [hmul]
  obtain ⟨sign, hu⟩ | ⟨sign, m, e, hp, hu⟩ := unpack_of_isFinite hx
  · have hzero : ∃ other, x.toModel.unpack.mul .binary64 y.toModel.unpack = .zero other := by
      obtain ⟨other, hv⟩ | ⟨other, n, d, hn, hv⟩ := unpack_of_isFinite hy <;>
        exact ⟨_, by rw [hu, hv]; rfl⟩
    obtain ⟨other, hz⟩ := hzero
    rw [hz, unpack_pack (.zero other), exact_of_zero hu, zero_mul, abs_zero]
    exact iff_of_true rfl overflowBound_pos
  · obtain ⟨other, hv⟩ | ⟨other, n, d, hn, hv⟩ := unpack_of_isFinite hy
    · rw [hu, hv, UnpackedFloat.mul, unpack_pack (.zero _), exact_of_zero hv, mul_zero, abs_zero]
      exact iff_of_true rfl overflowBound_pos
    · have hfull : 2 ^ 52 ≤ m * n ∨ e + d ≤ 971 := by
        have hcu := isCanonical_unpack x.toModel
        have hcv := isCanonical_unpack y.toModel
        rw [hu] at hcu
        rw [hv] at hcv
        cases hcv with
        | finite hb hd hle ht =>
            cases hcu with
            | finite hb hl hu hs =>
                rcases hs with hm | he
                · exact .inl (hm.trans (Nat.le_mul_of_pos_right m hn))
                · exact .inr (by omega)
      have hdoubled : (doubled (.ofMantissaAndAccuracy (m * n) .exact) : ℚ) = 2 * (m * n) := by
        simp [doubled, ExtendedMantissa.ofMantissaAndAccuracy]
      have hvalue : 2 * |exact x * exact y| = 2 * (m * n : ℚ) * 2 ^ (e + d) := by
        rw [abs_mul, abs_exact hu, abs_exact hv, zpow_add₀ two_ne_zero]
        ring
      rw [hu, hv, UnpackedFloat.mul,
        isFinite_pack_roundWithAccuracy _ hdoubled.le (by rw [hdoubled]; linarith) hfull, ← hvalue]
      exact mul_lt_mul_iff_right₀ two_pos

/-- The round bit of a quotient is the next bit of it. -/
theorem doubled_accuracyOfFraction (n : Nat) {divisor : Nat} (h : 0 < divisor)
    : doubled (.ofMantissaAndAccuracy (n / divisor) (accuracyOfFraction (n % divisor) divisor))
      = 2 * n / divisor := by
  have hlt := Nat.mod_lt n h
  have hn := Nat.div_add_mod n divisor
  have hsplit : 2 * n / divisor = 2 * (n / divisor) + 2 * (n % divisor) / divisor := by
    conv => lhs; rw [← hn]
    rw [mul_add, ← mul_assoc, mul_comm 2 divisor, mul_assoc, Nat.mul_add_div h]
  have hrest : 2 * (n % divisor) / divisor = if divisor ≤ 2 * (n % divisor) then 1 else 0 := by
    split
    · exact Nat.div_eq_of_lt_le (by omega) (by omega)
    · exact Nat.div_eq_of_lt (by omega)
  rw [hsplit, hrest, accuracyOfFraction]
  generalize n % divisor = rest at *
  by_cases hz : rest = 0
  · rw [if_pos hz, if_neg (by omega)]
    rfl
  · rw [if_neg hz]
    rcases lt_trichotomy (2 * rest) divisor with hc | hc | hc
    · rw [Nat.compare_eq_lt.mpr hc, if_neg (by omega)]
      rfl
    · rw [Nat.compare_eq_eq.mpr hc, if_pos (by omega)]
      rfl
    · rw [Nat.compare_eq_gt.mpr hc, if_pos (by omega)]
      rfl

/-- A quotient has 53 bits when its numerator has so many more than its denominator. -/
theorem le_shiftLeft_div {m n count : Nat} (hm : 0 < m) (hn : 0 < n)
    (h : n.log2 + 53 ≤ m.log2 + count)
    : 2 ^ 52 ≤ m <<< count / n := by
  refine (Nat.le_div_iff_mul_le hn).mpr ?_
  calc
    2 ^ 52 * n ≤ 2 ^ 52 * 2 ^ (n.log2 + 1) := Nat.mul_le_mul_left _ Nat.lt_log2_self.le
    _ = 2 ^ (n.log2 + 53) := by
      rw [← pow_add]
      congr 1
      omega
    _ ≤ 2 ^ (m.log2 + count) := Nat.pow_le_pow_right (by decide) h
    _ ≤ m <<< count := by
      rw [Nat.shiftLeft_eq, pow_add]
      exact Nat.mul_le_mul_right _ (Nat.log2_self_le hm.ne')

/-- The quotient of two magnitudes is cut before it is rounded, to 53 bits or to the least
exponent; the round bit is the next bit of it.
-/
theorem exists_div {x y : Float} {sign other : Sign} {m n : Nat} {e d : Int} {hp : 0 < m}
    {hn : 0 < n} (hu : x.toModel.unpack = .finite sign m e hp)
    (hv : y.toModel.unpack = .finite other n d hn)
    : ∃ q least accuracy, ∃ twice : ℚ,
        x.toModel.unpack.div .binary64 y.toModel.unpack
          = roundWithAccuracy .binary64 (sign / other) q least accuracy
        ∧ (2 ^ 52 ≤ q ∨ least ≤ -1074)
        ∧ doubled (.ofMantissaAndAccuracy q accuracy) ≤ twice
        ∧ twice < doubled (.ofMantissaAndAccuracy q accuracy) + 1
        ∧ 2 * |exact x / exact y| = twice * 2 ^ least := by
  have hcore : ∃ count : Nat, ∃ least : Int, least = e - d - count
      ∧ (least ≤ -1074 ∨ n.log2 + 53 ≤ m.log2 + count)
      ∧ x.toModel.unpack.div .binary64 y.toModel.unpack
        = roundWithAccuracy .binary64 (sign / other) (m <<< count / n) least
            (accuracyOfFraction (m <<< count % n) n) := by
    have htarget : ∀ total, Format.binary64.targetExponent total = max (total - 53) (-1074) :=
      fun total => rfl
    rw [hu, hv, UnpackedFloat.div, divCore]
    dsimp only
    rw [htarget, totalExponent, totalExponent]
    exact ⟨_, _, by omega, by omega, rfl⟩
  obtain ⟨count, least, hleast, hbits, hround⟩ := hcore
  have hfull : 2 ^ 52 ≤ m <<< count / n ∨ least ≤ -1074 :=
    (hbits.imp_right (le_shiftLeft_div hp hn)).symm
  have hfloor := Nat.floor_div_eq_div (K := ℚ) (2 * m <<< count) n
  have hnonneg : (0 : ℚ) ≤ (2 * m <<< count : Nat) / n := by positivity
  have hlow := Nat.floor_le hnonneg
  have hhigh := Nat.lt_floor_add_one (((2 * m <<< count : Nat) : ℚ) / n)
  rw [hfloor, ← doubled_accuracyOfFraction _ hn] at hlow hhigh
  have hvalue : 2 * |exact x / exact y| = (2 * m <<< count : Nat) / n * 2 ^ least := by
    have hpow : (2 : ℚ) ^ least = 2 ^ e / 2 ^ d / 2 ^ count := by
      rw [hleast, zpow_sub₀ two_ne_zero, zpow_sub₀ two_ne_zero, zpow_natCast]
    rw [abs_div, abs_exact hu, abs_exact hv, hpow, Nat.shiftLeft_eq]
    push_cast
    field_simp
  exact ⟨_, least, _, _, hround, hfull, hlow, hhigh, hvalue⟩

/-- The quotient of finite numbers is finite exactly when its exact value is below the bound, if
the divisor is not zero.
-/
theorem isFinite_div_iff {x y : Float} (hx : x.isFinite = true) (hy : y.isFinite = true)
    (hne : exact y ≠ 0)
    : (x / y).isFinite = true ↔ |exact x / exact y| < overflowBound := by
  have hdiv : (x / y).isFinite
      = (Float.Model.pack (x.toModel.unpack.div .binary64 y.toModel.unpack)).unpack.isFinite := rfl
  rw [hdiv]
  obtain ⟨other, hv⟩ | ⟨other, n, d, hn, hv⟩ := unpack_of_isFinite hy
  · exact absurd (exact_of_zero hv) hne
  obtain ⟨sign, hu⟩ | ⟨sign, m, e, hp, hu⟩ := unpack_of_isFinite hx
  · rw [hu, hv, UnpackedFloat.div, unpack_pack (.zero _), exact_of_zero hu, zero_div, abs_zero]
    exact iff_of_true rfl overflowBound_pos
  · obtain ⟨q, least, accuracy, twice, hround, hfull, hlow, hhigh, hvalue⟩ := exists_div hu hv
    rw [hround, isFinite_pack_roundWithAccuracy _ hlow hhigh (by omega), ← hvalue]
    exact mul_lt_mul_iff_right₀ two_pos

end ReportTemplate.Number
