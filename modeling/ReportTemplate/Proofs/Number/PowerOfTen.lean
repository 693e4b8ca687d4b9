import ReportTemplate.Proofs.Number.Precision
import ReportTemplate.Proofs.Number.Special
import ReportTemplate.Proofs.Number.Underflow

/-! The powers of ten that are finite.
Each product of the squaring adds or takes at most its share of rounding, so a power lies between
the powers of a base that is a little smaller and of one that is a little greater. Both are beyond
the finite numbers from the 309th power on, and neither is before.
-/

namespace ReportTemplate.Number

-----------------------------------------------------------------------------------------
-- Steps of the squaring
-----------------------------------------------------------------------------------------

/-- What the last binary digit of an exponent leaves of the power gathered so far. -/
def gathered (base acc : Float) (n : Nat) : Float :=
  if n % 2 = 1 then acc * base else acc

theorem squarePower_succ (bits : Nat) (base acc : Float) (n : Nat)
    : squarePower (bits + 1) base acc n
      = if n / 2 = 0 then gathered base acc n
        else squarePower bits (base * base) (gathered base acc n) (n / 2) :=
  rfl

/-- A base that is so much greater that its powers are not below the rounded ones: each factor of
a power is rounded less than twice on the average.
-/
def raisedBase (base : Float) : ℚ :=
  exact base * (1 + roundingShare) ^ 2

/-- A base that is so much smaller that its powers are not above the rounded ones. -/
def loweredBase (base : Float) : ℚ :=
  exact base * (1 - roundingShare) ^ 2

theorem roundingShare_pos : 0 < roundingShare := by
  norm_num [roundingShare]

theorem roundingShare_le_one : roundingShare ≤ 1 := by
  norm_num [roundingShare]

theorem IsAtLeastOne.le_raisedBase {base : Float} (h : IsAtLeastOne base)
    : exact base ≤ raisedBase base :=
  le_mul_of_one_le_right h.pos.le (one_le_pow₀ (le_add_of_nonneg_right roundingShare_pos.le))

theorem IsAtLeastOne.one_le_raisedBase {base : Float} (h : IsAtLeastOne base)
    : 1 ≤ raisedBase base :=
  h.one_le.trans h.le_raisedBase

/-- Gathering one digit multiplies by the base at most once. -/
theorem IsAtLeastOne.gathered {base acc : Float} {n : Nat} (hb : IsAtLeastOne base)
    (ha : IsAtLeastOne acc) (hf : (gathered base acc n).isFinite = true)
    : IsAtLeastOne (gathered base acc n)
      ∧ exact (Number.gathered base acc n) ≤ exact acc * raisedBase base ^ (n % 2)
      ∧ exact acc * loweredBase base ^ (n % 2) ≤ exact (Number.gathered base acc n) := by
  have hproduct : 0 ≤ exact acc * exact base := mul_nonneg ha.pos.le hb.pos.le
  rw [Number.gathered] at hf ⊢
  split at hf
  · next hodd =>
    obtain ⟨hm, hhigh, hlow⟩ := ha.mul hb hf
    rw [if_pos hodd, hodd, pow_one, pow_one, raisedBase, loweredBase, ← mul_assoc, ← mul_assoc]
    refine ⟨hm, hhigh.trans ?_, le_trans ?_ hlow⟩
    · have hraised := le_add_of_nonneg_right (a := (1 : ℚ)) roundingShare_pos.le
      exact mul_le_mul_of_nonneg_left (le_self_pow₀ hraised two_ne_zero) hproduct
    · have hnonneg := sub_nonneg.mpr roundingShare_le_one
      have hlowered := sub_le_self (1 : ℚ) roundingShare_pos.le
      exact mul_le_mul_of_nonneg_left (pow_le_of_le_one hnonneg hlowered two_ne_zero) hproduct
  · next heven =>
    rw [if_neg heven, show n % 2 = 0 by omega, pow_zero, pow_zero, mul_one]
    exact ⟨ha, le_refl _, le_refl _⟩

/-- Squaring the base squares what bounds its powers. -/
theorem IsAtLeastOne.square {base : Float} (hb : IsAtLeastOne base)
    (hf : (base * base).isFinite = true)
    : IsAtLeastOne (base * base)
      ∧ raisedBase (base * base) ≤ raisedBase base ^ 2
      ∧ loweredBase base ^ 2 ≤ loweredBase (base * base) := by
  have hshare := roundingShare_pos
  have hone := roundingShare_le_one
  obtain ⟨hm, hhigh, hlow⟩ := hb.mul hb hf
  have hsquare : 0 ≤ exact base * exact base := mul_self_nonneg _
  refine ⟨hm, ?_, ?_⟩
  · calc
      exact (base * base) * (1 + roundingShare) ^ 2
          ≤ exact base * exact base * (1 + roundingShare) * (1 + roundingShare) ^ 2 :=
        mul_le_mul_of_nonneg_right hhigh (sq_nonneg _)
      _ = exact base * exact base * (1 + roundingShare) ^ 3 := by ring
      _ ≤ exact base * exact base * (1 + roundingShare) ^ 4 :=
        mul_le_mul_of_nonneg_left (pow_le_pow_right₀ (by linarith) (by decide)) hsquare
      _ = raisedBase base ^ 2 := by
        rw [raisedBase]
        ring
  · calc
      loweredBase base ^ 2 = exact base * exact base * (1 - roundingShare) ^ 4 := by
        rw [loweredBase]
        ring
      _ ≤ exact base * exact base * (1 - roundingShare) ^ 3 :=
        mul_le_mul_of_nonneg_left
          (pow_le_pow_of_le_one (by linarith) (by linarith) (by decide)) hsquare
      _ = exact base * exact base * (1 - roundingShare) * (1 - roundingShare) ^ 2 := by ring
      _ ≤ exact (base * base) * (1 - roundingShare) ^ 2 :=
        mul_le_mul_of_nonneg_right hlow (sq_nonneg _)

/-- A power is its last digit's factor and a power of the square. -/
theorem mul_pow_digits (acc base : ℚ) (n : Nat)
    : acc * base ^ (n % 2) * (base ^ 2) ^ (n / 2) = acc * base ^ n := by
  rw [← pow_mul, mul_assoc, ← pow_add, Nat.mod_add_div]

/-- Gathering the last digit of an exponent does not overflow where the power of the raised base is
below the bound.
-/
theorem IsAtLeastOne.isFinite_gathered {base acc : Float} {n : Nat} (hb : IsAtLeastOne base)
    (ha : IsAtLeastOne acc) (hlt : exact acc * raisedBase base ^ n < overflowBound)
    : (Number.gathered base acc n).isFinite = true := by
  rw [Number.gathered]
  split
  · next hodd =>
    rw [isFinite_mul_iff ha.finite hb.finite, abs_of_pos (mul_pos ha.pos hb.pos)]
    refine lt_of_le_of_lt (mul_le_mul_of_nonneg_left ?_ ha.pos.le) hlt
    exact hb.le_raisedBase.trans (le_self_pow₀ hb.one_le_raisedBase (by omega))
  · exact ha.finite

/-- Squaring the base for the digits before the last one does not overflow there either. -/
theorem IsAtLeastOne.isFinite_square {base acc : Float} {n : Nat} (hb : IsAtLeastOne base)
    (ha : IsAtLeastOne acc) (hn : 2 ≤ n)
    (hlt : exact acc * raisedBase base ^ n < overflowBound)
    : (base * base).isFinite = true := by
  have hraised := zero_le_one.trans hb.one_le_raisedBase
  rw [isFinite_mul_iff hb.finite hb.finite, abs_of_pos (mul_pos hb.pos hb.pos)]
  calc
    exact base * exact base ≤ raisedBase base * raisedBase base :=
      mul_le_mul hb.le_raisedBase hb.le_raisedBase hb.pos.le hraised
    _ = raisedBase base ^ 2 := (sq _).symm
    _ ≤ raisedBase base ^ n := pow_le_pow_right₀ hb.one_le_raisedBase hn
    _ ≤ exact acc * raisedBase base ^ n := le_mul_of_one_le_left (pow_nonneg hraised n) ha.one_le
    _ < overflowBound := hlt

-----------------------------------------------------------------------------------------
-- Runs of the squaring
-----------------------------------------------------------------------------------------

/-- A power is finite where the power of the raised base is below the bound, by induction on the
binary digits: what is gathered and the square grow no faster than the raised base says.
-/
theorem isAtLeastOne_squarePower {bits n : Nat} {base acc : Float} (hn : n < 2 ^ bits)
    (hb : IsAtLeastOne base) (ha : IsAtLeastOne acc)
    (hlt : exact acc * raisedBase base ^ n < overflowBound)
    : IsAtLeastOne (squarePower bits base acc n) := by
  induction bits generalizing base acc n with
  | zero => exact ha
  | succ bits ih =>
      obtain ⟨hg, hhigh, -⟩ := hb.gathered ha (hb.isFinite_gathered ha hlt)
      rw [squarePower_succ]
      split
      · exact hg
      · next hmore =>
        obtain ⟨hs, hraised, -⟩ := hb.square (hb.isFinite_square ha (by omega) hlt)
        have hsquare := zero_le_one.trans hs.one_le_raisedBase
        refine ih (by omega) hs hg (lt_of_le_of_lt ?_ hlt)
        rw [← mul_pow_digits (exact acc)]
        exact mul_le_mul hhigh (pow_le_pow_left₀ hsquare hraised _) (pow_nonneg hsquare _)
          (mul_nonneg ha.pos.le (pow_nonneg (zero_le_one.trans hb.one_le_raisedBase) _))

/-- A power is finite only if its factors are, by induction on the binary digits. -/
theorem isFinite_of_squarePower {bits n : Nat} {base acc : Float} (hn : n < 2 ^ bits)
    (hf : (squarePower bits base acc n).isFinite = true)
    : acc.isFinite = true ∧ (0 < n → base.isFinite = true) := by
  induction bits generalizing base acc n with
  | zero => exact ⟨hf, by omega⟩
  | succ bits ih =>
      have hfactors : (gathered base acc n).isFinite = true →
          acc.isFinite = true ∧ (n % 2 = 1 → base.isFinite = true) := by
        intro h
        rw [gathered] at h
        split at h
        · exact ⟨(isFinite_of_mul h).1, fun _ => (isFinite_of_mul h).2⟩
        · next heven => exact ⟨h, fun hodd => absurd hodd heven⟩
      rw [squarePower_succ] at hf
      split at hf
      · obtain ⟨ha, hb⟩ := hfactors hf
        exact ⟨ha, fun _ => hb (by omega)⟩
      · obtain ⟨hg, hs⟩ := ih (by omega) hf
        exact ⟨(hfactors hg).1, fun _ => (isFinite_of_mul (hs (by omega))).1⟩

/-- A finite power is not below the power of the lowered base, by induction on the binary digits.
-/
theorem le_squarePower {bits n : Nat} {base acc : Float} (hn : n < 2 ^ bits)
    (hb : IsAtLeastOne base) (ha : IsAtLeastOne acc)
    (hf : (squarePower bits base acc n).isFinite = true)
    : exact acc * loweredBase base ^ n ≤ exact (squarePower bits base acc n) := by
  induction bits generalizing base acc n with
  | zero =>
      rw [show n = 0 by omega, pow_zero, mul_one]
      exact le_refl _
  | succ bits ih =>
      rw [squarePower_succ] at hf ⊢
      split at hf
      · next hlast =>
        rw [if_pos hlast, ← mul_pow_digits (exact acc), hlast, pow_zero, mul_one]
        exact (hb.gathered ha hf).2.2
      · next hmore =>
        obtain ⟨hgathered, hsquared⟩ := isFinite_of_squarePower (by omega) hf
        obtain ⟨hg, -, hlow⟩ := hb.gathered ha hgathered
        obtain ⟨hs, -, hlowered⟩ := hb.square (hsquared (by omega))
        rw [if_neg hmore, ← mul_pow_digits (exact acc)]
        refine le_trans ?_ (ih (by omega) hs hg hf)
        exact mul_le_mul hlow (pow_le_pow_left₀ (sq_nonneg _) hlowered _)
          (pow_nonneg (sq_nonneg _) _) hg.pos.le

-----------------------------------------------------------------------------------------
-- Powers of ten
-----------------------------------------------------------------------------------------

theorem isWhole_ten : IsWhole 10 10 :=
  isWhole_ofNat (by decide)

theorem isWhole_one : IsWhole 1 1 :=
  isWhole_ofNat (by decide)

/-- Whole numbers that are not zero. -/
theorem IsWhole.isAtLeastOne {x : Float} {n : Nat} (h : IsWhole x n) (hn : n < 2 ^ 53)
    (hp : 0 < n)
    : IsAtLeastOne x := by
  refine ⟨h.isFinite (by simpa using hn), ?_⟩
  rw [h.exact_eq]
  exact_mod_cast hp

theorem isAtLeastOne_ten : IsAtLeastOne 10 :=
  isWhole_ten.isAtLeastOne (by decide) (by decide)

theorem isAtLeastOne_one : IsAtLeastOne 1 :=
  isWhole_one.isAtLeastOne (by decide) (by decide)

theorem raisedBase_ten_le : raisedBase 10 ≤ 1001 / 100 := by
  rw [raisedBase, isWhole_ten.exact_eq]
  norm_num [roundingShare]

theorem le_loweredBase_ten : 999 / 100 ≤ loweredBase 10 := by
  rw [loweredBase, isWhole_ten.exact_eq]
  norm_num [roundingShare]

/-- The raised base keeps below the bound up to the 308th power. -/
theorem pow_308_lt : (1001 / 100 : ℚ) ^ 308 < overflowBound := by
  have hnat : 1001 ^ 308 + 2 ^ 970 * 100 ^ 308 < 2 ^ 1024 * 100 ^ 308 := by decide +kernel
  have hcast := (Nat.cast_lt (α := ℚ)).mpr hnat
  rw [Nat.cast_add, Nat.cast_mul, Nat.cast_mul, Nat.cast_pow, Nat.cast_pow, Nat.cast_pow,
    Nat.cast_pow] at hcast
  rw [div_pow, div_lt_iff₀ (by positivity), overflowBound, sub_mul]
  exact lt_sub_iff_add_lt.mpr hcast

/-- The lowered base is beyond the bound at the 309th power. -/
theorem overflowBound_le_pow_309 : overflowBound ≤ (999 / 100 : ℚ) ^ 309 := by
  have hnat : 2 ^ 1024 * 100 ^ 309 ≤ 999 ^ 309 := by decide +kernel
  have hcast := (Nat.cast_le (α := ℚ)).mpr hnat
  rw [Nat.cast_mul, Nat.cast_pow, Nat.cast_pow, Nat.cast_pow] at hcast
  refine (sub_le_self _ (by positivity)).trans ?_
  rwa [div_pow, le_div_iff₀ (by positivity)]

/-- The powers of ten up to the 308th are finite. -/
theorem isAtLeastOne_powerOfTen {n : Nat} (h : n ≤ 308)
    : IsAtLeastOne (squarePower (n + 1) 10 1 n) := by
  refine isAtLeastOne_squarePower (Nat.lt_of_succ_lt Nat.lt_two_pow_self)
    isAtLeastOne_ten isAtLeastOne_one ?_
  have hraised := zero_le_one.trans isAtLeastOne_ten.one_le_raisedBase
  rw [isWhole_one.exact_eq, Int.cast_one, one_mul]
  calc
    raisedBase 10 ^ n ≤ (1001 / 100) ^ n := pow_le_pow_left₀ hraised raisedBase_ten_le n
    _ ≤ (1001 / 100) ^ 308 := pow_le_pow_right₀ (by norm_num) h
    _ < overflowBound := pow_308_lt

/-- No other powers of ten are finite. -/
theorem isFinite_powerOfTen_iff {n : Nat}
    : (squarePower (n + 1) 10 1 n).isFinite = true ↔ n ≤ 308 := by
  refine ⟨?_, fun h => (isAtLeastOne_powerOfTen h).finite⟩
  intro hf
  by_contra hn
  have hlow := le_squarePower (Nat.lt_of_succ_lt Nat.lt_two_pow_self) isAtLeastOne_ten
    isAtLeastOne_one hf
  rw [isWhole_one.exact_eq, Int.cast_one, one_mul] at hlow
  have hbeyond := calc
    overflowBound ≤ (999 / 100) ^ 309 := overflowBound_le_pow_309
    _ ≤ (999 / 100) ^ n := pow_le_pow_right₀ (by norm_num) (by omega)
    _ ≤ loweredBase 10 ^ n := pow_le_pow_left₀ (by norm_num) le_loweredBase_ten n
    _ ≤ exact (squarePower (n + 1) 10 1 n) := hlow
  exact absurd (abs_exact_lt hf) (not_lt.mpr (hbeyond.trans (le_abs_self _)))

/-- The reciprocal of a finite number that is at least one is finite and not zero: it is at most
one, and reaches the least place.
-/
theorem IsAtLeastOne.reciprocal {x : Float} (h : IsAtLeastOne x)
    : (1 / x).isFinite = true ∧ exact (1 / x) ≠ 0 := by
  have hpos := h.pos
  have hvalue : |exact 1 / exact x| = 1 / exact x := by
    rw [isWhole_one.exact_eq, Int.cast_one, abs_of_pos (div_pos one_pos hpos)]
  have hle : 1 / exact x ≤ 1 := (div_le_one hpos).mpr h.one_le
  have hone : (1 : ℚ) < overflowBound := by
    have hlt := abs_exact_lt isAtLeastOne_one.finite
    rwa [isWhole_one.exact_eq, Int.cast_one, abs_one] at hlt
  have hf : (1 / x).isFinite = true := by
    rw [isFinite_div_iff isAtLeastOne_one.finite h.finite hpos.ne', hvalue]
    exact hle.trans_lt hone
  refine ⟨hf, exact_div_ne_zero isAtLeastOne_one.finite h.finite hf ?_⟩
  rw [hvalue, zpow_neg, ← one_div]
  refine one_div_le_one_div_of_le hpos ?_
  calc
    exact x ≤ |exact x| := le_abs_self _
    _ ≤ overflowBound := (abs_exact_lt h.finite).le
    _ ≤ 2 ^ 1024 := sub_le_self _ (by positivity)
    _ ≤ 2 ^ 1074 := pow_le_pow_right₀ one_le_two (by decide)
    _ = 2 ^ (1074 : Int) := (zpow_natCast 2 1074).symm

/-- The powers of ten from the opposite of the 308th to the 308th are finite and not zero. -/
theorem power_ten_of_le {k : Int} (h : k.natAbs ≤ 308)
    : (power 10 k).isFinite = true ∧ exact (power 10 k) ≠ 0 := by
  have hmagnitude := isAtLeastOne_powerOfTen h
  rw [power]
  split
  · exact hmagnitude.reciprocal
  · exact ⟨hmagnitude.finite, hmagnitude.pos.ne'⟩

/-- The powers of ten beyond are not finite, or zero. -/
theorem power_ten_of_lt {k : Int} (h : 308 < k.natAbs)
    : IsZero (power 10 k) ∨ (power 10 k).isFinite = false := by
  have hmagnitude : (squarePower (k.natAbs + 1) 10 1 k.natAbs).isFinite = false :=
    Bool.eq_false_iff.mpr (mt isFinite_powerOfTen_iff.mp (by omega))
  rw [power]
  split
  · exact isZero_div isAtLeastOne_one.finite hmagnitude
  · exact .inr hmagnitude

end ReportTemplate.Number
