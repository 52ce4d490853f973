import Mathlib

/-! # Finite doubles and the numbers that they are

A double that is finite is a rational number: a significand times a power of two. To compare two of
them is to compare these numbers. Whole numbers that are not too large have a finite double nearest to
them.

* `Double.value` — the number that a finite double is.
* `Double.lt_iff` — finite doubles compare as the numbers that they are.
* `Double.isFinite_ofInt` — the double nearest to a whole number of some size is finite. -/

namespace RuleDispatch.Double

open Float.Model (UnpackedFloat Format totalExponent)
open Float.Model.UnpackedFloat

/-! ## 1. The number that a double is -/

/-- The number that a double is once it is taken apart, zero if it is none. -/
def unpackedValue : UnpackedFloat → ℚ
  | .finite sign significand exponent _ => (sign.apply significand : ℤ) * 2 ^ exponent
  | .zero _ | .infinity _ | .notANumber => 0

/-- The **number that a finite double is**. -/
def value (x : Float) : ℚ :=
  unpackedValue x.toModel.unpack

/-- A double taken apart in the **one way** in which all doubles are: its significand has fifty-three
binary digits, or its exponent is the least one. -/
def Canonical : UnpackedFloat → Prop
  | .finite _ significand exponent _ =>
    significand < 2 ^ 53 ∧ -1074 ≤ exponent ∧ (2 ^ 52 ≤ significand ∨ exponent = -1074)
  | .zero _ => True
  | .infinity _ | .notANumber => False

/-- What is taken apart has a significand **with its leading one**. -/
theorem toNat_append_one (significand : BitVec 52) :
    (1#1 ++ significand).toNat = 2 ^ 52 + significand.toNat := by
  rw [BitVec.toNat_append, ← Nat.shiftLeft_add_eq_or_of_lt significand.isLt]
  rfl

/-- **Every finite double** is taken apart in that way. -/
theorem canonical_unpack (v : Float.Model) (finite : v.isFinite = true) : Canonical v.unpack := by
  unfold Float.Model.isFinite at finite
  generalize taken : v.unpack = u at finite
  unfold Float.Model.unpack UnpackedFloat.unpack at taken
  dsimp only at taken
  have small := (@unpackMantissa Format.binary64 v.toBits.toBitVec).isLt
  split_ifs at taken with top empty least empty
  · subst taken
    cases finite
  · subst taken
    cases finite
  · subst taken
    trivial
  · -- the least exponent
    subst taken
    refine ⟨Nat.lt_trans small (by decide), ?_, .inr ?_⟩
    · rw [least]
      decide
    · rw [least]
      decide
  · subst taken
    have positive : (@unpackExponent Format.binary64 v.toBits.toBitVec).toNat ≠ 0 :=
      fun zero => least (BitVec.eq_of_toNat_eq zero)
    refine ⟨?_, ?_, .inl ?_⟩
    · rw [toNat_append_one]
      have : (@unpackMantissa Format.binary64 v.toBits.toBitVec).toNat < 2 ^ 52 := small
      omega
    · show (-1074 : ℤ) ≤ _ - ((1023 : ℕ) + (52 : ℕ))
      omega
    · rw [toNat_append_one]
      exact Nat.le_add_right _ _

/-! ## 2. Comparing doubles -/

/-- A positive number taken apart. -/
def magnitude (significand : ℕ) (exponent : ℤ) : ℚ :=
  significand * 2 ^ exponent

/-- A magnitude with a positive significand **is positive**. -/
theorem magnitude_pos {significand : ℕ} (positive : 0 < significand) (exponent : ℤ) :
    0 < magnitude significand exponent :=
  mul_pos (by exact_mod_cast positive) (zpow_pos (by norm_num) _)

/-- The one with **the smaller exponent** is smaller, if the other one has its leading digit. -/
theorem magnitude_lt_of_lt {m n : ℕ} {e f : ℤ} (small : m < 2 ^ 53) (full : 2 ^ 52 ≤ n) (less : e < f) :
    magnitude m e < magnitude n f := by
  have two : (2 : ℚ) ≠ 0 := by norm_num
  have m_lt : (m : ℚ) < 2 ^ 53 := by exact_mod_cast small
  have n_le : (2 : ℚ) ^ 52 ≤ n := by exact_mod_cast full
  calc magnitude m e < 2 ^ 53 * 2 ^ e := mul_lt_mul_of_pos_right m_lt (zpow_pos (by norm_num) _)
    _ = 2 ^ 52 * 2 ^ (e + 1) := by
      rw [zpow_add_one₀ two]
      ring
    _ ≤ 2 ^ 52 * 2 ^ f :=
      mul_le_mul_of_nonneg_left (zpow_le_zpow_right₀ (by norm_num) less) (by norm_num)
    _ ≤ magnitude n f := mul_le_mul_of_nonneg_right n_le (zpow_nonneg (by norm_num) _)

/-- Positive doubles compare by **exponent, and then by significand**. -/
theorem compare_eq_lt_iff {m n : ℕ} {e f : ℤ} (small : m < 2 ^ 53) (small' : n < 2 ^ 53)
    (full : 2 ^ 52 ≤ m ∨ e = -1074) (full' : 2 ^ 52 ≤ n ∨ f = -1074) (low : -1074 ≤ e)
    (low' : -1074 ≤ f) :
    (compare e f).then (compare m n) = .lt ↔ magnitude m e < magnitude n f := by
  rcases lt_trichotomy e f with less | rfl | more
  · have full : 2 ^ 52 ≤ n := full'.resolve_right (by omega)
    rw [compare_lt_iff_lt.mpr less]
    exact iff_of_true rfl (magnitude_lt_of_lt small full less)
  · rw [compare_eq_iff_eq.mpr rfl]
    show compare m n = .lt ↔ _
    rw [compare_lt_iff_lt, magnitude, magnitude,
      mul_lt_mul_iff_left₀ (zpow_pos (by norm_num) _), Nat.cast_lt]
  · have full : 2 ^ 52 ≤ m := full.resolve_right (by omega)
    rw [compare_gt_iff_gt.mpr more]
    exact iff_of_false nofun (not_lt.mpr (magnitude_lt_of_lt small' full more).le)

/-- A positive double stands for **its magnitude**. -/
theorem unpackedValue_positive (m : ℕ) (e : ℤ) (h : 0 < m) :
    unpackedValue (.finite .positive m e h) = magnitude m e := by
  simp [unpackedValue, magnitude, Sign.apply]

/-- A negative double stands for **its magnitude, negated**. -/
theorem unpackedValue_negative (m : ℕ) (e : ℤ) (h : 0 < m) :
    unpackedValue (.finite .negative m e h) = -magnitude m e := by
  simp [unpackedValue, magnitude, Sign.apply]

/-- Doubles taken apart **compare as the numbers that they are**. -/
theorem unpacked_lt_iff {u v : UnpackedFloat} (canonical : Canonical u) (canonical' : Canonical v) :
    u.lt v = true ↔ unpackedValue u < unpackedValue v := by
  unfold UnpackedFloat.lt
  cases u with
  | infinity | notANumber => cases canonical
  | zero s =>
    cases v with
    | infinity | notANumber => cases canonical'
    -- zeros of either sign are equal
    | zero t => exact iff_of_false Bool.false_ne_true (lt_irrefl 0)
    | finite t n f positive' =>
      have pos := magnitude_pos positive' f
      cases t with
      | positive =>
        rw [unpackedValue_positive]
        exact iff_of_true rfl pos
      | negative =>
        rw [unpackedValue_negative]
        exact iff_of_false Bool.false_ne_true (not_lt.mpr (neg_nonpos.mpr pos.le))
  | finite s m e positive =>
    have pos := magnitude_pos positive e
    cases v with
    | infinity | notANumber => cases canonical'
    | zero t =>
      cases s with
      | positive =>
        rw [unpackedValue_positive]
        exact iff_of_false Bool.false_ne_true (not_lt.mpr pos.le)
      | negative =>
        rw [unpackedValue_negative]
        exact iff_of_true rfl (neg_neg_of_pos pos)
    | finite t n f positive' =>
      have pos' := magnitude_pos positive' f
      obtain ⟨small, low, full⟩ := canonical
      obtain ⟨small', low', full'⟩ := canonical'
      -- of two that are not zero the signs decide, and with equal signs the magnitudes
      cases s <;> cases t
      · rw [unpackedValue_negative, unpackedValue_negative, neg_lt_neg_iff,
          ← compare_eq_lt_iff small' small full' full low' low, beq_iff_eq, UnpackedFloat.compare,
          Option.some_inj, Ordering.swap_then, Int.compare_swap, Nat.compare_swap]
      · rw [unpackedValue_negative, unpackedValue_positive]
        exact iff_of_true rfl ((neg_neg_of_pos pos).trans pos')
      · rw [unpackedValue_positive, unpackedValue_negative]
        exact iff_of_false Bool.false_ne_true (not_lt.mpr ((neg_neg_of_pos pos').trans pos).le)
      · rw [unpackedValue_positive, unpackedValue_positive,
          ← compare_eq_lt_iff small small' full full' low low', beq_iff_eq, UnpackedFloat.compare,
          Option.some_inj]

/-- **Finite doubles compare as the numbers that they are.** -/
theorem lt_iff {x y : Float} (finite : x.isFinite = true) (finite' : y.isFinite = true) :
    x < y ↔ value x < value y :=
  decide_eq_true_iff.trans
    (unpacked_lt_iff (canonical_unpack x.toModel finite) (canonical_unpack y.toModel finite'))

/-! ## 3. Whole numbers -/

/-- A double taken apart that **lies within bounds**: its significand has at most so many binary digits,
and its exponent is no larger than this one. -/
inductive Within (digits : ℕ) (bound : ℤ) : UnpackedFloat → Prop
  | zero (sign : Sign) : Within digits bound (.zero sign)
  | finite {sign : Sign} {significand : ℕ} {exponent : ℤ} {positive : 0 < significand}
    (small : significand < 2 ^ digits) (le : exponent ≤ bound) :
    Within digits bound (.finite sign significand exponent positive)

/-- A double within bounds **is finite**. -/
theorem Within.isFinite {digits : ℕ} {bound : ℤ} {u : UnpackedFloat} (h : Within digits bound u) :
    u.isFinite = true := by
  cases h <;> rfl

/-- What is within bounds is **within wider ones**. -/
theorem Within.mono {digits : ℕ} {bound above : ℤ} {u : UnpackedFloat} (h : Within digits bound u)
    (le : bound ≤ above) : Within digits above u := by
  cases h with
  | zero sign => exact .zero sign
  | finite small within => exact .finite small (within.trans le)

/-- What is within bounds is so **with the other sign**. -/
theorem Within.neg {digits : ℕ} {bound : ℤ} {u : UnpackedFloat} (h : Within digits bound u) :
    Within digits bound u.neg := by
  cases h with
  | zero sign => exact .zero _
  | finite small le => exact .finite small le

/-- What is taken apart with an exponent that is **not the top one** lies within bounds. -/
theorem within_unpack {bits : BitVec 64} {bound : ℤ} (low : -1074 ≤ bound)
    (high : ((@unpackExponent Format.binary64 bits).toNat : ℤ) - 1075 ≤ bound)
    (inside : (@unpackExponent Format.binary64 bits).toNat < 2047) :
    Within 53 bound (UnpackedFloat.unpack Format.binary64 bits) := by
  have small : (@unpackMantissa Format.binary64 bits).toNat < 2 ^ 52 :=
    (@unpackMantissa Format.binary64 bits).isLt
  have top : @unpackExponent Format.binary64 bits ≠ -1#11 := by
    intro same
    rw [same] at inside
    exact absurd inside (by decide)
  unfold UnpackedFloat.unpack
  dsimp only
  rw [if_neg top]
  split_ifs with least empty
  · exact .zero _
  · refine .finite (Nat.lt_trans small (by decide)) ?_
    rw [least]
    exact low
  · refine .finite ?_ high
    rw [toNat_append_one]
    omega

/-- So does what was **put together** with such an exponent. -/
theorem within_packComponents {sign : Sign} {exponent : BitVec 11} {significand : BitVec 52}
    {bound : ℤ} (low : -1074 ≤ bound) (high : (exponent.toNat : ℤ) - 1075 ≤ bound)
    (inside : exponent.toNat < 2047) :
    Within 53 bound (UnpackedFloat.unpack Format.binary64
      (packComponents Format.binary64 sign exponent significand)) := by
  have same : unpackExponent (packComponents Format.binary64 sign exponent significand) = exponent :=
    unpackExponent_packComponents
  refine within_unpack low ?_ ?_
  · rw [same]
    exact high
  · rw [same]
    exact inside

/-- What lies within bounds can be **put together and taken apart** again. -/
theorem Within.unpack_pack {digits : ℕ} {bound : ℤ} {u : UnpackedFloat} (h : Within digits bound u)
    (low : -1074 ≤ bound) (high : bound ≤ 970) : Within 53 bound (Float.Model.pack u).unpack := by
  cases h with
  | zero s => exact within_packComponents low (by simp; omega) (by decide)
  | @finite s m e positive _ exponent =>
    show Within 53 bound (UnpackedFloat.unpack _ (UnpackedFloat.pack _ (.finite s m e positive)))
    unfold UnpackedFloat.pack
    have biased : (e + (Format.exponentBias Format.binary64 : ℤ) + (52 : ℕ)).toNat < 2047 := by
      show (e + ((1023 : ℕ) : ℤ) + (52 : ℕ)).toNat < 2047
      omega
    dsimp only
    rw [if_neg (by omega)]
    split_ifs
    · refine within_packComponents low ?_ ?_
      · rw [BitVec.toNat_ofNat, Nat.mod_eq_of_lt (by omega)]
        show ((e + ((1023 : ℕ) : ℤ) + (52 : ℕ)).toNat : ℤ) - 1075 ≤ bound
        omega
      · rw [BitVec.toNat_ofNat, Nat.mod_eq_of_lt (by omega)]
        exact biased
    · exact within_packComponents low (by simp; omega) (by decide)

/-- Shifting to the right makes a significand no larger. -/
theorem mantissa_shiftRight_le (em : ExtendedMantissa) (places : ℕ) :
    (em >>> places).mantissa ≤ em.mantissa := by
  induction places with
  | zero => exact Nat.le_refl _
  | succ places ih => exact (Nat.div_le_self _ 2).trans ih

/-- Rounding adds one at most. -/
theorem roundedMantissa_le (em : ExtendedMantissa) : em.roundedMantissa ≤ em.mantissa + 1 := by
  obtain ⟨m, round, sticky⟩ := em
  cases round <;> cases sticky <;>
    simp only [ExtendedMantissa.roundedMantissa, ExtendedMantissa.accuracy,
      Accuracy.roundToNearestEven] <;> omega

/-- A number below a power of two **has a logarithm below the exponent**. -/
theorem log2_le_of_lt {m digits : ℕ} (small : m < 2 ^ digits) : m.log2 ≤ digits := by
  by_cases zero : m = 0
  · simp [zero]
  · exact ((Nat.log2_lt zero).mpr small).le

/-- Bringing a significand into place **raises the exponent** by as many digits as it has at most. -/
theorem shiftToTargetExponent_le {m digits : ℕ} {e bound : ℤ} (small : m < 2 ^ digits)
    (exponent : e ≤ bound) (low : -1074 ≤ bound) (accuracy : Accuracy) :
    (shiftToTargetExponent Format.binary64 m e accuracy).1.mantissa ≤ m
      ∧ (shiftToTargetExponent Format.binary64 m e accuracy).2 ≤ bound + digits := by
  have log := log2_le_of_lt small
  refine ⟨(mantissa_shiftRight_le _ _).trans ?_, ?_⟩
  · cases accuracy with
    | exact => exact Nat.le_refl m
    | inexact relative => cases relative <;> exact Nat.le_refl m
  · show e + ((max ((m.log2 : ℤ) + 1 + e - (53 : ℕ)) (-1074) - e).toNat : ℤ) ≤ bound + digits
    omega

/-- Rounding keeps **within bounds**. -/
theorem within_roundWithAccuracy {m digits : ℕ} {e bound : ℤ} (small : m < 2 ^ digits)
    (exponent : e ≤ bound) (low : -1074 ≤ bound) (sign : Sign) (accuracy : Accuracy) :
    Within (digits + 1) (bound + 2 * digits + 1)
      (roundWithAccuracy Format.binary64 sign m e accuracy) := by
  obtain ⟨shifted, raised⟩ := shiftToTargetExponent_le small exponent low accuracy
  have rounded := roundedMantissa_le (shiftToTargetExponent Format.binary64 m e accuracy).1
  have small' : (shiftToTargetExponent Format.binary64 m e accuracy).1.roundedMantissa
      < 2 ^ (digits + 1) := by
    have := Nat.one_le_two_pow (n := digits)
    rw [Nat.pow_succ]
    omega
  obtain ⟨shifted', raised'⟩ := shiftToTargetExponent_le small' raised (by omega) .exact
  unfold roundWithAccuracy
  dsimp only
  push_cast at raised'
  split_ifs
  · exact .zero sign
  · exact .finite (Nat.lt_of_le_of_lt shifted' small') (by omega)

/-- So does multiplying. -/
theorem Within.mul {digits more : ℕ} {bound above : ℤ} {u v : UnpackedFloat}
    (h : Within digits bound u) (h' : Within more above v) (low : -1074 ≤ bound + above) :
    Within (digits + more + 1) (bound + above + 2 * (digits + more) + 1)
      (UnpackedFloat.mul Format.binary64 u v) := by
  cases h with
  | zero s => cases h' <;> exact .zero _
  | @finite s m e _ small exponent =>
    cases h' with
    | zero => exact .zero _
    | @finite t n f _ small' exponent' =>
      have product : m * n < 2 ^ (digits + more) := by
        rw [Nat.pow_add]
        exact Nat.mul_lt_mul'' small small'
      have rounded := within_roundWithAccuracy product (add_le_add exponent exponent') low (s * t)
        .exact
      push_cast at rounded
      exact rounded

/-- A natural number with **few digits** is brought into place within bounds. -/
theorem within_normalize {n digits : ℕ} (small : n < 2 ^ digits) :
    Within (digits + 53) (2 * (digits + 52) + 1) (UnpackedFloat.normalize Format.binary64 n 0 .positive) := by
  unfold UnpackedFloat.normalize
  split
  · next less => exact absurd (compare_lt_iff_lt.mp less) (by omega)
  · exact .zero _
  · let k := (0 - Format.binary64.targetExponent (totalExponent n 0)).toNat
    have few : k ≤ 52 := by
      show (0 - max ((n.log2 : ℤ) + 1 + 0 - (53 : ℕ)) (-1074)).toNat ≤ 52
      omega
    have shifted : n <<< k < 2 ^ (digits + 52) := by
      rw [Nat.shiftLeft_eq, Nat.pow_add]
      exact Nat.mul_lt_mul_of_lt_of_le small (Nat.pow_le_pow_right (by decide) few) (by positivity)
    have rounded := within_roundWithAccuracy shifted (show (0 : ℤ) - k ≤ 0 by omega) (by decide)
      .positive .exact
    rw [zero_add] at rounded
    push_cast at rounded
    exact rounded

/-- The double nearest to a natural number **of some size** lies within bounds. -/
theorem within_ofNat {n : ℕ} (small : n < 2 ^ 65) : Within 53 372 (Float.ofNat n).toModel.unpack := by
  show Within 53 372 (Float.ofScientific n false 0).toModel.unpack
  unfold Float.ofScientific
  by_cases few : n < 2 ^ 53
  · -- such a number is a double, and is multiplied by the double that is one
    rw [dif_pos ⟨few, Nat.zero_le 22⟩]
    have one : Within 53 (-52) (Float.ofBits 0x3FF0000000000000).toModel.unpack :=
      .finite (by decide) (by decide)
    have taken : Within 53 211 n.toUInt64.toFloat.toModel.unpack := by
      have same : n.toUInt64.toNat = n :=
        Nat.mod_eq_of_lt (few.trans (by decide))
      have placed := within_normalize few
      rw [← same] at placed
      exact placed.unpack_pack (by decide) (by decide)
    exact (taken.mul one (by decide)).unpack_pack (by decide) (by decide)
  · rw [dif_neg fun both => few both.1]
    have some : n ≠ 0 := fun zero => few (zero ▸ by decide)
    have bounded : ¬ ((0 : ℤ) > 2 ^ Format.binary64.exponentBits) := by decide
    have bounded' : ¬ ((0 : ℤ) < -(2 ^ Format.binary64.exponentBits + (n.log2 : ℤ))) := by
      show ¬ ((0 : ℤ) < -(2 ^ 11 + (n.log2 : ℤ)))
      omega
    have shifted : 0 < n <<< 53 ∧ n <<< 53 < 2 ^ 118 := by
      rw [Nat.shiftLeft_eq]
      omega
    show Within 53 372 (Float.Model.pack (UnpackedFloat.ofScientific Format.binary64 n 0)).unpack
    unfold UnpackedFloat.ofScientific
    rw [dif_neg some, if_neg bounded, if_neg bounded', if_pos (le_refl 0)]
    have scaled : Within 118 (-53) (.finite .positive (n <<< 53) (-53) shifted.1) :=
      .finite shifted.2 (le_refl _)
    have one : Within 1 0 (.finite .positive (10 ^ (0 : ℤ).toNat) 0 (by decide)) :=
      .finite (by decide) (le_refl 0)
    have product := (scaled.mul one (by decide)).mono (show _ ≤ 372 by decide)
    exact product.unpack_pack (by decide) (by decide)

/-- The double nearest to a whole number **of some size is finite**. -/
theorem isFinite_ofInt {n : ℤ} (small : n.natAbs < 2 ^ 65) : (Float.ofInt n).isFinite = true := by
  cases n with
  | ofNat n => exact (within_ofNat small).isFinite
  | negSucc n =>
    have within := within_ofNat (n := n + 1) small
    exact (within.neg.unpack_pack (by decide) (by decide)).isFinite

end RuleDispatch.Double
