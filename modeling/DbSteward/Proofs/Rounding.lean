import DbSteward.Binary64.Basic
import Mathlib.Algebra.Group.Int.Defs
import Mathlib.Algebra.Group.Nat.Defs

/-!
# Ratios that round to finite numbers

A ratio well below the greatest finite number does not round to an infinity: its scale keeps
the significand within 53 bits, and rounding adds one at most.
-/

namespace DbSteward
namespace Binary64

theorem isFinite_withSign {magnitude : Nat} (negative : Bool)
    (hless : magnitude < 2047 * fractionBits) : (withSign negative magnitude).isFinite = true := by
  have hfraction : fractionBits = 4503599627370496 := rfl
  have hsign : signBit = 9223372036854775808 := rfl
  have hpower : Nat.pow 2 11 = 2048 := rfl
  rw [hfraction] at hless
  simp only [isFinite, exponentField, withSign, hfraction, hsign, hpower, UInt64.toNat_ofNat',
    decide_eq_true_eq]
  split <;> omega

theorem roundDiv_le (num den : Nat) : roundDiv num den ≤ num / den + 1 := by
  simp only [roundDiv]
  split <;> omega

theorem lt_at_guess {num den : Nat} (hden : 0 < den) (place : Nat) :
    num * Nat.pow 2 place < 2 ^ 54 * (den * 2 ^ (num.log2 + place - den.log2 - 53)) :=
  calc num * 2 ^ place
      < 2 ^ (num.log2 + 1) * 2 ^ place :=
        Nat.mul_lt_mul_of_pos_right Nat.lt_log2_self (Nat.two_pow_pos _)
    _ = 2 ^ (num.log2 + 1 + place) := (Nat.pow_add ..).symm
    _ ≤ 2 ^ (54 + (den.log2 + (num.log2 + place - den.log2 - 53))) :=
        Nat.pow_le_pow_right (by decide) (by omega)
    _ = 2 ^ 54 * (2 ^ den.log2 * 2 ^ (num.log2 + place - den.log2 - 53)) := by
        rw [Nat.pow_add, Nat.pow_add]
    _ ≤ 2 ^ 54 * (den * 2 ^ (num.log2 + place - den.log2 - 53)) :=
        Nat.mul_le_mul_left _ (Nat.mul_le_mul_right _ (Nat.log2_self_le (Nat.ne_of_gt hden)))

/-- The guess is one too small or right. -/
theorem lt_at_choice {num den lift guess : Nat} (hguess : num * lift < 2 ^ 54 * (den * 2 ^ guess)) :
    num * lift < 2 ^ 53 *
      (den * 2 ^ (if 2 ^ 53 * den * 2 ^ guess ≤ num * lift then guess + 1 else guess)) := by
  split
  · calc num * lift < 2 ^ 54 * (den * 2 ^ guess) := hguess
      _ = 2 ^ 53 * (den * (2 ^ guess * 2)) := by
          rw [Nat.pow_succ 2 53, Nat.mul_assoc, ← Nat.mul_assoc den, Nat.mul_comm 2]
      _ = 2 ^ 53 * (den * 2 ^ (guess + 1)) := by rw [Nat.pow_succ 2 guess]
  · rename_i hbelow
    rw [← Nat.mul_assoc]
    exact Nat.lt_of_not_le hbelow

/-- At its scale a ratio has a significand of 53 bits at most. -/
theorem lt_at_scaleOf {num den : Nat} (hden : 0 < den) :
    num * Nat.pow 2 1074 < 2 ^ 53 * (den * 2 ^ scaleOf num den) :=
  lt_at_choice (lt_at_guess hden 1074)

theorem scaleOf_le {num den bits : Nat} (hless : num < 2 ^ bits * den) :
    scaleOf num den ≤ bits + 1022 := by
  have hlog : num.log2 ≤ bits + den.log2 := by
    rcases Nat.eq_zero_or_pos num with rfl | hnum
    · exact Nat.zero_le _
    have hpower : num < 2 ^ (bits + den.log2 + 1) :=
      calc num < 2 ^ bits * den := hless
        _ ≤ 2 ^ bits * 2 ^ (den.log2 + 1) := Nat.mul_le_mul_left _ (Nat.le_of_lt Nat.lt_log2_self)
        _ = 2 ^ (bits + den.log2 + 1) := by rw [← Nat.pow_add, Nat.add_assoc]
    exact Nat.le_of_lt_succ ((Nat.log2_lt (Nat.ne_of_gt hnum)).2 hpower)
  simp only [scaleOf]
  split <;> omega

theorem isFinite_ofRatio {num den bits : Nat} (negative : Bool) (hden : 0 < den)
    (hless : num < 2 ^ bits * den) (hbits : bits ≤ 1022) :
    (ofRatio negative num den).isFinite = true := by
  have hzero : ∀ negative, (zero negative).isFinite = true := fun negative =>
    isFinite_withSign negative (by decide)
  have hscale : scaleOf num den ≤ 2044 := Nat.le_trans (scaleOf_le hless) (by omega)
  have hquotient : num * Nat.pow 2 1074 / (den * Nat.pow 2 (scaleOf num den)) < 2 ^ 53 :=
    (Nat.div_lt_iff_lt_mul (Nat.mul_pos hden (Nat.two_pow_pos _))).2 (lt_at_scaleOf hden)
  have hrounded := roundDiv_le (num * Nat.pow 2 1074) (den * Nat.pow 2 (scaleOf num den))
  have hfraction : fractionBits = 2 ^ 52 := rfl
  unfold ofRatio
  split
  · exact hzero negative
  · dsimp only
    generalize roundDiv _ _ = significand at hrounded ⊢
    generalize num * Nat.pow 2 1074 / _ = quotient at hquotient hrounded
    generalize scaleOf num den = scale at hscale ⊢
    have hmagnitude : scale * fractionBits + significand < 2047 * fractionBits := by
      rw [hfraction]
      omega
    rw [if_neg (Nat.not_le.2 hmagnitude)]
    exact isFinite_withSign negative hmagnitude

theorem isFinite_ofInt {i : Int} (hlower : -2 ^ 63 ≤ i) (hupper : i < 2 ^ 64) :
    (ofInt i).isFinite = true := by
  have hmagnitude : i.natAbs < 2 ^ 65 * 1 := by omega
  exact isFinite_ofRatio _ Nat.one_pos hmagnitude (by decide)

theorem isFinite_negate {x : Binary64} (hfinite : x.isFinite = true) :
    x.negate.isFinite = true := by
  refine isFinite_withSign _ ?_
  have hfraction : fractionBits = 4503599627370496 := rfl
  have hsign : signBit = 9223372036854775808 := rfl
  have hpower : Nat.pow 2 11 = 2048 := rfl
  have hword := x.bits.toNat_lt
  simp only [isFinite, exponentField, hfraction, hpower, decide_eq_true_eq] at hfinite
  rw [hfraction, hsign]
  omega

theorem isFinite_ofNat (negative : Bool) {n : Nat} (hfits : n < 2 ^ 64) :
    (ofNat negative n).isFinite = true :=
  isFinite_ofRatio negative Nat.one_pos (by omega : n < 2 ^ 64 * 1) (by decide)

theorem significand_lt (x : Binary64) : x.significand < 2 ^ 53 := by
  have hfraction : fractionBits = 2 ^ 52 := rfl
  have hfield : x.fractionField < fractionBits := Nat.mod_lt _ (by decide)
  unfold significand
  split <;> omega

theorem scale_le {x : Binary64} (hfinite : x.isFinite = true) : x.scale ≤ 2045 := by
  simp only [isFinite, decide_eq_true_eq] at hfinite
  unfold scale
  omega

/-- Division by a number from eight on keeps well below the greatest finite number. -/
theorem isFinite_div {x y : Binary64} (hfinite : x.isFinite = true)
    (hlarge : Nat.pow 2 1077 ≤ y.ratio.1) : (x.div y).isFinite = true := by
  have hnum : x.significand * 2 ^ x.scale < 2 ^ 1022 * y.ratio.1 :=
    calc x.significand * 2 ^ x.scale
        < 2 ^ 53 * 2 ^ x.scale :=
          Nat.mul_lt_mul_of_pos_right x.significand_lt (Nat.two_pow_pos _)
      _ = 2 ^ (53 + x.scale) := (Nat.pow_add ..).symm
      _ ≤ 2 ^ (1022 + 1077) :=
          Nat.pow_le_pow_right (by decide) (by have := scale_le hfinite; omega)
      _ = 2 ^ 1022 * 2 ^ 1077 := Nat.pow_add ..
      _ ≤ 2 ^ 1022 * y.ratio.1 := Nat.mul_le_mul_left _ hlarge
  have hratio : 0 < y.ratio.1 := Nat.lt_of_lt_of_le (Nat.two_pow_pos _) hlarge
  refine isFinite_ofRatio false (Nat.mul_pos (Nat.two_pow_pos _) hratio) ?_ (Nat.le_refl 1022)
  calc x.ratio.1 * y.ratio.2 < 2 ^ 1022 * y.ratio.1 * y.ratio.2 :=
        Nat.mul_lt_mul_of_pos_right hnum (Nat.two_pow_pos _)
    _ = 2 ^ 1022 * (x.ratio.2 * y.ratio.1) := by
        rw [Nat.mul_assoc, Nat.mul_comm y.ratio.1]
        rfl

end Binary64
end DbSteward
