import Mathlib.Algebra.Order.Field.Basic
import Mathlib.Algebra.Order.Field.Rat
import Mathlib.Data.Nat.Cast.Order.Field
import Mathlib.Data.Rat.Cast.Order
import Mathlib.Tactic.FieldSimp
import Mathlib.Tactic.Linarith
import Mathlib.Tactic.NormNum
import Mathlib.Tactic.Positivity
import Mathlib.Tactic.Ring
import XPath.Proofs.Binary64

/-! A quotient is rounded to the double nearest to it, of two that are equally near to the one with
an even significand, and to infinity from halfway behind the last double on. -/
namespace XPath

/-- The error of rounding to a whole number is at most one half, and it is one half for even results
only. -/
theorem roundEven_error {d : Nat} (hd : 0 < d) (n : Nat) :
    |(roundEven n d : ℚ) - n / d| ≤ 1 / 2 ∧
      (|(roundEven n d : ℚ) - n / d| = 1 / 2 → roundEven n d % 2 = 0) := by
  have hpos : (0 : ℚ) < d := by exact_mod_cast hd
  have hless : ((n % d : ℕ) : ℚ) < d := by exact_mod_cast Nat.mod_lt n hd
  have hquotient : (n : ℚ) / d = (n / d : ℕ) + ((n % d : ℕ) : ℚ) / d := by
    have hsplit : (d : ℚ) * (n / d : ℕ) + (n % d : ℕ) = n := by
      exact_mod_cast Nat.div_add_mod n d
    rw [← hsplit]
    field_simp
  have hremainder : (0 : ℚ) ≤ ((n % d : ℕ) : ℚ) / d := by positivity
  have hhalf : (2 * (n % d) ≤ d ↔ ((n % d : ℕ) : ℚ) / d ≤ 1 / 2) ∧
      (d ≤ 2 * (n % d) ↔ 1 / 2 ≤ ((n % d : ℕ) : ℚ) / d) := by
    rw [div_le_div_iff₀ hpos two_pos, div_le_div_iff₀ two_pos hpos, one_mul,
      mul_comm ((n % d : ℕ) : ℚ)]
    constructor <;> norm_cast
  have hone : ((n % d : ℕ) : ℚ) / d < 1 := (div_lt_one hpos).mpr hless
  rw [hquotient]
  generalize ((n % d : ℕ) : ℚ) / d = ρ at hremainder hhalf hone
  unfold roundEven
  dsimp only
  split_ifs with h
  · have hle := hhalf.1.mp (by omega)
    have herror : |((n / d : ℕ) : ℚ) - ((n / d : ℕ) + ρ)| = ρ := by
      rw [sub_add_cancel_left, abs_neg, abs_of_nonneg hremainder]
    rw [herror]
    refine ⟨hle, fun heq => ?_⟩
    have hge := hhalf.2.mpr heq.ge
    omega
  · have hge := hhalf.2.mp (by omega)
    have herror : |((n / d + 1 : ℕ) : ℚ) - ((n / d : ℕ) + ρ)| = 1 - ρ := by
      rw [abs_of_nonneg]
      · push_cast
        ring
      · push_cast
        linarith
    rw [herror]
    refine ⟨by linarith, fun heq => ?_⟩
    have hle := hhalf.1.mpr (by linarith)
    omega

namespace Binary64

/-- Neither infinity nor what lies behind it. -/
def IsFinite (x : Binary64) : Prop :=
  x.bits.toNat < infinityBits

/-- The number that a finite double without a sign stands for. -/
def value (x : Binary64) : ℚ :=
  x.units / 2 ^ 1074

/-- The fraction with the leading bit that all but the smallest doubles have in front of it. -/
def significand (x : Binary64) : Nat :=
  let fraction := x.bits.toNat % 2 ^ 52
  if x.bits.toNat / 2 ^ 52 = 0 then fraction else 2 ^ 52 + fraction

/-- Where numbers are too large for a double: halfway from the last one to the power of two behind
it. -/
def overflowThreshold : ℚ :=
  (2 - 1 / 2 ^ 53) * 2 ^ 1023

/-- `x` is what the number `q`, which is not negative, is rounded to. Zero has no sign. -/
structure Rounds (q : ℚ) (x : Binary64) : Prop where
  zero : x.bits.toNat = 0 ↔ q ≤ 1 / 2 ^ 1075
  overflow (hq : overflowThreshold ≤ q) : x.bits.toNat = infinityBits
  finite (hq : q < overflowThreshold) : x.IsFinite
  nearest (hq : q < overflowThreshold) {y : Binary64} (hy : y.IsFinite) :
    |x.value - q| ≤ |y.value - q|
  even (hq : q < overflowThreshold) {y : Binary64} (hy : y.IsFinite) (hne : y ≠ x)
    (htie : |x.value - q| = |y.value - q|) : x.significand % 2 = 0

/-- `m`, times a power of two, is what `t` is rounded to, whole or not: `shift` binary places are
given up, so many that 53 are left, or none. -/
structure Shortens (t : ℚ) (shift m : Nat) : Prop where
  lt : t < 2 ^ (shift + 53)
  le : shift = 0 ∨ 2 ^ (shift + 52) ≤ t
  error : |m * 2 ^ shift - t| ≤ 2 ^ shift / 2
  tie : |m * 2 ^ shift - t| = 2 ^ shift / 2 → m % 2 = 0

namespace Shortens
variable {t : ℚ} {shift m : Nat}

theorem le_significand (h : Shortens t shift m) : shift = 0 ∨ 2 ^ 52 ≤ m := by
  rcases h.le with hzero | hle
  · exact Or.inl hzero
  · have hpos : (0 : ℚ) < 2 ^ shift := by positivity
    have hlow := (abs_le.mp h.error).1
    have hpow : (2 : ℚ) ^ (shift + 52) = 2 ^ 52 * 2 ^ shift := by rw [pow_add, mul_comm]
    have hscaled : (2 ^ 52 - 1 / 2) * (2 : ℚ) ^ shift ≤ m * 2 ^ shift := by linarith
    have hquotient : (2 ^ 52 - 1 / 2 : ℚ) ≤ m := le_of_mul_le_mul_right hscaled hpos
    have hless : (2 ^ 52 : ℚ) < m + 1 := by linarith
    exact Or.inr (Nat.lt_succ_iff.mp (by exact_mod_cast hless))

theorem significand_le (h : Shortens t shift m) : m ≤ 2 ^ 53 := by
  have hpos : (0 : ℚ) < 2 ^ shift := by positivity
  have hhigh := (abs_le.mp h.error).2
  have hlt := h.lt
  have hpow : (2 : ℚ) ^ (shift + 53) = 2 ^ 53 * 2 ^ shift := by rw [pow_add, mul_comm]
  have hscaled : (m : ℚ) * 2 ^ shift < (2 ^ 53 + 1 / 2) * 2 ^ shift := by linarith
  have hquotient : (m : ℚ) < 2 ^ 53 + 1 / 2 := lt_of_mul_lt_mul_right hscaled hpos.le
  have hless : (m : ℚ) < 2 ^ 53 + 1 := by linarith
  exact Nat.lt_succ_iff.mp (by exact_mod_cast hless)

end Shortens

/-- The distance of a multiple of a power of two from a quotient, in units of that power. -/
theorem abs_mul_pow_sub {n d : Nat} (hd : (0 : ℚ) < d) (shift : Nat) (k : ℚ) :
    |k * 2 ^ shift - (n : ℚ) / d| = |k - (n : ℚ) / ((d * 2 ^ shift : ℕ) : ℚ)| * 2 ^ shift := by
  have hscale : (0 : ℚ) < 2 ^ shift := by positivity
  rw [← abs_of_pos hscale, ← abs_mul, abs_of_pos hscale]
  congr 1
  push_cast
  field_simp

/-- The leading digits of a whole number and those given up, in powers of two. -/
theorem log2_shift {k shift : Nat} (hshift : k.log2 - 52 = shift) :
    k < 2 ^ (shift + 53) ∧ (shift = 0 ∨ 2 ^ (shift + 52) ≤ k) := by
  constructor
  · exact Nat.lt_of_lt_of_le Nat.lt_log2_self (Nat.pow_le_pow_right two_pos (by omega))
  · by_cases hzero : shift = 0
    · exact Or.inl hzero
    · have hexponent : shift + 52 = k.log2 := by omega
      have hne : k ≠ 0 := by
        rintro rfl
        exact hzero hshift.symm
      exact Or.inr (hexponent ▸ Nat.log2_self_le hne)

/-- How a quotient in units of the smallest double is rounded. -/
theorem shortens_quotient {d : Nat} (hd : 0 < d) (n : Nat) :
    Shortens ((n : ℚ) / d) ((n / d).log2 - 52)
      (roundEven n (d * 2 ^ ((n / d).log2 - 52))) := by
  have hpos : (0 : ℚ) < d := by exact_mod_cast hd
  have hwhole : ((n / d : ℕ) : ℚ) ≤ (n : ℚ) / d := Nat.cast_div_le
  have hnext : (n : ℚ) / d < (n / d : ℕ) + 1 := by
    rw [div_lt_iff₀ hpos]
    exact_mod_cast Nat.lt_mul_of_div_lt (Nat.lt_succ_self _) hd
  generalize hshift : (n / d).log2 - 52 = shift
  have hscale : (0 : ℚ) < 2 ^ shift := by positivity
  have hhalf : (2 : ℚ) ^ shift / 2 = 1 / 2 * 2 ^ shift := by ring
  obtain ⟨hlt, hle⟩ := log2_shift hshift
  obtain ⟨herror, htie⟩ := roundEven_error (Nat.mul_pos hd (Nat.two_pow_pos shift)) n
  constructor
  · have hsucc : ((n / d : ℕ) : ℚ) + 1 ≤ 2 ^ (shift + 53) := by exact_mod_cast hlt
    exact hnext.trans_le hsucc
  · refine hle.imp_right fun hle => ?_
    have hcast : (2 : ℚ) ^ (shift + 52) ≤ (n / d : ℕ) := by exact_mod_cast hle
    exact hcast.trans hwhole
  · rw [abs_mul_pow_sub hpos, hhalf]
    exact mul_le_mul_of_nonneg_right herror hscale.le
  · rw [abs_mul_pow_sub hpos, hhalf]
    exact fun heq => htie (mul_right_cancel₀ hscale.ne' heq)

theorem units_eq (x : Binary64) : x.units = x.significand * 2 ^ (x.bits.toNat / 2 ^ 52 - 1) := by
  unfold units significand
  dsimp only
  by_cases hexponent : x.bits.toNat / 2 ^ 52 = 0
  · rw [if_pos hexponent, if_pos hexponent, hexponent, Nat.zero_sub, Nat.pow_zero, Nat.mul_one]
  · rw [if_neg hexponent, if_neg hexponent]

theorem significand_lt (x : Binary64) : x.significand < 2 ^ 53 := by
  have hfraction := Nat.mod_lt x.bits.toNat (show 0 < 2 ^ 52 by decide)
  unfold significand
  dsimp only
  split_ifs <;> omega

theorem significand_mod_two (x : Binary64) : x.significand % 2 = x.bits.toNat % 2 := by
  have hsplit := Nat.div_add_mod x.bits.toNat (2 ^ 52)
  unfold significand
  dsimp only
  split_ifs <;> omega

/-- A significand that has grown to the next power of two carries into the exponent. -/
theorem units_of_bits {x : Binary64} {shift m : Nat} (hx : x.bits.toNat = shift * 2 ^ 52 + m)
    (hle : m ≤ 2 ^ 53) (hshift : shift = 0 ∨ 2 ^ 52 ≤ m) : x.units = m * 2 ^ shift := by
  by_cases hcarry : m = 2 ^ 53
  · have hexponent : x.bits.toNat / 2 ^ 52 = shift + 2 := by omega
    have hfraction : x.bits.toNat % 2 ^ 52 = 0 := by omega
    unfold units
    dsimp only
    rw [hexponent, hfraction, if_neg (by omega), hcarry]
    have hnext : shift + 2 - 1 = shift + 1 := by omega
    rw [hnext, Nat.pow_succ]
    omega
  · by_cases hsmall : m < 2 ^ 52
    · have hzero : shift = 0 := by omega
      have hexponent : x.bits.toNat / 2 ^ 52 = 0 := by omega
      have hfraction : x.bits.toNat % 2 ^ 52 = m := by omega
      unfold units
      dsimp only
      rw [hexponent, hfraction, if_pos rfl, hzero, Nat.pow_zero, Nat.mul_one]
    · have hexponent : x.bits.toNat / 2 ^ 52 = shift + 1 := by omega
      have hfraction : 2 ^ 52 + x.bits.toNat % 2 ^ 52 = m := by omega
      unfold units
      dsimp only
      rw [hexponent, hfraction, if_neg (by omega), Nat.add_sub_cancel]

namespace Shortens
variable {t : ℚ} {shift m : Nat}

/-- Another multiple of the spacing than the result is at least half of the spacing off. -/
theorem half_le_of_multiple (h : Shortens t shift m) {k : Nat} (hk : k ≠ m) :
    (2 : ℚ) ^ shift / 2 ≤ |(k : ℚ) * 2 ^ shift - t| := by
  have hpos : (0 : ℚ) < 2 ^ shift := by positivity
  have hapart : (1 : ℚ) ≤ |(k : ℚ) - m| := by
    have hsub : (k : ℤ) - m ≠ 0 := by omega
    exact_mod_cast Int.one_le_abs hsub
  have hspacing : (2 : ℚ) ^ shift ≤ |(k : ℚ) * 2 ^ shift - m * 2 ^ shift| := by
    rw [← sub_mul, abs_mul, abs_of_pos hpos]
    exact le_mul_of_one_le_left hpos.le hapart
  have htriangle := abs_sub_le ((k : ℚ) * 2 ^ shift) t (m * 2 ^ shift)
  have herror := h.error
  rw [abs_sub_comm t] at htriangle
  linarith

/-- Below the power of two where the spacing begins, doubles keep half of the spacing from it. -/
theorem half_le_of_below (h : Shortens t shift m) {y : Binary64}
    (hy : y.bits.toNat / 2 ^ 52 - 1 < shift) : (2 : ℚ) ^ shift / 2 ≤ |(y.units : ℚ) - t| := by
  have hshift : shift ≠ 0 := Nat.ne_zero_of_lt hy
  have hle : (2 : ℚ) ^ (shift + 52) ≤ t := h.le.resolve_left hshift
  obtain ⟨lower, rfl⟩ := Nat.exists_eq_add_one_of_ne_zero hshift
  have hpow : 2 ^ (y.bits.toNat / 2 ^ 52 - 1) ≤ 2 ^ lower :=
    Nat.pow_le_pow_right two_pos (Nat.le_of_lt_succ hy)
  have hsignificand := y.significand_lt
  have hunits : y.units + 2 ^ lower ≤ 2 ^ 53 * 2 ^ lower := by
    have hmul := Nat.mul_le_mul (show y.significand ≤ 2 ^ 53 - 1 by omega) hpow
    rw [units_eq]
    omega
  have hbelow : (y.units : ℚ) + 2 ^ lower ≤ 2 ^ 53 * 2 ^ lower := by exact_mod_cast hunits
  have hstart : (2 : ℚ) ^ (lower + 1 + 52) = 2 ^ 53 * 2 ^ lower := by ring
  have hhalf : (2 : ℚ) ^ (lower + 1) / 2 = 2 ^ lower := by ring
  rw [abs_sub_comm]
  refine le_trans ?_ (le_abs_self _)
  linarith

/-- A double that is not the result is at least as far off as half of the spacing of doubles there. -/
theorem half_le (h : Shortens t shift m) {y : Binary64} (hy : y.units ≠ m * 2 ^ shift) :
    (2 : ℚ) ^ shift / 2 ≤ |(y.units : ℚ) - t| := by
  by_cases hcoarse : shift ≤ y.bits.toNat / 2 ^ 52 - 1
  · obtain ⟨further, hfurther⟩ := Nat.exists_eq_add_of_le hcoarse
    have hgrid : y.units = y.significand * 2 ^ further * 2 ^ shift := by
      rw [units_eq, hfurther, Nat.pow_add, Nat.mul_comm (2 ^ shift), Nat.mul_assoc]
    have hother : y.significand * 2 ^ further ≠ m := fun hk => hy (hk ▸ hgrid)
    have hcast : (y.units : ℚ) = ((y.significand * 2 ^ further : ℕ) : ℚ) * 2 ^ shift := by
      exact_mod_cast hgrid
    rw [hcast]
    exact h.half_le_of_multiple hother
  · exact h.half_le_of_below (Nat.lt_of_not_le hcoarse)

/-- The significand carries from halfway behind the last odd one on. -/
theorem lt_carry_iff (h : Shortens t shift m) : m < 2 ^ 53 ↔ t < (2 ^ 53 - 1 / 2) * 2 ^ shift := by
  have hscale : (0 : ℚ) < 2 ^ shift := by positivity
  obtain ⟨hlow, hhigh⟩ := abs_le.mp h.error
  have htie := h.tie
  generalize (2 : ℚ) ^ shift = scale at *
  constructor
  · intro hless
    by_contra hover
    have hscaled : (2 ^ 53 - 1 : ℚ) * scale ≤ m * scale := by linarith
    have hquotient : (2 ^ 53 - 1 : ℚ) ≤ m := le_of_mul_le_mul_right hscaled hscale
    have hnext : (2 ^ 53 : ℚ) ≤ m + 1 := by linarith
    have hge : 2 ^ 53 ≤ m + 1 := by exact_mod_cast hnext
    -- An odd significand halfway from the power of two would not have been chosen.
    have hlast : (m : ℚ) + 1 = 2 ^ 53 := by exact_mod_cast (show m + 1 = 2 ^ 53 by omega)
    have hm : (m : ℚ) * scale = (2 ^ 53 - 1) * scale := by rw [← hlast, add_sub_cancel_right]
    have hgap : m * scale - t = -(scale / 2) := by linarith
    have heven := htie (by rw [hgap, abs_neg, abs_of_pos (half_pos hscale)])
    omega
  · intro hunder
    have hscaled : (m : ℚ) * scale < 2 ^ 53 * scale := by linarith
    have hquotient : (m : ℚ) < 2 ^ 53 := lt_of_mul_lt_mul_right hscaled hscale.le
    exact_mod_cast hquotient

/-- The bits are those of a finite double up to the threshold of overflow. -/
theorem lt_infinity_iff (h : Shortens t shift m) :
    shift * 2 ^ 52 + m < infinityBits ↔ t < (2 ^ 53 - 1 / 2) * 2 ^ 2045 := by
  have hle := h.significand_le
  have hscale : (0 : ℚ) < 2 ^ 2045 := by positivity
  unfold infinityBits
  rcases lt_trichotomy shift 2045 with hless | rfl | hgreater
  · refine iff_of_true (by omega) ?_
    have hlt : t < 2 ^ 52 * 2 ^ 2045 := by
      apply h.lt.trans_le
      rw [← pow_add]
      exact pow_le_pow_right₀ one_le_two (by omega)
    generalize (2 : ℚ) ^ 2045 = scale at *
    linarith
  · rw [← h.lt_carry_iff]
    omega
  · have hsignificand : 2 ^ 52 ≤ m := h.le_significand.resolve_left (by omega)
    refine iff_of_false (by omega) ?_
    have hge : 2 ^ 53 * 2 ^ 2045 ≤ t := by
      refine le_trans ?_ (h.le.resolve_left (by omega))
      rw [← pow_add]
      exact pow_le_pow_right₀ one_le_two (by omega)
    generalize (2 : ℚ) ^ 2045 = scale at *
    intro hunder
    linarith

theorem eq_zero_iff (h : Shortens t shift m) : shift = 0 ∧ m = 0 ↔ t ≤ 1 / 2 := by
  have herror := h.error
  constructor
  · rintro ⟨rfl, rfl⟩
    rw [Nat.cast_zero, zero_mul, zero_sub, abs_neg, pow_zero] at herror
    exact (le_abs_self t).trans herror
  · intro hsmall
    have hshift : shift = 0 := by
      by_contra hne
      have hle := h.le.resolve_left hne
      have hone : (1 : ℚ) ≤ 2 ^ (shift + 52) := one_le_pow₀ one_le_two
      linarith
    subst hshift
    have htie := h.tie
    rw [pow_zero, mul_one] at herror htie
    have hhigh := (abs_le.mp herror).2
    have hle : (m : ℚ) ≤ 1 := by linarith
    have hm : m ≤ 1 := by exact_mod_cast hle
    refine ⟨rfl, ?_⟩
    by_contra hne
    have hone : m = 1 := by omega
    subst hone
    -- One is chosen only where it is nearer than zero.
    rw [Nat.cast_one] at hhigh htie
    have hhalf : t = 1 / 2 := by linarith
    have heven := htie (by rw [hhalf]; norm_num)
    omega

end Shortens

theorem toNat_ofRatio (n d : Nat) :
    (ofRatio n d).bits.toNat = min ((((n <<< 1074) / d).log2 - 52) * 2 ^ 52 +
      roundEven (n <<< 1074) (d * 2 ^ (((n <<< 1074) / d).log2 - 52))) infinityBits := by
  have hfits (bits : Nat) : min bits infinityBits % 2 ^ 64 = min bits infinityBits :=
    Nat.mod_eq_of_lt (Nat.lt_of_le_of_lt (Nat.min_le_right bits _) (by decide))
  unfold ofRatio
  dsimp only
  rw [UInt64.toNat_ofNat', hfits, Nat.shiftLeft_eq d, Nat.shiftLeft_eq _ 52]

theorem units_injective {x y : Binary64} (h : x.units = y.units) : x = y := by
  have hx := bits_of_units x
  rw [h, bits_of_units y] at hx
  have hbits : x.bits = y.bits := UInt64.toNat_inj.mp hx.symm
  cases x
  cases y
  exact congrArg mk hbits

/-- The distance of a double from a number, in units of the smallest double. -/
theorem abs_value_sub (x : Binary64) (q : ℚ) :
    |x.value - q| = |(x.units : ℚ) - q * 2 ^ 1074| / 2 ^ 1074 := by
  have hpos : (0 : ℚ) < 2 ^ 1074 := by positivity
  unfold value
  generalize (2 : ℚ) ^ 1074 = scale at *
  rw [← abs_of_pos hpos, ← abs_div, abs_of_pos hpos, sub_div, mul_div_cancel_right₀ q hpos.ne']

theorem overflowThreshold_units : overflowThreshold * 2 ^ 1074 = (2 ^ 53 - 1 / 2) * 2 ^ 2045 := by
  have hpow : (2 : ℚ) ^ 1023 * 2 ^ 1074 = 2 ^ 52 * 2 ^ 2045 := by rw [← pow_add, ← pow_add]
  unfold overflowThreshold
  rw [mul_assoc, hpow, ← mul_assoc]
  norm_num

/-- A double with the bits of a shortened number of units is what the number is rounded to. -/
theorem Shortens.rounds {q : ℚ} {shift m : Nat} {x : Binary64}
    (h : Shortens (q * 2 ^ 1074) shift m)
    (hbits : x.bits.toNat = min (shift * 2 ^ 52 + m) infinityBits) : Rounds q x := by
  have hscale : (0 : ℚ) < 2 ^ 1074 := by positivity
  have hthreshold : shift * 2 ^ 52 + m < infinityBits ↔ q < overflowThreshold := by
    rw [h.lt_infinity_iff, ← overflowThreshold_units, mul_lt_mul_iff_left₀ hscale]
  have hfinite (hq : q < overflowThreshold) : x.bits.toNat = shift * 2 ^ 52 + m := by
    rw [hbits, Nat.min_eq_left (hthreshold.mpr hq).le]
  have hvalue (hq : q < overflowThreshold) : x.units = m * 2 ^ shift :=
    units_of_bits (hfinite hq) h.significand_le h.le_significand
  have herror (hq : q < overflowThreshold) : |(x.units : ℚ) - q * 2 ^ 1074| ≤ 2 ^ shift / 2 := by
    rw [hvalue hq]
    push_cast
    exact h.error
  constructor
  · have hzero : x.bits.toNat = 0 ↔ shift = 0 ∧ m = 0 := by
      unfold infinityBits at hbits
      omega
    have hhalf : (1 : ℚ) / 2 ^ 1075 * 2 ^ 1074 = 1 / 2 := by
      rw [pow_succ]
      field_simp
    rw [hzero, h.eq_zero_iff, ← hhalf, mul_le_mul_iff_left₀ hscale]
  · intro hq
    have hover : infinityBits ≤ shift * 2 ^ 52 + m :=
      Nat.le_of_not_lt fun hlt => absurd (hthreshold.mp hlt) hq.not_gt
    rw [hbits, Nat.min_eq_right hover]
  · intro hq
    unfold IsFinite
    rw [hfinite hq]
    exact hthreshold.mpr hq
  · intro hq y _
    rw [abs_value_sub, abs_value_sub]
    apply div_le_div_of_nonneg_right _ hscale.le
    by_cases hsame : y.units = x.units
    · rw [hsame]
    · rw [hvalue hq] at hsame
      exact (herror hq).trans (h.half_le hsame)
  · intro hq y _ hne htie
    rw [abs_value_sub, abs_value_sub, div_left_inj' hscale.ne'] at htie
    have hother : y.units ≠ m * 2 ^ shift := fun hsame =>
      hne (units_injective (hsame.trans (hvalue hq).symm))
    have hfar := h.half_le hother
    have hmidway := le_antisymm (herror hq) (htie ▸ hfar)
    rw [hvalue hq] at hmidway
    push_cast at hmidway
    have heven := h.tie hmidway
    rw [significand_mod_two, hfinite hq]
    omega

/-- Quotients are rounded to nearest, ties to even. -/
theorem rounds_ofRatio {d : Nat} (hd : 0 < d) (n : Nat) : Rounds ((n : ℚ) / d) (ofRatio n d) := by
  have hshortens := shortens_quotient hd (n <<< 1074)
  have hunits (k : Nat) : ((n <<< k : ℕ) : ℚ) / d = (n : ℚ) / d * 2 ^ k := by
    rw [Nat.shiftLeft_eq, Nat.cast_mul, Nat.cast_pow, Nat.cast_ofNat, mul_div_right_comm]
  rw [hunits] at hshortens
  exact hshortens.rounds (toNat_ofRatio n d)

end Binary64
end XPath
