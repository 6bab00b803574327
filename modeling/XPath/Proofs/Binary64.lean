import Mathlib.Algebra.Ring.Nat
import Mathlib.Tactic.SplitIfs
import XPath.Binary64
import XPath.Proofs.Token.Spelling

/-! Every double that a numeral can denote has a numeral, its exact decimal expansion. -/
namespace XPath

/-- Scaling a fraction does not change how it is rounded. -/
theorem roundEven_scale {k : Nat} (hk : 0 < k) (n d : Nat) :
    roundEven (n * k) (d * k) = roundEven n d := by
  unfold roundEven
  dsimp only
  rw [Nat.mul_div_mul_right n d hk, Nat.mul_mod_mul_right, ← Nat.mul_assoc]
  simp only [Nat.mul_lt_mul_right hk, Nat.mul_left_inj (Nat.ne_of_gt hk)]

/-- Whole numbers are not rounded. -/
theorem roundEven_mul {d : Nat} (hd : 0 < d) (n : Nat) : roundEven (n * d) d = n := by
  unfold roundEven
  dsimp only
  rw [Nat.mul_div_cancel n hd, Nat.mul_mod_left, if_pos (Or.inl (by omega))]

theorem log2_mul_two_pow {n : Nat} (hn : n ≠ 0) (k : Nat) : (n * 2 ^ k).log2 = n.log2 + k := by
  induction k with
  | zero => simp
  | succ k ih =>
    have hne : n * 2 ^ k ≠ 0 := Nat.mul_ne_zero hn (Nat.ne_of_gt (Nat.two_pow_pos k))
    rw [Nat.pow_succ, ← Nat.mul_assoc, Nat.mul_comm, Nat.log2_two_mul hne, ih, Nat.add_assoc]

namespace Binary64

/-- A double that is no negative number, counted in units of the smallest one, 2⁻¹⁰⁷⁴. Infinity
counts as the double that would come after the last one. -/
def units (x : Binary64) : Nat :=
  let exponent := x.bits.toNat / 2 ^ 52
  let fraction := x.bits.toNat % 2 ^ 52
  if exponent = 0 then fraction else (2 ^ 52 + fraction) * 2 ^ (exponent - 1)

/-- The bits are found again from the units. -/
theorem bits_of_units (x : Binary64) :
    (x.units.log2 - 52) * 2 ^ 52 + roundEven x.units (2 ^ (x.units.log2 - 52)) = x.bits.toNat := by
  have hsplit := Nat.div_add_mod x.bits.toNat (2 ^ 52)
  have hfraction := Nat.mod_lt x.bits.toNat (show 0 < 2 ^ 52 by decide)
  unfold units
  dsimp only
  generalize x.bits.toNat / 2 ^ 52 = exponent at hsplit
  generalize x.bits.toNat % 2 ^ 52 = fraction at hsplit hfraction
  by_cases he : exponent = 0
  · have hshift : fraction.log2 - 52 = 0 := by
      by_cases hf : fraction = 0
      · rw [hf]
        decide
      · have hlog := (Nat.log2_lt hf).mpr hfraction
        omega
    have hround := roundEven_mul (d := 1) (by decide) fraction
    rw [Nat.mul_one] at hround
    rw [if_pos he, hshift, Nat.pow_zero, hround, Nat.zero_mul, ← hsplit, he, Nat.mul_zero]
  · have hnormal : (2 ^ 52 + fraction).log2 = 52 := by
      rw [Nat.log2_eq_iff (by omega)]
      omega
    have hlog := log2_mul_two_pow (show 2 ^ 52 + fraction ≠ 0 by omega) (exponent - 1)
    have hshift : 52 + (exponent - 1) - 52 = exponent - 1 := by omega
    rw [if_neg he, hlog, hnormal, hshift, roundEven_mul (Nat.two_pow_pos _)]
    omega

/-- A quotient that is a whole number of units is rounded to nothing but itself. -/
theorem ofRatio_units {x : Binary64} (hx : x.bits.toNat ≤ infinityBits) {n d : Nat} (hd : 0 < d)
    (h : n <<< 1074 = x.units * d) : ofRatio n d = x := by
  have hround (k : Nat) : roundEven (x.units * d) (d * 2 ^ k) = roundEven x.units (2 ^ k) := by
    rw [Nat.mul_comm d, roundEven_scale hd]
  unfold ofRatio
  dsimp only
  rw [h, Nat.mul_div_cancel _ hd, Nat.shiftLeft_eq d, hround, Nat.shiftLeft_eq, bits_of_units,
    Nat.min_eq_left hx, UInt64.ofNat_toNat]

/-- No numeral denotes more than infinity. -/
theorem ofRatio_le (n d : Nat) : (ofRatio n d).bits.toNat ≤ infinityBits := by
  unfold ofRatio
  dsimp only
  rw [UInt64.toNat_ofNat']
  exact Nat.le_trans (Nat.mod_le _ _) (Nat.min_le_right _ _)

/-- `n` over `10 ^ k` in decimal digits, `k` of them behind the point. -/
def decimal (n k : Nat) : List Char :=
  let digits := Nat.toDigits 10 n
  let padded := List.replicate (k - digits.length) '0' ++ digits
  padded.take (padded.length - k) ++ '.' :: padded.drop (padded.length - k)

theorem decimal_eq (n k : Nat) : ∃ whole fraction, decimal n k = whole ++ '.' :: fraction ∧
    (∀ x ∈ whole ++ fraction, x.isDigit = true) ∧ fraction.length = k ∧
      digitsValue (whole ++ fraction) = n := by
  have hdigits (x : Char) (hx : x ∈ List.replicate (k - (Nat.toDigits 10 n).length) '0' ++
      Nat.toDigits 10 n) : x.isDigit = true := by
    rcases List.mem_append.mp hx with hx | hx
    · rw [List.eq_of_mem_replicate hx]
      rfl
    · exact Nat.isDigit_of_mem_toDigits (by decide) (by decide) hx
  have hvalue : digitsValue (List.replicate (k - (Nat.toDigits 10 n).length) '0' ++
      Nat.toDigits 10 n) = n := by
    have hfold (l : List Char) : digitsValue l = Nat.ofDigitChars 10 l 0 :=
      Nat.ofDigitChars_eq_foldl.symm
    rw [hfold, Nat.ofDigitChars_append, Nat.ofDigitChars_replicate_zero, Nat.mul_zero,
      Nat.ofDigitChars_ten_toDigits]
  have hlength : k ≤ (List.replicate (k - (Nat.toDigits 10 n).length) '0' ++
      Nat.toDigits 10 n).length := by
    rw [List.length_append, List.length_replicate]
    omega
  unfold decimal
  dsimp only
  generalize List.replicate (k - (Nat.toDigits 10 n).length) '0' ++ Nat.toDigits 10 n = padded
    at hdigits hvalue hlength
  refine ⟨_, _, rfl, ?_, ?_, ?_⟩
  · rwa [List.take_append_drop]
  · rw [List.length_drop]
    omega
  · rwa [List.take_append_drop]

theorem ofNumeral?_dotted {s : String} {whole fraction : List Char}
    (hs : s.toList = whole ++ '.' :: fraction) (hdigits : ∀ x ∈ whole ++ fraction, x.isDigit = true)
    (hne : whole ++ fraction ≠ []) :
    ofNumeral? s = some (ofRatio (digitsValue (whole ++ fraction)) (10 ^ fraction.length)) := by
  have hwhole (x : Char) (hx : x ∈ whole) := hdigits x (List.mem_append_left _ hx)
  have hfraction (x : Char) (hx : x ∈ fraction) := hdigits x (List.mem_append_right _ hx)
  have hdot : EndsRun Char.isDigit ('.' :: fraction) := endsRun_cons.mpr rfl
  have hall : fraction.all Char.isDigit = true := List.all_eq_true.mpr hfraction
  have hempty : (whole.isEmpty && fraction.isEmpty) = false := by
    cases whole with
    | nil => exact List.isEmpty_eq_false_iff.mpr hne
    | cons => rfl
  unfold ofNumeral?
  rw [hs, takeWhile_append hwhole hdot, dropWhile_append hwhole hdot]
  simp only [hall, hempty, Bool.not_false, Bool.and_true, if_true, Nat.pow_eq]

theorem ofNumeral?_whole {s : String} (hdigits : ∀ x ∈ s.toList, x.isDigit = true)
    (hne : s.toList ≠ []) : ofNumeral? s = some (ofRatio (digitsValue s.toList) 1) := by
  have hempty : s.toList.isEmpty = false := List.isEmpty_eq_false_iff.mpr hne
  unfold ofNumeral?
  rw [List.takeWhile_eq_self_iff.mpr hdigits, List.dropWhile_eq_nil_iff.mpr hdigits]
  simp only [hempty, Bool.false_eq_true, if_false]

/-- Every numeral denotes a number. -/
theorem ofNumeral?_ne_none {s : String} (h : IsNumeral s) : ofNumeral? s ≠ none := by
  obtain ⟨whole, fraction, hdigits, hne, hs | ⟨rfl, rfl⟩⟩ := h
  · rw [ofNumeral?_dotted hs hdigits hne]
    exact Option.some_ne_none _
  · rw [List.append_nil] at hdigits hne
    rw [ofNumeral?_whole hdigits hne]
    exact Option.some_ne_none _

/-- The exact decimal expansion of a double. -/
def numeral (x : Binary64) : String :=
  String.ofList (decimal (x.units * 5 ^ 1074) 1074)

theorem numeral_eq (x : Binary64) : ∃ whole fraction, x.numeral.toList = whole ++ '.' :: fraction ∧
    (∀ c ∈ whole ++ fraction, c.isDigit = true) ∧ fraction ≠ [] ∧ fraction.length = 1074 ∧
      digitsValue (whole ++ fraction) = x.units * 5 ^ 1074 := by
  obtain ⟨whole, fraction, heq, hdigits, hlength, hvalue⟩ := decimal_eq (x.units * 5 ^ 1074) 1074
  have hne : fraction ≠ [] := by
    rintro rfl
    cases hlength
  have hs : x.numeral.toList = whole ++ '.' :: fraction := by
    rw [numeral, heq, String.toList_ofList]
  exact ⟨whole, fraction, hs, hdigits, hne, hlength, hvalue⟩

theorem isNumeral_numeral (x : Binary64) : IsNumeral x.numeral := by
  obtain ⟨whole, fraction, hs, hdigits, hne, -⟩ := numeral_eq x
  exact ⟨whole, fraction, hdigits, by simp [hne], Or.inl hs⟩

/-- The decimal expansion of a double denotes it, if any numeral does. -/
theorem ofNumeral?_numeral {x : Binary64} (hx : x.bits.toNat ≤ infinityBits) :
    ofNumeral? x.numeral = some x := by
  obtain ⟨whole, fraction, hs, hdigits, hne, hlength, hvalue⟩ := numeral_eq x
  have hscale (k : Nat) : (x.units * 5 ^ k) <<< k = x.units * 10 ^ k := by
    rw [Nat.shiftLeft_eq, Nat.mul_assoc, ← Nat.mul_pow]
  have hne : whole ++ fraction ≠ [] := fun hnil => hne (List.append_eq_nil_iff.mp hnil).2
  rw [ofNumeral?_dotted hs hdigits hne, hlength, hvalue,
    ofRatio_units hx (Nat.pow_pos (by decide)) (hscale 1074)]

theorem le_of_ofNumeral? {s : String} {x : Binary64} (h : ofNumeral? s = some x) :
    x.bits.toNat ≤ infinityBits := by
  unfold ofNumeral? at h
  dsimp only at h
  split at h
  · split_ifs at h
    obtain rfl := Option.some.inj h
    exact ofRatio_le _ _
  · split_ifs at h
    obtain rfl := Option.some.inj h
    exact ofRatio_le _ _
  · cases h

end Binary64
end XPath
