/-! Double-precision numbers by their bits, and rounding a decimal numeral to the nearest of them. -/
namespace XPath

/-- A binary floating-point number of 64 bits: sign, eleven bits of exponent, fraction. -/
structure Binary64 where
  bits : UInt64
  deriving DecidableEq

/-- The integer nearest to `n / d`, the even one of two that are equally near. -/
def roundEven (n d : Nat) : Nat :=
  let q := n / d
  let r := n % d
  if 2 * r < d ∨ (2 * r = d ∧ q % 2 = 0) then q else q + 1

namespace Binary64

def infinityBits : Nat := 0x7FF0000000000000

/-- The double nearest to `n / d`, ties to even. In units of the smallest double, 2⁻¹⁰⁷⁴, the spacing
of doubles there is `2 ^ shift`, and counting doubles from zero counts `shift` binades of `2 ^ 52`
each. Rounding up to a power of two carries into the exponent, and past the last double to infinity. -/
def ofRatio (n d : Nat) : Binary64 :=
  let scaled := n <<< 1074
  let shift := (scaled / d).log2 - 52
  let significand := roundEven scaled (d <<< shift)
  ⟨.ofNat (min ((shift <<< 52) + significand) infinityBits)⟩

def digitsValue (ds : List Char) : Nat :=
  ds.foldl (fun n d => 10 * n + (d.toNat - '0'.toNat)) 0

/-- The value of digits with at most one full stop among them, of which there must be one at least. -/
def ofNumeral? (s : String) : Option Binary64 :=
  let whole := s.toList.takeWhile Char.isDigit
  match s.toList.dropWhile Char.isDigit with
  | [] => if whole.isEmpty then none else some (ofRatio (digitsValue whole) 1)
  | '.' :: fraction =>
    if fraction.all Char.isDigit && !(whole.isEmpty && fraction.isEmpty) then
      some (ofRatio (digitsValue (whole ++ fraction)) (Nat.pow 10 fraction.length))
    else none
  | _ => none

/-- The bits in hexadecimal, sixteen digits. -/
def hex (x : Binary64) : String :=
  let digits := Nat.toDigits 16 x.bits.toNat
  String.ofList (List.replicate (16 - digits.length) '0' ++ digits)

end Binary64
end XPath
