/-! Sets of code points, given as ascending lists of inclusive ranges. -/
namespace XPath.CodePoint

/-- Membership. The first range that begins above `n` ends the search. -/
def within (n : Nat) : List (Nat × Nat) → Bool
  | [] => false
  | (first, last) :: rest => if n < first then false else n ≤ last || within n rest

end XPath.CodePoint
