/-! What a caller may choose about parsing. -/
namespace XPath

structure Options where
  /-- How deeply expressions may nest: the whole, and each pair of parentheses, predicate, function
  argument and operand of a unary minus within another. -/
  maxDepth : Nat := 128
  /-- Whether calls are held against the registry. -/
  validateFunctions : Bool := true
  deriving DecidableEq

end XPath
