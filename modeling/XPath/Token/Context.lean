import XPath.Token

/-! The one piece of memory that tells an operator from a name: the kind of the token before. -/
namespace XPath

/-- Whether an operand ends with a token of this kind, so that a binary operator may follow. -/
def TokenKind.endsOperand : TokenKind → Bool
  | atSign | axisName | leftParen | leftBracket | comma | and | or | multiplicative | slash
  | slashSlash | pipe | plus | minus | equality | relational => false
  | _ => true

/-- The kind of the last token read, none at the start of the input. -/
structure OperatorContext where
  last : Option TokenKind := none
  deriving DecidableEq

namespace OperatorContext

def record (_ : OperatorContext) (k : TokenKind) : OperatorContext :=
  ⟨some k⟩

/-- Whether `*`, `and`, `or`, `mod` and `div` are operators here and not names. -/
def expectsOperator (c : OperatorContext) : Bool :=
  c.last.any TokenKind.endsOperand

end OperatorContext
end XPath
