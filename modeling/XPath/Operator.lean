/-! Binary operators and how tightly they bind. -/
namespace XPath

/-- Levels of the expression grammar that join operands by a binary operator. -/
inductive Precedence
  | or
  | and
  | equality
  | relational
  | additive
  | multiplicative
  | union
  deriving DecidableEq, Inhabited

/-- The levels looser than the unary minus, loosest first. Only `union` binds tighter than it. -/
def Precedence.aboveMinus : List Precedence :=
  [.or, .and, .equality, .relational, .additive, .multiplicative]

inductive BinaryOp
  | or
  | and
  | equals
  | notEquals
  | lessThan
  | lessThanOrEqual
  | greaterThan
  | greaterThanOrEqual
  | plus
  | minus
  | multiply
  | divide
  | modulo
  | union
  deriving DecidableEq, Inhabited

namespace BinaryOp

def precedence : BinaryOp → Precedence
  | or => .or
  | and => .and
  | equals | notEquals => .equality
  | lessThan | lessThanOrEqual | greaterThan | greaterThanOrEqual => .relational
  | plus | minus => .additive
  | multiply | divide | modulo => .multiplicative
  | union => .union

/-- The operator as it is written in an expression. -/
def spelling : BinaryOp → String
  | or => "or"
  | and => "and"
  | equals => "="
  | notEquals => "!="
  | lessThan => "<"
  | lessThanOrEqual => "<="
  | greaterThan => ">"
  | greaterThanOrEqual => ">="
  | plus => "+"
  | minus => "-"
  | multiply => "*"
  | divide => "div"
  | modulo => "mod"
  | union => "|"

/-- The word for the operator in the flat form of a tree. -/
def label : BinaryOp → String
  | or => "Or"
  | and => "And"
  | equals => "Equals"
  | notEquals => "NotEquals"
  | lessThan => "LessThan"
  | lessThanOrEqual => "LessThanOrEqual"
  | greaterThan => "GreaterThan"
  | greaterThanOrEqual => "GreaterThanOrEqual"
  | plus => "Plus"
  | minus => "Minus"
  | multiply => "Multiply"
  | divide => "Divide"
  | modulo => "Modulo"
  | union => "Union"

/-- The operators that are written as words. -/
def ofWord? (s : String) : Option BinaryOp :=
  if s == "and" then some and
  else if s == "or" then some or
  else if s == "mod" then some modulo
  else if s == "div" then some divide
  else none

end BinaryOp
end XPath
