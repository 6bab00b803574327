import XPath.Axis
import XPath.Operator

/-! Tokens, their kinds, and the faults a text can have before any grammar is applied. -/
namespace XPath

/-- Why no token could be read, with the place or name at fault. -/
inductive LexError
  | unterminatedLiteral (start : Nat)
  | invalidNameStart (position : Nat)
  | loneBang (position : Nat)
  | malformedQName (position : Nat)
  | unknownAxis (name : String)
  deriving DecidableEq

def LexError.message : LexError → String
  | unterminatedLiteral start => s!"unterminated string literal starting at {start}"
  | invalidNameStart position => s!"unexpected character at {position}"
  | loneBang position => s!"'!' not followed by '=' at {position}"
  | malformedQName position => s!"malformed qualified name at {position}"
  | unknownAxis name => s!"'{name}' is not an axis name"

/-- A token that carries no text of the expression. -/
inductive Mark
  | endOfInput
  | error (e : LexError)
  | leftParen
  | rightParen
  | leftBracket
  | rightBracket
  | atSign
  | comma
  | dot
  | dotDot
  | slash
  | slashSlash
  | op (o : BinaryOp)
  | axis (a : Axis)
  deriving DecidableEq

/-- What the text of a token stands for. -/
inductive TextKind
  | literal
  | number
  | nameTest
  | functionName
  | nodeType
  | processingInstruction
  | variableReference
  deriving DecidableEq

/-- A token. Its text is of type `η`: the characters themselves as it is read, a handle once a
table keeps them. -/
inductive Token (η : Type)
  | mark (m : Mark)
  | text (k : TextKind) (s : η)
  deriving DecidableEq

/-- A token without what it carries. The arithmetic signs and the three logical and set operators
have kinds of their own, the other operators share the kind of their precedence. -/
inductive TokenKind
  | endOfInput
  | error
  | leftParen
  | rightParen
  | leftBracket
  | rightBracket
  | atSign
  | comma
  | pipe
  | dot
  | dotDot
  | slash
  | slashSlash
  | plus
  | minus
  | equality
  | relational
  | multiplicative
  | and
  | or
  | axisName
  | text (k : TextKind)
  deriving DecidableEq

def BinaryOp.tokenKind : BinaryOp → TokenKind
  | or => .or
  | and => .and
  | equals | notEquals => .equality
  | lessThan | lessThanOrEqual | greaterThan | greaterThanOrEqual => .relational
  | plus => .plus
  | minus => .minus
  | multiply | divide | modulo => .multiplicative
  | union => .pipe

/-- The word for an operator among those of its kind, where the kind has several. -/
def BinaryOp.payload? : BinaryOp → Option String
  | equals => some "Equal"
  | notEquals => some "NotEqual"
  | lessThan => some "LessThan"
  | lessThanOrEqual => some "LessOrEqual"
  | greaterThan => some "GreaterThan"
  | greaterThanOrEqual => some "GreaterOrEqual"
  | multiply => some "Multiply"
  | divide => some "Divide"
  | modulo => some "Modulo"
  | or | and | plus | minus | union => none

def Mark.kind : Mark → TokenKind
  | endOfInput => .endOfInput
  | error _ => .error
  | leftParen => .leftParen
  | rightParen => .rightParen
  | leftBracket => .leftBracket
  | rightBracket => .rightBracket
  | atSign => .atSign
  | comma => .comma
  | dot => .dot
  | dotDot => .dotDot
  | slash => .slash
  | slashSlash => .slashSlash
  | op o => o.tokenKind
  | axis _ => .axisName

namespace Token
variable {η θ : Type}

def kind : Token η → TokenKind
  | mark m => m.kind
  | text k _ => .text k

def map (f : η → θ) : Token η → Token θ
  | mark m => mark m
  | text k s => text k (f s)

/-- The end of the input and errors: nothing after them is worth reading. -/
def isFinal : Token η → Bool
  | mark .endOfInput | mark (.error _) => true
  | _ => false

@[simp] theorem kind_map (f : η → θ) (t : Token η) : (t.map f).kind = t.kind := by
  cases t <;> rfl

end Token

def TextKind.name : TextKind → String
  | literal => "Literal"
  | number => "Number"
  | nameTest => "NameTest"
  | functionName => "FunctionName"
  | nodeType => "NodeType"
  | processingInstruction => "ProcessingInstruction"
  | variableReference => "VariableReference"

namespace TokenKind

def name : TokenKind → String
  | endOfInput => "End"
  | error => "Error"
  | leftParen => "LParen"
  | rightParen => "RParen"
  | leftBracket => "LBracket"
  | rightBracket => "RBracket"
  | atSign => "At"
  | comma => "Comma"
  | pipe => "Pipe"
  | dot => "Dot"
  | dotDot => "DotDot"
  | slash => "Slash"
  | slashSlash => "SlashSlash"
  | plus => "Plus"
  | minus => "Minus"
  | equality => "EqOp"
  | relational => "RelOp"
  | multiplicative => "MulOp"
  | and => "And"
  | or => "Or"
  | axisName => "AxisName"
  | text k => k.name

def all : List TokenKind :=
  [endOfInput, error, leftParen, rightParen, leftBracket, rightBracket, atSign, comma, pipe, dot,
    dotDot, slash, slashSlash, plus, minus, equality, relational, multiplicative, and, or, axisName,
    text .literal, text .number, text .nameTest, text .functionName, text .nodeType,
    text .processingInstruction, text .variableReference]

def ofName? (s : String) : Option TokenKind :=
  all.find? (·.name == s)

theorem mem_all (k : TokenKind) : k ∈ all := by
  cases k with
  | text k => cases k <;> decide
  | _ => decide

end TokenKind
end XPath
