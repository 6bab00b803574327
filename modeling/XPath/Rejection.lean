import XPath.Arena
import XPath.Function
import XPath.Token

/-! Why an expression is refused. -/
namespace XPath

def unresolvedMessage (name : String) : String :=
  s!"namespace prefix '{name}' cannot be resolved"

def unregisteredMessage (h : Handle) : String :=
  s!"string handle {h.description} is not registered"

/-- Why a grammar gave up on an expression. -/
inductive Rejection
  | unexpectedToken (found : TokenKind) (position : Nat)
  | lex (e : LexError)
  | unresolved (name : String)
  | unknownFunction (name : String)
  | wrongArity (name : String) (found : Nat) (expected : Arity)
  | invalidNumber (raw : String)
  | tooDeep (limit : Nat)
  | unregistered (h : Handle)
  deriving DecidableEq

def Rejection.message : Rejection → String
  | unexpectedToken found position => s!"unexpected {found.name} at {position}"
  | lex e => e.message
  | unresolved name => unresolvedMessage name
  | unknownFunction name => s!"unknown function '{name}'"
  | wrongArity name found expected =>
    s!"function '{name}' does not take {found} argument(s) (expects {expected.description})"
  | invalidNumber raw => s!"'{raw}' is not a number"
  | tooDeep limit => s!"expression nests deeper than {limit} levels"
  | unregistered h => unregisteredMessage h

/-- The two classes of failure that callers tell apart. -/
inductive ErrorClass
  | grammatical
  | namespaces
  deriving DecidableEq

/-- A refused expression: its text as given, the class of the failure and the reason. -/
structure ParseError where
  failure : ErrorClass
  statement : String
  reason : Rejection
  deriving DecidableEq

namespace ErrorClass

def name : ErrorClass → String
  | grammatical => "Syntax"
  | namespaces => "Namespace"

end ErrorClass

def ParseError.message (e : ParseError) : String :=
  match e.failure with
  | .grammatical => s!"The string '{e.statement}' is not a valid XPath expression."
  | .namespaces => s!"The string '{e.statement}' contains unresolvable namespaces."

end XPath
