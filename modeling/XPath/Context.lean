import XPath.Lexer
import XPath.Log
import XPath.Namespace
import XPath.Options

/-! What one parse reads and changes: the text and the table of its tokens' texts, under a setting
that stays as it is. -/
namespace XPath

/-- What a parse is given besides the expression. -/
structure Setting where
  resolver : Option Resolver := none
  functions : Registry := .core
  options : Options := {}

/-- Whether a call is allowed. Every call is, if calls are not held against the registry. -/
def Setting.check (s : Setting) (name : String) (count : Nat) : Except Rejection Unit :=
  if s.options.validateFunctions then
    match s.functions.check name count with
    | .ok () => .ok ()
    | .error .unknown => .error (.unknownFunction name)
    | .error (.wrongArity expected) => .error (.wrongArity name count expected)
  else .ok ()

/-- The state of a parse. The log has its latest event first. -/
structure Context where
  lexer : Lexer
  arena : Arena
  namespaceErrorSeen : Bool := false
  log : List Event := []

namespace Context

/-- At the beginning of a statement. -/
def begin (statement : String) (arena : Arena) : Context where
  lexer := .ofString statement
  arena := arena

/-- Reads one token. Its text goes into the table. -/
def next (c : Context) : Token Handle × Context :=
  let (t, lexer) := c.lexer.next
  let c := { c with lexer, log := .token lexer.position t :: c.log }
  match t with
  | .mark m => (.mark m, c)
  | .text k s =>
    let (h, arena) := c.arena.register s
    (.text k h, { c with arena })

/-- Takes a text out of the table. -/
def take (c : Context) (h : Handle) : Except Rejection String × Context :=
  match c.arena.release? h with
  | some (s, arena) => (.ok s, { c with arena })
  | none => (.error (.unregistered h), c)

/-- Expands a name. A failure is remembered for the class of the error. -/
def expand (c : Context) (resolver : Option Resolver) (name : String) :
    Except Rejection ExpandedName × Context :=
  match expandName resolver name with
  | .ok n => (.ok n, c)
  | .error short =>
    (.error (.unresolved short),
      { c with
        namespaceErrorSeen := true
        log := .unresolved short :: (Event.unbound? resolver short ++ c.log) })

/-- Remembers a failure to resolve a name that was found in another way. -/
def flag (c : Context) : Context :=
  { c with namespaceErrorSeen := true }

end Context
end XPath
