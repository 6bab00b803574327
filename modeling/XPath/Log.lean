import XPath.Namespace
import XPath.Rejection
import XPath.Text.Quoted

/-! What is noteworthy about reading an expression, and how it is put into words. -/
namespace XPath

/-- How much a reader of the log wants to see, least first. -/
inductive LogLevel
  | warn
  | debug
  | trace
  deriving DecidableEq

namespace LogLevel

def name : LogLevel → String
  | warn => "WARN"
  | debug => "DEBUG"
  | trace => "TRACE"

/-- Whether a log at this level shows events of level `l`. -/
def admits (self l : LogLevel) : Bool :=
  match self, l with
  | trace, _ | debug, debug | _, warn => true
  | _, _ => false

end LogLevel

def LexError.description : LexError → String
  | unterminatedLiteral start => s!"UnterminatedLiteral \x7b start: {start} \x7d"
  | invalidNameStart position => s!"InvalidNameStart \x7b position: {position} \x7d"
  | loneBang position => s!"LoneBang \x7b position: {position} \x7d"
  | malformedQName position => s!"MalformedQName \x7b position: {position} \x7d"
  | unknownAxis name => s!"UnknownAxis \x7b name: {Text.quoted name} \x7d"

/-- The kind of a token, with what it carries in parentheses. -/
def Token.description (t : Token String) : String :=
  let payload := match t with
    | .mark (.error e) => some e.description
    | .mark (.op o) => o.payload?
    | .mark (.axis a) => some a.label
    | .mark _ => none
    | .text _ s => some (Text.quoted s)
  match payload with
  | some p => s!"{t.kind.name}({p})"
  | none => t.kind.name

inductive Event
  /-- A token was read, the cursor being at `position` behind it. -/
  | token (position : Nat) (t : Token String)
  | parsing (statement : String)
  /-- A lookup at an element found nothing. -/
  | unbound (name element : String)
  | unresolved (name : String)
  | rejected (statement : String) (reason : Rejection) (released : Nat)
  /-- An expression was accepted while texts of its tokens were still kept. -/
  | unconsumed (count : Nat) (statement : String)

namespace Event

def level : Event → LogLevel
  | token .. => .trace
  | parsing _ | unbound .. | unresolved _ | rejected .. => .debug
  | unconsumed .. => .warn

def message : Event → String
  | token position t => s!"xpath token at {position}: {t.description}"
  | parsing statement => s!"Parsing XPath expression '{statement}'"
  | unbound name element => s!"Prefix '{name}' is not bound at <{element}>"
  | unresolved name => unresolvedMessage name
  | rejected statement reason released =>
    s!"XPath '{statement}' rejected ({reason.message}); released {released} pending string(s)"
  | unconsumed count statement =>
    s!"{count} token string(s) were not consumed by the grammar for '{statement}'"

/-- What a resolver that found nothing for `name` has to say about it. -/
def unbound? (resolver : Option Resolver) (name : String) : List Event :=
  ((resolver.bind (·.element)).map (unbound name)).toList

/-- The events that a log at level `l` shows, in order. -/
def shown (l : LogLevel) (events : List Event) : List (LogLevel × String) :=
  (events.filter (l.admits ·.level)).map fun e => (e.level, e.message)

end Event

end XPath
