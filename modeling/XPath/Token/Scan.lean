import XPath.Cursor
import XPath.Token

/-! Reading one token. Each function answers with the token and the cursor behind it; at a fault the
cursor stays where reading stopped. -/
namespace XPath

/-- The longest mark that begins a text, with its length. A full stop before a digit begins a number,
and `*` needs the context to be read. -/
def Mark.ofChars? : List Char → Option (Mark × Nat)
  | '(' :: _ => some (.leftParen, 1)
  | ')' :: _ => some (.rightParen, 1)
  | '[' :: _ => some (.leftBracket, 1)
  | ']' :: _ => some (.rightBracket, 1)
  | '@' :: _ => some (.atSign, 1)
  | ',' :: _ => some (.comma, 1)
  | '|' :: _ => some (.op .union, 1)
  | '.' :: '.' :: _ => some (.dotDot, 2)
  | '.' :: c :: _ => if c.isDigit then none else some (.dot, 1)
  | ['.'] => some (.dot, 1)
  | '/' :: '/' :: _ => some (.slashSlash, 2)
  | '/' :: _ => some (.slash, 1)
  | '+' :: _ => some (.op .plus, 1)
  | '-' :: _ => some (.op .minus, 1)
  | '=' :: _ => some (.op .equals, 1)
  | '!' :: '=' :: _ => some (.op .notEquals, 2)
  | '<' :: '=' :: _ => some (.op .lessThanOrEqual, 2)
  | '<' :: _ => some (.op .lessThan, 1)
  | '>' :: '=' :: _ => some (.op .greaterThanOrEqual, 2)
  | '>' :: _ => some (.op .greaterThan, 1)
  | _ => none

/-- What a name in front of an opening parenthesis is. -/
def TextKind.ofCallee (name : String) : TextKind :=
  if name == "processing-instruction" then .processingInstruction
  else if name == "comment" || name == "text" || name == "node" then .nodeType
  else .functionName

/-- A local name behind its namespace's short name. -/
def qualified (short localName : String) : String :=
  short ++ ":" ++ localName

namespace Cursor

/-- A literal, from its opening quote to the next quote of the same kind. -/
def literal (c : Cursor) (quote : Char) : Token String × Cursor :=
  let (value, close) := (c.advance 1).takeWhile (· != quote)
  match close.rest with
  | [] => (.mark (.error (.unterminatedLiteral c.position)), close)
  | _ :: _ => (.text .literal (String.ofList value), close.advance 1)

/-- Digits with at most one full stop among them or at either end. -/
def number (c : Cursor) : Token String × Cursor :=
  let (whole, stop) := c.takeWhile Char.isDigit
  match stop.rest with
  | '.' :: _ =>
    let (fraction, after) := (stop.advance 1).takeWhile Char.isDigit
    (.text .number (String.ofList (whole ++ '.' :: fraction)), after)
  | _ => (.text .number (String.ofList whole), stop)

/-- The name behind a dollar sign. A double colon is not part of it. -/
def variableReference (c : Cursor) : Token String × Cursor :=
  match c.ncName? with
  | none => (.mark (.error (.malformedQName c.position)), c)
  | some (name, after) =>
    let d := after.skipSpace
    match d.rest with
    | ':' :: ':' :: _ => (.text .variableReference name, d)
    | ':' :: _ =>
      let e := (d.advance 1).skipSpace
      match e.ncName? with
      | none => (.mark (.error (.malformedQName c.position)), e)
      | some (localName, after) => (.text .variableReference (qualified name localName), after)
    | _ => (.text .variableReference name, d)

/-- A complete name, told by the parenthesis that may follow and that stays unread. -/
def nameOrCallee (c : Cursor) (name : String) : Token String × Cursor :=
  let d := c.skipSpace
  match d.rest with
  | '(' :: _ => (.text (.ofCallee name) name, d)
  | _ => (.text .nameTest name, d)

/-- A token that begins with a name: an operator where one is expected, an axis before `::`, a name
with or without a colon otherwise. -/
def word (c : Cursor) (expectsOperator : Bool) : Token String × Cursor :=
  match c.ncName? with
  | none => (.mark (.error (.invalidNameStart c.position)), c)
  | some (name, after) =>
    let d := after.skipSpace
    match if expectsOperator then BinaryOp.ofWord? name else none with
    | some o => (.mark (.op o), d)
    | none =>
      match d.rest with
      | ':' :: ':' :: _ =>
        match Axis.ofName? name with
        | some a => (.mark (.axis a), d.advance 2)
        | none => (.mark (.error (.unknownAxis name)), d.advance 2)
      | ':' :: _ =>
        let e := (d.advance 1).skipSpace
        match e.rest with
        | '*' :: _ => (.text .nameTest (qualified name "*"), e.advance 1)
        | _ =>
          match e.ncName? with
          | none => (.mark (.error (.malformedQName e.position)), e)
          | some (localName, after) => after.nameOrCallee (qualified name localName)
      | _ => d.nameOrCallee name

/-- The next token. -/
def scan (start : Cursor) (expectsOperator : Bool) : Token String × Cursor :=
  let c := start.skipSpace
  match Mark.ofChars? c.rest with
  | some (m, n) => (.mark m, c.advance n)
  | none =>
    match c.rest with
    | [] => (.mark .endOfInput, c)
    | '\'' :: _ => c.literal '\''
    | '"' :: _ => c.literal '"'
    | '!' :: _ => (.mark (.error (.loneBang c.position)), c)
    | '$' :: _ => (c.advance 1).variableReference
    | '*' :: _ =>
      (if expectsOperator then .mark (.op .multiply) else .text .nameTest "*", c.advance 1)
    | first :: _ =>
      if first == '.' || first.isDigit then c.number else c.word expectsOperator

end Cursor
end XPath
