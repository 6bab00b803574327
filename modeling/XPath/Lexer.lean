import XPath.Token.Context
import XPath.Token.Scan

/-! Reading an expression token by token. -/
namespace XPath

/-- A cursor together with the kind of the token read last. -/
structure Lexer where
  cursor : Cursor
  context : OperatorContext

namespace Lexer

/-- At the beginning of `s`, nothing read yet. -/
def ofString (s : String) : Lexer :=
  ⟨.ofString s, {}⟩

def position (l : Lexer) : Nat :=
  l.cursor.position

/-- The length of the whole text, read or not. -/
def length (l : Lexer) : Nat :=
  l.cursor.length

/-- How many characters are still unread. -/
def unread (l : Lexer) : Nat :=
  l.cursor.rest.length

/-- Reads one token and records its kind, errors and the end included. -/
def next (l : Lexer) : Token String × Lexer :=
  let (t, cursor) := l.cursor.scan l.context.expectsOperator
  (t, ⟨cursor, l.context.record t.kind⟩)

/-- At most `n` tokens, each with the position behind it, up to the first end or error. -/
def trace : Nat → Lexer → List (Token String × Nat)
  | 0, _ => []
  | n + 1, l =>
    let (t, l') := l.next
    (t, l'.position) :: if t.isFinal then [] else trace n l'

/-- The tokens up to the first end or error. Each one before that takes at least one character. -/
def tokens (l : Lexer) : List (Token String × Nat) :=
  l.trace (l.unread + 1)

end Lexer

/-- The tokens of an expression up to the end or the first error, which comes last. -/
def tokenize (s : String) : List (Token String) :=
  (Lexer.ofString s).tokens.map Prod.fst

end XPath
