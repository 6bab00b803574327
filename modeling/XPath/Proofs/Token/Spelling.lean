import XPath.Proofs.Token.Cursor
import XPath.Token.Context
import XPath.Token.Scan

/-! How tokens are written, which lists of tokens fit together, and how the written tokens of a list
may be set out. None of this refers to the way tokens are read. -/
namespace XPath

/-- A name `s` with or without a colon, whose part before the colon is `first`. Blanks may stand on
both sides of the colon where it is written. -/
inductive SpellsName : String → String → List Char → Prop
  | plain {n : String} (hn : IsNCName n) : SpellsName n n n.toList
  | colon {p n : String} {w w' : List Char} (hp : IsNCName p) (hw : Blank w) (hw' : Blank w')
      (hn : IsNCName n) : SpellsName p (qualified p n) (p.toList ++ w ++ ':' :: w' ++ n.toList)

/-- A name with or without a colon, whose part before the colon is `first`. -/
inductive QName : String → String → Prop
  | plain {n : String} (hn : IsNCName n) : QName n n
  | colon {p n : String} (hp : IsNCName p) (hn : IsNCName n) : QName p (qualified p n)

/-- Digits with at most one full stop, and one digit at least. -/
def IsNumeral (s : String) : Prop :=
  ∃ whole fraction : List Char, (∀ x ∈ whole ++ fraction, x.isDigit = true) ∧
    whole ++ fraction ≠ [] ∧
    (s.toList = whole ++ '.' :: fraction ∨ fraction = [] ∧ s.toList = whole)

/-- How a mark is written, if it is written in one way only. -/
def Mark.spelling? : Mark → Option (List Char)
  | leftParen => some ['(']
  | rightParen => some [')']
  | leftBracket => some ['[']
  | rightBracket => some [']']
  | atSign => some ['@']
  | comma => some [',']
  | dot => some ['.']
  | dotDot => some ['.', '.']
  | slash => some ['/']
  | slashSlash => some ['/', '/']
  | op o => some o.spelling.toList
  | endOfInput | error _ | axis _ => none

/-- The ways to write a token, none of which begins or ends with a blank. -/
inductive Spells : Token String → List Char → Prop
  | mark {m : Mark} {l : List Char} (hm : m.spelling? = some l) : Spells (.mark m) l
  | axis {a : Axis} {w : List Char} (hw : Blank w) :
      Spells (.mark (.axis a)) (a.name.toList ++ w ++ [':', ':'])
  | literal {quote : Char} {s : String} (hq : quote = '\'' ∨ quote = '"')
      (hs : quote ∉ s.toList) : Spells (.text .literal s) (quote :: s.toList ++ [quote])
  | number {s : String} (hs : IsNumeral s) : Spells (.text .number s) s.toList
  | star : Spells (.text .nameTest "*") ['*']
  | namespaceStar {p : String} {w w' : List Char} (hp : IsNCName p) (hw : Blank w)
      (hw' : Blank w') :
      Spells (.text .nameTest (qualified p "*")) (p.toList ++ w ++ ':' :: w' ++ ['*'])
  | name {kind : TextKind} {p s : String} {l : List Char}
      (hk : kind ∈ [TextKind.nameTest, .functionName, .nodeType, .processingInstruction])
      (hs : SpellsName p s l) : Spells (.text kind s) l
  | variableReference {p s : String} {l : List Char} (hs : SpellsName p s l) :
      Spells (.text .variableReference s) ('$' :: l)

/-- Whether a character directly behind a token would be read as a part of it. -/
def Token.goesOn : Token String → Char → Bool
  | .mark .slash, x => x == '/'
  | .mark .dot, x => x == '.' || x.isDigit
  | .mark (.op .lessThan), x | .mark (.op .greaterThan), x => x == '='
  | .mark (.op .and), x | .mark (.op .or), x | .mark (.op .divide), x | .mark (.op .modulo), x =>
    inName x
  | .mark _, _ | .text .literal _, _ => false
  | .text .number s, x => x.isDigit || (x == '.' && !s.toList.contains '.')
  | .text .nameTest s, x => s.toList.getLast? != some '*' && inName x
  | .text _ _, x => inName x

/-- The names that are operators where an operator is expected. -/
def IsOperatorWord (s : String) : Prop :=
  s ∈ ["and", "or", "mod", "div"]

/-- Whether a token can be where an operator is expected or not, and in front of an opening
parenthesis or not. -/
def Token.Fits (expectsOperator : Bool) (parenFollows : Prop) : Token String → Prop
  | .mark .endOfInput | .mark (.error _) => False
  | .mark (.op o) =>
    o.tokenKind ∈ [TokenKind.and, .or, .multiplicative] → expectsOperator = true
  | .mark _ => True
  | .text .nameTest s =>
    s = "*" ∧ expectsOperator = false ∨
      ∃ p, (expectsOperator = true → ¬ IsOperatorWord p) ∧
        (IsNCName p ∧ s = qualified p "*" ∨ QName p s ∧ ¬ parenFollows)
  | .text .functionName s =>
    (∃ p, (expectsOperator = true → ¬ IsOperatorWord p) ∧ QName p s) ∧
      s ∉ ["comment", "text", "node", "processing-instruction"] ∧ parenFollows
  | .text .nodeType s => s ∈ ["comment", "text", "node"] ∧ parenFollows
  | .text .processingInstruction s => s = "processing-instruction" ∧ parenFollows
  | .text .variableReference s => ∃ p, QName p s
  | .text .literal s => '\'' ∉ s.toList ∨ '"' ∉ s.toList
  | .text .number s => IsNumeral s

/-- Lists of tokens in which each one fits behind the one before and in front of the one after. -/
def Consistent : OperatorContext → List (Token String) → Prop
  | _, [] => True
  | c, t :: ts =>
    t.Fits c.expectsOperator (ts.head? = some (.mark .leftParen)) ∧ Consistent (c.record t.kind) ts

/-- Texts in which the tokens of a list are written one after the other, with blanks between them
wherever two would run together otherwise. -/
inductive Layout : List (Token String) → List Char → Prop
  | nil {w : List Char} (hw : Blank w) : Layout [] w
  | cons {t : Token String} {ts : List (Token String)} {w l rest : List Char} (hw : Blank w)
      (hl : Spells t l) (hend : EndsRun t.goesOn rest) (h : Layout ts rest) :
      Layout (t :: ts) (w ++ l ++ rest)

end XPath
