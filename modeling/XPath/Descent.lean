import XPath.Action
import XPath.Expr

/-! The grammar of XPath 1.0 by recursive descent with one token of lookahead. -/
namespace XPath

def NodeKind.ofName (name : String) : NodeKind :=
  if name == "comment" then .comment
  else if name == "text" then .text
  else .node

/-- The test for a name. A star in place of the local name accepts every name of its namespace, or
every name at all. -/
def NodeTest.ofName (n : ExpandedName) : NodeTest :=
  if n.localName ≠ "*" then .name n.localName n.uri
  else match n.uri with
    | some uri => .namespaceWildcard uri
    | none => .wildcard

/-- The tokens with which a step begins. -/
def TokenKind.beginsStep : TokenKind → Bool
  | axisName | atSign | dot | dotDot
  | text .nameTest | text .nodeType | text .processingInstruction => true
  | _ => false

/-- Descending actions carry the token that was read ahead and may reject the expression. -/
abbrev Descent (η : Type) := StateT (Token η) (ExceptT Rejection (Action η))

namespace Descent
variable {η α : Type}

/-- An action that cannot fail. -/
def perform (x : Action η α) : Descent η α :=
  StateT.lift (ExceptT.lift x)

/-- An action whose failure rejects the expression. -/
def attempt (x : Action η (Except Rejection α)) : Descent η α :=
  StateT.lift (ExceptT.mk x)

/-- Reads the next token in place of the current one. -/
def advance : Descent η Unit := do
  set (← perform .next)

/-- Rejects the current token. -/
def refuse : Descent η α := do
  match ← get with
  | .mark (.error e) => throw (.lex e)
  | t => throw (.unexpectedToken t.kind (← perform .inspect).position)

/-- Passes a token of kind `k`. -/
def expect (k : TokenKind) : Descent η Unit := do
  if (← get).kind = k then advance else refuse

/-- Passes the current token and takes its text, known by `h`. -/
def takeText (h : η) : Descent η String := do
  advance
  attempt (.take h)

/-- Goes on from a left operand while operators of precedence `p` follow, at most `n` of them. -/
def chain (p : Precedence) (operand : Descent η Expr) : Nat → Expr → Descent η Expr
  | 0, left => pure left
  | n + 1, left => do
    match ← get with
    | .mark (.op o) =>
      if o.precedence = p then
        advance
        let right ← operand
        chain p operand n (.binary o left right)
      else pure left
    | _ => pure left

/-! Below, `expression` reads an expression one level deeper, and no list is longer than `bound`. -/
section
variable (bound : Nat) (expression : Descent η Expr)

/-- Further arguments of a call, each behind a comma. -/
def moreArguments : Nat → Descent η (List Expr)
  | 0 => pure []
  | n + 1 => do
    if (← get).kind = .comma then
      advance
      let e ← expression
      let es ← moreArguments n
      pure (e :: es)
    else pure []

/-- The arguments of a call with their parentheses. -/
def arguments : Descent η (List Expr) := do
  expect .leftParen
  if (← get).kind = .rightParen then
    advance
    pure []
  else
    let e ← expression
    let es ← moreArguments expression bound
    expect .rightParen
    pure (e :: es)

/-- Predicates, each in brackets. -/
def predicates : Nat → Descent η (List Expr)
  | 0 => pure []
  | n + 1 => do
    if (← get).kind = .leftBracket then
      advance
      let e ← expression
      expect .rightBracket
      let es ← predicates n
      pure (e :: es)
    else pure []

def primary : Descent η Expr := do
  match ← get with
  | .text .variableReference h => return .var (← takeText h)
  | .text .literal h => return .literal (← takeText h)
  | .text .number h =>
    let raw ← takeText h
    match Binary64.ofNumeral? raw with
    | some x => return .number x
    | none => throw (.invalidNumber raw)
  | .mark .leftParen =>
    advance
    let e ← expression
    expect .rightParen
    return e
  | .text .functionName h =>
    let name ← takeText h
    let args ← arguments bound expression
    attempt (.check name args.length)
    return .call name args
  | _ => refuse

/-- A primary expression with the predicates behind it, if there are any. -/
def filter : Descent η Expr := do
  let e ← primary bound expression
  match ← predicates expression bound with
  | [] => return e
  | ps => return .filter e ps

def nodeTest : Descent η NodeTest := do
  match ← get with
  | .text .nameTest h =>
    let name ← takeText h
    return .ofName (← attempt (.expand name))
  | .text .nodeType h =>
    let name ← takeText h
    expect .leftParen
    expect .rightParen
    return .kind (.ofName name)
  | .text .processingInstruction h =>
    let _ ← takeText h
    expect .leftParen
    let target ← match ← get with
      | .text .literal h => some <$> takeText h
      | _ => pure none
    expect .rightParen
    return .processingInstruction target
  | _ => refuse

/-- The rest of a step whose axis is known. -/
def stepAlong (axis : Axis) : Descent η (Step Expr) := do
  let test ← nodeTest
  let ps ← predicates expression bound
  return ⟨axis, test, ps⟩

/-- A step. The abbreviations `.` and `..` take no predicates. -/
def step : Descent η (Step Expr) := do
  match ← get with
  | .mark .dot =>
    advance
    return .anyNode .self
  | .mark .dotDot =>
    advance
    return .anyNode .parent
  | .mark (.axis a) =>
    advance
    stepAlong bound expression a
  | .mark .atSign =>
    advance
    stepAlong bound expression .attributes
  | _ => stepAlong bound expression .child

/-- Steps that follow, each behind `/` or `//`. -/
def moreSteps : Nat → Descent η (List (Step Expr))
  | 0 => pure []
  | n + 1 => do
    match ← get with
    | .mark .slash =>
      advance
      let s ← step bound expression
      let ss ← moreSteps n
      pure (s :: ss)
    | .mark .slashSlash =>
      advance
      let s ← step bound expression
      let ss ← moreSteps n
      pure (.descendantOrSelf :: s :: ss)
    | _ => pure []

def steps : Descent η (List (Step Expr)) := do
  let s ← step bound expression
  let ss ← moreSteps bound expression bound
  return s :: ss

/-- A path that begins at the root or at the context node. A slash alone is the root. -/
def locationPath : Descent η Expr := do
  match ← get with
  | .mark .slash =>
    advance
    if (← get).kind.beginsStep then
      return .path true (← steps bound expression)
    else return .path true []
  | .mark .slashSlash =>
    advance
    return .path true (.descendantOrSelf :: (← steps bound expression))
  | _ => return .path false (← steps bound expression)

/-- A filter with the steps behind it, if there are any. -/
def filterPath : Descent η Expr := do
  let e ← filter bound expression
  match ← moreSteps bound expression bound with
  | [] => return e
  | ss => return .pathFrom e ss

def path : Descent η Expr := do
  match ← get with
  | .mark .leftParen | .text .variableReference _ | .text .literal _ | .text .number _
  | .text .functionName _ => filterPath bound expression
  | _ => locationPath bound expression

end

/-! Below, `deeper levels` reads an expression of the given levels one level deeper. -/
section
variable (bound : Nat) (deeper : List Precedence → Descent η Expr)

/-- A minus with its operand, or a union of paths. -/
def unary : Descent η Expr := do
  match ← get with
  | .mark (.op .minus) =>
    advance
    return .negate (← deeper [])
  | _ =>
    let path := path bound (deeper Precedence.aboveMinus)
    chain .union path bound (← path)

/-- An expression of the given levels of binary operators, loosest first, over unary expressions. -/
def binary : List Precedence → Descent η Expr
  | [] => unary bound deeper
  | p :: levels => do chain p (binary levels) bound (← binary levels)

end

/-- An expression inside which `limit` levels of nesting are allowed, of which `n` are left. -/
def nested (bound limit : Nat) : Nat → List Precedence → Descent η Expr
  | 0, _ => throw (.tooDeep limit)
  | n + 1, levels => binary bound (nested bound limit n) levels

/-- A whole expression, up to the end of the input. -/
def whole (bound limit : Nat) : Descent η Expr := do
  let e ← nested bound limit limit Precedence.aboveMinus
  expect .endOfInput
  return e

/-- Reads the rest of the input as an expression. Every further item of a list takes at least one
character, which bounds the lists. -/
def grammar : Action η (Except Rejection Expr) := do
  let view ← .inspect
  let first ← .next
  return (← ((whole (view.unread + 1) view.options.maxDepth).run first).run).map Prod.fst

end Descent
end XPath
