import XPath.Parser

/-! A grammar that plays a list of moves and then ends as it is told, to exercise a parser with. -/
namespace XPath.Script

inductive Move
  | next
  /-- Takes the text of the token with that place among all tokens with text read so far. -/
  | take (place : Nat)
  | expand (name : String)
  | check (name : String) (count : Nat)
  | flag
  | options

/-- How a script ends: with a literal of the text taken last, with the last rejection, with that text
refused as a number, or by handing over to the grammar of XPath 1.0. -/
inductive Ending
  | accept
  | reject
  | number
  | descent

inductive Answer
  | token (t : Token Handle)
  | text (s : String)
  | expanded (n : ExpandedName)
  | checked
  | flagged
  | options (o : Options)
  | rejected (r : Rejection)

/-- A move's answer and what could be seen behind it. -/
structure Row where
  answer : Answer
  namespaceErrorSeen : Bool
  position : Nat

/-- What a player brings along and leaves behind. The handles stay from one script to the next. -/
structure Memory where
  moves : List Move := []
  ending : Ending := .accept
  handles : Array Handle := #[]
  rows : Array Row := #[]

/-- What a player remembers while it plays one script. -/
structure Play where
  handles : Array Handle
  rows : Array Row := #[]
  lastText : Option String := none
  lastRejection : Option Rejection := none
  lastKind : TokenKind := .endOfInput

/-- Remembers the handle of a token with text. -/
def Play.noteToken (p : Play) (t : Token Handle) : Play :=
  match t with
  | .mark m => { p with lastKind := m.kind }
  | .text k h => { p with lastKind := .text k, handles := p.handles.push h }

/-- The answer to a move that can be rejected. -/
def Play.noteResult {α : Type} (p : Play) (result : Except Rejection α) (answer : α → Answer) :
    Answer × Play :=
  match result with
  | .ok a => (answer a, p)
  | .error r => (.rejected r, { p with lastRejection := some r })

/-- The answer to one move. -/
def Move.perform (p : Play) : Move → Action Handle (Answer × Play)
  | next => do
    let t ← Action.next
    return (.token t, p.noteToken t)
  | take place => do
    let result ← Action.take (p.handles.getD place default)
    let p := match result with
      | .ok s => { p with lastText := some s }
      | .error _ => p
    return p.noteResult result .text
  | expand name => do
    return p.noteResult (← Action.expand name) .expanded
  | check name count => do
    return p.noteResult (← Action.check name count) fun _ => .checked
  | flag => do
    Action.flag
    return (.flagged, p)
  | options => do
    return (.options (← Action.inspect).options, p)

/-- Plays moves in order and writes down a row for each. -/
def play (p : Play) : List Move → Action Handle Play
  | [] => return p
  | m :: moves => do
    let (answer, p) ← m.perform p
    let view ← Action.inspect
    play { p with rows := p.rows.push ⟨answer, view.namespaceErrorSeen, view.position⟩ } moves

def finish (p : Play) : Ending → Action Handle (Except Rejection Expr)
  | .accept => return .ok (.literal (p.lastText.getD ""))
  | .reject => do
    let otherwise := .unexpectedToken p.lastKind (← Action.inspect).position
    return .error (p.lastRejection.getD otherwise)
  | .number => return .error (.invalidNumber (p.lastText.getD ""))
  | .descent => Descent.grammar

def engine : Engine Memory := fun memory => do
  let p ← play { handles := memory.handles } memory.moves
  let result ← finish p memory.ending
  return (result, { memory with handles := p.handles, rows := p.rows })

end XPath.Script
