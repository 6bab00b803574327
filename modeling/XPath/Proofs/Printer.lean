import XPath.Proofs.Binary64
import XPath.Proofs.Expr
import XPath.Proofs.Token.Layout

/-! Writing trees down, every axis in full and every operand in parentheses. -/
namespace XPath

def NodeKind.name : NodeKind → String
  | text => "text"
  | node => "node"
  | comment => "comment"

/-- The tokens of a node test. `short` gives the part before the colon for a namespace. -/
def NodeTest.tokens (short : String → String) : NodeTest → List (Token String)
  | name localName none => [.text .nameTest localName]
  | name localName (some uri) => [.text .nameTest (qualified (short uri) localName)]
  | wildcard => [.text .nameTest "*"]
  | namespaceWildcard uri => [.text .nameTest (qualified (short uri) "*")]
  | kind k => [.text .nodeType k.name, .mark .leftParen, .mark .rightParen]
  | processingInstruction none =>
    [.text .processingInstruction "processing-instruction", .mark .leftParen, .mark .rightParen]
  | processingInstruction (some target) =>
    [.text .processingInstruction "processing-instruction", .mark .leftParen,
      .text .literal target, .mark .rightParen]

/-- Tokens in parentheses. -/
def inParens (ts : List (Token String)) : List (Token String) :=
  .mark .leftParen :: ts ++ [.mark .rightParen]

namespace Expr

mutual

/-- The tokens of an expression. -/
def tokens (short : String → String) : Expr → List (Token String)
  | literal s => [.text .literal s]
  | number x => [.text .number x.numeral]
  | var name => [.text .variableReference name]
  | call name args => .text .functionName name :: inParens (argumentTokens short args)
  | filter primary predicates =>
    inParens (tokens short primary) ++ predicateTokens short predicates
  | binary op left right =>
    inParens (tokens short left) ++ .mark (.op op) :: inParens (tokens short right)
  | negate operand => .mark (.op .minus) :: inParens (tokens short operand)
  | path true ss => .mark .slash :: stepsTokens short ss
  | path false ss => stepsTokens short ss
  | pathFrom start ss => inParens (tokens short start) ++ .mark .slash :: stepsTokens short ss

def argumentTokens (short : String → String) : List Expr → List (Token String)
  | [] => []
  | [e] => tokens short e
  | e :: es => tokens short e ++ .mark .comma :: argumentTokens short es

def predicateTokens (short : String → String) : List Expr → List (Token String)
  | [] => []
  | e :: es =>
    .mark .leftBracket :: tokens short e ++ .mark .rightBracket :: predicateTokens short es

def stepTokens (short : String → String) : Step Expr → List (Token String)
  | ⟨axis, test, predicates⟩ =>
    .mark (.axis axis) :: test.tokens short ++ predicateTokens short predicates

def stepsTokens (short : String → String) : List (Step Expr) → List (Token String)
  | [] => []
  | [s] => stepTokens short s
  | s :: ss => stepTokens short s ++ .mark .slash :: stepsTokens short ss

end

mutual

/-- How deeply the written form of an expression nests. -/
def depth : Expr → Nat
  | literal _ | number _ | var _ => 1
  | call _ args => 1 + listDepth args
  | filter primary predicates => 1 + max (depth primary) (listDepth predicates)
  | binary _ left right => 1 + max (depth left) (depth right)
  | negate operand => 2 + depth operand
  | path _ ss => 1 + stepsDepth ss
  | pathFrom start ss => 1 + max (depth start) (stepsDepth ss)

def listDepth : List Expr → Nat
  | [] => 0
  | e :: es => max (depth e) (listDepth es)

def stepDepth : Step Expr → Nat
  | ⟨_, _, predicates⟩ => listDepth predicates

def stepsDepth : List (Step Expr) → Nat
  | [] => 0
  | s :: ss => max (stepDepth s) (stepsDepth ss)

end

/-- The written form of an expression. -/
def print (short : String → String) (e : Expr) : String :=
  String.ofList (setOut (e.tokens short))

end Expr
end XPath
