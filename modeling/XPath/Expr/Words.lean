import XPath.Expr

/-! The flat form of a tree: its words from left to right, each node before its parts, with counts
where a node has a varying number of parts. -/
namespace XPath

def NodeKind.label : NodeKind → String
  | text => "Text"
  | node => "Node"
  | comment => "Comment"

def NodeTest.words : NodeTest → List String
  | name localName none => ["Name", localName]
  | name localName (some uri) => ["QName", localName, uri]
  | wildcard => ["Wildcard"]
  | namespaceWildcard uri => ["NamespaceWildcard", uri]
  | kind k => ["NodeType", k.label]
  | processingInstruction none => ["ProcessingInstruction"]
  | processingInstruction (some target) => ["ProcessingInstructionTarget", target]

namespace Expr

/-! Each function puts the words of its argument in front of `rest`. -/
mutual

def wordsOnto (rest : List String) : Expr → List String
  | literal s => "Literal" :: s :: rest
  | number x => "Number" :: x.hex :: rest
  | var name => "Variable" :: name :: rest
  | call name args => "FunctionCall" :: name :: toString args.length :: listOnto rest args
  | filter primary predicates =>
    "Filter" :: toString predicates.length :: wordsOnto (listOnto rest predicates) primary
  | binary op left right => "BinaryOp" :: op.label :: wordsOnto (wordsOnto rest right) left
  | negate operand => "UnaryOp" :: "Minus" :: wordsOnto rest operand
  | path absolute steps =>
    "LocationPath" :: (if absolute then "absolute" else "relative") :: toString steps.length ::
      "nostart" :: stepsOnto rest steps
  | pathFrom start steps =>
    "LocationPath" :: "relative" :: toString steps.length :: "start" ::
      wordsOnto (stepsOnto rest steps) start

def listOnto (rest : List String) : List Expr → List String
  | [] => rest
  | e :: es => wordsOnto (listOnto rest es) e

def stepOnto (rest : List String) : Step Expr → List String
  | ⟨axis, test, predicates⟩ =>
    "Step" :: axis.name :: (test.words ++ toString predicates.length :: listOnto rest predicates)

def stepsOnto (rest : List String) : List (Step Expr) → List String
  | [] => rest
  | s :: ss => stepOnto (stepsOnto rest ss) s

end

def words (e : Expr) : List String :=
  e.wordsOnto []

end Expr
end XPath
