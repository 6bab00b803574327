import XPath.Descent

/-! Parsers that are used again and again, and what a parse reports. -/
namespace XPath

/-- A grammar with a memory `σ` that lasts from one parse to the next. -/
abbrev Engine (σ : Type) := σ → Action Handle (Except Rejection Expr × σ)

/-- What lasts from one parse to the next. -/
structure Parser (σ : Type) where
  options : Options := {}
  functions : Registry := .core
  arena : Arena := {}
  memory : σ

/-- The result of a parse, what it logged, and the parser afterwards. -/
structure Report (σ : Type) where
  result : Except ParseError Expr
  log : List Event
  parser : Parser σ

namespace Parser
variable {σ : Type}

/-- Allows calls of a further function. -/
def register (p : Parser σ) (name : String) (arity : Arity) : Parser σ :=
  { p with functions := p.functions.register name arity }

/-- How many texts are kept. -/
def pending (p : Parser σ) : Nat :=
  p.arena.live

/-- Parses one expression by an engine, from an empty table of texts to an empty one. A failure to
resolve a name gives the error its class, even when another reason is given for it. -/
def parseWith (engine : Engine σ) (p : Parser σ) (statement : String)
    (resolver : Option Resolver) : Report σ :=
  let setting : Setting := ⟨resolver, p.functions, p.options⟩
  let start := { Context.begin statement p.arena.releaseAll.2 with log := [.parsing statement] }
  let ((result, memory), c) := (engine p.memory).run setting start
  let (released, arena) := c.arena.releaseAll
  match result with
  | .ok e =>
    let log := if c.arena.isEmpty then c.log else .unconsumed released statement :: c.log
    let arena := if c.arena.isEmpty then c.arena else arena
    ⟨.ok e, log.reverse, { p with arena, memory }⟩
  | .error reason =>
    let failure := if c.namespaceErrorSeen then .namespaces else .grammatical
    ⟨.error ⟨failure, statement, reason⟩, (.rejected statement reason released :: c.log).reverse,
      { p with arena, memory }⟩

end Parser

/-- The grammar of XPath 1.0, which needs no memory. -/
def descentEngine : Engine Unit := fun _ => do
  return (← Descent.grammar, ())

/-- Parses one expression by the grammar of XPath 1.0. -/
def Parser.parse (p : Parser Unit) (statement : String) (resolver : Option Resolver := none) :
    Report Unit :=
  p.parseWith descentEngine statement resolver

/-- A parser that has not been used. -/
def Parser.fresh (options : Options := {}) : Parser Unit :=
  { options, memory := () }

/-- Parses one expression with default options. -/
def parseExpression (statement : String) (resolver : Option Resolver := none) :
    Except ParseError Expr :=
  (Parser.fresh.parse statement resolver).result

end XPath
