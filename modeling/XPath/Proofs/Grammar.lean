import XPath.Context
import XPath.Descent

/-! The grammar of expressions over tokens, production by production, with the trees that phrases
denote and how deeply they nest. -/
namespace XPath

/-- Where an operator stands between operands, and the two levels below. -/
inductive Level
  | binary (p : Precedence)
  | unary
  | path
  deriving DecidableEq

/-- The level of the operands of binary operators. -/
def Precedence.operand : Precedence → Level
  | or => .binary .and
  | and => .binary .equality
  | equality => .binary .relational
  | relational => .binary .additive
  | additive => .binary .multiplicative
  | multiplicative => .unary
  | union => .path

/-- How tightly a level binds. -/
def Level.rank : Level → Nat
  | binary .or => 0
  | binary .and => 1
  | binary .equality => 2
  | binary .relational => 3
  | binary .additive => 4
  | binary .multiplicative => 5
  | unary => 6
  | binary .union => 7
  | path => 8

theorem Level.rank_le (l : Level) : l.rank ≤ path.rank := by
  cases l with
  | binary p => cases p <;> decide
  | unary | path => decide

theorem Level.rank_injective {l l' : Level} (h : l.rank = l'.rank) : l = l' := by
  rcases l with ⟨⟨⟩⟩ | _ | _ <;> rcases l' with ⟨⟨⟩⟩ | _ | _ <;> first | rfl | cases h

theorem Precedence.rank_operand (p : Precedence) :
    p.operand.rank = (Level.binary p).rank + 1 := by
  cases p <;> rfl

/-- The marks between two steps of a path, with the steps that they stand for. -/
inductive Joins : Mark → List (Step Expr) → Prop
  | slash : Joins .slash []
  | slashSlash : Joins .slashSlash [.descendantOrSelf]

/-- The ways to give the axis of a step. -/
inductive SpellsAxis : List (Token String) → Axis → Prop
  | child : SpellsAxis [] .child
  | atSign : SpellsAxis [.mark .atSign] .attributes
  | axis (a : Axis) : SpellsAxis [.mark (.axis a)] a

/-- The ways to give the node test of a step. The names in it have been expanded. -/
inductive SpellsTest (resolver : Option Resolver) : List (Token String) → NodeTest → Prop
  | name {s : String} {n : ExpandedName} (hn : expandName resolver s = .ok n) :
      SpellsTest resolver [.text .nameTest s] (.ofName n)
  | nodeType (s : String) :
      SpellsTest resolver [.text .nodeType s, .mark .leftParen, .mark .rightParen]
        (.kind (.ofName s))
  | processingInstruction (s : String) :
      SpellsTest resolver [.text .processingInstruction s, .mark .leftParen, .mark .rightParen]
        (.processingInstruction none)
  | target (s target : String) :
      SpellsTest resolver [.text .processingInstruction s, .mark .leftParen, .text .literal target,
        .mark .rightParen] (.processingInstruction (some target))

/-- A nonterminal of the grammar together with what a phrase of it denotes. -/
inductive Phrase
  | expression (e : Expr)
  | level (l : Level) (e : Expr)
  | filter (e : Expr)
  | primary (e : Expr)
  | arguments (es : List Expr)
  | predicates (ps : List Expr)
  | relativePath (ss : List (Step Expr))
  | step (s : Step Expr)

/-- A phrase can be given by a list of tokens. The number says how many levels of nesting it has:
parentheses, predicates, arguments and operands of a minus one within another. -/
inductive Derives (resolver : Option Resolver) (allowed : String → Nat → Prop) :
    Phrase → List (Token String) → Nat → Prop
  | expression {e : Expr} {ts : List (Token String)} {d : Nat}
      (h : Derives resolver allowed (.level (.binary .or) e) ts d) :
      Derives resolver allowed (.expression e) ts (d + 1)
  | operand {p : Precedence} {e : Expr} {ts : List (Token String)} {d : Nat}
      (h : Derives resolver allowed (.level p.operand e) ts d) :
      Derives resolver allowed (.level (.binary p) e) ts d
  | operator {p : Precedence} {o : BinaryOp} {l r : Expr} {ts us : List (Token String)} {d d' : Nat}
      (ho : o.precedence = p) (hl : Derives resolver allowed (.level (.binary p) l) ts d)
      (hr : Derives resolver allowed (.level p.operand r) us d') :
      Derives resolver allowed (.level (.binary p) (.binary o l r)) (ts ++ .mark (.op o) :: us)
        (max d d')
  | union {e : Expr} {ts : List (Token String)} {d : Nat}
      (h : Derives resolver allowed (.level (.binary .union) e) ts d) :
      Derives resolver allowed (.level .unary e) ts d
  | minus {e : Expr} {ts : List (Token String)} {d : Nat}
      (h : Derives resolver allowed (.level .unary e) ts d) :
      Derives resolver allowed (.level .unary (.negate e)) (.mark (.op .minus) :: ts) (d + 1)
  | root : Derives resolver allowed (.level .path (.path true [])) [.mark .slash] 0
  | absolute {m : Mark} {js ss : List (Step Expr)} {ts : List (Token String)} {d : Nat}
      (hj : Joins m js) (h : Derives resolver allowed (.relativePath ss) ts d) :
      Derives resolver allowed (.level .path (.path true (js ++ ss))) (.mark m :: ts) d
  | relative {ss : List (Step Expr)} {ts : List (Token String)} {d : Nat}
      (h : Derives resolver allowed (.relativePath ss) ts d) :
      Derives resolver allowed (.level .path (.path false ss)) ts d
  | filter {e : Expr} {ts : List (Token String)} {d : Nat}
      (h : Derives resolver allowed (.filter e) ts d) :
      Derives resolver allowed (.level .path e) ts d
  | pathFrom {e : Expr} {m : Mark} {js ss : List (Step Expr)} {ts us : List (Token String)}
      {d d' : Nat} (h : Derives resolver allowed (.filter e) ts d) (hj : Joins m js)
      (hs : Derives resolver allowed (.relativePath ss) us d') :
      Derives resolver allowed (.level .path (.pathFrom e (js ++ ss))) (ts ++ .mark m :: us)
        (max d d')
  | primary {e : Expr} {ts : List (Token String)} {d : Nat}
      (h : Derives resolver allowed (.primary e) ts d) : Derives resolver allowed (.filter e) ts d
  | filtered {e p : Expr} {ps : List Expr} {ts us : List (Token String)} {d d' : Nat}
      (h : Derives resolver allowed (.primary e) ts d)
      (hp : Derives resolver allowed (.predicates (p :: ps)) us d') :
      Derives resolver allowed (.filter (.filter e (p :: ps))) (ts ++ us) (max d d')
  | variableReference (s : String) :
      Derives resolver allowed (.primary (.var s)) [.text .variableReference s] 0
  | literal (s : String) : Derives resolver allowed (.primary (.literal s)) [.text .literal s] 0
  | number {s : String} {x : Binary64} (hx : Binary64.ofNumeral? s = some x) :
      Derives resolver allowed (.primary (.number x)) [.text .number s] 0
  | parentheses {e : Expr} {ts : List (Token String)} {d : Nat}
      (h : Derives resolver allowed (.expression e) ts d) :
      Derives resolver allowed (.primary e) (.mark .leftParen :: ts ++ [.mark .rightParen]) d
  | call {name : String} {es : List Expr} {ts : List (Token String)} {d : Nat}
      (hname : allowed name es.length) (h : Derives resolver allowed (.arguments es) ts d) :
      Derives resolver allowed (.primary (.call name es))
        (.text .functionName name :: .mark .leftParen :: ts ++ [.mark .rightParen]) d
  | noArgument : Derives resolver allowed (.arguments []) [] 0
  | argument {e : Expr} {ts : List (Token String)} {d : Nat}
      (h : Derives resolver allowed (.expression e) ts d) :
      Derives resolver allowed (.arguments [e]) ts d
  | moreArguments {e e' : Expr} {es : List Expr} {ts us : List (Token String)} {d d' : Nat}
      (h : Derives resolver allowed (.expression e) ts d)
      (hs : Derives resolver allowed (.arguments (e' :: es)) us d') :
      Derives resolver allowed (.arguments (e :: e' :: es)) (ts ++ .mark .comma :: us) (max d d')
  | noPredicate : Derives resolver allowed (.predicates []) [] 0
  | predicate {e : Expr} {es : List Expr} {ts us : List (Token String)} {d d' : Nat}
      (h : Derives resolver allowed (.expression e) ts d)
      (hs : Derives resolver allowed (.predicates es) us d') :
      Derives resolver allowed (.predicates (e :: es))
        (.mark .leftBracket :: ts ++ .mark .rightBracket :: us) (max d d')
  | oneStep {s : Step Expr} {ts : List (Token String)} {d : Nat}
      (h : Derives resolver allowed (.step s) ts d) :
      Derives resolver allowed (.relativePath [s]) ts d
  | moreSteps {m : Mark} {s : Step Expr} {js ss : List (Step Expr)} {ts us : List (Token String)}
      {d d' : Nat} (hs : Derives resolver allowed (.relativePath ss) ts d) (hj : Joins m js)
      (h : Derives resolver allowed (.step s) us d') :
      Derives resolver allowed (.relativePath (ss ++ js ++ [s])) (ts ++ .mark m :: us) (max d d')
  | self : Derives resolver allowed (.step (.anyNode .self)) [.mark .dot] 0
  | parent : Derives resolver allowed (.step (.anyNode .parent)) [.mark .dotDot] 0
  | stepAlong {axis : Axis} {test : NodeTest} {ps : List Expr} {as ts us : List (Token String)}
      {d : Nat} (ha : SpellsAxis as axis) (ht : SpellsTest resolver ts test)
      (hp : Derives resolver allowed (.predicates ps) us d) :
      Derives resolver allowed (.step ⟨axis, test, ps⟩) (as ++ ts ++ us) d

namespace Derives
variable {resolver : Option Resolver} {allowed : String → Nat → Prop} {ss : List (Step Expr)}
  {us : List (Token String)} {d' : Nat}

/-- A path may also be extended at its beginning. -/
theorem relative_cons {first : Step Expr} {m : Mark} {js : List (Step Expr)}
    {ts : List (Token String)} {d : Nat} (h : Derives resolver allowed (.step first) ts d)
    (hj : Joins m js) (hs : Derives resolver allowed (.relativePath ss) us d') :
    Derives resolver allowed (.relativePath (first :: (js ++ ss))) (ts ++ .mark m :: us)
      (max d d') := by
  generalize hX : Phrase.relativePath ss = X at hs
  induction hs generalizing ss with
  | oneStep h' =>
    obtain rfl := Phrase.relativePath.inj hX
    exact .moreSteps (.oneStep h) hj h'
  | moreSteps hs hj' h' ih =>
    obtain rfl := Phrase.relativePath.inj hX
    simpa [Nat.max_assoc] using (ih rfl).moreSteps hj' h'
  | _ => cases hX

theorem relative_ne_nil (hs : Derives resolver allowed (.relativePath ss) us d') : ss ≠ [] := by
  generalize hX : Phrase.relativePath ss = X at hs
  cases hs with
  | oneStep | moreSteps =>
    obtain rfl := Phrase.relativePath.inj hX
    simp
  | _ => cases hX

/-- A phrase of any level is one of every looser level. -/
theorem loosen {l l' : Level} {e : Expr} {ts : List (Token String)} {d : Nat}
    (h : Derives resolver allowed (.level l e) ts d) (hle : l'.rank ≤ l.rank) :
    Derives resolver allowed (.level l' e) ts d := by
  generalize hgap : l.rank - l'.rank = gap
  induction gap generalizing l' with
  | zero =>
    have heq : l'.rank = l.rank := by omega
    rwa [Level.rank_injective heq]
  | succ gap ih =>
    cases l' with
    | binary p =>
      have hnext := p.rank_operand
      exact .operand (ih (by omega) (by omega))
    | unary =>
      have hnext : (Level.binary .union).rank = Level.unary.rank + 1 := rfl
      exact .union (ih (by omega) (by omega))
    | path =>
      have hmax := l.rank_le
      omega

end Derives

/-- The calls that a setting lets pass. -/
def Setting.Allows (s : Setting) (name : String) (count : Nat) : Prop :=
  s.options.validateFunctions = true → s.functions.check name count = .ok ()

/-- The same setting with another limit on nesting. -/
def Setting.within (s : Setting) (limit : Nat) : Setting :=
  { s with options := { s.options with maxDepth := limit } }

namespace Descent

/-- What the grammar makes of an input under a setting. -/
def parse (s : Setting) (input : String) : Except Rejection Expr :=
  (grammar.run s (Context.begin input {})).1

end Descent
end XPath
