import XPath.Proofs.Descent.Exactness

/-! What the tokens carry and the operators among them are all in the tree, once each and in the same
order. -/
namespace XPath

/-- A part of a tree that stands for one token. An operator is also the unary minus. -/
inductive Content
  | literal (s : String)
  | number (x : Binary64)
  | variable (name : String)
  | function (name : String)
  | nameTest (n : ExpandedName)
  | op (o : BinaryOp)
  deriving DecidableEq

/-- A target of a processing instruction was written as a literal, and a star stands for a name. -/
def NodeTest.contents : NodeTest → List Content
  | name localName uri => [.nameTest ⟨localName, uri⟩]
  | wildcard => [.nameTest ⟨"*", none⟩]
  | namespaceWildcard uri => [.nameTest ⟨"*", some uri⟩]
  | kind _ | processingInstruction none => []
  | processingInstruction (some target) => [.literal target]

namespace Expr
mutual

/-- The contents of a tree from left to right, an operator between its operands. -/
def contents : Expr → List Content
  | literal s => [.literal s]
  | number x => [.number x]
  | var name => [.variable name]
  | call name args => .function name :: listContents args
  | filter primary predicates => contents primary ++ listContents predicates
  | binary op left right => contents left ++ .op op :: contents right
  | negate operand => .op .minus :: contents operand
  | path _ steps => stepsContents steps
  | pathFrom start steps => contents start ++ stepsContents steps

def listContents : List Expr → List Content
  | [] => []
  | e :: es => contents e ++ listContents es

def stepContents : Step Expr → List Content
  | ⟨_, test, predicates⟩ => test.contents ++ listContents predicates

def stepsContents : List (Step Expr) → List Content
  | [] => []
  | s :: ss => stepContents s ++ stepsContents ss

end

@[simp] theorem stepsContents_append (ss ss' : List (Step Expr)) :
    stepsContents (ss ++ ss') = stepsContents ss ++ stepsContents ss' := by
  induction ss with
  | nil => rfl
  | cons s ss ih => simp [stepsContents, ih]

end Expr

theorem NodeTest.contents_ofName (n : ExpandedName) :
    (NodeTest.ofName n).contents = [.nameTest n] := by
  obtain ⟨localName, uri⟩ := n
  unfold ofName
  split
  · rfl
  · next hstar =>
    have hlocal : localName = "*" := not_not.mp hstar
    subst hlocal
    cases uri <;> rfl

/-- The marks between steps are no contents, nor is the step that a double slash stands for. -/
theorem Joins.contents {m : Mark} {js : List (Step Expr)} (h : Joins m js) :
    Expr.stepsContents js = [] := by
  cases h <;> rfl

/-- The kinds of the tokens that stand for a part of the tree each. -/
def TokenKind.hasContent : TokenKind → Bool
  | plus | minus | equality | relational | multiplicative | and | or | pipe
  | text .literal | text .number | text .variableReference | text .functionName
  | text .nameTest => true
  | _ => false

/-- The part of a tree that a token stands for, if its number can be read and its name expanded. -/
def Token.content? (resolver : Option Resolver) : Token String → Option Content
  | .mark (.op o) => some (.op o)
  | .text .literal s => some (.literal s)
  | .text .number s => (Binary64.ofNumeral? s).map .number
  | .text .variableReference s => some (.variable s)
  | .text .functionName s => some (.function s)
  | .text .nameTest s => (expandName resolver s).toOption.map .nameTest
  | _ => none

/-- The parts that these tokens stand for, none if one of them is at fault. -/
def contents? (resolver : Option Resolver) (ts : List (Token String)) : Option (List Content) :=
  (ts.filter (·.kind.hasContent)).mapM (·.content? resolver)

section
variable {resolver : Option Resolver} {ts us : List (Token String)} {cs cs' : List Content}

theorem contents?_append (h : contents? resolver ts = some cs)
    (h' : contents? resolver us = some cs') : contents? resolver (ts ++ us) = some (cs ++ cs') := by
  unfold contents? at h h' ⊢
  rw [List.filter_append, List.mapM_append, h, h']
  rfl

theorem contents?_cons {t : Token String} {c : Content} (hkind : t.kind.hasContent = true)
    (hc : t.content? resolver = some c) (h : contents? resolver ts = some cs) :
    contents? resolver (t :: ts) = some (c :: cs) := by
  unfold contents? at h ⊢
  rw [List.filter_cons, if_pos hkind, List.mapM_cons, hc, h]
  rfl

theorem contents?_skip {t : Token String} (hkind : t.kind.hasContent = false)
    (h : contents? resolver ts = some cs) : contents? resolver (t :: ts) = some cs := by
  unfold contents? at h ⊢
  rwa [List.filter_cons, if_neg (ne_true_of_eq_false hkind)]

theorem contents?_op (o : BinaryOp) (h : contents? resolver ts = some cs) :
    contents? resolver (.mark (.op o) :: ts) = some (.op o :: cs) :=
  contents?_cons (by cases o <;> rfl) rfl h

theorem contents?_mark {m : Mark} (hm : m.kind.hasContent = false) :
    contents? resolver [.mark m] = some [] :=
  contents?_skip hm rfl

end

theorem SpellsAxis.contents {resolver : Option Resolver} {as : List (Token String)} {axis : Axis}
    (h : SpellsAxis as axis) : contents? resolver as = some [] := by
  cases h <;> rfl

theorem SpellsTest.contents {resolver : Option Resolver} {ts : List (Token String)} {test : NodeTest}
    (h : SpellsTest resolver ts test) : contents? resolver ts = some test.contents := by
  cases h with
  | @name s n hn =>
    have hcontent : (Token.text .nameTest s).content? resolver = some (.nameTest n) := by
      simp [Token.content?, hn, Except.toOption]
    rw [NodeTest.contents_ofName]
    exact contents?_cons rfl hcontent rfl
  | nodeType | processingInstruction | target => rfl

theorem Joins.contents? {resolver : Option Resolver} {m : Mark} {js : List (Step Expr)}
    {ts : List (Token String)} {cs : List Content} (h : Joins m js)
    (hts : XPath.contents? resolver ts = some cs) :
    XPath.contents? resolver (.mark m :: ts) = some cs := by
  apply contents?_skip _ hts
  cases h <;> rfl

/-- The contents of what a phrase denotes. -/
def Phrase.contents : Phrase → List Content
  | expression e | level _ e | filter e | primary e => e.contents
  | arguments es | predicates es => Expr.listContents es
  | relativePath ss => Expr.stepsContents ss
  | step s => Expr.stepContents s

/-- Every production keeps what its tokens carry and the order of its parts. -/
theorem Derives.contents {resolver : Option Resolver} {allowed : String → Nat → Prop} {X : Phrase}
    {ts : List (Token String)} {d : Nat} (h : Derives resolver allowed X ts d) :
    contents? resolver ts = some X.contents := by
  induction h with
  | expression _ ih | operand _ ih | union _ ih | relative _ ih | filter _ ih | primary _ ih =>
    exact ih
  | @operator _ o _ _ _ _ _ _ _ _ _ ihl ihr => exact contents?_append ihl (contents?_op o ihr)
  | minus _ ih => exact contents?_op .minus ih
  | root | noArgument | noPredicate | self | parent => rfl
  | variableReference | literal => exact contents?_cons rfl rfl rfl
  | absolute hj _ ih =>
    have hpath := hj.contents? ih
    simpa [Phrase.contents, Expr.contents, hj.contents] using hpath
  | pathFrom _ hj _ ih ihs =>
    have hpath := contents?_append ih (hj.contents? ihs)
    simpa [Phrase.contents, Expr.contents, hj.contents] using hpath
  | filtered _ _ ih ihp => exact contents?_append ih ihp
  | @number s x hx =>
    have hcontent : (Token.text .number s).content? resolver = some (.number x) := by
      simp [Token.content?, hx]
    exact contents?_cons rfl hcontent rfl
  | parentheses _ ih =>
    have hall := contents?_append (contents?_skip (t := .mark .leftParen) rfl ih)
      (contents?_mark (m := .rightParen) rfl)
    simpa [Phrase.contents] using hall
  | @call name _ _ _ _ _ ih =>
    have hinner := contents?_append ih (contents?_mark (m := .rightParen) rfl)
    have hname := contents?_skip (t := .mark .leftParen) rfl hinner
    have hall := contents?_cons (t := .text .functionName name) rfl rfl hname
    simpa [Phrase.contents, Expr.contents] using hall
  | argument _ ih => simpa [Phrase.contents, Expr.listContents] using ih
  | moreArguments _ _ ih ihs => exact contents?_append ih (contents?_skip rfl ihs)
  | predicate _ _ ih ihs =>
    have hbehind := contents?_append ih (contents?_skip (t := .mark .rightBracket) rfl ihs)
    exact contents?_skip rfl hbehind
  | oneStep _ ih => simpa [Phrase.contents, Expr.stepsContents] using ih
  | moreSteps _ hj _ ihs ih =>
    have hpath := contents?_append ihs (hj.contents? ih)
    simpa [Phrase.contents, Expr.stepsContents, hj.contents] using hpath
  | stepAlong ha ht _ ih => exact contents?_append (contents?_append ha.contents ht.contents) ih

namespace Descent

/-- What the tokens of an accepted text carry, with names expanded and numbers read, is what its tree
holds: nothing is lost, doubled or moved. -/
theorem contents_of_parse {s : Setting} {input : String} {e : Expr} (h : parse s input = .ok e) :
    ((tokenize input).filter (·.kind.hasContent)).mapM (·.content? s.resolver) =
      some e.contents := by
  obtain ⟨ts, depth, htokens, hderives, -⟩ := derives_of_parse h
  have hall := contents?_append hderives.contents (contents?_mark (m := .endOfInput) rfl)
  rw [List.append_nil] at hall
  rw [htokens]
  exact hall

/-- A unary minus and a binary one are both kept, and a target like any other literal. -/
theorem contents_of_parse_minus :
    let s : Setting := { resolver := some (.firstOf [("p", "urn:p")]) }
    let input := "-count(p:*[1]) - processing-instruction('x')"
    let contents : List Content := [.op .minus, .function "count", .nameTest ⟨"*", some "urn:p"⟩,
      .number ⟨0x3FF0000000000000⟩, .op .minus, .literal "x"]
    (∃ e, parse s input = .ok e ∧ e.contents = contents ∧
      ((tokenize input).filter (·.kind.hasContent)).mapM (·.content? s.resolver) =
        some e.contents) := by
  intro s input contents
  have hresult : (parse s input).map Expr.contents = .ok contents := by decide +kernel
  cases hparse : parse s input with
  | error r =>
    rw [hparse] at hresult
    cases hresult
  | ok e =>
    rw [hparse] at hresult
    exact ⟨e, rfl, Except.ok.inj hresult, contents_of_parse hparse⟩

end Descent
end XPath
