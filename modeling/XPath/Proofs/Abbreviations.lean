import XPath.Proofs.Descent.Exactness

/-! Abbreviated steps and their full forms. Whatever part of the abbreviations in an expression is
written out, the expression denotes the same tree. -/
namespace XPath

/-- The full form of a step to nodes of any kind. -/
def anyNodeTokens (axis : Axis) : List (Token String) :=
  [.mark (.axis axis), .text .nodeType "node", .mark .leftParen, .mark .rightParen]

/-- The tokens for which another token may be written. -/
inductive Abbreviates : Token String → List (Token String) → Prop
  | slashSlash : Abbreviates (.mark .slashSlash)
      (.mark .slash :: anyNodeTokens .descendantOrSelf ++ [.mark .slash])
  | atSign : Abbreviates (.mark .atSign) [.mark (.axis .attributes)]
  | dot : Abbreviates (.mark .dot) (anyNodeTokens .self)
  | dotDot : Abbreviates (.mark .dotDot) (anyNodeTokens .parent)

namespace Abbreviates
variable {t : Token String} {vs vs' : List (Token String)}

theorem unique (h : Abbreviates t vs) (h' : Abbreviates t vs') : vs = vs' := by
  cases h <;> cases h' <;> rfl

end Abbreviates

/-- Whether a token gives the axis of the step whose node test follows. -/
def Token.givesAxis : Token String → Bool
  | .mark .atSign | .mark (.axis _) => true
  | _ => false

/-- The tokens with which a node test begins. -/
def TokenKind.beginsTest : TokenKind → Bool
  | text .nameTest | text .nodeType | text .processingInstruction => true
  | _ => false

/-- `Expands given ts us` says that `us` is `ts` with some abbreviations written out and the child axis
put before some node tests that had no axis. Whether the first token of `ts` has one is `given`. -/
inductive Expands : Bool → List (Token String) → List (Token String) → Prop
  | nil {given : Bool} : Expands given [] []
  | keep {given : Bool} {t : Token String} {ts us : List (Token String)}
      (h : Expands t.givesAxis ts us) : Expands given (t :: ts) (t :: us)
  | full {given : Bool} {t : Token String} {vs ts us : List (Token String)}
      (ht : Abbreviates t vs) (h : Expands t.givesAxis ts us) : Expands given (t :: ts) (vs ++ us)
  | child {t : Token String} {ts us : List (Token String)} (ht : t.kind.beginsTest = true)
      (h : Expands t.givesAxis ts us) : Expands false (t :: ts) (.mark (.axis .child) :: t :: us)

/-- Tokens that are neither abbreviations nor the beginning of a node test. -/
structure Token.Plain (t : Token String) : Prop where
  full (vs : List (Token String)) : ¬ Abbreviates t vs
  test : t.kind.beginsTest = false

theorem plain_op (o : BinaryOp) : (Token.mark (.op o)).Plain := by
  constructor
  · rintro vs ⟨⟩
  · cases o <;> rfl

theorem plain_axis (a : Axis) : (Token.mark (.axis a)).Plain := by
  constructor
  · rintro vs ⟨⟩
  · rfl

/-- Brackets, commas, single slashes and the end of the input stay as they are. -/
theorem plain_mark {m : Mark}
    (hm : m ∈ [Mark.endOfInput, .leftParen, .rightParen, .leftBracket, .rightBracket, .comma,
      .slash]) : (Token.mark m).Plain := by
  simp only [List.mem_cons, List.not_mem_nil, or_false] at hm
  rcases hm with rfl | rfl | rfl | rfl | rfl | rfl | rfl
  all_goals
    constructor
    · rintro vs ⟨⟩
    · rfl

theorem plain_text {k : TextKind}
    (hk : k ∈ [TextKind.literal, .number, .functionName, .variableReference]) (s : String) :
    (Token.text k s).Plain := by
  constructor
  · rintro vs ⟨⟩
  · simp only [List.mem_cons, List.not_mem_nil, or_false] at hk
    rcases hk with rfl | rfl | rfl | rfl <;> rfl

namespace Expands
variable {given : Bool} {t : Token String} {ts ts' us : List (Token String)}

/-- What may be done where an axis is given may be done anywhere. -/
theorem loosen (h : Expands given ts us) : Expands false ts us := by
  cases h with
  | nil => exact .nil
  | keep h => exact .keep h
  | full ht h => exact .full ht h
  | child ht h => exact .child ht h

theorem append_inv (h : Expands given (ts ++ ts') us) :
    ∃ us₁ us₂, us = us₁ ++ us₂ ∧ Expands given ts us₁ ∧ Expands false ts' us₂ := by
  induction ts generalizing given us with
  | nil => exact ⟨[], us, rfl, .nil, h.loosen⟩
  | cons t ts ih =>
    cases h with
    | keep h =>
      obtain ⟨us₁, us₂, rfl, h₁, h₂⟩ := ih h
      exact ⟨t :: us₁, us₂, rfl, .keep h₁, h₂⟩
    | @full _ _ vs _ _ ht h =>
      obtain ⟨us₁, us₂, rfl, h₁, h₂⟩ := ih h
      exact ⟨vs ++ us₁, us₂, (List.append_assoc _ _ _).symm, .full ht h₁, h₂⟩
    | child ht h =>
      obtain ⟨us₁, us₂, rfl, h₁, h₂⟩ := ih h
      exact ⟨_ :: t :: us₁, us₂, rfl, .child ht h₁, h₂⟩

theorem nil_inv (h : Expands given [] us) : us = [] := by
  cases h
  rfl

theorem cons_inv (ht : t.Plain) (h : Expands given (t :: ts) us) :
    ∃ us', us = t :: us' ∧ Expands t.givesAxis ts us' := by
  cases h with
  | keep h => exact ⟨_, rfl, h⟩
  | full hfull _ => exact absurd hfull (ht.full _)
  | child htest _ =>
    rw [ht.test] at htest
    cases htest

theorem singleton_inv (ht : t.Plain) (h : Expands given [t] us) : us = [t] := by
  obtain ⟨us', rfl, h'⟩ := h.cons_inv ht
  rw [h'.nil_inv]

/-- Plain tokens at the end of a list stay as they are. -/
theorem append_singleton_inv (ht : t.Plain) (h : Expands given (ts ++ [t]) us) :
    ∃ us', us = us' ++ [t] ∧ Expands given ts us' := by
  obtain ⟨us₁, us₂, rfl, h₁, h₂⟩ := h.append_inv
  rw [h₂.singleton_inv ht]
  exact ⟨us₁, rfl, h₁⟩

end Expands

section
variable {resolver : Option Resolver} {allowed : String → Nat → Prop} {given : Bool}
  {ts us : List (Token String)}

theorem derives_anyNode (axis : Axis) :
    Derives resolver allowed (.step (.anyNode axis)) (anyNodeTokens axis) 0 :=
  .stepAlong (.axis axis) (.nodeType "node") .noPredicate

theorem derives_descendantOrSelf :
    Derives resolver allowed (.step .descendantOrSelf) (anyNodeTokens .descendantOrSelf) 0 :=
  derives_anyNode .descendantOrSelf

/-- A separator of steps stays, or it is a double slash and the step that it stands for is written
between two slashes. -/
theorem Joins.expand {m : Mark} {js : List (Step Expr)} (hj : Joins m js)
    (h : Expands given (.mark m :: ts) us) :
    ∃ us', Expands false ts us' ∧ (us = .mark m :: us' ∨ js = [.descendantOrSelf] ∧
      us = .mark .slash :: (anyNodeTokens .descendantOrSelf ++ .mark .slash :: us')) := by
  cases hj with
  | slash =>
    obtain ⟨us', rfl, h'⟩ := h.cons_inv (plain_mark (by decide))
    exact ⟨us', h'.loosen, Or.inl rfl⟩
  | slashSlash =>
    cases h with
    | keep h => exact ⟨_, h.loosen, Or.inl rfl⟩
    | full ht h =>
      cases ht
      exact ⟨_, h.loosen, Or.inr ⟨rfl, rfl⟩⟩
    | child ht => cases ht

/-- A node test changes at most by the child axis put before it, and not even so where an axis is
given. -/
theorem SpellsTest.expand {test : NodeTest} (ht : SpellsTest resolver ts test)
    (h : Expands given ts us) : us = ts ∨ given = false ∧ us = .mark (.axis .child) :: ts := by
  have hopen : (Token.mark .leftParen).Plain := plain_mark (by decide)
  have hclose : (Token.mark .rightParen).Plain := plain_mark (by decide)
  -- Behind its first token, a node test has only plain ones.
  have behind {k : TextKind} {s : String} {rest vs : List (Token String)}
      (hrest : ∀ ws, Expands false rest ws → ws = rest)
      (h : Expands given (.text k s :: rest) vs) : vs = .text k s :: rest ∨
        given = false ∧ vs = .mark (.axis .child) :: .text k s :: rest := by
    cases h with
    | keep h =>
      rw [hrest _ h]
      exact Or.inl rfl
    | full ht _ => cases ht
    | child _ h =>
      rw [hrest _ h]
      exact Or.inr ⟨rfl, rfl⟩
  have parentheses (ws : List (Token String))
      (h : Expands false [.mark .leftParen, .mark .rightParen] ws) :
      ws = [.mark .leftParen, .mark .rightParen] := by
    obtain ⟨inner, rfl, hinner⟩ := h.cons_inv hopen
    rw [hinner.singleton_inv hclose]
  cases ht with
  | name => exact behind (fun ws h => h.nil_inv) h
  | nodeType => exact behind parentheses h
  | processingInstruction => exact behind parentheses h
  | target s target =>
    refine behind (fun ws h => ?_) h
    obtain ⟨inner, rfl, hinner⟩ := h.cons_inv hopen
    obtain ⟨last, rfl, hlast⟩ := hinner.cons_inv (plain_text (by decide) target)
    rw [hlast.singleton_inv hclose]

/-- An axis and a node test behind it give the same step in every form. -/
theorem SpellsAxis.expand {as : List (Token String)} {axis : Axis} {test : NodeTest}
    (ha : SpellsAxis as axis) (ht : SpellsTest resolver ts test)
    (h : Expands given (as ++ ts) us) : ∃ as', SpellsAxis as' axis ∧ us = as' ++ ts := by
  have given_axis {vs : List (Token String)} (h : Expands true ts vs) : vs = ts :=
    (ht.expand h).resolve_right fun hchild => Bool.noConfusion hchild.1
  cases ha with
  | child =>
    rcases ht.expand h with rfl | ⟨-, rfl⟩
    · exact ⟨[], .child, rfl⟩
    · exact ⟨[_], .axis .child, rfl⟩
  | atSign =>
    cases h with
    | keep h =>
      rw [given_axis h]
      exact ⟨[_], .atSign, rfl⟩
    | full hfull h =>
      cases hfull
      rw [given_axis h]
      exact ⟨[_], .axis .attributes, rfl⟩
    | child htest => cases htest
  | axis =>
    obtain ⟨vs, rfl, hvs⟩ := Expands.cons_inv (plain_axis axis) h
    rw [given_axis hvs]
    exact ⟨[_], .axis axis, rfl⟩

/-- A dot or two dots, or the full form of the step. -/
theorem derives_dots {axis : Axis} {m : Mark}
    (hm : Abbreviates (.mark m) (anyNodeTokens axis))
    (hstep : Derives resolver allowed (.step (.anyNode axis)) [.mark m] 0)
    (h : Expands given [.mark m] us) : Derives resolver allowed (.step (.anyNode axis)) us 0 := by
  cases h with
  | keep h =>
    rw [h.nil_inv]
    exact hstep
  | full hfull h =>
    rw [h.nil_inv, List.append_nil, hfull.unique hm]
    exact derives_anyNode axis
  | child htest =>
    cases m with
    | op o => cases o <;> cases htest
    | _ => cases htest

/-- Every production derives the same from tokens some of which are written out. -/
theorem Derives.expand {X : Phrase} {d : Nat} (h : Derives resolver allowed X ts d)
    (hus : Expands given ts us) : Derives resolver allowed X us d := by
  induction h generalizing given us with
  | expression _ ih => exact .expression (ih hus)
  | operand _ ih => exact .operand (ih hus)
  | @operator _ o _ _ _ _ _ _ ho _ _ ihl ihr =>
    obtain ⟨left, rest, rfl, hleft, hrest⟩ := hus.append_inv
    obtain ⟨right, rfl, hright⟩ := hrest.cons_inv (plain_op o)
    exact .operator ho (ihl hleft) (ihr hright)
  | union _ ih => exact .union (ih hus)
  | minus _ ih =>
    obtain ⟨operand, rfl, hoperand⟩ := hus.cons_inv (plain_op .minus)
    exact .minus (ih hoperand)
  | root =>
    rw [hus.singleton_inv (plain_mark (by decide))]
    exact .root
  | @absolute _ _ ss _ _ hj _ ih =>
    obtain ⟨path, hpath, rfl | ⟨rfl, rfl⟩⟩ := hj.expand hus
    · exact .absolute hj (ih hpath)
    · have hsteps := derives_descendantOrSelf.relative_cons .slash (ih hpath)
      have habsolute := Derives.absolute .slash hsteps
      rwa [Nat.zero_max] at habsolute
  | relative _ ih => exact .relative (ih hus)
  | filter _ ih => exact .filter (ih hus)
  | pathFrom _ hj _ ih ihs =>
    obtain ⟨start, rest, rfl, hstart, hrest⟩ := hus.append_inv
    obtain ⟨path, hpath, rfl | ⟨rfl, rfl⟩⟩ := hj.expand hrest
    · exact .pathFrom (ih hstart) hj (ihs hpath)
    · have hsteps := derives_descendantOrSelf.relative_cons .slash (ihs hpath)
      have hfrom := Derives.pathFrom (ih hstart) .slash hsteps
      rwa [Nat.zero_max] at hfrom
  | primary _ ih => exact .primary (ih hus)
  | filtered _ _ ih ihp =>
    obtain ⟨primary, predicates, rfl, hprimary, hpredicates⟩ := hus.append_inv
    exact .filtered (ih hprimary) (ihp hpredicates)
  | variableReference s =>
    rw [hus.singleton_inv (plain_text (by decide) s)]
    exact .variableReference s
  | literal s =>
    rw [hus.singleton_inv (plain_text (by decide) s)]
    exact .literal s
  | @number s _ hx =>
    rw [hus.singleton_inv (plain_text (by decide) s)]
    exact .number hx
  | parentheses _ ih =>
    obtain ⟨rest, rfl, hrest⟩ := hus.cons_inv (plain_mark (by decide))
    obtain ⟨inner, rfl, hinner⟩ := hrest.append_singleton_inv (plain_mark (by decide))
    exact .parentheses (ih hinner)
  | @call name _ _ _ hname _ ih =>
    obtain ⟨rest, rfl, hrest⟩ := hus.cons_inv (plain_text (by decide) name)
    obtain ⟨inner, rfl, hinner⟩ := hrest.cons_inv (plain_mark (by decide))
    obtain ⟨args, rfl, hargs⟩ := hinner.append_singleton_inv (plain_mark (by decide))
    exact .call hname (ih hargs)
  | noArgument =>
    rw [hus.nil_inv]
    exact .noArgument
  | argument _ ih => exact .argument (ih hus)
  | moreArguments _ _ ih ihs =>
    obtain ⟨first, rest, rfl, hfirst, hrest⟩ := hus.append_inv
    obtain ⟨more, rfl, hmore⟩ := hrest.cons_inv (plain_mark (by decide))
    exact .moreArguments (ih hfirst) (ihs hmore)
  | noPredicate =>
    rw [hus.nil_inv]
    exact .noPredicate
  | predicate _ _ ih ihs =>
    obtain ⟨rest, rfl, hrest⟩ := hus.cons_inv (plain_mark (by decide))
    obtain ⟨inner, behind, rfl, hinner, hbehind⟩ := hrest.append_inv
    obtain ⟨more, rfl, hmore⟩ := hbehind.cons_inv (plain_mark (by decide))
    exact .predicate (ih hinner) (ihs hmore)
  | oneStep _ ih => exact .oneStep (ih hus)
  | moreSteps _ hj _ ihs ih =>
    obtain ⟨path, rest, rfl, hpath, hrest⟩ := hus.append_inv
    obtain ⟨step, hstep, rfl | ⟨rfl, rfl⟩⟩ := hj.expand hrest
    · exact .moreSteps (ihs hpath) hj (ih hstep)
    · have hlonger := (ihs hpath).moreSteps .slash derives_descendantOrSelf
      have hsteps := hlonger.moreSteps .slash (ih hstep)
      simpa using hsteps
  | self => exact derives_dots .dot .self hus
  | parent => exact derives_dots .dotDot .parent hus
  | stepAlong ha ht _ ih =>
    obtain ⟨front, predicates, rfl, hfront, hpredicates⟩ := hus.append_inv
    obtain ⟨as, has, rfl⟩ := ha.expand ht hfront
    exact .stepAlong has ht (ih hpredicates)

end

namespace Descent

/-- If a text is accepted, so is every text whose tokens are the same but that some abbreviations are
written out, and with the same tree. -/
theorem parse_of_expands {s : Setting} {input full : String} {e : Expr}
    (hexpands : Expands false (tokenize input) (tokenize full)) (h : parse s input = .ok e) :
    parse s full = .ok e := by
  obtain ⟨ts, depth, htokens, hderives, hdepth⟩ := derives_of_parse h
  rw [htokens] at hexpands
  obtain ⟨us, hus, hexpands⟩ := hexpands.append_singleton_inv (plain_mark (by decide))
  exact parse_of_derives hus (hderives.expand hexpands) hdepth

/-- Of the abbreviations, all but the two dots are written out. -/
theorem parse_of_expands_but_dots :
    let tree := Expr.path true [.descendantOrSelf, ⟨.child, .name "a" none, [.binary .equals
      (.path false [.anyNode .self])
      (.path false [.anyNode .parent, ⟨.attributes, .name "b" none, []⟩])]⟩]
    Expands false (tokenize "//a[. = ../@b]")
        (tokenize "/descendant-or-self::node()/child::a[self::node() = ../attribute::b]") ∧
      parse {} "//a[. = ../@b]" = .ok tree ∧
      parse {} "/descendant-or-self::node()/child::a[self::node() = ../attribute::b]" =
        .ok tree := by
  intro tree
  have hshort : tokenize "//a[. = ../@b]" = [.mark .slashSlash, .text .nameTest "a",
      .mark .leftBracket, .mark .dot, .mark (.op .equals), .mark .dotDot, .mark .slash,
      .mark .atSign, .text .nameTest "b", .mark .rightBracket, .mark .endOfInput] := by
    decide +kernel
  have hfull : tokenize "/descendant-or-self::node()/child::a[self::node() = ../attribute::b]" =
      .mark .slash :: anyNodeTokens .descendantOrSelf ++ [.mark .slash] ++
        .mark (.axis .child) :: .text .nameTest "a" :: .mark .leftBracket ::
        (anyNodeTokens .self ++ .mark (.op .equals) :: .mark .dotDot :: .mark .slash ::
          ([.mark (.axis .attributes)] ++
            [.text .nameTest "b", .mark .rightBracket, .mark .endOfInput])) := by
    decide +kernel
  have hexpands : Expands false (tokenize "//a[. = ../@b]")
      (tokenize "/descendant-or-self::node()/child::a[self::node() = ../attribute::b]") := by
    rw [hshort, hfull]
    refine .full .slashSlash (.child rfl (.keep (.full .dot ?_)))
    exact .keep (.keep (.keep (.full .atSign (.keep (.keep (.keep .nil))))))
  have htree : parse {} "//a[. = ../@b]" = .ok tree := rfl
  exact ⟨hexpands, htree, parse_of_expands hexpands htree⟩

end Descent
end XPath
