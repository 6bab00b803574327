import XPath.Proofs.Descent.Exactness
import XPath.Proofs.Printer.Consistent
import XPath.Proofs.Printer.Derives

/-! Texts of expressions put together to texts of larger ones. An expression between brackets or commas
is read as it is read alone. -/
namespace XPath

/-- The marks that end an expression within another one, with how they are written. -/
def closings : List (Mark × Char) :=
  [(.rightParen, ')'), (.rightBracket, ']'), (.comma, ',')]

/-- No token goes on with a mark that ends an expression. -/
theorem goesOn_closing (t : Token String) {m : Mark} {x : Char} (hx : (m, x) ∈ closings) :
    t.goesOn x = false := by
  simp only [closings, List.mem_cons, Prod.mk.injEq, List.not_mem_nil, or_false] at hx
  rcases hx with ⟨-, rfl⟩ | ⟨-, rfl⟩ | ⟨-, rfl⟩ <;>
    exact goesOn_of_break t (by decide) (by decide) (by decide)

namespace Layout
variable {ts us : List (Token String)} {text rest : List Char}

/-- Two texts one after the other, if no token of the first one goes on with the second. -/
theorem append (h : Layout ts text) (hends : ∀ t ∈ ts, EndsRun t.goesOn rest)
    (hrest : Layout us rest) : Layout (ts ++ us) (text ++ rest) := by
  induction h with
  | nil hw => exact hrest.append_blank hw
  | @cons t ts w l tail hw hl hend _ ih =>
    obtain ⟨ht, hts⟩ := List.forall_mem_cons.mp hends
    have hboth : EndsRun t.goesOn (tail ++ rest) := by
      cases tail with
      | nil => exact ht
      | cons x tail => exact endsRun_cons.mpr (endsRun_cons.mp hend)
    have hall := Layout.cons hw hl hboth (ih hts)
    rw [List.append_assoc (w ++ l)]
    exact hall

/-- A mark of one character that no character goes on with. -/
theorem mark {m : Mark} {x : Char} (hm : m.spelling? = some [x])
    (hends : ∀ y, (Token.mark m).goesOn y = false) (h : Layout us rest) :
    Layout (.mark m :: us) (x :: rest) :=
  .cons blank_nil (.mark hm) (fun y _ => hends y) h

/-- An expression with the mark that ends it. -/
theorem close {m : Mark} {x : Char} (hm : (m, x) ∈ closings) (h : Layout ts text)
    (hrest : Layout us rest) : Layout (ts ++ .mark m :: us) (text ++ x :: rest) := by
  have hends (t : Token String) (_ : t ∈ ts) : EndsRun t.goesOn (x :: rest) :=
    endsRun_cons.mpr (goesOn_closing t hm)
  apply h.append hends
  simp only [closings, List.mem_cons, Prod.mk.injEq, List.not_mem_nil, or_false] at hm
  rcases hm with ⟨rfl, rfl⟩ | ⟨rfl, rfl⟩ | ⟨rfl, rfl⟩ <;> exact hrest.mark rfl fun _ => rfl

theorem inParens (h : Layout ts text) (hrest : Layout us rest) :
    Layout (inParens ts ++ us) ('(' :: (text ++ ')' :: rest)) := by
  have hinner := (h.close (m := .rightParen) (x := ')') (by decide) hrest).mark (m := .leftParen) rfl
    fun _ => rfl
  simpa [XPath.inParens] using hinner

/-- An operator between blanks. -/
theorem operator (o : BinaryOp) (h : Layout us rest) :
    Layout (.mark (.op o) :: us) (' ' :: (o.spelling.toList ++ ' ' :: rest)) := by
  have hblank : Blank [' '] := blank_singleton rfl
  have hends : EndsRun (Token.mark (.op o)).goesOn (' ' :: rest) :=
    endsRun_cons.mpr (goesOn_blank _ rfl)
  exact .cons hblank (.mark rfl) hends (h.append_blank hblank)

end Layout

/-- Tokens fit together in front of what can end an expression as they do at the end of a text. -/
theorem Consistent.append {c c' : OperatorContext} {ts rest : List (Token String)}
    (h : Consistent c ts) (hc : c'.expectsOperator = c.expectsOperator)
    (hrest : ∀ c', Consistent c' rest) (hparen : rest.head? ≠ some (.mark .leftParen)) :
    Consistent c' (ts ++ rest) := by
  induction ts generalizing c c' with
  | nil => exact hrest c'
  | cons t ts ih =>
    have hhead : ts.head? = some (.mark .leftParen) ↔
        (ts ++ rest).head? = some (.mark .leftParen) := by
      cases ts with
      | nil => exact iff_of_false nofun hparen
      | cons => exact Iff.rfl
    obtain ⟨hfits, hts⟩ := h
    rw [← hc, hhead] at hfits
    exact ⟨hfits, ih hts rfl⟩

/-- The tokens of a text fit wherever an operand may begin. -/
theorem Consistent.fluent {ts : List (Token String)} (h : Consistent {} ts) : Fluent ts :=
  fun _ _ hc hrest hparen => h.append hc hrest hparen

/-- A text and the tokens that it sets out, of an expression with the tree `e` that nests within a
limit. -/
structure Writes (s : Setting) (limit : Nat) (e : Expr) (ts : List (Token String))
    (text : List Char) : Prop where
  consistent : Consistent {} ts
  layout : Layout ts text
  derives : DerivesWithin s.resolver s.Allows (.expression e) ts limit

theorem writes_of_parse {s : Setting} {limit : Nat} {input : String} {e : Expr}
    (h : Descent.parse (s.within limit) input = .ok e) :
    ∃ ts, Writes s limit e ts input.toList := by
  obtain ⟨ts, depth, htokens, hderives, hdepth⟩ := Descent.derives_of_parse h
  obtain ⟨hconsistent, hlayout⟩ := tokenize_eq_iff.mp htokens
  exact ⟨ts, hconsistent, hlayout, depth, hdepth, hderives⟩

namespace Writes
variable {s : Setting} {limit : Nat} {a b : Expr} {ts us : List (Token String)}
  {text text' : List Char}

theorem parse {input : String} (h : Writes s limit a ts text) (htext : input.toList = text) :
    Descent.parse (s.within limit) input = .ok a := by
  obtain ⟨depth, hdepth, hderives⟩ := h.derives
  have htokens : tokenize input = ts ++ [.mark .endOfInput] := by
    rw [tokenize_eq_iff, htext]
    exact ⟨h.consistent, h.layout⟩
  exact Descent.parse_of_derives (s := s.within limit) htokens hderives hdepth

theorem inParens (h : Writes s limit a ts text) :
    Writes s (limit + 1) a (XPath.inParens ts) ('(' :: (text ++ [')'])) where
  consistent := by
    have halone : Consistent {} (XPath.inParens ts ++ []) :=
      consistent_inParens h.consistent.fluent {} trivial
    rwa [List.append_nil] at halone
  layout := by
    simpa using h.layout.inParens (.nil blank_nil)
  derives := by
    obtain ⟨d, hd, hderives⟩ := h.derives
    exact ⟨d + 1, Nat.succ_le_succ hd, .expression (hderives.inParens _)⟩

theorem negate (h : Writes s limit a ts text) :
    Writes s (limit + 2) (.negate a) (.mark (.op .minus) :: XPath.inParens ts)
      ('-' :: '(' :: (text ++ [')'])) where
  consistent := by
    have hoperand : Consistent ⟨some .minus⟩ (XPath.inParens ts ++ []) :=
      consistent_inParens h.consistent.fluent _ trivial
    rw [List.append_nil] at hoperand
    exact ⟨fun h => absurd h (by decide), hoperand⟩
  layout := h.inParens.layout.mark rfl fun _ => rfl
  derives := by
    obtain ⟨d, hd, hderives⟩ := h.derives
    exact ⟨d + 1 + 1, by omega, (Derives.minus (hderives.inParens _)).whole⟩

theorem binary (o : BinaryOp) (h : Writes s limit a ts text) (h' : Writes s limit b us text') :
    Writes s (limit + 1) (.binary o a b) (XPath.inParens ts ++ .mark (.op o) :: XPath.inParens us)
      ('(' :: (text ++ ')' :: ' ' :: (o.spelling.toList ++ ' ' :: '(' :: (text' ++ [')'])))) where
  consistent := by
    have hright : Consistent ⟨some o.tokenKind⟩ (XPath.inParens us ++ []) :=
      consistent_inParens h'.consistent.fluent _ trivial
    rw [List.append_nil] at hright
    exact consistent_inParens h.consistent.fluent {} ⟨fun _ => rfl, hright⟩
  layout := h.layout.inParens (h'.inParens.layout.operator o)
  derives := by
    obtain ⟨d, hd, hleft⟩ := h.derives
    obtain ⟨d', hd', hright⟩ := h'.derives
    have hboth := (Derives.operator (o := o) rfl (hleft.inParens _) (hright.inParens _)).whole
    exact ⟨max d d' + 1, by omega, hboth⟩

theorem filter (h : Writes s limit a ts text) (h' : Writes s limit b us text') :
    Writes s (limit + 1) (.filter a [b])
      (XPath.inParens ts ++ .mark .leftBracket :: (us ++ [.mark .rightBracket]))
      ('(' :: (text ++ ')' :: '[' :: (text' ++ [']']))) where
  consistent := by
    have hpredicate := h'.consistent.fluent ⟨some .leftBracket⟩ [.mark .rightBracket] rfl
      (fun _ => ⟨trivial, trivial⟩) (by decide)
    exact consistent_inParens h.consistent.fluent {} ⟨trivial, hpredicate⟩
  layout := by
    have hclosed := h'.layout.close (m := .rightBracket) (x := ']') (by decide) (.nil blank_nil)
    exact h.layout.inParens (hclosed.mark rfl fun _ => rfl)
  derives := by
    obtain ⟨d, hd, hprimary⟩ := h.derives
    obtain ⟨d', hd', hpredicate⟩ := h'.derives
    have hpredicates := Derives.predicate hpredicate .noPredicate
    have hfilter := (Derives.filter (.filtered (.parentheses hprimary) hpredicates)).whole
    exact ⟨max d (max d' 0) + 1, by omega, hfilter⟩

theorem call {f : String} (hf : IsNCName f)
    (hnot : f ∉ ["comment", "text", "node", "processing-instruction"]) (hallowed : s.Allows f 2)
    (h : Writes s limit a ts text) (h' : Writes s limit b us text') :
    Writes s (limit + 1) (.call f [a, b])
      (.text .functionName f :: .mark .leftParen ::
        (ts ++ .mark .comma :: (us ++ [.mark .rightParen])))
      (f.toList ++ '(' :: (text ++ ',' :: (text' ++ [')']))) where
  consistent := by
    have hsecond (c : OperatorContext) :
        Consistent c (.mark .comma :: (us ++ [.mark .rightParen])) :=
      ⟨trivial, h'.consistent.fluent _ _ rfl (fun _ => ⟨trivial, trivial⟩) (by decide)⟩
    have hargs := h.consistent.fluent ⟨some .leftParen⟩ _ rfl hsecond (by simp)
    exact ⟨⟨⟨f, nofun, .plain hf⟩, hnot, rfl⟩, trivial, hargs⟩
  layout := by
    have hsecond := h'.layout.close (m := .rightParen) (x := ')') (by decide) (.nil blank_nil)
    have hargs := (h.layout.close (m := .comma) (x := ',') (by decide) hsecond).mark
      (m := .leftParen) rfl fun _ => rfl
    have hends : EndsRun (Token.text .functionName f).goesOn
        ('(' :: (text ++ ',' :: (text' ++ [')']))) :=
      endsRun_cons.mpr (goesOn_of_break _ (by decide) (by decide) (by decide))
    have hname : Spells (.text .functionName f) f.toList := .name (by decide) (.plain hf)
    simpa using Layout.cons blank_nil hname hends hargs
  derives := by
    obtain ⟨d, hd, hfirst⟩ := h.derives
    obtain ⟨d', hd', hsecond⟩ := h'.derives
    have hargs := Derives.moreArguments hfirst (.argument hsecond)
    have hcall : Derives s.resolver s.Allows _ _ _ := (Derives.call hallowed hargs).alone
    exact ⟨max d d' + 1, by omega, by simpa using hcall⟩

end Writes

namespace Descent

/-- Two texts that are accepted under a limit make up texts that are accepted under a larger one, with
the trees put together accordingly: both in parentheses with an operator between them, one in
parentheses alone or behind a minus, one as a predicate of the other, and both as the arguments of a
call. -/
theorem parse_composed {s : Setting} {limit : Nat} {left right : String} {a b : Expr}
    (ha : parse (s.within limit) left = .ok a) (hb : parse (s.within limit) right = .ok b) :
    (∀ o : BinaryOp, parse (s.within (limit + 1))
      ("(" ++ left ++ ") " ++ o.spelling ++ " (" ++ right ++ ")") = .ok (.binary o a b)) ∧
    parse (s.within (limit + 1)) ("(" ++ left ++ ")") = .ok a ∧
    parse (s.within (limit + 2)) ("-(" ++ left ++ ")") = .ok (.negate a) ∧
    parse (s.within (limit + 1)) ("(" ++ left ++ ")[" ++ right ++ "]") = .ok (.filter a [b]) ∧
    (∀ f, IsNCName f → f ∉ ["comment", "text", "node", "processing-instruction"] →
      s.options.validateFunctions = false ∨
        (∃ arity, s.functions.get? f = some arity ∧ arity.accepts 2 = true) →
      parse (s.within (limit + 1)) (f ++ "(" ++ left ++ "," ++ right ++ ")") =
        .ok (.call f [a, b])) := by
  obtain ⟨ts, hts⟩ := writes_of_parse ha
  obtain ⟨us, hus⟩ := writes_of_parse hb
  refine ⟨fun o => ?_, ?_, ?_, ?_, fun f hf hnot hallowed => ?_⟩
  · exact (hts.binary o hus).parse (by simp)
  · exact hts.inParens.parse (by simp)
  · exact hts.negate.parse (by simp)
  · exact (hts.filter hus).parse (by simp)
  · have hallows : s.Allows f 2 := by
      intro hvalidate
      rcases hallowed with hoff | ⟨arity, harity, haccepts⟩
      · rw [hoff] at hvalidate
        cases hvalidate
      · simp [Registry.check, harity, haccepts]
    exact (hts.call hf hnot hallows hus).parse (by simp)

/-- Behind the slash of the first text, an operator would be read as a name if it were not for the
parenthesis, and the second text is the name of an operator. -/
theorem parse_composed_div :
    let s : Setting := {}
    let root := Expr.path true []
    let name := Expr.path false [⟨.child, .name "div" none, []⟩]
    parse (s.within 1) " /" = .ok root ∧ parse (s.within 1) "div " = .ok name ∧
      parse (s.within 2) "( /) div (div )" = .ok (.binary .divide root name) ∧
      parse (s.within 3) "-( /)" = .ok (.negate root) ∧
      parse (s.within 2) "( /)[div ]" = .ok (.filter root [name]) ∧
      IsNCName "contains" ∧ (∃ arity, s.functions.get? "contains" = some arity ∧
        arity.accepts 2 = true) ∧
      parse (s.within 2) "contains( /,div )" = .ok (.call "contains" [root, name]) := by
  intro s root name
  have hroot : parse (s.within 1) " /" = .ok root := rfl
  have hname : parse (s.within 1) "div " = .ok name := rfl
  have harity : ∃ arity, s.functions.get? "contains" = some arity ∧ arity.accepts 2 = true :=
    ⟨.exactly 2, by decide, by decide⟩
  obtain ⟨hbinary, -, hnegate, hfilter, hcall⟩ := parse_composed hroot hname
  exact ⟨hroot, hname, hbinary .divide, hnegate, hfilter, by decide, harity,
    hcall "contains" (by decide) (by decide) (Or.inr harity)⟩

end Descent
end XPath
