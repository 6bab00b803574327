import XPath.Proofs.Descent.EarliestError
import XPath.Proofs.Namespaces

/-! One input under two settings, of which the second is more permissive. -/
namespace XPath

/-- Whatever `s` and `s'` do not treat alike, `s` rejects, for a reason that is `cut`. -/
structure Setting.Relaxes (cut : Rejection → Prop) (s s' : Setting) : Prop where
  expand (name : String) : expandName s.resolver name = expandName s'.resolver name ∨
    ∃ short, expandName s.resolver name = .error short ∧ cut (.unresolved short)
  check (name : String) (count : Nat) : s.check name count = s'.check name count ∨
    ∃ r, s.check name count = .error r ∧ cut r
  depth : s.options.maxDepth = s'.options.maxDepth ∨
    s.options.maxDepth ≤ s'.options.maxDepth ∧ cut (.tooDeep s.options.maxDepth)

namespace Descent

/-- Two parses of one text under settings that need not agree. -/
def textLink (cut : Rejection → Prop) : Link String Context String Context where
  tied p q := p.1 = q.1 ∧ p.2.lexer = q.2.lexer
  lost x y := x.1 = y.1
  cut x := cut x.1

section
variable {cut : Rejection → Prop} {s s' : Setting}

theorem tied_read {c c' : Context} (h : c.lexer = c'.lexer) :
    (textLink cut).tied c.read c'.read := by
  unfold Context.read
  rw [h]
  exact ⟨rfl, rfl⟩

theorem lawful_textLink (h : s.Relaxes cut s') :
    (textLink cut).Lawful (.direct s) (.direct s') where
  shape htied := by rw [htied.1]
  next _ htied := tied_read htied.2
  take htied _ := by
    have htext := (Token.text.inj htied.1).2
    rw [exec_takeText, exec_takeText, htext]
    exact .ok (tied_read htied.2)
  name {t t' c c'} htied := by
    obtain rfl : t = t' := (Token.text.inj htied.1).2
    rw [exec_expandText, exec_expandText]
    rcases h.expand t with hsame | ⟨short, herror, hcut⟩
    · rw [← hsame]
      cases expandName s.resolver t with
      | ok n => exact .ok (tied_read htied.2)
      | error short => exact .error rfl
    · rw [herror]
      exact .cut hcut
  refuse {p q} htied := by
    change refusal p.1 p.2.lexer.position = refusal q.1 q.2.lexer.position
    rw [htied.1, htied.2]
  number _ _ := rfl
  check {p q} name count htied := by
    have hcheck := h.check name count
    rw [exec_check, exec_check]
    change (textLink cut).Alike ((s.check name count).map (·, p.1), p.2)
      ((s'.check name count).map (·, q.1), q.2)
    rcases hcheck with hsame | ⟨r, herror, hcut⟩
    · rw [← hsame]
      cases s.check name count with
      | ok _ => exact .ok htied
      | error r => exact .error rfl
    · rw [herror]
      exact .cut hcut
  enough_zero _ henough := henough
  enough_next henough := henough
  enough_interpret _ _ _ henough := henough

theorem couples_nested_text (h : s.Relaxes cut s') (bound : Nat) (levels : List Precedence) :
    (textLink cut).Couples (.direct s) (.direct s')
      (nested bound s.options.maxDepth s.options.maxDepth levels)
      (nested bound s'.options.maxDepth s'.options.maxDepth levels) := by
  have law := lawful_textLink h
  have hbound (p q : Place String Context) (_ : (textLink cut).tied p q) :
      (textLink cut).Covers bound bound p.2 := Or.inl rfl
  rcases h.depth with hsame | ⟨hle, hcut⟩
  · rw [← hsame]
    exact Link.couples_nested law hbound (fun _ _ _ => rfl) _ levels
  · exact Link.couples_nested_le law hbound (fun _ _ _ => hcut) hle levels

theorem result_of_ends {o o' : Outcome String Context Expr}
    (h : (textLink cut).Ends (.direct s) (.direct s') o o') :
    o.1.map Prod.fst = o'.1.map Prod.fst ∨ ∃ r, o.1.map Prod.fst = .error r ∧ cut r := by
  cases h with
  | ok _ => exact Or.inl rfl
  | error hlost => exact Or.inl (congrArg Except.error hlost)
  | cut hcut => exact Or.inr ⟨_, rfl, hcut⟩

/-- A more permissive setting has the same outcome, unless the other rejects for a reason of its
own. -/
theorem parse_relaxed (h : s.Relaxes cut s') (input : String) :
    parse s input = parse s' input ∨ ∃ r, parse s input = .error r ∧ cut r := by
  have hnested := couples_nested_text h ((Context.begin input {}).lexer.unread + 1)
    Precedence.aboveMinus _ _ (tied_read (c := Context.begin input {}) rfl)
  have hends := Link.ends_whole (lawful_textLink h) hnested
  rw [parse_eq_interpret, parse_eq_interpret, interpret_grammar, interpret_grammar]
  exact result_of_ends hends

end

end Descent
end XPath
