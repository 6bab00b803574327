import Mathlib.Data.Nat.Find
import XPath.Proofs.Descent.Comparison
import XPath.Proofs.Descent.Counter

/-! The limit on nesting. An input has a depth of its own: within any limit from there on it has one
and the same outcome, and within any smaller limit it nests too deeply. -/
namespace XPath
variable {s : Setting}

/-- The same setting made to bind every name and to allow every call. -/
def Setting.lax (s : Setting) : Setting where
  resolver := some { lookup := fun short => some ((s.resolver.bind (·.lookup short)).getD "") }
  functions := s.functions
  options := { s.options with validateFunctions := false }

theorem Setting.lenient_lax (s : Setting) : s.lax.Lenient :=
  Setting.lenient rfl rfl fun _ => rfl

theorem Setting.expandName_lax (s : Setting) (name : String) :
    expandName s.resolver name = expandName s.lax.resolver name ∨
      ∃ short, expandName s.resolver name = .error short := by
  cases hname : expandName s.resolver name with
  | error short => exact Or.inr ⟨short, rfl⟩
  | ok n =>
    have hwide : Widens s.resolver s.lax.resolver (Token.text .nameTest name).short?.toList := by
      intro short _ uri huri
      change some ((s.resolver.bind (·.lookup short)).getD "") = some uri
      rw [huri]
      rfl
    exact Or.inl (hwide.expandName (fun _ => Option.mem_toList.mpr) hname).symm

/-- Where a setting and its lax variant differ, a name or a call is the reason. -/
theorem Setting.relaxes_lax (s : Setting) {cut : Rejection → Prop}
    (hname : ∀ short, cut (.unresolved short)) (hunknown : ∀ name, cut (.unknownFunction name))
    (harity : ∀ name count expected, cut (.wrongArity name count expected)) :
    s.Relaxes cut s.lax where
  expand name := by
    rcases s.expandName_lax name with hsame | ⟨short, herror⟩
    · exact Or.inl hsame
    · exact Or.inr ⟨short, herror, hname short⟩
  check name count := by
    rw [s.lenient_lax.allows name count]
    cases hcheck : s.check name count with
    | ok _ => exact Or.inl rfl
    | error r =>
      refine Or.inr ⟨r, rfl, ?_⟩
      rcases Descent.cause_of_check hcheck with rfl | ⟨expected, rfl⟩
      · exact hunknown name
      · exact harity name count expected
  depth := Or.inl rfl

/-- Settings with different limits differ where the nesting exceeds the smaller one. -/
theorem Setting.relaxes_within (s : Setting) {limit limit' : Nat} (h : limit ≤ limit') :
    (s.within limit).Relaxes (· = .tooDeep limit) (s.within limit') where
  expand _ := Or.inl rfl
  check _ _ := Or.inl rfl
  depth := Or.inr ⟨h, rfl⟩

namespace Descent

/-- Each level of nesting takes a character. -/
theorem parse_ne_tooDeep {input : String} (h : input.length < s.options.maxDepth) (limit : Nat) :
    parse s input ≠ .error (.tooDeep limit) := by
  intro hparse
  have hunread : (Context.begin input {}).lexer.unread < s.lax.options.maxDepth := by
    rw [← String.length_toList] at h
    exact h
  have hrelaxes : s.Relaxes (fun r => ∀ limit, r ≠ .tooDeep limit) s.lax :=
    s.relaxes_lax (fun _ _ => nofun) (fun _ _ => nofun) fun _ _ _ _ => nofun
  rcases parse_relaxed hrelaxes input with hsame | ⟨r, hr, hcut⟩
  · rw [hsame] at hparse
    obtain ⟨d, a, hfails, -⟩ := fails_of_run hparse
    obtain ⟨before, t, position, -, -, hreason, -⟩ :=
      stopped_at_token s.lenient_lax rfl hunread hfails
    exact refusal_ne_tooDeep t position limit hreason.symm
  · rw [hr] at hparse
    exact hcut limit (Except.error.inj hparse)

theorem parse_within_zero (s : Setting) (input : String) :
    parse (s.within 0) input = .error (.tooDeep 0) := by
  rw [parse_eq_interpret, interpret_grammar]
  rfl

/-- Within a larger limit, the outcome is the same unless it was that the nesting exceeds the smaller
one. -/
theorem parse_within_le {limit limit' : Nat} (h : limit ≤ limit') (s : Setting) (input : String) :
    parse (s.within limit) input = parse (s.within limit') input ∨
      parse (s.within limit) input = .error (.tooDeep limit) := by
  rcases parse_relaxed (s.relaxes_within h) input with hsame | ⟨r, hr, rfl⟩
  · exact Or.inl hsame
  · exact Or.inr hr

/-- Whether a limit gives the same outcome as one that no input of this length exceeds. -/
def Suffices (s : Setting) (input : String) (limit : Nat) : Prop :=
  parse (s.within limit) input = parse (s.within (input.length + 1)) input

theorem outcome_ne_tooDeep (s : Setting) (input : String) (limit : Nat) :
    parse (s.within (input.length + 1)) input ≠ .error (.tooDeep limit) :=
  parse_ne_tooDeep (Nat.lt_succ_self _) limit

/-- The threshold is the smallest limit that suffices. -/
theorem exists_threshold (s : Setting) (input : String) :
    ∃ threshold, 1 ≤ threshold ∧ threshold ≤ input.length + 1 ∧
      (∀ limit, threshold ≤ limit → Suffices s input limit) ∧
      ∀ limit < threshold, parse (s.within limit) input = .error (.tooDeep limit) := by
  classical
  have hsome : ∃ limit, Suffices s input limit := ⟨input.length + 1, rfl⟩
  have hle : Nat.find hsome ≤ input.length + 1 := Nat.find_min' hsome rfl
  refine ⟨Nat.find hsome, ?_, hle, fun limit hlimit => ?_, fun limit hlimit => ?_⟩
  · apply (Nat.find_pos hsome).mpr
    intro hzero
    exact outcome_ne_tooDeep s input 0 (hzero.symm.trans (parse_within_zero s input))
  · have hfirst : Suffices s input (Nat.find hsome) := Nat.find_spec hsome
    rcases parse_within_le hlimit s input with hsame | hdeep
    · exact hsame.symm.trans hfirst
    · exact absurd (hfirst.symm.trans hdeep) (outcome_ne_tooDeep s input _)
  · rcases parse_within_le (hlimit.le.trans hle) s input with hsame | hdeep
    · exact absurd hsame (Nat.find_min hsome hlimit)
    · exact hdeep

/-- The limit on nesting is no part of what an expression means. From a threshold on, which is no
greater than the number of characters and one, every limit gives the same outcome, and that is not
that the nesting is too deep. Every smaller limit gives that it is. A parse that counts its levels
does the same as the one that is limited: it goes no deeper than the limit, and it has left all
levels at the end, accepted or not. -/
theorem depth_limit_transparent (s : Setting) (input : String) :
    (∃ (threshold : Nat) (outcome : Except Rejection Expr),
      1 ≤ threshold ∧ threshold ≤ input.length + 1 ∧
      (∀ limit, outcome ≠ .error (.tooDeep limit)) ∧
      (∀ limit, threshold ≤ limit → parse (s.within limit) input = outcome) ∧
      ∀ limit < threshold, parse (s.within limit) input = .error (.tooDeep limit)) ∧
    (∀ limit limit', limit ≤ limit' →
      parse (s.within limit) input = parse (s.within limit') input ∨
        parse (s.within limit) input = .error (.tooDeep limit)) ∧
    ∀ (limit : Nat) (beyond : List Precedence → Descent (Cue Handle) Expr),
      let start : Gauge Context := { state := Context.begin input {} }
      let counting := (countedGrammar beyond).interpret (Host.table (s.within limit)).counting start
      counting.1 = parse (s.within limit) input ∧
        counting.2.state = (grammar.run (s.within limit) (Context.begin input {})).2 ∧
        counting.2.depth = 0 ∧ counting.2.peak ≤ limit := by
  refine ⟨?_, fun limit limit' h => parse_within_le h s input, fun limit beyond => ?_⟩
  · obtain ⟨threshold, hpos, hle, hfrom, hbelow⟩ := exists_threshold s input
    exact ⟨threshold, parse (s.within (input.length + 1)) input, hpos, hle,
      outcome_ne_tooDeep s input, hfrom, hbelow⟩
  · intro start counting
    have hlimit (c : Context) :
        ((Host.table (s.within limit)).view c).options.maxDepth = limit := rfl
    obtain ⟨hresult, hat⟩ := interpret_countedGrammar hlimit beyond (Context.begin input {})
    rw [← Action.run_eq_interpret] at hresult hat
    exact ⟨hresult, hat.state, hat.depth, hat.peak⟩

end Descent
end XPath
