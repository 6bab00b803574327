import XPath.Proofs.Descent.Ownership
import XPath.Proofs.Driver

/-! Parsers that are used again and again. Whatever happened before, the table of texts is empty
between two parses, and it is all that could carry anything over. -/
namespace XPath

namespace Use

/-- The parser after a use. -/
def apply (p : Parser Unit) : Use → Parser Unit
  | parse statement resolver => (p.parse statement resolver).parser
  | register name arity => p.register name arity

def isRegistration : Use → Bool
  | parse .. => false
  | register .. => true

end Use

/-- The parser after uses in order. -/
def Parser.after (p : Parser Unit) (uses : List Use) : Parser Unit :=
  uses.foldl Use.apply p

/-- An event other than that texts were left over by a grammar. -/
def Event.Orderly (e : Event) : Prop :=
  ∀ count statement, e ≠ .unconsumed count statement

theorem Context.log_next {c : Context} (h : ∀ e ∈ c.log, e.Orderly) :
    ∀ e ∈ c.next.2.log, e.Orderly := by
  rw [c.next_log]
  intro e he
  rcases List.mem_cons.mp he with rfl | he
  · rintro count statement ⟨⟩
  · exact h e he

theorem Context.log_take {c : Context} (g : Handle) (h : ∀ e ∈ c.log, e.Orderly) :
    ∀ e ∈ (c.take g).2.log, e.Orderly := by
  unfold take
  cases c.arena.release? g <;> exact h

theorem Context.log_expand {c : Context} (resolver : Option Resolver) (name : String)
    (h : ∀ e ∈ c.log, e.Orderly) : ∀ e ∈ (c.expand resolver name).2.log, e.Orderly := by
  unfold expand
  cases expandName resolver name with
  | ok => exact h
  | error short =>
    intro e he
    rcases List.mem_cons.mp he with rfl | he
    · rintro count statement ⟨⟩
    · rcases List.mem_append.mp he with he | he
      · unfold Event.unbound? at he
        obtain ⟨element, -, rfl⟩ := Option.map_eq_some_iff.mp (Option.mem_toList.mp he)
        rintro count statement ⟨⟩
      · exact h e he

/-- No grammar reports by itself that it left texts over. -/
theorem Action.log_run {α : Type} (s : Setting) (x : Action Handle α) (c : Context)
    (h : ∀ e ∈ c.log, e.Orderly) : ∀ e ∈ (x.run s c).2.log, e.Orderly := by
  induction x generalizing c with
  | pure => exact h
  | bind x f hx hf => exact hf _ _ (hx c h)
  | next => exact Context.log_next h
  | take g => exact Context.log_take g h
  | expand name => exact Context.log_expand s.resolver name h
  | check => exact h
  | flag => exact h
  | inspect => exact h

/-- A parser between two parses. The table never gets more than two slots: one for the text of the
current token, one for that of the next. -/
structure Parser.Idle (p : Parser Unit) : Prop where
  sound : p.arena.Sound
  live : p.arena.live = 0
  size_le : p.arena.slots.size ≤ 2

theorem Parser.idle_fresh (options : Options) : (Parser.fresh options).Idle where
  sound := Arena.sound_empty
  live := rfl
  size_le := Nat.zero_le 2

namespace Parser

theorem parse_ok {p : Parser Unit} {statement : String} {resolver : Option Resolver} {e : Expr}
    {c : Context}
    (h : Descent.grammar.run (p.setting resolver) (p.start statement) = (.ok e, c))
    (hlive : c.arena.live = 0) :
    p.parse statement resolver = ⟨.ok e, c.log.reverse, { p with arena := c.arena }⟩ := by
  have hrun : (descentEngine p.memory).run (p.setting resolver) (p.start statement) =
      ((.ok e, ()), c) := by
    unfold descentEngine
    rw [Action.run_bind, h]
    rfl
  have hempty : c.arena.isEmpty = true := by rw [Arena.isEmpty, hlive]; rfl
  unfold parse
  rw [parseWith_ok hrun, if_pos hempty, if_pos hempty]

theorem parse_error {p : Parser Unit} {statement : String} {resolver : Option Resolver}
    {reason : Rejection} {c : Context}
    (h : Descent.grammar.run (p.setting resolver) (p.start statement) = (.error reason, c)) :
    p.parse statement resolver =
      ⟨.error ⟨if c.namespaceErrorSeen then .namespaces else .grammatical, statement, reason⟩,
        (.rejected statement reason c.arena.live :: c.log).reverse,
        { p with arena := c.arena.releaseAll.2 }⟩ := by
  have hrun : (descentEngine p.memory).run (p.setting resolver) (p.start statement) =
      ((.error reason, ()), c) := by
    unfold descentEngine
    rw [Action.run_bind, h]
    rfl
  exact parseWith_error hrun

/-- What a parse comes to, as far as callers see it, without any table of texts. -/
def outcome (s : Setting) (statement : String) : Except ParseError Expr :=
  let start := { Context.begin statement {} with log := [.parsing statement] }
  match Descent.grammar.interpret (.direct s) start with
  | (.ok e, _) => .ok e
  | (.error reason, c) =>
    .error ⟨if c.namespaceErrorSeen then .namespaces else .grammatical, statement, reason⟩

variable {p : Parser Unit}

theorem Idle.parse (h : p.Idle) (statement : String) (resolver : Option Resolver) :
    (p.parse statement resolver).result = outcome (p.setting resolver) statement ∧
      (p.parse statement resolver).parser.Idle ∧
      ∀ e ∈ (p.parse statement resolver).log, e.Orderly := by
  have hlive : p.arena.releaseAll.2.live = 0 := rfl
  have hsize : p.arena.releaseAll.2.slots.size ≤ 2 := by
    rw [Arena.size_releaseAll]
    exact h.size_le
  have hmatches := Descent.run_grammar_matches (c := p.start statement)
    (Arena.sound_releaseAll h.sound) hsize (Nat.le_refl 2) (by decide) (p.setting resolver)
  have hlog := Action.log_run (p.setting resolver) Descent.grammar (p.start statement) (by
    intro e he
    rw [List.mem_singleton.mp he]
    rintro count statement ⟨⟩)
  have hresult := hmatches.result
  have hcontext := hmatches.context
  have hsound := hmatches.sound
  have hle := hmatches.size_le
  have hkept (e : Expr)
      (he : (Descent.grammar.run (p.setting resolver) (p.start statement)).1 = .ok e) :
      (Descent.grammar.run (p.setting resolver) (p.start statement)).2.arena.live = 0 :=
    (hmatches.kept he).2.1
  generalize hrun : Descent.grammar.run (p.setting resolver) (p.start statement) = x
    at hresult hcontext hsound hle hkept hlog
  obtain ⟨result, c⟩ := x
  have hstart : { p.start statement with arena := {} } =
      { Context.begin statement {} with log := [.parsing statement] } := rfl
  rw [hstart] at hresult hcontext
  unfold outcome
  dsimp only at hresult hcontext hsound hle hkept hlog ⊢
  generalize Descent.grammar.interpret (.direct (p.setting resolver) : Host String Context) _ = y
    at hresult hcontext ⊢
  obtain ⟨result', c'⟩ := y
  obtain rfl : result = result' := hresult
  have hflag : c.namespaceErrorSeen = c'.namespaceErrorSeen := by rw [hcontext]
  cases result with
  | ok e =>
    have hempty : c.arena.live = 0 := hkept e rfl
    rw [parse_ok hrun hempty]
    exact ⟨rfl, ⟨hsound, hempty, hle⟩, fun ev hev => hlog ev (List.mem_reverse.mp hev)⟩
  | error reason =>
    rw [parse_error hrun, hflag]
    refine ⟨rfl, ⟨Arena.sound_releaseAll hsound, rfl, ?_⟩, fun ev hev => ?_⟩
    · rw [Arena.size_releaseAll]
      exact hle
    · rcases List.mem_cons.mp (List.mem_reverse.mp hev) with rfl | hev
      · rintro count statement ⟨⟩
      · exact hlog ev hev

theorem Idle.apply (h : p.Idle) (u : Use) : (u.apply p).Idle := by
  cases u with
  | parse statement resolver => exact (h.parse statement resolver).2.1
  | register name arity => exact ⟨h.sound, h.live, h.size_le⟩

theorem Idle.after (h : p.Idle) (uses : List Use) : (p.after uses).Idle := by
  induction uses generalizing p with
  | nil => exact h
  | cons u uses ih => exact ih (h.apply u)

/-- Parsing changes nothing but the table of texts. -/
theorem setting_parse (p : Parser Unit) (statement : String) (resolver : Option Resolver) :
    (p.parse statement resolver).parser.options = p.options ∧
      (p.parse statement resolver).parser.functions = p.functions := by
  unfold parse parseWith
  dsimp only
  split <;> exact ⟨rfl, rfl⟩

/-- Of what was done to a parser before, only registrations count. -/
theorem setting_after {p q : Parser Unit} (hoptions : p.options = q.options)
    (hfunctions : p.functions = q.functions) (uses : List Use) (resolver : Option Resolver) :
    (p.after uses).setting resolver =
      (q.after (uses.filter Use.isRegistration)).setting resolver := by
  induction uses generalizing p q with
  | nil =>
    unfold after setting
    rw [List.filter_nil, List.foldl_nil, List.foldl_nil, hoptions, hfunctions]
  | cons u uses ih =>
    cases u with
    | parse statement r =>
      obtain ⟨ho, hf⟩ := setting_parse p statement r
      exact ih (ho.trans hoptions) (hf.trans hfunctions)
    | register name arity =>
      refine ih (p := p.register name arity) (q := q.register name arity) hoptions ?_
      exact congrArg (Registry.register · name arity) hfunctions

end Parser

/-- A parser that was used in any way parses as a new one with the same functions registered, keeps
nothing between two uses, and never finds that the grammar left texts over. -/
theorem Parser.parse_after (options : Options) (uses : List Use) (statement : String)
    (resolver : Option Resolver) :
    let used := (Parser.fresh options).after uses
    let unused := (Parser.fresh options).after (uses.filter Use.isRegistration)
    (used.parse statement resolver).result = (unused.parse statement resolver).result ∧
      used.pending = 0 ∧
      ∀ count left, Event.unconsumed count left ∉ (used.parse statement resolver).log := by
  intro used unused
  have hused := (idle_fresh options).after uses
  have hunused := (idle_fresh options).after (uses.filter Use.isRegistration)
  obtain ⟨hresult, -, hlog⟩ := hused.parse statement resolver
  refine ⟨?_, hused.live, fun count left hmem => hlog _ hmem count left rfl⟩
  rw [hresult, (hunused.parse statement resolver).1, setting_after rfl rfl uses resolver]

end XPath
