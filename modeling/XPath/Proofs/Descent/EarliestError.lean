import XPath.Proofs.Binary64
import XPath.Proofs.Descent.Exactness
import XPath.Proofs.Descent.Reel

/-! An input is rejected at its first token with which no expression goes on. The tokens before it
begin one. -/
namespace XPath

namespace Lexer

/-- All tokens that can be read, one after the other, whatever they are. -/
def stream (l : Lexer) : Stream' (Token String) :=
  Stream'.corec' next l

theorem stream_eq (l : Lexer) : l.stream = Stream'.cons l.next.1 l.next.2.stream :=
  Stream'.corec'_eq next l

end Lexer

/-- The token that an event reports, with the position behind it. -/
def Event.read? : Event → Option (Token String × Nat)
  | token position t => some (t, position)
  | _ => none

namespace Context

/-- The tokens pulled so far, in order, each with the position of the cursor after it was pulled. -/
def pulled (c : Context) : List (Token String × Nat) :=
  c.log.reverse.filterMap Event.read?

theorem pulled_read (c : Context) :
    c.read.2.pulled = c.pulled ++ [(c.read.1, c.read.2.lexer.position)] := by
  unfold pulled read
  simp only [List.reverse_cons, List.filterMap_append]
  rfl

theorem pulled_unresolved (c : Context) (resolver : Option Resolver) (short : String) :
    (Source.unresolved resolver short c).pulled = c.pulled := by
  have hunbound : (Event.unbound? resolver short).filterMap Event.read? = [] := by
    unfold Event.unbound?
    cases resolver.bind (·.element) <;> rfl
  change (Event.unresolved short :: (Event.unbound? resolver short ++ c.log)).reverse.filterMap
    Event.read? = c.log.reverse.filterMap Event.read?
  rw [List.filterMap_reverse, List.filterMap_reverse, List.filterMap_cons_none rfl,
    List.filterMap_append, hunbound, List.nil_append]

theorem pulled_expand (c : Context) (resolver : Option Resolver) (name : String) :
    (c.expand resolver name).2.pulled = c.pulled := by
  unfold expand
  cases expandName resolver name with
  | ok n => rfl
  | error short => exact c.pulled_unresolved resolver short

/-- What has been pulled stays pulled. -/
theorem pulled_interpret {α : Type} (s : Setting) (x : Action String α) (c : Context) :
    c.pulled.length ≤ (x.interpret (.direct s) c).2.pulled.length := by
  apply Action.le_interpret (fun c : Context => c.pulled.length)
  case hnext =>
    intro c
    show c.pulled.length ≤ c.read.2.pulled.length
    rw [pulled_read, List.length_append]
    exact Nat.le_add_right _ _
  case htake => exact fun _ _ => Nat.le_refl _
  case hexpand =>
    intro name c
    rw [Host.direct_expand, pulled_expand]
  case hflag => exact fun _ => Nat.le_refl _

end Context

namespace Descent
open Source (pull)
variable {s : Setting}

/-! The tokens of a text, read from it and from a reel. -/

/-- A place in a parse of a text of `len` characters and the same place in a parse of its tokens.
There are at most `len + 1` tokens with the one that is final, and that is not left behind. -/
structure Abreast (len : Nat) (p : Place String Context) (q : Place String Reel) : Prop where
  token : p.1 = q.1
  passed : q.2.passed = p.2.pulled.map Prod.fst
  ahead : q.2.ahead = p.2.lexer.stream
  started : 0 < p.2.pulled.length
  room : p.2.pulled.length ≤ len + 1
  further : p.1.isFinal = false → p.2.pulled.length + p.2.lexer.unread ≤ len

/-- Rejections are made when the same tokens have been read, unless the text nests too deeply. -/
def reelLink (len : Nat) : Link String Context String Reel where
  tied := Abreast len
  lost x y := y.2.passed = x.2.pulled.map Prod.fst
  cut x := ∃ limit, x.1 = .tooDeep limit
  enough n c := len + 1 < n + c.pulled.length

theorem abreast_read {len : Nat} {c : Context} {r : Reel}
    (hpassed : r.passed = c.pulled.map Prod.fst) (hahead : r.ahead = c.lexer.stream)
    (hroom : c.pulled.length + c.lexer.unread ≤ len) : Abreast len c.read (pull r) := by
  have hstream : r.ahead = .cons c.read.1 c.read.2.lexer.stream := by
    rw [hahead, Lexer.stream_eq]
    rfl
  have hlength : c.read.2.pulled.length = c.pulled.length + 1 := by
    rw [Context.pulled_read, List.length_append]
    rfl
  constructor
  · change c.read.1 = r.ahead.head
    rw [hstream]
    rfl
  · change r.passed ++ [r.ahead.head] = _
    rw [Context.pulled_read, List.map_append, hpassed, hstream]
    rfl
  · change r.ahead.tail = _
    rw [hstream]
    rfl
  · omega
  · omega
  · intro hfinal
    have hless := Lexer.unread_next (l := c.lexer) hfinal
    have hlexer : c.read.2.lexer = c.lexer.next.2 := rfl
    rw [hlength, hlexer]
    omega

theorem Abreast.next {len : Nat} {p : Place String Context} {q : Place String Reel}
    (h : Abreast len p q) (hp : p.1.isFinal = false) : Abreast len p.2.read (pull q.2) :=
  abreast_read h.passed h.ahead (h.further hp)

theorem alike_take_reel {len : Nat} (s : Setting) {kind : TextKind} {t t' : String} {c : Context}
    {r : Reel} (h : Abreast len (.text kind t, c) (.text kind t', r)) :
    (reelLink len).Alike (exec (.direct s) (takeText t) (.text kind t, c))
      (exec (.direct s) (takeText t') (.text kind t', r)) := by
  have htext : t = t' := (Token.text.inj h.token).2
  rw [exec_takeText, exec_takeText, htext]
  exact .ok (h.next rfl)

theorem alike_expand_reel {len : Nat} (s : Setting) (name : String) {p : Place String Context}
    {q : Place String Reel} (h : Abreast len p q) :
    (reelLink len).Alike (exec (.direct s) (attempt (.expand name)) p)
      (exec (.direct s) (attempt (.expand name)) q) := by
  rw [exec_expand, exec_expand]
  unfold Host.direct
  dsimp only
  cases expandName s.resolver name with
  | ok n => exact .ok h
  | error short =>
    refine .error ?_
    change q.2.passed = (Source.unresolved s.resolver short p.2).pulled.map Prod.fst
    rw [Context.pulled_unresolved]
    exact h.passed

theorem lawful_reelLink (len : Nat) (s : Setting) :
    (reelLink len).Lawful (.direct s) (.direct s) where
  shape h := by rw [h.token]
  next hm h := h.next hm
  take h _ := alike_take_reel s h
  name h := (alike_take_reel s h).bind fun name _ _ hq => alike_expand_reel s name hq
  refuse h := h.passed
  number raw h := h.passed
  check name count h := Link.alike_check rfl rfl h fun _ _ => h.passed
  enough_zero h henough := by
    have hroom := h.room
    unfold reelLink at henough
    omega
  enough_next {n c} henough := by
    have hlength := congrArg List.length c.pulled_read
    rw [List.length_append, List.length_singleton] at hlength
    change len + 1 < n + c.read.2.pulled.length
    change len + 1 < n + 1 + c.pulled.length at henough
    omega
  enough_interpret x n c henough := by
    have hle := Context.pulled_interpret s x c
    change len + 1 < n + (x.interpret (.direct s) c).2.pulled.length
    change len + 1 < n + c.pulled.length at henough
    omega

theorem abreast_first {c : Context} (hstart : c.pulled = []) :
    Abreast c.lexer.unread c.read (pull ⟨[], c.lexer.stream⟩) := by
  refine abreast_read ?_ rfl ?_
  · rw [hstart]
    rfl
  · rw [hstart, List.length_nil, Nat.zero_add]

/-- A text of `len` characters cannot tell wider bounds from its own. -/
theorem couples_reel (s : Setting) {len bound limit limit' : Nat} (hbound : len + 1 ≤ bound)
    (hlimit : limit ≤ limit') (levels : List Precedence) :
    (reelLink len).Couples (Host.direct s) (Host.direct s) (nested (len + 1) limit limit levels)
      (nested bound limit' limit' levels) := by
  have hcovers (p : Place String Context) (q : Place String Reel) (h : Abreast len p q) :
      (reelLink len).Covers (len + 1) bound p.2 := by
    have hstarted := h.started
    have henough : len + 1 < len + 1 + p.2.pulled.length := by omega
    exact Or.inr ⟨henough, Nat.lt_of_lt_of_le henough (Nat.add_le_add_right hbound _)⟩
  have hdeep (p : Place String Context) (q : Place String Reel) (_ : Abreast len p q) :
      (reelLink len).cut (.tooDeep limit, p.2) := ⟨limit, rfl⟩
  exact Link.couples_nested_le (lawful_reelLink len s) hcovers hdeep hlimit levels

/-- A rejected parse of a text, with its tokens on a reel and wider bounds, is rejected at the same
token. -/
theorem fails_on_reel {c d : Context} {bound limit limit' : Nat} {r : Rejection}
    (hstart : c.pulled = []) (h : Fails s (whole (c.lexer.unread + 1) limit) c.read r d)
    (hr : ∀ n, r ≠ .tooDeep n) (hbound : c.lexer.unread + 1 ≤ bound) (hlimit : limit ≤ limit') :
    ∃ r' rest, Fails s (whole bound limit') (pull (⟨[], c.lexer.stream⟩ : Reel)) r'
      ⟨d.pulled.map Prod.fst, rest⟩ := by
  have hnested := couples_reel s hbound hlimit Precedence.aboveMinus _ _ (abreast_first hstart)
  have hends := Link.ends_whole (lawful_reelLink c.lexer.unread s) hnested
  unfold Fails at h ⊢
  rw [h] at hends
  generalize exec (Host.direct s) (whole bound limit') (pull (⟨[], c.lexer.stream⟩ : Reel)) = o
    at hends
  cases hends with
  | @error _ r' _ reel hlost =>
    obtain ⟨passed, rest⟩ := reel
    obtain rfl : passed = d.pulled.map Prod.fst := hlost
    exact ⟨r', rest, rfl⟩
  | cut hcut =>
    obtain ⟨n, hn⟩ := hcut
    exact absurd hn (hr n)

/-! What a text has been read by. -/

/-- Every place that reading a text comes to is one at which a token was just read. -/
theorem Passes.exists_read {c : Context} {ts : List (Token String)} {q : Place String Context}
    (h : Passes c.read ts q) :
    ∃ d : Context, q = d.read ∧ d.pulled.map Prod.fst = c.pulled.map Prod.fst ++ ts := by
  induction ts generalizing c with
  | nil =>
    refine ⟨c, (passes_nil.mp h).symm, ?_⟩
    rw [List.append_nil]
  | cons t ts ih =>
    obtain ⟨ht, hrest⟩ := passes_cons.mp h
    obtain ⟨d, hd, hpulled⟩ := ih hrest
    refine ⟨d, hd, ?_⟩
    rw [hpulled, Context.pulled_read, List.map_append, List.append_assoc, ← ht]
    rfl

/-- A rejected input was rejected at a token, for what the token is. Behind the tokens before it an
expression can still go on. -/
theorem stopped_at_token (hs : s.Lenient) {c d : Context} {limit : Nat} {r : Rejection}
    (hstart : c.pulled = []) (hlimit : c.lexer.unread < limit)
    (h : Fails s (whole (c.lexer.unread + 1) limit) c.read r d) :
    ∃ (before : List (Token String × Nat)) (t : Token String) (position : Nat),
      d.pulled = before ++ [(t, position)] ∧ d.lexer.position = position ∧
        r = refusal t position ∧ ∃ more, Forms s .expression (before.map Prod.fst ++ more) := by
  cases whole_stops hs h with
  | @refused ts us q hq hforms =>
    obtain ⟨m, rfl, hpulled⟩ := hq.exists_read
    refine ⟨m.pulled, m.read.1, m.read.2.lexer.position, m.pulled_read, rfl, rfl, us, ?_⟩
    rw [hpulled, hstart]
    exact hforms
  | @tooDeep ts us q limit' hq hforms hle =>
    -- Each level of nesting took a token, and each token a character.
    obtain ⟨e, depth, hderives⟩ := hforms
    have hfinal := (List.forall_mem_append.mp hderives.not_final).1
    have hlength := hq.length_le hfinal
    omega
  | @number ts raw q hq hraw =>
    obtain ⟨m, hm, hnumber⟩ := passes_append.mp hq
    obtain ⟨c', rfl, -⟩ := hm.exists_read
    have hnext : c'.lexer.next.1 = .text .number raw := (passes_cons.mp hnumber).1
    exact absurd hraw (Binary64.ofNumeral?_ne_none (Lexer.isNumeral_of_next hnext))

/-- A rejection with a table of texts is one without, and it leaves all but the table the same. -/
theorem fails_of_run {input : String} {r : Rejection}
    (h : (grammar.run s (.begin input {})).1 = .error r) :
    ∃ d a, Fails s (whole ((Context.begin input {}).lexer.unread + 1) s.options.maxDepth)
        (Context.begin input {}).read r d ∧
      (grammar.run s (.begin input {})).2 = { d with arena := a } := by
  have hmatches := run_grammar_matches (c := .begin input {}) Arena.sound_empty (Nat.zero_le 2)
    (Nat.le_refl 2) (by decide) s
  have hresult := hmatches.result
  have hcontext := hmatches.context
  have hstart : { Context.begin input {} with arena := {} } = Context.begin input {} := rfl
  dsimp only at hresult hcontext
  rw [h, hstart, interpret_grammar] at hresult
  rw [hstart, interpret_grammar] at hcontext
  exact ⟨_, _, map_fst_eq_error.mp hresult.symm, hcontext⟩

/-- With every name bound, no call checked and fewer characters than levels of nesting allowed, an
input is rejected at the earliest token possible. The tokens before it begin an expression. With it,
they begin none, not even where the end is counted as a token. The reason is the error that the
token is, if it is one. Otherwise it tells the kind of the token and the position behind it. -/
theorem grammar_rejects_earliest (s : Setting) (input : String) (resolver : Resolver)
    (hfunctions : s.options.validateFunctions = false) (hresolver : s.resolver = some resolver)
    (hbinds : ∀ short, (resolver.lookup short).isSome = true)
    (hdepth : input.length < s.options.maxDepth) (reason : Rejection)
    (h : (grammar.run s (.begin input {})).1 = .error reason) :
    ∃ (before : List (Token String × Nat)) (t : Token String) (position : Nat),
      (grammar.run s (.begin input {})).2.pulled = before ++ [(t, position)] ∧
      (grammar.run s (.begin input {})).2.lexer.position = position ∧
      (∃ (more : List (Token String)) (e : Expr) (depth : Nat),
        Derives s.resolver s.Allows (.expression e) (before.map Prod.fst ++ more) depth) ∧
      (¬ ∃ (ts : List (Token String)) (e : Expr) (depth : Nat),
        Derives s.resolver s.Allows (.expression e) ts depth ∧
          before.map Prod.fst ++ [t] <+: ts ++ [.mark .endOfInput]) ∧
      (∀ err : LexError, reason = .lex err ↔ t = .mark (.error err)) ∧
      ((∀ err : LexError, t ≠ .mark (.error err)) → reason = .unexpectedToken t.kind position) := by
  have hs := Setting.lenient hfunctions hresolver hbinds
  obtain ⟨d, a, hfails, hrun⟩ := fails_of_run h
  have hunread : (Context.begin input {}).lexer.unread < s.options.maxDepth := by
    rw [← String.length_toList] at hdepth
    exact hdepth
  obtain ⟨before, t, position, hpulled, hposition, rfl, more, hmore⟩ :=
    stopped_at_token hs rfl hunread hfails
  rw [hrun]
  refine ⟨before, t, position, hpulled, hposition, ⟨more, hmore⟩, ?_, ?_, ?_⟩
  · -- The parse of an expression that begins so would read the same tokens and go on.
    rintro ⟨ts, e, depth, hderives, hprefix⟩
    have hbound := Nat.le_max_left ((Context.begin input {}).lexer.unread + 1) (ts.length + 1)
    have hlimit := Nat.le_max_left s.options.maxDepth depth
    obtain ⟨r', rest, hreel⟩ :=
      fails_on_reel rfl hfails (refusal_ne_tooDeep t position) hbound hlimit
    rw [hpulled, List.map_append] at hreel
    exact not_fails_of_derives hderives (Nat.le_max_right _ _) (Nat.le_max_right _ _) hprefix hreel
  · intro err
    exact refusal_eq_lex
  · intro ht
    exact refusal_eq_unexpectedToken ht position

/-- Behind an opening parenthesis and a name, no expression goes on with a closing bracket. -/
theorem grammar_rejects_earliest_bracket :
    let s : Setting :=
      { resolver := some { lookup := some }
        options := { validateFunctions := false, maxDepth := 8 } }
    s.options.validateFunctions = false ∧ s.resolver = some { lookup := some } ∧
      (∀ short, (({ lookup := some } : Resolver).lookup short).isSome = true) ∧
      "(p:a]".length < s.options.maxDepth ∧
      (grammar.run s (.begin "(p:a]" {})).1 = .error (.unexpectedToken .rightBracket 5) ∧
      ¬ ∃ (ts : List (Token String)) (e : Expr) (depth : Nat),
        Derives s.resolver s.Allows (.expression e) ts depth ∧
          [.mark .leftParen, .text .nameTest "p:a", .mark .rightBracket] <+:
            ts ++ [.mark .endOfInput] := by
  intro s
  have hreason : (grammar.run s (.begin "(p:a]" {})).1 =
      .error (.unexpectedToken .rightBracket 5) := rfl
  have hpulled : (grammar.run s (.begin "(p:a]" {})).2.pulled =
      [(.mark .leftParen, 1), (.text .nameTest "p:a", 4)] ++ [(.mark .rightBracket, 5)] := by
    decide +kernel
  have hbinds (short : String) : (({ lookup := some } : Resolver).lookup short).isSome = true := rfl
  have hdepth : "(p:a]".length < s.options.maxDepth := by decide
  obtain ⟨before, t, position, hall, -, -, hnone, -⟩ :=
    grammar_rejects_earliest s "(p:a]" { lookup := some } rfl rfl hbinds hdepth _ hreason
  rw [hpulled] at hall
  obtain ⟨rfl, hlast⟩ := List.append_inj' hall rfl
  obtain ⟨rfl, -⟩ := Prod.mk.inj (List.cons.inj hlast).1
  exact ⟨rfl, rfl, hbinds, hdepth, hreason, hnone⟩

end Descent
end XPath
