import XPath.Proofs.Descent.Exactness
import XPath.Proofs.Parser

/-! Names that cannot be resolved. A resolver that finds more changes nothing but what becomes of the
first name test that the other cannot expand, and nothing but the names of name tests is looked up. -/
namespace XPath

/-- The part before the colon of a name test that has one. -/
def Token.short? : Token String → Option String
  | .text .nameTest name => (splitQName name.toList).map fun parts => String.ofList parts.1
  | _ => none

/-- The first name among the tokens that is looked up without success. -/
def firstUnbound (resolver : Option Resolver) (ts : List (Token String)) : Option String :=
  (ts.filterMap Token.short?).find? fun short => (resolver.bind (·.lookup short)).isNone

/-- For these names, `wide` finds all that `resolver` finds. -/
def Widens (resolver wide : Option Resolver) (names : List String) : Prop :=
  ∀ short ∈ names, ∀ uri, resolver.bind (·.lookup short) = some uri →
    wide.bind (·.lookup short) = some uri

/-- The class of the errors with this reason. -/
def Rejection.failure : Rejection → ErrorClass
  | unresolved _ => .namespaces
  | _ => .grammatical

theorem Rejection.failure_eq_namespaces {r : Rejection} :
    r.failure = .namespaces ↔ ∃ short, r = .unresolved short := by
  cases r <;> simp [failure]

theorem firstUnbound_append (resolver : Option Resolver) (ts us : List (Token String)) :
    firstUnbound resolver (ts ++ us) = (firstUnbound resolver ts).or (firstUnbound resolver us) := by
  unfold firstUnbound
  rw [List.filterMap_append, List.find?_append]

theorem firstUnbound_of_short {resolver : Option Resolver} {t : Token String}
    (h : t.short? = none) : firstUnbound resolver [t] = none := by
  unfold firstUnbound
  rw [List.filterMap_cons_none h]
  rfl

theorem firstUnbound_eq_some {resolver : Option Resolver} {ts : List (Token String)} {short : String}
    (h : firstUnbound resolver ts = some short) :
    short ∈ ts.filterMap Token.short? ∧ resolver.bind (·.lookup short) = none := by
  have hfound := List.find?_some h
  exact ⟨List.mem_of_find?_eq_some h, Option.isNone_iff_eq_none.mp hfound⟩

/-- What becomes of a name depends on a resolver only by what it finds for the part before the
colon. -/
theorem expandName_cases (name : String) :
    ((Token.text .nameTest name).short? = none ∧
      ∀ resolver, expandName resolver name = .ok ⟨name, none⟩) ∨
    ∃ short localName, (Token.text .nameTest name).short? = some short ∧
      ∀ resolver : Option Resolver,
        (∀ uri, resolver.bind (·.lookup short) = some uri →
          expandName resolver name = .ok ⟨localName, some uri⟩) ∧
        (resolver.bind (·.lookup short) = none → expandName resolver name = .error short) := by
  unfold expandName Token.short?
  dsimp only
  cases splitQName name.toList with
  | none => exact Or.inl ⟨rfl, fun _ => rfl⟩
  | some parts =>
    refine Or.inr ⟨String.ofList parts.1, String.ofList parts.2, rfl, fun resolver => ⟨?_, ?_⟩⟩
    · intro uri huri
      dsimp only
      rw [huri]
    · intro hnone
      dsimp only
      rw [hnone]

/-- A name is expanded unless its part before the colon is looked up without success. -/
theorem firstUnbound_name (resolver : Option Resolver) (name : String) :
    firstUnbound resolver [.text .nameTest name] =
      match expandName resolver name with
      | .ok _ => none
      | .error short => some short := by
  rcases expandName_cases name with ⟨hshort, hname⟩ | ⟨short, localName, hshort, hname⟩
  · rw [hname]
    exact firstUnbound_of_short hshort
  · obtain ⟨hfound, hmissing⟩ := hname resolver
    unfold firstUnbound
    rw [List.filterMap_cons_some hshort, List.filterMap_nil, List.find?_singleton]
    cases hlookup : resolver.bind (·.lookup short) with
    | none => rw [hmissing hlookup]; rfl
    | some uri => rw [hfound uri hlookup]; rfl

/-- Whatever can be expanded is expanded in the same way by a wider resolver. -/
theorem Widens.expandName {resolver wide : Option Resolver} {names : List String} {name : String}
    {n : ExpandedName} (h : Widens resolver wide names)
    (hmem : ∀ short, (Token.text .nameTest name).short? = some short → short ∈ names)
    (hn : expandName resolver name = .ok n) : XPath.expandName wide name = .ok n := by
  rcases expandName_cases name with ⟨-, hname⟩ | ⟨short, localName, hshort, hname⟩
  · rw [hname] at hn ⊢
    exact hn
  · cases hlookup : resolver.bind (·.lookup short) with
    | none =>
      rw [(hname resolver).2 hlookup] at hn
      cases hn
    | some uri =>
      have hwide := h short (hmem short hshort) uri hlookup
      rw [(hname resolver).1 uri hlookup] at hn
      rw [(hname wide).1 uri hwide]
      exact hn

/-- What cannot be expanded by one resolver cannot by another one either, or that one finds the part
before the colon. -/
theorem expandName_of_error {resolver : Option Resolver} {name short : String}
    (h : expandName resolver name = .error short) (other : Option Resolver) :
    expandName other name = .error short ∨ ∃ uri, other.bind (·.lookup short) = some uri := by
  rcases expandName_cases name with ⟨-, hname⟩ | ⟨short', localName, -, hname⟩
  · rw [hname] at h
    cases h
  · cases hlookup : resolver.bind (·.lookup short') with
    | some uri =>
      rw [(hname resolver).1 uri hlookup] at h
      cases h
    | none =>
      rw [(hname resolver).2 hlookup] at h
      obtain rfl := Except.error.inj h
      cases hother : other.bind (·.lookup short') with
      | none => exact Or.inl ((hname other).2 hother)
      | some uri => exact Or.inr ⟨uri, rfl⟩

namespace Descent

/-- The same place in two parses of the tokens `ts` that differ in how they resolve names. The first
one could expand all name tests up to here. -/
structure Matched (resolver : Option Resolver) (ts : List (Token String))
    (p q : Place String Context) : Prop where
  token : p.1 = q.1
  lexer : p.2.lexer = q.2.lexer
  calm : p.2.namespaceErrorSeen = false
  passed : ∃ passed, firstUnbound resolver passed = none ∧
    ts = passed ++ p.1 :: if p.1.isFinal then [] else p.2.lexer.tokens.map Prod.fst

/-- A rejection for a name is one for the first that cannot be resolved, and the parse remembers it if
and only if it is one. -/
inductive Judged (resolver : Option Resolver) (ts : List (Token String)) : Rejection × Context → Prop
  | names {short : String} {c : Context} (hfirst : firstUnbound resolver ts = some short)
      (hseen : c.namespaceErrorSeen = true) : Judged resolver ts (.unresolved short, c)
  | other {r : Rejection} {c : Context} (hr : r.failure = .grammatical)
      (hseen : c.namespaceErrorSeen = false) : Judged resolver ts (r, c)

/-- The parse that finds more is rejected for the same reason, or else finds the name for which the
other one was rejected. -/
def namesLink (resolver wide : Option Resolver) (ts : List (Token String)) :
    Link String Context String Context where
  tied := Matched resolver ts
  lost x y := x.1 = y.1 ∧ Judged resolver ts x
  cut x := Judged resolver ts x ∧
    ∃ short uri, x.1 = .unresolved short ∧ wide.bind (·.lookup short) = some uri

section
variable {resolver wide : Option Resolver} {ts : List (Token String)} {p q : Place String Context}

/-- A token is read when all name tests among the tokens before it could be expanded. -/
theorem matched_read {c c' : Context} {passed : List (Token String)} (hlexer : c.lexer = c'.lexer)
    (hcalm : c.namespaceErrorSeen = false) (hpassed : firstUnbound resolver passed = none)
    (hts : ts = passed ++ c.lexer.tokens.map Prod.fst) : Matched resolver ts c.read c'.read := by
  constructor
  · show c.lexer.next.1 = c'.lexer.next.1
    rw [hlexer]
  · show c.lexer.next.2 = c'.lexer.next.2
    rw [hlexer]
  · exact hcalm
  · refine ⟨passed, hpassed, hts.trans ?_⟩
    rw [Lexer.map_tokens]
    rfl

/-- The next token follows a token with no name to look up, or with one that was found. -/
theorem Matched.next (h : Matched resolver ts p q) (hfinal : p.1.isFinal = false)
    (hbound : firstUnbound resolver [p.1] = none) : Matched resolver ts p.2.read q.2.read := by
  obtain ⟨passed, hpassed, hts⟩ := h.passed
  have hpassed' : firstUnbound resolver (passed ++ [p.1]) = none := by
    rw [firstUnbound_append, hpassed, hbound]
    rfl
  apply matched_read h.lexer h.calm hpassed'
  rw [hts, hfinal, List.append_assoc]
  rfl

/-- At a name that cannot be resolved, it is the first such name. -/
theorem Matched.firstUnbound {short : String} (h : Matched resolver ts p q)
    (hshort : firstUnbound resolver [p.1] = some short) :
    XPath.firstUnbound resolver ts = some short := by
  obtain ⟨passed, hpassed, hts⟩ := h.passed
  rw [hts, ← List.singleton_append, firstUnbound_append, firstUnbound_append, hpassed, hshort]
  rfl

theorem Matched.mem (h : Matched resolver ts p q) : p.1 ∈ ts := by
  obtain ⟨passed, -, hts⟩ := h.passed
  rw [hts]
  exact List.mem_append_right _ List.mem_cons_self

/-- All other reasons to reject leave no trace of a name that cannot be resolved. -/
theorem Matched.lost (h : Matched resolver ts p q) {r : Rejection}
    (hr : r.failure = .grammatical) : (namesLink resolver wide ts).lost (r, p.2) (r, q.2) :=
  ⟨rfl, .other hr h.calm⟩

theorem exec_expandText (s : Setting) (name : String) (c : Context) :
    exec (.direct s) (expandText name) (.text .nameTest name, c) =
      match expandName s.resolver name with
      | .ok n => (.ok (n, c.read.1), c.read.2)
      | .error short =>
        (.error (.unresolved short), Source.unresolved s.resolver short c.read.2) := by
  unfold expandText
  rw [exec_bind, exec_takeText]
  show exec (.direct s) (attempt (.expand name)) (c.read.1, c.read.2) = _
  rw [exec_expand]
  unfold Host.direct
  dsimp only
  cases expandName s.resolver name <;> rfl

end

theorem failure_refusal (t : Token String) (position : Nat) :
    (refusal t position).failure = .grammatical := by
  unfold refusal
  split <;> rfl

theorem failure_check {s : Setting} {name : String} {count : Nat} {r : Rejection}
    (h : s.check name count = .error r) : r.failure = .grammatical := by
  rcases cause_of_check h with rfl | ⟨expected, rfl⟩ <;> rfl

section
variable {s : Setting} {wide : Option Resolver} {ts : List (Token String)}

/-- A name test is expanded alike, or it is the first that the first parse cannot expand. -/
theorem alike_name (hwide : Widens s.resolver wide (ts.filterMap Token.short?)) {t t' : String}
    {c c' : Context}
    (h : Matched s.resolver ts (.text .nameTest t, c) (.text .nameTest t', c')) :
    (namesLink s.resolver wide ts).Alike
      (exec (.direct s) (expandText t) (.text .nameTest t, c))
      (exec (.direct { s with resolver := wide }) (expandText t') (.text .nameTest t', c')) := by
  obtain rfl : t = t' := (Token.text.inj h.token).2
  rw [exec_expandText, exec_expandText]
  have hmem (short : String) (hshort : (Token.text .nameTest t).short? = some short) :
      short ∈ ts.filterMap Token.short? := List.mem_filterMap.mpr ⟨_, h.mem, hshort⟩
  have hname := firstUnbound_name s.resolver t
  cases hexpand : expandName s.resolver t with
  | ok n =>
    rw [hexpand] at hname
    rw [hwide.expandName hmem hexpand]
    exact .ok (h.next rfl hname)
  | error short =>
    rw [hexpand] at hname
    have hjudged : Judged s.resolver ts
        (.unresolved short, Source.unresolved s.resolver short c.read.2) :=
      .names (h.firstUnbound hname) rfl
    rcases expandName_of_error hexpand wide with hwider | ⟨uri, huri⟩
    · rw [hwider]
      exact .error ⟨rfl, hjudged⟩
    · exact .cut ⟨hjudged, short, uri, rfl, huri⟩

theorem lawful_namesLink (hwide : Widens s.resolver wide (ts.filterMap Token.short?)) :
    (namesLink s.resolver wide ts).Lawful (.direct s) (.direct { s with resolver := wide }) where
  shape h := by rw [h.token]
  next hm h := h.next hm (firstUnbound_of_short rfl)
  take {kind t t' c c'} h hkind := by
    have hshort : (Token.text kind t).short? = none := by
      cases kind with
      | nameTest => exact absurd rfl hkind
      | _ => rfl
    have htext : t = t' := (Token.text.inj h.token).2
    rw [exec_takeText, exec_takeText, htext]
    exact .ok (h.next rfl (firstUnbound_of_short hshort))
  name h := alike_name hwide h
  refuse {p q} h := by
    have hview : q.2.lexer.position = p.2.lexer.position := by rw [h.lexer]
    show (namesLink s.resolver wide ts).lost (refusal p.1 p.2.lexer.position, p.2)
      (refusal q.1 q.2.lexer.position, q.2)
    rw [← h.token, hview]
    exact h.lost (failure_refusal _ _)
  number raw h := h.lost rfl
  check name count h := Link.alike_check (s := s) rfl rfl h fun r hr => h.lost (failure_check hr)
  enough_zero _ henough := henough
  enough_next henough := henough
  enough_interpret _ _ _ henough := henough

/-- A whole parse, and the same with a resolver that finds more: the same tree, if all names are found,
or the same reason, or a name that only the wider resolver finds. -/
inductive Settled (resolver wide : Option Resolver) (ts : List (Token String)) :
    Except Rejection Expr × Context → Except Rejection Expr × Context → Prop
  | ok {e : Expr} {c c' : Context} (h : firstUnbound resolver ts = none) :
      Settled resolver wide ts (.ok e, c) (.ok e, c')
  | error {r : Rejection} {c c' : Context} (h : Judged resolver ts (r, c)) :
      Settled resolver wide ts (.error r, c) (.error r, c')
  | cut {short uri : String} {c : Context} {y : Except Rejection Expr × Context}
      (h : Judged resolver ts (.unresolved short, c))
      (huri : wide.bind (·.lookup short) = some uri) :
      Settled resolver wide ts (.error (.unresolved short), c) y

theorem settled_of_ends {o o' : Outcome String Context Expr}
    (h : (namesLink s.resolver wide ts).Ends (.direct s) (.direct { s with resolver := wide }) o o') :
    Settled s.resolver wide ts (o.1.map Prod.fst, o.2) (o'.1.map Prod.fst, o'.2) := by
  cases h with
  | ok h =>
    obtain ⟨passed, hpassed, hall⟩ := h.passed
    apply Settled.ok
    rw [hall, firstUnbound_append, hpassed]
    rfl
  | error h =>
    obtain ⟨rfl, hjudged⟩ := h
    exact .error hjudged
  | cut h =>
    obtain ⟨hjudged, short, uri, rfl, huri⟩ := h
    exact .cut hjudged huri

theorem settled_grammar (c c' : Context) (hlexer : c.lexer = c'.lexer)
    (hcalm : c.namespaceErrorSeen = false) (hts : c.lexer.tokens.map Prod.fst = ts)
    (hwide : Widens s.resolver wide (ts.filterMap Token.short?)) :
    Settled s.resolver wide ts (grammar.interpret (.direct s) c)
      (grammar.interpret (.direct { s with resolver := wide }) c') := by
  have law := lawful_namesLink hwide
  have hnone : firstUnbound s.resolver [] = none := rfl
  have hfirst : Matched s.resolver ts c.read c'.read := matched_read hlexer hcalm hnone hts.symm
  have hbound (p q : Place String Context) (_ : Matched s.resolver ts p q) :
      (namesLink s.resolver wide ts).Covers (c.lexer.unread + 1) (c'.lexer.unread + 1) p.2 :=
    Or.inl (by rw [hlexer])
  have hdeep (p q : Place String Context) (h : Matched s.resolver ts p q) :
      (namesLink s.resolver wide ts).lost (.tooDeep s.options.maxDepth, p.2)
        (.tooDeep s.options.maxDepth, q.2) := h.lost rfl
  have hnested := Link.couples_nested law hbound hdeep s.options.maxDepth Precedence.aboveMinus
    c.read c'.read hfirst
  rw [interpret_grammar, interpret_grammar]
  exact settled_of_ends (Link.ends_whole law hnested)

end
end Descent

namespace Parser

/-- What callers see of a parse, and what the grammar makes of the text when more names are found. -/
inductive Seen (resolver wide : Option Resolver) (statement : String) :
    Except ParseError Expr → Except Rejection Expr → Prop
  | tree {e : Expr} (h : firstUnbound resolver (tokenize statement) = none) :
      Seen resolver wide statement (.ok e) (.ok e)
  | reason {r : Rejection} (hr : r.failure = .grammatical) :
      Seen resolver wide statement (.error ⟨.grammatical, statement, r⟩) (.error r)
  | name {short : String} {y : Except Rejection Expr}
      (h : firstUnbound resolver (tokenize statement) = some short)
      (hy : y = .error (.unresolved short) ∨ ∃ uri, wide.bind (·.lookup short) = some uri) :
      Seen resolver wide statement (.error ⟨.namespaces, statement, .unresolved short⟩) y

theorem seen_outcome (s : Setting) (wide : Option Resolver) (statement : String)
    (hwide : Widens s.resolver wide ((tokenize statement).filterMap Token.short?)) :
    Seen s.resolver wide statement (outcome s statement)
      (Descent.parse { s with resolver := wide } statement) := by
  have hsettled := Descent.settled_grammar
    { Context.begin statement {} with log := [.parsing statement] } (Context.begin statement {})
    rfl rfl rfl hwide
  rw [Descent.parse_eq_interpret]
  unfold outcome
  dsimp only
  generalize Descent.grammar.interpret (.direct s : Host String Context) _ = x at hsettled ⊢
  generalize Descent.grammar.interpret (.direct { s with resolver := wide } : Host String Context) _
    = y at hsettled ⊢
  cases hsettled with
  | ok h => exact .tree h
  | error h =>
    cases h with
    | names hfirst hseen =>
      simp only [hseen, if_true]
      exact .name hfirst (Or.inl rfl)
    | other hr hseen =>
      simp only [hseen, Bool.false_eq_true, if_false]
      exact .reason hr
  | cut h huri =>
    cases h with
    | names hfirst hseen =>
      simp only [hseen, if_true]
      exact .name hfirst (Or.inr ⟨_, huri⟩)
    | other hr => cases hr

/-- When no more names are found, the class of an error tells no more than its reason. -/
theorem Seen.eq_mapError {resolver other : Option Resolver} {statement : String}
    {x : Except ParseError Expr} {y : Except Rejection Expr}
    (h : Seen resolver other statement x y)
    (hsame : ∀ short ∈ (tokenize statement).filterMap Token.short?,
      resolver.bind (·.lookup short) = other.bind (·.lookup short)) :
    x = y.mapError fun r => ⟨r.failure, statement, r⟩ := by
  cases h with
  | tree => rfl
  | reason hr =>
    rw [← hr]
    rfl
  | name hfirst hy =>
    rcases hy with rfl | ⟨uri, huri⟩
    · rfl
    · obtain ⟨hmem, hnone⟩ := firstUnbound_eq_some hfirst
      rw [← hsame _ hmem, hnone] at huri
      cases huri

theorem outcome_eq_parse (s : Setting) (statement : String) :
    outcome s statement =
      (Descent.parse s statement).mapError fun r => ⟨r.failure, statement, r⟩ :=
  (seen_outcome s s.resolver statement fun _ _ _ h => h).eq_mapError fun _ _ => rfl

/-- Names other than those of name tests are not looked up. -/
theorem outcome_congr (s : Setting) (other : Option Resolver) (statement : String)
    (h : ∀ short ∈ (tokenize statement).filterMap Token.short?,
      s.resolver.bind (·.lookup short) = other.bind (·.lookup short)) :
    outcome { s with resolver := other } statement = outcome s statement := by
  have hwide : Widens s.resolver other ((tokenize statement).filterMap Token.short?) := by
    intro short hmem uri huri
    rw [← h short hmem, huri]
  have hseen := seen_outcome s other statement hwide
  rw [outcome_eq_parse { s with resolver := other }]
  exact (hseen.eq_mapError h).symm

theorem idle_unused (options : Options) (functions : Registry) :
    ({ options, functions, memory := () } : Parser Unit).Idle where
  sound := Arena.sound_empty
  live := rfl
  size_le := Nat.zero_le 2

/-- A parse with a resolver against what the grammar makes of the text with any resolver that also
finds what this one finds. If that is a tree, so is this, unless a name test cannot be resolved, and
then the error is for the first one. If that is a rejection, this is one for the same reason, or one
for the first name test that cannot be resolved. The class of an error is that of names if and only if
its reason is, and a resolver that finds the same for the names of name tests gives the same result,
whatever it finds for other names. -/
theorem parse_resolver (options : Options) (functions : Registry) (uses : List Use)
    (statement : String) (resolver : Option Resolver) :
    let p := ({ options, functions, memory := () } : Parser Unit).after uses
    let names := (tokenize statement).filterMap Token.short?
    let result := (p.parse statement resolver).result
    (∀ wide : Resolver,
      (∀ short uri, resolver.bind (·.lookup short) = some uri → wide.lookup short = some uri) →
      (∀ e, Descent.parse (p.setting (some wide)) statement = .ok e →
        (firstUnbound resolver (tokenize statement) = none → result = .ok e) ∧
        ∀ short, firstUnbound resolver (tokenize statement) = some short →
          result = .error ⟨.namespaces, statement, .unresolved short⟩) ∧
      ∀ r, Descent.parse (p.setting (some wide)) statement = .error r →
        result = .error ⟨.grammatical, statement, r⟩ ∨
          ∃ short, firstUnbound resolver (tokenize statement) = some short ∧
            result = .error ⟨.namespaces, statement, .unresolved short⟩) ∧
    (∀ err, result = .error err →
      (err.failure = .namespaces ↔ ∃ short, err.reason = .unresolved short)) ∧
    (∀ other : Option Resolver,
      (∀ short ∈ names, resolver.bind (·.lookup short) = other.bind (·.lookup short)) →
      (p.parse statement other).result = result) := by
  intro p names result
  have hidle : p.Idle := (idle_unused options functions).after uses
  have hresult : result = outcome (p.setting resolver) statement := (hidle.parse statement resolver).1
  refine ⟨?_, ?_, ?_⟩
  · intro wide hwide
    have hseen : Seen resolver (some wide) statement result
        (Descent.parse (p.setting (some wide)) statement) := by
      rw [hresult]
      exact seen_outcome (p.setting resolver) (some wide) statement fun short _ => hwide short
    generalize Descent.parse (p.setting (some wide)) statement = free at hseen ⊢
    generalize result = x at hseen ⊢
    cases hseen with
    | tree h => simp [h]
    | reason => simp
    | name h => simp [h]
  · intro err herr
    rw [hresult, outcome_eq_parse] at herr
    cases hparse : Descent.parse (p.setting resolver) statement with
    | ok e =>
      rw [hparse] at herr
      cases herr
    | error r =>
      rw [hparse] at herr
      obtain rfl := Except.error.inj herr
      exact Rejection.failure_eq_namespaces
  · intro other hother
    rw [(hidle.parse statement other).1, hresult]
    exact outcome_congr (p.setting resolver) other statement hother

/-- Of three names with a colon, only the second is looked up without success: the first is found, and
the third is that of a variable. -/
theorem parse_resolver_second_name :
    let resolver : Resolver := .firstOf [("a", "urn:a")]
    let wide : Resolver := { lookup := fun short => some ("urn:" ++ short) }
    let p := ({ options := {}, functions := .core, memory := () } : Parser Unit).after []
    (∀ short uri, (some resolver).bind (·.lookup short) = some uri →
        wide.lookup short = some uri) ∧
      (∃ e, Descent.parse (p.setting (some wide)) "a:b[c:d = $e:f]" = .ok e) ∧
      firstUnbound (some resolver) (tokenize "a:b[c:d = $e:f]") = some "c" ∧
      (p.parse "a:b[c:d = $e:f]" (some resolver)).result =
        .error ⟨.namespaces, "a:b[c:d = $e:f]", .unresolved "c"⟩ := by
  intro resolver wide p
  have hwide (short uri : String) (h : (some resolver).bind (·.lookup short) = some uri) :
      wide.lookup short = some uri := by
    have hfound : [("a", "urn:a")].lookup short = some uri := h
    rw [List.lookup_cons] at hfound
    cases hshort : short == "a" with
    | true =>
      have huri : "urn:a" = uri := by simpa [hshort] using hfound
      rw [← huri, eq_of_beq hshort]
      rfl
    | false => simp [hshort] at hfound
  have hfirst : firstUnbound (some resolver) (tokenize "a:b[c:d = $e:f]") = some "c" := by
    decide +kernel
  have hok : (Descent.parse (p.setting (some wide)) "a:b[c:d = $e:f]").isOk = true := by
    decide +kernel
  obtain ⟨hresult, -, -⟩ := parse_resolver {} .core [] "a:b[c:d = $e:f]" (some resolver)
  cases hparse : Descent.parse (p.setting (some wide)) "a:b[c:d = $e:f]" with
  | error r =>
    rw [hparse] at hok
    cases hok
  | ok e =>
    have herror := ((hresult wide hwide).1 e hparse).2 "c" hfirst
    exact ⟨hwide, ⟨e, rfl⟩, hfirst, herror⟩

end Parser
end XPath
