import XPath.Proofs.Deeds
import XPath.Proofs.Descent.Coupling
import XPath.Proofs.Descent.Handles
import XPath.Proofs.Lexer

/-! Whose the texts in the table are. A parse by the grammar leaves alone what it finds there, takes
out what it puts there, and does what it does whatever it finds. -/
namespace XPath
open Arena

/-- A table that holds what `base` holds and at most two texts more. -/
structure Arena.Extends (base a : Arena) : Prop where
  get {g : Handle} {s : String} (hg : base.get? g = some s) : a.get? g = some s
  live_le : a.live ≤ base.live + 2

theorem Arena.Holds.get {base a : Arena} {t : Token Handle} {t' : Token String}
    (h : base.Holds a t t') {g : Handle} {s : String} (hg : base.get? g = some s) :
    a.get? g = some s := by
  cases h with
  | mark get live => rw [get, hg]
  | @text _ h' s' fresh get live =>
    have hne : g ≠ h' := by
      rintro rfl
      rw [hg] at fresh
      cases fresh
    rw [get, if_neg hne, hg]

theorem Arena.Holds.trans {base a b : Arena} {t u : Token Handle} {t' u' : Token String}
    (ha : base.Holds a t t') (hb : a.Holds b u u') : base.Extends b := by
  have hle := ha.live_le
  have hle' := hb.live_le
  exact ⟨fun hg => hb.get (ha.get hg), by omega⟩

theorem Arena.Holds.extends {base a : Arena} {t : Token Handle} {t' : Token String}
    (h : base.Holds a t t') : base.Extends a :=
  ⟨h.get, Nat.le_succ_of_le h.live_le⟩

namespace Descent

/-- The table never lost what `base` holds and never held more than two texts besides. -/
structure Accounts (base a : Arena) (ds : List Deed) : Prop where
  arena : a = base.after (Deed.calls ds)
  moments : ∀ es, es <+: ds → base.Extends (base.after (Deed.calls es))

theorem Accounts.snoc {base a b : Arena} {ds : List Deed} {d : Deed} (h : Accounts base a ds)
    (hb : b = a.after (Deed.calls [d])) (hextends : base.Extends b) :
    Accounts base b (ds ++ [d]) := by
  have harena : b = base.after (Deed.calls (ds ++ [d])) := by
    rw [Deed.calls_append, Arena.after_append, ← h.arena, hb]
  constructor
  · exact harena
  · intro es hes
    rcases List.prefix_concat_iff.mp hes with rfl | hes
    · rw [← harena]
      exact hextends
    · exact h.moments es hes

/-- All texts that came in have been taken again, except that of the token pulled last. -/
def Owes (ds : List Deed) (t : Token (Handle × String)) : Prop :=
  (∃ earlier, Deed.tokens ds = earlier ++ [t]) ∧
    Deed.registered ds = Deed.released ds ++ t.payload?.toList

theorem Owes.pull {ds : List Deed} {m : Mark} (h : Owes ds (.mark m))
    (t : Token (Handle × String)) : Owes (ds ++ [.pulled t]) t := by
  obtain ⟨⟨earlier, htokens⟩, hregistered⟩ := h
  constructor
  · refine ⟨earlier ++ [.mark m], ?_⟩
    rw [Deed.tokens_append, htokens]
    rfl
  · rw [Deed.registered_append, Deed.released_append, hregistered, Deed.registered_pulled]
    rfl

theorem Owes.expand {ds : List Deed} {t : Token (Handle × String)} (h : Owes ds t) (name : String)
    (answer : Except Rejection ExpandedName) : Owes (ds ++ [.expanded name answer]) t := by
  obtain ⟨⟨earlier, htokens⟩, hregistered⟩ := h
  constructor
  · refine ⟨earlier, ?_⟩
    rw [Deed.tokens_append, htokens]
    exact List.append_nil _
  · have hregister : Deed.registered [.expanded name answer] = [] := rfl
    have hrelease : Deed.released [.expanded name answer] = [] := rfl
    rw [Deed.registered_append, Deed.released_append, hregister, hrelease, List.append_nil,
      List.append_nil, hregistered]

theorem Owes.take {ds : List Deed} {kind : TextKind} {g : Handle} {s : String}
    (h : Owes ds (.text kind (g, s))) (t : Token (Handle × String)) :
    Owes (ds ++ [.pulled t] ++ [.took g (.ok s)]) t := by
  obtain ⟨⟨earlier, htokens⟩, hregistered⟩ := h
  constructor
  · refine ⟨earlier ++ [.text kind (g, s)], ?_⟩
    rw [Deed.tokens_append, Deed.tokens_append, htokens]
    exact List.append_nil _
  · have hregister : Deed.registered [.took g (.ok s)] = [] := rfl
    have hrelease : Deed.released [.pulled t] = [] := rfl
    have htake : Deed.released [.took g (.ok s)] = [(g, s)] := rfl
    simp only [Deed.registered_append, Deed.released_append, hregistered, Deed.registered_pulled,
      hregister, hrelease, htake, List.append_nil, List.append_assoc]
    rfl

/-- A place in a parse with a journal and the same place in a parse without a table. -/
structure Journaled (base : Arena) (cap : Nat) (p : Place Handle (Context × List Deed))
    (q : Place String Context) : Prop where
  tied : Tied base cap (p.1, p.2.1) q
  accounts : Accounts base p.2.1.arena p.2.2
  last : ∃ t, t.map Prod.fst = p.1 ∧ t.map Prod.snd = q.1 ∧ Owes p.2.2 t

/-- Rejections are the same, no text is missed, and the places are tied at which they are made. -/
def journalLink (base : Arena) (cap : Nat) : Link Handle (Context × List Deed) String Context where
  tied := Journaled base cap
  lost x y := x.1 = y.1 ∧ (∀ g, x.1 ≠ .unregistered g) ∧
    ∃ t t', Journaled base cap (t, x.2) (t', y.2)

section
variable {base : Arena} {cap : Nat}

/-- The next token is pulled while the text of the current one may still be there. -/
theorem Journaled.ahead {t : Token Handle} {t' : Token String} {c c' : Context} {ds : List Deed}
    (hbase : base.live + 2 ≤ cap) (hcap : cap ≤ UInt32.size)
    (h : Journaled base cap (t, c, ds) (t', c')) :
    Accounts base c.next.2.arena (ds ++ [.pulled c.upcoming]) := by
  have hnext := h.tied.ahead hbase hcap
  have harena := Action.arena_run {} .next c
  exact h.accounts.snoc harena (h.tied.holds.trans hnext.holds)

theorem Journaled.next {m : Mark} {c c' : Context} {ds : List Deed}
    (hbase : base.live + 2 ≤ cap) (hcap : cap ≤ UInt32.size)
    (h : Journaled base cap (.mark m, c, ds) (.mark m, c')) :
    Journaled base cap (c.next.1, c.next.2, ds ++ [.pulled c.upcoming]) c'.read := by
  obtain ⟨u, hu, -, howes⟩ := h.last
  have hlexer : c.lexer = c'.lexer := h.tied.lexer
  have hread : c'.read.1 = c'.lexer.next.1 := rfl
  obtain rfl : u = .mark m := by
    cases u with
    | mark m' => exact congrArg Token.mark (Token.mark.inj hu)
    | text kind p => cases hu
  constructor
  · exact h.tied.next hbase hcap
  · exact h.ahead hbase hcap
  · refine ⟨c.upcoming, c.upcoming_fst, ?_, howes.pull _⟩
    rw [c.upcoming_snd, hread, hlexer]

theorem Journaled.take {kind : TextKind} {g : Handle} {s' : String} {c c' : Context}
    {ds : List Deed} (hbase : base.live + 2 ≤ cap) (hcap : cap ≤ UInt32.size)
    (h : Journaled base cap (.text kind g, c, ds) (.text kind s', c')) :
    Journaled base cap (c.next.1, { c.next.2 with arena := c.next.2.arena.without g },
      ds ++ [.pulled c.upcoming] ++ [.took g (.ok s')]) c'.read := by
  obtain ⟨u, hu, hu', howes⟩ := h.last
  have hlexer : c.lexer = c'.lexer := h.tied.lexer
  have hread : c'.read.1 = c'.lexer.next.1 := rfl
  obtain ⟨htake, hafter⟩ := h.tied.take hbase hcap
  obtain rfl : u = .text kind (g, s') := by
    cases u with
    | mark m' => cases hu
    | text kind' p =>
      cases hu
      cases hu'
      rfl
  have harena := Action.arena_run {} (.take g) c.next.2
  have hrun : (Action.take g).run {} c.next.2 = c.next.2.take g := rfl
  rw [hrun, htake] at harena
  constructor
  · exact hafter
  · exact (h.ahead hbase hcap).snoc harena hafter.holds.extends
  · refine ⟨c.upcoming, c.upcoming_fst, ?_, howes.take _⟩
    rw [c.upcoming_snd, hread, hlexer]

theorem Journaled.expand {p : Place Handle (Context × List Deed)} {q : Place String Context}
    (h : Journaled base cap p q) (resolver : Option Resolver) (name : String)
    (answer : Except Rejection ExpandedName) :
    Journaled base cap
      (p.1, (p.2.1.expand resolver name).2, p.2.2 ++ [.expanded name answer])
      (q.1, (q.2.expand resolver name).2) := by
  obtain ⟨-, harena, hafter⟩ := h.tied.expand resolver name
  obtain ⟨t, ht, ht', howes⟩ := h.last
  have hextends := hafter.holds.extends
  constructor
  · exact hafter
  · exact h.accounts.snoc harena hextends
  · exact ⟨t, ht, ht', howes.expand name answer⟩

end

/-- The text of a token is there to be taken, and the journal says what was done. -/
theorem alike_take_journal {base : Arena} {cap : Nat} (hbase : base.live + 2 ≤ cap)
    (hcap : cap ≤ UInt32.size) (s : Setting) {kind : TextKind} {g : Handle} {s' : String}
    {p : Context × List Deed} {c' : Context}
    (h : Journaled base cap (.text kind g, p) (.text kind s', c')) :
    (journalLink base cap).Alike (exec (.journal s) (takeText g) (.text kind g, p))
      (exec (.direct s) (takeText s') (.text kind s', c')) := by
  obtain ⟨htake, -⟩ := h.tied.take hbase hcap
  have hexec : exec (.journal s) (takeText g) (.text kind g, p) =
      (.ok (s', p.1.next.1), { p.1.next.2 with arena := p.1.next.2.arena.without g },
        p.2 ++ [.pulled p.1.upcoming] ++ [.took g (.ok s')]) := by
    rw [exec_takeText]
    change ((p.1.next.2.take g).1.map (·, p.1.next.1), (p.1.next.2.take g).2,
      p.2 ++ [.pulled p.1.upcoming] ++ [.took g (p.1.next.2.take g).1]) = _
    rw [htake]
    rfl
  rw [hexec, exec_takeText]
  exact .ok (h.take hbase hcap)

theorem alike_expand_journal {base : Arena} {cap : Nat} (s : Setting) (name : String)
    {p : Place Handle (Context × List Deed)} {q : Place String Context}
    (h : Journaled base cap p q) :
    (journalLink base cap).Alike (exec (.journal s) (attempt (.expand name)) p)
      (exec (.direct s) (attempt (.expand name)) q) := by
  obtain ⟨hresult, -⟩ := h.tied.expand s.resolver name
  rw [exec_expand, exec_expand, Host.direct_expand]
  change Link.Alike _ ((p.2.1.expand s.resolver name).1.map (·, p.1),
    (p.2.1.expand _ name).2, p.2.2 ++ [.expanded name (p.2.1.expand s.resolver name).1]) _
  have hafter := h.expand s.resolver name (p.2.1.expand s.resolver name).1
  rw [hresult] at hafter ⊢
  cases hx : (q.2.expand s.resolver name).1 with
  | ok n =>
    rw [hx] at hafter
    exact .ok hafter
  | error r =>
    rw [hx] at hafter
    refine .error ⟨rfl, fun g hg => ?_, p.1, q.1, hafter⟩
    dsimp only at hg
    rw [hg] at hx
    unfold Context.expand at hx
    split at hx <;> cases hx

/-- The actions of the grammar keep the link, if the table has room for two texts more. -/
theorem lawful_journalLink {base : Arena} {cap : Nat} (hbase : base.live + 2 ≤ cap)
    (hcap : cap ≤ UInt32.size) (s : Setting) :
    (journalLink base cap).Lawful (.journal s) (.direct s) where
  shape h := h.tied.shape
  next _ h := h.next hbase hcap
  take h _ := alike_take_journal hbase hcap s h
  name h := (alike_take_journal hbase hcap s h).bind fun name _ _ hq => alike_expand_journal s name hq
  refuse {p q} h := by
    refine ⟨?_, fun g => ?_, p.1, q.1, h⟩
    · have hlexer : p.2.1.lexer = q.2.lexer := h.tied.lexer
      change refusal p.1 p.2.1.lexer.position = refusal q.1 q.2.lexer.position
      rw [refusal_congr h.tied.shape, hlexer]
    · unfold refusal
      split <;> simp
  number raw h := ⟨rfl, by simp, _, _, h⟩
  check {p q} name count h := by
    refine Link.alike_check rfl rfl h fun r hr => ⟨rfl, fun g hg => ?_, p.1, q.1, h⟩
    dsimp only at hg
    rw [hg] at hr
    unfold Setting.check at hr
    split at hr
    · split at hr <;> cases hr
    · cases hr
  enough_zero _ h := h
  enough_next h := h
  enough_interpret _ _ _ h := h

/-- A whole parse with a journal against the same parse without a table. -/
structure Matches (base : Arena) (cap : Nat) (x : Except Rejection Expr × Context × List Deed)
    (y : Except Rejection Expr × Context) : Prop where
  result : x.1 = y.1
  registered (g : Handle) : x.1 ≠ .error (.unregistered g)
  journaled : ∃ t t', Journaled base cap (t, x.2) (t', y.2) ∧
    ∀ e, x.1 = .ok e → t' = .mark .endOfInput

namespace Matches
variable {base : Arena} {cap : Nat} {x : Except Rejection Expr × Context × List Deed}
  {y : Except Rejection Expr × Context}

theorem context (h : Matches base cap x y) : x.2.1 = { y.2 with arena := x.2.1.arena } := by
  obtain ⟨t, t', hjournaled, -⟩ := h.journaled
  exact hjournaled.tied.context

theorem sound (h : Matches base cap x y) : x.2.1.arena.Sound := by
  obtain ⟨t, t', hjournaled, -⟩ := h.journaled
  exact hjournaled.tied.sound

theorem size_le (h : Matches base cap x y) : x.2.1.arena.slots.size ≤ cap := by
  obtain ⟨t, t', hjournaled, -⟩ := h.journaled
  exact hjournaled.tied.size_le

/-- Behind a whole expression there is the end of the input, which has no text. -/
theorem kept (h : Matches base cap x y) {e : Expr} (he : x.1 = .ok e) :
    (∀ g, x.2.1.arena.get? g = base.get? g) ∧ x.2.1.arena.live = base.live ∧
      Deed.registered x.2.2 = Deed.released x.2.2 := by
  obtain ⟨t, t', hjournaled, hend⟩ := h.journaled
  obtain rfl := hend e he
  obtain ⟨u, hu, hu', -, hregistered⟩ := hjournaled.last
  have hholds := hjournaled.tied.holds
  dsimp only at hholds hu hu' hregistered
  cases u with
  | text kind p => cases hu'
  | mark m =>
    obtain rfl := hu
    cases hholds with
    | mark get live =>
      refine ⟨get, live, ?_⟩
      rw [hregistered]
      exact List.append_nil _

end Matches

/-- Reading on behind the end gives the end again. -/
theorem read_again {c : Context} (h : Context.LastRead (.mark .endOfInput, c)) :
    c.read.1 = .mark .endOfInput := by
  obtain ⟨d, hend, hlexer⟩ := h
  have hread : c.read.1 = c.lexer.next.1 := rfl
  rw [hread, ← hlexer]
  exact Lexer.next_next_end hend

theorem whole_matches {base : Arena} {cap : Nat} (hbase : base.live + 2 ≤ cap)
    (hcap : cap ≤ UInt32.size) (s : Setting) (bound limit : Nat)
    {p : Place Handle (Context × List Deed)} {q : Place String Context}
    (h : Journaled base cap p q) :
    Matches base cap
      ((exec (.journal s) (whole bound limit) p).1.map Prod.fst,
        (exec (.journal s) (whole bound limit) p).2)
      ((exec (.direct s) (whole bound limit) q).1.map Prod.fst,
        (exec (.direct s) (whole bound limit) q).2) := by
  have law := lawful_journalLink hbase hcap s
  have hbound (p : Place Handle (Context × List Deed)) (q : Place String Context)
      (_ : Journaled base cap p q) : (journalLink base cap).Covers bound bound p.2 := Or.inl rfl
  have hdeep (p : Place Handle (Context × List Deed)) (q : Place String Context)
      (h : Journaled base cap p q) :
      (journalLink base cap).lost (.tooDeep limit, p.2) (.tooDeep limit, q.2) :=
    ⟨rfl, by simp, _, _, h⟩
  have hnested := Link.couples_nested law hbound hdeep limit Precedence.aboveMinus p q h
  have hends := Link.ends_whole law hnested
  generalize exec (.journal s) (whole bound limit) p = o at hends
  generalize exec (.direct s) (whole bound limit) q = o' at hends
  cases hends with
  | cut h => exact h.elim
  | error h =>
    obtain ⟨rfl, hregistered, t, t', htied⟩ := h
    exact ⟨rfl, fun g hg => hregistered g (Except.error.inj hg), t, t', htied, by simp [Except.map]⟩
  | ok h =>
    have hlast := read_again h.tied.last
    exact ⟨rfl, by simp [Except.map], _, _, h.next hbase hcap, fun _ _ => hlast⟩

/-- The first token of a parse. -/
theorem journaled_first {c : Context} {cap : Nat} (hsound : c.arena.Sound)
    (hsize : c.arena.slots.size ≤ cap) (hlive : c.arena.live + 2 ≤ cap)
    (hcap : cap ≤ UInt32.size) :
    Journaled c.arena cap (c.next.1, c.next.2, [.pulled c.upcoming])
      { c with arena := {} }.read := by
  have htied := tied_next hsound hsize (by omega) hcap { c with arena := {} }
  have hextends : c.arena.Extends c.next.2.arena := htied.holds.extends
  have hstart : Accounts c.arena c.arena [] := by
    constructor
    · rfl
    · intro es hes
      obtain rfl := List.prefix_nil.mp hes
      exact ⟨fun hg => hg, Nat.le_add_right _ 2⟩
  have harena := Action.arena_run {} .next c
  have hread : { c with arena := {} }.read.1 = c.lexer.next.1 := rfl
  constructor
  · exact htied
  · exact hstart.snoc harena hextends
  · refine ⟨c.upcoming, c.upcoming_fst, ?_, ⟨[], rfl⟩, rfl⟩
    rw [c.upcoming_snd, hread]

/-- A parse by the grammar, whatever the table holds before it. -/
theorem run_grammar_matches {c : Context} {cap : Nat} (hsound : c.arena.Sound)
    (hsize : c.arena.slots.size ≤ cap) (hlive : c.arena.live + 2 ≤ cap) (hcap : cap ≤ UInt32.size)
    (s : Setting) :
    Matches c.arena cap ((grammar.run s c).1, (grammar.run s c).2, grammar.deeds s c)
      (grammar.interpret (.direct s) { c with arena := {} }) := by
  have hfirst := journaled_first hsound hsize hlive hcap
  have hjournal := Action.interpret_journal s grammar c []
  rw [List.nil_append] at hjournal
  rw [← hjournal, interpret_grammar, interpret_grammar]
  exact whole_matches hlive hcap s _ _ hfirst

/-- The text of a rejected token stays, and no other. -/
theorem Journaled.holds {base : Arena} {cap : Nat} {p : Place Handle (Context × List Deed)}
    {q : Place String Context} (h : Journaled base cap p q) :
    ∃ earlier t, Deed.tokens p.2.2 = earlier ++ [t] ∧
      match t.payload? with
      | none => (∀ g, p.2.1.arena.get? g = base.get? g) ∧ p.2.1.arena.live = base.live
      | some (g, text) => base.get? g = none ∧ p.2.1.arena.live = base.live + 1 ∧
          ∀ g', p.2.1.arena.get? g' = if g' = g then some text else base.get? g' := by
  obtain ⟨t, ht, ht', ⟨earlier, htokens⟩, -⟩ := h.last
  have hholds := h.tied.holds
  dsimp only at hholds
  rw [← ht, ← ht'] at hholds
  refine ⟨earlier, t, htokens, ?_⟩
  cases t with
  | mark m =>
    cases hholds with
    | mark get live => exact ⟨get, live⟩
  | text kind pair =>
    cases hholds with
    | text fresh get live => exact ⟨fresh, live, get⟩

/-- Whatever the table has been through, a parse by the grammar keeps all that is in it throughout,
has at most two texts of its own in it at any time, and comes to what it comes to with an empty
table. If it accepts, it has taken out again, once each and in order, all it put in. If it rejects,
it leaves the text of the token read last, if that has one, and nothing else. -/
theorem grammar_returns_texts (s : Setting) (input : String) (past : List Arena.Call)
    (hroom : (({} : Arena).after past).slots.size + 2 ≤ UInt32.size) :
    let table := ({} : Arena).after past
    let out := grammar.run s (.begin input table)
    let deeds := grammar.deeds s (.begin input table)
    out.2.arena = table.after (Deed.calls deeds) ∧
      (∀ ds, ds <+: deeds →
        (∀ g text, table.get? g = some text →
          (table.after (Deed.calls ds)).get? g = some text) ∧
        (table.after (Deed.calls ds)).live ≤ table.live + 2) ∧
      (∀ e, out.1 = .ok e →
        (∀ g, out.2.arena.get? g = table.get? g) ∧ out.2.arena.live = table.live ∧
          Deed.registered deeds = Deed.released deeds) ∧
      (∀ reason, out.1 = .error reason →
        ∃ earlier t, Deed.tokens deeds = earlier ++ [t] ∧
          match t.payload? with
          | none => (∀ g, out.2.arena.get? g = table.get? g) ∧ out.2.arena.live = table.live
          | some (g, text) => table.get? g = none ∧ out.2.arena.live = table.live + 1 ∧
              ∀ g', out.2.arena.get? g' = if g' = g then some text else table.get? g') ∧
      out.1 = (grammar.run s (.begin input {})).1 ∧
      ∀ g, out.1 ≠ .error (.unregistered g) := by
  intro table out deeds
  have hsize : table.slots.size ≤ UInt32.size := Nat.le_of_add_right_le hroom
  have hsound : table.Sound := sound_after sound_empty past hsize
  have hlive : table.live + 2 ≤ UInt32.size := by
    have hcount := hsound.live_add
    have hroom : table.slots.size + 2 ≤ UInt32.size := hroom
    omega
  have hmatches := run_grammar_matches (c := .begin input table) hsound hsize hlive
    (Nat.le_refl _) s
  have hempty := run_grammar_matches (c := .begin input {}) sound_empty (Nat.zero_le 2)
    (Nat.le_refl 2) (by decide) s
  obtain ⟨t, t', hjournaled, -⟩ := hmatches.journaled
  have hmoments := hjournaled.accounts.moments
  refine ⟨hjournaled.accounts.arena, ?_, ?_, ?_, ?_, hmatches.registered⟩
  · intro ds hds
    have hextends := hmoments ds hds
    exact ⟨fun g text hg => hextends.get hg, hextends.live_le⟩
  · intro e he
    exact hmatches.kept he
  · intro reason _
    exact hjournaled.holds
  · have hsame := hempty.result
    exact hmatches.result.trans hsame.symm

/-- The first name goes where a text had been before, the second one beside it, where it is left. -/
theorem grammar_returns_texts_second_name :
    (({} : Arena).after [.register "kept", .register "gone", .release ⟨1, 0⟩]).slots.size + 2 ≤
        UInt32.size ∧
      let table := ({} : Arena).after [.register "kept", .register "gone", .release ⟨1, 0⟩]
      let out := grammar.run {} (.begin "a b" table)
      out.1 = .error (.unexpectedToken (.text .nameTest) 3) ∧
        out.2.arena.get? ⟨0, 0⟩ = some "kept" ∧ out.2.arena.get? ⟨2, 0⟩ = some "b" ∧
        out.1 = (grammar.run {} (.begin "a b" {})).1 := by
  have hroom : (({} : Arena).after
      [.register "kept", .register "gone", .release ⟨1, 0⟩]).slots.size + 2 ≤ UInt32.size := by
    decide
  obtain ⟨-, -, -, -, hsame, -⟩ := grammar_returns_texts {} "a b" _ hroom
  exact ⟨hroom, rfl, rfl, rfl, hsame⟩

end Descent
end XPath
