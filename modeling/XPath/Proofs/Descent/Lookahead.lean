import XPath.Proofs.Descent.DepthLimit
import XPath.Proofs.Reading

/-! How far an input is read. A parse holds one token that it has not passed yet, and it passes no
final token but the end, when the whole input has been accepted. So no loop of the grammar goes on for
longer than there are characters. -/
namespace XPath

namespace Context

theorem pulled_next (c : Context) :
    c.next.2.pulled = c.pulled ++ [(c.lexer.next.1, c.lexer.next.2.position)] := by
  unfold pulled
  rw [c.next_log, List.reverse_cons, List.filterMap_append]
  rfl

/-- A token is the same whether its text is in the table or not. -/
theorem isFinal_next (c : Context) : c.next.1.isFinal = c.lexer.next.1.isFinal := by
  unfold next
  cases c.lexer.next with
  | mk t lexer =>
    cases t with
    | mark m => cases m <;> rfl
    | text => rfl

theorem next_eq_mark {c : Context} {m : Mark} (h : c.next.1 = .mark m) :
    c.lexer.next.1 = .mark m := by
  unfold next at h
  cases hnext : c.lexer.next with
  | mk t lexer =>
    rw [hnext] at h
    cases t with
    | mark m' => exact congrArg Token.mark (Token.mark.inj h)
    | text kind s => cases h

theorem pulled_take (c : Context) (h : Handle) : (c.take h).2.pulled = c.pulled := by
  unfold take
  cases c.arena.release? h <;> rfl

/-- What has been pulled stays pulled. -/
theorem pulled_table {α : Type} (s : Setting) (x : Action Handle α) (c : Context) :
    c.pulled.length ≤ (x.interpret (.table s) c).2.pulled.length := by
  apply Action.le_interpret (fun c : Context => c.pulled.length)
  case hnext =>
    intro c
    show c.pulled.length ≤ c.next.2.pulled.length
    rw [pulled_next, List.length_append]
    exact Nat.le_add_right _ _
  case htake => exact fun h c => (congrArg List.length (c.pulled_take h)).ge
  case hexpand => exact fun name c => (congrArg List.length (c.pulled_expand s.resolver name)).ge
  case hflag => exact fun _ => Nat.le_refl _

end Context

/-- No text has more tokens than characters, but for the final one. -/
theorem length_tokenize_le (input : String) : (tokenize input).length ≤ input.length + 1 := by
  obtain ⟨n, hle, htokens, -⟩ := (Lexer.ofString input).tokens_eq_calls
  have hlength : (Lexer.ofString input).unread = input.length := String.length_toList
  change ((Lexer.ofString input).tokens.map Prod.fst).length ≤ input.length + 1
  rw [htokens, List.length_map, List.length_range]
  omega

namespace Descent
variable {input : String} {s : Setting} {cut : Rejection → Prop}

/-- A place in the parse of an input: the current token was pulled last, and those before it have been
passed. -/
structure Ahead (input : String) (p : Place Handle Context) : Prop where
  tokens : tokenize input = p.2.pulled.map Prod.fst ++
    if p.1.isFinal then [] else p.2.lexer.tokens.map Prod.fst
  started : p.2.pulled ≠ []
  inside : (Cursor.ofString input).Reaches p.2.lexer.cursor
  done : p.1 = .mark .endOfInput → p.2.lexer.cursor.rest = []

/-- Where a parse of an input may be given up. -/
def Stopped (input : String) (c : Context) : Prop :=
  c.pulled ≠ [] ∧ c.pulled.map Prod.fst <+: tokenize input

theorem Ahead.stopped {p : Place Handle Context} (h : Ahead input p) : Stopped input p.2 := by
  refine ⟨h.started, ?_⟩
  rw [h.tokens]
  exact List.prefix_append _ _

theorem Stopped.length_le {c : Context} (h : Stopped input c) :
    c.pulled.length ≤ input.length + 1 := by
  have hle := h.2.length_le
  rw [List.length_map] at hle
  exact hle.trans (length_tokenize_le input)

/-- A token read where the tokens to come are those that are left. -/
theorem ahead_next {c : Context} (hinside : (Cursor.ofString input).Reaches c.lexer.cursor)
    (htokens : tokenize input = c.pulled.map Prod.fst ++ c.lexer.tokens.map Prod.fst) :
    Ahead input c.next where
  tokens := by
    rw [htokens, Lexer.map_tokens, c.pulled_next, c.isFinal_next, c.next_lexer, List.map_append,
      List.append_assoc]
    rfl
  started := by
    rw [c.pulled_next]
    exact List.append_ne_nil_of_right_ne_nil _ (List.cons_ne_nil _ _)
  inside := by
    rw [c.next_lexer]
    exact hinside.trans (Cursor.reaches_scan _ _)
  done h := by
    rw [c.next_lexer]
    exact Lexer.rest_next_end (Context.next_eq_mark h)

theorem Ahead.next {p : Place Handle Context} (h : Ahead input p) (hp : p.1.isFinal = false) :
    Ahead input p.2.next := by
  have htokens := h.tokens
  rw [hp] at htokens
  exact ahead_next h.inside htokens

theorem ahead_first (input : String) (a : Arena) : Ahead input (Context.begin input a).next :=
  ahead_next (Cursor.reaches_refl _) rfl

/-- Two parses of one input, step by step the same, unless the first one is `cut` short. The number of
tokens pulled bounds what is `enough`. -/
def aheadLink (input : String) (cut : Rejection → Prop) : Link Handle Context Handle Context where
  tied p q := p = q ∧ Ahead input p
  lost x y := x = y ∧ Stopped input x.2
  cut x := cut x.1 ∧ Stopped input x.2
  enough n c := input.length + 1 < n + c.pulled.length

/-- Both give up at once, for the same reason. -/
theorem lost_of_tied {p q : Place Handle Context} (r : Rejection)
    (h : (aheadLink input cut).tied p q) : (aheadLink input cut).lost (r, p.2) (r, q.2) := by
  obtain ⟨rfl, hahead⟩ := h
  exact ⟨rfl, hahead.stopped⟩

theorem alike_takeText {kind : TextKind} {h : Handle} {c : Context}
    (hahead : Ahead input (.text kind h, c)) :
    (aheadLink input cut).Alike (exec (.table s) (takeText h) (.text kind h, c))
      (exec (.table s) (takeText h) (.text kind h, c)) := by
  rw [exec_takeText]
  have hnext : Ahead input c.next := hahead.next rfl
  change (aheadLink input cut).Alike ((c.next.2.take h).1.map (·, c.next.1), (c.next.2.take h).2)
    ((c.next.2.take h).1.map (·, c.next.1), (c.next.2.take h).2)
  unfold Context.take
  cases c.next.2.arena.release? h with
  | none => exact .error ⟨rfl, hnext.stopped⟩
  | some r => exact .ok ⟨rfl, hnext.tokens, hnext.started, hnext.inside, hnext.done⟩

theorem alike_expand {p : Place Handle Context} (name : String) (hahead : Ahead input p) :
    (aheadLink input cut).Alike (exec (.table s) (attempt (.expand name)) p)
      (exec (.table s) (attempt (.expand name)) p) := by
  rw [exec_expand]
  change (aheadLink input cut).Alike
    ((p.2.expand s.resolver name).1.map (·, p.1), (p.2.expand s.resolver name).2)
    ((p.2.expand s.resolver name).1.map (·, p.1), (p.2.expand s.resolver name).2)
  have hstopped : Stopped input (p.2.expand s.resolver name).2 := by
    unfold Stopped
    rw [p.2.pulled_expand]
    exact hahead.stopped
  unfold Context.expand at hstopped ⊢
  cases hname : expandName s.resolver name with
  | ok n => exact .ok ⟨rfl, hahead⟩
  | error short =>
    rw [hname] at hstopped
    exact .error ⟨rfl, hstopped⟩

theorem lawful_aheadLink (input : String) (cut : Rejection → Prop) (s : Setting) :
    (aheadLink input cut).Lawful (.table s) (.table s) where
  shape h := by rw [h.1]
  next hm h := by
    obtain ⟨heq, hahead⟩ := h
    obtain rfl := (Prod.mk.inj heq).2
    exact ⟨rfl, hahead.next hm⟩
  take h _ := by
    obtain ⟨heq, hahead⟩ := h
    obtain ⟨⟨-, rfl⟩, rfl⟩ := heq
    exact alike_takeText hahead
  name h := by
    obtain ⟨heq, hahead⟩ := h
    obtain ⟨⟨-, rfl⟩, rfl⟩ := heq
    refine (alike_takeText hahead).bind fun name p q hp => ?_
    obtain ⟨rfl, hahead⟩ := hp
    exact alike_expand name hahead
  refuse h := by
    obtain ⟨rfl, hahead⟩ := h
    exact ⟨rfl, hahead.stopped⟩
  number raw h := lost_of_tied _ h
  check name count h := Link.alike_check rfl rfl h fun r _ => lost_of_tied r h
  enough_zero h henough := by
    have hlength := h.2.stopped.length_le
    unfold aheadLink at henough
    omega
  enough_next {n c} henough := by
    have hlength := congrArg List.length c.pulled_next
    rw [List.length_append, List.length_singleton] at hlength
    change input.length + 1 < n + c.next.2.pulled.length
    change input.length + 1 < n + 1 + c.pulled.length at henough
    omega
  enough_interpret x n c henough := by
    have hle := Context.pulled_table s x c
    change input.length + 1 < n + (x.interpret (.table s) c).2.pulled.length
    change input.length + 1 < n + c.pulled.length at henough
    omega

theorem couples_wider {bound limit limit' : Nat} (hbound : input.length + 1 ≤ bound)
    (hlimit : limit = limit' ∨ limit ≤ limit' ∧ cut (.tooDeep limit)) (levels : List Precedence) :
    (aheadLink input cut).Couples (.table s) (.table s)
      (nested (input.length + 1) limit limit levels) (nested bound limit' limit' levels) := by
  have law := lawful_aheadLink input cut s
  have hcovers (p q : Place Handle Context) (h : (aheadLink input cut).tied p q) :
      (aheadLink input cut).Covers (input.length + 1) bound p.2 := by
    have hstarted := List.length_pos_iff.mpr h.2.started
    have henough : input.length + 1 < input.length + 1 + p.2.pulled.length := by omega
    exact Or.inr ⟨henough, Nat.lt_of_lt_of_le henough (Nat.add_le_add_right hbound _)⟩
  rcases hlimit with rfl | ⟨hle, hcut⟩
  · exact Link.couples_nested law hcovers (fun p q h => lost_of_tied _ h) limit levels
  · exact Link.couples_nested_le law hcovers (fun p q h => ⟨hcut, h.2.stopped⟩) hle levels

theorem ends_wider {bound limit limit' : Nat} (hbound : input.length + 1 ≤ bound)
    (hlimit : limit = limit' ∨ limit ≤ limit' ∧ cut (.tooDeep limit)) :
    (aheadLink input cut).Ends (.table s) (.table s)
      (exec (.table s) (whole (input.length + 1) limit) (Context.begin input {}).next)
      (exec (.table s) (whole bound limit') (Context.begin input {}).next) := by
  have hnested := couples_wider hbound hlimit Precedence.aboveMinus (s := s) _ _
    ⟨rfl, ahead_first input {}⟩
  exact Link.ends_whole (lawful_aheadLink input cut s) hnested

theorem eq_of_ends {o o' : Outcome Handle Context Expr}
    (h : (aheadLink input cut).Ends (.table s) (.table s) o o') :
    o = o' ∨ ∃ r, o.1 = .error r ∧ cut r := by
  cases h with
  | ok htied =>
    obtain ⟨heq, -⟩ := htied
    obtain rfl := (Prod.mk.inj heq).2
    exact Or.inl rfl
  | error hlost =>
    obtain ⟨heq, -⟩ := hlost
    obtain ⟨rfl, rfl⟩ := heq
    exact Or.inl rfl
  | cut hcut => exact Or.inr ⟨_, rfl, hcut.1⟩

/-- Where a whole parse of an input may end. -/
theorem read_of_ends {o o' : Outcome Handle Context Expr}
    (h : (aheadLink input cut).Ends (.table s) (.table s) o o') :
    (∀ a, o.1 = .ok a → ∃ c, Ahead input (.mark .endOfInput, c) ∧ o.2 = c.next.2) ∧
      ∀ r, o.1 = .error r → Stopped input o.2 := by
  cases h with
  | ok htied => exact ⟨fun _ _ => ⟨_, htied.2, rfl⟩, nofun⟩
  | error hlost => exact ⟨nofun, fun _ _ => hlost.2⟩
  | cut hcut => exact ⟨nofun, fun _ _ => hcut.2⟩

/-- The end is pulled once more when it is passed. -/
theorem Ahead.passed {c : Context} (h : Ahead input (.mark .endOfInput, c)) :
    c.next.2.pulled.map Prod.fst = tokenize input ++ [.mark .endOfInput] ∧
      c.next.2.lexer.position = input.length := by
  have hend : c.lexer.next.1 = .mark .endOfInput := Lexer.next_end.mpr (by rw [h.done rfl]; rfl)
  constructor
  · have htokens := h.tokens
    simp only [Token.isFinal, if_true, List.append_nil] at htokens
    rw [c.pulled_next, List.map_append, ← htokens, hend]
    rfl
  · have hinside : (Cursor.ofString input).Reaches c.next.2.lexer.cursor := by
      rw [c.next_lexer]
      exact h.inside.trans (Cursor.reaches_scan _ _)
    obtain ⟨hrest, hle⟩ := hinside.rest_eq
    rw [c.next_lexer, Lexer.rest_next_end hend, ← c.next_lexer] at hrest
    have hlong := List.drop_eq_nil_iff.mp hrest.symm
    exact Nat.le_antisymm hle hlong

/-- The grammar with a bound on lists and a limit on nesting that need not be those of the parse. -/
def grammarUpTo (bound limit : Nat) : Action Handle (Except Rejection Expr) := do
  let first ← .next
  return (← ((whole bound limit).run first).run).map Prod.fst

theorem run_grammarUpTo (bound limit : Nat) (c : Context) :
    (grammarUpTo bound limit).run s c =
      ((exec (.table s) (whole bound limit) c.next).1.map Prod.fst,
        (exec (.table s) (whole bound limit) c.next).2) := by
  rw [Action.run_eq_interpret]
  rfl

theorem run_grammar (s : Setting) (input : String) :
    grammar.run s (.begin input {}) =
      (grammarUpTo (input.length + 1) s.options.maxDepth).run s (.begin input {}) := by
  have hunread : (Context.begin input {}).lexer.unread = input.length := String.length_toList
  rw [← hunread]
  rfl

/-- A parse reads one token ahead. When an input is accepted, all its tokens have been pulled and the
end once more, and the cursor is at the end. When it is rejected, some of its first tokens have been
pulled, at least one, but none behind its first error or its end. The work to be done depends on the
input alone: no list is longer than it, and no nesting deeper, whatever bound and limit are set. -/
theorem grammar_reads_ahead (s : Setting) (input : String) :
    let run := grammar.run s (.begin input {})
    (∀ e, run.1 = .ok e →
      run.2.pulled.map Prod.fst = tokenize input ++ [.mark .endOfInput] ∧
        run.2.lexer.position = input.length) ∧
    (∀ r, run.1 = .error r →
      run.2.pulled ≠ [] ∧ run.2.pulled.map Prod.fst <+: tokenize input) ∧
    run.2.pulled.length ≤ input.length + 2 ∧
    ∀ bound limit, input.length + 1 ≤ bound →
      (limit = s.options.maxDepth ∨
        input.length < s.options.maxDepth ∧ s.options.maxDepth ≤ limit) →
      (grammarUpTo bound limit).run s (.begin input {}) = run := by
  intro run
  have hrun : run = _ := (run_grammar s input).trans (run_grammarUpTo _ _ _)
  have hends : (aheadLink input fun _ => False).Ends (.table s) (.table s) _ _ :=
    ends_wider (Nat.le_refl _) (Or.inl (Eq.refl s.options.maxDepth))
  obtain ⟨haccepted, hrejected⟩ := read_of_ends hends
  have hok (e : Expr) (he : run.1 = .ok e) :
      run.2.pulled.map Prod.fst = tokenize input ++ [.mark .endOfInput] ∧
        run.2.lexer.position = input.length := by
    rw [hrun] at he ⊢
    obtain ⟨q, hq⟩ := map_fst_eq_ok.mp he
    obtain ⟨c, hahead, hc⟩ := haccepted _ (congrArg Prod.fst hq)
    rw [hc]
    exact hahead.passed
  have herror (r : Rejection) (hr : run.1 = .error r) : Stopped input run.2 := by
    rw [hrun] at hr ⊢
    exact hrejected r (congrArg Prod.fst (map_fst_eq_error.mp hr))
  refine ⟨hok, herror, ?_, ?_⟩
  · cases hresult : run.1 with
    | ok e =>
      have hlength := congrArg List.length (hok e hresult).1
      have hle := length_tokenize_le input
      rw [List.length_map, List.length_append, List.length_singleton] at hlength
      omega
    | error r => exact (herror r hresult).length_le.trans (Nat.le_succ _)
  · intro bound limit hbound hlimit
    let cut (r : Rejection) : Prop := input.length < s.options.maxDepth ∧ ∃ n, r = .tooDeep n
    have hcut : s.options.maxDepth = limit ∨
        s.options.maxDepth ≤ limit ∧ cut (.tooDeep s.options.maxDepth) :=
      hlimit.imp Eq.symm fun ⟨hless, hle⟩ => ⟨hle, hless, _, rfl⟩
    rw [hrun, run_grammarUpTo]
    rcases eq_of_ends (ends_wider (s := s) hbound hcut) with hsame | ⟨r, hr, hless, n, rfl⟩
    · rw [hsame]
    · have hdeep : run.1 = .error (.tooDeep n) := by
        rw [hrun, hr]
        rfl
      exact absurd hdeep (parse_ne_tooDeep hless n)

end Descent
end XPath
