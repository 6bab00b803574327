import XPath.Proofs.Descent.Yields
import XPath.Proofs.Grammar.Begins

/-! What the grammar derives, the descent accepts, if what follows cannot belong to the phrase.
Left recursive phrases are read by loops: a loop that has come to the end of a phrase is still running. -/
namespace XPath

/-- The tokens behind which no expression goes on. -/
def Closes (t : Token String) : Prop :=
  t ∈ [Token.mark .endOfInput, .mark .rightParen, .mark .rightBracket, .mark .comma]

/-- The tokens that can follow an operand of a level, none of which belongs to it. -/
def Level.Ends (l : Level) (t : Token String) : Prop :=
  Closes t ∨ ∃ o : BinaryOp, t = .mark (.op o) ∧ (binary o.precedence).rank < l.rank

theorem Level.Ends.mono {l l' : Level} {t : Token String} (h : l.Ends t) (hle : l.rank ≤ l'.rank) :
    l'.Ends t := by
  rcases h with h | ⟨o, rfl, ho⟩
  · exact Or.inl h
  · exact Or.inr ⟨o, rfl, Nat.lt_of_lt_of_le ho hle⟩

theorem Level.Ends.operand {p : Precedence} {t : Token String} (h : (binary p).Ends t) :
    p.operand.Ends t :=
  h.mono (by rw [p.rank_operand]; exact Nat.le_succ _)

theorem Level.ends_operator {p : Precedence} {o : BinaryOp} (ho : o.precedence = p) :
    p.operand.Ends (.mark (.op o)) :=
  Or.inr ⟨o, rfl, by rw [ho, p.rank_operand]; exact Nat.lt_succ_self _⟩

/-- What can follow an expression goes on neither with a path nor with a filter. -/
theorem Level.Ends.not_path {l : Level} {t : Token String} (h : l.Ends t) :
    t ≠ .mark .leftBracket ∧ t ≠ .mark .slash ∧ t ≠ .mark .slashSlash ∧
      t.kind.beginsStep = false := by
  rcases h with h | ⟨o, rfl, -⟩
  · simp only [Closes, List.mem_cons, List.not_mem_nil, or_false] at h
    rcases h with rfl | rfl | rfl | rfl <;> decide
  · cases o <;> decide

theorem Joins.ne_leftBracket {m : Mark} {js : List (Step Expr)} (h : Joins m js) :
    (Token.mark m : Token String) ≠ .mark .leftBracket := by
  cases h <;> decide

namespace Descent
open Source (pull)
variable {σ : Type} [Source σ] {s : Setting}

/-- The action that reads an expression of a level. -/
def level (bound : Nat) (deeper : List Precedence → Descent String Expr) :
    Level → Descent String Expr
  | .binary .or => binary bound deeper Precedence.aboveMinus
  | .binary .and => binary bound deeper [.and, .equality, .relational, .additive, .multiplicative]
  | .binary .equality => binary bound deeper [.equality, .relational, .additive, .multiplicative]
  | .binary .relational => binary bound deeper [.relational, .additive, .multiplicative]
  | .binary .additive => binary bound deeper [.additive, .multiplicative]
  | .binary .multiplicative => binary bound deeper [.multiplicative]
  | .unary => unary bound deeper
  | .binary .union => do
    let path := path bound (deeper Precedence.aboveMinus)
    chain .union path bound (← path)
  | .path => path bound (deeper Precedence.aboveMinus)

theorem level_binary (bound : Nat) (deeper : List Precedence → Descent String Expr)
    (p : Precedence) :
    level bound deeper (.binary p) =
      (do chain p (level bound deeper p.operand) bound (← level bound deeper p.operand)) := by
  cases p <;> rfl

/-- A step and further ones behind it, at most `k`. -/
def stepsUpTo (bound : Nat) (expression : Descent String Expr) (k : Nat) :
    Descent String (List (Step Expr)) := do
  let first ← step bound expression
  let ss ← moreSteps bound expression k
  return first :: ss

/-- To read a phrase of `len` tokens from `p` to `q`, inside which `n` levels of nesting are
allowed, when the token behind it cannot belong to it. -/
def Reads (s : Setting) (bound limit n len : Nat) (p q : Place String σ) : Phrase → Prop
  | .expression e => Closes q.1 → Yields s (nested bound limit n Precedence.aboveMinus) p e q
  | .level (.binary pr) e => pr.operand.Ends q.1 → ∃ k, bound ≤ k + len ∧ ∀ a r,
      Yields s (chain pr (level bound (nested bound limit n) pr.operand) k e) q a r →
        Yields s (level bound (nested bound limit n) (.binary pr)) p a r
  | .level l e => l.Ends q.1 → Yields s (level bound (nested bound limit n) l) p e q
  | .filter e => q.1 ≠ .mark .leftBracket →
      Yields s (filter bound (nested bound limit n Precedence.aboveMinus)) p e q
  | .primary e => Yields s (primary bound (nested bound limit n Precedence.aboveMinus)) p e q
  | .arguments es => q.1 = .mark .rightParen → ∀ e es', es = e :: es' → ∃ m,
      Yields s (nested bound limit n Precedence.aboveMinus) p e m ∧ ∀ k, len ≤ k →
        Yields s (moreArguments (nested bound limit n Precedence.aboveMinus) k) m es' q
  | .predicates ps => q.1 ≠ .mark .leftBracket → ∀ k, len ≤ k →
      Yields s (predicates (nested bound limit n Precedence.aboveMinus) k) p ps q
  | .relativePath ss => q.1 ≠ .mark .leftBracket → ∀ k, len ≤ k → ∃ k', k ≤ k' + len ∧ ∀ ss' r,
      Yields s (moreSteps bound (nested bound limit n Precedence.aboveMinus) k') q ss' r →
        Yields s (stepsUpTo bound (nested bound limit n Precedence.aboveMinus) k) p (ss ++ ss') r
  | .step st => q.1 ≠ .mark .leftBracket →
      Yields s (step bound (nested bound limit n Precedence.aboveMinus)) p st q

variable {bound limit n len len' : Nat} {p q m : Place String σ}

/-! Binary operators. -/

theorem chain_stop {pr : Precedence} {operand : Descent String Expr} (k : Nat) (e : Expr)
    (h : (Level.binary pr).Ends q.1) : Yields s (chain pr operand k e) q e q := by
  cases k with
  | zero => exact yields_pure.mpr ⟨rfl, rfl⟩
  | succ k =>
    unfold chain
    rw [yields_get_bind]
    split
    · next o hq =>
      split
      · next ho =>
        rw [hq] at h
        rcases h with h | ⟨o', ho', hlt⟩
        · simp [Closes] at h
        · obtain rfl : o = o' := by simpa using ho'
          rw [ho] at hlt
          exact absurd hlt (Nat.lt_irrefl _)
      · exact yields_pure.mpr ⟨rfl, rfl⟩
    · exact yields_pure.mpr ⟨rfl, rfl⟩

theorem level_of_reads {l : Level} {e : Expr} (h : Reads s bound limit n len p q (.level l e))
    (hends : l.Ends q.1) : Yields s (level bound (nested bound limit n) l) p e q := by
  cases l with
  | binary pr =>
    obtain ⟨k, -, hchain⟩ := h hends.operand
    exact hchain e q (chain_stop k e hends)
  | unary => exact h hends
  | path => exact h hends

theorem reads_operand {pr : Precedence} {e : Expr}
    (h : Reads s bound limit n len p q (.level pr.operand e)) :
    Reads s bound limit n len p q (.level (.binary pr) e) := by
  intro hends
  refine ⟨bound, Nat.le_add_right _ _, fun a r hchain => ?_⟩
  rw [level_binary]
  exact yields_bind.mpr ⟨e, q, level_of_reads h hends, hchain⟩

theorem reads_operator {pr : Precedence} {o : BinaryOp} {l r : Expr} (ho : o.precedence = pr)
    (hlen : len + (len' + 1) < bound) (hm : m.1 = .mark (.op o))
    (hl : Reads s bound limit n len p m (.level (.binary pr) l))
    (hr : Reads s bound limit n len' (pull m.2) q (.level pr.operand r)) :
    Reads s bound limit n (len + (len' + 1)) p q (.level (.binary pr) (.binary o l r)) := by
  intro hends
  obtain ⟨k, hk, hchain⟩ := hl (hm ▸ Level.ends_operator ho)
  obtain ⟨k, rfl⟩ : ∃ j, k = j + 1 := ⟨k - 1, by omega⟩
  refine ⟨k, by omega, fun a v hrest => hchain a v ?_⟩
  unfold chain
  rw [yields_get_bind, hm]
  simp only [ho, if_true]
  rw [yields_advance_bind]
  exact yields_bind.mpr ⟨r, q, level_of_reads hr hends, hrest⟩

theorem reads_expression {e : Expr}
    (h : Reads s bound limit n len p q (.level (.binary .or) e)) :
    Reads s bound limit (n + 1) len p q (.expression e) := by
  intro hcloses
  rw [nested]
  exact level_of_reads h (Or.inl hcloses)

/-! The unary minus. -/

theorem reads_union {e : Expr} (hp : p.1.kind ≠ .minus)
    (h : Reads s bound limit n len p q (.level (.binary .union) e)) :
    Reads s bound limit n len p q (.level .unary e) := by
  intro hends
  have hunion := level_of_reads h (hends.mono (by decide))
  change Yields s (unary bound (nested bound limit n)) p e q
  unfold unary
  rw [yields_get_bind]
  split
  · next hminus =>
    rw [hminus] at hp
    exact absurd rfl hp
  · exact hunion

theorem reads_minus {e : Expr} (hp : p.1 = .mark (.op .minus))
    (h : Reads s bound limit n len (pull p.2) q (.level .unary e)) :
    Reads s bound limit (n + 1) len p q (.level .unary (.negate e)) := by
  intro hends
  change Yields s (unary bound (nested bound limit (n + 1))) p (.negate e) q
  unfold unary
  rw [yields_get_bind, hp]
  simp only [yields_advance_bind]
  exact yields_bind.mpr ⟨e, q, level_of_reads h hends, yields_pure.mpr ⟨rfl, rfl⟩⟩

/-! Steps. -/

section
variable {expression : Descent String Expr}

theorem nodeTest_complete {ts : List (Token String)} {test : NodeTest}
    (ht : SpellsTest s.resolver ts test) (hp : Passes p ts q) : Yields s nodeTest p test q := by
  unfold nodeTest
  rw [yields_get_bind]
  cases ht with
  | name hn =>
    obtain ⟨hname, rfl⟩ := passes_singleton.mp hp
    simp only [hname, yields_takeText_bind]
    exact yields_bind.mpr ⟨_, _, yields_expand.mpr ⟨hn, rfl⟩, yields_pure.mpr ⟨rfl, rfl⟩⟩
  | nodeType name =>
    simp only [passes_cons, passes_nil] at hp
    obtain ⟨hname, hopen, hclose, rfl⟩ := hp
    simp only [hname, yields_takeText_bind, yields_expect_bind, yields_pure, hopen, hclose]
    exact ⟨rfl, rfl, trivial, trivial⟩
  | processingInstruction name =>
    simp only [passes_cons, passes_nil] at hp
    obtain ⟨hname, hopen, hclose, rfl⟩ := hp
    simp only [hname, yields_takeText_bind, yields_expect_bind, yields_get_bind, hopen, hclose]
    refine ⟨rfl, yields_bind.mpr ⟨none, _, yields_pure.mpr ⟨rfl, rfl⟩, ?_⟩⟩
    simp only [yields_expect_bind, yields_pure, hclose]
    exact ⟨rfl, trivial, trivial⟩
  | target name target =>
    simp only [passes_cons, passes_nil] at hp
    obtain ⟨hname, hopen, htarget, hclose, rfl⟩ := hp
    simp only [hname, yields_takeText_bind, yields_expect_bind, yields_get_bind, hopen, htarget]
    have htake {m : Place String σ} :
        Yields s (some <$> takeText target) m (some target) (pull m.2) :=
      yields_map.mpr ⟨target, yields_takeText.mpr ⟨rfl, rfl⟩, rfl⟩
    refine ⟨rfl, yields_bind.mpr ⟨_, _, htake, ?_⟩⟩
    simp only [yields_expect_bind, yields_pure, hclose]
    exact ⟨rfl, trivial, trivial⟩

theorem moreSteps_stop (k : Nat) (hslash : q.1 ≠ .mark .slash)
    (hslashes : q.1 ≠ .mark .slashSlash) :
    Yields s (moreSteps bound expression k) q [] q := by
  cases k with
  | zero => exact yields_pure.mpr ⟨rfl, rfl⟩
  | succ k =>
    unfold moreSteps
    rw [yields_get_bind]
    split
    · next h => exact absurd h hslash
    · next h => exact absurd h hslashes
    · exact yields_pure.mpr ⟨rfl, rfl⟩

/-- Behind a separator, there are steps to read. -/
theorem moreSteps_joins {mark : Mark} {js ss : List (Step Expr)} {k : Nat} (hj : Joins mark js)
    (hm : m.1 = .mark mark) (h : Yields s (stepsUpTo bound expression k) (pull m.2) ss q) :
    Yields s (moreSteps bound expression (k + 1)) m (js ++ ss) q := by
  unfold moreSteps
  rw [yields_get_bind, hm]
  obtain ⟨first, m', hfirst, hrest⟩ := yields_bind.mp h
  obtain ⟨ss', m'', hmore, hpure⟩ := yields_bind.mp hrest
  obtain ⟨rfl, rfl⟩ := yields_pure.mp hpure
  cases hj with
  | slash =>
    simp only [yields_advance_bind]
    exact h
  | slashSlash =>
    simp only [yields_advance_bind]
    refine yields_bind.mpr ⟨first, m', hfirst, yields_bind.mpr ⟨ss', _, hmore, ?_⟩⟩
    exact yields_pure.mpr ⟨rfl, rfl⟩

end

theorem reads_oneStep {st : Step Expr} (h : Reads s bound limit n len p q (.step st)) :
    Reads s bound limit n len p q (.relativePath [st]) := by
  intro hq k hk
  refine ⟨k, Nat.le_add_right _ _, fun ss' r hmore => ?_⟩
  exact yields_bind.mpr ⟨st, q, h hq, yields_bind.mpr ⟨ss', r, hmore, yields_pure.mpr ⟨rfl, rfl⟩⟩⟩

theorem reads_moreSteps {mark : Mark} {st : Step Expr} {js ss : List (Step Expr)}
    (hj : Joins mark js) (hm : m.1 = .mark mark)
    (hs : Reads s bound limit n len p m (.relativePath ss))
    (h : Reads s bound limit n len' (pull m.2) q (.step st)) :
    Reads s bound limit n (len + (len' + 1)) p q (.relativePath (ss ++ js ++ [st])) := by
  intro hq k hk
  have hbracket := hm ▸ hj.ne_leftBracket
  obtain ⟨k', hk', hsteps⟩ := hs hbracket k (by omega)
  obtain ⟨j, rfl⟩ : ∃ j, k' = j + 1 := ⟨k' - 1, by omega⟩
  refine ⟨j, by omega, fun ss' r hmore => ?_⟩
  have hfirst : Yields s (stepsUpTo bound (nested bound limit n Precedence.aboveMinus) j) (pull m.2)
      (st :: ss') r :=
    yields_bind.mpr ⟨st, q, h hq, yields_bind.mpr ⟨ss', r, hmore, yields_pure.mpr ⟨rfl, rfl⟩⟩⟩
  simpa using hsteps _ r (moreSteps_joins hj hm hfirst)

/-- A path that is followed by neither a predicate nor a step. -/
theorem stepsUpTo_of_reads {ss : List (Step Expr)}
    (h : Reads s bound limit n len p q (.relativePath ss)) {l : Level} (hq : l.Ends q.1) {k : Nat}
    (hk : len ≤ k) :
    Yields s (stepsUpTo bound (nested bound limit n Precedence.aboveMinus) k) p ss q := by
  obtain ⟨hbracket, hslash, hslashes, -⟩ := hq.not_path
  obtain ⟨k', -, hsteps⟩ := h hbracket k hk
  simpa using hsteps [] q (moreSteps_stop k' hslash hslashes)

theorem reads_abbreviated {st : Step Expr} {t : Token String} (hp : Passes p [t] q)
    (h : t = .mark .dot ∧ st = .anyNode .self ∨ t = .mark .dotDot ∧ st = .anyNode .parent) :
    Reads s bound limit n len p q (.step st) := by
  intro _
  obtain ⟨ht, rfl⟩ := passes_singleton.mp hp
  unfold step
  rw [yields_get_bind, ht]
  rcases h with ⟨rfl, rfl⟩ | ⟨rfl, rfl⟩
  · simp only [yields_advance_bind, yields_pure, and_self]
  · simp only [yields_advance_bind, yields_pure, and_self]

theorem reads_stepAlong {axis : Axis} {test : NodeTest} {ps : List Expr}
    {as ts us : List (Token String)} (ha : SpellsAxis as axis) (ht : SpellsTest s.resolver ts test)
    (hlen : us.length < bound) (hp : Passes p (as ++ ts) m)
    (h : Reads s bound limit n us.length m q (.predicates ps)) :
    Reads s bound limit n len p q (.step ⟨axis, test, ps⟩) := by
  intro hq
  obtain ⟨p', has, hts⟩ := passes_append.mp hp
  have halong : Yields s (stepAlong bound (nested bound limit n Precedence.aboveMinus) axis) p'
      ⟨axis, test, ps⟩ q :=
    yields_bind.mpr ⟨test, m, nodeTest_complete ht hts, yields_bind.mpr
      ⟨ps, q, h hq bound (Nat.le_of_lt hlen), yields_pure.mpr ⟨rfl, rfl⟩⟩⟩
  unfold step
  rw [yields_get_bind]
  cases ha with
  | child =>
    obtain rfl := passes_nil.mp has
    cases ht
    all_goals
      have hpt := (passes_cons.mp hts).1
      simpa only [hpt] using halong
  | atSign =>
    obtain ⟨hpt, rfl⟩ := passes_singleton.mp has
    simpa only [hpt, yields_advance_bind] using halong
  | axis a =>
    obtain ⟨hpt, rfl⟩ := passes_singleton.mp has
    simpa only [hpt, yields_advance_bind] using halong

/-! Predicates, arguments and primary expressions. -/

theorem reads_noPredicate (p : Place String σ) :
    Reads s bound limit n len p p (.predicates []) := by
  intro hq k _
  cases k with
  | zero => exact yields_pure.mpr ⟨rfl, rfl⟩
  | succ k =>
    have hkind : p.1.kind ≠ .leftBracket := fun h =>
      hq (Token.eq_mark_of_kind (m := .leftBracket) (by decide) h)
    unfold predicates
    rw [yields_get_bind, if_neg hkind]
    exact yields_pure.mpr ⟨rfl, rfl⟩

theorem reads_predicate {e : Expr} {es : List Expr} (hp : p.1 = .mark .leftBracket)
    (hm : m.1 = .mark .rightBracket)
    (h : Reads s bound limit n len (pull p.2) m (.expression e))
    (hs : Reads s bound limit n len' (pull m.2) q (.predicates es)) :
    Reads s bound limit n (len + 1 + (len' + 1)) p q (.predicates (e :: es)) := by
  intro hq k hk
  obtain ⟨k, rfl⟩ : ∃ j, k = j + 1 := ⟨k - 1, by omega⟩
  have hexpr := h (by simp [Closes, hm])
  have hmore := hs hq k (by omega)
  have hkind : p.1.kind = .leftBracket := congrArg Token.kind hp
  unfold predicates
  rw [yields_get_bind, if_pos hkind, yields_advance_bind]
  refine yields_bind.mpr ⟨e, m, hexpr, yields_expect_bind.mpr ⟨congrArg Token.kind hm, ?_⟩⟩
  exact yields_bind.mpr ⟨es, q, hmore, yields_pure.mpr ⟨rfl, rfl⟩⟩

theorem reads_argument {e : Expr} (h : Reads s bound limit n len p q (.expression e)) :
    Reads s bound limit n len p q (.arguments [e]) := by
  rintro hq _ _ ⟨⟩
  refine ⟨q, h (by simp [Closes, hq]), fun k _ => ?_⟩
  cases k with
  | zero => exact yields_pure.mpr ⟨rfl, rfl⟩
  | succ k =>
    unfold moreArguments
    rw [yields_get_bind, hq, if_neg (by decide)]
    exact yields_pure.mpr ⟨rfl, rfl⟩

theorem reads_moreArguments {e e' : Expr} {es : List Expr} (hm : m.1 = .mark .comma)
    (h : Reads s bound limit n len p m (.expression e))
    (hs : Reads s bound limit n len' (pull m.2) q (.arguments (e' :: es))) :
    Reads s bound limit n (len + (len' + 1)) p q (.arguments (e :: e' :: es)) := by
  rintro hq _ _ ⟨⟩
  obtain ⟨m', hexpr, hmore⟩ := hs hq e' es rfl
  refine ⟨m, h (by simp [Closes, hm]), fun k hk => ?_⟩
  obtain ⟨k, rfl⟩ : ∃ j, k = j + 1 := ⟨k - 1, by omega⟩
  have hkind : m.1.kind = .comma := congrArg Token.kind hm
  unfold moreArguments
  rw [yields_get_bind, if_pos hkind, yields_advance_bind]
  refine yields_bind.mpr ⟨e', m', hexpr, yields_bind.mpr ⟨es, q, hmore k (by omega), ?_⟩⟩
  exact yields_pure.mpr ⟨rfl, rfl⟩

theorem reads_primary {e : Expr} {t : Token String} (hp : Passes p [t] q)
    (h : ∀ c : σ,
      Yields s (primary bound (nested bound limit n Precedence.aboveMinus)) (t, c) e (pull c)) :
    Reads s bound limit n len p q (.primary e) := by
  obtain ⟨rfl, rfl⟩ := passes_singleton.mp hp
  exact h p.2

theorem reads_parentheses {e : Expr} (hp : p.1 = .mark .leftParen) (hm : m.1 = .mark .rightParen)
    (h : Reads s bound limit n len (pull p.2) m (.expression e)) :
    Reads s bound limit n len' p (pull m.2) (.primary e) := by
  have hexpr := h (by simp [Closes, hm])
  change Yields s (primary _ _) _ _ _
  unfold primary
  rw [yields_get_bind, hp]
  simp only [yields_advance_bind]
  refine yields_bind.mpr ⟨e, m, hexpr, yields_expect_bind.mpr ⟨congrArg Token.kind hm, ?_⟩⟩
  exact yields_pure.mpr ⟨rfl, rfl⟩

/-- A list of arguments with its parentheses. It is not empty if its first token is no closing
one. -/
theorem arguments_complete {es : List Expr} (hp : p.1 = .mark .leftParen)
    (hm : m.1 = .mark .rightParen) (hlen : len < bound)
    (hnil : es = [] → pull p.2 = m)
    (hcons : es ≠ [] → (pull p.2).1.kind ≠ .rightParen)
    (h : Reads s bound limit n len (pull p.2) m (.arguments es)) :
    Yields s (arguments bound (nested bound limit n Precedence.aboveMinus)) p es (pull m.2) := by
  unfold arguments
  refine yields_expect_bind.mpr ⟨congrArg Token.kind hp, ?_⟩
  rw [yields_get_bind]
  cases es with
  | nil =>
    have hkind : m.1.kind = .rightParen := congrArg Token.kind hm
    rw [hnil rfl, if_pos hkind, yields_advance_bind]
    exact yields_pure.mpr ⟨rfl, rfl⟩
  | cons e es =>
    obtain ⟨m', hexpr, hmore⟩ := h hm e es rfl
    rw [if_neg (hcons (by simp))]
    refine yields_bind.mpr ⟨e, m', hexpr, yields_bind.mpr ⟨es, m, hmore bound (by omega), ?_⟩⟩
    exact yields_expect_bind.mpr ⟨congrArg Token.kind hm, yields_pure.mpr ⟨rfl, rfl⟩⟩

theorem reads_call {name : String} {es : List Expr} (hp : p.1 = .text .functionName name)
    (hname : s.Allows name es.length)
    (h : Yields s (arguments bound (nested bound limit n Precedence.aboveMinus)) (pull p.2) es q) :
    Reads s bound limit n len p q (.primary (.call name es)) := by
  change Yields s (primary _ _) _ _ _
  unfold primary
  rw [yields_get_bind, hp]
  simp only [yields_takeText_bind]
  refine yields_bind.mpr ⟨es, q, h, yields_check_bind.mpr ⟨check_eq_ok.mpr hname, ?_⟩⟩
  exact yields_pure.mpr ⟨rfl, rfl⟩

/-! Filters and paths. -/

theorem reads_filter {e : Expr} {ps : List Expr} (hlen : len' < bound)
    (h : Reads s bound limit n len p m (.primary e))
    (hs : Reads s bound limit n len' m q (.predicates ps)) :
    Reads s bound limit n (len + len') p q (.filter (if ps = [] then e else .filter e ps)) := by
  intro hq
  refine yields_bind.mpr ⟨e, m, h, yields_bind.mpr ⟨ps, q, hs hq bound (by omega), ?_⟩⟩
  cases ps with
  | nil => exact yields_pure.mpr ⟨rfl, rfl⟩
  | cons p ps => exact yields_pure.mpr ⟨rfl, rfl⟩

section
variable {expression : Descent String Expr} {e : Expr}

theorem path_of_filterPath (hp : p.1.kind.beginsPrimary = true)
    (h : Yields s (filterPath bound expression) p e q) :
    Yields s (path bound expression) p e q := by
  obtain ⟨t, c⟩ := p
  unfold path
  rw [yields_get_bind]
  cases t with
  | mark m =>
    cases m with
    | leftParen => exact h
    | op o => cases o <;> cases hp
    | _ => cases hp
  | text kind => cases kind <;> first | exact h | cases hp

theorem path_of_locationPath (hp : p.1.kind.beginsPrimary = false)
    (h : Yields s (locationPath bound expression) p e q) :
    Yields s (path bound expression) p e q := by
  unfold path
  rw [yields_get_bind]
  split
  all_goals first
    | exact h
    | next hp' => rw [hp'] at hp; cases hp

end

theorem reads_root (hp : Passes p [.mark .slash] q) :
    Reads s bound limit n len p q (.level .path (.path true [])) := by
  intro hends
  obtain ⟨hslash, rfl⟩ := passes_singleton.mp hp
  refine path_of_locationPath (by rw [hslash]; rfl) ?_
  unfold locationPath
  rw [yields_get_bind, hslash]
  simp only [yields_advance_bind, yields_get_bind, hends.not_path.2.2.2]
  exact yields_pure.mpr ⟨rfl, rfl⟩

theorem reads_absolute {mark : Mark} {js ss : List (Step Expr)} (hj : Joins mark js)
    (hp : p.1 = .mark mark) (hlen : len < bound)
    (hbegins : (pull p.2).1.kind.beginsStep = true)
    (h : Reads s bound limit n len (pull p.2) q (.relativePath ss)) :
    Reads s bound limit n len' p q (.level .path (.path true (js ++ ss))) := by
  intro hends
  have hsteps := stepsUpTo_of_reads h hends (k := bound) (by omega)
  refine path_of_locationPath (by rw [hp]; cases hj <;> rfl) ?_
  unfold locationPath
  rw [yields_get_bind, hp]
  cases hj with
  | slash =>
    simp only [yields_advance_bind, yields_get_bind, hbegins]
    exact yields_bind.mpr ⟨ss, q, hsteps, yields_pure.mpr ⟨rfl, rfl⟩⟩
  | slashSlash =>
    simp only [yields_advance_bind]
    exact yields_bind.mpr ⟨ss, q, hsteps, yields_pure.mpr ⟨rfl, rfl⟩⟩

theorem reads_relative {ss : List (Step Expr)} (hlen : len < bound)
    (hbegins : p.1.kind.beginsStep = true)
    (h : Reads s bound limit n len p q (.relativePath ss)) :
    Reads s bound limit n len p q (.level .path (.path false ss)) := by
  intro hends
  have hsteps := stepsUpTo_of_reads h hends (k := bound) (by omega)
  have hyields : Yields s (do return Expr.path false (← steps bound
      (nested bound limit n Precedence.aboveMinus))) p (.path false ss) q :=
    yields_bind.mpr ⟨ss, q, hsteps, yields_pure.mpr ⟨rfl, rfl⟩⟩
  refine path_of_locationPath (TokenKind.beginsPrimary_of_beginsStep hbegins) ?_
  unfold locationPath
  rw [yields_get_bind]
  split
  · next hp =>
    rw [hp] at hbegins
    cases hbegins
  · next hp =>
    rw [hp] at hbegins
    cases hbegins
  · exact hyields

theorem reads_filterPath {e : Expr} (hbegins : p.1.kind.beginsPrimary = true)
    (h : Reads s bound limit n len p q (.filter e)) :
    Reads s bound limit n len p q (.level .path e) := by
  intro hends
  obtain ⟨hbracket, hslash, hslashes, -⟩ := hends.not_path
  refine path_of_filterPath hbegins ?_
  refine yields_bind.mpr ⟨e, q, h hbracket, yields_bind.mpr ⟨[], q, ?_, ?_⟩⟩
  · exact moreSteps_stop bound hslash hslashes
  · exact yields_pure.mpr ⟨rfl, rfl⟩

theorem reads_pathFrom {e : Expr} {mark : Mark} {js ss : List (Step Expr)} (hj : Joins mark js)
    (hm : m.1 = .mark mark) (hlen : len + (len' + 1) < bound) (hne : ss ≠ [])
    (hbegins : p.1.kind.beginsPrimary = true) (h : Reads s bound limit n len p m (.filter e))
    (hs : Reads s bound limit n len' (pull m.2) q (.relativePath ss)) :
    Reads s bound limit n (len + (len' + 1)) p q (.level .path (.pathFrom e (js ++ ss))) := by
  intro hends
  obtain ⟨k, rfl⟩ : ∃ j, bound = j + 1 := ⟨bound - 1, by omega⟩
  have hbracket := hm ▸ hj.ne_leftBracket
  have hmore := moreSteps_joins hj hm (stepsUpTo_of_reads hs hends (k := k) (by omega))
  refine path_of_filterPath hbegins ?_
  refine yields_bind.mpr ⟨e, m, h hbracket, yields_bind.mpr ⟨js ++ ss, q, hmore, ?_⟩⟩
  split
  · next hnil => exact absurd (List.append_eq_nil_iff.mp hnil).2 hne
  · exact yields_pure.mpr ⟨rfl, rfl⟩

theorem begins_of_passes {X : Phrase} {ts : List (Token String)} {d : Nat}
    (h : Derives s.resolver s.Allows X ts d) (hX : ∀ es, X ≠ .arguments es ∧ X ≠ .predicates es)
    (hp : Passes p ts q) : X.begins p.1.kind = true := by
  rcases h.begins with ⟨t, us, rfl, ht⟩ | ⟨es, rfl | rfl⟩
  · rw [(passes_cons.mp hp).1]
    exact ht
  · exact absurd rfl (hX es).1
  · exact absurd rfl (hX es).2

/-- Whether there are arguments shows at the first token behind the parenthesis. -/
theorem begins_arguments {es : List Expr} {ts : List (Token String)} {d : Nat}
    (h : Derives s.resolver s.Allows (.arguments es) ts d) (hp : Passes p ts q) :
    (es = [] → p = q) ∧ (es ≠ [] → p.1.kind ≠ .rightParen) := by
  have hfirst {e : Expr} {ts : List (Token String)} {d : Nat} {q : Place String σ}
      (h : Derives s.resolver s.Allows (.expression e) ts d) (hp : Passes p ts q) :
      p.1.kind ≠ .rightParen := by
    intro hkind
    have hbegins := begins_of_passes h (by simp) hp
    rw [hkind] at hbegins
    cases hbegins
  cases h with
  | noArgument => exact ⟨fun _ => passes_nil.mp hp, fun hne => absurd rfl hne⟩
  | argument h => exact ⟨by simp, fun _ => hfirst h hp⟩
  | moreArguments h =>
    obtain ⟨m, hp, -⟩ := passes_append.mp hp
    exact ⟨by simp, fun _ => hfirst h hp⟩

/-- Every phrase is read, at whatever place it begins. -/
theorem reads (s : Setting) (bound limit : Nat) {X : Phrase} {ts : List (Token String)} {d : Nat}
    (h : Derives s.resolver s.Allows X ts d) {n : Nat} {p q : Place String σ} (hd : d ≤ n)
    (hlen : ts.length < bound) (hp : Passes p ts q) : Reads s bound limit n ts.length p q X := by
  induction h generalizing n p q with
  | expression _ ih =>
    obtain ⟨n, rfl⟩ : ∃ j, n = j + 1 := ⟨n - 1, by omega⟩
    exact reads_expression (ih (by omega) hlen hp)
  | operand _ ih => exact reads_operand (ih hd hlen hp)
  | operator ho _ _ ihl ihr =>
    obtain ⟨m, hl, hr⟩ := passes_append.mp hp
    obtain ⟨hm, hr⟩ := passes_cons.mp hr
    simp only [List.length_append, List.length_cons] at hlen ⊢
    exact reads_operator ho hlen hm (ihl (by omega) (by omega) hl) (ihr (by omega) (by omega) hr)
  | union h ih =>
    refine reads_union (fun hkind => ?_) (ih hd hlen hp)
    have hbegins := begins_of_passes h (by simp) hp
    rw [hkind] at hbegins
    cases hbegins
  | minus _ ih =>
    obtain ⟨n, rfl⟩ : ∃ j, n = j + 1 := ⟨n - 1, by omega⟩
    obtain ⟨hminus, hp⟩ := passes_cons.mp hp
    rw [List.length_cons] at hlen ⊢
    exact reads_minus hminus (ih (by omega) (by omega) hp)
  | root => exact reads_root hp
  | absolute hj h ih =>
    obtain ⟨hm, hp⟩ := passes_cons.mp hp
    rw [List.length_cons] at hlen
    have hbegins := begins_of_passes h (by simp) hp
    exact reads_absolute hj hm (by omega) hbegins (ih hd (by omega) hp)
  | relative h ih => exact reads_relative hlen (begins_of_passes h (by simp) hp) (ih hd hlen hp)
  | filter h ih => exact reads_filterPath (begins_of_passes h (by simp) hp) (ih hd hlen hp)
  | pathFrom h hj hs ihe ihs =>
    obtain ⟨m, he, hs'⟩ := passes_append.mp hp
    obtain ⟨hm, hs'⟩ := passes_cons.mp hs'
    simp only [List.length_append, List.length_cons] at hlen ⊢
    exact reads_pathFrom hj hm hlen hs.relative_ne_nil (begins_of_passes h (by simp) he)
      (ihe (by omega) (by omega) he) (ihs (by omega) (by omega) hs')
  | primary _ ih =>
    have hfilter := reads_filter (by omega) (ih hd hlen hp) (reads_noPredicate q)
    exact hfilter
  | filtered _ _ ih ihp =>
    obtain ⟨m, he, hps⟩ := passes_append.mp hp
    rw [List.length_append] at hlen ⊢
    exact reads_filter (by omega) (ih (by omega) (by omega) he) (ihp (by omega) (by omega) hps)
  | variableReference name =>
    exact reads_primary hp fun c => yields_takeText_bind.mpr (yields_pure.mpr ⟨rfl, rfl⟩)
  | literal value =>
    exact reads_primary hp fun c => yields_takeText_bind.mpr (yields_pure.mpr ⟨rfl, rfl⟩)
  | @number raw x hx =>
    refine reads_primary hp fun c => ?_
    unfold primary
    rw [yields_get_bind]
    simp only [yields_takeText_bind, hx]
    exact yields_pure.mpr ⟨rfl, rfl⟩
  | parentheses _ ih =>
    obtain ⟨hopen, hrest⟩ := passes_cons.mp hp
    obtain ⟨m, hts, hclose⟩ := passes_append.mp hrest
    obtain ⟨hm, rfl⟩ := passes_singleton.mp hclose
    simp only [List.length_append, List.length_cons] at hlen
    exact reads_parentheses hopen hm (ih hd (by omega) hts)
  | call hname h ih =>
    obtain ⟨hfunction, hrest⟩ := passes_cons.mp hp
    obtain ⟨hopen, hrest⟩ := passes_cons.mp hrest
    obtain ⟨m, hts, hclose⟩ := passes_append.mp hrest
    obtain ⟨hm, rfl⟩ := passes_singleton.mp hclose
    simp only [List.length_append, List.length_cons] at hlen
    obtain ⟨hnil, hcons⟩ := begins_arguments h hts
    exact reads_call hfunction hname
      (arguments_complete hopen hm (by omega) hnil hcons (ih hd (by omega) hts))
  | noArgument => exact fun _ e es hes => by cases hes
  | argument _ ih => exact reads_argument (ih hd hlen hp)
  | moreArguments _ _ ih ihs =>
    obtain ⟨m, he, hs⟩ := passes_append.mp hp
    obtain ⟨hm, hs⟩ := passes_cons.mp hs
    simp only [List.length_append, List.length_cons] at hlen ⊢
    exact reads_moreArguments hm (ih (by omega) (by omega) he) (ihs (by omega) (by omega) hs)
  | noPredicate =>
    obtain rfl := passes_nil.mp hp
    exact reads_noPredicate p
  | predicate _ _ ih ihs =>
    obtain ⟨hopen, hp⟩ := passes_cons.mp hp
    obtain ⟨m, he, hs⟩ := passes_append.mp hp
    obtain ⟨hm, hs⟩ := passes_cons.mp hs
    simp only [List.length_append, List.length_cons] at hlen ⊢
    exact reads_predicate hopen hm (ih (by omega) (by omega) he) (ihs (by omega) (by omega) hs)
  | oneStep _ ih => exact reads_oneStep (ih hd hlen hp)
  | moreSteps _ hj _ ihs ih =>
    obtain ⟨m, hs, h⟩ := passes_append.mp hp
    obtain ⟨hm, h⟩ := passes_cons.mp h
    simp only [List.length_append, List.length_cons] at hlen ⊢
    exact reads_moreSteps hj hm (ihs (by omega) (by omega) hs) (ih (by omega) (by omega) h)
  | self => exact reads_abbreviated hp (Or.inl ⟨rfl, rfl⟩)
  | parent => exact reads_abbreviated hp (Or.inr ⟨rfl, rfl⟩)
  | stepAlong ha ht _ ih =>
    obtain ⟨m, hts, hps⟩ := passes_append.mp hp
    simp only [List.length_append] at hlen
    exact reads_stepAlong ha ht (by omega) hts (ih hd (by omega) hps)

/-- An expression is read as a whole where the end follows it. -/
theorem whole_complete {e : Expr} {ts : List (Token String)} {d : Nat}
    (h : Derives s.resolver s.Allows (.expression e) ts d) (hd : d ≤ limit)
    (hlen : ts.length < bound) (hp : Passes p ts q) (hend : q.1 = .mark .endOfInput) :
    Yields s (whole bound limit) p e (pull q.2) := by
  have hcloses : Closes q.1 := by simp [Closes, hend]
  have hnested := reads s bound limit h hd hlen hp hcloses
  refine yields_bind.mpr ⟨e, q, hnested, yields_expect_bind.mpr ⟨congrArg Token.kind hend, ?_⟩⟩
  exact yields_pure.mpr ⟨rfl, rfl⟩

end Descent
end XPath
