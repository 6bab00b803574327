import XPath.Proofs.Descent.Yields
import XPath.Proofs.Grammar

/-! What the descent accepts, the grammar derives. -/
namespace XPath.Descent
open Source (pull)
variable {σ : Type} [Source σ] {s : Setting} {n : Nat}

/-- From `p` to `q` there is a phrase with at most `n` levels of nesting. -/
def Gives (s : Setting) (n : Nat) (p : Place String σ) (X : Phrase) (q : Place String σ) : Prop :=
  ∃ ts d, Passes p ts q ∧ Derives s.resolver s.Allows X ts d ∧ d ≤ n

theorem passes_mark {p q : Place String σ} {m : Mark} {ts : List (Token String)}
    (hm : m ∈ [Mark.endOfInput, .leftParen, .rightParen, .leftBracket, .rightBracket, .comma])
    (hp : p.1.kind = m.kind) (h : Passes (pull p.2) ts q) : Passes p (.mark m :: ts) q :=
  passes_cons.mpr ⟨Token.eq_mark_of_kind hm hp, h⟩

section
variable {expression : Descent String Expr}
  (he : ∀ (p : Place String σ) e q, Yields s expression p e q → Gives s n p (.expression e) q)
  (bound : Nat)
include he

theorem moreArguments_sound {p q : Place String σ} {es : List Expr} {k : Nat}
    (h : Yields s (moreArguments expression k) p es q) :
    es = [] ∧ q = p ∨
      ∃ e es', es = e :: es' ∧ p.1 = .mark .comma ∧
        Gives s n (pull p.2) (.arguments (e :: es')) q := by
  induction k generalizing p es with
  | zero => exact Or.inl (yields_pure.mp h)
  | succ k ih =>
    unfold moreArguments at h
    rw [yields_get_bind] at h
    split at h
    · next hcomma =>
      rw [yields_advance_bind, yields_bind] at h
      obtain ⟨e, m, hexpr, h⟩ := h
      obtain ⟨es', m', hmore, h⟩ := yields_bind.mp h
      obtain ⟨rfl, rfl⟩ := yields_pure.mp h
      obtain ⟨ts, d, hts, hd, hle⟩ := he _ _ _ hexpr
      refine Or.inr ⟨e, es', rfl, Token.eq_mark_of_kind (m := .comma) (by decide) hcomma, ?_⟩
      rcases ih hmore with ⟨rfl, rfl⟩ | ⟨e', es, rfl, hm, us, d', hus, hd', hle'⟩
      · exact ⟨ts, d, hts, .argument hd, hle⟩
      · exact ⟨_, _, hts.append (passes_cons.mpr ⟨hm, hus⟩), .moreArguments hd hd',
          Nat.max_le.mpr ⟨hle, hle'⟩⟩
    · exact Or.inl (yields_pure.mp h)

theorem arguments_sound {p q : Place String σ} {es : List Expr}
    (h : Yields s (arguments bound expression) p es q) :
    ∃ ts d, Passes p (.mark .leftParen :: ts ++ [.mark .rightParen]) q ∧
      Derives s.resolver s.Allows (.arguments es) ts d ∧ d ≤ n := by
  unfold arguments at h
  rw [yields_expect_bind, yields_get_bind] at h
  obtain ⟨hopen, h⟩ := h
  split at h
  · next hclose =>
    rw [yields_advance_bind, yields_pure] at h
    obtain ⟨rfl, rfl⟩ := h
    refine ⟨[], 0, passes_mark (m := .leftParen) (by decide) hopen ?_, .noArgument, Nat.zero_le n⟩
    exact passes_mark (m := .rightParen) (by decide) hclose (.nil _)
  · obtain ⟨e, m, hexpr, h⟩ := yields_bind.mp h
    obtain ⟨es', m', hmore, h⟩ := yields_bind.mp h
    rw [yields_expect_bind, yields_pure] at h
    obtain ⟨hclose, rfl, rfl⟩ := h
    have hlast : Passes m' [.mark .rightParen] (pull m'.2) :=
      passes_mark (m := .rightParen) (by decide) hclose (.nil _)
    obtain ⟨ts, d, hts, hd, hle⟩ := he _ _ _ hexpr
    rcases moreArguments_sound he hmore with ⟨rfl, rfl⟩ | ⟨e', es, rfl, hm, us, d', hus, hd', hle'⟩
    · refine ⟨ts, d, passes_mark (m := .leftParen) (by decide) hopen ?_, .argument hd, hle⟩
      exact hts.append hlast
    · refine ⟨_, _, passes_mark (m := .leftParen) (by decide) hopen ?_, .moreArguments hd hd',
        Nat.max_le.mpr ⟨hle, hle'⟩⟩
      exact (hts.append (passes_cons.mpr ⟨hm, hus⟩)).append hlast

theorem predicates_sound {p q : Place String σ} {ps : List Expr} {k : Nat}
    (h : Yields s (predicates expression k) p ps q) : Gives s n p (.predicates ps) q := by
  induction k generalizing p ps with
  | zero =>
    obtain ⟨rfl, rfl⟩ := yields_pure.mp h
    exact ⟨[], 0, .nil q, .noPredicate, Nat.zero_le n⟩
  | succ k ih =>
    unfold predicates at h
    rw [yields_get_bind] at h
    split at h
    · next hopen =>
      rw [yields_advance_bind, yields_bind] at h
      obtain ⟨e, m, hexpr, h⟩ := h
      rw [yields_expect_bind, yields_bind] at h
      obtain ⟨hclose, es, m', hmore, h⟩ := h
      obtain ⟨rfl, rfl⟩ := yields_pure.mp h
      obtain ⟨ts, d, hts, hd, hle⟩ := he _ _ _ hexpr
      obtain ⟨us, d', hus, hd', hle'⟩ := ih hmore
      refine ⟨_, _, passes_mark (m := .leftBracket) (by decide) hopen ?_, .predicate hd hd',
        Nat.max_le.mpr ⟨hle, hle'⟩⟩
      exact hts.append (passes_mark (m := .rightBracket) (by decide) hclose hus)
    · obtain ⟨rfl, rfl⟩ := yields_pure.mp h
      exact ⟨[], 0, .nil q, .noPredicate, Nat.zero_le n⟩

theorem primary_sound {p q : Place String σ} {e : Expr}
    (h : Yields s (primary bound expression) p e q) : Gives s n p (.primary e) q := by
  have hone := passes_one p
  unfold primary at h
  rw [yields_get_bind] at h
  split at h
  · next name hp =>
    rw [yields_takeText_bind, yields_pure] at h
    obtain ⟨rfl, rfl⟩ := h
    exact ⟨_, 0, hp ▸ hone, .variableReference name, Nat.zero_le n⟩
  · next value hp =>
    rw [yields_takeText_bind, yields_pure] at h
    obtain ⟨rfl, rfl⟩ := h
    exact ⟨_, 0, hp ▸ hone, .literal value, Nat.zero_le n⟩
  · next raw hp =>
    rw [yields_takeText_bind] at h
    split at h
    · next x hx =>
      obtain ⟨rfl, rfl⟩ := yields_pure.mp h
      exact ⟨_, 0, hp ▸ hone, .number hx, Nat.zero_le n⟩
    · exact absurd h yields_throw
  · next hp =>
    rw [yields_advance_bind, yields_bind] at h
    obtain ⟨e', m, hexpr, h⟩ := h
    rw [yields_expect_bind, yields_pure] at h
    obtain ⟨hclose, rfl, rfl⟩ := h
    obtain ⟨ts, d, hts, hd, hle⟩ := he _ _ _ hexpr
    refine ⟨_, d, ?_, .parentheses hd, hle⟩
    have hlast := passes_mark (m := .rightParen) (by decide) hclose (.nil (pull m.2))
    exact passes_cons.mpr ⟨hp, hts.append hlast⟩
  · next name hp =>
    rw [yields_takeText_bind, yields_bind] at h
    obtain ⟨es, m, hargs, h⟩ := h
    rw [yields_check_bind, yields_pure] at h
    obtain ⟨hcheck, rfl, rfl⟩ := h
    obtain ⟨ts, d, hts, hd, hle⟩ := arguments_sound he bound hargs
    exact ⟨_, d, passes_cons.mpr ⟨hp, hts⟩, .call (check_eq_ok.mp hcheck) hd, hle⟩
  · exact absurd h yields_refuse

theorem filter_sound {p q : Place String σ} {e : Expr}
    (h : Yields s (filter bound expression) p e q) : Gives s n p (.filter e) q := by
  unfold filter at h
  obtain ⟨e', m, hprimary, h⟩ := yields_bind.mp h
  obtain ⟨ps, m', hpredicates, h⟩ := yields_bind.mp h
  obtain ⟨ts, d, hts, hd, hle⟩ := primary_sound he bound hprimary
  obtain ⟨us, d', hus, hd', hle'⟩ := predicates_sound he hpredicates
  cases ps with
  | nil =>
    obtain ⟨rfl, rfl⟩ := yields_pure.mp h
    cases hd' with
    | noPredicate =>
      obtain rfl := passes_nil.mp hus
      exact ⟨ts, d, hts, .primary hd, hle⟩
  | cons e ps =>
    obtain ⟨rfl, rfl⟩ := yields_pure.mp h
    exact ⟨_, _, hts.append hus, .filtered hd hd', Nat.max_le.mpr ⟨hle, hle'⟩⟩

end

/-- From `p` to `q` there are a separator and steps, or nothing. -/
def GivesFurther (s : Setting) (n : Nat) (p : Place String σ) (ss : List (Step Expr))
    (q : Place String σ) : Prop :=
  ss = [] ∧ q = p ∨ ∃ mark js ss', Joins mark js ∧ ss = js ++ ss' ∧ p.1 = .mark mark ∧
    Gives s n (pull p.2) (.relativePath ss') q

theorem GivesFurther.behind {p q m : Place String σ} {first : Step Expr} {ss : List (Step Expr)}
    (h : GivesFurther s n m ss q) (hfirst : Gives s n p (.step first) m) :
    Gives s n p (.relativePath (first :: ss)) q := by
  obtain ⟨ts, d, hts, hd, hle⟩ := hfirst
  rcases h with ⟨rfl, rfl⟩ | ⟨mark, js, ss', hj, rfl, hm, us, d', hus, hd', hle'⟩
  · exact ⟨ts, d, hts, .oneStep hd, hle⟩
  · exact ⟨_, _, hts.append (passes_cons.mpr ⟨hm, hus⟩), hd.relative_cons hj hd',
      Nat.max_le.mpr ⟨hle, hle'⟩⟩

theorem nodeTest_sound {p q : Place String σ} {test : NodeTest} (h : Yields s nodeTest p test q) :
    ∃ ts, Passes p ts q ∧ SpellsTest s.resolver ts test := by
  unfold nodeTest at h
  rw [yields_get_bind] at h
  split at h
  · next name hp =>
    rw [yields_takeText_bind, yields_bind] at h
    obtain ⟨n, m, hexpand, h⟩ := h
    obtain ⟨hn, rfl⟩ := yields_expand.mp hexpand
    obtain ⟨rfl, rfl⟩ := yields_pure.mp h
    exact ⟨_, hp ▸ passes_one p, .name hn⟩
  · next name hp =>
    rw [yields_takeText_bind, yields_expect_bind, yields_expect_bind, yields_pure] at h
    obtain ⟨hopen, hclose, rfl, rfl⟩ := h
    refine ⟨_, passes_cons.mpr ⟨hp, ?_⟩, .nodeType name⟩
    exact passes_mark (m := .leftParen) (by decide) hopen
      (passes_mark (m := .rightParen) (by decide) hclose (.nil _))
  · next name hp =>
    rw [yields_takeText_bind, yields_expect_bind, yields_get_bind] at h
    obtain ⟨hopen, h⟩ := h
    split at h
    · next target ht =>
      rw [yields_bind] at h
      obtain ⟨_, m, htake, h⟩ := h
      obtain ⟨_, htarget, rfl⟩ := yields_map.mp htake
      obtain ⟨rfl, rfl⟩ := yields_takeText.mp htarget
      rw [yields_expect_bind, yields_pure] at h
      obtain ⟨hclose, rfl, rfl⟩ := h
      refine ⟨_, passes_cons.mpr ⟨hp, ?_⟩, .target name _⟩
      refine passes_mark (m := .leftParen) (by decide) hopen (passes_cons.mpr ⟨ht, ?_⟩)
      exact passes_mark (m := .rightParen) (by decide) hclose (.nil _)
    · rw [yields_bind] at h
      obtain ⟨_, m, hnone, h⟩ := h
      obtain ⟨rfl, rfl⟩ := yields_pure.mp hnone
      rw [yields_expect_bind, yields_pure] at h
      obtain ⟨hclose, rfl, rfl⟩ := h
      refine ⟨_, passes_cons.mpr ⟨hp, ?_⟩, .processingInstruction name⟩
      exact passes_mark (m := .leftParen) (by decide) hopen
        (passes_mark (m := .rightParen) (by decide) hclose (.nil _))
  · exact absurd h yields_refuse

section
variable {expression : Descent String Expr}
  (he : ∀ (p : Place String σ) e q, Yields s expression p e q → Gives s n p (.expression e) q)
  (bound : Nat)
include he

theorem stepAlong_sound {p m q : Place String σ} {axis : Axis} {step : Step Expr}
    {as : List (Token String)} (ha : SpellsAxis as axis) (hp : Passes p as m)
    (h : Yields s (stepAlong bound expression axis) m step q) : Gives s n p (.step step) q := by
  unfold stepAlong at h
  obtain ⟨test, m', htest, h⟩ := yields_bind.mp h
  obtain ⟨ps, m'', hps, h⟩ := yields_bind.mp h
  obtain ⟨rfl, rfl⟩ := yields_pure.mp h
  obtain ⟨ts, hts, htest⟩ := nodeTest_sound htest
  obtain ⟨us, d, hus, hd, hle⟩ := predicates_sound he hps
  exact ⟨_, d, (hp.append hts).append hus, .stepAlong ha htest hd, hle⟩

theorem step_sound {p q : Place String σ} {step : Step Expr}
    (h : Yields s (Descent.step bound expression) p step q) : Gives s n p (.step step) q := by
  have hone := passes_one p
  unfold Descent.step at h
  rw [yields_get_bind] at h
  split at h
  · next hp =>
    rw [yields_advance_bind, yields_pure] at h
    obtain ⟨rfl, rfl⟩ := h
    exact ⟨_, 0, hp ▸ hone, .self, Nat.zero_le n⟩
  · next hp =>
    rw [yields_advance_bind, yields_pure] at h
    obtain ⟨rfl, rfl⟩ := h
    exact ⟨_, 0, hp ▸ hone, .parent, Nat.zero_le n⟩
  · next a hp =>
    rw [yields_advance_bind] at h
    exact stepAlong_sound he bound (.axis a) (hp ▸ hone) h
  · next hp =>
    rw [yields_advance_bind] at h
    exact stepAlong_sound he bound .atSign (hp ▸ hone) h
  · exact stepAlong_sound he bound .child (.nil p) h

theorem moreSteps_sound {p q : Place String σ} {ss : List (Step Expr)} {k : Nat}
    (h : Yields s (moreSteps bound expression k) p ss q) : GivesFurther s n p ss q := by
  induction k generalizing p ss with
  | zero => exact Or.inl (yields_pure.mp h)
  | succ k ih =>
    unfold moreSteps at h
    rw [yields_get_bind] at h
    split at h
    · next hp =>
      rw [yields_advance_bind, yields_bind] at h
      obtain ⟨first, m, hstep, h⟩ := h
      obtain ⟨ss', m', hmore, h⟩ := yields_bind.mp h
      obtain ⟨rfl, rfl⟩ := yields_pure.mp h
      have hfirst := step_sound he bound hstep
      exact Or.inr ⟨.slash, [], _, .slash, rfl, hp, (ih hmore).behind hfirst⟩
    · next hp =>
      rw [yields_advance_bind, yields_bind] at h
      obtain ⟨first, m, hstep, h⟩ := h
      obtain ⟨ss', m', hmore, h⟩ := yields_bind.mp h
      obtain ⟨rfl, rfl⟩ := yields_pure.mp h
      have hfirst := step_sound he bound hstep
      exact Or.inr ⟨.slashSlash, _, _, .slashSlash, rfl, hp, (ih hmore).behind hfirst⟩
    · exact Or.inl (yields_pure.mp h)

theorem steps_sound {p q : Place String σ} {ss : List (Step Expr)}
    (h : Yields s (steps bound expression) p ss q) : Gives s n p (.relativePath ss) q := by
  unfold steps at h
  obtain ⟨first, m, hstep, h⟩ := yields_bind.mp h
  obtain ⟨ss', m', hmore, h⟩ := yields_bind.mp h
  obtain ⟨rfl, rfl⟩ := yields_pure.mp h
  have hfirst := step_sound he bound hstep
  exact (moreSteps_sound he bound hmore).behind hfirst

theorem absolute_sound {p q : Place String σ} {m : Mark} {js ss : List (Step Expr)}
    (hj : Joins m js) (hp : p.1 = .mark m) (h : Yields s (steps bound expression) (pull p.2) ss q) :
    Gives s n p (.level .path (.path true (js ++ ss))) q := by
  obtain ⟨ts, d, hts, hd, hle⟩ := steps_sound he bound h
  exact ⟨_, d, passes_cons.mpr ⟨hp, hts⟩, .absolute hj hd, hle⟩

theorem locationPath_sound {p q : Place String σ} {e : Expr}
    (h : Yields s (locationPath bound expression) p e q) : Gives s n p (.level .path e) q := by
  unfold locationPath at h
  rw [yields_get_bind] at h
  split at h
  · next hp =>
    rw [yields_advance_bind, yields_get_bind] at h
    split at h
    · obtain ⟨ss, m, hsteps, h⟩ := yields_bind.mp h
      obtain ⟨rfl, rfl⟩ := yields_pure.mp h
      exact absolute_sound he bound .slash hp hsteps
    · obtain ⟨rfl, rfl⟩ := yields_pure.mp h
      exact ⟨_, 0, hp ▸ passes_one p, .root, Nat.zero_le n⟩
  · next hp =>
    rw [yields_advance_bind, yields_bind] at h
    obtain ⟨ss, m, hsteps, h⟩ := h
    obtain ⟨rfl, rfl⟩ := yields_pure.mp h
    exact absolute_sound he bound .slashSlash hp hsteps
  · obtain ⟨ss, m, hsteps, h⟩ := yields_bind.mp h
    obtain ⟨rfl, rfl⟩ := yields_pure.mp h
    obtain ⟨ts, d, hts, hd, hle⟩ := steps_sound he bound hsteps
    exact ⟨ts, d, hts, .relative hd, hle⟩

theorem filterPath_sound {p q : Place String σ} {e : Expr}
    (h : Yields s (filterPath bound expression) p e q) : Gives s n p (.level .path e) q := by
  unfold filterPath at h
  obtain ⟨start, m, hfilter, hrest⟩ := yields_bind.mp h
  obtain ⟨ss, m', hmore, hend⟩ := yields_bind.mp hrest
  obtain ⟨ts, d, hts, hd, hle⟩ := filter_sound he bound hfilter
  rcases moreSteps_sound he bound hmore with
    ⟨rfl, rfl⟩ | ⟨mark, js, ss', hj, rfl, hm, us, d', hus, hd', hle'⟩
  · obtain ⟨rfl, rfl⟩ := yields_pure.mp hend
    exact ⟨ts, d, hts, .filter hd, hle⟩
  · split at hend
    · next hnil => exact absurd (List.append_eq_nil_iff.mp hnil).2 hd'.relative_ne_nil
    · obtain ⟨rfl, rfl⟩ := yields_pure.mp hend
      exact ⟨_, _, hts.append (passes_cons.mpr ⟨hm, hus⟩), .pathFrom hd hj hd',
        Nat.max_le.mpr ⟨hle, hle'⟩⟩

theorem path_sound {p q : Place String σ} {e : Expr} (h : Yields s (path bound expression) p e q) :
    Gives s n p (.level .path e) q := by
  unfold path at h
  rw [yields_get_bind] at h
  split at h
  all_goals first
    | exact filterPath_sound he bound h
    | exact locationPath_sound he bound h

end

/-- A level of left associative operators over operands of the next level. -/
theorem chain_sound {operand : Descent String Expr} {pr : Precedence}
    (ho : ∀ (p : Place String σ) e q, Yields s operand p e q → Gives s n p (.level pr.operand e) q)
    {p m q : Place String σ} {left e : Expr} {k : Nat}
    (hleft : Gives s n p (.level (.binary pr) left) m)
    (h : Yields s (chain pr operand k left) m e q) : Gives s n p (.level (.binary pr) e) q := by
  induction k generalizing m left with
  | zero =>
    obtain ⟨rfl, rfl⟩ := yields_pure.mp h
    exact hleft
  | succ k ih =>
    unfold chain at h
    rw [yields_get_bind] at h
    split at h
    · next o hm =>
      split at h
      · next hpr =>
        rw [yields_advance_bind, yields_bind] at h
        obtain ⟨right, m', hright, h⟩ := h
        obtain ⟨ts, d, hts, hd, hle⟩ := hleft
        obtain ⟨us, d', hus, hd', hle'⟩ := ho _ _ _ hright
        refine ih ⟨_, _, hts.append (passes_cons.mpr ⟨hm, hus⟩), .operator hpr hd hd',
          Nat.max_le.mpr ⟨hle, hle'⟩⟩ h
      · obtain ⟨rfl, rfl⟩ := yields_pure.mp h
        exact hleft
    · obtain ⟨rfl, rfl⟩ := yields_pure.mp h
      exact hleft

theorem level_sound {operand : Descent String Expr} {pr : Precedence}
    (ho : ∀ (p : Place String σ) e q, Yields s operand p e q → Gives s n p (.level pr.operand e) q)
    {bound : Nat} {p q : Place String σ} {e : Expr}
    (h : Yields s (do chain pr operand bound (← operand)) p e q) :
    Gives s n p (.level (.binary pr) e) q := by
  obtain ⟨left, m, hleft, h⟩ := yields_bind.mp h
  obtain ⟨ts, d, hts, hd, hle⟩ := ho _ _ _ hleft
  exact chain_sound ho ⟨ts, d, hts, .operand hd, hle⟩ h

/-- The level of expressions whose loosest operators are the first of `levels`. -/
def levelOf : List Precedence → Level
  | [] => .unary
  | pr :: _ => .binary pr

/-- Levels that stand directly one above the other, down to the unary one. -/
def Stacked : List Precedence → Prop
  | [] => True
  | pr :: levels => pr.operand = levelOf levels ∧ Stacked levels

theorem stacked_aboveMinus : Stacked Precedence.aboveMinus :=
  ⟨rfl, rfl, rfl, rfl, rfl, rfl, trivial⟩

section
variable {deeper : List Precedence → Descent String Expr}
  (he : ∀ (p : Place String σ) e q, Yields s (deeper Precedence.aboveMinus) p e q →
    Gives s n p (.expression e) q)
  (hm : ∀ (p : Place String σ) e q, Yields s (deeper []) p e q →
    ∃ k, n = k + 1 ∧ Gives s k p (.level .unary e) q) (bound : Nat)
include he hm

theorem unary_sound {p q : Place String σ} {e : Expr} (h : Yields s (unary bound deeper) p e q) :
    Gives s n p (.level .unary e) q := by
  unfold unary at h
  rw [yields_get_bind] at h
  split at h
  · next hp =>
    rw [yields_advance_bind, yields_bind] at h
    obtain ⟨operand, m, hoperand, h⟩ := h
    obtain ⟨rfl, rfl⟩ := yields_pure.mp h
    obtain ⟨k, rfl, ts, d, hts, hd, hle⟩ := hm _ _ _ hoperand
    exact ⟨_, _, passes_cons.mpr ⟨hp, hts⟩, .minus hd, Nat.succ_le_succ hle⟩
  · have hpath (p : Place String σ) (e : Expr) (q : Place String σ)
        (h : Yields s (path bound (deeper Precedence.aboveMinus)) p e q) :
        Gives s n p (.level Precedence.union.operand e) q := path_sound he bound h
    obtain ⟨ts, d, hts, hd, hle⟩ := level_sound hpath h
    exact ⟨ts, d, hts, .union hd, hle⟩

theorem binary_sound {levels : List Precedence} (hlevels : Stacked levels) {p q : Place String σ}
    {e : Expr} (h : Yields s (binary bound deeper levels) p e q) :
    Gives s n p (.level (levelOf levels) e) q := by
  induction levels generalizing p e q with
  | nil => exact unary_sound he hm bound h
  | cons pr levels ih =>
    obtain ⟨hoperand, hlevels⟩ := hlevels
    have hgives (p : Place String σ) (e : Expr) (q : Place String σ)
        (h : Yields s (binary bound deeper levels) p e q) :
        Gives s n p (.level pr.operand e) q := by
      rw [hoperand]
      exact ih hlevels h
    exact level_sound hgives h

end

theorem nested_sound (bound limit : Nat) (n : Nat) :
    (∀ (p : Place String σ) e q, Yields s (nested bound limit n Precedence.aboveMinus) p e q →
      Gives s n p (.expression e) q) ∧
    ∀ (p : Place String σ) e q, Yields s (nested bound limit n []) p e q →
      ∃ k, n = k + 1 ∧ Gives s k p (.level .unary e) q := by
  induction n with
  | zero => exact ⟨fun p e q h => absurd h yields_throw, fun p e q h => absurd h yields_throw⟩
  | succ n ih =>
    refine ⟨fun p e q h => ?_, fun p e q h => ⟨n, rfl, unary_sound ih.1 ih.2 bound h⟩⟩
    rw [nested] at h
    obtain ⟨ts, d, hts, hd, hle⟩ := binary_sound ih.1 ih.2 bound stacked_aboveMinus h
    exact ⟨ts, d + 1, hts, .expression hd, Nat.succ_le_succ hle⟩

theorem whole_sound {bound limit : Nat} {p q : Place String σ} {e : Expr}
    (h : Yields s (whole bound limit) p e q) :
    ∃ m, Gives s limit p (.expression e) m ∧ m.1 = .mark .endOfInput := by
  unfold whole at h
  obtain ⟨e', m, hnested, hend⟩ := yields_bind.mp h
  rw [yields_expect_bind, yields_pure] at hend
  obtain ⟨hkind, rfl, -⟩ := hend
  exact ⟨m, (nested_sound bound limit limit).1 _ _ _ hnested,
    Token.eq_mark_of_kind (m := .endOfInput) (by decide) hkind⟩

end XPath.Descent
