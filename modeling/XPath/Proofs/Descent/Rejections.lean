import XPath.Proofs.Descent.Soundness

/-! Where the descent gives up. Whatever it has read by then can be completed to a phrase, so it has
not gone on behind a token with which no phrase goes on. -/
namespace XPath

/-- Neither a name nor a call is a reason to reject an expression. -/
structure Setting.Lenient (s : Setting) : Prop where
  expands (name : String) : ∃ n, expandName s.resolver name = .ok n
  allows (name : String) (count : Nat) : s.check name count = .ok ()

/-- With a namespace for every short name and calls not held against the registry, neither a name
nor a call is a reason to reject an expression. -/
theorem Setting.lenient {s : Setting} {resolver : Resolver}
    (hfunctions : s.options.validateFunctions = false) (hresolver : s.resolver = some resolver)
    (hbinds : ∀ short, (resolver.lookup short).isSome = true) : s.Lenient := by
  constructor
  · intro name
    unfold expandName
    split
    · exact ⟨_, rfl⟩
    · next short localName _ =>
      obtain ⟨uri, huri⟩ := Option.isSome_iff_exists.mp (hbinds (String.ofList short))
      simp only [hresolver, Option.bind_some, huri]
      exact ⟨_, rfl⟩
  · intro name count
    unfold Setting.check
    rw [hfunctions]
    rfl

namespace Descent
open Source (pull)
variable {σ : Type} [Source σ] {s : Setting} {α β : Type} {p m q : Place String σ}
  {r : Rejection} {c : σ}

/-- From `p` on, the action fails with `r` and leaves `c` behind. -/
def Fails (s : Setting) (x : Descent String α) (p : Place String σ) (r : Rejection) (c : σ) :
    Prop :=
  exec (Host.direct s) x p = (.error r, c)

@[simp] theorem fails_pure {a : α} : ¬ Fails s (pure a) p r c := by
  unfold Fails
  rw [exec_pure]
  exact nofun

theorem fails_bind {x : Descent String α} {f : α → Descent String β} :
    Fails s (x >>= f) p r c ↔
      Fails s x p r c ∨ ∃ a m, Yields s x p a m ∧ Fails s (f a) m r c := by
  unfold Fails Yields
  rw [exec_bind]
  cases exec (Host.direct s) x p with
  | mk o d =>
    cases o with
    | error r' => simp
    | ok result =>
      constructor
      · intro h
        exact Or.inr ⟨result.1, (result.2, d), rfl, h⟩
      · rintro (h | ⟨a, m, hm, h⟩)
        · cases h
        · obtain ⟨hresult, rfl⟩ := Prod.mk.inj hm
          obtain rfl := Except.ok.inj hresult
          exact h

@[simp] theorem fails_get_bind {f : Token String → Descent String β} :
    Fails s (get >>= f) p r c ↔ Fails s (f p.1) p r c := by
  unfold Fails
  rw [exec_bind, exec_get]

@[simp] theorem fails_advance_bind {f : Unit → Descent String β} :
    Fails s (advance >>= f) p r c ↔ Fails s (f ()) (pull p.2) r c := by
  unfold Fails
  rw [exec_bind, exec_advance]
  rfl

@[simp] theorem fails_takeText_bind {h : String} {f : String → Descent String β} :
    Fails s (takeText h >>= f) p r c ↔ Fails s (f h) (pull p.2) r c := by
  unfold Fails
  rw [exec_bind, exec_takeText]
  rfl

@[simp] theorem fails_throw {r' : Rejection} :
    Fails s (throw r' : Descent String α) p r c ↔ r = r' ∧ c = p.2 := by
  unfold Fails
  rw [exec_throw, Prod.mk.injEq, Except.error.injEq, eq_comm, eq_comm (a := p.2)]

@[simp] theorem fails_refuse :
    Fails s (refuse : Descent String α) p r c ↔
      r = refusal p.1 (Source.view p.2 s.options).position ∧ c = p.2 := by
  unfold Fails
  rw [exec_refuse, Prod.mk.injEq, Except.error.injEq, eq_comm, eq_comm (a := p.2)]
  rfl

theorem fails_expect_bind {k : TokenKind} {f : Unit → Descent String β} :
    Fails s (expect k >>= f) p r c ↔
      p.1.kind ≠ k ∧ Fails s (refuse : Descent String Unit) p r c ∨
        p.1.kind = k ∧ Fails s (f ()) (pull p.2) r c := by
  have hexpect : Fails s (expect k) p r c ↔
      p.1.kind ≠ k ∧ Fails s (refuse : Descent String Unit) p r c := by
    unfold expect
    rw [fails_get_bind]
    by_cases hk : p.1.kind = k
    · have hadvance : ¬ Fails s advance p r c := by
        unfold Fails
        rw [exec_advance]
        exact nofun
      rw [if_pos hk]
      exact iff_of_false hadvance fun h => h.1 hk
    · rw [if_neg hk]
      exact (and_iff_right hk).symm
  rw [fails_bind, hexpect]
  refine or_congr Iff.rfl ?_
  constructor
  · rintro ⟨a, m, hm, h⟩
    obtain ⟨hk, rfl⟩ := yields_expect.mp hm
    exact ⟨hk, h⟩
  · rintro ⟨hk, h⟩
    exact ⟨(), _, yields_expect.mpr ⟨hk, rfl⟩, h⟩

theorem fails_map {x : Descent String α} {f : α → β} :
    Fails s (f <$> x) p r c ↔ Fails s x p r c := by
  have hmap : Fails s (f <$> x) p r c ↔ Fails s (x >>= fun a => pure (f a)) p r c := by
    unfold Fails
    rw [exec_map]
  rw [hmap, fails_bind]
  simp

@[simp] theorem fails_takeText {h : String} : ¬ Fails s (takeText h) p r c := by
  unfold Fails
  rw [exec_takeText]
  exact nofun

/-! What has been read when an action fails. -/

/-- The action stops at a token that does not go on with what `P` says, when it has read the
beginning of something of which `P` holds, or because it is nested too deeply, or behind a number
that is none. -/
inductive Stops (s : Setting) (n : Nat) (P : List (Token String) → Prop) (p : Place String σ) :
    Rejection → σ → Prop
  | refused {ts us : List (Token String)} {q : Place String σ} (hq : Passes p ts q)
      (hP : P (ts ++ us)) :
      Stops s n P p (refusal q.1 (Source.view q.2 s.options).position) q.2
  | tooDeep {ts us : List (Token String)} {q : Place String σ} (limit : Nat) (hq : Passes p ts q)
      (hP : P (ts ++ us)) (hn : n ≤ ts.length) : Stops s n P p (.tooDeep limit) q.2
  | number {ts : List (Token String)} {raw : String} {q : Place String σ}
      (hq : Passes p (ts ++ [.text .number raw]) q) (hraw : Binary64.ofNumeral? raw = none) :
      Stops s n P p (.invalidNumber raw) q.2

variable {n n' : Nat} {P Q : List (Token String) → Prop}

/-- Each token passed before allows for a further level of nesting. -/
theorem Stops.behind_of {ts : List (Token String)} (h : Stops s n P m r c) (hp : Passes p ts m)
    (hn : n' ≤ n + ts.length) (hQ : ∀ us, P us → ∃ vs, Q (ts ++ us ++ vs)) :
    Stops s n' Q p r c := by
  cases h with
  | refused hq hP =>
    obtain ⟨vs, hvs⟩ := hQ _ hP
    rw [← List.append_assoc, List.append_assoc] at hvs
    exact .refused (hp.append hq) hvs
  | tooDeep limit hq hP hle =>
    obtain ⟨vs, hvs⟩ := hQ _ hP
    rw [← List.append_assoc, List.append_assoc] at hvs
    refine .tooDeep limit (hp.append hq) hvs ?_
    rw [List.length_append]
    omega
  | number hq hraw =>
    have hall := hp.append hq
    rw [← List.append_assoc] at hall
    exact .number hall hraw

theorem Stops.behind {ts : List (Token String)} (h : Stops s n P m r c) (hp : Passes p ts m)
    (hQ : ∀ us, P us → Q (ts ++ us)) : Stops s n Q p r c :=
  h.behind_of hp (Nat.le_add_right _ _) fun us hus => ⟨[], (List.append_nil _).symm ▸ hQ us hus⟩

theorem Stops.mono (h : Stops s n P p r c) (hQ : ∀ us, P us → Q us) : Stops s n Q p r c :=
  h.behind (.nil p) hQ

theorem stops_refuse {us : List (Token String)} (hP : P us)
    (h : Fails s (refuse : Descent String α) p r c) : Stops s n P p r c := by
  obtain ⟨rfl, rfl⟩ := fails_refuse.mp h
  exact .refused (.nil p) hP

/-- A mark that must follow is there, or the action stops before it. -/
theorem stops_expect (mark : Mark) (us : List (Token String)) {f : Unit → Descent String β}
    (hmark : mark ∈ [Mark.endOfInput, .leftParen, .rightParen, .leftBracket, .rightBracket, .comma])
    (hP : P (.mark mark :: us)) (h : Fails s (expect mark.kind >>= f) p r c)
    (hf : p.1 = .mark mark → Fails s (f ()) (pull p.2) r c → Stops s n P p r c) :
    Stops s n P p r c := by
  rcases fails_expect_bind.mp h with ⟨-, hrefuse⟩ | ⟨hkind, hrest⟩
  · exact stops_refuse hP hrefuse
  · exact hf (Token.eq_mark_of_kind hmark hkind) hrest

/-- The tokens are a phrase of a kind. -/
def Forms (s : Setting) (K : α → Phrase) (ts : List (Token String)) : Prop :=
  ∃ a d, Derives s.resolver s.Allows (K a) ts d

/-- A dot is a phrase of every level. -/
theorem forms_level (l : Level) : Forms s (.level l) [.mark .dot] := by
  have hpath : Derives s.resolver s.Allows (.level .path (.path false [.anyNode .self]))
      [.mark .dot] 0 := .relative (.oneStep .self)
  exact ⟨_, _, hpath.loosen l.rank_le⟩

theorem forms_expression : Forms s .expression [.mark .dot] := by
  obtain ⟨e, d, h⟩ := forms_level (s := s) (.binary .or)
  exact ⟨e, d + 1, .expression h⟩

/-- A primary expression and predicates are a filter. -/
theorem forms_filter {ts us : List (Token String)} {e : Expr} {ps : List Expr} {d d' : Nat}
    (h : Derives s.resolver s.Allows (.primary e) ts d)
    (hps : Derives s.resolver s.Allows (.predicates ps) us d') : Forms s .filter (ts ++ us) := by
  cases hps with
  | noPredicate =>
    rw [List.append_nil]
    exact ⟨e, d, .primary h⟩
  | predicate hd hs => exact ⟨_, _, .filtered h (.predicate hd hs)⟩

/-- An action that reads an expression, with at most `n` levels of nesting. -/
structure Predictable (s : Setting) (n : Nat) (σ : Type) [Source σ]
    (expression : Descent String Expr) : Prop where
  gives (p : Place String σ) (e : Expr) (q : Place String σ) (h : Yields s expression p e q) :
    Gives s n p (.expression e) q
  stops (p : Place String σ) (r : Rejection) (c : σ) (h : Fails s expression p r c) :
    Stops s n (Forms s .expression) p r c

section
variable {expression : Descent String Expr} (he : Predictable s n σ expression) (bound : Nat)
include he

theorem moreArguments_stops {k : Nat} (h : Fails s (moreArguments expression k) p r c) :
    Stops s (n + 1)
      (fun ts => ∃ e es us d, ts = .mark .comma :: us ∧
        Derives s.resolver s.Allows (.arguments (e :: es)) us d) p r c := by
  induction k generalizing p with
  | zero => exact absurd h fails_pure
  | succ k ih =>
    unfold moreArguments at h
    rw [fails_get_bind] at h
    split at h
    · next hkind =>
      have hcomma := Token.eq_mark_of_kind (m := .comma) (by decide) hkind
      rw [fails_advance_bind, fails_bind] at h
      have hone : Passes p [.mark .comma] (pull p.2) := passes_singleton.mpr ⟨hcomma, rfl⟩
      rcases h with h | ⟨e, m, hyields, h⟩
      · refine (he.stops _ _ _ h).behind_of hone (Nat.le_refl _) ?_
        rintro us ⟨e, d, hd⟩
        exact ⟨[], e, [], us, d, by simp, .argument hd⟩
      · obtain ⟨ts, d, hts, hd, -⟩ := he.gives _ _ _ hyields
        rcases fails_bind.mp h with h | ⟨es, m', -, h⟩
        · refine (ih h).behind (hone.append hts) ?_
          rintro _ ⟨e', es, us, d', rfl, hd'⟩
          exact ⟨e, e' :: es, ts ++ .mark .comma :: us, _, by simp, .moreArguments hd hd'⟩
        · exact absurd h fails_pure
    · exact absurd h fails_pure

/-- Arguments in their parentheses. -/
def FormsArguments (s : Setting) (ts : List (Token String)) : Prop :=
  ∃ es us d, ts = .mark .leftParen :: us ++ [.mark .rightParen] ∧
    Derives s.resolver s.Allows (.arguments es) us d

theorem arguments_stops (h : Fails s (arguments bound expression) p r c) :
    Stops s (n + 1) (FormsArguments s) p r c := by
  unfold arguments at h
  refine stops_expect .leftParen [.mark .rightParen] (by decide)
    ⟨[], [], 0, rfl, .noArgument⟩ h fun hopen h => ?_
  have hone : Passes p [.mark .leftParen] (pull p.2) := passes_singleton.mpr ⟨hopen, rfl⟩
  rw [fails_get_bind] at h
  split at h
  · rw [fails_advance_bind] at h
    exact absurd h fails_pure
  · rcases fails_bind.mp h with h | ⟨e, m, hyields, h⟩
    · refine (he.stops _ _ _ h).behind_of hone (Nat.le_refl _) ?_
      rintro us ⟨e, d, hd⟩
      exact ⟨[.mark .rightParen], [e], us, d, by simp, .argument hd⟩
    · obtain ⟨ts, d, hts, hd, -⟩ := he.gives _ _ _ hyields
      have hpassed := hone.append hts
      rcases fails_bind.mp h with h | ⟨es, m', hmore, h⟩
      · refine (moreArguments_stops he h).behind_of hpassed (Nat.le_add_right _ _) ?_
        rintro _ ⟨e', es, us, d', rfl, hd'⟩
        exact ⟨[.mark .rightParen], e :: e' :: es, ts ++ .mark .comma :: us, _, by simp,
          .moreArguments hd hd'⟩
      · -- Only the closing parenthesis is missing.
        have hclosing : Stops s (n + 1) (fun ts => ts = [.mark .rightParen]) m' r c :=
          stops_expect .rightParen [] (by decide) rfl h
            fun _ h => absurd h fails_pure
        rcases moreArguments_sound he.gives hmore with
          ⟨rfl, rfl⟩ | ⟨e', es, rfl, hcomma, us, d', hus, hd', -⟩
        · refine hclosing.behind hpassed ?_
          rintro _ rfl
          exact ⟨[e], ts, d, by simp, .argument hd⟩
        · have hall := hpassed.append (passes_cons.mpr ⟨hcomma, hus⟩)
          refine hclosing.behind hall ?_
          rintro _ rfl
          exact ⟨e :: e' :: es, ts ++ .mark .comma :: us, _, by simp, .moreArguments hd hd'⟩

theorem predicates_stops {k : Nat} (h : Fails s (predicates expression k) p r c) :
    Stops s (n + 1) (Forms s .predicates) p r c := by
  induction k generalizing p with
  | zero => exact absurd h fails_pure
  | succ k ih =>
    unfold predicates at h
    rw [fails_get_bind] at h
    split at h
    · next hkind =>
      have hopen := Token.eq_mark_of_kind (m := .leftBracket) (by decide) hkind
      rw [fails_advance_bind, fails_bind] at h
      have hone : Passes p [.mark .leftBracket] (pull p.2) := passes_singleton.mpr ⟨hopen, rfl⟩
      rcases h with h | ⟨e, m, hyields, h⟩
      · refine (he.stops _ _ _ h).behind_of hone (Nat.le_refl _) ?_
        rintro us ⟨e, d, hd⟩
        exact ⟨[.mark .rightBracket], [e], _, .predicate hd .noPredicate⟩
      · obtain ⟨ts, d, hts, hd, -⟩ := he.gives _ _ _ hyields
        have hrest : Stops s (n + 1)
            (fun ts => ∃ us, ts = .mark .rightBracket :: us ∧ Forms s .predicates us) m r c := by
          refine stops_expect .rightBracket [] (by decide)
            ⟨[], rfl, [], 0, .noPredicate⟩ h fun hclose h => ?_
          rcases fails_bind.mp h with h | ⟨es, m', -, h⟩
          · have hlast : Passes m [.mark .rightBracket] (pull m.2) :=
              passes_singleton.mpr ⟨hclose, rfl⟩
            refine (ih h).behind hlast ?_
            intro us hus
            exact ⟨us, rfl, hus⟩
          · exact absurd h fails_pure
        refine hrest.behind (hone.append hts) ?_
        rintro _ ⟨us, rfl, es, d', hd'⟩
        have hall := Derives.predicate hd hd'
        exact ⟨e :: es, _, by simpa using hall⟩
    · exact absurd h fails_pure

theorem primary_stops (hs : s.Lenient) (h : Fails s (primary bound expression) p r c) :
    Stops s (n + 1) (Forms s .primary) p r c := by
  unfold primary at h
  rw [fails_get_bind] at h
  split at h
  · rw [fails_takeText_bind] at h
    exact absurd h fails_pure
  · rw [fails_takeText_bind] at h
    exact absurd h fails_pure
  · next raw hp =>
    rw [fails_takeText_bind] at h
    split at h
    · exact absurd h fails_pure
    · next hraw =>
      obtain ⟨rfl, rfl⟩ := fails_throw.mp h
      have hone : Passes p ([] ++ [.text .number raw]) (pull p.2) :=
        passes_singleton.mpr ⟨hp, rfl⟩
      exact .number hone hraw
  · next hp =>
    rw [fails_advance_bind, fails_bind] at h
    have hone : Passes p [.mark .leftParen] (pull p.2) := passes_singleton.mpr ⟨hp, rfl⟩
    rcases h with h | ⟨e, m, hyields, h⟩
    · refine (he.stops _ _ _ h).behind_of hone (Nat.le_refl _) ?_
      rintro us ⟨e, d, hd⟩
      exact ⟨[.mark .rightParen], e, d, .parentheses hd⟩
    · obtain ⟨ts, d, hts, hd, -⟩ := he.gives _ _ _ hyields
      have hclosing : Stops s (n + 1) (fun ts => ts = [.mark .rightParen]) m r c :=
        stops_expect .rightParen [] (by decide) rfl h
          fun _ h => absurd h fails_pure
      refine hclosing.behind (hone.append hts) ?_
      rintro _ rfl
      exact ⟨e, d, .parentheses hd⟩
  · next name hp =>
    rw [fails_takeText_bind, fails_bind] at h
    have hone : Passes p [.text .functionName name] (pull p.2) :=
      passes_singleton.mpr ⟨hp, rfl⟩
    rcases h with h | ⟨es, m, -, h⟩
    · refine (arguments_stops he bound h).behind hone ?_
      rintro _ ⟨es, us, d, rfl, hd⟩
      have hname : s.Allows name es.length := check_eq_ok.mp (hs.allows name es.length)
      exact ⟨.call name es, d, .call hname hd⟩
    · rcases fails_bind.mp h with h | ⟨-, m', -, h⟩
      · unfold Fails at h
        rw [exec_check] at h
        change (((s.check name es.length).map (·, m.1), m.2) : Outcome String σ Unit) = _ at h
        rw [hs.allows] at h
        cases h
      · exact absurd h fails_pure
  · exact stops_refuse ⟨_, _, .literal ""⟩ h

theorem filter_stops (hs : s.Lenient) (h : Fails s (filter bound expression) p r c) :
    Stops s (n + 1) (Forms s .filter) p r c := by
  unfold filter at h
  rcases fails_bind.mp h with h | ⟨e, m, hprimary, h⟩
  · refine (primary_stops he bound hs h).mono ?_
    rintro us ⟨e, d, hd⟩
    exact ⟨e, d, .primary hd⟩
  · obtain ⟨ts, d, hts, hd, -⟩ := primary_sound he.gives bound hprimary
    rcases fails_bind.mp h with h | ⟨ps, m', -, h⟩
    · refine (predicates_stops he h).behind hts ?_
      rintro us ⟨ps, d', hd'⟩
      exact forms_filter hd hd'
    · cases ps <;> exact absurd h fails_pure

end

theorem nodeTest_stops (hs : s.Lenient) (h : Fails s nodeTest p r c) :
    Stops s n (fun ts => ∃ test, SpellsTest s.resolver ts test) p r c := by
  unfold nodeTest at h
  rw [fails_get_bind] at h
  split at h
  · next name hp =>
    rw [fails_takeText_bind, fails_bind] at h
    rcases h with h | ⟨_, m, -, h⟩
    · unfold Fails at h
      rw [exec_expand] at h
      unfold Host.direct at h
      dsimp only at h
      obtain ⟨expanded, hname⟩ := hs.expands name
      rw [hname] at h
      cases h
    · exact absurd h fails_pure
  · next name hp =>
    rw [fails_takeText_bind] at h
    have hone : Passes p [.text .nodeType name] (pull p.2) := passes_singleton.mpr ⟨hp, rfl⟩
    have hrest : Stops s n (fun ts => ts = [.mark .leftParen, .mark .rightParen])
        (pull p.2) r c := by
      refine stops_expect .leftParen [.mark .rightParen] (by decide) rfl h
        fun hopen h => ?_
      have hclosing : Stops s n (fun ts => ts = [.mark .rightParen]) (pull (pull p.2).2) r c :=
        stops_expect .rightParen [] (by decide) rfl h
          fun _ h => absurd h fails_pure
      refine hclosing.behind (passes_singleton.mpr ⟨hopen, rfl⟩) ?_
      rintro _ rfl
      rfl
    refine hrest.behind hone ?_
    rintro _ rfl
    exact ⟨_, .nodeType name⟩
  · next name hp =>
    rw [fails_takeText_bind] at h
    have hone : Passes p [.text .processingInstruction name] (pull p.2) :=
      passes_singleton.mpr ⟨hp, rfl⟩
    -- What may stand in the parentheses is nothing or a literal.
    have hrest : Stops s n (fun ts => ts = [.mark .leftParen, .mark .rightParen] ∨
        ∃ target, ts = [.mark .leftParen, .text .literal target, .mark .rightParen])
        (pull p.2) r c := by
      refine stops_expect .leftParen [.mark .rightParen] (by decide)
        (Or.inl rfl) h fun hopen h => ?_
      have hopened : Passes (pull p.2) [.mark .leftParen] (pull (pull p.2).2) :=
        passes_singleton.mpr ⟨hopen, rfl⟩
      have hclosing {m : Place String σ} {target : Option String}
          (h : Fails s (do expect .rightParen; return NodeTest.processingInstruction target)
            m r c) : Stops s n (fun ts => ts = [.mark .rightParen]) m r c :=
        stops_expect .rightParen [] (by decide) rfl h
          fun _ h => absurd h fails_pure
      rw [fails_get_bind] at h
      split at h
      · next target ht =>
        rcases fails_bind.mp h with h | ⟨_, m, htake, h⟩
        · exact absurd (fails_map.mp h) fails_takeText
        · obtain ⟨_, htarget, rfl⟩ := yields_map.mp htake
          obtain ⟨rfl, rfl⟩ := yields_takeText.mp htarget
          refine (hclosing h).behind (hopened.append (passes_singleton.mpr ⟨ht, rfl⟩)) ?_
          rintro _ rfl
          exact Or.inr ⟨_, rfl⟩
      · rcases fails_bind.mp h with h | ⟨_, m, hnone, h⟩
        · exact absurd h fails_pure
        · obtain ⟨rfl, rfl⟩ := yields_pure.mp hnone
          refine (hclosing h).behind hopened ?_
          rintro _ rfl
          exact Or.inl rfl
    refine hrest.behind hone ?_
    rintro _ (rfl | ⟨target, rfl⟩)
    · exact ⟨_, .processingInstruction name⟩
    · exact ⟨_, .target name target⟩
  · exact stops_refuse ⟨_, .nodeType ""⟩ h

section
variable {expression : Descent String Expr} (he : Predictable s n σ expression) (bound : Nat)
  (hs : s.Lenient)
include he hs

theorem stepAlong_stops {axis : Axis} (h : Fails s (stepAlong bound expression axis) p r c) :
    Stops s (n + 1)
      (fun ts => ∀ as axis, SpellsAxis as axis → Forms s .step (as ++ ts)) p r c := by
  unfold stepAlong at h
  rcases fails_bind.mp h with h | ⟨test, m, htest, h⟩
  · refine (nodeTest_stops hs h).mono ?_
    rintro us ⟨test, htest⟩ as axis ha
    have hstep : Derives s.resolver s.Allows (.step ⟨axis, test, []⟩) (as ++ us ++ []) 0 :=
      .stepAlong ha htest .noPredicate
    rw [List.append_nil] at hstep
    exact ⟨_, _, hstep⟩
  · obtain ⟨ts, hts, htest⟩ := nodeTest_sound htest
    rcases fails_bind.mp h with h | ⟨ps, m', -, h⟩
    · refine (predicates_stops he h).behind hts ?_
      rintro us ⟨ps, d, hd⟩ as axis ha
      have hstep := Derives.stepAlong ha htest hd
      rw [List.append_assoc] at hstep
      exact ⟨_, _, hstep⟩
    · exact absurd h fails_pure

theorem step_stops (h : Fails s (Descent.step bound expression) p r c) :
    Stops s (n + 1) (Forms s .step) p r c := by
  -- The axis has been read, if there is one.
  have along {as : List (Token String)} {axis axis' : Axis} {m : Place String σ}
      (ha : SpellsAxis as axis) (hp : Passes p as m)
      (h : Fails s (stepAlong bound expression axis') m r c) :
      Stops s (n + 1) (Forms s .step) p r c := by
    refine (stepAlong_stops he bound hs h).behind hp fun us hus => ?_
    exact hus as axis ha
  unfold Descent.step at h
  rw [fails_get_bind] at h
  split at h
  · rw [fails_advance_bind] at h
    exact absurd h fails_pure
  · rw [fails_advance_bind] at h
    exact absurd h fails_pure
  · next a hp =>
    rw [fails_advance_bind] at h
    exact along (.axis a) (passes_singleton.mpr ⟨hp, rfl⟩) h
  · next hp =>
    rw [fails_advance_bind] at h
    exact along .atSign (passes_singleton.mpr ⟨hp, rfl⟩) h
  · exact along .child (.nil p) h

/-- A separator and steps. -/
def FormsFurther (s : Setting) (ts : List (Token String)) : Prop :=
  ∃ mark js us, ts = .mark mark :: us ∧ Joins mark js ∧ Forms s .relativePath us

theorem stepsUpTo_stops {k : Nat}
    (hmore : ∀ m : Place String σ, Fails s (moreSteps bound expression k) m r c →
      Stops s (n + 1) (FormsFurther s) m r c) (js : List (Step Expr))
    (h : Fails s (do
      let first ← Descent.step bound expression
      let ss ← moreSteps bound expression k
      pure (js ++ first :: ss)) p r c) :
    Stops s (n + 1) (Forms s .relativePath) p r c := by
  rcases fails_bind.mp h with h | ⟨first, m, hstep, h⟩
  · refine (step_stops he bound hs h).mono ?_
    rintro us ⟨st, d, hd⟩
    exact ⟨[st], d, .oneStep hd⟩
  · obtain ⟨ts, d, hts, hd, -⟩ := step_sound he.gives bound hstep
    rcases fails_bind.mp h with h | ⟨ss, m', -, h⟩
    · refine (hmore m h).behind hts ?_
      rintro _ ⟨mark, js, us, rfl, hj, ss, d', hd'⟩
      exact ⟨_, _, hd.relative_cons hj hd'⟩
    · exact absurd h fails_pure

theorem moreSteps_stops {k : Nat} (h : Fails s (moreSteps bound expression k) p r c) :
    Stops s (n + 1) (FormsFurther s) p r c := by
  induction k generalizing p with
  | zero => exact absurd h fails_pure
  | succ k ih =>
    have hmore (m : Place String σ) (h : Fails s (moreSteps bound expression k) m r c) :
        Stops s (n + 1) (FormsFurther s) m r c := ih h
    have further {mark : Mark} {js : List (Step Expr)} (hj : Joins mark js) (hp : p.1 = .mark mark)
        (h : Stops s (n + 1) (Forms s .relativePath) (pull p.2) r c) :
        Stops s (n + 1) (FormsFurther s) p r c := by
      refine h.behind (passes_singleton.mpr ⟨hp, rfl⟩) fun us hus => ?_
      exact ⟨mark, js, us, rfl, hj, hus⟩
    unfold moreSteps at h
    rw [fails_get_bind] at h
    split at h
    · next hp =>
      rw [fails_advance_bind] at h
      exact further .slash hp (stepsUpTo_stops he bound hs hmore [] h)
    · next hp =>
      rw [fails_advance_bind] at h
      exact further .slashSlash hp
        (stepsUpTo_stops he bound hs hmore [.descendantOrSelf] h)
    · exact absurd h fails_pure

theorem steps_stops (h : Fails s (steps bound expression) p r c) :
    Stops s (n + 1) (Forms s .relativePath) p r c :=
  stepsUpTo_stops he bound hs (fun _ h => moreSteps_stops he bound hs h) [] h

theorem absolute_stops {mark : Mark} {js : List (Step Expr)} (hj : Joins mark js)
    (hp : p.1 = .mark mark) (h : Fails s (steps bound expression) (pull p.2) r c) :
    Stops s (n + 1) (Forms s (.level .path)) p r c := by
  refine (steps_stops he bound hs h).behind (passes_singleton.mpr ⟨hp, rfl⟩) ?_
  rintro us ⟨ss, d, hd⟩
  exact ⟨_, d, .absolute hj hd⟩

theorem locationPath_stops (h : Fails s (locationPath bound expression) p r c) :
    Stops s (n + 1) (Forms s (.level .path)) p r c := by
  unfold locationPath at h
  rw [fails_get_bind] at h
  split at h
  · next hp =>
    rw [fails_advance_bind, fails_get_bind] at h
    split at h
    · rcases fails_bind.mp h with h | ⟨ss, m, -, h⟩
      · exact absolute_stops he bound hs .slash hp h
      · exact absurd h fails_pure
    · exact absurd h fails_pure
  · next hp =>
    rw [fails_advance_bind] at h
    rcases fails_bind.mp h with h | ⟨ss, m, -, h⟩
    · exact absolute_stops he bound hs .slashSlash hp h
    · exact absurd h fails_pure
  · rcases fails_bind.mp h with h | ⟨ss, m, -, h⟩
    · refine (steps_stops he bound hs h).mono ?_
      rintro us ⟨ss, d, hd⟩
      exact ⟨_, d, .relative hd⟩
    · exact absurd h fails_pure

theorem filterPath_stops (h : Fails s (filterPath bound expression) p r c) :
    Stops s (n + 1) (Forms s (.level .path)) p r c := by
  unfold filterPath at h
  rcases fails_bind.mp h with h | ⟨e, m, hfilter, h⟩
  · refine (filter_stops he bound hs h).mono ?_
    rintro us ⟨e, d, hd⟩
    exact ⟨e, d, .filter hd⟩
  · obtain ⟨ts, d, hts, hd, -⟩ := filter_sound he.gives bound hfilter
    rcases fails_bind.mp h with h | ⟨ss, m', -, h⟩
    · refine (moreSteps_stops he bound hs h).behind hts ?_
      rintro _ ⟨mark, js, us, rfl, hj, ss, d', hd'⟩
      exact ⟨_, _, .pathFrom hd hj hd'⟩
    · cases ss <;> exact absurd h fails_pure

theorem path_stops (h : Fails s (path bound expression) p r c) :
    Stops s (n + 1) (Forms s (.level .path)) p r c := by
  unfold path at h
  rw [fails_get_bind] at h
  split at h
  all_goals first
    | exact filterPath_stops he bound hs h
    | exact locationPath_stops he bound hs h

end

section
variable {operand : Descent String Expr} {pr : Precedence}
  (ho : ∀ (p : Place String σ) e q, Yields s operand p e q →
    Gives s n' p (.level pr.operand e) q)
  (hstops : ∀ (p : Place String σ) r c, Fails s operand p r c →
    Stops s n (Forms s (.level pr.operand)) p r c)
include ho hstops

/-- Behind any phrase of a level, what has been read of its further operands can be completed. -/
theorem chain_stops {k : Nat} {left : Expr} (h : Fails s (chain pr operand k left) p r c) :
    Stops s n (fun ts => ∀ e ls d, Derives s.resolver s.Allows (.level (.binary pr) e) ls d →
      Forms s (.level (.binary pr)) (ls ++ ts)) p r c := by
  induction k generalizing p left with
  | zero => exact absurd h fails_pure
  | succ k ih =>
    unfold chain at h
    rw [fails_get_bind] at h
    split at h
    · next o hp =>
      split at h
      · next hpr =>
        rw [fails_advance_bind] at h
        have hone : Passes p [.mark (.op o)] (pull p.2) := passes_singleton.mpr ⟨hp, rfl⟩
        rcases fails_bind.mp h with h | ⟨right, m, hright, h⟩
        · refine (hstops _ _ _ h).behind hone ?_
          rintro us ⟨right, d, hd⟩ e ls d' hl
          exact ⟨_, _, .operator hpr hl hd⟩
        · obtain ⟨ts, d, hts, hd, -⟩ := ho _ _ _ hright
          refine (ih h).behind (hone.append hts) fun us hus => ?_
          intro e ls d' hl
          have hall := hus _ _ _ (.operator hpr hl hd)
          rw [List.append_assoc] at hall
          exact hall
      · exact absurd h fails_pure
    · exact absurd h fails_pure

theorem level_stops {bound : Nat} (h : Fails s (do chain pr operand bound (← operand)) p r c) :
    Stops s n (Forms s (.level (.binary pr))) p r c := by
  rcases fails_bind.mp h with h | ⟨left, m, hleft, h⟩
  · refine (hstops _ _ _ h).mono ?_
    rintro us ⟨e, d, hd⟩
    exact ⟨e, d, .operand hd⟩
  · obtain ⟨ts, d, hts, hd, -⟩ := ho _ _ _ hleft
    refine (chain_stops ho hstops h).behind hts fun us hus => ?_
    exact hus _ _ _ (.operand hd)

end
section
variable {deeper : List Precedence → Descent String Expr}
  (he : Predictable s n σ (deeper Precedence.aboveMinus))
  (hm : ∀ (p : Place String σ) r c, Fails s (deeper []) p r c →
    Stops s n (Forms s (.level .unary)) p r c)
  (bound : Nat) (hs : s.Lenient)
include he hm hs

theorem unary_stops (h : Fails s (unary bound deeper) p r c) :
    Stops s (n + 1) (Forms s (.level .unary)) p r c := by
  unfold unary at h
  rw [fails_get_bind] at h
  split at h
  · next hp =>
    rw [fails_advance_bind] at h
    rcases fails_bind.mp h with h | ⟨operand, m, -, h⟩
    · refine (hm _ _ _ h).behind_of (passes_singleton.mpr ⟨hp, rfl⟩) (Nat.le_refl _) ?_
      rintro us ⟨e, d, hd⟩
      refine ⟨[], .negate e, d + 1, ?_⟩
      rw [List.append_nil]
      exact .minus hd
    · exact absurd h fails_pure
  · have hgives (p : Place String σ) (e : Expr) (q : Place String σ)
        (h : Yields s (path bound (deeper Precedence.aboveMinus)) p e q) :
        Gives s n p (.level Precedence.union.operand e) q := path_sound he.gives bound h
    have hstops (p : Place String σ) (r : Rejection) (c : σ)
        (h : Fails s (path bound (deeper Precedence.aboveMinus)) p r c) :
        Stops s (n + 1) (Forms s (.level Precedence.union.operand)) p r c :=
      path_stops he bound hs h
    refine (level_stops hgives hstops h).mono ?_
    rintro us ⟨e, d, hd⟩
    exact ⟨e, d, .union hd⟩

theorem binary_stops
    (hy : ∀ (p : Place String σ) e q, Yields s (deeper []) p e q →
      ∃ k, n = k + 1 ∧ Gives s k p (.level .unary e) q)
    {levels : List Precedence} (hlevels : Stacked levels)
    (h : Fails s (binary bound deeper levels) p r c) :
    Stops s (n + 1) (Forms s (.level (levelOf levels))) p r c := by
  induction levels generalizing p r c with
  | nil => exact unary_stops he hm bound hs h
  | cons pr levels ih =>
    obtain ⟨hoperand, hlevels⟩ := hlevels
    have hgives (p : Place String σ) (e : Expr) (q : Place String σ)
        (h : Yields s (binary bound deeper levels) p e q) :
        Gives s n p (.level pr.operand e) q := by
      rw [hoperand]
      exact binary_sound he.gives hy bound hlevels h
    have hstops (p : Place String σ) (r : Rejection) (c : σ)
        (h : Fails s (binary bound deeper levels) p r c) :
        Stops s (n + 1) (Forms s (.level pr.operand)) p r c := by
      rw [hoperand]
      exact ih hlevels h
    exact level_stops hgives hstops h

end

theorem nested_stops (hs : s.Lenient) (bound limit n : Nat) :
    (∀ (p : Place String σ) r c, Fails s (nested bound limit n Precedence.aboveMinus) p r c →
      Stops s n (Forms s .expression) p r c) ∧
    ∀ (p : Place String σ) r c, Fails s (nested bound limit n []) p r c →
      Stops s n (Forms s (.level .unary)) p r c := by
  have hdeep {P : List (Token String) → Prop} {us : List (Token String)} (hP : P us)
      {levels : List Precedence} (p : Place String σ) (r : Rejection) (c : σ)
      (h : Fails s (nested bound limit 0 levels) p r c) : Stops s 0 P p r c := by
    obtain ⟨rfl, rfl⟩ := fails_throw.mp h
    exact .tooDeep limit (.nil p) hP (Nat.le_refl 0)
  induction n with
  | zero => exact ⟨hdeep forms_expression, hdeep (forms_level .unary)⟩
  | succ n ih =>
    obtain ⟨hgives, hunary⟩ := nested_sound (σ := σ) (s := s) bound limit n
    have he : Predictable s n σ (nested bound limit n Precedence.aboveMinus) := ⟨hgives, ih.1⟩
    constructor
    · intro p r c h
      refine (binary_stops he ih.2 bound hs hunary stacked_aboveMinus h).mono ?_
      rintro us ⟨e, d, hd⟩
      exact ⟨e, d + 1, .expression hd⟩
    · intro p r c h
      exact unary_stops he ih.2 bound hs h

/-- What has been read of an input when it is rejected can be completed to an expression. -/
theorem whole_stops (hs : s.Lenient) {bound limit : Nat}
    (h : Fails s (whole bound limit) p r c) : Stops s limit (Forms s .expression) p r c := by
  unfold whole at h
  rcases fails_bind.mp h with h | ⟨e, m, hnested, h⟩
  · exact (nested_stops hs bound limit limit).1 _ _ _ h
  · obtain ⟨ts, d, hts, hd, -⟩ := (nested_sound bound limit limit).1 _ _ _ hnested
    rcases fails_expect_bind.mp h with ⟨-, hrefuse⟩ | ⟨-, hrest⟩
    · obtain ⟨rfl, rfl⟩ := fails_refuse.mp hrefuse
      have hforms : Forms s .expression (ts ++ []) := ⟨e, d, (List.append_nil ts).symm ▸ hd⟩
      exact .refused hts hforms
    · exact absurd hrest fails_pure

end Descent
end XPath
