import XPath.Proofs.Grammar.Standing
import XPath.Proofs.Lexer

/-! One token of memory tells the star and the words that are operators from names in every
expression that the grammar derives, but behind a slash that is a whole path. -/
namespace XPath

/-- The operators that are written like names: the star and the four words. -/
def TokenKind.isNamelike : TokenKind → Bool
  | and | or | multiplicative => true
  | _ => false

/-- The tokens that begin with a name, or with a star for one. -/
def TokenKind.isName : TokenKind → Bool
  | axisName | text .nameTest | text .functionName | text .nodeType
  | text .processingInstruction => true
  | _ => false

theorem BinaryOp.isNamelike_iff (o : BinaryOp) :
    o.tokenKind.isNamelike = true ↔ o.tokenKind ∈ [TokenKind.and, .or, .multiplicative] := by
  cases o <;> decide

namespace Standing
variable {s s' : Standing} {t : Token String} {ts : List (Token String)}

theorem admits_namelike {k : TokenKind} (hk : k.isNamelike = true) (h : s.admits k = true) :
    s = root ∨ s.expectsOperator = true := by
  cases k with
  | and | or | multiplicative => cases s <;> first | exact Or.inl rfl | exact Or.inr rfl | cases h
  | _ => cases hk

theorem admits_name {k : TokenKind} (hk : k.isName = true) (h : s.admits k = true) :
    s.expectsOperator = false := by
  cases k with
  | axisName => cases s <;> first | rfl | cases h
  | text kind =>
    cases kind with
    | literal | number | variableReference => cases hk
    | _ => cases s <;> first | rfl | cases h
  | _ => cases hk

/-- An opening parenthesis stands behind every callee and behind no name test. -/
theorem paren_of_run (h : (s.next t.kind).run ts = some s') (hs' : s' ≠ parentheses) :
    (t.kind = .text .nameTest → ts.head? ≠ some (.mark .leftParen)) ∧
      (t.kind.isCallee = true → ts.head? = some (.mark .leftParen)) := by
  constructor
  · intro hkind hhead
    obtain ⟨us, rfl⟩ := List.head?_eq_some_iff.mp hhead
    obtain ⟨hadmits, -⟩ := run_cons_eq_some h
    rw [hkind] at hadmits
    cases hadmits
  · intro hcallee
    have hnext : s.next t.kind = parentheses := by
      cases t with
      | mark m => cases m with
        | op o => cases o <;> cases hcallee
        | _ => cases hcallee
      | text kind => cases kind <;> first | rfl | cases hcallee
    rw [hnext] at h
    cases ts with
    | nil => exact absurd (Option.some.inj h).symm hs'
    | cons u us =>
      obtain ⟨hadmits, -⟩ := run_cons_eq_some h
      cases u with
      | mark m => cases m with
        | leftParen => rfl
        | op o => cases o <;> cases hadmits
        | _ => cases hadmits
      | text kind => cases kind <;> cases hadmits

end Standing

/-- Whether a token fits depends on the token before only for operators and names, and on the one
behind only for names. -/
theorem Token.Fits.move {t : Token String} {op op' : Bool} {paren paren' : Prop}
    (h : t.Fits op paren) (hop : t.kind.isNamelike = true → op' = true)
    (hname : t.kind.isName = true → op' = false) (htest : t.kind = .text .nameTest → ¬ paren')
    (hcallee : t.kind.isCallee = true → paren') : t.Fits op' paren' := by
  cases t with
  | mark m =>
    cases m with
    | op o =>
      intro hkind
      exact hop (o.isNamelike_iff.mpr hkind)
    | _ => exact h
  | text kind s =>
    cases kind with
    | nameTest =>
      have hword (p : String) : op' = true → ¬ IsOperatorWord p := by simp [hname rfl]
      rcases h with ⟨rfl, -⟩ | ⟨p, -, hp⟩
      · exact Or.inl ⟨rfl, hname rfl⟩
      · refine Or.inr ⟨p, hword p, hp.imp_right ?_⟩
        intro hq
        exact ⟨hq.1, htest rfl⟩
    | functionName =>
      have hword (p : String) : op' = true → ¬ IsOperatorWord p := by simp [hname rfl]
      obtain ⟨⟨p, -, hp⟩, hs, -⟩ := h
      exact ⟨⟨p, hword p, hp⟩, hs, hcallee rfl⟩
    | nodeType | processingInstruction => exact ⟨h.1, hcallee rfl⟩
    | literal | number | variableReference => exact h

/-- A token that some text may hold. -/
def Token.Legible (t : Token String) : Prop :=
  ∃ (expectsOperator : Bool) (parenFollows : Prop), t.Fits expectsOperator parenFollows

/-- Somewhere among the tokens, an operator that is written like a name is directly behind a slash. -/
def SlashHidesOperator (ts : List (Token String)) : Prop :=
  ∃ before t after, ts = before ++ .mark .slash :: t :: after ∧ t.kind.isNamelike = true

theorem SlashHidesOperator.cons {t : Token String} {ts : List (Token String)}
    (h : SlashHidesOperator ts) : SlashHidesOperator (t :: ts) := by
  obtain ⟨before, u, after, rfl, hu⟩ := h
  exact ⟨t :: before, u, after, rfl, hu⟩

theorem Consistent.legible {c : OperatorContext} {ts : List (Token String)} (h : Consistent c ts) :
    ∀ t ∈ ts, t.Legible := by
  induction ts generalizing c with
  | nil => exact fun t ht => absurd ht List.not_mem_nil
  | cons t ts ih => exact List.forall_mem_cons.mpr ⟨⟨_, _, h.1⟩, ih h.2⟩

theorem Consistent.not_hidden {c : OperatorContext} {ts : List (Token String)}
    (h : Consistent c ts) : ¬ SlashHidesOperator ts := by
  rintro ⟨before, t, after, rfl, ht⟩
  induction before generalizing c with
  | nil =>
    obtain ⟨-, hfits, -⟩ := h
    cases t with
    | mark m =>
      cases m with
      | op o =>
        have hkind := o.isNamelike_iff.mp ht
        exact absurd (hfits hkind) Bool.false_ne_true
      | _ => cases ht
    | text => cases ht
  | cons u before ih => exact ih h.2

/-- Where each token may come and is legible, the tokens fit together. -/
theorem Standing.consistent {s s' : Standing} {c : OperatorContext} {ts : List (Token String)}
    (h : s.run ts = some s') (hs' : s' ≠ .parentheses)
    (hc : c.expectsOperator = s.expectsOperator) (hlegible : ∀ t ∈ ts, t.Legible)
    (hroot : s = .root → ∀ t ∈ ts.head?, t.kind.isNamelike = false)
    (hslash : ¬ SlashHidesOperator ts) : Consistent c ts := by
  induction ts generalizing s c with
  | nil => exact trivial
  | cons t ts ih =>
    obtain ⟨hadmits, hrest⟩ := run_cons_eq_some h
    obtain ⟨⟨op, paren, hfits⟩, hlegible⟩ := List.forall_mem_cons.mp hlegible
    obtain ⟨htest, hcallee⟩ := paren_of_run hrest hs'
    have hop : t.kind.isNamelike = true → c.expectsOperator = true := by
      intro hkind
      rw [hc]
      apply (admits_namelike hkind hadmits).resolve_left
      intro hs
      rw [hroot hs t rfl] at hkind
      cases hkind
    have hname : t.kind.isName = true → c.expectsOperator = false := by
      intro hkind
      rw [hc]
      exact admits_name hkind hadmits
    have hbehind : s.next t.kind = .root → ∀ u ∈ ts.head?, u.kind.isNamelike = false := by
      intro hnext u hu
      have hroot : s.run ([] ++ [t]) = some .root :=
        (run_cons hadmits).trans (congrArg some hnext)
      obtain ⟨rfl, -⟩ := slash_of_run_root hroot
      obtain ⟨us, rfl⟩ := List.head?_eq_some_iff.mp hu
      cases hkind : u.kind.isNamelike with
      | false => rfl
      | true => exact absurd ⟨[], u, us, rfl, hkind⟩ hslash
    have hcontext := (s.expectsOperator_next t.kind c).symm
    have htail := ih hrest hcontext hlegible hbehind fun hhidden => hslash hhidden.cons
    exact ⟨hfits.move hop hname htest hcallee, htail⟩

/-- Before an operator that is written like a name, the memory of one token is right, unless that
token is a slash with which a path begins. -/
theorem Standing.behind_namelike {before after : List (Token String)} {t : Token String}
    {s' : Standing} (h : operand.run (before ++ t :: after) = some s')
    (hkind : t.kind.isNamelike = true) :
    ∃ earlier u, before = earlier ++ [u] ∧
      ((({} : OperatorContext).record u.kind).expectsOperator = true ∨
        u = .mark .slash ∧ ∀ first v, earlier = first ++ [v] →
          (({} : OperatorContext).record v.kind).expectsOperator = false) := by
  obtain ⟨m, hbefore, hafter⟩ := run_append_eq_some h
  obtain ⟨hadmits, -⟩ := run_cons_eq_some hafter
  have hm := admits_namelike hkind hadmits
  rcases List.eq_nil_or_concat before with rfl | ⟨earlier, u, rfl⟩
  · obtain rfl := Option.some.inj hbefore
    rcases hm with hm | hm <;> cases hm
  rw [List.concat_eq_append] at hbefore ⊢
  refine ⟨earlier, u, rfl, ?_⟩
  rcases hm with rfl | hm
  · obtain ⟨hu, hearlier⟩ := slash_of_run_root hbefore
    refine Or.inr ⟨hu, ?_⟩
    rintro first v rfl
    exact (expectsOperator_of_run hearlier {}).symm
  · exact Or.inl ((expectsOperator_of_run hbefore {}).symm.trans hm)

/-- Before a name the memory of one token is always right. -/
theorem Standing.behind_name {before after : List (Token String)} {t u : Token String}
    {s' : Standing} (h : operand.run (before ++ [u] ++ t :: after) = some s')
    (hkind : t.kind.isName = true) :
    (({} : OperatorContext).record u.kind).expectsOperator = false := by
  obtain ⟨m, hbefore, hafter⟩ := run_append_eq_some h
  obtain ⟨hadmits, -⟩ := run_cons_eq_some hafter
  have hm := admits_name hkind hadmits
  exact (expectsOperator_of_run hbefore {}).symm.trans hm

theorem exists_tokenize_iff {ts : List (Token String)} :
    (∃ text, tokenize text = ts ++ [.mark .endOfInput]) ↔ Consistent {} ts := by
  constructor
  · rintro ⟨text, htext⟩
    exact (tokenize_eq_iff.mp htext).1
  · intro h
    have hlayout : Layout ts (String.ofList (setOut ts)).toList := by
      rw [String.toList_ofList]
      exact h.spaced.layout
    exact ⟨_, tokenize_eq_iff.mpr ⟨h, hlayout⟩⟩

section
variable {resolver : Option Resolver} {allowed : String → Nat → Prop} {e : Expr}
  {ts : List (Token String)} {d : Nat}

theorem Derives.consistent_iff (h : Derives resolver allowed (.expression e) ts d) :
    Consistent {} ts ↔ (∀ t ∈ ts, t.Legible) ∧ ¬ SlashHidesOperator ts := by
  constructor
  · intro hfits
    exact ⟨hfits.legible, hfits.not_hidden⟩
  · rintro ⟨hlegible, hslash⟩
    obtain ⟨s', hrun, hs'⟩ := h.standing (s := .operand) rfl
    have hroot : Standing.operand = .root → ∀ t ∈ ts.head?, t.kind.isNamelike = false := nofun
    exact Standing.consistent hrun (Standing.ne_parentheses hs') rfl hlegible hroot hslash

/-- In a list of tokens that the grammar derives, an operator that is written like a name has a token
before it behind which the memory of that one token expects an operator, or else a slash that stands
where an operand begins and is a whole path. A name, or a star for one, has no token before it behind
which an operator is expected. So a list of tokens that some text may hold each by itself can be read
if and only if none of these operators is directly behind a slash, and then it is read from every text
that sets it out. -/
theorem Derives.recognizes_operators (h : Derives resolver allowed (.expression e) ts d) :
    (∀ before t after, ts = before ++ t :: after →
      (t.kind.isNamelike = true → ∃ earlier u, before = earlier ++ [u] ∧
        ((({} : OperatorContext).record u.kind).expectsOperator = true ∨
          u = .mark .slash ∧ ∀ first v, earlier = first ++ [v] →
            (({} : OperatorContext).record v.kind).expectsOperator = false)) ∧
      (t.kind.isName = true → ∀ earlier u, before = earlier ++ [u] →
        (({} : OperatorContext).record u.kind).expectsOperator = false)) ∧
    ((∃ text, tokenize text = ts ++ [.mark .endOfInput]) ↔
      (∀ t ∈ ts, t.Legible) ∧ ¬ SlashHidesOperator ts) ∧
    ((∀ t ∈ ts, t.Legible) → ¬ SlashHidesOperator ts → ∀ text, Layout ts text.toList →
      tokenize text = ts ++ [.mark .endOfInput]) := by
  refine ⟨?_, exists_tokenize_iff.trans h.consistent_iff, ?_⟩
  · obtain ⟨s', hrun, -⟩ := h.standing (s := .operand) rfl
    rintro before t after rfl
    constructor
    · exact Standing.behind_namelike hrun
    · rintro hkind earlier u rfl
      exact Standing.behind_name hrun hkind
  · intro hlegible hslash text hlayout
    have hfits := h.consistent_iff.mpr ⟨hlegible, hslash⟩
    exact tokenize_eq_iff.mpr ⟨hfits, hlayout⟩

end

/-- A star three times is a product, and behind a slash alone the product cannot be read. -/
theorem Derives.recognizes_operators_star :
    let star : Token String := .text .nameTest "*"
    let times : Token String := .mark (.op .multiply)
    (∃ e d, Derives none (fun _ _ => True) (.expression e) [star, times, star] d) ∧
      (∃ e d, Derives none (fun _ _ => True) (.expression e) [.mark .slash, times, star] d) ∧
      tokenize "***" = [star, times, star] ++ [.mark .endOfInput] ∧
      ¬ ∃ text, tokenize text = [.mark .slash, times, star] ++ [.mark .endOfInput] := by
  intro star times
  have hstar : Derives none (fun _ _ => True) (.level .path (.path false [⟨.child, .wildcard, []⟩]))
      [star] 0 := .relative (.oneStep (.stepAlong .child (.name (n := ⟨"*", none⟩) rfl) .noPredicate))
  have hproduct {l : Expr} {t : Token String}
      (hl : Derives none (fun _ _ => True) (.level .path l) [t] 0) :
      ∃ e d, Derives none (fun _ _ => True) (.expression e) [t, times, star] d := by
    have hlevel := Derives.operator (p := .multiplicative) (o := .multiply) rfl
      (hl.loosen (by decide)) (hstar.loosen (by decide))
    exact ⟨_, _, .expression (hlevel.loosen (by decide))⟩
  obtain ⟨e, d, hstars⟩ := hproduct hstar
  obtain ⟨e', d', hroot⟩ := hproduct Derives.root
  have hlegible : ∀ t ∈ [star, times, star], t.Legible := by
    have hname : star.Legible := ⟨false, False, Or.inl ⟨rfl, rfl⟩⟩
    have hop : times.Legible := ⟨true, False, fun _ => rfl⟩
    simp [hname, hop]
  have hslash : ¬ SlashHidesOperator [star, times, star] := by
    rintro ⟨before, t, after, hall, -⟩
    have hmem : Token.mark .slash ∈ [star, times, star] := by simp [hall]
    simp [star, times] at hmem
  have hlayout : Layout [star, times, star] "***".toList := by
    have hlast : Layout [star] ([] ++ ['*'] ++ []) :=
      .cons blank_nil .star (endsRun_nil _) (.nil blank_nil)
    have hmiddle : Layout [times, star] ([] ++ ['*'] ++ ['*']) :=
      .cons blank_nil (.mark rfl) (endsRun_cons.mpr rfl) hlast
    exact .cons (w := []) (l := ['*']) blank_nil .star (endsRun_cons.mpr rfl) hmiddle
  refine ⟨⟨e, d, hstars⟩, ⟨e', d', hroot⟩, ?_, ?_⟩
  · exact hstars.recognizes_operators.2.2 hlegible hslash "***" hlayout
  · intro htext
    exact (hroot.recognizes_operators.2.1.mp htext).2 ⟨[], times, [star], rfl, rfl⟩

end XPath
