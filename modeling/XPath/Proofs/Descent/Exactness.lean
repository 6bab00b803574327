import XPath.Proofs.Descent.Completeness
import XPath.Proofs.Descent.Ownership
import XPath.Proofs.Descent.Soundness

/-! The descent accepts exactly the inputs whose tokens the grammar derives, with the tree that the
derivation denotes. -/
namespace XPath

theorem Joins.not_final {m : Mark} {js : List (Step Expr)} (h : Joins m js) :
    (Token.mark m : Token String).isFinal = false := by
  cases h <;> rfl

/-- No phrase contains the end of the input or an error. -/
theorem Derives.not_final {resolver : Option Resolver} {allowed : String → Nat → Prop} {X : Phrase}
    {ts : List (Token String)} {d : Nat} (h : Derives resolver allowed X ts d) :
    ∀ t ∈ ts, t.isFinal = false := by
  induction h with
  | absolute hj _ ih => exact List.forall_mem_cons.mpr ⟨hj.not_final, ih⟩
  | pathFrom _ hj _ ih ih' | moreSteps _ hj _ ih ih' =>
    exact List.forall_mem_append.mpr ⟨ih, List.forall_mem_cons.mpr ⟨hj.not_final, ih'⟩⟩
  | stepAlong ha ht _ ih =>
    refine List.forall_mem_append.mpr ⟨List.forall_mem_append.mpr ⟨?_, ?_⟩, ih⟩
    · cases ha <;> simp [Token.isFinal]
    · cases ht <;> simp [Token.isFinal]
  | _ => simp_all [or_imp, Token.isFinal]

namespace Descent
variable {s : Setting}

/-- Each token passed takes at least one character. -/
theorem Passes.length_le {c : Context} {ts : List (Token String)} {q : Place String Context}
    (h : Passes c.read ts q) (hts : ∀ t ∈ ts, t.isFinal = false) : ts.length ≤ c.lexer.unread := by
  induction ts generalizing c with
  | nil => exact Nat.zero_le _
  | cons t ts ih =>
    obtain ⟨rfl, hrest⟩ := passes_cons.mp h
    obtain ⟨hfinal, hts⟩ := List.forall_mem_cons.mp hts
    have hless := Lexer.unread_next (l := c.lexer) hfinal
    have hle : ts.length ≤ c.lexer.next.2.unread := ih hrest hts
    rw [List.length_cons]
    omega

/-- To pass all tokens and come to the end is to read the text to its end. -/
theorem passes_iff_tokens {c : Context} {ts : List (Token String)} :
    ((∀ t ∈ ts, t.isFinal = false) ∧ ∃ q, Passes c.read ts q ∧ q.1 = .mark .endOfInput) ↔
      c.lexer.tokens.map Prod.fst = ts ++ [.mark .endOfInput] := by
  have hread : c.read.1 = c.lexer.next.1 := rfl
  have hlexer : c.read.2.lexer = c.lexer.next.2 := rfl
  induction ts generalizing c with
  | nil =>
    rw [Lexer.map_tokens, ← hread]
    constructor
    · rintro ⟨-, q, hq, hend⟩
      rw [passes_nil.mp hq, hend]
      rfl
    · intro h
      exact ⟨by simp, c.read, .nil _, (List.cons.inj h).1⟩
  | cons t ts ih =>
    have ih := ih (c := c.read.2) rfl rfl
    rw [hlexer] at ih
    rw [Lexer.map_tokens, ← hread]
    constructor
    · rintro ⟨hfinal, q, hq, hend⟩
      obtain ⟨ht, hts⟩ := passes_cons.mp hq
      obtain ⟨htfinal, hfinal⟩ := List.forall_mem_cons.mp hfinal
      rw [ht, htfinal]
      exact congrArg (t :: ·) (ih.mp ⟨hfinal, q, hts, hend⟩)
    · intro h
      obtain ⟨ht, htail⟩ := List.cons.inj h
      cases hfinal : c.read.1.isFinal with
      | true => simp [hfinal] at htail
      | false =>
        rw [hfinal] at htail
        obtain ⟨hall, q, hq, hend⟩ := ih.mpr htail
        rw [ht] at hfinal
        exact ⟨List.forall_mem_cons.mpr ⟨hfinal, hall⟩, q, passes_cons.mpr ⟨ht, hq⟩, hend⟩

theorem map_fst_eq_ok {η σ α : Type} {o : Outcome η σ α} {a : α} :
    o.1.map Prod.fst = .ok a ↔ ∃ q : Place η σ, o = (.ok (a, q.1), q.2) := by
  obtain ⟨r, c⟩ := o
  cases r with
  | error r =>
    refine iff_of_false nofun ?_
    rintro ⟨q, ⟨⟩⟩
  | ok result =>
    constructor
    · rintro ⟨⟩
      exact ⟨(result.2, c), rfl⟩
    · rintro ⟨q, hq⟩
      obtain rfl := Except.ok.inj (congrArg Prod.fst hq)
      rfl

theorem map_fst_eq_error {η σ α : Type} {o : Outcome η σ α} {r : Rejection} :
    o.1.map Prod.fst = .error r ↔ o = (.error r, o.2) := by
  obtain ⟨x, c⟩ := o
  cases x with
  | error r' => simp [Except.map]
  | ok result => simp [Except.map]

/-- What the grammar makes of an input does not depend on the table of texts. -/
theorem parse_eq_interpret (s : Setting) (input : String) :
    parse s input = (grammar.interpret (.direct s) (Context.begin input {})).1 :=
  (run_grammar_matches (c := Context.begin input {}) Arena.sound_empty (Nat.zero_le 2)
    (Nat.le_refl 2) (by decide) s).result

theorem parse_eq_ok {input : String} {e : Expr} :
    parse s input = .ok e ↔
      ∃ q, Yields s (whole ((Context.begin input {}).lexer.unread + 1) s.options.maxDepth)
        (Context.begin input {}).read e q := by
  rw [parse_eq_interpret, interpret_grammar]
  exact map_fst_eq_ok

variable {input : String} {e : Expr}

theorem derives_of_parse (h : parse s input = .ok e) :
    ∃ ts depth, tokenize input = ts ++ [.mark .endOfInput] ∧
      Derives s.resolver s.Allows (.expression e) ts depth ∧ depth ≤ s.options.maxDepth := by
  obtain ⟨q, h⟩ := parse_eq_ok.mp h
  obtain ⟨m, ⟨ts, depth, hts, hderives, hdepth⟩, hend⟩ := whole_sound h
  have htokens := (passes_iff_tokens (c := Context.begin input {})).mp
    ⟨hderives.not_final, m, hts, hend⟩
  exact ⟨ts, depth, htokens, hderives, hdepth⟩

theorem parse_of_derives {ts : List (Token String)} {depth : Nat}
    (htokens : tokenize input = ts ++ [.mark .endOfInput])
    (hderives : Derives s.resolver s.Allows (.expression e) ts depth)
    (hdepth : depth ≤ s.options.maxDepth) : parse s input = .ok e := by
  obtain ⟨hfinal, m, hts, hend⟩ := (passes_iff_tokens (c := Context.begin input {})).mpr htokens
  have hlength := hts.length_le hfinal
  have hwhole := whole_complete hderives hdepth (Nat.lt_succ_of_le hlength) hts hend
  exact parse_eq_ok.mpr ⟨m.2.read, hwhole⟩

/-- An input is accepted, with a tree, if and only if its tokens derive the tree, the derivation
does not nest too deeply and every call in it is allowed. -/
theorem parse_eq_ok_iff_derives (s : Setting) (input : String) (e : Expr) :
    parse s input = .ok e ↔
      ∃ ts depth, tokenize input = ts ++ [.mark .endOfInput] ∧
        Derives s.resolver s.Allows (.expression e) ts depth ∧ depth ≤ s.options.maxDepth :=
  ⟨derives_of_parse, fun ⟨_, _, htokens, hderives, hdepth⟩ =>
    parse_of_derives htokens hderives hdepth⟩

end Descent
end XPath
