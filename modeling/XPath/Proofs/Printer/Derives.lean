import XPath.Proofs.Grammar
import XPath.Proofs.Printer
import XPath.Proofs.Token.Name

/-! The tokens of a written tree derive the tree. -/
namespace XPath

private theorem ne_colon {n : String} (hn : IsNCName n) (x : Char) (hx : x ∈ n.toList) :
    (x != ':') = true := by
  have hin := hn.inName x hx
  rw [bne_iff_ne]
  rintro rfl
  exact absurd hin (by decide)

theorem splitQName_isNCName {n : String} (hn : IsNCName n) : splitQName n.toList = none := by
  have hdrop := dropWhile_append (ne_colon hn) (endsRun_nil _)
  rw [List.append_nil] at hdrop
  unfold splitQName
  rw [hdrop]

theorem splitQName_qualified {p : String} (hp : IsNCName p) (n : String) :
    splitQName (qualified p n).toList = some (p.toList, n.toList) := by
  have hcolon : EndsRun (· != ':') (':' :: n.toList) := endsRun_cons.mpr rfl
  unfold splitQName
  rw [toList_qualified, dropWhile_append (ne_colon hp) hcolon,
    takeWhile_append (ne_colon hp) hcolon]

theorem expandName_isNCName (resolver : Option Resolver) {n : String} (hn : IsNCName n) :
    expandName resolver n = .ok ⟨n, none⟩ := by
  unfold expandName
  rw [splitQName_isNCName hn]

theorem expandName_qualified {resolver : Option Resolver} {p uri : String} (hp : IsNCName p)
    (huri : resolver.bind (·.lookup p) = some uri) (n : String) :
    expandName resolver (qualified p n) = .ok ⟨n, some uri⟩ := by
  unfold expandName
  rw [splitQName_qualified hp]
  simp only [String.ofList_toList, huri]

theorem NodeTest.ofName_isNCName {n : String} (hn : IsNCName n) (uri : Option String) :
    NodeTest.ofName ⟨n, uri⟩ = .name n uri := by
  have hstar : n ≠ "*" := by
    rintro rfl
    exact star_notMem hn (by decide)
  exact if_pos hstar

section
variable {resolver : Option Resolver} {allowed : String → Nat → Prop} {short : String → String}

theorem spellsTest_tokens {test : NodeTest} (hproper : test.Proper)
    (hshort : ∀ uri, test.uri? = some uri →
      IsNCName (short uri) ∧ resolver.bind (·.lookup (short uri)) = some uri) :
    SpellsTest resolver (test.tokens short) test := by
  cases test with
  | name localName uri =>
    cases uri with
    | none =>
      have hname := expandName_isNCName resolver hproper
      have htest := SpellsTest.name hname
      rwa [NodeTest.ofName_isNCName hproper] at htest
    | some uri =>
      obtain ⟨hp, huri⟩ := hshort uri rfl
      have hname := expandName_qualified hp huri localName
      have htest := SpellsTest.name hname
      rwa [NodeTest.ofName_isNCName hproper] at htest
  | wildcard => exact .name (n := ⟨"*", none⟩) rfl
  | namespaceWildcard uri =>
    obtain ⟨hp, huri⟩ := hshort uri rfl
    exact .name (expandName_qualified hp huri "*")
  | kind k => cases k <;> exact .nodeType _
  | processingInstruction target =>
    cases target with
    | none => exact .processingInstruction "processing-instruction"
    | some target => exact .target "processing-instruction" target

namespace Derives

theorem whole {l : Level} {e : Expr} {ts : List (Token String)} {d : Nat}
    (h : Derives resolver allowed (.level l e) ts d) :
    Derives resolver allowed (.expression e) ts (d + 1) :=
  .expression (h.loosen (Nat.zero_le _))

theorem alone {e : Expr} {ts : List (Token String)} {d : Nat}
    (h : Derives resolver allowed (.primary e) ts d) :
    Derives resolver allowed (.expression e) ts (d + 1) :=
  (Derives.filter (.primary h)).whole

/-- An expression in parentheses can be an operand at any level. -/
theorem inParens {e : Expr} {ts : List (Token String)} {d : Nat} (l : Level)
    (h : Derives resolver allowed (.expression e) ts d) :
    Derives resolver allowed (.level l e) (inParens ts) d :=
  (Derives.filter (.primary (.parentheses h))).loosen l.rank_le

end Derives

/-- A phrase can be given by a list of tokens without nesting deeper than a bound. -/
def DerivesWithin (resolver : Option Resolver) (allowed : String → Nat → Prop) (X : Phrase)
    (ts : List (Token String)) (bound : Nat) : Prop :=
  ∃ d, d ≤ bound ∧ Derives resolver allowed X ts d

theorem within_arguments {es : List Expr}
    (hes : ∀ e ∈ es, DerivesWithin resolver allowed (.expression e) (e.tokens short) e.depth) :
    DerivesWithin resolver allowed (.arguments es) (Expr.argumentTokens short es)
      (Expr.listDepth es) := by
  induction es with
  | nil => exact ⟨0, Nat.le_refl 0, .noArgument⟩
  | cons e es ih =>
    obtain ⟨⟨d, hd, he⟩, hes⟩ := List.forall_mem_cons.mp hes
    cases es with
    | nil => exact ⟨d, Nat.le_trans hd (Nat.le_max_left _ _), .argument he⟩
    | cons e' es =>
      obtain ⟨d', hd', hmore⟩ := ih hes
      refine ⟨max d d', ?_, .moreArguments he hmore⟩
      rw [Expr.listDepth]
      omega

theorem within_predicates {ps : List Expr}
    (hps : ∀ p ∈ ps, DerivesWithin resolver allowed (.expression p) (p.tokens short) p.depth) :
    DerivesWithin resolver allowed (.predicates ps) (Expr.predicateTokens short ps)
      (Expr.listDepth ps) := by
  induction ps with
  | nil => exact ⟨0, Nat.le_refl 0, .noPredicate⟩
  | cons p ps ih =>
    obtain ⟨⟨d, hd, hp⟩, hps⟩ := List.forall_mem_cons.mp hps
    obtain ⟨d', hd', hmore⟩ := ih hps
    refine ⟨max d d', ?_, .predicate hp hmore⟩
    rw [Expr.listDepth]
    omega

theorem within_step {s : Step Expr} (htest : SpellsTest resolver (s.test.tokens short) s.test)
    (hps : ∀ p ∈ s.predicates,
      DerivesWithin resolver allowed (.expression p) (p.tokens short) p.depth) :
    DerivesWithin resolver allowed (.step s) (Expr.stepTokens short s) (Expr.stepDepth s) := by
  obtain ⟨axis, test, predicates⟩ := s
  obtain ⟨d, hd, hpredicates⟩ := within_predicates hps
  exact ⟨d, hd, .stepAlong (.axis axis) htest hpredicates⟩

theorem within_steps {ss : List (Step Expr)} (hne : ss ≠ [])
    (htest : ∀ s ∈ ss, SpellsTest resolver (s.test.tokens short) s.test)
    (hps : ∀ p ∈ ss.flatMap Step.predicates,
      DerivesWithin resolver allowed (.expression p) (p.tokens short) p.depth) :
    DerivesWithin resolver allowed (.relativePath ss) (Expr.stepsTokens short ss)
      (Expr.stepsDepth ss) := by
  induction ss with
  | nil => exact absurd rfl hne
  | cons s ss ih =>
    obtain ⟨hs, htest⟩ := List.forall_mem_cons.mp htest
    rw [List.flatMap_cons] at hps
    obtain ⟨hfirst, hps⟩ := List.forall_mem_append.mp hps
    obtain ⟨d, hd, hstep⟩ := within_step hs hfirst
    cases ss with
    | nil => exact ⟨d, Nat.le_trans hd (Nat.le_max_left _ _), .oneStep hstep⟩
    | cons s' ss =>
      obtain ⟨d', hd', hmore⟩ := ih (by simp) htest hps
      refine ⟨max d d', ?_, hstep.relative_cons .slash hmore⟩
      rw [Expr.stepsDepth]
      omega

theorem within_tokens {e : Expr} (hwf : e.WellFormed)
    (hshort : ∀ uri, e.Mentions uri →
      IsNCName (short uri) ∧ resolver.bind (·.lookup (short uri)) = some uri)
    (hcalls : ∀ name count, e.Calls name count → allowed name count) :
    DerivesWithin resolver allowed (.expression e) (e.tokens short) e.depth := by
  induction e using Expr.induct with
  | h e ih =>
    have hproper := hwf e (.self e)
    have hchild (c : Expr) (hc : c ∈ e.children) :
        DerivesWithin resolver allowed (.expression c) (c.tokens short) c.depth :=
      ih c hc (hwf.child hc) (fun uri huri => hshort uri (huri.child hc))
        fun name count hcount => hcalls name count (hcount.child hc)
    have htest (htests : ∀ s ∈ e.steps, s.test.Proper) (s : Step Expr) (hs : s ∈ e.steps) :
        SpellsTest resolver (s.test.tokens short) s.test :=
      spellsTest_tokens (htests s hs) fun uri h => hshort uri ⟨e, .self e, s, hs, h⟩
    cases e with
    | literal s => exact ⟨1, Nat.le_refl 1, (Derives.literal s).alone⟩
    | number x =>
      obtain ⟨s, -, hx⟩ := hproper
      have hnumeral := Binary64.ofNumeral?_numeral (Binary64.le_of_ofNumeral? hx)
      exact ⟨1, Nat.le_refl 1, (Derives.number hnumeral).alone⟩
    | var name => exact ⟨1, Nat.le_refl 1, (Derives.variableReference name).alone⟩
    | call name args =>
      obtain ⟨d, hd, harguments⟩ := within_arguments (show ∀ c ∈ args, _ from hchild)
      have hallowed := hcalls name args.length ⟨args, .self _, rfl⟩
      refine ⟨d + 1, ?_, (Derives.call hallowed harguments).alone⟩
      rw [Expr.depth]
      omega
    | filter primary predicates =>
      obtain ⟨⟨d, hd, hprimary⟩, hps⟩ := List.forall_mem_cons.mp hchild
      obtain ⟨d', hd', hpredicates⟩ := within_predicates hps
      obtain ⟨p, ps, rfl⟩ := List.exists_cons_of_ne_nil hproper
      refine ⟨max d d' + 1, ?_,
        (Derives.filter (.filtered (.parentheses hprimary) hpredicates)).whole⟩
      rw [Expr.depth]
      omega
    | binary op left right =>
      obtain ⟨d, hd, hleft⟩ := hchild left (by simp [Expr.children])
      obtain ⟨d', hd', hright⟩ := hchild right (by simp [Expr.children])
      refine ⟨max d d' + 1, ?_, (Derives.operator rfl (hleft.inParens _) (hright.inParens _)).whole⟩
      rw [Expr.depth]
      omega
    | negate operand =>
      obtain ⟨d, hd, hoperand⟩ := hchild operand (List.mem_singleton_self _)
      refine ⟨d + 1 + 1, ?_, (Derives.minus (hoperand.inParens _)).whole⟩
      rw [Expr.depth]
      omega
    | path absolute ss =>
      obtain ⟨hne, htests⟩ := hproper
      by_cases hss : ss = []
      · obtain rfl := hss
        obtain rfl : absolute = true := hne.resolve_right fun h => h rfl
        exact ⟨1, Nat.le_refl 1, Derives.root.whole⟩
      · obtain ⟨d, hd, hsteps⟩ := within_steps hss (htest htests) hchild
        refine ⟨d + 1, ?_, ?_⟩
        · rw [Expr.depth]
          omega
        · cases absolute with
          | true => exact (Derives.absolute .slash hsteps).whole
          | false => exact (Derives.relative hsteps).whole
    | pathFrom start ss =>
      obtain ⟨hne, htests⟩ := hproper
      obtain ⟨⟨d, hd, hstart⟩, hps⟩ := List.forall_mem_cons.mp hchild
      obtain ⟨d', hd', hsteps⟩ := within_steps hne (htest htests) hps
      have hfrom := Derives.pathFrom (.primary (.parentheses hstart)) .slash hsteps
      refine ⟨max d d' + 1, ?_, hfrom.whole⟩
      rw [Expr.depth]
      omega

end
end XPath
