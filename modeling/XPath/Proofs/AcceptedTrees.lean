import XPath.Proofs.Grammar.Operators
import XPath.Proofs.Namespaces
import XPath.Proofs.Printer.Derives

/-! What is known of every tree that the grammar gives for an expression: it can be written down, its
namespaces were found, its calls are allowed and it does not nest more deeply than the options let
it. -/
namespace XPath
namespace Expr
mutual

/-- How deeply a tree nests: each argument of a call, each predicate and the operand of a minus is one
level deeper than the tree. -/
def nest : Expr → Nat
  | literal _ | number _ | var _ => 0
  | call _ args => listNest args
  | filter primary predicates => max (nest primary) (listNest predicates)
  | binary _ left right => max (nest left) (nest right)
  | negate operand => nest operand + 1
  | path _ steps => stepsNest steps
  | pathFrom start steps => max (nest start) (stepsNest steps)

def listNest : List Expr → Nat
  | [] => 0
  | e :: es => max (nest e + 1) (listNest es)

def stepNest : Step Expr → Nat
  | ⟨_, _, predicates⟩ => listNest predicates

def stepsNest : List (Step Expr) → Nat
  | [] => 0
  | s :: ss => max (stepNest s) (stepsNest ss)

end

theorem stepsNest_append (ss ss' : List (Step Expr)) :
    stepsNest (ss ++ ss') = max (stepsNest ss) (stepsNest ss') := by
  induction ss with
  | nil => simp [stepsNest]
  | cons s ss ih => simp [stepsNest, ih, Nat.max_assoc]

end Expr

theorem Joins.stepsNest {m : Mark} {js : List (Step Expr)} (h : Joins m js) :
    Expr.stepsNest js = 0 := by
  cases h <;> rfl

/-- How deeply what a phrase denotes nests. An expression is itself a level. -/
def Phrase.nest : Phrase → Nat
  | expression e => e.nest + 1
  | level _ e | filter e | primary e => e.nest
  | arguments es | predicates es => Expr.listNest es
  | relativePath ss => Expr.stepsNest ss
  | step s => Expr.stepNest s

/-- A derivation nests at least as deeply as the tree: parentheses leave no trace in it. -/
theorem Derives.nest_le {resolver : Option Resolver} {allowed : String → Nat → Prop} {X : Phrase}
    {ts : List (Token String)} {d : Nat} (h : Derives resolver allowed X ts d) : X.nest ≤ d := by
  induction h with
  | expression _ ih => exact Nat.succ_le_succ ih
  | operand _ ih | union _ ih | relative _ ih | filter _ ih | primary _ ih => exact ih
  | operator _ _ _ ihl ihr =>
    simp only [Phrase.nest, Expr.nest] at ihl ihr ⊢
    omega
  | minus _ ih => exact Nat.succ_le_succ ih
  | root | variableReference | literal | number | noArgument | noPredicate | self | parent =>
    exact Nat.zero_le _
  | absolute hj _ ih =>
    simp only [Phrase.nest, Expr.nest, Expr.stepsNest_append, hj.stepsNest] at ih ⊢
    omega
  | pathFrom _ hj _ ih ihs =>
    simp only [Phrase.nest, Expr.nest, Expr.stepsNest_append, hj.stepsNest] at ih ihs ⊢
    omega
  | filtered _ _ ih ihp =>
    simp only [Phrase.nest, Expr.nest] at ih ihp ⊢
    omega
  | parentheses _ ih => exact Nat.le_of_succ_le ih
  | call _ _ ih => exact ih
  | argument _ ih =>
    simp only [Phrase.nest, Expr.listNest] at ih ⊢
    omega
  | moreArguments _ _ ih ihs =>
    simp only [Phrase.nest, Expr.listNest] at ih ihs ⊢
    omega
  | predicate _ _ ih ihs =>
    simp only [Phrase.nest, Expr.listNest] at ih ihs ⊢
    omega
  | oneStep _ ih =>
    simp only [Phrase.nest, Expr.stepsNest] at ih ⊢
    omega
  | moreSteps _ hj _ ihs ih =>
    simp only [Phrase.nest, Expr.stepsNest_append, Expr.stepsNest, hj.stepsNest] at ih ihs ⊢
    omega
  | stepAlong _ _ _ ih => exact ih

/-- A token that some text may hold, with its part before the colon among `names` if it is a name test
that has one. -/
structure Token.Known (names : List String) (t : Token String) : Prop where
  legible : t.Legible
  short {short : String} (h : t.short? = some short) : short ∈ names

/-- The namespace of a proper node test was found for one of the names. -/
structure NodeTest.Sound (resolver : Option Resolver) (names : List String) (test : NodeTest) :
    Prop where
  proper : test.Proper
  found {uri : String} (h : test.uri? = some uri) :
    ∃ short ∈ names, resolver.bind (·.lookup short) = some uri

/-- The top of a tree can be written down, its namespaces were found and its call is allowed. -/
structure Expr.Sound (resolver : Option Resolver) (allowed : String → Nat → Prop)
    (names : List String) (e : Expr) : Prop where
  proper : e.Proper
  found {s : Step Expr} (hs : s ∈ e.steps) {uri : String} (h : s.test.uri? = some uri) :
    ∃ short ∈ names, resolver.bind (·.lookup short) = some uri
  allowed {name : String} {args : List Expr} (h : e = .call name args) : allowed name args.length

section
variable {resolver : Option Resolver} {allowed : String → Nat → Prop} {names : List String}

theorem NodeTest.sound_name {s : String} (hs : (Token.text .nameTest s).Known names)
    {n : ExpandedName} (hn : expandName resolver s = .ok n) :
    (NodeTest.ofName n).Sound resolver names := by
  obtain ⟨op, paren, hfits⟩ := hs.legible
  -- Behind a colon the namespace was found for what stands before it.
  have hcolon {p localName : String} (hp : IsNCName p) (hq : s = qualified p localName) :
      ∃ uri, n = ⟨localName, some uri⟩ ∧
        ∃ short ∈ names, resolver.bind (·.lookup short) = some uri := by
    subst hq
    have hsplit := splitQName_qualified hp localName
    have hshort : (Token.text .nameTest (qualified p localName)).short? = some p := by
      simp [Token.short?, hsplit]
    cases hlookup : resolver.bind (·.lookup p) with
    | none =>
      unfold expandName at hn
      simp [hsplit, hlookup] at hn
    | some uri =>
      rw [expandName_qualified hp hlookup] at hn
      exact ⟨uri, (Except.ok.inj hn).symm, p, hs.short hshort, hlookup⟩
  rcases hfits with ⟨rfl, -⟩ | ⟨p, -, ⟨hp, hstar⟩ | ⟨hname, -⟩⟩
  · obtain rfl := Except.ok.inj hn
    exact ⟨trivial, nofun⟩
  · obtain ⟨uri, rfl, hfound⟩ := hcolon hp hstar
    exact ⟨trivial, fun h => Option.some.inj h ▸ hfound⟩
  · cases hname with
    | plain hp =>
      rw [expandName_isNCName resolver hp] at hn
      obtain rfl := Except.ok.inj hn
      rw [NodeTest.ofName_isNCName hp]
      exact ⟨hp, nofun⟩
    | colon hp hlocal =>
      obtain ⟨uri, rfl, hfound⟩ := hcolon hp rfl
      rw [NodeTest.ofName_isNCName hlocal]
      exact ⟨hlocal, fun h => Option.some.inj h ▸ hfound⟩

theorem SpellsTest.sound {ts : List (Token String)} {test : NodeTest}
    (h : SpellsTest resolver ts test) (hts : ∀ t ∈ ts, t.Known names) :
    test.Sound resolver names := by
  cases h with
  | name hn => exact NodeTest.sound_name (hts _ List.mem_cons_self) hn
  | nodeType | processingInstruction => exact ⟨trivial, nofun⟩
  | target s target =>
    obtain ⟨op, paren, hfits⟩ := (hts (.text .literal target) (by simp)).legible
    exact ⟨hfits, nofun⟩

/-- Nothing but its form is asked of a tree without steps and calls at its top. -/
theorem Expr.sound_of_proper {e : Expr} (hproper : e.Proper) (hsteps : e.steps = [])
    (hcall : ∀ name args, e ≠ .call name args) : e.Sound resolver allowed names where
  proper := hproper
  found hs := by
    rw [hsteps] at hs
    cases hs
  allowed h := absurd h (hcall _ _)

/-- What is known of a step. -/
structure Step.Sound (resolver : Option Resolver) (allowed : String → Nat → Prop)
    (names : List String) (s : Step Expr) : Prop where
  test : s.test.Sound resolver names
  predicates : ∀ p ∈ s.predicates, p.Throughout (Expr.Sound resolver allowed names)

theorem Step.sound_anyNode (axis : Axis) : (Step.anyNode axis).Sound resolver allowed names where
  test := ⟨trivial, nofun⟩
  predicates := nofun

theorem Joins.sound {m : Mark} {js : List (Step Expr)} (h : Joins m js) :
    ∀ s ∈ js, s.Sound resolver allowed names := by
  cases h with
  | slash => exact nofun
  | slashSlash => exact List.forall_mem_singleton.mpr (Step.sound_anyNode _)

/-- All predicates of sound steps are sound throughout. -/
theorem Step.sound_predicates {ss : List (Step Expr)}
    (h : ∀ s ∈ ss, s.Sound resolver allowed names) :
    ∀ c ∈ ss.flatMap Step.predicates, c.Throughout (Expr.Sound resolver allowed names) := by
  intro c hc
  obtain ⟨s, hs, hpredicate⟩ := List.mem_flatMap.mp hc
  exact (h s hs).predicates c hpredicate

theorem Expr.sound_path {absolute : Bool} {ss : List (Step Expr)}
    (hne : absolute = true ∨ ss ≠ []) (h : ∀ s ∈ ss, s.Sound resolver allowed names) :
    (Expr.path absolute ss).Throughout (Expr.Sound resolver allowed names) := by
  refine throughout_iff.mpr ⟨⟨⟨hne, fun s hs => (h s hs).test.proper⟩, ?_, nofun⟩,
    Step.sound_predicates h⟩
  exact fun hs _ huri => (h _ hs).test.found huri

theorem Expr.sound_pathFrom {start : Expr} {ss : List (Step Expr)} (hne : ss ≠ [])
    (hstart : start.Throughout (Expr.Sound resolver allowed names))
    (h : ∀ s ∈ ss, s.Sound resolver allowed names) :
    (Expr.pathFrom start ss).Throughout (Expr.Sound resolver allowed names) := by
  refine throughout_iff.mpr ⟨⟨⟨hne, fun s hs => (h s hs).test.proper⟩, ?_, nofun⟩,
    List.forall_mem_cons.mpr ⟨hstart, Step.sound_predicates h⟩⟩
  exact fun hs _ huri => (h _ hs).test.found huri

/-- What is known of all that a phrase denotes. -/
def Phrase.Sound (resolver : Option Resolver) (allowed : String → Nat → Prop)
    (names : List String) : Phrase → Prop
  | expression e | level _ e | filter e | primary e =>
    e.Throughout (Expr.Sound resolver allowed names)
  | arguments es | predicates es => ∀ e ∈ es, e.Throughout (Expr.Sound resolver allowed names)
  | relativePath ss => ∀ s ∈ ss, s.Sound resolver allowed names
  | step s => s.Sound resolver allowed names

/-- Every production gives sound trees, if its tokens are known. -/
theorem Derives.sound {X : Phrase} {ts : List (Token String)} {d : Nat}
    (h : Derives resolver allowed X ts d) (hts : ∀ t ∈ ts, t.Known names) :
    X.Sound resolver allowed names := by
  have leaf {e : Expr} (hproper : e.Proper) (hsteps : e.steps = [])
      (hcall : ∀ name args, e ≠ .call name args) (hchildren : e.children = []) :
      e.Throughout (Expr.Sound resolver allowed names) := by
    refine Expr.throughout_iff.mpr ⟨Expr.sound_of_proper hproper hsteps hcall, ?_⟩
    rw [hchildren]
    exact nofun
  induction h with
  | expression _ ih | operand _ ih | union _ ih | filter _ ih | primary _ ih => exact ih hts
  | operator _ _ _ ihl ihr =>
    obtain ⟨hl, hr⟩ := List.forall_mem_append.mp hts
    have hright := ihr (List.forall_mem_cons.mp hr).2
    exact Expr.throughout_iff.mpr ⟨Expr.sound_of_proper trivial rfl nofun,
      List.forall_mem_cons.mpr ⟨ihl hl, List.forall_mem_singleton.mpr hright⟩⟩
  | minus _ ih =>
    have hoperand := ih (List.forall_mem_cons.mp hts).2
    exact Expr.throughout_iff.mpr ⟨Expr.sound_of_proper trivial rfl nofun,
      List.forall_mem_singleton.mpr hoperand⟩
  | root => exact Expr.sound_path (Or.inl rfl) nofun
  | absolute hj _ ih =>
    have hsteps := ih (List.forall_mem_cons.mp hts).2
    exact Expr.sound_path (Or.inl rfl) (List.forall_mem_append.mpr ⟨hj.sound, hsteps⟩)
  | relative h ih => exact Expr.sound_path (Or.inr h.relative_ne_nil) (ih hts)
  | pathFrom _ hj h ih ihs =>
    obtain ⟨hstart, hrest⟩ := List.forall_mem_append.mp hts
    have hsteps := ihs (List.forall_mem_cons.mp hrest).2
    have hall := List.forall_mem_append.mpr ⟨hj.sound, hsteps⟩
    exact Expr.sound_pathFrom (List.append_ne_nil_of_right_ne_nil _ h.relative_ne_nil) (ih hstart)
      hall
  | filtered _ _ ih ihp =>
    obtain ⟨hprimary, hpredicates⟩ := List.forall_mem_append.mp hts
    exact Expr.throughout_iff.mpr ⟨Expr.sound_of_proper (List.cons_ne_nil _ _) rfl nofun,
      List.forall_mem_cons.mpr ⟨ih hprimary, ihp hpredicates⟩⟩
  | variableReference s =>
    obtain ⟨op, paren, hname⟩ := (List.forall_mem_singleton.mp hts).legible
    exact leaf hname rfl nofun rfl
  | literal s =>
    obtain ⟨op, paren, hquotable⟩ := (List.forall_mem_singleton.mp hts).legible
    exact leaf hquotable rfl nofun rfl
  | number hx =>
    obtain ⟨op, paren, hnumeral⟩ := (List.forall_mem_singleton.mp hts).legible
    exact leaf ⟨_, hnumeral, hx⟩ rfl nofun rfl
  | parentheses _ ih =>
    obtain ⟨hinner, -⟩ := List.forall_mem_append.mp (List.forall_mem_cons.mp hts).2
    exact ih hinner
  | call hallowed _ ih =>
    obtain ⟨hname, hrest⟩ := List.forall_mem_cons.mp hts
    obtain ⟨hargs, -⟩ := List.forall_mem_append.mp (List.forall_mem_cons.mp hrest).2
    obtain ⟨op, paren, ⟨p, -, hp⟩, hnot, -⟩ := hname.legible
    refine Expr.throughout_iff.mpr ⟨⟨⟨⟨p, hp⟩, hnot⟩, nofun, ?_⟩, ih hargs⟩
    rintro name args ⟨⟩
    exact hallowed
  | noArgument | noPredicate => exact nofun
  | argument _ ih => exact List.forall_mem_singleton.mpr (ih hts)
  | moreArguments _ _ ih ihs =>
    obtain ⟨hfirst, hrest⟩ := List.forall_mem_append.mp hts
    have hmore := ihs (List.forall_mem_cons.mp hrest).2
    exact List.forall_mem_cons.mpr ⟨ih hfirst, hmore⟩
  | predicate _ _ ih ihs =>
    obtain ⟨hinner, hrest⟩ := List.forall_mem_append.mp (List.forall_mem_cons.mp hts).2
    have hmore := ihs (List.forall_mem_cons.mp hrest).2
    exact List.forall_mem_cons.mpr ⟨ih hinner, hmore⟩
  | oneStep _ ih => exact List.forall_mem_singleton.mpr (ih hts)
  | moreSteps _ hj _ ihs ih =>
    obtain ⟨hpath, hrest⟩ := List.forall_mem_append.mp hts
    have hstep := ih (List.forall_mem_cons.mp hrest).2
    have hlonger := List.forall_mem_append.mpr ⟨ihs hpath, hj.sound⟩
    exact List.forall_mem_append.mpr ⟨hlonger, List.forall_mem_singleton.mpr hstep⟩
  | self => exact Step.sound_anyNode .self
  | parent => exact Step.sound_anyNode .parent
  | stepAlong _ ht _ ih =>
    obtain ⟨hfront, hpredicates⟩ := List.forall_mem_append.mp hts
    exact ⟨ht.sound (List.forall_mem_append.mp hfront).2, ih hpredicates⟩

end

namespace Descent

/-- The tokens of a text that is read to its end. -/
theorem known_of_tokenize {input : String} {ts : List (Token String)}
    (h : tokenize input = ts ++ [.mark .endOfInput]) :
    ∀ t ∈ ts, t.Known ((tokenize input).filterMap Token.short?) := by
  intro t ht
  have hmem : t ∈ tokenize input := h ▸ List.mem_append_left _ ht
  have hlegible := (tokenize_eq_iff.mp h).1.legible t ht
  exact ⟨hlegible, fun hshort => List.mem_filterMap.mpr ⟨t, hmem, hshort⟩⟩

/-- The tree of an accepted text can be written down. Every namespace that it mentions is what the
resolver finds for the part before the colon of some name test in the text, every call in it is one
that the registry allows if calls are held against it, and it nests, counted as one level itself, no
more deeply than the options let it. -/
theorem accepted_tree {s : Setting} {input : String} {e : Expr} (h : parse s input = .ok e) :
    e.WellFormed ∧
    (∀ uri, e.Mentions uri → ∃ short ∈ (tokenize input).filterMap Token.short?,
      s.resolver.bind (·.lookup short) = some uri) ∧
    (s.options.validateFunctions = true → ∀ name count, e.Calls name count →
      s.functions.check name count = .ok ()) ∧
    1 + e.nest ≤ s.options.maxDepth := by
  obtain ⟨ts, depth, htokens, hderives, hdepth⟩ := derives_of_parse h
  have hsound : e.Throughout (Expr.Sound s.resolver s.Allows _) :=
    hderives.sound (known_of_tokenize htokens)
  refine ⟨fun p hp => (hsound p hp).proper, ?_, ?_, ?_⟩
  · rintro uri ⟨p, hp, step, hstep, huri⟩
    exact (hsound p hp).found hstep huri
  · rintro hvalidate name count ⟨args, hp, rfl⟩
    exact (hsound _ hp).allowed rfl hvalidate
  · have hnest : e.nest + 1 ≤ depth := hderives.nest_le
    omega

/-- The operand of a minus, with a predicate in an argument. The parentheses take a level that the
tree does not have. -/
theorem accepted_tree_minus :
    let s : Setting :=
      { resolver := some (.firstOf [("p", "urn:p")]), options := { maxDepth := 5 } }
    let tree := Expr.negate (.call "count" [.path false
      [⟨.child, .name "a" (some "urn:p"), [.path false [.anyNode .self]]⟩]])
    parse s "-(count(p:a[.]))" = .ok tree ∧ tree.WellFormed ∧
      (∃ short ∈ (tokenize "-(count(p:a[.]))").filterMap Token.short?,
        s.resolver.bind (·.lookup short) = some "urn:p") ∧
      s.functions.check "count" 1 = .ok () ∧ tree.nest = 3 ∧ 1 + tree.nest ≤ 5 := by
  intro s tree
  have hparse : parse s "-(count(p:a[.]))" = .ok tree := by
    rw [parse_eq_interpret]
    rfl
  obtain ⟨hproper, hfound, hallowed, hnest⟩ := accepted_tree hparse
  have hpath : Expr.Part (.path false
      [⟨.child, .name "a" (some "urn:p"), [.path false [.anyNode .self]]⟩]) tree :=
    .child List.mem_cons_self (.child List.mem_cons_self (.self _))
  have hmentions : tree.Mentions "urn:p" := ⟨_, hpath, _, List.mem_cons_self, rfl⟩
  have hcalls : tree.Calls "count" 1 := ⟨_, .child List.mem_cons_self (.self _), rfl⟩
  exact ⟨hparse, hproper, hfound "urn:p" hmentions, hallowed rfl "count" 1 hcalls, rfl, hnest⟩

end Descent
end XPath
