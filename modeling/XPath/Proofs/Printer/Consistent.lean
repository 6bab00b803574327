import XPath.Proofs.Printer

/-! The tokens of a written tree fit together. -/
namespace XPath

/-- Tokens of a whole expression: they fit wherever an operand may begin and in front of whatever
can end an expression. -/
def Fluent (ts : List (Token String)) : Prop :=
  ∀ (c : OperatorContext) (rest : List (Token String)), c.expectsOperator = false →
    (∀ c', Consistent c' rest) → rest.head? ≠ some (.mark .leftParen) → Consistent c (ts ++ rest)

theorem consistent_inParens {ts rest : List (Token String)} (h : Fluent ts) (c : OperatorContext)
    (hrest : Consistent (c.record .rightParen) rest) : Consistent c (inParens ts ++ rest) := by
  have hinner : Consistent (c.record .leftParen) (ts ++ .mark .rightParen :: rest) :=
    h _ _ rfl (fun c' => ⟨trivial, hrest⟩) (by simp)
  have hcut : inParens ts ++ rest = .mark .leftParen :: (ts ++ .mark .rightParen :: rest) := by
    simp [inParens]
  rw [hcut]
  exact ⟨trivial, hinner⟩

section
variable {short : String → String}

theorem consistent_test {test : NodeTest} (hproper : test.Proper)
    (hshort : ∀ uri, test.uri? = some uri → IsNCName (short uri)) {c : OperatorContext}
    {rest : List (Token String)} (hc : c.expectsOperator = false)
    (hrest : ∀ c', Consistent c' rest) (hparen : rest.head? ≠ some (.mark .leftParen)) :
    Consistent c (test.tokens short ++ rest) := by
  have hword (p : String) : c.expectsOperator = true → ¬ IsOperatorWord p := by
    rw [hc]
    rintro ⟨⟩
  cases test with
  | name localName uri =>
    cases uri with
    | none => exact ⟨Or.inr ⟨_, hword _, Or.inr ⟨.plain hproper, hparen⟩⟩, hrest _⟩
    | some uri =>
      have hqualified := QName.colon (hshort uri rfl) hproper
      exact ⟨Or.inr ⟨_, hword _, Or.inr ⟨hqualified, hparen⟩⟩, hrest _⟩
  | wildcard => exact ⟨Or.inl ⟨rfl, hc⟩, hrest _⟩
  | namespaceWildcard uri => exact ⟨Or.inr ⟨_, hword _, Or.inl ⟨hshort uri rfl, rfl⟩⟩, hrest _⟩
  | kind k => exact ⟨⟨by cases k <;> decide, rfl⟩, trivial, trivial, hrest _⟩
  | processingInstruction target =>
    cases target with
    | none => exact ⟨⟨rfl, rfl⟩, trivial, trivial, hrest _⟩
    | some target => exact ⟨⟨rfl, rfl⟩, trivial, hproper, trivial, hrest _⟩

theorem consistent_predicates {ps : List Expr} (hps : ∀ p ∈ ps, Fluent (p.tokens short))
    {rest : List (Token String)} (hrest : ∀ c', Consistent c' rest) (c : OperatorContext) :
    Consistent c (Expr.predicateTokens short ps ++ rest) := by
  induction ps generalizing c with
  | nil => exact hrest c
  | cons p ps ih =>
    obtain ⟨hp, hps⟩ := List.forall_mem_cons.mp hps
    have hinner := hp (c.record .leftBracket)
      (.mark .rightBracket :: (Expr.predicateTokens short ps ++ rest)) rfl
      (fun c' => ⟨trivial, ih hps _⟩) (by simp)
    have hcut : Expr.predicateTokens short (p :: ps) ++ rest = .mark .leftBracket ::
        (p.tokens short ++ .mark .rightBracket :: (Expr.predicateTokens short ps ++ rest)) := by
      simp [Expr.predicateTokens]
    rw [hcut]
    exact ⟨trivial, hinner⟩

theorem head?_predicates (ps : List Expr) {rest : List (Token String)}
    (hparen : rest.head? ≠ some (.mark .leftParen)) :
    (Expr.predicateTokens short ps ++ rest).head? ≠ some (.mark .leftParen) := by
  cases ps with
  | nil => exact hparen
  | cons p ps => simp [Expr.predicateTokens]

theorem fluent_arguments {es : List Expr} (hes : ∀ e ∈ es, Fluent (e.tokens short)) :
    Fluent (Expr.argumentTokens short es) := by
  intro c rest hc hrest hparen
  induction es generalizing c with
  | nil => exact hrest c
  | cons e es ih =>
    obtain ⟨he, hes⟩ := List.forall_mem_cons.mp hes
    cases es with
    | nil => exact he c rest hc hrest hparen
    | cons e' es =>
      have hcut : Expr.argumentTokens short (e :: e' :: es) ++ rest = e.tokens short ++
          .mark .comma :: (Expr.argumentTokens short (e' :: es) ++ rest) := by
        simp [Expr.argumentTokens]
      rw [hcut]
      exact he c _ hc (fun c' => ⟨trivial, ih hes (c'.record .comma) rfl⟩) (by simp)

theorem consistent_step {s : Step Expr} (hproper : s.test.Proper)
    (hshort : ∀ uri, s.test.uri? = some uri → IsNCName (short uri))
    (hps : ∀ p ∈ s.predicates, Fluent (p.tokens short)) {rest : List (Token String)}
    (hrest : ∀ c', Consistent c' rest) (hparen : rest.head? ≠ some (.mark .leftParen))
    (c : OperatorContext) : Consistent c (Expr.stepTokens short s ++ rest) := by
  obtain ⟨axis, test, predicates⟩ := s
  have htest := consistent_test hproper hshort (c := c.record (Mark.axis axis).kind) rfl
    (consistent_predicates hps hrest) (head?_predicates predicates hparen)
  have hcut : Expr.stepTokens short ⟨axis, test, predicates⟩ ++ rest = .mark (.axis axis) ::
      (test.tokens short ++ (Expr.predicateTokens short predicates ++ rest)) := by
    simp [Expr.stepTokens]
  rw [hcut]
  exact ⟨trivial, htest⟩

theorem consistent_steps {ss : List (Step Expr)} (hproper : ∀ s ∈ ss, s.test.Proper)
    (hshort : ∀ s ∈ ss, ∀ uri, s.test.uri? = some uri → IsNCName (short uri))
    (hps : ∀ p ∈ ss.flatMap Step.predicates, Fluent (p.tokens short)) {rest : List (Token String)}
    (hrest : ∀ c', Consistent c' rest) (hparen : rest.head? ≠ some (.mark .leftParen))
    (c : OperatorContext) : Consistent c (Expr.stepsTokens short ss ++ rest) := by
  induction ss generalizing c with
  | nil => exact hrest c
  | cons s ss ih =>
    obtain ⟨hs, hproper⟩ := List.forall_mem_cons.mp hproper
    obtain ⟨huri, hshort⟩ := List.forall_mem_cons.mp hshort
    rw [List.flatMap_cons] at hps
    obtain ⟨hfirst, hps⟩ := List.forall_mem_append.mp hps
    cases ss with
    | nil => exact consistent_step hs huri hfirst hrest hparen c
    | cons s' ss =>
      have hcut : Expr.stepsTokens short (s :: s' :: ss) ++ rest = Expr.stepTokens short s ++
          .mark .slash :: (Expr.stepsTokens short (s' :: ss) ++ rest) := by
        simp [Expr.stepsTokens]
      have hmore (c' : OperatorContext) :
          Consistent c' (.mark .slash :: (Expr.stepsTokens short (s' :: ss) ++ rest)) :=
        ⟨trivial, ih hproper hshort hps _⟩
      rw [hcut]
      exact consistent_step hs huri hfirst hmore (by simp) c

theorem fluent_tokens {e : Expr} (hwf : e.WellFormed)
    (hshort : ∀ uri, e.Mentions uri → IsNCName (short uri)) : Fluent (e.tokens short) := by
  induction e using Expr.induct with
  | h e ih =>
    have hproper := hwf e (.self e)
    have hchild (c' : Expr) (hc' : c' ∈ e.children) : Fluent (c'.tokens short) :=
      ih c' hc' (hwf.child hc') fun uri huri => hshort uri (huri.child hc')
    have huri (s : Step Expr) (hs : s ∈ e.steps) (uri : String) (h : s.test.uri? = some uri) :
        IsNCName (short uri) := hshort uri ⟨e, .self e, s, hs, h⟩
    intro c rest hc hrest hparen
    cases e with
    | literal s => exact ⟨hproper, hrest _⟩
    | number x =>
      obtain ⟨s, hs, hx⟩ := hproper
      exact ⟨x.isNumeral_numeral, hrest _⟩
    | var name => exact ⟨hproper, hrest _⟩
    | call name args =>
      obtain ⟨⟨p, hp⟩, hname⟩ := hproper
      have hword : c.expectsOperator = true → ¬ IsOperatorWord p := by
        rw [hc]
        rintro ⟨⟩
      exact ⟨⟨⟨p, hword, hp⟩, hname, rfl⟩,
        consistent_inParens (fluent_arguments hchild) _ (hrest _)⟩
    | filter primary predicates =>
      obtain ⟨hprimary, hps⟩ := List.forall_mem_cons.mp hchild
      rw [Expr.tokens, List.append_assoc]
      exact consistent_inParens hprimary c (consistent_predicates hps hrest _)
    | binary op left right =>
      have hright (c' : OperatorContext) : Consistent c' (inParens (right.tokens short) ++ rest) :=
        consistent_inParens (hchild right (by simp [Expr.children])) c' (hrest _)
      rw [Expr.tokens, List.append_assoc]
      exact consistent_inParens (hchild left (by simp [Expr.children])) c
        ⟨fun _ => rfl, hright _⟩
    | negate operand =>
      exact ⟨fun h => absurd h (by decide),
        consistent_inParens (hchild operand (List.mem_singleton_self _)) _ (hrest _)⟩
    | path absolute ss =>
      have hsteps := consistent_steps hproper.2 huri hchild hrest hparen
      cases absolute with
      | true => exact ⟨trivial, hsteps _⟩
      | false => exact hsteps c
    | pathFrom start ss =>
      obtain ⟨hstart, hps⟩ := List.forall_mem_cons.mp hchild
      rw [Expr.tokens, List.append_assoc]
      exact consistent_inParens hstart c
        ⟨trivial, consistent_steps hproper.2 huri hps hrest hparen _⟩

end
end XPath
