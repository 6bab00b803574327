import XPath.Proofs.Execution

/-! Two parses by the same grammar, side by side. If they start alike and every action on the text
keeps them alike, they end alike, however deeply the grammar calls itself. -/
namespace XPath.Descent
variable {η σ θ τ α β : Type}

/-- What two parses have in common: at the places they reach, and at the rejections they end with.
The first one may also be `cut` short by a rejection of its own. Once `n` is `enough`, no list of
the first one can have `n` further items. -/
structure Link (η σ θ τ : Type) where
  tied : Place η σ → Place θ τ → Prop
  lost : Rejection × σ → Rejection × τ → Prop
  cut : Rejection × σ → Prop := fun _ => False
  enough : Nat → σ → Prop := fun _ _ => False

namespace Link

/-- Outcomes that respect a link: the same result at linked places, or linked rejections. -/
inductive Alike (L : Link η σ θ τ) : Outcome η σ α → Outcome θ τ α → Prop
  | ok {a : α} {t : Token η} {c : σ} {t' : Token θ} {c' : τ}
      (h : L.tied (t, c) (t', c')) : Alike L (.ok (a, t), c) (.ok (a, t'), c')
  | error {r r' : Rejection} {c : σ} {c' : τ} (h : L.lost (r, c) (r', c')) :
      Alike L (.error r, c) (.error r', c')
  | cut {r : Rejection} {c : σ} {o : Outcome θ τ α} (h : L.cut (r, c)) :
      Alike L (.error r, c) o

/-- What the actions on the text must satisfy for a link to hold throughout. A token with text is
left behind only by taking its text, which is expanded at once if it is a name test, and neither the
end nor an error is left behind at all. -/
structure Lawful (L : Link η σ θ τ) (k : Host η σ) (k' : Host θ τ) : Prop where
  shape {p : Place η σ} {p' : Place θ τ} (h : L.tied p p') :
    p.1.map (fun _ => ()) = p'.1.map (fun _ => ())
  next {m : Mark} {c : σ} {c' : τ} (hm : (Token.mark m : Token η).isFinal = false)
    (h : L.tied (.mark m, c) (.mark m, c')) : L.tied (k.next c) (k'.next c')
  take {kind : TextKind} {t : η} {t' : θ} {c : σ} {c' : τ}
    (h : L.tied (.text kind t, c) (.text kind t', c'))
    (hkind : kind ≠ .nameTest) :
    L.Alike (exec k (takeText t) (.text kind t, c)) (exec k' (takeText t') (.text kind t', c'))
  name {t : η} {t' : θ} {c : σ} {c' : τ}
    (h : L.tied (.text .nameTest t, c) (.text .nameTest t', c')) :
    L.Alike (exec k (expandText t) (.text .nameTest t, c))
      (exec k' (expandText t') (.text .nameTest t', c'))
  refuse {p : Place η σ} {p' : Place θ τ} (h : L.tied p p') :
    L.lost (refusal p.1 (k.view p.2).position, p.2) (refusal p'.1 (k'.view p'.2).position, p'.2)
  number {p : Place η σ} {p' : Place θ τ} (raw : String) (h : L.tied p p') :
    L.lost (.invalidNumber raw, p.2) (.invalidNumber raw, p'.2)
  check {p : Place η σ} {p' : Place θ τ} (name : String) (count : Nat) (h : L.tied p p') :
    L.Alike (exec k (attempt (.check name count)) p) (exec k' (attempt (.check name count)) p')
  enough_zero {p : Place η σ} {p' : Place θ τ} (h : L.tied p p') : ¬ L.enough 0 p.2
  enough_next {n : Nat} {c : σ} (h : L.enough (n + 1) c) : L.enough n (k.next c).2
  enough_interpret {α : Type} (x : Action η α) {n : Nat} {c : σ} (h : L.enough n c) :
    L.enough n (x.interpret k c).2

/-- Outcomes of whole parses that respect a link: the same result when the end of the input has been
passed at linked places, or linked rejections. -/
inductive Ends (L : Link η σ θ τ) (k : Host η σ) (k' : Host θ τ) :
    Outcome η σ α → Outcome θ τ α → Prop
  | ok {a : α} {c : σ} {c' : τ} (h : L.tied (.mark .endOfInput, c) (.mark .endOfInput, c')) :
      Ends L k k' (.ok (a, (k.next c).1), (k.next c).2) (.ok (a, (k'.next c').1), (k'.next c').2)
  | error {r r' : Rejection} {c : σ} {c' : τ} (h : L.lost (r, c) (r', c')) :
      Ends L k k' (.error r, c) (.error r', c')
  | cut {r : Rejection} {c : σ} {o : Outcome θ τ α} (h : L.cut (r, c)) :
      Ends L k k' (.error r, c) o

/-- Started at linked places, two actions have outcomes alike. -/
def Couples (L : Link η σ θ τ) (k : Host η σ) (k' : Host θ τ) (x : Descent η α)
    (y : Descent θ α) : Prop :=
  ∀ p p', L.tied p p' → L.Alike (exec k x p) (exec k' y p')

/-- Lists of the two parses may have as many further items, or more than they can have. -/
def Covers (L : Link η σ θ τ) (n n' : Nat) (c : σ) : Prop :=
  n = n' ∨ L.enough n c ∧ L.enough n' c

section
variable {L : Link η σ θ τ} {k : Host η σ} {k' : Host θ τ}

theorem Lawful.kind_eq (law : L.Lawful k k') {p : Place η σ} {p' : Place θ τ} (h : L.tied p p') :
    p.1.kind = p'.1.kind := by
  rw [← Token.kind_map (fun _ => ()) p.1, law.shape h, Token.kind_map]

/-- Hosts with one registry allow and refuse the same calls. -/
theorem alike_check {s : Setting} (hk : k.check = s.check) (hk' : k'.check = s.check)
    {p : Place η σ} {p' : Place θ τ} {name : String} {count : Nat} (h : L.tied p p')
    (hlost : ∀ r, s.check name count = .error r → L.lost (r, p.2) (r, p'.2)) :
    L.Alike (exec k (attempt (.check name count)) p)
      (exec k' (attempt (.check name count)) p') := by
  rw [exec_check, exec_check, hk, hk']
  cases hcheck : s.check name count with
  | ok a => exact .ok h
  | error r => exact .error (hlost r hcheck)

theorem Couples.pure (a : α) : L.Couples k k' (pure a) (pure a) :=
  fun _ _ h => .ok h

theorem Alike.bind_of {x : Descent η α} {y : Descent θ α} {f : α → Descent η β}
    {g : α → Descent θ β} {p : Place η σ} {p' : Place θ τ}
    (hxy : L.Alike (exec k x p) (exec k' y p'))
    (hfg : ∀ a q q', exec k x p = (.ok (a, q.1), q.2) → L.tied q q' →
      L.Alike (exec k (f a) q) (exec k' (g a) q')) :
    L.Alike (exec k (x >>= f) p) (exec k' (y >>= g) p') := by
  rw [exec_bind, exec_bind]
  generalize exec k x p = o at hxy hfg
  generalize exec k' y p' = o' at hxy
  cases hxy with
  | ok h => exact hfg _ _ _ rfl h
  | error h => exact .error h
  | cut h => exact .cut h

theorem Alike.bind {x : Descent η α} {y : Descent θ α} {f : α → Descent η β} {g : α → Descent θ β}
    {p : Place η σ} {p' : Place θ τ} (hxy : L.Alike (exec k x p) (exec k' y p'))
    (hfg : ∀ a, L.Couples k k' (f a) (g a)) :
    L.Alike (exec k (x >>= f) p) (exec k' (y >>= g) p') :=
  hxy.bind_of fun a q q' _ h => hfg a q q' h

theorem Alike.map {x : Descent η α} {y : Descent θ α} {p : Place η σ} {p' : Place θ τ} (f : α → β)
    (h : L.Alike (exec k x p) (exec k' y p')) :
    L.Alike (exec k (f <$> x) p) (exec k' (f <$> y) p') := by
  rw [exec_map, exec_map]
  exact h.bind fun a => .pure (f a)

theorem Couples.bind {x : Descent η α} {y : Descent θ α} {f : α → Descent η β}
    {g : α → Descent θ β} (hxy : L.Couples k k' x y)
    (hfg : ∀ a, L.Couples k k' (f a) (g a)) : L.Couples k k' (x >>= f) (y >>= g) :=
  fun p p' h => (hxy p p' h).bind hfg

section
variable (law : L.Lawful k k')
include law

theorem Covers.next {n n' : Nat} {c : σ} (h : L.Covers (n + 1) (n' + 1) c) :
    L.Covers n n' (k.next c).2 := by
  rcases h with h | ⟨h, h'⟩
  · exact Or.inl (Nat.succ.inj h)
  · exact Or.inr ⟨law.enough_next h, law.enough_next h'⟩

theorem Covers.exec {n n' : Nat} {x : Descent η α} {p q : Place η σ} {a : α}
    (h : L.Covers n n' p.2) (hx : exec k x p = (.ok (a, q.1), q.2)) : L.Covers n n' q.2 := by
  have hq : ((x.run p.1).run.interpret k p.2).2 = q.2 := congrArg Prod.snd hx
  rw [← hq]
  rcases h with h | ⟨h, h'⟩
  · exact Or.inl h
  · exact Or.inr ⟨law.enough_interpret _ h, law.enough_interpret _ h'⟩

/-- Neither parse is stopped by a bound on its lists while the other goes on. -/
theorem Covers.zero_or_succ {n n' : Nat} {p : Place η σ} {p' : Place θ τ} (h : L.tied p p')
    (hn : L.Covers n n' p.2) :
    n = 0 ∧ n' = 0 ∨ ∃ m m', n = m + 1 ∧ n' = m' + 1 ∧ L.Covers (m + 1) (m' + 1) p.2 := by
  have hzero := law.enough_zero h
  cases n with
  | zero =>
    rcases hn with rfl | ⟨hspent, -⟩
    · exact Or.inl ⟨rfl, rfl⟩
    · exact absurd hspent hzero
  | succ n =>
    cases n' with
    | zero =>
      rcases hn with hne | ⟨-, hspent⟩
      · cases hne
      · exact absurd hspent hzero
    | succ n' => exact Or.inr ⟨n, n', rfl, rfl, hn⟩

/-- To look at the current token is to look at a mark, or at two texts of the same kind. -/
theorem alike_get {f : Token η → Descent η α} {g : Token θ → Descent θ α} {p : Place η σ}
    {p' : Place θ τ} (h : L.tied p p')
    (hmark : ∀ m, L.tied (.mark m, p.2) (.mark m, p'.2) →
      L.Alike (exec k (f (.mark m)) (.mark m, p.2)) (exec k' (g (.mark m)) (.mark m, p'.2)))
    (htext : ∀ kind t t', L.tied (.text kind t, p.2) (.text kind t', p'.2) →
      L.Alike (exec k (f (.text kind t)) (.text kind t, p.2))
        (exec k' (g (.text kind t')) (.text kind t', p'.2))) :
    L.Alike (exec k (get >>= f) p) (exec k' (get >>= g) p') := by
  obtain ⟨t, c⟩ := p
  obtain ⟨t', c'⟩ := p'
  have hshape := law.shape h
  cases t with
  | mark m =>
    cases t' with
    | mark m' =>
      obtain rfl : m = m' := by simpa [Token.map] using hshape
      exact hmark m h
    | text kind' s' => simp [Token.map] at hshape
  | text kind s =>
    cases t' with
    | mark m' => simp [Token.map] at hshape
    | text kind' s' =>
      obtain rfl : kind = kind' := by simpa [Token.map] using hshape
      exact htext kind s s' h

theorem couples_get {f : Token η → Descent η α} {g : Token θ → Descent θ α}
    (hmark : ∀ m c c', L.tied (.mark m, c) (.mark m, c') →
      L.Alike (exec k (f (.mark m)) (.mark m, c)) (exec k' (g (.mark m)) (.mark m, c')))
    (htext : ∀ kind t t' c c', L.tied (.text kind t, c) (.text kind t', c') →
      L.Alike (exec k (f (.text kind t)) (.text kind t, c))
        (exec k' (g (.text kind t')) (.text kind t', c'))) :
    L.Couples k k' (get >>= f) (get >>= g) :=
  fun p p' h => alike_get law h (fun m => hmark m p.2 p'.2)
    (fun kind t t' => htext kind t t' p.2 p'.2)

theorem alike_advance {m : Mark} {c : σ} {c' : τ} (h : L.tied (.mark m, c) (.mark m, c'))
    (hm : (Token.mark m : Token η).isFinal = false) :
    L.Alike (exec k advance (.mark m, c)) (exec k' advance (.mark m, c')) :=
  .ok (law.next hm h)

theorem couples_refuse : L.Couples k k' (refuse : Descent η α) refuse := by
  intro p p' h
  rw [exec_refuse, exec_refuse]
  exact .error (law.refuse h)

/-- A choice by a bracket or a comma. -/
theorem alike_ite {m : Mark}
    (hm : m ∈ [Mark.leftParen, .rightParen, .leftBracket, .rightBracket, .comma])
    {x₁ x₂ : Descent η α} {y₁ y₂ : Descent θ α} {p : Place η σ} {p' : Place θ τ} (h : L.tied p p')
    (h₁ : L.tied (.mark m, p.2) (.mark m, p'.2) →
      L.Alike (exec k x₁ (.mark m, p.2)) (exec k' y₁ (.mark m, p'.2)))
    (h₂ : L.Alike (exec k x₂ p) (exec k' y₂ p')) :
    L.Alike (exec k (do if (← get).kind = m.kind then x₁ else x₂) p)
      (exec k' (do if (← get).kind = m.kind then y₁ else y₂) p') := by
  have hkind := law.kind_eq h
  obtain ⟨t, c⟩ := p
  obtain ⟨t', c'⟩ := p'
  simp only [exec_bind, exec_get]
  by_cases ht : t.kind = m.kind
  · obtain rfl := Token.eq_mark_of_kind (List.mem_cons_of_mem _ hm) ht
    obtain rfl := Token.eq_mark_of_kind (List.mem_cons_of_mem _ hm) (hkind.symm.trans ht)
    rw [if_pos ht, if_pos (hkind.symm.trans ht)]
    exact h₁ h
  · have ht' : t'.kind ≠ m.kind := fun he => ht (hkind.trans he)
    rw [if_neg ht, if_neg ht']
    exact h₂

theorem couples_ite {m : Mark}
    (hm : m ∈ [Mark.leftParen, .rightParen, .leftBracket, .rightBracket, .comma])
    {x₁ x₂ : Descent η α} {y₁ y₂ : Descent θ α}
    (h₁ : ∀ c c', L.tied (.mark m, c) (.mark m, c') →
      L.Alike (exec k x₁ (.mark m, c)) (exec k' y₁ (.mark m, c')))
    (h₂ : L.Couples k k' x₂ y₂) :
    L.Couples k k' (do if (← get).kind = m.kind then x₁ else x₂)
      (do if (← get).kind = m.kind then y₁ else y₂) :=
  fun p p' h => alike_ite law hm h (h₁ p.2 p'.2) (h₂ p p' h)

theorem couples_expect (m : Mark)
    (hm : m ∈ [Mark.leftParen, .rightParen, .leftBracket, .rightBracket, .comma]) :
    L.Couples k k' (expect m.kind) (expect m.kind) := by
  refine couples_ite law hm (fun c c' h => alike_advance law h ?_) (couples_refuse law)
  simp only [List.mem_cons, List.not_mem_nil, or_false] at hm
  rcases hm with rfl | rfl | rfl | rfl | rfl <;> rfl

/-- A list goes on after its mark: with fewer items to come. -/
theorem alike_onward {m : Mark} {n n' : Nat} {x : Descent η α} {y : Descent θ α} {c : σ} {c' : τ}
    (h : L.tied (.mark m, c) (.mark m, c')) (hm : (Token.mark m : Token η).isFinal = false)
    (hn : L.Covers (n + 1) (n' + 1) c)
    (hxy : ∀ q q', L.tied q q' → L.Covers n n' q.2 → L.Alike (exec k x q) (exec k' y q')) :
    L.Alike (exec k (do advance; x) (.mark m, c)) (exec k' (do advance; y) (.mark m, c')) := by
  refine (alike_advance law h hm).bind_of fun _ q q' hq htied => ?_
  have hcovers : L.Covers n n' q.2 := by
    rw [exec_advance] at hq
    have hnext : (k.next c).2 = q.2 := congrArg (fun o => o.2) hq
    rw [← hnext]
    exact hn.next law
  exact hxy q q' htied hcovers

theorem alike_chain {operand : Descent η Expr} {operand' : Descent θ Expr}
    (ho : L.Couples k k' operand operand') (pr : Precedence) {n n' : Nat} (left : Expr)
    {p : Place η σ} {p' : Place θ τ} (h : L.tied p p') (hn : L.Covers n n' p.2) :
    L.Alike (exec k (chain pr operand n left) p) (exec k' (chain pr operand' n' left) p') := by
  induction n generalizing n' left p p' with
  | zero =>
    obtain ⟨-, rfl⟩ | ⟨m, m', hm, -⟩ := Covers.zero_or_succ law h hn
    · exact .ok h
    · cases hm
  | succ n ih =>
    obtain ⟨hm, -⟩ | ⟨m, n', ⟨⟩, rfl, hn⟩ := Covers.zero_or_succ law h hn
    · cases hm
    refine alike_get law h (fun m h => ?_) (fun _ t t' h => .ok h)
    cases m with
    | op o =>
      by_cases hp : o.precedence = pr
      · simp only [if_pos hp]
        refine alike_onward law h rfl hn fun q q' hq hcovers => ?_
        refine (ho q q' hq).bind_of fun right r r' hr htied => ?_
        exact ih _ htied (hcovers.exec law hr)
      · simp only [if_neg hp]
        exact .ok h
    | _ => exact .ok h

section
variable {expression : Descent η Expr} {expression' : Descent θ Expr}
  (he : L.Couples k k' expression expression')
include he

theorem alike_moreArguments {n n' : Nat} {p : Place η σ} {p' : Place θ τ} (h : L.tied p p')
    (hn : L.Covers n n' p.2) :
    L.Alike (exec k (moreArguments expression n) p)
      (exec k' (moreArguments expression' n') p') := by
  induction n generalizing n' p p' with
  | zero =>
    obtain ⟨-, rfl⟩ | ⟨m, m', hm, -⟩ := Covers.zero_or_succ law h hn
    · exact .ok h
    · cases hm
  | succ n ih =>
    obtain ⟨hm, -⟩ | ⟨m, n', ⟨⟩, rfl, hn⟩ := Covers.zero_or_succ law h hn
    · cases hm
    refine alike_ite law (m := .comma) (by decide) h (fun h => ?_) (.ok h)
    refine alike_onward law h rfl hn fun q q' hq hcovers => ?_
    refine (he q q' hq).bind_of fun e r r' hr htied => ?_
    exact (ih htied (hcovers.exec law hr)).bind fun es => .pure _

theorem alike_predicates {n n' : Nat} {p : Place η σ} {p' : Place θ τ} (h : L.tied p p')
    (hn : L.Covers n n' p.2) :
    L.Alike (exec k (predicates expression n) p) (exec k' (predicates expression' n') p') := by
  induction n generalizing n' p p' with
  | zero =>
    obtain ⟨-, rfl⟩ | ⟨m, m', hm, -⟩ := Covers.zero_or_succ law h hn
    · exact .ok h
    · cases hm
  | succ n ih =>
    obtain ⟨hm, -⟩ | ⟨m, n', ⟨⟩, rfl, hn⟩ := Covers.zero_or_succ law h hn
    · cases hm
    refine alike_ite law (m := .leftBracket) (by decide) h (fun h => ?_) (.ok h)
    refine alike_onward law h rfl hn fun q q' hq hcovers => ?_
    refine (he q q' hq).bind_of fun e r r' hr htied => ?_
    have hcovers := hcovers.exec law hr
    have hclose := couples_expect law .rightBracket (by decide) r r' htied
    refine hclose.bind_of fun _ u u' hu htied => ?_
    exact (ih htied (hcovers.exec law hu)).bind fun es => .pure _

end

theorem couples_nodeTest : L.Couples k k' nodeTest nodeTest := by
  have opened : L.Couples k k' (expect .leftParen) (expect .leftParen) :=
    couples_expect law .leftParen (by decide)
  have closed (test : NodeTest) : L.Couples k k'
      (do expect .rightParen; return test) (do expect .rightParen; return test) :=
    (couples_expect law .rightParen (by decide)).bind fun _ => .pure _
  refine couples_get law (fun m c c' h => couples_refuse law _ _ h) (fun kind t t' c c' h => ?_)
  cases kind with
  | nameTest =>
    have hname := (law.name h).bind fun n => Couples.pure (NodeTest.ofName n)
    unfold expandText at hname
    rw [exec_bind_assoc, exec_bind_assoc] at hname
    exact hname
  | nodeType =>
    exact (law.take h nofun).bind fun name => opened.bind fun _ => closed _
  | processingInstruction =>
    refine (law.take h nofun).bind fun _ => opened.bind fun _ => ?_
    refine couples_get law (fun m c c' h => closed (.processingInstruction none) _ _ h)
      (fun kind t t' c c' h => ?_)
    cases kind with
    | literal => exact ((law.take h nofun).map some).bind fun target => closed _
    | _ => exact closed (.processingInstruction none) _ _ h
  | _ => exact couples_refuse law _ _ h

section
variable {expression : Descent η Expr} {expression' : Descent θ Expr}
  (he : L.Couples k k' expression expression') {bound bound' : Nat}
  (hb : ∀ p p', L.tied p p' → L.Covers bound bound' p.2)
include he hb

theorem couples_arguments :
    L.Couples k k' (arguments bound expression) (arguments bound' expression') := by
  refine (couples_expect law .leftParen (by decide)).bind fun _ => ?_
  refine couples_ite law (m := .rightParen) (by decide) (fun c c' h => ?_) ?_
  · exact (alike_advance law h rfl).bind fun _ => .pure []
  · refine he.bind fun e => ?_
    refine Couples.bind (fun p p' h => alike_moreArguments law he h (hb p p' h)) fun es => ?_
    exact (couples_expect law .rightParen (by decide)).bind fun _ => .pure _

theorem couples_predicates :
    L.Couples k k' (predicates expression bound) (predicates expression' bound') :=
  fun p p' h => alike_predicates law he h (hb p p' h)

theorem couples_primary :
    L.Couples k k' (primary bound expression) (primary bound' expression') := by
  refine couples_get law (fun m c c' h => ?_) (fun kind t t' c c' h => ?_)
  · cases m with
    | leftParen =>
      refine (alike_advance law h rfl).bind fun _ => he.bind fun e => ?_
      exact (couples_expect law .rightParen (by decide)).bind fun _ => .pure e
    | _ => exact couples_refuse law _ _ h
  · cases kind with
    | variableReference => exact (law.take h nofun).bind fun name => .pure _
    | literal => exact (law.take h nofun).bind fun value => .pure _
    | number =>
      refine (law.take h nofun).bind fun raw => ?_
      cases Binary64.ofNumeral? raw with
      | none => exact fun p p' hp => .error (law.number raw hp)
      | some x => exact .pure _
    | functionName =>
      refine (law.take h nofun).bind fun name => (couples_arguments law he hb).bind fun args => ?_
      exact Couples.bind (fun p p' hp => law.check name args.length hp) fun _ => .pure _
    | _ => exact couples_refuse law _ _ h

theorem couples_filter : L.Couples k k' (filter bound expression) (filter bound' expression') := by
  refine (couples_primary law he hb).bind fun e => ?_
  refine (couples_predicates law he hb).bind fun ps => ?_
  cases ps <;> exact .pure _

theorem couples_stepAlong (axis : Axis) :
    L.Couples k k' (stepAlong bound expression axis) (stepAlong bound' expression' axis) :=
  (couples_nodeTest law).bind fun _ => (couples_predicates law he hb).bind fun _ => .pure _

theorem couples_step : L.Couples k k' (step bound expression) (step bound' expression') := by
  refine couples_get law (fun m c c' h => ?_) (fun kind t t' c c' h => ?_)
  · cases m with
    | dot => exact (alike_advance law h rfl).bind fun _ => .pure _
    | dotDot => exact (alike_advance law h rfl).bind fun _ => .pure _
    | axis a => exact (alike_advance law h rfl).bind fun _ => couples_stepAlong law he hb a
    | atSign => exact (alike_advance law h rfl).bind fun _ => couples_stepAlong law he hb _
    | _ => exact couples_stepAlong law he hb .child _ _ h
  · exact couples_stepAlong law he hb .child _ _ h

theorem alike_moreSteps {n n' : Nat} {p : Place η σ} {p' : Place θ τ} (h : L.tied p p')
    (hn : L.Covers n n' p.2) :
    L.Alike (exec k (moreSteps bound expression n) p)
      (exec k' (moreSteps bound' expression' n') p') := by
  induction n generalizing n' p p' with
  | zero =>
    obtain ⟨-, rfl⟩ | ⟨m, m', hm, -⟩ := Covers.zero_or_succ law h hn
    · exact .ok h
    · cases hm
  | succ n ih =>
    obtain ⟨hm, -⟩ | ⟨m, n', ⟨⟩, rfl, hn⟩ := Covers.zero_or_succ law h hn
    · cases hm
    have further (first : List (Step Expr)) (q : Place η σ) (q' : Place θ τ) (hq : L.tied q q')
        (hcovers : L.Covers n n' q.2) : L.Alike
        (exec k (do
          let s ← step bound expression
          let ss ← moreSteps bound expression n
          return first ++ s :: ss) q)
        (exec k' (do
          let s ← step bound' expression'
          let ss ← moreSteps bound' expression' n'
          return first ++ s :: ss) q') := by
      refine (couples_step law he hb q q' hq).bind_of fun _ r r' hr htied => ?_
      exact (ih htied (hcovers.exec law hr)).bind fun _ => .pure _
    refine alike_get law h (fun m h => ?_) (fun kind t t' h => .ok h)
    cases m with
    | slash => exact alike_onward law h rfl hn (further [])
    | slashSlash => exact alike_onward law h rfl hn (further [.descendantOrSelf])
    | _ => exact .ok h

theorem couples_moreSteps :
    L.Couples k k' (moreSteps bound expression bound) (moreSteps bound' expression' bound') :=
  fun p p' h => alike_moreSteps law he hb h (hb p p' h)

theorem couples_steps : L.Couples k k' (steps bound expression) (steps bound' expression') :=
  (couples_step law he hb).bind fun _ => (couples_moreSteps law he hb).bind fun _ => .pure _

theorem couples_locationPath :
    L.Couples k k' (locationPath bound expression) (locationPath bound' expression') := by
  have relative : L.Couples k k'
      (do return Expr.path false (← steps bound expression))
      (do return Expr.path false (← steps bound' expression')) :=
    (couples_steps law he hb).bind fun _ => .pure _
  refine couples_get law (fun m c c' h => ?_) (fun kind t t' c c' h => relative _ _ h)
  cases m with
  | slash =>
    refine (alike_advance law h rfl).bind fun _ => ?_
    intro p p' hp
    simp only [exec_bind, exec_get, law.kind_eq hp]
    cases p'.1.kind.beginsStep with
    | true => exact ((couples_steps law he hb).bind fun _ => .pure _) _ _ hp
    | false => exact .ok hp
  | slashSlash =>
    refine (alike_advance law h rfl).bind fun _ => ?_
    exact (couples_steps law he hb).bind fun _ => .pure _
  | _ => exact relative _ _ h

theorem couples_filterPath :
    L.Couples k k' (filterPath bound expression) (filterPath bound' expression') := by
  refine (couples_filter law he hb).bind fun e => ?_
  refine (couples_moreSteps law he hb).bind fun ss => ?_
  cases ss <;> exact .pure _

theorem couples_path : L.Couples k k' (path bound expression) (path bound' expression') := by
  refine couples_get law (fun m c c' h => ?_) (fun kind t t' c c' h => ?_)
  · cases m with
    | leftParen => exact couples_filterPath law he hb _ _ h
    | _ => exact couples_locationPath law he hb _ _ h
  · cases kind with
    | variableReference | literal | number | functionName =>
      exact couples_filterPath law he hb _ _ h
    | _ => exact couples_locationPath law he hb _ _ h

end

section
variable {deeper : List Precedence → Descent η Expr} {deeper' : List Precedence → Descent θ Expr}
  (hd : ∀ levels, L.Couples k k' (deeper levels) (deeper' levels)) {bound bound' : Nat}
  (hb : ∀ p p', L.tied p p' → L.Covers bound bound' p.2)
include hd hb

theorem couples_unary : L.Couples k k' (unary bound deeper) (unary bound' deeper') := by
  have hpath := couples_path law (hd Precedence.aboveMinus) hb
  have union := hpath.bind fun left =>
    fun p p' h => alike_chain law hpath .union left h (hb p p' h)
  refine couples_get law (fun m c c' h => ?_) (fun kind t t' c c' h => union _ _ h)
  cases m with
  | op o =>
    cases o with
    | minus => exact (alike_advance law h rfl).bind fun _ => (hd []).bind fun e => .pure _
    | _ => exact union _ _ h
  | _ => exact union _ _ h

/-- The whole grammar, level by level, once the calls one level deeper are coupled. -/
theorem couples_binary (levels : List Precedence) :
    L.Couples k k' (binary bound deeper levels) (binary bound' deeper' levels) := by
  induction levels with
  | nil => exact couples_unary law hd hb
  | cons pr levels ih =>
    exact ih.bind fun left => fun p p' h => alike_chain law ih pr left h (hb p p' h)

end

section
variable {bound bound' limit limit' : Nat}
  (hb : ∀ p p', L.tied p p' → L.Covers bound bound' p.2)
include hb

/-- Expressions within the limit, if rejections beyond it are linked. -/
theorem couples_nested
    (hdeep : ∀ p p', L.tied p p' → L.lost (.tooDeep limit, p.2) (.tooDeep limit', p'.2))
    (n : Nat) (levels : List Precedence) :
    L.Couples k k' (nested bound limit n levels) (nested bound' limit' n levels) := by
  induction n generalizing levels with
  | zero => exact fun p p' h => .error (hdeep p p' h)
  | succ n ih => exact couples_binary law ih hb levels

/-- Expressions within a limit and within a larger one, if going beyond the smaller cuts short. -/
theorem couples_nested_le
    (hdeep : ∀ p p', L.tied p p' → L.cut (.tooDeep limit, p.2)) {n n' : Nat} (hn : n ≤ n')
    (levels : List Precedence) :
    L.Couples k k' (nested bound limit n levels) (nested bound' limit' n' levels) := by
  induction n generalizing n' levels with
  | zero => exact fun p p' h => .cut (hdeep p p' h)
  | succ n ih =>
    cases n' with
    | zero => exact absurd hn (Nat.not_succ_le_zero n)
    | succ n' =>
      have hless := Nat.le_of_succ_le_succ hn
      exact couples_binary law (fun levels => ih hless levels) hb levels

end

/-- Behind an expression, whole parses look for the end of the input. -/
theorem ends_behind {expression : Descent η Expr} {expression' : Descent θ Expr} {p : Place η σ}
    {p' : Place θ τ} (h : L.Alike (exec k expression p) (exec k' expression' p')) :
    L.Ends k k' (exec k (do let e ← expression; expect .endOfInput; return e) p)
      (exec k' (do let e ← expression'; expect .endOfInput; return e) p') := by
  rw [exec_bind, exec_bind]
  generalize exec k expression p = o at h
  generalize exec k' expression' p' = o' at h
  cases h with
  | error h => exact .error h
  | cut h => exact .cut h
  | @ok e t c t' c' h =>
    have hkind : t.kind = t'.kind := law.kind_eq h
    dsimp only
    unfold expect
    simp only [exec_bind, exec_get, hkind]
    by_cases hend : t'.kind = .endOfInput
    · obtain rfl := Token.eq_mark_of_kind (m := .endOfInput) (by decide) hend
      obtain rfl := Token.eq_mark_of_kind (m := .endOfInput) (by decide) hkind
      rw [if_pos hend, if_pos hend]
      exact .ok h
    · rw [if_neg hend, if_neg hend, exec_refuse, exec_refuse]
      exact .error (law.refuse h)

theorem ends_whole {bound bound' limit limit' : Nat} {p : Place η σ} {p' : Place θ τ}
    (h : L.Alike (exec k (nested bound limit limit Precedence.aboveMinus) p)
      (exec k' (nested bound' limit' limit' Precedence.aboveMinus) p')) :
    L.Ends k k' (exec k (whole bound limit) p) (exec k' (whole bound' limit') p') :=
  ends_behind law h

end
end
end Link
end XPath.Descent
