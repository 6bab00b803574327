import XPath.Proofs.Descent.Comparison
import XPath.Proofs.Expr

/-! Calls held against the registry. The descent checks each call when it has been read, so it checks
those of the tree in their order, and stops at the first that is refused. Nothing else depends on
them. -/
namespace XPath

/-- The rejection of a call. -/
def CallFault.rejection (name : String) (count : Nat) : CallFault → Rejection
  | unknown => .unknownFunction name
  | wrongArity expected => .wrongArity name count expected

namespace Setting

/-- The same setting with calls held against the registry, or not. -/
def validating (s : Setting) (validate : Bool) : Setting :=
  { s with options := { s.options with validateFunctions := validate } }

theorem check_validating (s : Setting) (name : String) (count : Nat) :
    (s.validating true).check name count =
      (s.functions.check name count).mapError (CallFault.rejection name count) := by
  unfold check validating
  simp only [if_true]
  cases s.functions.check name count with
  | ok => rfl
  | error fault => cases fault <;> rfl

theorem check_not_validating (s : Setting) (name : String) (count : Nat) :
    (s.validating false).check name count = .ok () := rfl

/-- Checks calls one after the other, up to the first that is refused. -/
def checkAll (s : Setting) (calls : List (String × Nat)) : Except Rejection Unit :=
  calls.forM fun call => s.check call.1 call.2

theorem checkAll_singleton (s : Setting) (name : String) (count : Nat) :
    s.checkAll [(name, count)] = s.check name count := by
  unfold checkAll
  simp

theorem checkAll_append (s : Setting) (calls calls' : List (String × Nat)) :
    s.checkAll (calls ++ calls') = (do s.checkAll calls; s.checkAll calls') := by
  unfold checkAll
  simp

theorem checkAll_eq_ok {s : Setting} {calls : List (String × Nat)}
    (h : ∀ call ∈ calls, s.check call.1 call.2 = .ok ()) : s.checkAll calls = .ok () := by
  induction calls with
  | nil => rfl
  | cons call calls ih =>
    obtain ⟨hfirst, hrest⟩ := List.forall_mem_cons.mp h
    rw [← List.singleton_append, checkAll_append, checkAll_singleton, hfirst]
    exact ih hrest

theorem checkAll_eq_error {s : Setting} {before after : List (String × Nat)} {name : String}
    {count : Nat} {r : Rejection} (hbefore : ∀ call ∈ before, s.check call.1 call.2 = .ok ())
    (h : s.check name count = .error r) :
    s.checkAll (before ++ (name, count) :: after) = .error r := by
  rw [← List.singleton_append, checkAll_append, checkAll_append, checkAll_eq_ok hbefore,
    checkAll_singleton, h]
  rfl

end Setting

namespace Descent
variable {s : Setting} {pre : List (String × Nat)} {α β : Type}

/-- From `p` on, the action makes these calls, which are checked in turn: if all are allowed, it
succeeds with `a` and comes to `q`, and otherwise it fails for the first that is not. -/
structure Vets (s : Setting) (x : Descent String α) (p : Place String Context)
    (calls : List (String × Nat)) (a : α) (q : Place String Context) : Prop where
  allowed (h : s.checkAll calls = .ok ()) : Yields s x p a q
  refused {r : Rejection} (h : s.checkAll calls = .error r) : ∃ c, Fails s x p r c

theorem Vets.bind {x : Descent String α} {f : α → Descent String β} {p m q : Place String Context}
    {calls calls' : List (String × Nat)} {a : α} {b : β} (hx : Vets s x p calls a m)
    (hf : Vets s (f a) m calls' b q) : Vets s (x >>= f) p (calls ++ calls') b q := by
  constructor
  · intro h
    rw [s.checkAll_append] at h
    cases hcalls : s.checkAll calls with
    | error r =>
      rw [hcalls] at h
      cases h
    | ok =>
      rw [hcalls] at h
      exact yields_bind.mpr ⟨a, m, hx.allowed hcalls, hf.allowed h⟩
  · intro r h
    rw [s.checkAll_append] at h
    cases hcalls : s.checkAll calls with
    | error r' =>
      rw [hcalls] at h
      obtain rfl := Except.error.inj h
      obtain ⟨c, hc⟩ := hx.refused hcalls
      exact ⟨c, fails_bind.mpr (Or.inl hc)⟩
    | ok =>
      rw [hcalls] at h
      obtain ⟨c, hc⟩ := hf.refused h
      exact ⟨c, fails_bind.mpr (Or.inr ⟨a, m, hx.allowed hcalls, hc⟩)⟩

/-- Behind the calls `pre`, the action makes more, which `post` tells from its result. It finds the
result without validation, and with it the calls are checked on the way. -/
def Adds (s : Setting) (pre : List (String × Nat)) (x : Descent String α)
    (post : α → List (String × Nat)) : Prop :=
  ∀ p a q, Yields (s.validating false) x p a q →
    ∃ calls, post a = pre ++ calls ∧ Vets (s.validating true) x p calls a q

/-- The action makes the calls in its result, whatever came before. -/
def Gathers (s : Setting) (x : Descent String α) (calls : α → List (String × Nat)) : Prop :=
  ∀ pre, Adds s pre x fun a => pre ++ calls a

theorem Adds.bind {x : Descent String α} {f : α → Descent String β}
    {mid : α → List (String × Nat)} {post : β → List (String × Nat)} (hx : Adds s pre x mid)
    (hf : ∀ a, Adds s (mid a) (f a) post) : Adds s pre (x >>= f) post := by
  intro p b q h
  obtain ⟨a, m, ha, hb⟩ := yields_bind.mp h
  obtain ⟨calls, hmid, hcalls⟩ := hx p a m ha
  obtain ⟨calls', hpost, hcalls'⟩ := hf a m b q hb
  refine ⟨calls ++ calls', ?_, hcalls.bind hcalls'⟩
  rw [hpost, hmid, List.append_assoc]

/-- An action that makes no calls. -/
theorem adds_none {x : Descent String α} {post : α → List (String × Nat)}
    (hx : ∀ {p : Place String Context} {a : α} {q : Place String Context},
      Yields (s.validating false) x p a q → post a = pre ∧ Yields (s.validating true) x p a q) :
    Adds s pre x post := by
  intro p a q h
  obtain ⟨hpost, hyields⟩ := hx h
  exact ⟨[], by rw [hpost, List.append_nil], fun _ => hyields, nofun⟩

theorem Adds.pure {a : α} {post : α → List (String × Nat)} (h : post a = pre) :
    Adds s pre (pure a) post := by
  apply adds_none
  intro p b q hb
  obtain ⟨rfl, rfl⟩ := yields_pure.mp hb
  exact ⟨h, yields_pure.mpr ⟨rfl, rfl⟩⟩

theorem adds_get {f : Token String → Descent String β} {post : β → List (String × Nat)}
    (h : ∀ t, Adds s pre (f t) post) : Adds s pre (get >>= f) post := by
  intro p b q hb
  obtain ⟨calls, hpost, hcalls⟩ := h p.1 p b q (yields_get_bind.mp hb)
  refine ⟨calls, hpost, fun hok => yields_get_bind.mpr (hcalls.allowed hok), fun herror => ?_⟩
  obtain ⟨c, hc⟩ := hcalls.refused herror
  exact ⟨c, fails_get_bind.mpr hc⟩

theorem adds_advance : Adds s pre advance fun _ => pre :=
  adds_none fun h => ⟨rfl, by simpa using h⟩

theorem adds_takeText (h : String) : Adds s pre (takeText h) fun _ => pre :=
  adds_none fun h => ⟨rfl, by simpa using h⟩

theorem adds_expect (k : TokenKind) : Adds s pre (expect k) fun _ => pre :=
  adds_none fun h => ⟨rfl, by simpa using h⟩

theorem adds_expand (name : String) : Adds s pre (attempt (.expand name)) fun _ => pre :=
  adds_none fun h => by
    obtain ⟨hname, rfl⟩ := yields_expand.mp h
    exact ⟨rfl, yields_expand.mpr ⟨hname, rfl⟩⟩

theorem adds_refuse {post : α → List (String × Nat)} : Adds s pre refuse post :=
  adds_none fun h => absurd h yields_refuse

theorem adds_throw (r : Rejection) {post : α → List (String × Nat)} : Adds s pre (throw r) post :=
  adds_none fun h => absurd h yields_throw

theorem adds_check (name : String) (count : Nat) :
    Adds s pre (attempt (.check name count)) fun _ => pre ++ [(name, count)] := by
  intro p u q h
  obtain ⟨-, rfl⟩ := yields_check.mp h
  refine ⟨[(name, count)], rfl, fun hok => ?_, fun {r} herror => ⟨q.2, ?_⟩⟩
  · rw [Setting.checkAll_singleton] at hok
    exact yields_check.mpr ⟨hok, rfl⟩
  · rw [Setting.checkAll_singleton] at herror
    unfold Fails
    rw [exec_check]
    change (((s.validating true).check name count).map (·, q.1), q.2) = _
    rw [herror]
    rfl

/-! The grammar makes the calls in what it reads. A chain goes on behind a left operand that has made
its calls already, which is why those before are part of the statements. -/

theorem gathers_pure (a : α) {calls : α → List (String × Nat)} (h : calls a = []) :
    Gathers s (pure a) calls :=
  fun pre => .pure (by rw [h, List.append_nil])

theorem adds_chain {operand : Descent String Expr} (ho : Gathers s operand Expr.calls)
    (pr : Precedence) (n : Nat) (left : Expr) :
    Adds s (pre ++ left.calls) (chain pr operand n left) fun e => pre ++ e.calls := by
  induction n generalizing left with
  | zero => exact .pure rfl
  | succ n ih =>
    refine adds_get fun t => ?_
    split
    · split
      · refine adds_advance.bind fun _ => (ho _).bind fun right => ?_
        have hall := ih (.binary ‹_› left right)
        rwa [Expr.calls_binary, ← List.append_assoc] at hall
      · exact .pure rfl
    · exact .pure rfl

section
variable {expression : Descent String Expr} (he : Gathers s expression Expr.calls)
include he

theorem gathers_moreArguments (n : Nat) :
    Gathers s (moreArguments expression n) (List.flatMap Expr.calls) := by
  induction n with
  | zero => exact gathers_pure [] rfl
  | succ n ih =>
    refine fun pre => adds_get fun t => ?_
    split
    · refine adds_advance.bind fun _ => (he _).bind fun e => (ih _).bind fun es => .pure ?_
      simp
    · exact gathers_pure [] rfl pre

theorem gathers_predicates (n : Nat) :
    Gathers s (predicates expression n) (List.flatMap Expr.calls) := by
  induction n with
  | zero => exact gathers_pure [] rfl
  | succ n ih =>
    refine fun pre => adds_get fun t => ?_
    split
    · refine adds_advance.bind fun _ => (he _).bind fun e => (adds_expect _).bind fun _ => ?_
      refine (ih _).bind fun es => .pure ?_
      simp
    · exact gathers_pure [] rfl pre

theorem gathers_arguments (bound : Nat) :
    Gathers s (arguments bound expression) (List.flatMap Expr.calls) := by
  refine fun pre => (adds_expect _).bind fun _ => adds_get fun t => ?_
  split
  · exact adds_advance.bind fun _ => gathers_pure [] rfl pre
  · refine (he _).bind fun e => (gathers_moreArguments he bound _).bind fun es => ?_
    refine (adds_expect _).bind fun _ => .pure ?_
    simp

theorem gathers_primary (bound : Nat) : Gathers s (primary bound expression) Expr.calls := by
  refine fun pre => adds_get fun t => ?_
  split
  · exact (adds_takeText _).bind fun _ => gathers_pure _ (Expr.calls_leaf rfl rfl) pre
  · exact (adds_takeText _).bind fun _ => gathers_pure _ (Expr.calls_leaf rfl rfl) pre
  · refine (adds_takeText _).bind fun raw => ?_
    split
    · exact gathers_pure _ (Expr.calls_leaf rfl rfl) pre
    · exact adds_throw _
  · refine adds_advance.bind fun _ => (he _).bind fun e => ?_
    exact (adds_expect _).bind fun _ => .pure rfl
  · refine (adds_takeText _).bind fun name => (gathers_arguments he bound _).bind fun args => ?_
    refine (adds_check _ _).bind fun _ => .pure ?_
    simp
  · exact adds_refuse

theorem gathers_filter (bound : Nat) : Gathers s (filter bound expression) Expr.calls := by
  refine fun pre => (gathers_primary he bound _).bind fun e => ?_
  refine (gathers_predicates he bound _).bind fun ps => ?_
  split
  · exact .pure (by simp)
  · exact .pure (by simp)

end

theorem adds_nodeTest : Adds s pre nodeTest fun _ => pre := by
  refine adds_get fun t => ?_
  split
  · exact (adds_takeText _).bind fun name => (adds_expand _).bind fun _ => .pure rfl
  · refine (adds_takeText _).bind fun name => (adds_expect _).bind fun _ => ?_
    exact (adds_expect _).bind fun _ => .pure rfl
  · refine (adds_takeText _).bind fun _ => (adds_expect _).bind fun _ => adds_get fun t => ?_
    have closed (target : Option String) : Adds s pre
        (do expect .rightParen; return NodeTest.processingInstruction target) fun _ => pre :=
      (adds_expect _).bind fun _ => .pure rfl
    split
    · refine Adds.bind (adds_none fun h => ⟨rfl, ?_⟩) closed
      rw [yields_map] at h ⊢
      simpa using h
    · exact (Adds.pure rfl).bind closed
  · exact adds_refuse

section
variable {expression : Descent String Expr} (he : Gathers s expression Expr.calls) (bound : Nat)
include he

theorem gathers_stepAlong (axis : Axis) :
    Gathers s (stepAlong bound expression axis) fun st => st.predicates.flatMap Expr.calls := by
  refine fun pre => adds_nodeTest.bind fun _ => ?_
  exact (gathers_predicates he bound _).bind fun _ => .pure rfl

theorem gathers_step :
    Gathers s (step bound expression) fun st => st.predicates.flatMap Expr.calls := by
  refine fun pre => adds_get fun t => ?_
  split
  · exact adds_advance.bind fun _ => gathers_pure _ rfl pre
  · exact adds_advance.bind fun _ => gathers_pure _ rfl pre
  · exact adds_advance.bind fun _ => gathers_stepAlong he bound _ pre
  · exact adds_advance.bind fun _ => gathers_stepAlong he bound _ pre
  · exact gathers_stepAlong he bound _ pre

theorem gathers_moreSteps (n : Nat) :
    Gathers s (moreSteps bound expression n) fun ss =>
      (ss.flatMap Step.predicates).flatMap Expr.calls := by
  induction n with
  | zero => exact gathers_pure [] rfl
  | succ n ih =>
    refine fun pre => adds_get fun t => ?_
    split
    · refine adds_advance.bind fun _ => (gathers_step he bound _).bind fun st => ?_
      refine (ih _).bind fun ss => .pure ?_
      simp
    · refine adds_advance.bind fun _ => (gathers_step he bound _).bind fun st => ?_
      refine (ih _).bind fun ss => .pure ?_
      simp [Step.descendantOrSelf, Step.anyNode]
    · exact gathers_pure [] rfl pre

theorem gathers_steps :
    Gathers s (steps bound expression) fun ss =>
      (ss.flatMap Step.predicates).flatMap Expr.calls := by
  refine fun pre => (gathers_step he bound _).bind fun st => ?_
  refine (gathers_moreSteps he bound bound _).bind fun ss => .pure ?_
  simp

theorem gathers_locationPath : Gathers s (locationPath bound expression) Expr.calls := by
  refine fun pre => adds_get fun t => ?_
  split
  · refine adds_advance.bind fun _ => adds_get fun t => ?_
    split
    · exact (gathers_steps he bound _).bind fun ss => .pure (by simp)
    · exact .pure (by simp)
  · refine adds_advance.bind fun _ => (gathers_steps he bound _).bind fun ss => .pure ?_
    simp [Step.descendantOrSelf, Step.anyNode]
  · exact (gathers_steps he bound _).bind fun ss => .pure (by simp)

theorem gathers_filterPath : Gathers s (filterPath bound expression) Expr.calls := by
  refine fun pre => (gathers_filter he bound _).bind fun e => ?_
  refine (gathers_moreSteps he bound bound _).bind fun ss => ?_
  split
  · exact .pure (by simp)
  · exact .pure (by simp)

theorem gathers_path : Gathers s (path bound expression) Expr.calls := by
  refine fun pre => adds_get fun t => ?_
  split
  all_goals first
    | exact gathers_filterPath he bound pre
    | exact gathers_locationPath he bound pre

end

section
variable {deeper : List Precedence → Descent String Expr}
  (hd : ∀ levels, Gathers s (deeper levels) Expr.calls) (bound : Nat)
include hd

theorem gathers_unary : Gathers s (unary bound deeper) Expr.calls := by
  have hpath := gathers_path (hd Precedence.aboveMinus) bound
  refine fun pre => adds_get fun t => ?_
  split
  · exact adds_advance.bind fun _ => (hd [] _).bind fun e => .pure (by simp)
  · exact (hpath pre).bind fun left => adds_chain hpath .union bound left

theorem gathers_binary (levels : List Precedence) :
    Gathers s (binary bound deeper levels) Expr.calls := by
  induction levels with
  | nil => exact gathers_unary hd bound
  | cons pr levels ih => exact fun pre => (ih pre).bind fun left => adds_chain ih pr bound left

end

theorem gathers_nested (bound limit n : Nat) (levels : List Precedence) :
    Gathers s (nested bound limit n levels) Expr.calls := by
  induction n generalizing levels with
  | zero => exact fun pre => adds_throw _
  | succ n ih => exact gathers_binary ih bound levels

theorem gathers_whole (bound limit : Nat) : Gathers s (whole bound limit) Expr.calls := by
  refine fun pre => (gathers_nested bound limit limit _ _).bind fun e => ?_
  exact (adds_expect _).bind fun _ => .pure rfl

theorem parse_eq_error {input : String} {r : Rejection} :
    parse s input = .error r ↔
      ∃ c, Fails s (whole ((Context.begin input {}).lexer.unread + 1) s.options.maxDepth)
        (Context.begin input {}).read r c := by
  rw [parse_eq_interpret, interpret_grammar]
  constructor
  · intro h
    exact ⟨_, map_fst_eq_error.mp h⟩
  · rintro ⟨c, hc⟩
    exact congrArg (fun o => o.1.map Prod.fst) hc

/-- With validation, the calls in what an input is read as without it are checked in turn. -/
theorem parse_validating {input : String} {e : Expr}
    (h : parse (s.validating false) input = .ok e) :
    parse (s.validating true) input = (do (s.validating true).checkAll e.calls; return e) := by
  obtain ⟨q, hq⟩ := parse_eq_ok.mp h
  obtain ⟨calls, hcalls, hvets⟩ := gathers_whole _ _ [] _ _ _ hq
  obtain rfl : e.calls = calls := hcalls
  cases hall : (s.validating true).checkAll e.calls with
  | ok => exact parse_eq_ok.mpr ⟨q, hvets.allowed hall⟩
  | error r =>
    exact parse_eq_error.mpr (hvets.refused hall)

/-- Where validation makes a difference, a call is refused. -/
theorem relaxes_validating (s : Setting) :
    (s.validating true).Relaxes
      (fun r => ∃ name count fault, s.functions.check name count = .error fault ∧
        r = fault.rejection name count) (s.validating false) where
  expand _ := Or.inl rfl
  check name count := by
    rw [s.check_validating, s.check_not_validating]
    cases hcheck : s.functions.check name count with
    | ok => exact Or.inl rfl
    | error fault => exact Or.inr ⟨_, rfl, name, count, fault, hcheck, rfl⟩
  depth := Or.inl rfl

/-- To hold calls against the registry only filters what is accepted. Without it, an input that is
accepted is accepted with it as the same tree if every call in that tree is allowed. Otherwise it is
rejected for the first call that is not, from left to right, where arguments come before their call.
An input that is rejected without it is rejected with it, for the same reason or for a call. -/
theorem validation_filters (s : Setting) (input : String) :
    let free := parse (s.validating false) input
    let strict := parse (s.validating true) input
    (∀ e, free = .ok e →
      ((∀ name count, e.Calls name count → s.functions.check name count = .ok ()) →
        strict = .ok e) ∧
      ∀ before name count after fault, e.calls = before ++ (name, count) :: after →
        (∀ call ∈ before, s.functions.check call.1 call.2 = .ok ()) →
        s.functions.check name count = .error fault →
        strict = .error (fault.rejection name count)) ∧
    (∀ r, free = .error r → strict = .error r ∨
      ∃ name count fault, s.functions.check name count = .error fault ∧
        strict = .error (fault.rejection name count)) ∧
    ∀ e, strict = .ok e → free = .ok e := by
  intro free strict
  have hallowed {name : String} {count : Nat} (h : s.functions.check name count = .ok ()) :
      (s.validating true).check name count = .ok () := by
    rw [s.check_validating, h]
    rfl
  have hrelaxed : strict = free ∨ _ := parse_relaxed (relaxes_validating s) input
  refine ⟨fun e he => ⟨fun hcalls => ?_, ?_⟩, fun r hr => ?_, fun e he => ?_⟩
  · have hstrict : strict = _ := parse_validating he
    rw [hstrict, Setting.checkAll_eq_ok fun call h => hallowed (hcalls _ _ (Expr.mem_calls.mp h))]
    rfl
  · intro before name count after fault hcalls hbefore hfault
    have hstrict : strict = _ := parse_validating he
    have hrefused : (s.validating true).check name count = .error (fault.rejection name count) := by
      rw [s.check_validating, hfault]
      rfl
    rw [hstrict, hcalls,
      Setting.checkAll_eq_error (fun call hcall => hallowed (hbefore call hcall)) hrefused]
    rfl
  · rcases hrelaxed with hsame | ⟨r', hr', name, count, fault, hfault, rfl⟩
    · exact Or.inl (hsame.trans hr)
    · exact Or.inr ⟨name, count, fault, hfault, hr'⟩
  · rcases hrelaxed with hsame | ⟨r', hr', -⟩
    · exact hsame.symm.trans he
    · cases he.symm.trans hr'

end Descent
end XPath
