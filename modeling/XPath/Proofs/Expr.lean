import XPath.Expr
import XPath.Proofs.Token.Spelling

/-! Expressions within expressions, and the trees that can be written down. -/
namespace XPath
namespace Expr

/-- The steps of a path. -/
def steps : Expr → List (Step Expr)
  | path _ ss | pathFrom _ ss => ss
  | _ => []

/-- The expressions directly below one. -/
def children : Expr → List Expr
  | literal _ | number _ | var _ => []
  | call _ args => args
  | filter primary predicates => primary :: predicates
  | binary _ left right => [left, right]
  | negate operand => [operand]
  | path _ ss => ss.flatMap Step.predicates
  | pathFrom start ss => start :: ss.flatMap Step.predicates

private theorem sizeOf_predicates {ss : List (Step Expr)} {c : Expr}
    (h : c ∈ ss.flatMap Step.predicates) : sizeOf c < sizeOf ss := by
  obtain ⟨s, hs, hc⟩ := List.mem_flatMap.mp h
  have hstep := List.sizeOf_lt_of_mem hs
  have hpredicate := List.sizeOf_lt_of_mem hc
  cases s
  simp only [Step.mk.sizeOf_spec] at hstep
  dsimp only at hpredicate
  omega

theorem sizeOf_child {c e : Expr} (h : c ∈ e.children) : sizeOf c < sizeOf e := by
  cases e with
  | literal | number | var => cases h
  | call name args =>
    have hlt := List.sizeOf_lt_of_mem (show c ∈ args from h)
    simp only [call.sizeOf_spec]
    omega
  | filter primary predicates =>
    simp only [filter.sizeOf_spec]
    rcases List.mem_cons.mp h with rfl | h
    · omega
    · have hlt := List.sizeOf_lt_of_mem h
      omega
  | binary op left right =>
    simp only [binary.sizeOf_spec]
    rcases List.mem_pair.mp h with rfl | rfl <;> omega
  | negate operand =>
    simp only [negate.sizeOf_spec, List.mem_singleton.mp h]
    omega
  | path absolute ss =>
    have hlt := sizeOf_predicates (show c ∈ ss.flatMap Step.predicates from h)
    simp only [path.sizeOf_spec]
    omega
  | pathFrom start ss =>
    simp only [pathFrom.sizeOf_spec]
    rcases List.mem_cons.mp h with rfl | h
    · omega
    · have hlt := sizeOf_predicates h
      omega

/-- What passes from the children of every tree to the tree holds of all trees. -/
theorem induct {P : Expr → Prop} (h : ∀ e, (∀ c ∈ e.children, P c) → P e) (e : Expr) : P e :=
  h e fun c _ => induct h c
termination_by sizeOf e
decreasing_by exact sizeOf_child ‹_›

/-- An expression with all expressions below it. -/
inductive Part : Expr → Expr → Prop
  | self (e : Expr) : Part e e
  | child {p c e : Expr} (hc : c ∈ e.children) (hp : Part p c) : Part p e

theorem part_iff {p e : Expr} : Part p e ↔ p = e ∨ ∃ c ∈ e.children, Part p c := by
  constructor
  · rintro (_ | ⟨hc, hp⟩)
    · exact Or.inl rfl
    · exact Or.inr ⟨_, hc, hp⟩
  · rintro (rfl | ⟨c, hc, hp⟩)
    · exact .self p
    · exact .child hc hp

/-- What holds of an expression and of all expressions below it. -/
def Throughout (P : Expr → Prop) (e : Expr) : Prop :=
  ∀ p, Part p e → P p

theorem throughout_iff {P : Expr → Prop} {e : Expr} :
    e.Throughout P ↔ P e ∧ ∀ c ∈ e.children, c.Throughout P := by
  constructor
  · intro h
    exact ⟨h e (.self e), fun c hc p hp => h p (.child hc hp)⟩
  · rintro ⟨h, hchildren⟩ p hp
    rcases part_iff.mp hp with rfl | ⟨c, hc, hp⟩
    · exact h
    · exact hchildren c hc p hp

end Expr

/-- Whether a text can be quoted. -/
def Quotable (s : String) : Prop :=
  '\'' ∉ s.toList ∨ '"' ∉ s.toList

def NodeTest.Proper : NodeTest → Prop
  | name localName _ => IsNCName localName
  | processingInstruction (some target) => Quotable target
  | wildcard | namespaceWildcard _ | kind _ | processingInstruction none => True

/-- The namespace that a test mentions. -/
def NodeTest.uri? : NodeTest → Option String
  | name _ uri => uri
  | namespaceWildcard uri => some uri
  | wildcard | kind _ | processingInstruction _ => none

namespace Expr

/-- Whether the top of a tree can be written down. -/
def Proper : Expr → Prop
  | literal s => Quotable s
  | number x => ∃ s, IsNumeral s ∧ Binary64.ofNumeral? s = some x
  | var name => ∃ p, QName p name
  | call name _ =>
    (∃ p, QName p name) ∧ name ∉ ["comment", "text", "node", "processing-instruction"]
  | filter _ predicates => predicates ≠ []
  | binary .. | negate _ => True
  | path absolute ss => (absolute = true ∨ ss ≠ []) ∧ ∀ s ∈ ss, s.test.Proper
  | pathFrom _ ss => ss ≠ [] ∧ ∀ s ∈ ss, s.test.Proper

/-- Whether a tree can be written down. -/
def WellFormed (e : Expr) : Prop :=
  ∀ p, Part p e → p.Proper

/-- Whether a name test anywhere in a tree mentions a namespace. -/
def Mentions (e : Expr) (uri : String) : Prop :=
  ∃ p, Part p e ∧ ∃ s ∈ p.steps, s.test.uri? = some uri

/-- Whether a function is called anywhere in a tree with that many arguments. -/
def Calls (e : Expr) (name : String) (count : Nat) : Prop :=
  ∃ args, Part (.call name args) e ∧ args.length = count

theorem wellFormed_iff {e : Expr} :
    e.WellFormed ↔ e.Proper ∧ ∀ c ∈ e.children, c.WellFormed :=
  throughout_iff

theorem WellFormed.child {c e : Expr} (h : e.WellFormed) (hc : c ∈ e.children) : c.WellFormed :=
  (wellFormed_iff.mp h).2 c hc

theorem Mentions.child {c e : Expr} {uri : String} (h : c.Mentions uri) (hc : c ∈ e.children) :
    e.Mentions uri := by
  obtain ⟨p, hp, hs⟩ := h
  exact ⟨p, .child hc hp, hs⟩

theorem Calls.child {c e : Expr} {name : String} {count : Nat} (h : c.Calls name count)
    (hc : c ∈ e.children) : e.Calls name count := by
  obtain ⟨args, hp, hcount⟩ := h
  exact ⟨args, .child hc hp, hcount⟩

/-- The call that an expression itself is, by name and number of arguments. -/
def call? : Expr → Option (String × Nat)
  | call name args => some (name, args.length)
  | _ => none

/-- All calls in an expression, from left to right, each behind those in its arguments. -/
def calls (e : Expr) : List (String × Nat) :=
  e.children.attach.flatMap (fun c => calls c.1) ++ e.call?.toList
termination_by sizeOf e
decreasing_by exact sizeOf_child c.2

theorem calls_eq (e : Expr) : e.calls = e.children.flatMap calls ++ e.call?.toList := by
  rw [calls, ← List.flatMap_map, List.attach_map_subtype_val]

/-- What is no call itself has the calls of its children. -/
theorem calls_of_children {e : Expr} {es : List Expr} (hchildren : e.children = es)
    (hcall : e.call? = none) : e.calls = es.flatMap calls := by
  rw [calls_eq, hchildren, hcall]
  exact List.append_nil _

theorem calls_leaf {e : Expr} (hchildren : e.children = []) (hcall : e.call? = none) :
    e.calls = [] :=
  calls_of_children hchildren hcall

@[simp] theorem calls_call (name : String) (args : List Expr) :
    (call name args).calls = args.flatMap calls ++ [(name, args.length)] :=
  calls_eq _

@[simp] theorem calls_filter (primary : Expr) (predicates : List Expr) :
    (filter primary predicates).calls = primary.calls ++ predicates.flatMap calls :=
  calls_of_children rfl rfl

@[simp] theorem calls_binary (o : BinaryOp) (left right : Expr) :
    (binary o left right).calls = left.calls ++ right.calls := by
  have hcalls : (binary o left right).calls = [left, right].flatMap calls :=
    calls_of_children rfl rfl
  rw [hcalls, List.flatMap_cons, List.flatMap_singleton]

@[simp] theorem calls_negate (operand : Expr) : (negate operand).calls = operand.calls := by
  have hcalls : (negate operand).calls = [operand].flatMap calls := calls_of_children rfl rfl
  rw [hcalls, List.flatMap_singleton]

@[simp] theorem calls_path (absolute : Bool) (ss : List (Step Expr)) :
    (path absolute ss).calls = (ss.flatMap Step.predicates).flatMap calls :=
  calls_of_children rfl rfl

@[simp] theorem calls_pathFrom (start : Expr) (ss : List (Step Expr)) :
    (pathFrom start ss).calls = start.calls ++ (ss.flatMap Step.predicates).flatMap calls :=
  calls_of_children rfl rfl

/-- They are the calls of functions anywhere in the tree. -/
theorem mem_calls {e : Expr} {name : String} {count : Nat} :
    (name, count) ∈ e.calls ↔ e.Calls name count := by
  induction e using induct with
  | h e ih =>
    rw [calls_eq, List.mem_append, List.mem_flatMap, Option.mem_toList]
    constructor
    · rintro (⟨c, hc, hcall⟩ | hself)
      · exact ((ih c hc).mp hcall).child hc
      · cases e with
        | call name' args =>
          obtain ⟨rfl, rfl⟩ := Prod.mk.inj (Option.some.inj hself)
          exact ⟨args, .self _, rfl⟩
        | _ => cases hself
    · rintro ⟨args, hpart, rfl⟩
      rcases part_iff.mp hpart with rfl | ⟨c, hc, hpart⟩
      · exact Or.inr rfl
      · exact Or.inl ⟨c, hc, (ih c hc).mpr ⟨args, hpart, rfl⟩⟩

end Expr
end XPath
