import Mathlib.Data.List.MinMax
import Mathlib.Order.Nat
import XPath.Proofs.Descent.Exactness
import XPath.Proofs.Expr

/-! How high the trees of accepted expressions are. What has to nest is counted and bounds them.
Operators in a row are not counted: each of them makes the tree higher by one. -/
namespace XPath
namespace Expr

/-- How many expressions there are on the longest way down, where `next` gives those below one. -/
def heightBy (next : Expr → List Expr) (smaller : ∀ e, ∀ c ∈ next e, sizeOf c < sizeOf e)
    (e : Expr) : Nat :=
  ((next e).attach.map fun c => heightBy next smaller c.1).foldr max 0 + 1
termination_by sizeOf e
decreasing_by exact smaller e c.1 c.2

/-- How many expressions there are on the longest way down, each directly below the one before. -/
def height : Expr → Nat :=
  heightBy children fun _ _ => sizeOf_child

/-- The operands of the operators of one precedence at the top, from left to right. -/
def operands (p : Precedence) : Expr → List Expr
  | binary o left right =>
    if o.precedence = p then left.operands p ++ [right] else [binary o left right]
  | e => [e]

/-- How many operators of one precedence stand in a row at the top. -/
def row (p : Precedence) : Expr → Nat
  | binary o left _ => if o.precedence = p then left.row p + 1 else 0
  | _ => 0

/-- The expressions directly below one, with operators of one precedence in a row taken as one. -/
def flatChildren : Expr → List Expr
  | binary o left right => left.operands o.precedence ++ [right]
  | e => e.children

theorem Part.sizeOf_le {p e : Expr} (h : Part p e) : sizeOf p ≤ sizeOf e := by
  induction h with
  | self => exact Nat.le_refl _
  | child hc _ ih => exact Nat.le_trans ih (Nat.le_of_lt (sizeOf_child hc))

theorem Part.trans {p q e : Expr} (h : Part p q) (h' : Part q e) : Part p e := by
  induction h' with
  | self => exact h
  | child hc _ ih => exact .child hc ih

theorem operands_same (o : BinaryOp) (left right : Expr) :
    (binary o left right).operands o.precedence = (binary o left right).flatChildren :=
  if_pos rfl

/-- A tree is its only operand, or operators of the precedence are at its top. -/
theorem operands_cases (p : Precedence) (e : Expr) :
    e.operands p = [e] ∨ ∃ o left right, e = binary o left right ∧ o.precedence = p := by
  cases e with
  | binary o left right =>
    by_cases ho : o.precedence = p
    · exact Or.inr ⟨o, left, right, rfl, ho⟩
    · exact Or.inl (if_neg ho)
  | _ => exact Or.inl rfl

theorem part_of_operands {p : Precedence} {c e : Expr} (h : c ∈ e.operands p) : Part c e := by
  induction e using induct with
  | h e ih =>
    rcases operands_cases p e with hself | ⟨o, left, right, rfl, rfl⟩
    · rw [hself, List.mem_singleton] at h
      rw [h]
      exact .self e
    · rw [operands_same, flatChildren, List.mem_append, List.mem_singleton] at h
      rcases h with h | rfl
      · exact .child List.mem_cons_self (ih left List.mem_cons_self h)
      · exact .child (List.mem_cons_of_mem _ List.mem_cons_self) (.self c)

/-- What is below a tree when rows are taken as one is a part of some child. -/
theorem part_of_flatChildren {c e : Expr} (h : c ∈ e.flatChildren) :
    ∃ child ∈ e.children, Part c child := by
  cases e with
  | binary o left right =>
    rcases List.mem_append.mp h with h | h
    · exact ⟨left, List.mem_cons_self, part_of_operands h⟩
    · exact ⟨right, List.mem_cons_of_mem _ List.mem_cons_self, List.mem_singleton.mp h ▸ .self c⟩
  | _ => exact ⟨c, h, .self c⟩

theorem sizeOf_flatChild {c e : Expr} (h : c ∈ e.flatChildren) : sizeOf c < sizeOf e := by
  obtain ⟨child, hchild, hpart⟩ := part_of_flatChildren h
  exact Nat.lt_of_le_of_lt hpart.sizeOf_le (sizeOf_child hchild)

/-- The height with operators of one precedence in a row taken as one. -/
def flatHeight : Expr → Nat :=
  heightBy flatChildren fun _ _ => sizeOf_flatChild

theorem heightBy_le_succ {next : Expr → List Expr}
    {smaller : ∀ e, ∀ c ∈ next e, sizeOf c < sizeOf e} {e : Expr} {n : Nat} :
    heightBy next smaller e ≤ n + 1 ↔ ∀ c ∈ next e, heightBy next smaller c ≤ n := by
  rw [heightBy, Nat.add_le_add_iff_right, List.attach_map_val]
  constructor
  · intro h c hc
    exact Nat.le_trans (List.le_max_of_le' 0 (List.mem_map_of_mem hc) (Nat.le_refl _)) h
  · intro h
    exact List.max_le_of_forall_le _ n (List.forall_mem_map.mpr h)

theorem height_le_succ {e : Expr} {n : Nat} : e.height ≤ n + 1 ↔ ∀ c ∈ e.children, c.height ≤ n :=
  heightBy_le_succ

theorem flatHeight_le_succ {e : Expr} {n : Nat} :
    e.flatHeight ≤ n + 1 ↔ ∀ c ∈ e.flatChildren, c.flatHeight ≤ n :=
  heightBy_le_succ

theorem heightBy_pos (next : Expr → List Expr)
    (smaller : ∀ e, ∀ c ∈ next e, sizeOf c < sizeOf e) (e : Expr) :
    0 < heightBy next smaller e := by
  rw [heightBy]
  exact Nat.succ_pos _

theorem height_pos (e : Expr) : 0 < e.height :=
  heightBy_pos ..

theorem flatHeight_pos (e : Expr) : 0 < e.flatHeight :=
  heightBy_pos ..

/-- Under a tree is what is under its operands, and a row of operators. -/
theorem height_le_row {e : Expr} {p : Precedence} {n : Nat}
    (h : ∀ c ∈ e.operands p, c.height ≤ n) : e.height ≤ n + e.row p := by
  induction e using induct with
  | h e ih =>
    rcases operands_cases p e with hself | ⟨o, left, right, rfl, rfl⟩
    · rw [hself] at h
      exact Nat.le_add_right_of_le (h e List.mem_cons_self)
    · rw [operands_same, flatChildren] at h
      obtain ⟨hleft, hright⟩ := List.forall_mem_append.mp h
      have hrow : (binary o left right).row o.precedence = left.row o.precedence + 1 := if_pos rfl
      rw [hrow, ← Nat.add_assoc, height_le_succ]
      intro c hc
      rcases List.mem_pair.mp hc with rfl | rfl
      · exact ih c List.mem_cons_self hleft
      · exact Nat.le_add_right_of_le (hright c List.mem_cons_self)

/-- Each level of the flat tree is no higher than the longest row. -/
theorem height_le_mul {e : Expr} {k : Nat} (hk : 0 < k)
    (h : e.Throughout fun q => ∀ p, q.row p ≤ k) : e.height ≤ k * e.flatHeight := by
  obtain ⟨n, hn⟩ : ∃ n, e.flatHeight = n + 1 := Nat.exists_eq_succ_of_ne_zero e.flatHeight_pos.ne'
  have hbelow : ∀ c ∈ e.flatChildren, c.height ≤ k * n := by
    intro c hc
    obtain ⟨child, hchild, hpart⟩ := part_of_flatChildren hc
    have hle := flatHeight_le_succ.mp (Nat.le_of_eq hn) c hc
    have hinner : c.Throughout fun q => ∀ p, q.row p ≤ k :=
      fun q hq => h q (.child hchild (hq.trans hpart))
    exact Nat.le_trans (height_le_mul hk hinner) (Nat.mul_le_mul_left k hle)
  rw [hn, Nat.mul_succ]
  cases e with
  | binary o left right =>
    rw [← operands_same] at hbelow
    have hrow := h _ (.self _) o.precedence
    exact Nat.le_trans (height_le_row hbelow) (Nat.add_le_add_left hrow _)
  | _ => exact Nat.le_trans (height_le_succ.mpr hbelow) (Nat.add_le_add_left hk _)
termination_by sizeOf e
decreasing_by exact sizeOf_flatChild hc

theorem flatHeight_le_of_operands {p : Precedence} {e : Expr} {n : Nat}
    (h : ∀ c ∈ e.operands p, c.flatHeight < n) : e.flatHeight ≤ n := by
  rcases operands_cases p e with hself | ⟨o, left, right, rfl, rfl⟩
  · rw [hself] at h
    exact Nat.le_of_lt (h e List.mem_cons_self)
  · rw [operands_same] at h
    cases n with
    | zero =>
      have hright : right ∈ (binary o left right).flatChildren := List.mem_concat_self
      exact absurd (h right hright) (Nat.not_lt_zero _)
    | succ n => exact flatHeight_le_succ.mpr fun c hc => Nat.le_of_lt_succ (h c hc)

theorem flatHeight_operand_le {p : Precedence} {c e : Expr} (h : c ∈ e.operands p) :
    c.flatHeight ≤ e.flatHeight := by
  rcases operands_cases p e with hself | ⟨o, left, right, rfl, rfl⟩
  · rw [hself, List.mem_singleton] at h
    rw [h]
  · rw [operands_same] at h
    obtain ⟨n, hn⟩ := Nat.exists_eq_succ_of_ne_zero (flatHeight_pos (binary o left right)).ne'
    have hle := flatHeight_le_succ.mp (Nat.le_of_eq hn) c h
    omega

end Expr

/-- How many expressions lie one within another from a level down to what has to nest. -/
def Level.extent : Level → Nat
  | binary .or => 9
  | binary .and => 8
  | binary .equality => 7
  | binary .relational => 6
  | binary .additive => 5
  | binary .multiplicative => 4
  | unary | binary .union => 3
  | path => 2

theorem Precedence.extent_operand (p : Precedence) :
    p.operand.extent + 1 = (Level.binary p).extent := by
  cases p <;> rfl

/-- What the nesting of a phrase says about the height of what it denotes. -/
def Phrase.Flat (d : Nat) : Phrase → Prop
  | expression e => e.flatHeight < 10 * d
  | level (.binary p) e =>
    ∀ c ∈ e.operands p, c.flatHeight < 10 * d + (Level.binary p).extent
  | level l e => e.flatHeight ≤ 10 * d + l.extent
  | filter e => e.flatHeight ≤ 10 * d + 1
  | primary e => e.flatHeight ≤ 10 * d + 1 ∧ (0 < d → e.flatHeight ≤ 10 * d)
  | arguments es | predicates es => ∀ e ∈ es, e.flatHeight < 10 * d
  | relativePath ss => ∀ e ∈ ss.flatMap Step.predicates, e.flatHeight < 10 * d
  | step s => ∀ e ∈ s.predicates, e.flatHeight < 10 * d

theorem Phrase.Flat.flatHeight_le {l : Level} {e : Expr} {d : Nat} (h : (level l e).Flat d) :
    e.flatHeight ≤ 10 * d + l.extent := by
  cases l with
  | binary p => exact Expr.flatHeight_le_of_operands h
  | unary | path => exact h

/-- More nesting allows more height. -/
theorem Phrase.Flat.mono {X : Phrase} {d d' : Nat} (h : X.Flat d) (hle : d ≤ d') : X.Flat d' := by
  have hmul : 10 * d ≤ 10 * d' := Nat.mul_le_mul_left 10 hle
  cases X with
  | level l e =>
    cases l with
    | binary p => exact fun c hc => Nat.lt_of_lt_of_le (h c hc) (Nat.add_le_add_right hmul _)
    | unary | path => exact Nat.le_trans h (Nat.add_le_add_right hmul _)
  | primary e =>
    obtain ⟨hle', hpos⟩ := h
    constructor
    · omega
    · intro hpos'
      cases d with
      | zero => omega
      | succ d => exact Nat.le_trans (hpos (Nat.succ_pos d)) hmul
  | expression | filter =>
    unfold Phrase.Flat at h ⊢
    omega
  | _ => exact fun c hc => Nat.lt_of_lt_of_le (h c hc) hmul

/-- One expression more in a list of arguments or predicates. -/
theorem Phrase.Flat.cons {e : Expr} {es : List Expr} {d d' : Nat} (h : (expression e).Flat d)
    (hs : ∀ c ∈ es, c.flatHeight < 10 * d') :
    ∀ c ∈ e :: es, c.flatHeight < 10 * max d d' := by
  have hmul : 10 * d' ≤ 10 * max d d' := Nat.mul_le_mul_left 10 (Nat.le_max_right d d')
  intro c hc
  rcases List.mem_cons.mp hc with rfl | hc
  · exact h.mono (Nat.le_max_left d d')
  · exact Nat.lt_of_lt_of_le (hs c hc) hmul

theorem Joins.predicates {m : Mark} {js : List (Step Expr)} (h : Joins m js)
    (ss : List (Step Expr)) :
    (js ++ ss).flatMap Step.predicates = ss.flatMap Step.predicates := by
  cases h <;> rfl

/-- A leaf is one expression. -/
theorem Expr.flatHeight_leaf {e : Expr} (h : e.flatChildren = []) : e.flatHeight ≤ 1 := by
  rw [Expr.flatHeight_le_succ, h]
  nofun

/-- A path is one higher than its predicates. -/
theorem Expr.flatHeight_path_le {absolute : Bool} {ss : List (Step Expr)} {n : Nat}
    (h : ∀ c ∈ ss.flatMap Step.predicates, c.flatHeight < n) :
    (path absolute ss).flatHeight ≤ n + 1 :=
  flatHeight_le_succ.mpr fun c hc => Nat.le_of_lt (h c hc)

/-- The height of what a phrase denotes is bounded by how deeply the phrase nests. -/
theorem Derives.flat {resolver : Option Resolver} {allowed : String → Nat → Prop} {X : Phrase}
    {ts : List (Token String)} {d : Nat} (h : Derives resolver allowed X ts d) : X.Flat d := by
  induction h with
  | @expression e _ d _ ih =>
    have hle : e.flatHeight ≤ 10 * d + 9 := ih.flatHeight_le
    show e.flatHeight < 10 * (d + 1)
    omega
  | @operand p e _ d _ ih =>
    intro c hc
    have hle := ih.flatHeight_le
    have hoperand := Expr.flatHeight_operand_le hc
    have hextent := p.extent_operand
    omega
  | @operator p o l r _ _ d d' ho _ _ ihl ihr =>
    subst ho
    have hright := (ihr.mono (Nat.le_max_right d d')).flatHeight_le
    have hextent := o.precedence.extent_operand
    intro c hc
    rw [Expr.operands_same] at hc
    rcases List.mem_append.mp hc with hc | hc
    · exact ihl.mono (Nat.le_max_left d d') c hc
    · rw [List.mem_singleton.mp hc]
      omega
  | union _ ih => exact ih.flatHeight_le
  | @minus e _ d _ ih =>
    have hle : (Expr.negate e).flatHeight ≤ 10 * d + 3 + 1 :=
      Expr.flatHeight_le_succ.mpr (List.forall_mem_singleton.mpr ih)
    show (Expr.negate e).flatHeight ≤ 10 * (d + 1) + 3
    omega
  | root => exact Nat.le_succ_of_le (Expr.flatHeight_leaf rfl)
  | @absolute _ js ss _ d hj _ ih =>
    have hall : ∀ c ∈ (js ++ ss).flatMap Step.predicates, c.flatHeight < 10 * d := by
      rw [hj.predicates ss]
      exact ih
    exact Nat.le_succ_of_le (Expr.flatHeight_path_le hall)
  | relative _ ih => exact Nat.le_succ_of_le (Expr.flatHeight_path_le ih)
  | filter _ ih => exact Nat.le_succ_of_le ih
  | @pathFrom e _ js ss _ _ d d' _ hj _ ih ihs =>
    apply Expr.flatHeight_le_succ.mpr
    intro c hc
    rcases List.mem_cons.mp hc with rfl | hc
    · exact ih.mono (Nat.le_max_left d d')
    · rw [hj.predicates ss] at hc
      exact Nat.le_succ_of_le (Nat.le_of_lt (ihs.mono (Nat.le_max_right d d') c hc))
  | primary _ ih => exact ih.1
  | @filtered e p ps _ _ d d' _ _ ih ihp =>
    have hpos : 0 < d' := by
      have hlt := ihp p List.mem_cons_self
      omega
    have hprimary := (ih.mono (Nat.le_max_left d d')).2 (by omega)
    apply Expr.flatHeight_le_succ.mpr
    intro c hc
    rcases List.mem_cons.mp hc with rfl | hc
    · exact hprimary
    · exact Nat.le_of_lt (ihp.mono (Nat.le_max_right d d') c hc)
  | variableReference | literal | number => exact ⟨Expr.flatHeight_leaf rfl, nofun⟩
  | @parentheses e _ d _ ih =>
    have hlt : e.flatHeight < 10 * d := ih
    exact ⟨by omega, fun _ => Nat.le_of_lt hlt⟩
  | @call name es _ d _ _ ih =>
    constructor
    · exact Expr.flatHeight_le_succ.mpr fun c hc => Nat.le_of_lt (ih c hc)
    · intro hpos
      have hle : (Expr.call name es).flatHeight ≤ 10 * d - 1 + 1 :=
        Expr.flatHeight_le_succ.mpr fun c hc => Nat.le_sub_one_of_lt (ih c hc)
      omega
  | noArgument | noPredicate | self | parent => nofun
  | argument _ ih => exact List.forall_mem_singleton.mpr ih
  | moreArguments _ _ ih ihs | predicate _ _ ih ihs =>
    exact ih.cons ihs
  | @oneStep s _ d _ ih =>
    show ∀ c ∈ [s].flatMap Step.predicates, _
    rw [List.flatMap_singleton]
    exact ih
  | @moreSteps m s js ss _ _ d d' _ hj _ ihs ih =>
    show ∀ c ∈ (ss ++ js ++ [s]).flatMap Step.predicates, c.flatHeight < 10 * max d d'
    rw [List.append_assoc, List.flatMap_append, hj.predicates [s], List.flatMap_singleton]
    intro c hc
    rcases List.mem_append.mp hc with hc | hc
    · exact ihs.mono (Nat.le_max_left d d') c hc
    · exact ih.mono (Nat.le_max_right d d') c hc
  | stepAlong _ _ _ ih => exact ih

namespace Descent

/-- With operators of one precedence in a row taken as one, an accepted tree is less than ten times as
high as the limit on nesting. A row of operators makes it higher at most as many times as it is
long. -/
theorem height_of_parse {s : Setting} {input : String} {e : Expr} (h : parse s input = .ok e) :
    e.flatHeight < 10 * s.options.maxDepth ∧
      ∀ k, 0 < k → (e.Throughout fun q => ∀ p, q.row p ≤ k) →
        e.height < k * (10 * s.options.maxDepth) := by
  obtain ⟨ts, depth, -, hderives, hdepth⟩ := derives_of_parse h
  have hflat : e.flatHeight < 10 * s.options.maxDepth :=
    Nat.lt_of_lt_of_le hderives.flat (Nat.mul_le_mul_left 10 hdepth)
  refine ⟨hflat, fun k hk hrows => ?_⟩
  exact Nat.lt_of_le_of_lt (Expr.height_le_mul hk hrows) (Nat.mul_lt_mul_of_pos_left hflat hk)

/-- Two operators in a row are two expressions on the way down. -/
theorem height_of_parse_two_operators :
    let s : Setting := { options := { maxDepth := 1 } }
    let tree := Expr.binary .minus (.binary .plus (.var "a") (.var "b")) (.var "c")
    parse s "$a + $b - $c" = .ok tree ∧ (tree.Throughout fun q => ∀ p, q.row p ≤ 2) ∧
      tree.flatHeight < 10 * 1 ∧ tree.height < 2 * (10 * 1) := by
  intro s tree
  have hparse : parse s "$a + $b - $c" = .ok tree := by
    rw [parse_eq_interpret]
    rfl
  have hvar (name : String) : (Expr.var name).Throughout fun q => ∀ p, q.row p ≤ 2 :=
    Expr.throughout_iff.mpr ⟨fun _ => Nat.zero_le 2, nofun⟩
  have hbinary (o : BinaryOp) {l r : Expr} (hrow : ∀ p, (Expr.binary o l r).row p ≤ 2)
      (hl : l.Throughout fun q => ∀ p, q.row p ≤ 2)
      (hr : r.Throughout fun q => ∀ p, q.row p ≤ 2) :
      (Expr.binary o l r).Throughout fun q => ∀ p, q.row p ≤ 2 := by
    refine Expr.throughout_iff.mpr ⟨hrow, fun c hc => ?_⟩
    rcases List.mem_pair.mp hc with rfl | rfl
    · exact hl
    · exact hr
  have hsum := hbinary .plus (fun p => by cases p <;> decide) (hvar "a") (hvar "b")
  have hrows := hbinary .minus (fun p => by cases p <;> decide) hsum (hvar "c")
  obtain ⟨hflat, hheight⟩ := height_of_parse hparse
  exact ⟨hparse, hrows, hflat, hheight 2 (by decide) hrows⟩

/-! Operators in a row need no nesting. -/

/-- The context node added to itself `n` times. -/
private def dots : Nat → Expr
  | 0 => .path false [.anyNode .self]
  | n + 1 => .binary .plus (dots n) (.path false [.anyNode .self])

private def dotTokens : Nat → List (Token String)
  | 0 => [.mark .dot]
  | n + 1 => .mark .dot :: .mark (.op .plus) :: dotTokens n

private theorem dotTokens_succ (n : Nat) :
    dotTokens (n + 1) = dotTokens n ++ .mark (.op .plus) :: [.mark .dot] := by
  induction n with
  | zero => rfl
  | succ n ih => exact congrArg (.mark .dot :: .mark (.op .plus) :: ·) ih

private theorem height_dots (n : Nat) : n < (dots n).height := by
  apply Nat.lt_of_not_le
  induction n with
  | zero => exact Nat.not_le_of_lt (dots 0).height_pos
  | succ n ih =>
    intro hle
    exact ih (Expr.height_le_succ.mp hle (dots n) List.mem_cons_self)

private theorem derives_dots (s : Setting) (n : Nat) :
    Derives s.resolver s.Allows (.level (.binary .additive) (dots n)) (dotTokens n) 0 := by
  have hdot : Derives s.resolver s.Allows (.level .path (.path false [.anyNode .self]))
      [.mark .dot] 0 := .relative (.oneStep .self)
  induction n with
  | zero => exact hdot.loosen (by decide)
  | succ n ih =>
    have hplus : BinaryOp.plus.precedence = .additive := rfl
    rw [dotTokens_succ]
    exact .operator hplus ih (hdot.loosen (by decide))

private theorem consistent_dots (c : OperatorContext) (n : Nat) : Consistent c (dotTokens n) := by
  induction n generalizing c with
  | zero => exact ⟨trivial, trivial⟩
  | succ n ih => exact ⟨trivial, fun h => absurd h (by decide), ih _⟩

/-- The limit alone bounds no height: within a limit of one, sums are accepted however long they
are, and each operand makes the tree higher. -/
theorem height_unbounded :
    ¬ ∃ bound : Nat → Nat, ∀ (s : Setting) (input : String) (e : Expr),
      parse s input = .ok e → e.height ≤ bound s.options.maxDepth := by
  rintro ⟨bound, hbound⟩
  let s : Setting := { options := { maxDepth := 1 } }
  have hconsistent := consistent_dots {} (bound 1)
  have htokens : tokenize (.ofList (setOut (dotTokens (bound 1)))) =
      dotTokens (bound 1) ++ [.mark .endOfInput] := by
    rw [tokenize_eq_iff, String.toList_ofList]
    exact ⟨hconsistent, hconsistent.spaced.layout⟩
  have hderives : Derives s.resolver s.Allows (.expression (dots (bound 1)))
      (dotTokens (bound 1)) 1 := .expression ((derives_dots s _).loosen (by decide))
  have hle := hbound s _ _ (parse_of_derives htokens hderives (Nat.le_refl 1))
  exact absurd (height_dots (bound 1)) (Nat.not_lt_of_le hle)

end Descent
end XPath
