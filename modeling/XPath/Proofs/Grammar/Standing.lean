import XPath.Proofs.Grammar

/-! What may follow what in the expressions that the grammar derives: four places, told apart by the
tokens before, that every derivation goes through. -/
namespace XPath

/-- Names that have an opening parenthesis behind them. -/
def TokenKind.isCallee : TokenKind → Bool
  | text .functionName | text .nodeType | text .processingInstruction => true
  | _ => false

/-- What the tokens of an expression up to some place ask for. -/
inductive Standing
  /-- An operand, or more of it. -/
  | operand
  /-- Nothing, or the first step of a path whose slash has just been read. -/
  | root
  /-- The parentheses of a call or of a node test. -/
  | parentheses
  /-- Nothing: an operand is complete. -/
  | ended
  deriving DecidableEq

namespace Standing

/-- The tokens that may come next. -/
def admits (s : Standing) : TokenKind → Bool
  | .leftParen => s == operand || s == parentheses
  | .and | .or | .multiplicative => s == root || s == ended
  | .axisName | .text .nameTest | .text .functionName | .text .nodeType
  | .text .processingInstruction => s == operand || s == root
  | _ => s != parentheses

/-- Where the token leads. A slash where an operand is due begins a path. -/
def next (s : Standing) (k : TokenKind) : Standing :=
  if k = .slash ∧ s = operand then root
  else if k.isCallee then parentheses
  else if k.endsOperand then ended
  else operand

/-- Where the tokens lead, if each of them may come. -/
def run : Standing → List (Token String) → Option Standing
  | s, [] => some s
  | s, t :: ts => if s.admits t.kind then (s.next t.kind).run ts else none

variable {s m s' : Standing} {t : Token String} {ts us : List (Token String)}

theorem run_cons (h : s.admits t.kind = true) : s.run (t :: ts) = (s.next t.kind).run ts :=
  if_pos h

theorem run_cons_eq_some (h : s.run (t :: ts) = some s') :
    s.admits t.kind = true ∧ (s.next t.kind).run ts = some s' := by
  unfold run at h
  split at h
  · next hadmits => exact ⟨hadmits, h⟩
  · cases h

theorem run_append (h : s.run ts = some m) : s.run (ts ++ us) = m.run us := by
  induction ts generalizing s with
  | nil =>
    obtain rfl := Option.some.inj h
    rfl
  | cons t ts ih =>
    obtain ⟨hadmits, hrest⟩ := run_cons_eq_some h
    rw [List.cons_append, run_cons hadmits]
    exact ih hrest

theorem run_append_eq_some (h : s.run (ts ++ us) = some s') :
    ∃ m, s.run ts = some m ∧ m.run us = some s' := by
  induction ts generalizing s with
  | nil => exact ⟨s, rfl, h⟩
  | cons t ts ih =>
    obtain ⟨hadmits, hrest⟩ := run_cons_eq_some h
    obtain ⟨m, hm, hus⟩ := ih hrest
    exact ⟨m, (run_cons hadmits).trans hm, hus⟩

/-- Where an operand is complete an operator may come, with an operand behind it. -/
theorem op_of_complete (h : s = root ∨ s = ended) (o : BinaryOp) :
    s.admits o.tokenKind = true ∧ s.next o.tokenKind = operand := by
  rcases h with rfl | rfl <;> cases o <;> exact ⟨rfl, rfl⟩

theorem ne_parentheses (h : s = root ∨ s = ended) : s ≠ parentheses := by
  rcases h with rfl | rfl <;> decide

/-- A closing mark or a comma may come wherever no parenthesis is due. -/
theorem close_of_ne (h : s ≠ parentheses) (ts : List (Token String)) :
    s.run (.mark .rightParen :: ts) = ended.run ts ∧
      s.run (.mark .comma :: ts) = operand.run ts ∧
      s.run (.mark .rightBracket :: ts) = ended.run ts := by
  cases s with
  | parentheses => exact absurd rfl h
  | operand | root | ended => exact ⟨rfl, rfl, rfl⟩

/-- Behind a complete operand a mark between steps asks for a step. -/
theorem run_join {j : Mark} {js : List (Step Expr)} (hj : Joins j js) :
    ended.run (.mark j :: ts) = operand.run ts := by
  cases hj <;> rfl

end Standing

/-- Where phrases of this sort may begin. -/
def Phrase.beginsAt : Phrase → Standing → Prop
  | predicates _, s => s = .ended
  | relativePath _, s | step _, s => s = .operand ∨ s = .root
  | _, s => s = .operand

/-- Where phrases of this sort lead. -/
def Phrase.leadsTo : Phrase → Standing → Prop
  | expression _, s | level _ _, s => s = .root ∨ s = .ended
  | arguments _, s => s ≠ .parentheses
  | _, s => s = .ended

theorem SpellsAxis.standing {as ts : List (Token String)} {axis : Axis} (h : SpellsAxis as axis)
    {s : Standing} (hs : s = .operand ∨ s = .root) :
    ∃ m : Standing, (m = .operand ∨ m = .root) ∧ s.run (as ++ ts) = m.run ts := by
  cases h with
  | child => exact ⟨s, hs, rfl⟩
  | atSign | axis =>
    refine ⟨.operand, Or.inl rfl, ?_⟩
    rcases hs with rfl | rfl <;> rfl

theorem SpellsTest.standing {resolver : Option Resolver} {ts : List (Token String)} {test : NodeTest}
    (h : SpellsTest resolver ts test) {s : Standing} (hs : s = .operand ∨ s = .root) :
    s.run ts = some .ended := by
  rcases hs with rfl | rfl <;> cases h <;> rfl

/-- Every production follows what the tokens before ask for. -/
theorem Derives.standing {resolver : Option Resolver} {allowed : String → Nat → Prop} {X : Phrase}
    {ts : List (Token String)} {d : Nat} (h : Derives resolver allowed X ts d) {s : Standing}
    (hs : X.beginsAt s) : ∃ s', s.run ts = some s' ∧ X.leadsTo s' := by
  induction h generalizing s with
  | expression _ ih | operand _ ih | union _ ih => exact ih hs
  | @operator _ o _ _ _ _ _ _ _ _ _ ihl ihr =>
    obtain ⟨m, hl, hm⟩ := ihl hs
    obtain ⟨hadmits, hnext⟩ := Standing.op_of_complete hm o
    obtain ⟨m', hr, hm'⟩ := ihr (s := .operand) rfl
    refine ⟨m', ?_, hm'⟩
    rw [Standing.run_append hl, Standing.run_cons hadmits]
    exact hnext ▸ hr
  | minus _ ih =>
    obtain rfl : s = .operand := hs
    exact ih (s := .operand) rfl
  | root =>
    obtain rfl : s = .operand := hs
    exact ⟨.root, rfl, Or.inl rfl⟩
  | absolute hj _ ih =>
    -- The path might have ended with its slash, so its first step is reached from another place
    -- than the first step behind a double slash.
    obtain rfl : s = .operand := hs
    cases hj with
    | slash =>
      obtain ⟨m, hrun, hm⟩ := ih (s := .root) (Or.inr rfl)
      exact ⟨m, hrun, Or.inr hm⟩
    | slashSlash =>
      obtain ⟨m, hrun, hm⟩ := ih (s := .operand) (Or.inl rfl)
      exact ⟨m, hrun, Or.inr hm⟩
  | relative _ ih =>
    obtain ⟨m, hrun, hm⟩ := ih (Or.inl hs)
    exact ⟨m, hrun, Or.inr hm⟩
  | filter _ ih =>
    obtain ⟨m, hrun, hm⟩ := ih hs
    exact ⟨m, hrun, Or.inr hm⟩
  | pathFrom _ hj _ ih ihs =>
    obtain ⟨m, hrun, rfl⟩ := ih hs
    obtain ⟨m', hsteps, hm'⟩ := ihs (s := .operand) (Or.inl rfl)
    refine ⟨m', ?_, Or.inr hm'⟩
    rw [Standing.run_append hrun, Standing.run_join hj, hsteps]
  | primary _ ih => exact ih hs
  | filtered _ _ ih ihp =>
    obtain ⟨m, hrun, rfl⟩ := ih hs
    obtain ⟨m', hpredicates, hm'⟩ := ihp (s := .ended) rfl
    exact ⟨m', (Standing.run_append hrun).trans hpredicates, hm'⟩
  | variableReference | literal | number =>
    obtain rfl : s = .operand := hs
    exact ⟨.ended, rfl, rfl⟩
  | parentheses _ ih =>
    obtain rfl : s = .operand := hs
    obtain ⟨m, hrun, hm⟩ := ih (s := .operand) rfl
    have hne := Standing.ne_parentheses hm
    have hclosed := (Standing.run_append hrun).trans (Standing.close_of_ne hne []).1
    exact ⟨.ended, hclosed, rfl⟩
  | call _ _ ih =>
    obtain rfl : s = .operand := hs
    obtain ⟨m, hrun, hm⟩ := ih (s := .operand) rfl
    have hclosed := (Standing.run_append hrun).trans (Standing.close_of_ne hm []).1
    exact ⟨.ended, hclosed, rfl⟩
  | noArgument =>
    obtain rfl : s = .operand := hs
    have hne : Standing.operand ≠ .parentheses := by decide
    exact ⟨.operand, rfl, hne⟩
  | argument _ ih =>
    obtain ⟨m, hrun, hm⟩ := ih hs
    exact ⟨m, hrun, Standing.ne_parentheses hm⟩
  | moreArguments _ _ ih ihs =>
    obtain ⟨m, hrun, hm⟩ := ih hs
    obtain ⟨m', hmore, hm'⟩ := ihs (s := .operand) rfl
    have hne := Standing.ne_parentheses hm
    refine ⟨m', ?_, hm'⟩
    rw [Standing.run_append hrun, (Standing.close_of_ne hne _).2.1, hmore]
  | noPredicate => exact ⟨s, rfl, hs⟩
  | predicate _ _ ih ihs =>
    obtain rfl : s = .ended := hs
    obtain ⟨m, hrun, hm⟩ := ih (s := .operand) rfl
    obtain ⟨m', hmore, hm'⟩ := ihs (s := .ended) rfl
    have hne := Standing.ne_parentheses hm
    have hbehind := (Standing.run_append hrun).trans ((Standing.close_of_ne hne _).2.2.trans hmore)
    exact ⟨m', hbehind, hm'⟩
  | oneStep _ ih => exact ih hs
  | moreSteps _ hj _ ihs ih =>
    obtain ⟨m, hrun, rfl⟩ := ihs hs
    obtain ⟨m', hstep, hm'⟩ := ih (s := .operand) (Or.inl rfl)
    refine ⟨m', ?_, hm'⟩
    rw [Standing.run_append hrun, Standing.run_join hj, hstep]
  | self | parent => exact ⟨.ended, by rcases hs with rfl | rfl <;> rfl, rfl⟩
  | stepAlong ha ht _ ih =>
    obtain ⟨m, hm, haxis⟩ := ha.standing hs
    obtain ⟨m', hpredicates, hm'⟩ := ih (s := .ended) rfl
    refine ⟨m', ?_, hm'⟩
    rw [List.append_assoc, haxis, Standing.run_append (ht.standing hm), hpredicates]

namespace Standing
variable {s s' : Standing} {t : Token String} {ts : List (Token String)}

/-- Whether the memory of one token tells that an operand is complete. -/
def expectsOperator (s : Standing) : Bool :=
  s == parentheses || s == ended

theorem expectsOperator_next (s : Standing) (k : TokenKind) (c : OperatorContext) :
    (s.next k).expectsOperator = (c.record k).expectsOperator := by
  show (s.next k).expectsOperator = k.endsOperand
  unfold next
  split
  · next h => rw [h.1]; rfl
  · split
    · next hcallee =>
      cases k with
      | text => rfl
      | _ => cases hcallee
    · cases k.endsOperand <;> rfl

/-- Behind the last token the memory of it is all there is. -/
theorem expectsOperator_of_run (h : s.run (ts ++ [t]) = some s') (c : OperatorContext) :
    s'.expectsOperator = (c.record t.kind).expectsOperator := by
  obtain ⟨m, -, hlast⟩ := run_append_eq_some h
  obtain ⟨-, hnext⟩ := run_cons_eq_some hlast
  rw [← Option.some.inj hnext]
  exact m.expectsOperator_next t.kind c

/-- Only a slash leads to the place behind a slash, and only from where a path may begin. -/
theorem slash_of_run_root (h : s.run (ts ++ [t]) = some root) :
    t = .mark .slash ∧ s.run ts = some operand := by
  obtain ⟨m, hm, hlast⟩ := run_append_eq_some h
  obtain ⟨-, hnext⟩ := run_cons_eq_some hlast
  have hroot : m.next t.kind = root := Option.some.inj hnext
  unfold next at hroot
  split at hroot
  · next hslash =>
    obtain ⟨hkind, rfl⟩ := hslash
    refine ⟨?_, hm⟩
    cases t with
    | mark mark =>
      cases mark with
      | op o => cases o <;> cases hkind
      | slash => rfl
      | _ => cases hkind
    | text => cases hkind
  · split at hroot
    · cases hroot
    · split at hroot <;> cases hroot

end Standing
end XPath
