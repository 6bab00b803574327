import XPath.Proofs.Grammar

/-! How phrases begin: one token of lookahead tells the productions apart. -/
namespace XPath

def TokenKind.beginsPrimary : TokenKind → Bool
  | leftParen | text .variableReference | text .literal | text .number | text .functionName => true
  | _ => false

def TokenKind.beginsPath (k : TokenKind) : Bool :=
  k.beginsPrimary || k.beginsStep || k == slash || k == slashSlash

theorem TokenKind.beginsPrimary_of_beginsStep {k : TokenKind} (h : k.beginsStep = true) :
    k.beginsPrimary = false := by
  cases k with
  | text kind => cases kind <;> first | rfl | cases h
  | _ => first | rfl | cases h

/-- The kinds of token with which a phrase of this sort may begin. -/
def Phrase.begins : Phrase → TokenKind → Bool
  | filter _ | primary _ => TokenKind.beginsPrimary
  | relativePath _ | step _ => TokenKind.beginsStep
  | level .path _ | level (.binary .union) _ => TokenKind.beginsPath
  | level _ _ | expression _ => fun k => k.beginsPath || k == .minus
  | arguments _ | predicates _ => fun _ => true

/-- Only lists of arguments or predicates may be empty. -/
def Phrase.Begins (X : Phrase) (ts : List (Token String)) : Prop :=
  (∃ t us, ts = t :: us ∧ X.begins t.kind = true) ∨ ∃ es, X = arguments es ∨ X = predicates es

theorem Phrase.Begins.append {X Y : Phrase} {ts : List (Token String)} (h : X.Begins ts)
    (hX : ∀ es, X ≠ arguments es ∧ X ≠ predicates es)
    (hbegins : ∀ k, X.begins k = true → Y.begins k = true) (us : List (Token String)) :
    Y.Begins (ts ++ us) := by
  rcases h with ⟨t, vs, rfl, ht⟩ | ⟨es, rfl | rfl⟩
  · exact Or.inl ⟨t, vs ++ us, rfl, hbegins _ ht⟩
  · exact absurd rfl (hX es).1
  · exact absurd rfl (hX es).2

theorem SpellsTest.begins {resolver : Option Resolver} {ts : List (Token String)} {test : NodeTest}
    (h : SpellsTest resolver ts test) : ∃ t us, ts = t :: us ∧ t.kind.beginsStep = true := by
  cases h <;> exact ⟨_, _, rfl, rfl⟩

theorem Derives.begins {resolver : Option Resolver} {allowed : String → Nat → Prop} {X : Phrase}
    {ts : List (Token String)} {d : Nat} (h : Derives resolver allowed X ts d) : X.Begins ts := by
  have begins {X Y : Phrase} {ts : List (Token String)} (h : X.Begins ts)
      (hX : ∀ es, X ≠ .arguments es ∧ X ≠ .predicates es)
      (hbegins : ∀ k, X.begins k = true → Y.begins k = true) : Y.Begins ts := by
    simpa using h.append hX hbegins []
  induction h with
  | expression _ ih => exact begins ih (by simp) fun _ hk => hk
  | @operand p _ _ _ _ ih => exact begins ih (by simp) (by cases p <;> exact fun _ hk => hk)
  | @operator p _ _ _ _ _ _ _ _ _ _ ih =>
    refine ih.append (by simp) ?_ _
    cases p <;> exact fun _ hk => hk
  | union _ ih => exact begins ih (by simp) fun _ hk => Bool.or_eq_true_iff.mpr (Or.inl hk)
  | minus | root | variableReference | literal | number | parentheses | call | self | parent =>
    exact Or.inl ⟨_, _, rfl, rfl⟩
  | absolute hj => cases hj <;> exact Or.inl ⟨_, _, rfl, rfl⟩
  | relative _ ih =>
    exact begins ih (by simp) fun k (hk : k.beginsStep = true) => by
      simp [Phrase.begins, TokenKind.beginsPath, hk]
  | filter _ ih =>
    exact begins ih (by simp) fun k (hk : k.beginsPrimary = true) => by
      simp [Phrase.begins, TokenKind.beginsPath, hk]
  | pathFrom _ _ _ ih =>
    exact ih.append (by simp) (fun k (hk : k.beginsPrimary = true) => by
      simp [Phrase.begins, TokenKind.beginsPath, hk]) _
  | primary _ ih => exact begins ih (by simp) fun _ hk => hk
  | filtered _ _ ih =>
    refine ih.append (by simp) ?_ _
    exact fun _ hk => hk
  | noArgument | argument | moreArguments => exact Or.inr ⟨_, Or.inl rfl⟩
  | noPredicate | predicate => exact Or.inr ⟨_, Or.inr rfl⟩
  | oneStep _ ih => exact begins ih (by simp) fun _ hk => hk
  | moreSteps _ _ _ ih =>
    refine ih.append (by simp) ?_ _
    exact fun _ hk => hk
  | stepAlong ha ht =>
    obtain ⟨t, us, rfl, hbegins⟩ := ht.begins
    cases ha
    · exact Or.inl ⟨t, us ++ _, rfl, hbegins⟩
    · exact Or.inl ⟨_, _, rfl, rfl⟩
    · exact Or.inl ⟨_, _, rfl, rfl⟩

end XPath
