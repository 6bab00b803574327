import XPath.Descent

/-! What a descending action does, whatever it runs on. A parse with its table of texts is one thing
to run on; a parse in which each text is its own handle is another, and simpler to reason about. -/
namespace XPath

/-- Brackets, commas and the end of the input are known by their kinds. -/
theorem Token.eq_mark_of_kind {η : Type} {m : Mark} {t : Token η}
    (hm : m ∈ [Mark.endOfInput, .leftParen, .rightParen, .leftBracket, .rightBracket, .comma])
    (h : t.kind = m.kind) : t = .mark m := by
  simp only [List.mem_cons, List.not_mem_nil, or_false] at hm
  cases t with
  | text => rcases hm with rfl | rfl | rfl | rfl | rfl | rfl <;> cases h
  | mark m' =>
    rcases hm with rfl | rfl | rfl | rfl | rfl | rfl
    all_goals
      cases m' with
      | op o => cases o <;> cases h
      | _ => first | rfl | cases h

/-- What a grammar can run on: the effect of each action on a state `σ`, for texts known by `η`. -/
structure Host (η σ : Type) where
  next : σ → Token η × σ
  take : η → σ → Except Rejection String × σ
  expand : String → σ → Except Rejection ExpandedName × σ
  check : String → Nat → Except Rejection Unit
  flag : σ → σ
  view : σ → View

/-- The effect of a course of actions. -/
def Action.interpret {η σ : Type} (k : Host η σ) : {α : Type} → Action η α → σ → α × σ
  | _, .pure a, c => (a, c)
  | _, .bind x f, c =>
    let (a, c) := interpret k x c
    interpret k (f a) c
  | _, .next, c => k.next c
  | _, .take h, c => k.take h c
  | _, .expand name, c => k.expand name c
  | _, .check name count, c => (k.check name count, c)
  | _, .flag, c => ((), k.flag c)
  | _, .inspect, c => (k.view c, c)

/-- What a grammar may look at in a parse. -/
def Context.view (c : Context) (options : Options) : View :=
  ⟨c.lexer.position, c.lexer.unread, c.namespaceErrorSeen, options⟩

/-- Texts go into the table. -/
def Host.table (s : Setting) : Host Handle Context where
  next := Context.next
  take h c := c.take h
  expand name c := c.expand s.resolver name
  check := s.check
  flag := Context.flag
  view c := c.view s.options

theorem Action.run_eq_interpret {α : Type} (s : Setting) (x : Action Handle α) (c : Context) :
    x.run s c = x.interpret (.table s) c := by
  induction x generalizing c with
  | bind x f hx hf => simp only [run, interpret, hx, hf]
  | _ => rfl

/-- What no single action makes smaller, no course of actions does. -/
theorem Action.le_interpret {η σ α : Type} {k : Host η σ} (size : σ → Nat)
    (hnext : ∀ c, size c ≤ size (k.next c).2) (htake : ∀ h c, size c ≤ size (k.take h c).2)
    (hexpand : ∀ name c, size c ≤ size (k.expand name c).2)
    (hflag : ∀ c, size c ≤ size (k.flag c)) (x : Action η α) (c : σ) :
    size c ≤ size (x.interpret k c).2 := by
  induction x generalizing c with
  | bind x f hx hf => exact Nat.le_trans (hx c) (hf _ _)
  | next => exact hnext c
  | take h => exact htake h c
  | expand name => exact hexpand name c
  | flag => exact hflag c
  | _ => exact Nat.le_refl _

/-- What tokens can be read from together with their texts. -/
class Source (σ : Type) where
  pull : σ → Token String × σ
  /-- A name could not be resolved. -/
  unresolved : Option Resolver → String → σ → σ
  flag : σ → σ
  view : σ → Options → View

/-- Every text is its own handle. -/
def Host.direct {σ : Type} [Source σ] (s : Setting) : Host String σ where
  next := Source.pull
  take h c := (.ok h, c)
  expand name c :=
    match expandName s.resolver name with
    | .ok n => (.ok n, c)
    | .error short => (.error (.unresolved short), Source.unresolved s.resolver short c)
  check := s.check
  flag := Source.flag
  view c := Source.view c s.options

/-- Reads one token and leaves its text with it. -/
def Context.read (c : Context) : Token String × Context :=
  let (t, lexer) := c.lexer.next
  (t, { c with lexer, log := .token lexer.position t :: c.log })

/-- A parse without a table of texts. -/
instance : Source Context where
  pull := Context.read
  unresolved resolver short c :=
    { c with
      namespaceErrorSeen := true
      log := .unresolved short :: (Event.unbound? resolver short ++ c.log) }
  flag := Context.flag
  view := Context.view

theorem Host.direct_expand (s : Setting) (name : String) (c : Context) :
    (Host.direct s).expand name c = c.expand s.resolver name := by
  unfold Host.direct Context.expand
  dsimp only
  cases expandName s.resolver name <;> rfl

/-- Reading a token puts its text into the table. -/
theorem Context.next_eq (c : Context) (a : Arena) :
    { c with arena := a }.next =
      match c.read with
      | (.mark m, d) => (.mark m, { d with arena := a })
      | (.text kind s, d) =>
        (.text kind (a.register s).1, { d with arena := (a.register s).2 }) := by
  unfold next read
  cases c.lexer.next with
  | mk t lexer => cases t <;> rfl

theorem Context.next_lexer (c : Context) : c.next.2.lexer = c.lexer.next.2 := by
  unfold next
  cases c.lexer.next with
  | mk t lexer => cases t <;> rfl

/-- The token is logged with the position behind it. -/
theorem Context.next_log (c : Context) :
    c.next.2.log = .token c.lexer.next.2.position c.lexer.next.1 :: c.log := by
  unfold next
  cases c.lexer.next with
  | mk t lexer => cases t <;> rfl

namespace Descent
variable {η σ α β : Type} {k : Host η σ}

/-- The current token and the rest of the parse. -/
abbrev Place (η σ : Type) := Token η × σ

/-- What a descending action comes to: a result with the token read ahead, or a rejection. -/
abbrev Outcome (η σ α : Type) := Except Rejection (α × Token η) × σ

def exec (k : Host η σ) (x : Descent η α) (p : Place η σ) : Outcome η σ α :=
  (x.run p.1).run.interpret k p.2

@[simp] theorem exec_pure (a : α) (p : Place η σ) :
    exec k (pure a) p = (.ok (a, p.1), p.2) := rfl

theorem exec_bind (x : Descent η α) (f : α → Descent η β) (p : Place η σ) :
    exec k (x >>= f) p =
      match exec k x p with
      | (.ok (a, t), c) => exec k (f a) (t, c)
      | (.error r, c) => (.error r, c) := by
  have hbind : exec k (x >>= f) p = Action.interpret k
      (ExceptT.bindCont (fun at' : α × Token η => (f at'.1).run at'.2) (exec k x p).1)
      (exec k x p).2 := rfl
  rw [hbind]
  cases exec k x p with
  | mk r c => cases r <;> rfl

theorem exec_bind_assoc {γ : Type} (x : Descent η α) (f : α → Descent η β) (g : β → Descent η γ)
    (p : Place η σ) : exec k (x >>= f >>= g) p = exec k (x >>= fun a => f a >>= g) p := by
  rw [exec_bind, exec_bind, exec_bind]
  cases exec k x p with
  | mk r c =>
    cases r with
    | error r => rfl
    | ok result => exact (exec_bind _ _ _).symm

theorem exec_map (f : α → β) (x : Descent η α) (p : Place η σ) :
    exec k (f <$> x) p = exec k (x >>= fun a => pure (f a)) p := rfl

@[simp] theorem exec_get (p : Place η σ) : exec k get p = (.ok (p.1, p.1), p.2) := rfl

@[simp] theorem exec_throw (r : Rejection) (p : Place η σ) :
    exec k (throw r : Descent η α) p = (.error r, p.2) := rfl

@[simp] theorem exec_advance (p : Place η σ) :
    exec k advance p = (.ok ((), (k.next p.2).1), (k.next p.2).2) := rfl

/-- An attempt hands on the rejection of its action. -/
theorem exec_attempt {x : Action η (Except Rejection α)} {p : Place η σ} {r : Except Rejection α}
    {c : σ} (hx : x.interpret k p.2 = (r, c)) :
    exec k (attempt x) p = (r.map (·, p.1), c) := by
  have hattempt : exec k (attempt x) p = Action.interpret k
      (ExceptT.bindCont (fun a : α => pure (a, p.1)) (x.interpret k p.2).1)
      (x.interpret k p.2).2 := rfl
  rw [hattempt, hx]
  cases r <;> rfl

theorem exec_expand (name : String) (p : Place η σ) :
    exec k (attempt (.expand name)) p =
      ((k.expand name p.2).1.map (·, p.1), (k.expand name p.2).2) :=
  exec_attempt rfl

theorem exec_check (name : String) (count : Nat) (p : Place η σ) :
    exec k (attempt (.check name count)) p = ((k.check name count).map (·, p.1), p.2) :=
  exec_attempt rfl

/-- The text of a token is taken after the next token has been read. -/
theorem exec_takeText (h : η) (p : Place η σ) :
    exec k (takeText h) p =
      ((k.take h (k.next p.2).2).1.map (·, (k.next p.2).1), (k.take h (k.next p.2).2).2) := by
  unfold takeText
  rw [exec_bind, exec_advance]
  exact exec_attempt rfl

/-- Passes the current token and expands its text, known by `h`. -/
def expandText (h : η) : Descent η ExpandedName := do
  let name ← takeText h
  attempt (.expand name)

/-- The rejection of a token, when the text has been read to a position. -/
def refusal (t : Token η) (position : Nat) : Rejection :=
  match t with
  | .mark (.error e) => .lex e
  | t => .unexpectedToken t.kind position

/-- It does not depend on how texts are kept. -/
theorem refusal_congr {θ : Type} {t : Token η} {u : Token θ}
    (h : t.map (fun _ => ()) = u.map (fun _ => ())) (position : Nat) :
    refusal t position = refusal u position := by
  unfold refusal
  cases t <;> cases u <;>
    simp only [Token.map, Token.mark.injEq, Token.text.injEq, reduceCtorEq] at h
  · subst h
    split <;> simp_all [Token.kind]
  · simp [Token.kind, h.1]

/-- An error is the reason where the token is one, and nowhere else. -/
theorem refusal_eq_lex {t : Token η} {position : Nat} {e : LexError} :
    refusal t position = .lex e ↔ t = .mark (.error e) := by
  unfold refusal
  split <;> simp_all

theorem refusal_eq_unexpectedToken {t : Token η} (ht : ∀ e, t ≠ .mark (.error e)) (position : Nat) :
    refusal t position = .unexpectedToken t.kind position := by
  unfold refusal
  split
  · exact absurd rfl (ht _)
  · rfl

theorem refusal_ne_tooDeep (t : Token η) (position limit : Nat) :
    refusal t position ≠ .tooDeep limit := by
  unfold refusal
  split <;> simp

@[simp] theorem exec_refuse (p : Place η σ) :
    exec k (refuse : Descent η α) p = (.error (refusal p.1 (k.view p.2).position), p.2) := by
  obtain ⟨t, c⟩ := p
  cases t with
  | mark m => cases m <;> rfl
  | text => rfl

/-- The grammar reads one token and goes on from there. -/
theorem interpret_grammar (c : σ) :
    grammar.interpret k c =
      ((exec k (whole ((k.view c).unread + 1) (k.view c).options.maxDepth) (k.next c)).1.map
          Prod.fst,
        (exec k (whole ((k.view c).unread + 1) (k.view c).options.maxDepth) (k.next c)).2) := rfl

end Descent
end XPath
