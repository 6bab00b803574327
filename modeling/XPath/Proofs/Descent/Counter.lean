import XPath.Proofs.Descent.Coupling

/-! A parse that counts how deeply it is nested, by a counter that goes up where an expression is
entered and down where it is left. Its recursion is cut by the counter alone, and it does the same
as the parse whose recursion is limited. -/
namespace XPath

/-- What a counting parse can take: the text of a token, or notice of where it is going. -/
inductive Cue (η : Type)
  | text (h : η)
  | enter
  | leave

/-- The state of a parse, with the depth it is at and the greatest depth so far. -/
structure Gauge (σ : Type) where
  state : σ
  depth : Nat := 0
  peak : Nat := 0

namespace Gauge
variable {σ : Type}

def enter (g : Gauge σ) : Gauge σ :=
  { g with depth := g.depth + 1, peak := max g.peak (g.depth + 1) }

def leave (g : Gauge σ) : Gauge σ :=
  { g with depth := g.depth - 1 }

/-- In state `c` at this depth, and never deeper than the limit. -/
structure At (limit depth : Nat) (g : Gauge σ) (c : σ) : Prop where
  state : g.state = c
  depth : g.depth = depth
  peak : g.peak ≤ limit

theorem At.with_state {limit depth : Nat} {g : Gauge σ} {c : σ} (h : At limit depth g c) (c' : σ) :
    At limit depth { g with state := c' } c' :=
  ⟨rfl, h.depth, h.peak⟩

theorem At.enter {limit depth : Nat} {g : Gauge σ} {c : σ} (h : At limit depth g c)
    (hdepth : depth < limit) : At limit (depth + 1) g.enter c where
  state := h.state
  depth := congrArg (· + 1) h.depth
  peak := by
    have hless : g.depth + 1 ≤ limit := h.depth ▸ hdepth
    exact Nat.max_le.mpr ⟨h.peak, hless⟩

theorem At.leave {limit depth : Nat} {g : Gauge σ} {c : σ} (h : At limit (depth + 1) g c) :
    At limit depth g.leave c where
  state := h.state
  depth := congrArg (· - 1) h.depth
  peak := h.peak

end Gauge

/-- The same host with a counter beside its state. It lets nothing go beyond the limit of the
options. -/
def Host.counting {η σ : Type} (k : Host η σ) : Host (Cue η) (Gauge σ) where
  next g := ((k.next g.state).1.map .text, { g with state := (k.next g.state).2 })
  take
    | .text h, g => ((k.take h g.state).1, { g with state := (k.take h g.state).2 })
    | .enter, g =>
      let limit := (k.view g.state).options.maxDepth
      if limit ≤ g.depth then (.error (.tooDeep limit), g) else (.ok "", g.enter)
    | .leave, g => (.ok "", g.leave)
  expand name g := ((k.expand name g.state).1, { g with state := (k.expand name g.state).2 })
  check := k.check
  flag g := { g with state := k.flag g.state }
  view g := k.view g.state

namespace Descent
variable {η σ α : Type}

/-- Goes one level deeper for `x`, if that is allowed, and back again however `x` ends. -/
def enclosed (x : Descent (Cue η) α) : Descent (Cue η) α := fun t => ExceptT.mk do
  match ← Action.take .enter with
  | .error r => return .error r
  | .ok _ =>
    let result ← (x.run t).run
    let _ ← Action.take .leave
    return result

/-- An expression, with the recursion written out for `n` levels inside it. `beyond` stands for what
the recursion would go on with. -/
def counted (bound : Nat) (beyond : List Precedence → Descent (Cue η) Expr) :
    Nat → List Precedence → Descent (Cue η) Expr
  | 0, levels => enclosed (beyond levels)
  | n + 1, levels => enclosed (binary bound (counted bound beyond n) levels)

/-- Reads the rest of the input as an expression and counts. -/
def countedGrammar (beyond : List Precedence → Descent (Cue η) Expr) :
    Action (Cue η) (Except Rejection Expr) := do
  let view ← .inspect
  let first ← .next
  let whole : Descent (Cue η) Expr := do
    let e ← counted (view.unread + 1) beyond view.options.maxDepth Precedence.aboveMinus
    expect .endOfInput
    return e
  return (← (whole.run first).run).map Prod.fst

section
variable {k : Host η σ}

theorem exec_enclosed (x : Descent (Cue η) α) (t : Token (Cue η)) (g : Gauge σ) :
    exec k.counting (enclosed x) (t, g) =
      match k.counting.take .enter g with
      | (.error r, g) => (.error r, g)
      | (.ok _, g) => ((exec k.counting x (t, g)).1, (exec k.counting x (t, g)).2.leave) := by
  have hrun : exec k.counting (enclosed x) (t, g) =
      Action.interpret k.counting
        (match (k.counting.take .enter g).1 with
          | .error r => return .error r
          | .ok _ => do
            let result ← (x.run t).run
            let _ ← Action.take .leave
            return result)
        (k.counting.take .enter g).2 := rfl
  rw [hrun]
  cases k.counting.take .enter g with
  | mk r g => cases r <;> rfl

/-- A counting parse and the same that does not count, at one depth. -/
def countingLink (η σ : Type) (limit depth : Nat) : Link (Cue η) (Gauge σ) η σ where
  tied p q := p.1 = q.1.map .text ∧ p.2.At limit depth q.2
  lost x y := x.1 = y.1 ∧ x.2.At limit depth y.2

variable {limit depth : Nat}

theorem tied_counting_next {g : Gauge σ} {c : σ} (h : g.At limit depth c) :
    (countingLink η σ limit depth).tied (k.counting.next g) (k.next c) := by
  obtain rfl := h.state
  exact ⟨rfl, h.with_state _⟩

theorem alike_counting_result {t : Token (Cue η)} {t' : Token η} {g : Gauge σ} {c : σ}
    (htoken : t = t'.map .text) (hat : g.At limit depth c) (result : Except Rejection α) :
    (countingLink η σ limit depth).Alike (result.map (·, t), g) (result.map (·, t'), c) := by
  cases result with
  | ok a => exact .ok ⟨htoken, hat⟩
  | error r => exact .error ⟨rfl, hat⟩

theorem alike_counting_take {kind : TextKind} {t : Cue η} {t' : η} {g : Gauge σ} {c : σ}
    (h : (countingLink η σ limit depth).tied (.text kind t, g) (.text kind t', c)) :
    (countingLink η σ limit depth).Alike (exec k.counting (takeText t) (.text kind t, g))
      (exec k (takeText t') (.text kind t', c)) := by
  obtain ⟨htext, hat⟩ := h
  obtain rfl : t = .text t' := (Token.text.inj htext).2
  obtain rfl : g.state = c := hat.state
  rw [exec_takeText, exec_takeText]
  exact alike_counting_result rfl (hat.with_state _) (k.take t' (k.next g.state).2).1

theorem alike_counting_expand (name : String) {p : Place (Cue η) (Gauge σ)} {q : Place η σ}
    (h : (countingLink η σ limit depth).tied p q) :
    (countingLink η σ limit depth).Alike (exec k.counting (attempt (.expand name)) p)
      (exec k (attempt (.expand name)) q) := by
  obtain ⟨t, g⟩ := p
  obtain ⟨t', c⟩ := q
  obtain ⟨htoken, hat⟩ := h
  obtain rfl : g.state = c := hat.state
  rw [exec_expand, exec_expand]
  exact alike_counting_result htoken (hat.with_state _) (k.expand name g.state).1

theorem lawful_countingLink (k : Host η σ) (limit depth : Nat) :
    (countingLink η σ limit depth).Lawful k.counting k where
  shape := by
    rintro ⟨t, g⟩ ⟨t', c⟩ ⟨rfl, -⟩
    cases t' <;> rfl
  next _ h := tied_counting_next h.2
  take h _ := alike_counting_take h
  name h := (alike_counting_take h).bind fun name _ _ htied => alike_counting_expand name htied
  refuse {p q} h := by
    have hshape : p.1.map (fun _ => ()) = q.1.map (fun _ => ()) := by
      rw [h.1]
      cases q.1 <;> rfl
    have hview : k.counting.view p.2 = k.view q.2 := congrArg k.view h.2.state
    rw [hview]
    exact ⟨refusal_congr hshape _, h.2⟩
  number raw h := ⟨rfl, h.2⟩
  check name count h := by
    rw [exec_check, exec_check]
    exact alike_counting_result h.1 h.2 _
  enough_zero _ henough := henough
  enough_next henough := henough
  enough_interpret _ _ _ henough := henough

/-- While a level is left, what agrees on that level agrees when it is gone to and come back from. -/
theorem alike_enclosed (hlimit : ∀ c, (k.view c).options.maxDepth = limit) (hdepth : depth < limit)
    {x : Descent (Cue η) α} {y : Descent η α}
    (hxy : (countingLink η σ limit (depth + 1)).Couples k.counting k x y) :
    (countingLink η σ limit depth).Couples k.counting k (enclosed x) y := by
  rintro ⟨t, g⟩ q ⟨htoken, hat⟩
  have hentered : k.counting.take .enter g = (.ok "", g.enter) := by
    have hless : ¬ (k.view g.state).options.maxDepth ≤ g.depth := by
      rw [hlimit, hat.depth]
      exact Nat.not_le.mpr hdepth
    exact if_neg hless
  have hinside := hxy (t, g.enter) q ⟨htoken, hat.enter hdepth⟩
  rw [exec_enclosed, hentered]
  dsimp only
  generalize exec k.counting x (t, g.enter) = o at hinside
  generalize exec k y q = o' at hinside
  cases hinside with
  | ok h => exact .ok ⟨h.1, h.2.leave⟩
  | error h => exact .error ⟨h.1, h.2.leave⟩
  | cut h => exact absurd h not_false

/-- The levels written out and those above them make up the limit, so where the recursion ends, the
counter refuses, and `beyond` is never asked. -/
theorem couples_counted (hlimit : ∀ c, (k.view c).options.maxDepth = limit) (bound : Nat)
    (beyond : List Precedence → Descent (Cue η) Expr) (n : Nat) (hn : depth + n = limit)
    (levels : List Precedence) :
    (countingLink η σ limit depth).Couples k.counting k (counted bound beyond n levels)
      (nested bound limit n levels) := by
  induction n generalizing depth levels with
  | zero =>
    rintro ⟨t, g⟩ q ⟨htoken, hat⟩
    have hrefused : k.counting.take .enter g = (.error (.tooDeep limit), g) := by
      have hle : (k.view g.state).options.maxDepth ≤ g.depth := by
        rw [hlimit, hat.depth, ← hn]
        exact Nat.le_refl _
      rw [← hlimit g.state]
      exact if_pos hle
    unfold counted
    rw [exec_enclosed, hrefused]
    exact .error ⟨rfl, hat⟩
  | succ n ih =>
    have hdepth : depth < limit := by omega
    have hinside : depth + 1 + n = limit := by omega
    have law := lawful_countingLink k limit (depth + 1)
    exact alike_enclosed hlimit hdepth
      (Link.couples_binary law (fun levels => ih hinside levels) (fun _ _ _ => Or.inl rfl) levels)

theorem counting_ends {o : Outcome (Cue η) (Gauge σ) Expr} {o' : Outcome η σ Expr}
    (h : (countingLink η σ limit depth).Ends k.counting k o o') :
    o.1.map Prod.fst = o'.1.map Prod.fst ∧ o.2.At limit depth o'.2 := by
  cases h with
  | ok h => exact ⟨rfl, (tied_counting_next h.2).2⟩
  | error h => exact ⟨congrArg Except.error h.1, h.2⟩
  | cut h => exact absurd h not_false

/-- A counting parse ends with the same result and in the same state as the one that does not count.
All levels have been left again, and none was deeper than the limit. -/
theorem interpret_countedGrammar (hlimit : ∀ c, (k.view c).options.maxDepth = limit)
    (beyond : List Precedence → Descent (Cue η) Expr) (c : σ) :
    ((countedGrammar beyond).interpret k.counting { state := c }).1 = (grammar.interpret k c).1 ∧
      ((countedGrammar beyond).interpret k.counting { state := c }).2.At limit 0
        (grammar.interpret k c).2 := by
  have law := lawful_countingLink k limit 0
  have hstart : Gauge.At limit 0 { state := c } c := ⟨rfl, rfl, Nat.zero_le _⟩
  have hfirst : (countingLink η σ limit 0).tied (k.counting.next { state := c }) (k.next c) :=
    tied_counting_next hstart
  have hcouples := couples_counted hlimit ((k.view c).unread + 1) beyond limit (Nat.zero_add _)
    Precedence.aboveMinus
  have hends := counting_ends (Link.ends_behind law (hcouples _ _ hfirst))
  rw [← hlimit c] at hends ⊢
  exact hends

end
end Descent
end XPath
