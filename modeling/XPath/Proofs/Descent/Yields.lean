import XPath.Proofs.Execution

/-! Success of descending actions, with texts as their own handles: what an action yields and which
tokens it passes. -/
namespace XPath.Descent
open Source (pull)
variable {σ : Type} [Source σ] {s : Setting} {α β : Type}

/-- From `p` on, the action succeeds with `a` and comes to `q`. -/
def Yields (s : Setting) (x : Descent String α) (p : Place String σ) (a : α) (q : Place String σ) :
    Prop :=
  exec (Host.direct s) x p = (.ok (a, q.1), q.2)

/-- From `p` to `q` these tokens are passed. -/
inductive Passes : Place String σ → List (Token String) → Place String σ → Prop
  | nil (p : Place String σ) : Passes p [] p
  | cons {t : Token String} {c : σ} {ts : List (Token String)} {q : Place String σ}
      (h : Passes (pull c) ts q) : Passes (t, c) (t :: ts) q

theorem Passes.append {p m q : Place String σ} {ts us : List (Token String)} (h : Passes p ts m)
    (h' : Passes m us q) : Passes p (ts ++ us) q := by
  induction h with
  | nil => exact h'
  | cons _ ih => exact .cons (ih h')

theorem passes_append {p q : Place String σ} {ts us : List (Token String)} :
    Passes p (ts ++ us) q ↔ ∃ m, Passes p ts m ∧ Passes m us q := by
  constructor
  · intro h
    induction ts generalizing p with
    | nil => exact ⟨p, .nil p, h⟩
    | cons t ts ih =>
      cases h with
      | cons h =>
        obtain ⟨m, hts, hus⟩ := ih h
        exact ⟨m, .cons hts, hus⟩
  · rintro ⟨m, hts, hus⟩
    exact hts.append hus

theorem passes_nil {p q : Place String σ} : Passes p [] q ↔ p = q := by
  constructor
  · rintro ⟨⟩
    rfl
  · rintro rfl
    exact .nil p

theorem passes_cons {p q : Place String σ} {t : Token String} {ts : List (Token String)} :
    Passes p (t :: ts) q ↔ p.1 = t ∧ Passes (pull p.2) ts q := by
  constructor
  · intro h
    cases h with
    | cons h => exact ⟨rfl, h⟩
  · obtain ⟨t, c⟩ := p
    rintro ⟨rfl, h⟩
    exact .cons h

theorem passes_singleton {p q : Place String σ} {t : Token String} :
    Passes p [t] q ↔ p.1 = t ∧ q = pull p.2 := by
  rw [passes_cons, passes_nil, eq_comm (a := q)]

theorem passes_one (p : Place String σ) : Passes p [p.1] (pull p.2) :=
  .cons (.nil _)

omit [Source σ] in
theorem ok_eq_iff {a b : α} {p q : Place String σ} :
    ((.ok (a, p.1), p.2) : Outcome String σ α) = (.ok (b, q.1), q.2) ↔ b = a ∧ q = p := by
  simp only [Prod.mk.injEq, Except.ok.injEq]
  constructor
  · rintro ⟨⟨rfl, ht⟩, hc⟩
    exact ⟨rfl, Prod.ext ht.symm hc.symm⟩
  · rintro ⟨rfl, rfl⟩
    exact ⟨⟨rfl, rfl⟩, rfl⟩

@[simp] theorem yields_pure {a b : α} {p q : Place String σ} :
    Yields s (pure a) p b q ↔ b = a ∧ q = p := by
  unfold Yields
  rw [exec_pure]
  exact ok_eq_iff

theorem yields_bind {x : Descent String α} {f : α → Descent String β} {p q : Place String σ}
    {b : β} : Yields s (x >>= f) p b q ↔ ∃ a m, Yields s x p a m ∧ Yields s (f a) m b q := by
  unfold Yields
  rw [exec_bind]
  constructor
  · intro h
    cases hx : exec (Host.direct s) x p with
    | mk r c =>
      rw [hx] at h
      cases r with
      | error r => cases h
      | ok at' => exact ⟨at'.1, (at'.2, c), rfl, h⟩
  · rintro ⟨a, m, hx, hf⟩
    rw [hx]
    exact hf

/-- An action with one way to succeed, on condition. -/
theorem yields_bind_of {x : Descent String α} {f : α → Descent String β} {p m q : Place String σ}
    {a : α} {b : β} {P : Prop} (hx : ∀ a' m', Yields s x p a' m' ↔ P ∧ a' = a ∧ m' = m) :
    Yields s (x >>= f) p b q ↔ P ∧ Yields s (f a) m b q := by
  rw [yields_bind]
  constructor
  · rintro ⟨a', m', hx', hf⟩
    obtain ⟨hP, rfl, rfl⟩ := (hx a' m').mp hx'
    exact ⟨hP, hf⟩
  · rintro ⟨hP, hf⟩
    exact ⟨a, m, (hx a m).mpr ⟨hP, rfl, rfl⟩, hf⟩

theorem yields_map {x : Descent String α} {f : α → β} {p q : Place String σ} {b : β} :
    Yields s (f <$> x) p b q ↔ ∃ a, Yields s x p a q ∧ b = f a := by
  unfold Yields
  rw [exec_map]
  change Yields s (x >>= fun a => pure (f a)) p b q ↔ _
  rw [yields_bind]
  constructor
  · rintro ⟨a, m, hx, hf⟩
    obtain ⟨rfl, rfl⟩ := yields_pure.mp hf
    exact ⟨a, hx, rfl⟩
  · rintro ⟨a, hx, rfl⟩
    exact ⟨a, q, hx, yields_pure.mpr ⟨rfl, rfl⟩⟩

/-- To look at the current token changes nothing. -/
@[simp] theorem yields_get_bind {f : Token String → Descent String β} {p q : Place String σ}
    {b : β} : Yields s (get >>= f) p b q ↔ Yields s (f p.1) p b q := by
  unfold Yields
  rw [exec_bind, exec_get]

@[simp] theorem yields_throw {r : Rejection} {a : α} {p q : Place String σ} :
    ¬ Yields s (throw r) p a q := by
  unfold Yields
  rw [exec_throw]
  rintro ⟨⟩

@[simp] theorem yields_refuse {a : α} {p q : Place String σ} : ¬ Yields s refuse p a q := by
  unfold Yields
  rw [exec_refuse]
  rintro ⟨⟩

@[simp] theorem yields_advance {u : Unit} {p q : Place String σ} :
    Yields s advance p u q ↔ q = pull p.2 := by
  unfold Yields
  rw [exec_advance]
  exact ok_eq_iff.trans (and_iff_right rfl)

@[simp] theorem yields_takeText {h a : String} {p q : Place String σ} :
    Yields s (takeText h) p a q ↔ a = h ∧ q = pull p.2 := by
  unfold Yields
  rw [exec_takeText]
  exact ok_eq_iff

@[simp] theorem yields_takeText_bind {h : String} {f : String → Descent String β}
    {p q : Place String σ} {b : β} :
    Yields s (takeText h >>= f) p b q ↔ Yields s (f h) (pull p.2) b q :=
  (yields_bind_of (P := True) fun a m => by simp).trans (and_iff_right trivial)

@[simp] theorem yields_advance_bind {f : Unit → Descent String β} {p q : Place String σ} {b : β} :
    Yields s (advance >>= f) p b q ↔ Yields s (f ()) (pull p.2) b q :=
  (yields_bind_of (P := True) fun a m => by simp).trans (and_iff_right trivial)

@[simp] theorem yields_expect {k : TokenKind} {u : Unit} {p q : Place String σ} :
    Yields s (expect k) p u q ↔ p.1.kind = k ∧ q = pull p.2 := by
  unfold expect
  rw [yields_get_bind]
  by_cases hk : p.1.kind = k <;> simp [hk]

@[simp] theorem yields_expect_bind {k : TokenKind} {f : Unit → Descent String β}
    {p q : Place String σ} {b : β} :
    Yields s (expect k >>= f) p b q ↔ p.1.kind = k ∧ Yields s (f ()) (pull p.2) b q :=
  yields_bind_of fun a m => by simp

@[simp] theorem yields_expand {name : String} {n : ExpandedName} {p q : Place String σ} :
    Yields s (attempt (.expand name)) p n q ↔ expandName s.resolver name = .ok n ∧ q = p := by
  unfold Yields
  rw [exec_expand]
  unfold Host.direct
  dsimp only
  cases expandName s.resolver name with
  | error short => simp [Except.map]
  | ok m =>
    rw [Except.ok.injEq, eq_comm (a := m)]
    exact ok_eq_iff

theorem check_eq_ok {name : String} {count : Nat} :
    s.check name count = .ok () ↔
      (s.options.validateFunctions = true → s.functions.check name count = .ok ()) := by
  unfold Setting.check
  cases s.options.validateFunctions with
  | false => simp
  | true =>
    rw [if_pos rfl]
    cases s.functions.check name count with
    | ok => simp
    | error fault => cases fault <;> simp

theorem cause_of_check {name : String} {count : Nat} {r : Rejection}
    (h : s.check name count = .error r) :
    r = .unknownFunction name ∨ ∃ expected, r = .wrongArity name count expected := by
  unfold Setting.check at h
  split at h
  · split at h <;> cases h
    · exact Or.inl rfl
    · exact Or.inr ⟨_, rfl⟩
  · cases h

@[simp] theorem yields_check {name : String} {count : Nat} {u : Unit} {p q : Place String σ} :
    Yields s (attempt (.check name count)) p u q ↔ s.check name count = .ok () ∧ q = p := by
  unfold Yields
  rw [exec_check]
  change (((s.check name count).map (·, p.1), p.2) : Outcome String σ Unit) = _ ↔ _
  cases s.check name count with
  | error r => simp [Except.map]
  | ok v => exact ok_eq_iff.trans (and_congr (iff_of_true rfl rfl) Iff.rfl)

@[simp] theorem yields_check_bind {name : String} {count : Nat} {f : Unit → Descent String β}
    {p q : Place String σ} {b : β} :
    Yields s (attempt (.check name count) >>= f) p b q ↔
      s.check name count = .ok () ∧ Yields s (f ()) p b q :=
  yields_bind_of fun a m => by simp

end XPath.Descent
