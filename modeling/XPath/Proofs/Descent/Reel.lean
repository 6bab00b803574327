import Mathlib.Data.Stream.Init
import XPath.Proofs.Descent.Completeness
import XPath.Proofs.Descent.Rejections

/-! Parsing tokens that need not be those of any text. What the descent makes of them depends on
nothing behind the last one it reads. -/
namespace XPath.Descent
open Source (pull)
variable {s : Setting} {α β : Type}

/-- A parse of any tokens: those read so far and those to come. -/
structure Reel where
  passed : List (Token String)
  ahead : Stream' (Token String)

instance : Source Reel where
  pull r := (r.ahead.head, ⟨r.passed ++ [r.ahead.head], r.ahead.tail⟩)
  unresolved _ _ r := r
  flag r := r
  view _ options := ⟨0, 0, false, options⟩

/-- The actions read some of the tokens to come, and do the same whatever follows these. -/
def Online (s : Setting) (x : Action String α) : Prop :=
  ∀ (passed : List (Token String)) (ahead : Stream' (Token String)),
    ∃ ts rest, ahead = ts ++ₛ rest ∧ ∀ other,
      x.interpret (.direct s) (⟨passed, ts ++ₛ other⟩ : Reel) =
        ((x.interpret (.direct s) (⟨passed, ahead⟩ : Reel)).1, ⟨passed ++ ts, other⟩)

theorem online_of_still {x : Action String α} {a : α}
    (hx : ∀ r : Reel, x.interpret (.direct s) r = (a, r)) : Online s x := by
  intro passed ahead
  refine ⟨[], ahead, rfl, fun other => ?_⟩
  rw [hx, hx, List.append_nil]
  rfl

theorem online_bind {x : Action String α} {f : α → Action String β} (hx : Online s x)
    (hf : ∀ a, Online s (f a)) : Online s (.bind x f) := by
  intro passed ahead
  obtain ⟨ts, rest, rfl, hts⟩ := hx passed ahead
  obtain ⟨us, rest, rfl, hus⟩ :=
    hf (x.interpret (.direct s) (⟨passed, ts ++ₛ rest⟩ : Reel)).1 (passed ++ ts) rest
  refine ⟨ts ++ us, rest, (Stream'.append_append_stream _ _ _).symm, fun other => ?_⟩
  have hfirst := hts (us ++ₛ other)
  have hsecond := hus other
  simp only [Action.interpret, Stream'.append_append_stream]
  rw [hfirst, hts (us ++ₛ rest), ← List.append_assoc]
  exact hsecond

theorem online_next : Online s (.next : Action String (Token String)) := by
  intro passed ahead
  refine ⟨[ahead.head], ahead.tail, (Stream'.append_stream_head_tail ahead).symm, ?_⟩
  intro other
  rfl

theorem online (s : Setting) (x : Action String α) : Online s x := by
  induction x with
  | bind x f hx hf => exact online_bind hx hf
  | next => exact online_next
  | expand name =>
    cases hname : expandName s.resolver name with
    | ok n =>
      refine online_of_still (a := .ok n) fun r => ?_
      simp only [Action.interpret, Host.direct, hname]
    | error short =>
      refine online_of_still (a := .error (.unresolved short)) fun r => ?_
      simp only [Action.interpret, Host.direct, hname]
      rfl
  | _ => exact online_of_still fun r => rfl

/-- From the first token on, the same holds of a descending action. -/
theorem exec_online (s : Setting) (x : Descent String α) (ahead : Stream' (Token String)) :
    ∃ ts rest, ahead = ts ++ₛ rest ∧ ∀ other,
      exec (Host.direct s) x (pull (⟨[], ts ++ₛ other⟩ : Reel)) =
        ((exec (Host.direct s) x (pull (⟨[], ahead⟩ : Reel))).1, ⟨ts, other⟩) :=
  online s (.bind .next fun first => (x.run first).run) [] ahead

/-- What was enough to fail is enough however the tokens go on. -/
theorem Fails.online {x : Descent String α} {ahead rest : Stream' (Token String)}
    {ts : List (Token String)} {r : Rejection}
    (h : Fails s x (pull (⟨[], ahead⟩ : Reel)) r ⟨ts, rest⟩) (other : Stream' (Token String)) :
    Fails s x (pull (⟨[], ts ++ₛ other⟩ : Reel)) r ⟨ts, other⟩ := by
  obtain ⟨us, rest', hahead, hus⟩ := exec_online s x ahead
  have hsame := hus rest'
  unfold Fails at h ⊢
  rw [← hahead, h, Prod.mk.injEq, Reel.mk.injEq] at hsame
  obtain ⟨-, rfl, -⟩ := hsame
  rw [hus other, h]

theorem passes_reel (passed ts : List (Token String)) (ahead : Stream' (Token String)) :
    Passes (pull (⟨passed, ts ++ₛ ahead⟩ : Reel)) ts (pull ⟨passed ++ ts, ahead⟩) := by
  induction ts generalizing passed with
  | nil =>
    rw [List.append_nil]
    exact .nil _
  | cons t ts ih =>
    have hrest := ih (passed ++ [t])
    rw [List.append_assoc] at hrest
    exact .cons hrest

/-- No parse fails when it has read only what an expression and the end begin with. -/
theorem not_fails_of_derives {e : Expr} {ts us : List (Token String)} {d bound limit : Nat}
    (h : Derives s.resolver s.Allows (.expression e) ts d) (hlen : ts.length < bound)
    (hd : d ≤ limit) (hus : us <+: ts ++ [.mark .endOfInput]) {r : Rejection}
    {ahead rest : Stream' (Token String)} :
    ¬ Fails s (whole bound limit) (pull (⟨[], ahead⟩ : Reel)) r ⟨us, rest⟩ := by
  intro hfails
  obtain ⟨more, hmore⟩ := hus
  have hstream (ends : Stream' (Token String)) :
      us ++ₛ (more ++ₛ ends) = ts ++ₛ Stream'.cons (.mark .endOfInput) ends := by
    rw [← Stream'.append_append_stream, hmore, Stream'.append_append_stream]
    rfl
  -- The rest of the expression follows what has been read, and the end follows that for ever.
  have hother := hfails.online (more ++ₛ .const (.mark .endOfInput))
  rw [hstream] at hother
  have hpasses := passes_reel [] ts (Stream'.cons (.mark .endOfInput) (.const (.mark .endOfInput)))
  have hyields := whole_complete h hd hlen hpasses rfl
  unfold Fails at hother
  unfold Yields at hyields
  rw [hyields] at hother
  cases hother

end XPath.Descent
