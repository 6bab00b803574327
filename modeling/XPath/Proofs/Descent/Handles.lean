import XPath.Proofs.Arena
import XPath.Proofs.Execution

/-! A place in a parse with the table of texts and the same place when texts are their own handles.
The table holds, besides what it held before, at most the text of the current token. -/
namespace XPath
open Arena

/-- The token in `p` is the one that was read last. -/
def Context.LastRead (p : Token String × Context) : Prop :=
  ∃ c : Context, c.read.1 = p.1 ∧ c.read.2.lexer = p.2.lexer

/-- A table that holds what `base` holds and besides the text of one token, if it has one. -/
inductive Arena.Holds (base : Arena) : Arena → Token Handle → Token String → Prop
  | mark {a : Arena} {m : Mark} (get : ∀ g, a.get? g = base.get? g) (live : a.live = base.live) :
      Holds base a (.mark m) (.mark m)
  | text {a : Arena} {kind : TextKind} {h : Handle} {s : String} (fresh : base.get? h = none)
      (get : ∀ g, a.get? g = if g = h then some s else base.get? g)
      (live : a.live = base.live + 1) : Holds base a (.text kind h) (.text kind s)

/-- The text kept longest can be taken out while that of the next token is already there. -/
theorem Arena.Holds.release {base a b : Arena} {kind : TextKind} {h : Handle} {s : String}
    {t : Token Handle} {t' : Token String} (ha : base.Holds a (.text kind h) (.text kind s))
    (hb : a.Holds b t t') (hsound : b.Sound) :
    b.get? h = some s ∧ base.Holds (b.without h) t t' := by
  cases ha with
  | text fresh get live =>
    have hkept : a.get? h = some s := by rw [get, if_pos rfl]
    cases hb with
    | mark get' live' =>
      have hs : b.get? h = some s := (get' h).trans hkept
      have hcount := live_without hsound hs
      refine ⟨hs, .mark (fun g => ?_) (by omega)⟩
      rw [get?_without hs, get', get]
      by_cases hg : g = h <;> simp [hg, fresh]
    | @text _ h' s' fresh' get' live' =>
      have hne : h ≠ h' := by
        rintro rfl
        rw [hkept] at fresh'
        cases fresh'
      have hs : b.get? h = some s := by rw [get', if_neg hne, hkept]
      have hcount := live_without hsound hs
      have hbase : base.get? h' = none := by
        rw [← fresh', get, if_neg (Ne.symm hne)]
      refine ⟨hs, .text hbase (fun g => ?_) (by omega)⟩
      rw [get?_without hs, get', get]
      by_cases hg : g = h
      · simp [hg, hne, fresh]
      · simp [hg]

theorem Arena.Holds.live_le {base a : Arena} {t : Token Handle} {t' : Token String}
    (h : base.Holds a t t') : a.live ≤ base.live + 1 := by
  cases h with
  | mark get live => omega
  | text fresh get live => omega

namespace Descent

/-- A place in a parse with a table and the same place in a parse without one. The table never has
more than `cap` slots. -/
structure Tied (base : Arena) (cap : Nat) (p : Place Handle Context) (q : Place String Context) :
    Prop where
  context : p.2 = { q.2 with arena := p.2.arena }
  last : Context.LastRead q
  sound : p.2.arena.Sound
  holds : base.Holds p.2.arena p.1 q.1
  size_le : p.2.arena.slots.size ≤ cap

theorem Tied.shape {base : Arena} {cap : Nat} {p : Place Handle Context} {q : Place String Context}
    (h : Tied base cap p q) : p.1.map (fun _ => ()) = q.1.map (fun _ => ()) := by
  obtain ⟨t, c⟩ := p
  obtain ⟨t', c'⟩ := q
  have hholds := h.holds
  dsimp only at hholds
  cases hholds <;> rfl

theorem Tied.lexer {base : Arena} {cap : Nat} {p : Place Handle Context} {q : Place String Context}
    (h : Tied base cap p q) : p.2.lexer = q.2.lexer := by
  rw [h.context]

/-- After the next token has been read, the table holds besides just its text. -/
theorem tied_next {a : Arena} {cap : Nat} (ha : a.Sound) (hsize : a.slots.size ≤ cap)
    (hlive : a.live + 1 ≤ cap) (hcap : cap ≤ UInt32.size) (c : Context) :
    Tied a cap ({ c with arena := a }.next) c.read := by
  have hlast : Context.LastRead c.read := ⟨c, rfl, rfl⟩
  rw [Context.next_eq]
  generalize c.read = q at hlast
  obtain ⟨t, d⟩ := q
  cases t with
  | mark m => exact ⟨rfl, hlast, ha, .mark (fun _ => rfl) rfl, hsize⟩
  | text kind s =>
    have room : a.live < UInt32.size := by omega
    have hgrown : (a.register s).2.slots.size ≤ cap := by
      rw [size_register ha]
      omega
    exact ⟨rfl, hlast, sound_register ha room s, .text (get?_register_fresh ha room s)
      (get?_register ha room s) (live_register a s), hgrown⟩

private theorem Tied.rebase {base a : Arena} {cap : Nat} {p : Place Handle Context}
    {q : Place String Context} (hget : ∀ g, a.get? g = base.get? g) (hlive : a.live = base.live)
    (h : Tied a cap p q) : Tied base cap p q := by
  obtain ⟨t, c⟩ := p
  obtain ⟨t', c'⟩ := q
  refine ⟨h.context, h.last, h.sound, ?_, h.size_le⟩
  have hholds := h.holds
  dsimp only at hholds ⊢
  cases hholds with
  | mark get live => exact .mark (fun g => (get g).trans (hget g)) (live.trans hlive)
  | text fresh get live =>
    exact .text ((hget _).symm.trans fresh) (fun g => by rw [get, hget]) (by rw [live, hlive])

theorem expand_eq (c : Context) (a : Arena) (resolver : Option Resolver) (name : String) :
    { c with arena := a }.expand resolver name =
      ((c.expand resolver name).1, { (c.expand resolver name).2 with arena := a }) := by
  unfold Context.expand
  cases expandName resolver name <;> rfl

theorem expand_lexer (c : Context) (resolver : Option Resolver) (name : String) :
    (c.expand resolver name).2.lexer = c.lexer := by
  unfold Context.expand
  cases expandName resolver name <;> rfl

section
variable {base : Arena} {cap : Nat} (hbase : base.live + 2 ≤ cap) (hcap : cap ≤ UInt32.size)
include hbase hcap

/-- The next token may come in while the text of the current one is still there. -/
theorem Tied.ahead {t : Token Handle} {t' : Token String} {c c' : Context}
    (h : Tied base cap (t, c) (t', c')) : Tied c.arena cap c.next c'.read := by
  have hlive : c.arena.live ≤ base.live + 1 := h.holds.live_le
  have hc : c = { c' with arena := c.arena } := h.context
  have hnext := tied_next h.sound h.size_le (Nat.le_trans (Nat.succ_le_succ hlive) hbase) hcap c'
  rw [← hc] at hnext
  exact hnext

/-- A mark leaves nothing behind in the table. -/
theorem Tied.next {m m' : Mark} {c c' : Context} (h : Tied base cap (.mark m, c) (.mark m', c')) :
    Tied base cap c.next c'.read := by
  have hholds : base.Holds c.arena (.mark m) (.mark m') := h.holds
  cases hholds with
  | mark get live => exact (h.ahead hbase hcap).rebase get live

/-- The text of the current token is there to be taken when the next token has been read. -/
theorem Tied.take {kind kind' : TextKind} {g : Handle} {s : String} {c c' : Context}
    (h : Tied base cap (.text kind g, c) (.text kind' s, c')) :
    c.next.2.take g = (.ok s, { c.next.2 with arena := c.next.2.arena.without g }) ∧
      Tied base cap (c.next.1, { c.next.2 with arena := c.next.2.arena.without g }) c'.read := by
  have hholds : base.Holds c.arena (.text kind g) (.text kind' s) := h.holds
  have hnext := h.ahead hbase hcap
  obtain ⟨hget, hafter⟩ : c.next.2.arena.get? g = some s ∧
      base.Holds (c.next.2.arena.without g) c.next.1 c'.read.1 := by
    cases hholds with
    | text fresh get live =>
      have hkept : base.Holds c.arena (.text kind g) (.text kind s) := .text fresh get live
      exact hkept.release hnext.holds hnext.sound
  constructor
  · rw [Context.take, release?_eq_some hget]
  · constructor
    · exact congrArg (fun d : Context => { d with arena := c.next.2.arena.without g }) hnext.context
    · exact hnext.last
    · exact sound_without hnext.sound hget
    · exact hafter
    · exact Nat.le_trans (Nat.le_of_eq (size_without _ _)) hnext.size_le

end

/-- To expand a name is to read nothing and to keep nothing. -/
theorem Tied.expand {base : Arena} {cap : Nat} {t : Token Handle} {t' : Token String}
    {c c' : Context} (h : Tied base cap (t, c) (t', c')) (resolver : Option Resolver)
    (name : String) :
    (c.expand resolver name).1 = (c'.expand resolver name).1 ∧
      (c.expand resolver name).2.arena = c.arena ∧
      Tied base cap (t, (c.expand resolver name).2) (t', (c'.expand resolver name).2) := by
  have hc : c = { c' with arena := c.arena } := h.context
  have hexpand := expand_eq c' c.arena resolver name
  rw [← hc] at hexpand
  rw [hexpand]
  obtain ⟨d, hd, hl⟩ := h.last
  refine ⟨rfl, rfl, rfl, ⟨d, hd, ?_⟩, h.sound, h.holds, h.size_le⟩
  exact hl.trans (expand_lexer c' _ _).symm

end Descent
end XPath
