import XPath.Proofs.Arena

/-! Courses of calls of a table of texts. A table whose slots can all be told apart by their indices
is sound, whatever was done with it before. -/
namespace XPath.Arena

inductive Call
  | register (s : String)
  | get (h : Handle)
  | release (h : Handle)
  | releaseAll

inductive Answer
  | handle (h : Handle)
  | text (s : Option String)
  | count (n : Nat)

def Call.isRegister : Call → Bool
  | register _ => true
  | _ => false

/-- How many texts are put into the table. -/
def registrations (cs : List Call) : Nat :=
  cs.countP Call.isRegister

/-- The answer to one call, and the table behind it. -/
def call (a : Arena) : Call → Answer × Arena
  | .register s => (.handle (a.register s).1, (a.register s).2)
  | .get h => (.text (a.get? h), a)
  | .release h =>
    match a.release? h with
    | some (s, b) => (.text (some s), b)
    | none => (.text none, a)
  | .releaseAll => (.count a.releaseAll.1, a.releaseAll.2)

/-- The table behind calls in order. -/
def after (a : Arena) : List Call → Arena
  | [] => a
  | c :: cs => (a.call c).2.after cs

def answers (a : Arena) : List Call → List Answer
  | [] => []
  | c :: cs => (a.call c).1 :: (a.call c).2.answers cs

@[simp] theorem after_nil (a : Arena) : a.after [] = a := rfl

@[simp] theorem after_cons (a : Arena) (c : Call) (cs : List Call) :
    a.after (c :: cs) = (a.call c).2.after cs := rfl

theorem after_append (a : Arena) (cs ds : List Call) :
    a.after (cs ++ ds) = (a.after cs).after ds := by
  induction cs generalizing a with
  | nil => rfl
  | cons c cs ih => exact ih (a.call c).2

@[simp] theorem registrations_cons (c : Call) (cs : List Call) :
    registrations (c :: cs) = registrations cs + if c.isRegister then 1 else 0 :=
  List.countP_cons

theorem registrations_append (cs ds : List Call) :
    registrations (cs ++ ds) = registrations cs + registrations ds :=
  List.countP_append

theorem call_release_some {a : Arena} {h : Handle} {s : String} (hs : a.get? h = some s) :
    a.call (.release h) = (.text (some s), a.without h) := by
  simp only [call, release?_eq_some hs]

theorem call_release_none {a : Arena} {h : Handle} (hs : a.get? h = none) :
    a.call (.release h) = (.text none, a) := by
  simp only [call, release?_eq_none hs]

/-- No slot is ever given up. -/
theorem size_le_call (a : Arena) (c : Call) : a.slots.size ≤ (a.call c).2.slots.size := by
  cases c with
  | register s =>
    change a.slots.size ≤ (a.register s).2.slots.size
    unfold register
    split
    · simp [fill]
    · simp [fill]
  | get h => exact Nat.le_refl _
  | release h =>
    cases hs : a.get? h with
    | none => simp only [call_release_none hs, Nat.le_refl]
    | some s => simp only [call_release_some hs, size_without, Nat.le_refl]
  | releaseAll => exact Nat.le_of_eq (size_releaseAll a).symm

theorem size_le_after (a : Arena) (cs : List Call) : a.slots.size ≤ (a.after cs).slots.size := by
  induction cs generalizing a with
  | nil => exact Nat.le_refl _
  | cons c cs ih => exact Nat.le_trans (size_le_call a c) (ih (a.call c).2)

theorem sound_call {a : Arena} (ha : a.Sound) (c : Call)
    (hsize : (a.call c).2.slots.size ≤ UInt32.size) : (a.call c).2.Sound := by
  cases c with
  | register s =>
    have hgrown := size_register ha s
    have hle : (a.register s).2.slots.size ≤ UInt32.size := hsize
    exact sound_register ha (by omega) s
  | get h => exact ha
  | release h =>
    cases hs : a.get? h with
    | none =>
      rw [call_release_none hs]
      exact ha
    | some s =>
      rw [call_release_some hs]
      exact sound_without ha hs
  | releaseAll => exact sound_releaseAll ha

/-- As slots are never given up, it is enough that the table is not too large in the end. -/
theorem sound_after {a : Arena} (ha : a.Sound) (cs : List Call)
    (hsize : (a.after cs).slots.size ≤ UInt32.size) : (a.after cs).Sound := by
  induction cs generalizing a with
  | nil => exact ha
  | cons c cs ih =>
    have hle := size_le_after (a.call c).2 cs
    have hcall : (a.call c).2.Sound := sound_call ha c (Nat.le_trans hle hsize)
    exact ih hcall hsize

end XPath.Arena
