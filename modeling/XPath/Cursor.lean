import XPath.CharClass

/-! A place in the text of an expression, counted in characters from its beginning. -/
namespace XPath

structure Cursor where
  position : Nat
  rest : List Char

namespace Cursor

def ofString (s : String) : Cursor :=
  ⟨0, s.toList⟩

/-- The length of the whole text. -/
def length (c : Cursor) : Nat :=
  c.position + c.rest.length

/-- `n` characters on. There must be as many. -/
def advance (c : Cursor) (n : Nat) : Cursor :=
  ⟨c.position + n, c.rest.drop n⟩

/-- The longest run of characters that satisfy `p`, and the cursor behind it. -/
def takeWhile (p : Char → Bool) (c : Cursor) : List Char × Cursor :=
  let run := c.rest.takeWhile p
  (run, c.advance run.length)

def skipSpace (c : Cursor) : Cursor :=
  (c.takeWhile isSpace).2

/-- The longest name without a colon that begins here, if one does. -/
def ncName? (c : Cursor) : Option (String × Cursor) :=
  match c.rest with
  | [] => none
  | first :: _ =>
    if classify first = .nameStart then
      let (name, after) := c.takeWhile (fun x => classify x ≠ .notPartOfName)
      some (String.ofList name, after)
    else none

theorem length_advance {c : Cursor} {n : Nat} (h : n ≤ c.rest.length) :
    (c.advance n).length = c.length := by
  simp only [length, advance, List.length_drop]
  omega

theorem length_takeWhile (p : Char → Bool) (c : Cursor) : (c.takeWhile p).2.length = c.length :=
  length_advance (List.takeWhile_prefix p).length_le

theorem rest_takeWhile (p : Char → Bool) (c : Cursor) :
    (c.takeWhile p).2.rest = c.rest.dropWhile p := by
  have h : c.rest.takeWhile p ++ c.rest.dropWhile p = c.rest := List.takeWhile_append_dropWhile
  calc c.rest.drop (c.rest.takeWhile p).length
      = (c.rest.takeWhile p ++ c.rest.dropWhile p).drop (c.rest.takeWhile p).length := by rw [h]
    _ = c.rest.dropWhile p := List.drop_left

@[simp] theorem length_skipSpace (c : Cursor) : c.skipSpace.length = c.length :=
  length_takeWhile isSpace c

end Cursor
end XPath
