import XPath.Proofs.Token.Name

/-! The cursor only moves on in its text, whatever is read there and whatever fault is found. -/
namespace XPath.Cursor

/-- `d` is a place in the text of `c`, the same or a later one. -/
def Reaches (c d : Cursor) : Prop :=
  ∃ u, c.Over u d

theorem reaches_refl (c : Cursor) : c.Reaches c :=
  ⟨[], over_nil c⟩

theorem Reaches.trans {c d e : Cursor} (h : c.Reaches d) (h' : d.Reaches e) : c.Reaches e := by
  obtain ⟨u, hu⟩ := h
  obtain ⟨v, hv⟩ := h'
  exact ⟨u ++ v, hu.append hv⟩

theorem reaches_takeWhile (c : Cursor) (p : Char → Bool) : c.Reaches (c.takeWhile p).2 :=
  ⟨_, over_takeWhile c p⟩

theorem reaches_skipSpace (c : Cursor) : c.Reaches c.skipSpace :=
  reaches_takeWhile c isSpace

theorem reaches_advance {c : Cursor} {u v : List Char} (h : c.rest = u ++ v) :
    c.Reaches (c.advance u.length) :=
  ⟨u, over_advance h⟩

theorem reaches_one {c : Cursor} {x : Char} {r : List Char} (h : c.rest = x :: r) :
    c.Reaches (c.advance 1) :=
  reaches_advance (u := [x]) h

theorem reaches_ncName? {c d : Cursor} {n : String} (h : c.ncName? = some (n, d)) :
    c.Reaches d :=
  ⟨_, (ncName?_eq_some.mp h).2.1⟩

/-- In the text `s` and in no other, a place is known by its position. -/
theorem Reaches.rest_eq {s : String} {c : Cursor} (h : (ofString s).Reaches c) :
    c.rest = s.toList.drop c.position ∧ c.position ≤ s.toList.length := by
  obtain ⟨u, hu⟩ := h
  have hrest : s.toList = u ++ c.rest := hu.rest
  have hposition : c.position = u.length := hu.position.trans (Nat.zero_add _)
  constructor
  · rw [hrest, hposition, List.drop_left]
  · rw [hrest, hposition, List.length_append]
    omega

theorem Reaches.position_le {c d : Cursor} (h : c.Reaches d) : c.position ≤ d.position := by
  obtain ⟨u, hu⟩ := h
  rw [hu.position]
  omega

theorem reaches_literal (c : Cursor) (quote : Char) :
    (c.advance 1).Reaches (c.literal quote).2 := by
  have hvalue := reaches_takeWhile (c.advance 1) (· != quote)
  unfold literal
  dsimp only
  split
  · exact hvalue
  · next hclose => exact hvalue.trans (reaches_one hclose)

theorem reaches_number (c : Cursor) : c.Reaches c.number.2 := by
  have hwhole := reaches_takeWhile c Char.isDigit
  unfold number
  dsimp only
  split
  · next hdot =>
    have hfraction := reaches_takeWhile ((c.takeWhile Char.isDigit).2.advance 1) Char.isDigit
    exact (hwhole.trans (reaches_one hdot)).trans hfraction
  · exact hwhole

theorem reaches_variableReference (c : Cursor) : c.Reaches c.variableReference.2 := by
  unfold variableReference
  split
  · exact reaches_refl c
  · next name after hname =>
    have hspace := (reaches_ncName? hname).trans (reaches_skipSpace after)
    dsimp only
    split
    · exact hspace
    · next hcolon =>
      have hbehind := hspace.trans ((reaches_one hcolon).trans (reaches_skipSpace _))
      split
      · exact hbehind
      · next hlocal => exact hbehind.trans (reaches_ncName? hlocal)
    · exact hspace

theorem reaches_nameOrCallee (c : Cursor) (name : String) :
    c.Reaches (c.nameOrCallee name).2 := by
  rw [nameOrCallee_eq]
  exact reaches_skipSpace c

/-- A word goes on behind the name it begins with. -/
theorem reaches_word_of_name {c after : Cursor} {name : String} (op : Bool)
    (hname : c.ncName? = some (name, after)) : after.Reaches (c.word op).2 := by
  have hspace := reaches_skipSpace after
  unfold word
  rw [hname]
  dsimp only
  split
  · exact hspace
  · split
    · next hcolons =>
      have haxis := hspace.trans (reaches_advance (u := [':', ':']) hcolons)
      split
      · exact haxis
      · exact haxis
    · next hcolon =>
      have hbehind := hspace.trans ((reaches_one hcolon).trans (reaches_skipSpace _))
      split
      · next hstar => exact hbehind.trans (reaches_one hstar)
      · split
        · exact hbehind
        · next hlocal =>
          exact (hbehind.trans (reaches_ncName? hlocal)).trans (reaches_nameOrCallee _ _)
    · exact hspace.trans (reaches_nameOrCallee _ _)

theorem word_of_none {c : Cursor} (op : Bool) (hname : c.ncName? = none) :
    c.word op = (.mark (.error (.invalidNameStart c.position)), c) := by
  unfold word
  rw [hname]

theorem reaches_word (c : Cursor) (op : Bool) : c.Reaches (c.word op).2 := by
  cases hname : c.ncName? with
  | none =>
    rw [word_of_none op hname]
    exact reaches_refl c
  | some n => exact (reaches_ncName? hname).trans (reaches_word_of_name op hname)

/-- Reading a token never goes back and never leaves the text. -/
theorem reaches_scan (c : Cursor) (op : Bool) : c.Reaches (c.scan op).2 := by
  apply (reaches_skipSpace c).trans
  unfold scan
  dsimp only
  split
  · next hmark =>
    obtain ⟨l, rest, -, hrest, rfl, -⟩ := ofChars?_eq_some hmark
    exact reaches_advance hrest
  · split
    · exact reaches_refl _
    · next hquote => exact (reaches_one hquote).trans (reaches_literal _ _)
    · next hquote => exact (reaches_one hquote).trans (reaches_literal _ _)
    · exact reaches_refl _
    · next hdollar => exact (reaches_one hdollar).trans (reaches_variableReference _)
    · next hstar => exact reaches_one hstar
    · split
      · exact reaches_number _
      · exact reaches_word _ op

end XPath.Cursor
