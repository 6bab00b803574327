import Mathlib.Data.List.DropRight
import Mathlib.Data.List.TakeWhile
import XPath.Cursor

/-! Cursors that move over blanks and names. A run of characters is always the longest one, so it is
known by what it consists of and by the character that ends it. -/
namespace XPath

/-- No first character of `l` satisfies `p`. -/
def EndsRun (p : Char → Bool) (l : List Char) : Prop :=
  ∀ x, l.head? = some x → p x = false

theorem endsRun_nil (p : Char → Bool) : EndsRun p [] := by
  intro x hx
  cases hx

theorem endsRun_cons {p : Char → Bool} {x : Char} {l : List Char} :
    EndsRun p (x :: l) ↔ p x = false := by
  constructor
  · exact fun h => h x rfl
  · rintro h y ⟨⟩
    exact h

theorem endsRun_dropWhile (p : Char → Bool) (l : List Char) : EndsRun p (l.dropWhile p) := by
  induction l with
  | nil => exact endsRun_nil p
  | cons x l ih =>
    cases hx : p x with
    | true => simpa [hx] using ih
    | false => simp [hx, endsRun_cons]

theorem takeWhile_append {p : Char → Bool} {u v : List Char} (hu : ∀ x ∈ u, p x = true)
    (hv : EndsRun p v) : (u ++ v).takeWhile p = u := by
  rw [List.takeWhile_append_of_pos hu]
  cases v with
  | nil => simp
  | cons x v => simp [endsRun_cons.mp hv]

theorem dropWhile_append {p : Char → Bool} {u v : List Char} (hu : ∀ x ∈ u, p x = true)
    (hv : EndsRun p v) : (u ++ v).dropWhile p = v := by
  rw [List.dropWhile_append_of_pos hu]
  cases v with
  | nil => simp
  | cons x v => simp [endsRun_cons.mp hv]

/-- Characters that are skipped between tokens. -/
def Blank (w : List Char) : Prop :=
  ∀ x ∈ w, isSpace x = true

theorem blank_nil : Blank [] := by
  intro x hx
  cases hx

theorem blank_singleton {x : Char} (hx : isSpace x = true) : Blank [x] := by
  intro y hy
  rwa [List.mem_singleton.mp hy]

theorem Blank.append {w v : List Char} (hw : Blank w) (hv : Blank v) : Blank (w ++ v) :=
  List.forall_mem_append.mpr ⟨hw, hv⟩

theorem blank_takeWhile (l : List Char) : Blank (l.takeWhile isSpace) :=
  fun _ hx => List.mem_takeWhile_imp hx

/-- Whether a character goes on with a name that has begun. -/
def inName (x : Char) : Bool :=
  classify x ≠ .notPartOfName

/-- A name without a colon. -/
def IsNCName (s : String) : Prop :=
  ∃ first rest, s.toList = first :: rest ∧ classify first = .nameStart ∧ ∀ x ∈ rest, inName x = true

theorem isNCName_iff {s : String} : IsNCName s ↔
    (match s.toList with
      | [] => false
      | first :: rest => classify first == .nameStart && rest.all inName) = true := by
  unfold IsNCName
  cases s.toList with
  | nil => simp
  | cons first rest =>
    rw [Bool.and_eq_true, beq_iff_eq, List.all_eq_true]
    constructor
    · rintro ⟨x, xs, heq, h⟩
      obtain ⟨rfl, rfl⟩ := List.cons.inj heq
      exact h
    · exact fun h => ⟨first, rest, rfl, h⟩

instance (s : String) : Decidable (IsNCName s) :=
  decidable_of_iff _ isNCName_iff.symm

theorem IsNCName.inName {s : String} (h : IsNCName s) : ∀ x ∈ s.toList, inName x = true := by
  obtain ⟨first, rest, hs, hfirst, hrest⟩ := h
  rw [hs]
  intro x hx
  rcases List.mem_cons.mp hx with rfl | hx
  · simp [XPath.inName, hfirst]
  · exact hrest x hx

theorem IsNCName.ne_nil {s : String} (h : IsNCName s) : s.toList ≠ [] := by
  obtain ⟨first, rest, hs, -, -⟩ := h
  simp [hs]

namespace Cursor

/-- `d` is where `c` comes to behind the characters `u`. -/
structure Over (c : Cursor) (u : List Char) (d : Cursor) : Prop where
  rest : c.rest = u ++ d.rest
  position : d.position = c.position + u.length

theorem over_nil (c : Cursor) : c.Over [] c := ⟨rfl, rfl⟩

theorem Over.append {c d e : Cursor} {u v : List Char} (h : c.Over u d) (h' : d.Over v e) :
    c.Over (u ++ v) e where
  rest := by rw [h.rest, h'.rest, List.append_assoc]
  position := by rw [h'.position, h.position, List.length_append, Nat.add_assoc]

theorem over_advance {c : Cursor} {u v : List Char} (h : c.rest = u ++ v) :
    c.Over u (c.advance u.length) where
  rest := by simp [advance, h]
  position := rfl

theorem rest_advance {c : Cursor} {u v : List Char} (h : c.rest = u ++ v) :
    (c.advance u.length).rest = v := by
  simp [advance, h]

theorem takeWhile_eq {c : Cursor} {p : Char → Bool} {u v : List Char} (h : c.rest = u ++ v)
    (hu : ∀ x ∈ u, p x = true) (hv : EndsRun p v) :
    c.takeWhile p = (u, c.advance u.length) := by
  have hrun : c.rest.takeWhile p = u := by rw [h, takeWhile_append hu hv]
  unfold Cursor.takeWhile
  rw [hrun]

theorem Over.eq_advance {c d : Cursor} {u : List Char} (h : c.Over u d) :
    d = c.advance u.length := by
  have hrest : d.rest = c.rest.drop u.length := by simp [h.rest]
  have hd : d = ⟨d.position, d.rest⟩ := rfl
  rw [hd, h.position, hrest]
  rfl

theorem over_takeWhile (c : Cursor) (p : Char → Bool) :
    c.Over (c.rest.takeWhile p) (c.takeWhile p).2 :=
  over_advance List.takeWhile_append_dropWhile.symm

theorem over_skipSpace (c : Cursor) : c.Over (c.rest.takeWhile isSpace) c.skipSpace :=
  over_takeWhile c isSpace

theorem rest_skipSpace (c : Cursor) : c.skipSpace.rest = c.rest.dropWhile isSpace :=
  rest_takeWhile isSpace c

/-- A name is read exactly where one begins, and to its end. -/
theorem ncName?_eq_some {c d : Cursor} {n : String} :
    c.ncName? = some (n, d) ↔ IsNCName n ∧ c.Over n.toList d ∧ EndsRun inName d.rest := by
  unfold ncName?
  constructor
  · intro h
    cases hc : c.rest with
    | nil => simp [hc] at h
    | cons first rest =>
      by_cases hfirst : classify first = .nameStart
      · simp only [hc, if_pos hfirst, Option.some.injEq, Prod.mk.injEq] at h
        obtain ⟨rfl, rfl⟩ := h
        have hin : inName first = true := by simp [inName, hfirst]
        have hrun : c.rest.takeWhile inName = first :: rest.takeWhile inName := by
          rw [hc, List.takeWhile_cons_of_pos hin]
        refine ⟨⟨first, rest.takeWhile inName, ?_, hfirst, fun x hx => List.mem_takeWhile_imp hx⟩,
          ?_, ?_⟩
        · rw [String.toList_ofList]
          exact hrun
        · rw [String.toList_ofList]
          exact over_takeWhile c inName
        · exact rest_takeWhile inName c ▸ endsRun_dropWhile inName c.rest
      · simp [hc, if_neg hfirst] at h
  · rintro ⟨hn, hover, hend⟩
    obtain ⟨first, rest, hs, hfirst, -⟩ := id hn
    have hc : c.rest = first :: (rest ++ d.rest) := by rw [hover.rest, hs, List.cons_append]
    have htake : c.takeWhile inName = (n.toList, d) := by
      rw [takeWhile_eq hover.rest hn.inName hend, ← hover.eq_advance]
    simp only [hc, if_pos hfirst]
    change some (String.ofList (c.takeWhile inName).1, (c.takeWhile inName).2) = _
    rw [htake, String.ofList_toList]

end Cursor
end XPath
