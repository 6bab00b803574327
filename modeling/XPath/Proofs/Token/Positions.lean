import XPath.Proofs.Token.Progress

/-! Reading a token by positions in the whole text. A look ahead finds nothing behind the end. But a
character or a part of the text that is taken must be there: where it is not, there is no answer. -/
namespace XPath.ByPosition

/-- The part of a text from `i` up to `j`, if it has one. -/
def part? (s : List Char) (i j : Nat) : Option (List Char) :=
  if i ≤ j ∧ j ≤ s.length then some ((s.drop i).take (j - i)) else none

/-- Behind the characters from `i` on that satisfy `p`. -/
def runEnd (s : List Char) (p : Char → Bool) (i : Nat) : Nat :=
  i + ((s.drop i).takeWhile p).length

/-- A name without a colon, if one begins at `i`, and the position behind it. -/
def ncName? (s : List Char) (i : Nat) : Option (Option (String × Nat)) := do
  match s.drop i with
  | [] => return none
  | first :: _ =>
    if classify first = .nameStart then
      let j := runEnd s inName (i + 1)
      let name ← part? s i j
      return some (String.ofList name, j)
    else return none

def literal? (s : List Char) (i : Nat) : Option (Token String × Nat) := do
  let quote ← s[i]?
  let behind ← part? s (i + 1) s.length
  match behind.findIdx? (· == quote) with
  | none => return (.mark (.error (.unterminatedLiteral i)), s.length)
  | some n =>
    let value ← part? s (i + 1) (i + 1 + n)
    return (.text .literal (String.ofList value), i + 1 + n + 1)

def number? (s : List Char) (i : Nat) : Option (Token String × Nat) := do
  let whole := runEnd s Char.isDigit i
  let stop := match s.drop whole with
    | '.' :: _ => runEnd s Char.isDigit (whole + 1)
    | _ => whole
  let numeral ← part? s i stop
  return (.text .number (String.ofList numeral), stop)

def variableReference? (s : List Char) (i : Nat) : Option (Token String × Nat) := do
  match ← ncName? s i with
  | none => return (.mark (.error (.malformedQName i)), i)
  | some (name, after) =>
    let j := runEnd s isSpace after
    match s.drop j with
    | ':' :: ':' :: _ => return (.text .variableReference name, j)
    | ':' :: _ =>
      let k := runEnd s isSpace (j + 1)
      match ← ncName? s k with
      | none => return (.mark (.error (.malformedQName i)), k)
      | some (localName, after) =>
        return (.text .variableReference (qualified name localName), after)
    | _ => return (.text .variableReference name, j)

def nameOrCallee (s : List Char) (i : Nat) (name : String) : Token String × Nat :=
  let j := runEnd s isSpace i
  match s.drop j with
  | '(' :: _ => (.text (.ofCallee name) name, j)
  | _ => (.text .nameTest name, j)

def word? (s : List Char) (i : Nat) (expectsOperator : Bool) : Option (Token String × Nat) := do
  match ← ncName? s i with
  | none => return (.mark (.error (.invalidNameStart i)), i)
  | some (name, after) =>
    let j := runEnd s isSpace after
    match if expectsOperator then BinaryOp.ofWord? name else none with
    | some o => return (.mark (.op o), j)
    | none =>
      match s.drop j with
      | ':' :: ':' :: _ =>
        match Axis.ofName? name with
        | some a => return (.mark (.axis a), j + 2)
        | none => return (.mark (.error (.unknownAxis name)), j + 2)
      | ':' :: _ =>
        let k := runEnd s isSpace (j + 1)
        match s.drop k with
        | '*' :: _ => return (.text .nameTest (qualified name "*"), k + 1)
        | _ =>
          match ← ncName? s k with
          | none => return (.mark (.error (.malformedQName k)), k)
          | some (localName, after) => return nameOrCallee s after (qualified name localName)
      | _ => return nameOrCallee s j name

/-- The token read from `start` on, and the position behind it. -/
def scan? (s : List Char) (start : Nat) (expectsOperator : Bool) :
    Option (Token String × Nat) := do
  let i := runEnd s isSpace start
  match Mark.ofChars? (s.drop i) with
  | some (m, n) => return (.mark m, i + n)
  | none =>
    match s.drop i with
    | [] => return (.mark .endOfInput, i)
    | '\'' :: _ | '"' :: _ => literal? s i
    | '!' :: _ => return (.mark (.error (.loneBang i)), i)
    | '$' :: _ => variableReference? s (i + 1)
    | '*' :: _ =>
      return (if expectsOperator then .mark (.op .multiply) else .text .nameTest "*", i + 1)
    | first :: _ =>
      if first == '.' || first.isDigit then number? s i else word? s i expectsOperator

section
variable {s : String} {c d : Cursor}

/-- What was read, with the position of the cursor behind it. -/
def located {α : Type} (r : α × Cursor) : α × Nat :=
  (r.1, r.2.position)

theorem drop_eq (h : (Cursor.ofString s).Reaches c) : s.toList.drop c.position = c.rest :=
  h.rest_eq.1.symm

theorem runEnd_eq (h : (Cursor.ofString s).Reaches c) (p : Char → Bool) :
    runEnd s.toList p c.position = (c.takeWhile p).2.position := by
  unfold runEnd
  rw [drop_eq h]
  rfl

/-- A run goes on behind a character that belongs to it. -/
theorem runEnd_one (h : (Cursor.ofString s).Reaches c) {p : Char → Bool} {x : Char} {r : List Char}
    (hrest : c.rest = x :: r) (hx : p x = true) :
    runEnd s.toList p (c.position + 1) = (c.takeWhile p).2.position := by
  have hr : s.toList.drop (c.position + 1) = r := by
    rw [← List.tail_drop, drop_eq h, hrest, List.tail_cons]
  have hrun : (c.takeWhile p).2.position = c.position + (c.rest.takeWhile p).length := rfl
  unfold runEnd
  rw [hr, hrun, hrest, List.takeWhile_cons_of_pos hx, List.length_cons]
  omega

/-- What a cursor moves over is a part of the text. -/
theorem part?_eq {u : List Char} (h : (Cursor.ofString s).Reaches c) (hu : c.Over u d) :
    part? s.toList c.position d.position = some u := by
  have hle : c.position ≤ d.position := by
    rw [hu.position]
    omega
  unfold part?
  rw [if_pos ⟨hle, (h.trans ⟨u, hu⟩).rest_eq.2⟩, drop_eq h, hu.rest, hu.position,
    Nat.add_sub_cancel_left, List.take_left]

theorem ncName?_eq (h : (Cursor.ofString s).Reaches c) :
    ncName? s.toList c.position = some (c.ncName?.map located) := by
  unfold ncName? Cursor.ncName?
  rw [drop_eq h]
  cases hrest : c.rest with
  | nil => rfl
  | cons first r =>
    dsimp only
    by_cases hstart : classify first = .nameStart
    · have hin : inName first = true := by simp [inName, hstart]
      rw [if_pos hstart, if_pos hstart, runEnd_one h hrest hin,
        part?_eq h (Cursor.over_takeWhile c inName)]
      rfl
    · rw [if_neg hstart, if_neg hstart]
      rfl

/-- A character is found behind the longest run of others. -/
theorem findIdx?_eq (x : Char) (r : List Char) :
    r.findIdx? (· == x) =
      match r.dropWhile (· != x) with
      | [] => none
      | _ :: _ => some (r.takeWhile (· != x)).length := by
  induction r with
  | nil => rfl
  | cons y r ih =>
    rw [List.findIdx?_cons, List.dropWhile_cons, List.takeWhile_cons, ih, bne]
    cases y == x with
    | true => rfl
    | false =>
      simp only [Bool.not_false, if_true, Bool.false_eq_true, if_false]
      cases r.dropWhile (· != x) <;> rfl

theorem literal?_eq (h : (Cursor.ofString s).Reaches c) {quote : Char} {r : List Char}
    (hrest : c.rest = quote :: r) :
    literal? s.toList c.position = some (located (c.literal quote)) := by
  have hquote : s.toList[c.position]? = some quote := by
    rw [← List.head?_drop, drop_eq h, hrest, List.head?_cons]
  have hopen := h.trans (Cursor.reaches_one hrest)
  have hposition : (c.advance 1).position = c.position + 1 := rfl
  have hlength : s.toList.length = c.position + 1 + (c.advance 1).rest.length := by
    obtain ⟨hr, hle⟩ := hopen.rest_eq
    rw [hr, List.length_drop]
    omega
  have hbehind := part?_eq hopen (Cursor.over_advance (List.append_nil (c.advance 1).rest).symm)
  have hvalue := Cursor.over_takeWhile (c.advance 1) (· != quote)
  have hinside := part?_eq hopen hvalue
  have hclose := Cursor.rest_takeWhile (· != quote) (c.advance 1)
  change part? s.toList (c.position + 1) (c.position + 1 + (c.advance 1).rest.length) = _ at hbehind
  rw [hvalue.position, hposition] at hinside
  unfold literal? Cursor.literal
  dsimp only
  rw [hquote, hlength, hclose]
  dsimp only [bind, Option.bind]
  rw [hbehind]
  dsimp only
  rw [findIdx?_eq]
  cases hdrop : (c.advance 1).rest.dropWhile (· != quote) with
  | nil =>
    have hwhole := hvalue.rest
    rw [hclose, hdrop, List.append_nil] at hwhole
    have hend := hvalue.position
    rw [← hwhole, hposition] at hend
    rw [← hend]
    rfl
  | cons y tail =>
    dsimp only
    rw [hinside]
    rfl

theorem number?_eq (h : (Cursor.ofString s).Reaches c) :
    number? s.toList c.position = some (located c.number) := by
  have hwhole := Cursor.over_takeWhile c Char.isDigit
  have hstop := h.trans ⟨_, hwhole⟩
  unfold number? Cursor.number
  dsimp only
  rw [runEnd_eq h, drop_eq hstop]
  generalize hrest : (c.takeWhile Char.isDigit).2.rest = rest
  split
  · next r =>
    have hbehind := hstop.trans (Cursor.reaches_one hrest)
    have hfraction := Cursor.over_takeWhile ((c.takeWhile Char.isDigit).2.advance 1) Char.isDigit
    have hall := (hwhole.append (Cursor.over_advance (u := ['.']) hrest)).append hfraction
    have hfrom := runEnd_eq hbehind Char.isDigit
    change runEnd _ _ ((c.takeWhile Char.isDigit).2.position + 1) = _ at hfrom
    rw [hfrom, part?_eq h hall, List.append_assoc]
    rfl
  · rw [part?_eq h hwhole]
    simp [*, located]
    rfl

theorem runEnd_isSpace (h : (Cursor.ofString s).Reaches c) :
    runEnd s.toList isSpace c.position = c.skipSpace.position :=
  runEnd_eq h isSpace

theorem variableReference?_eq (h : (Cursor.ofString s).Reaches c) :
    variableReference? s.toList c.position = some (located c.variableReference) := by
  unfold variableReference? Cursor.variableReference
  rw [ncName?_eq h]
  cases hname : c.ncName? with
  | none => rfl
  | some n =>
    obtain ⟨name, after⟩ := n
    have hafter := h.trans (Cursor.reaches_ncName? hname)
    have hspace := hafter.trans (Cursor.reaches_skipSpace after)
    dsimp only [Option.map, located, bind, Option.bind]
    rw [runEnd_isSpace hafter, drop_eq hspace]
    generalize hrest : after.skipSpace.rest = rest
    split
    · rfl
    · have hbehind := hspace.trans (Cursor.reaches_one hrest)
      have hskip := runEnd_isSpace hbehind
      change runEnd _ _ (after.skipSpace.position + 1) = _ at hskip
      rw [hskip, ncName?_eq (hbehind.trans (Cursor.reaches_skipSpace _))]
      cases (after.skipSpace.advance 1).skipSpace.ncName? <;> simp [*, located]
    · simp [*]

theorem nameOrCallee_eq (h : (Cursor.ofString s).Reaches c) (name : String) :
    nameOrCallee s.toList c.position name = located (c.nameOrCallee name) := by
  unfold nameOrCallee Cursor.nameOrCallee
  dsimp only
  rw [runEnd_isSpace h, drop_eq (h.trans (Cursor.reaches_skipSpace c))]
  split <;> simp [*, located]

theorem word?_eq (h : (Cursor.ofString s).Reaches c) (op : Bool) :
    word? s.toList c.position op = some (located (c.word op)) := by
  unfold word? Cursor.word
  rw [ncName?_eq h]
  cases hname : c.ncName? with
  | none => rfl
  | some n =>
    obtain ⟨name, after⟩ := n
    have hafter := h.trans (Cursor.reaches_ncName? hname)
    have hspace := hafter.trans (Cursor.reaches_skipSpace after)
    have hadvance (d : Cursor) (k : Nat) : (d.advance k).position = d.position + k := rfl
    dsimp only [Option.map, located, bind, Option.bind]
    rw [runEnd_isSpace hafter, drop_eq hspace]
    cases if op = true then BinaryOp.ofWord? name else none with
    | some o => rfl
    | none =>
      dsimp only
      generalize hrest : after.skipSpace.rest = rest
      split
      · cases Axis.ofName? name <;> rfl
      · have hbehind := hspace.trans (Cursor.reaches_one hrest)
        have hskip := runEnd_isSpace hbehind
        have hlocal := hbehind.trans (Cursor.reaches_skipSpace _)
        rw [hadvance] at hskip
        rw [hskip, drop_eq hlocal, ncName?_eq hlocal]
        dsimp only
        generalize (after.skipSpace.advance 1).skipSpace.rest = rest
        split
        · simp [*]
        · cases hname' : (after.skipSpace.advance 1).skipSpace.ncName? with
          | none => simp [*]
          | some n =>
            have hcallee := nameOrCallee_eq (hlocal.trans (Cursor.reaches_ncName? hname'))
              (qualified name n.1)
            simp [*, located]
      · have hcallee := nameOrCallee_eq hspace name
        simp [*, located]

theorem scan?_eq (h : (Cursor.ofString s).Reaches c) (op : Bool) :
    scan? s.toList c.position op = some (located (c.scan op)) := by
  have hspace := h.trans (Cursor.reaches_skipSpace c)
  unfold scan? Cursor.scan
  dsimp only
  rw [runEnd_isSpace h, drop_eq hspace]
  cases hmark : Mark.ofChars? c.skipSpace.rest with
  | some m => rfl
  | none =>
    dsimp only
    generalize hrest : c.skipSpace.rest = rest
    split
    · rfl
    · exact literal?_eq hspace hrest
    · exact literal?_eq hspace hrest
    · rfl
    · exact variableReference?_eq (hspace.trans (Cursor.reaches_one hrest))
    · rfl
    · split
      · simp [*, number?_eq hspace]
      · simp [*, word?_eq hspace]

end

end XPath.ByPosition
