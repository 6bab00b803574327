import XPath.Proofs.Token.Spelling

/-! Marks, literals and numbers: each is read exactly where it is written and nothing goes on
with it. -/
namespace XPath

theorem inName_of_isSpace {x : Char} (h : isSpace x = true) : inName x = false := by
  simp only [isSpace, Bool.or_eq_true, beq_iff_eq] at h
  rcases h with ((((rfl | rfl) | rfl) | rfl) | rfl) | rfl <;> decide

theorem isDigit_iff {x : Char} : x.isDigit = true ↔ 48 ≤ x.toNat ∧ x.toNat ≤ 57 := by
  unfold Char.isDigit
  rw [Bool.and_eq_true, decide_eq_true_eq, decide_eq_true_eq]
  exact Iff.rfl

theorem classify_of_isDigit {x : Char} (h : x.isDigit = true) : classify x ≠ .nameStart := by
  rw [isDigit_iff] at h
  have hw : CodePoint.within x.toNat CharClass.startRanges = false := by
    unfold CharClass.startRanges CodePoint.within
    rw [if_pos (by omega)]
  unfold classify CharClass.ofCodePoint
  rw [hw, if_neg Bool.false_ne_true]
  split <;> exact CharClass.noConfusion

theorem isSpace_of_isDigit {x : Char} (h : x.isDigit = true) : isSpace x = false := by
  cases hs : isSpace x with
  | false => rfl
  | true =>
    simp only [isSpace, Bool.or_eq_true, beq_iff_eq] at hs
    rcases hs with ((((rfl | rfl) | rfl) | rfl) | rfl) | rfl <;> simp [Char.isDigit] at h

private theorem ne_cons_of_endsRun {y : Char} {rest : List Char} (h : EndsRun (· == y) rest)
    (tail : List Char) (hr : rest = y :: tail) : False := by
  subst hr
  simpa using endsRun_cons.mp h

theorem endsRun_of_ne_cons {y : Char} {rest : List Char}
    (h : ∀ tail, rest = y :: tail → False) : EndsRun (· == y) rest := by
  cases rest with
  | nil => exact endsRun_nil _
  | cons x tail => exact endsRun_cons.mpr (by simpa using fun hx => h tail (by rw [hx]))

/-- Marks of one character that begin another mark, with the character that goes on with them. -/
def shortMarks : List (Mark × Char × Char) :=
  [(.slash, '/', '/'), (.op .lessThan, '<', '='), (.op .greaterThan, '>', '=')]

theorem ofChars?_short {m : Mark} {x y : Char} {rest : List Char} (hm : (m, x, y) ∈ shortMarks)
    (h : EndsRun (· == y) rest) : Mark.ofChars? (x :: rest) = some (m, 1) := by
  simp only [shortMarks, List.mem_cons, Prod.mk.injEq, List.not_mem_nil, or_false] at hm
  rcases hm with ⟨rfl, rfl, rfl⟩ | ⟨rfl, rfl, rfl⟩ | ⟨rfl, rfl, rfl⟩
  all_goals
    rw [Mark.ofChars?]
    exact ne_cons_of_endsRun h

private theorem ofChars?_dot {rest : List Char}
    (h : EndsRun (fun x => x == '.' || x.isDigit) rest) :
    Mark.ofChars? ('.' :: rest) = some (.dot, 1) := by
  cases rest with
  | nil => rfl
  | cons x rest =>
    have hx := Bool.or_eq_false_iff.mp (endsRun_cons.mp h)
    rw [Mark.ofChars?, if_neg (by simp [hx.2])]
    simpa using hx.1

theorem ofChars?_spelling {m : Mark} {l rest : List Char} (hl : m.spelling? = some l)
    (hm : ∀ o, m = .op o → o.tokenKind ∉ [TokenKind.and, .or, .multiplicative])
    (hend : EndsRun (Token.mark m).goesOn rest) :
    Mark.ofChars? (l ++ rest) = some (m, l.length) := by
  cases m with
  | op o =>
    have ho := hm o rfl
    obtain rfl := Option.some.inj hl
    cases o with
    | lessThan =>
      have hmem : (Mark.op .lessThan, '<', '=') ∈ shortMarks := .tail _ (.head _)
      exact ofChars?_short hmem hend
    | greaterThan =>
      have hmem : (Mark.op .greaterThan, '>', '=') ∈ shortMarks := .tail _ (.tail _ (.head _))
      exact ofChars?_short hmem hend
    | and | or | multiply | divide | modulo => simp [BinaryOp.tokenKind] at ho
    | _ => rfl
  | slash =>
    obtain rfl := Option.some.inj hl
    exact ofChars?_short List.mem_cons_self hend
  | dot =>
    obtain rfl := Option.some.inj hl
    exact ofChars?_dot hend
  | endOfInput | error | axis => cases hl
  | _ =>
    obtain rfl := Option.some.inj hl
    rfl

/-- A mark is read where it is written and nothing goes on with it. -/
theorem ofChars?_eq_some {r : List Char} {m : Mark} {n : Nat} (h : Mark.ofChars? r = some (m, n)) :
    ∃ l rest, m.spelling? = some l ∧ r = l ++ rest ∧ n = l.length ∧
      EndsRun (Token.mark m).goesOn rest ∧
      ∀ o, m = .op o → o.tokenKind ∉ [TokenKind.and, .or, .multiplicative] := by
  unfold Mark.ofChars? at h
  split at h
  case h_9 c tail hc =>
    split at h
    · cases h
    · next hdigit =>
      cases h
      refine ⟨['.'], c :: tail, rfl, rfl, rfl, endsRun_cons.mpr ?_, by rintro o ⟨⟩⟩
      exact Bool.or_eq_false_iff.mpr ⟨by simpa using hc, by simpa using hdigit⟩
  case h_10 =>
    cases h
    exact ⟨['.'], [], rfl, rfl, rfl, endsRun_nil _, by rintro o ⟨⟩⟩
  case h_12 tail hs =>
    cases h
    exact ⟨['/'], tail, rfl, rfl, rfl, endsRun_of_ne_cons hs, by rintro o ⟨⟩⟩
  case h_18 tail hs =>
    cases h
    exact ⟨['<'], tail, rfl, rfl, rfl, endsRun_of_ne_cons hs, by rintro o ⟨⟩; decide⟩
  case h_20 tail hs =>
    cases h
    exact ⟨['>'], tail, rfl, rfl, rfl, endsRun_of_ne_cons hs, by rintro o ⟨⟩; decide⟩
  -- Nothing goes on with the other marks.
  all_goals cases h
  all_goals exact ⟨_, _, rfl, rfl, rfl, fun _ _ => rfl, by rintro o ⟨⟩ <;> decide⟩

namespace Cursor

/-- From `c` on, a token written as `l` is read, and the cursor comes to `d`. The token cannot be
longer, and it fits between what is expected and what follows. -/
structure Reads (c : Cursor) (expectsOperator : Bool) (t : Token String) (l : List Char)
    (d : Cursor) : Prop where
  spells : Spells t l
  moves : ∃ w, Blank w ∧ c.Over (l ++ w) d ∧ EndsRun t.goesOn (w ++ d.rest)
  fits : t.Fits expectsOperator ((d.rest.dropWhile isSpace).head? = some '(')

theorem literal_sound {c d : Cursor} {quote : Char} {r : List Char} {t : Token String} {op : Bool}
    (hq : quote = '\'' ∨ quote = '"') (hc : c.rest = quote :: r) (h : c.literal quote = (t, d))
    (ht : t.isFinal = false) : ∃ l, c.Reads op t l d := by
  have hopen := over_advance (c := c) (u := [quote]) hc
  have hvalue := over_takeWhile (c.advance 1) (· != quote)
  unfold literal at h
  generalize hclose : (c.advance 1).takeWhile (· != quote) = close at h hvalue
  obtain ⟨value, close⟩ := close
  have hrun : value = (c.advance 1).rest.takeWhile (· != quote) := by
    rw [← show _ = value from congrArg Prod.fst hclose]
    rfl
  have hnot : quote ∉ value := by
    intro hmem
    rw [hrun] at hmem
    simpa using List.mem_takeWhile_imp hmem
  rw [← hrun] at hvalue
  dsimp only at h hvalue
  cases hrest : close.rest with
  | nil =>
    rw [hrest] at h
    obtain ⟨rfl, -⟩ := Prod.mk.inj h
    cases ht
  | cons x rest =>
    rw [hrest] at h
    obtain ⟨rfl, rfl⟩ := Prod.mk.inj h
    have hx : x = quote := by
      have hend := endsRun_dropWhile (· != quote) (c.advance 1).rest
      rw [← rest_takeWhile, hclose, hrest, endsRun_cons] at hend
      simpa using hend
    have hlast := over_advance (c := close) (u := [x]) hrest
    refine ⟨quote :: value ++ [quote], ?_, ⟨[], blank_nil, ?_, fun _ _ => rfl⟩, ?_⟩
    · simpa using Spells.literal (s := String.ofList value) hq (by simpa using hnot)
    · simpa [hx] using (hopen.append hvalue).append hlast
    · rcases hq with rfl | rfl
      · exact Or.inl (by simpa using hnot)
      · exact Or.inr (by simpa using hnot)

theorem literal_complete {c : Cursor} {quote : Char} {s : String} {rest : List Char}
    (hs : quote ∉ s.toList) (hc : c.rest = (quote :: s.toList ++ [quote]) ++ rest) :
    ∃ d, c.literal quote = (.text .literal s, d) ∧ c.Over (quote :: s.toList ++ [quote]) d := by
  have hfirst : c.rest = [quote] ++ (s.toList ++ ([quote] ++ rest)) := by simp [hc]
  have hvalue := rest_advance hfirst
  have hlast := rest_advance hvalue
  have hrun : (c.advance 1).takeWhile (· != quote) =
      (s.toList, (c.advance 1).advance s.toList.length) := by
    refine takeWhile_eq hvalue (fun x hx => ?_) (endsRun_cons.mpr (by simp))
    have hne : x ≠ quote := fun hxq => hs (hxq ▸ hx)
    simpa using hne
  refine ⟨((c.advance 1).advance s.toList.length).advance 1, ?_, ?_⟩
  · unfold literal
    rw [hrun]
    dsimp only
    rw [show ((c.advance 1).advance s.toList.length).rest = quote :: rest from hlast,
      String.ofList_toList]
  · simpa using ((over_advance hfirst).append (over_advance hvalue)).append (over_advance hlast)

theorem number_whole {c : Cursor} {whole rest : List Char} (hc : c.rest = whole ++ rest)
    (hw : ∀ x ∈ whole, x.isDigit = true) (hend : EndsRun (fun x => x.isDigit || x == '.') rest) :
    c.number = (.text .number (String.ofList whole), c.advance whole.length) := by
  have hstop : EndsRun Char.isDigit rest := fun x hx => (Bool.or_eq_false_iff.mp (hend x hx)).1
  unfold number
  rw [takeWhile_eq hc hw hstop]
  dsimp only
  rw [rest_advance hc]
  split
  · cases endsRun_cons.mp hend
  · rfl

theorem number_dotted {c : Cursor} {whole fraction rest : List Char}
    (hc : c.rest = (whole ++ '.' :: fraction) ++ rest) (hw : ∀ x ∈ whole, x.isDigit = true)
    (hf : ∀ x ∈ fraction, x.isDigit = true) (hend : EndsRun Char.isDigit rest) :
    c.number = (.text .number (String.ofList (whole ++ '.' :: fraction)),
      c.advance (whole ++ '.' :: fraction).length) := by
  have hc' : c.rest = whole ++ ('.' :: (fraction ++ rest)) := by simp [hc]
  have hstop := rest_advance hc'
  have hbehind : ((c.advance whole.length).advance 1).rest = fraction ++ rest :=
    rest_advance (u := ['.']) hstop
  unfold number
  rw [takeWhile_eq hc' hw (endsRun_cons.mpr rfl)]
  dsimp only
  rw [hstop]
  simp only
  rw [takeWhile_eq hbehind hf hend]
  have hover := ((over_advance hc').append (over_advance (u := ['.']) hstop)).append
    (over_advance hbehind)
  simpa using hover.eq_advance

theorem reads_whole {c : Cursor} {whole rest : List Char} (op : Bool) (hc : c.rest = whole ++ rest)
    (hw : ∀ x ∈ whole, x.isDigit = true) (hne : whole ≠ [])
    (hend : EndsRun (fun x => x.isDigit || x == '.') rest) :
    ∃ l, c.Reads op c.number.1 l c.number.2 := by
  have hnum : IsNumeral (String.ofList whole) :=
    ⟨whole, [], by simpa using hw, by simpa using hne, Or.inr ⟨rfl, String.toList_ofList⟩⟩
  rw [number_whole hc hw hend]
  refine ⟨_, .number hnum, ⟨[], blank_nil, ?_, ?_⟩, hnum⟩
  · simpa using over_advance hc
  · rw [List.nil_append, rest_advance hc]
    intro x hx
    have hxr := Bool.or_eq_false_iff.mp (hend x hx)
    simp [Token.goesOn, hxr]

theorem reads_dotted {c : Cursor} {whole fraction rest : List Char} (op : Bool)
    (hc : c.rest = (whole ++ '.' :: fraction) ++ rest)
    (hdigits : ∀ x ∈ whole ++ fraction, x.isDigit = true) (hne : whole ++ fraction ≠ [])
    (hend : EndsRun Char.isDigit rest) : ∃ l, c.Reads op c.number.1 l c.number.2 := by
  have hnum : IsNumeral (String.ofList (whole ++ '.' :: fraction)) :=
    ⟨whole, fraction, hdigits, hne, Or.inl String.toList_ofList⟩
  obtain ⟨hw, hf⟩ := List.forall_mem_append.mp hdigits
  rw [number_dotted hc hw hf hend]
  refine ⟨_, .number hnum, ⟨[], blank_nil, ?_, ?_⟩, hnum⟩
  · simpa using over_advance hc
  · rw [List.nil_append, rest_advance hc]
    intro x hx
    simpa [Token.goesOn] using hend x hx

/-- A number, once its first character or its first two show that it is one. -/
theorem number_sound {c d : Cursor} {x : Char} {r : List Char} {t : Token String} {op : Bool}
    (hc : c.rest = x :: r)
    (hx : x.isDigit = true ∨ x = '.' ∧ ∃ y r', r = y :: r' ∧ y.isDigit = true)
    (h : c.number = (t, d)) : ∃ l, c.Reads op t l d := by
  suffices hreads : ∃ l, c.Reads op c.number.1 l c.number.2 by rwa [h] at hreads
  have hwhole (y : Char) (hy : y ∈ c.rest.takeWhile Char.isDigit) : y.isDigit = true :=
    List.mem_takeWhile_imp hy
  have hsplit := (List.takeWhile_append_dropWhile (p := Char.isDigit) (l := c.rest)).symm
  have hstop := endsRun_dropWhile Char.isDigit c.rest
  generalize c.rest.takeWhile Char.isDigit = whole at hwhole hsplit
  generalize c.rest.dropWhile Char.isDigit = tail at hsplit hstop
  by_cases hdot : ∃ f, tail = '.' :: f
  · obtain ⟨f, rfl⟩ := hdot
    have hfraction (y : Char) (hy : y ∈ f.takeWhile Char.isDigit) : y.isDigit = true :=
      List.mem_takeWhile_imp hy
    have hend := endsRun_dropWhile Char.isDigit f
    have hf := (List.takeWhile_append_dropWhile (p := Char.isDigit) (l := f)).symm
    have hone : whole ++ f.takeWhile Char.isDigit ≠ [] := by
      intro hnil
      obtain ⟨rfl, hnone⟩ := List.append_eq_nil_iff.mp hnil
      rw [hsplit, List.nil_append, List.cons.injEq] at hc
      obtain ⟨rfl, rfl⟩ := hc
      rcases hx with hx | ⟨-, y, r', rfl, hy⟩
      · cases hx
      · simp [hy] at hnone
    exact reads_dotted op (by simp [hsplit, ← hf])
      (List.forall_mem_append.mpr ⟨hwhole, hfraction⟩) hone hend
  · have hend : EndsRun (fun x => x.isDigit || x == '.') tail := by
      intro y hy
      cases tail with
      | nil => cases hy
      | cons z tail =>
        obtain rfl := Option.some.inj hy
        have hz : z ≠ '.' := fun hz => hdot ⟨tail, by rw [hz]⟩
        simpa [hz] using endsRun_cons.mp hstop
    have hne : whole ≠ [] := by
      rintro rfl
      rw [hsplit, List.nil_append] at hc
      rw [hc] at hend
      have hxr := Bool.or_eq_false_iff.mp (endsRun_cons.mp hend)
      rcases hx with hx | ⟨rfl, -⟩
      · rw [hx] at hxr
        cases hxr.1
      · cases hxr.2
    exact reads_whole op hsplit hwhole hne hend

theorem number_complete {c : Cursor} {s : String} {rest : List Char} (hs : IsNumeral s)
    (hc : c.rest = s.toList ++ rest) (hend : EndsRun (Token.text .number s).goesOn rest) :
    c.number = (.text .number s, c.advance s.toList.length) := by
  obtain ⟨whole, fraction, hdigits, -, hform⟩ := hs
  rcases hform with hform | ⟨rfl, hform⟩
  · have hstop : EndsRun Char.isDigit rest := fun x hx => (Bool.or_eq_false_iff.mp (hend x hx)).1
    have hnum := number_dotted (hform ▸ hc)
      (fun x hx => hdigits x (List.mem_append_left _ hx))
      (fun x hx => hdigits x (List.mem_append_right _ hx)) hstop
    rw [hnum, ← hform, String.ofList_toList]
  · rw [List.append_nil] at hdigits
    have hnodot : '.' ∉ s.toList := fun hmem => absurd (hdigits '.' (hform ▸ hmem)) (by decide)
    have hstop : EndsRun (fun x => x.isDigit || x == '.') rest := by
      intro x hx
      simpa [Token.goesOn, hnodot] using hend x hx
    rw [number_whole (hform ▸ hc) hdigits hstop, ← hform, String.ofList_toList]

end Cursor
end XPath
