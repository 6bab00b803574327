import XPath.Proofs.Token.Name

/-! One token is read exactly where it is written, fits, and nothing goes on with it. -/
namespace XPath

theorem fits_mark {m : Mark} {l : List Char} {op : Bool} {paren : Prop}
    (hl : m.spelling? = some l)
    (hm : ∀ o, m = .op o → o.tokenKind ∉ [TokenKind.and, .or, .multiplicative]) :
    (Token.mark m).Fits op paren := by
  cases m with
  | endOfInput | error => cases hl
  | op o => exact fun ho => absurd ho (hm o rfl)
  | _ => trivial

/-- The characters that begin something other than a number or a name. -/
def punctuation : List Char :=
  ['(', ')', '[', ']', '@', ',', '|', '\'', '"', '.', '/', '+', '-', '=', '!', '<', '>', '*', '$']

/-- No mark begins with another character. -/
theorem ofChars?_of_notMem {x : Char} (hx : x ∉ punctuation) (r : List Char) :
    Mark.ofChars? (x :: r) = none := by
  unfold Mark.ofChars?
  split <;> first | rfl | skip
  all_goals
    rename_i heq
    obtain ⟨rfl, -⟩ := List.cons.inj heq
    exact absurd hx (by decide)

theorem ofChars?_nameStart {x : Char} (hx : classify x = .nameStart) (r : List Char) :
    Mark.ofChars? (x :: r) = none := by
  have hnone : punctuation.all (classify · != .nameStart) = true := by decide
  refine ofChars?_of_notMem (fun hmem => ?_) r
  exact bne_iff_ne.mp (List.all_eq_true.mp hnone x hmem) hx

theorem ofChars?_digit {x : Char} (hx : x.isDigit = true) (r : List Char) :
    Mark.ofChars? (x :: r) = none := by
  have hnone : punctuation.all (·.isDigit != true) = true := by decide
  refine ofChars?_of_notMem (fun hmem => ?_) r
  exact bne_iff_ne.mp (List.all_eq_true.mp hnone x hmem) hx

theorem kind_of_word {o : BinaryOp} (h : o ∈ [BinaryOp.and, .or, .modulo, .divide]) :
    o.tokenKind ∈ [TokenKind.and, .or, .multiplicative] := by
  cases o <;> first | decide | simp at h

theorem fits_star {op : Bool} {paren : Prop} (h : (Token.text .nameTest "*").Fits op paren) :
    op = false := by
  rcases h with ⟨-, hop⟩ | ⟨p, -, ⟨-, hs⟩ | ⟨hq, -⟩⟩
  · exact hop
  · have hlen := congrArg (fun s => s.toList.length) hs
    simp [qualified] at hlen
  · exact absurd rfl (getLast?_qName hq)

theorem fits_namespaceStar {p : String} {op : Bool} {paren : Prop}
    (h : (Token.text .nameTest (qualified p "*")).Fits op paren) :
    op = true → ¬ IsOperatorWord p := by
  have hlast : (qualified p "*").toList.getLast? = some '*' := by simp [qualified]
  rcases h with ⟨hs, -⟩ | ⟨p', hp', ⟨-, hs⟩ | ⟨hq, -⟩⟩
  · have hlen := congrArg (fun s => s.toList.length) hs
    simp [qualified] at hlen
  · have hlist := congrArg String.toList hs
    rw [toList_qualified, toList_qualified] at hlist
    obtain rfl := String.toList_inj.mp (List.append_cancel_right hlist)
    exact hp'
  · exact absurd hlast (getLast?_qName hq)

/-- A full stop that is no mark begins a number. -/
theorem digit_of_ofChars?_dot {r : List Char} (h : Mark.ofChars? ('.' :: r) = none) :
    ∃ y r', r = y :: r' ∧ y.isDigit = true := by
  cases r with
  | nil => cases h
  | cons y r =>
    by_cases hdot : y = '.'
    · subst hdot
      cases h
    · refine ⟨y, r, rfl, ?_⟩
      cases hy : y.isDigit with
      | true => rfl
      | false =>
        rw [Mark.ofChars?, if_neg (by simp [hy])] at h
        · cases h
        · exact hdot

namespace Cursor

theorem scan_nameStart {c : Cursor} {x : Char} {r : List Char} (op : Bool)
    (hc : c.skipSpace.rest = x :: r) (hx : classify x = .nameStart) :
    c.scan op = c.skipSpace.word op := by
  unfold scan
  dsimp only
  rw [hc, ofChars?_nameStart hx]
  dsimp only
  split
  case h_7 first rest _ _ _ _ _ heq =>
    obtain ⟨rfl, rfl⟩ := List.cons.inj heq
    rw [if_neg]
    intro h
    rcases Bool.or_eq_true_iff.mp h with h | h
    · rw [eq_of_beq h] at hx
      exact absurd hx (by decide)
    · exact classify_of_isDigit h hx
  all_goals
    rename_i heq
    cases heq
  all_goals exact absurd hx (by decide)

theorem scan_digit {c : Cursor} {x : Char} {r : List Char} (op : Bool)
    (hc : c.skipSpace.rest = x :: r) (hx : x.isDigit = true) : c.scan op = c.skipSpace.number := by
  unfold scan
  dsimp only
  rw [hc, ofChars?_digit hx]
  dsimp only
  split
  case h_7 first rest _ _ _ _ _ heq =>
    obtain ⟨rfl, rfl⟩ := List.cons.inj heq
    rw [if_pos (by simp [hx])]
  all_goals
    rename_i heq
    cases heq
  all_goals exact absurd hx (by decide)

theorem scan_dot_digit {c : Cursor} {x : Char} {r : List Char} (op : Bool)
    (hc : c.skipSpace.rest = '.' :: x :: r) (hx : x.isDigit = true) :
    c.scan op = c.skipSpace.number := by
  have hnone : Mark.ofChars? ('.' :: x :: r) = none := by
    rw [Mark.ofChars?, if_pos hx]
    rintro rfl
    cases hx
  unfold scan
  dsimp only
  rw [hc, hnone]
  rfl

/-- Nothing is left but blanks. -/
theorem scan_end {c : Cursor} (op : Bool) (hc : c.skipSpace.rest = []) :
    c.scan op = (.mark .endOfInput, c.skipSpace) := by
  unfold scan
  dsimp only
  rw [hc]
  rfl

theorem scan_mark {c : Cursor} {m : Mark} {n : Nat} (op : Bool)
    (hm : Mark.ofChars? c.skipSpace.rest = some (m, n)) :
    c.scan op = (.mark m, c.skipSpace.advance n) := by
  unfold scan
  dsimp only
  rw [hm]

/-! Only at its end a text is read as ended. -/

theorem literal_ne_end (c : Cursor) (quote : Char) : (c.literal quote).1 ≠ .mark .endOfInput := by
  unfold literal
  dsimp only
  split <;> simp

theorem number_ne_end (c : Cursor) : c.number.1 ≠ .mark .endOfInput := by
  unfold number
  dsimp only
  split <;> simp

theorem variableReference_ne_end (c : Cursor) : c.variableReference.1 ≠ .mark .endOfInput := by
  unfold variableReference
  split
  · simp
  · dsimp only
    split
    · simp
    · split <;> simp
    · simp

theorem word_ne_end (c : Cursor) (op : Bool) : (c.word op).1 ≠ .mark .endOfInput := by
  unfold word
  split
  · simp
  · dsimp only
    split
    · simp
    · split
      · split <;> simp
      · split
        · simp
        · split
          · simp
          · simp [nameOrCallee_eq]
      · simp [nameOrCallee_eq]

theorem rest_of_scan_end {c : Cursor} {op : Bool} (h : (c.scan op).1 = .mark .endOfInput) :
    c.skipSpace.rest = [] := by
  unfold scan at h
  dsimp only at h
  split at h
  · next m n hm =>
    obtain ⟨l, -, hl, -⟩ := ofChars?_eq_some hm
    obtain rfl := Token.mark.inj h
    cases hl
  · split at h
    · assumption
    · exact absurd h (literal_ne_end _ _)
    · exact absurd h (literal_ne_end _ _)
    · cases h
    · exact absurd h (variableReference_ne_end _)
    · cases op <;> cases h
    · split at h
      · exact absurd h (number_ne_end _)
      · exact absurd h (word_ne_end _ _)

/-- A token that is read is written there, behind blanks. -/
theorem scan_sound {c d : Cursor} {t : Token String} {op : Bool} (h : c.scan op = (t, d))
    (ht : t.isFinal = false) : ∃ l, c.skipSpace.Reads op t l d := by
  unfold scan at h
  dsimp only at h
  split at h
  · next m n hm =>
    obtain ⟨rfl, rfl⟩ := Prod.mk.inj h
    obtain ⟨l, rest, hl, hr, rfl, hend, hop⟩ := ofChars?_eq_some hm
    refine ⟨l, .mark hl, ⟨[], blank_nil, ?_, ?_⟩, fits_mark hl hop⟩
    · simpa using over_advance hr
    · rw [List.nil_append, rest_advance hr]
      exact hend
  · next hnone =>
    split at h
    · obtain ⟨rfl, -⟩ := Prod.mk.inj h
      cases ht
    · next hq => exact literal_sound (Or.inl rfl) hq h ht
    · next hq => exact literal_sound (Or.inr rfl) hq h ht
    · obtain ⟨rfl, -⟩ := Prod.mk.inj h
      cases ht
    · next r hdollar =>
      have hone := over_advance (u := ['$']) hdollar
      obtain ⟨p, s, l, w, rfl, hs, hw, hover, hend⟩ := variableReference_sound h ht
      exact ⟨'$' :: l, .variableReference hs, ⟨w, hw, by simpa using hone.append hover, hend⟩,
        p, hs.qName⟩
    · next r hstar =>
      have hone := over_advance (u := ['*']) hstar
      obtain ⟨rfl, rfl⟩ := Prod.mk.inj h
      refine ⟨['*'], ?_, ⟨[], blank_nil, by simpa using hone, ?_⟩, ?_⟩
      · cases op
        · exact .star
        · exact .mark rfl
      · cases op <;> exact fun _ _ => rfl
      · cases op
        · exact Or.inl ⟨rfl, rfl⟩
        · exact fun _ => rfl
    · next x r _ _ _ _ _ hx =>
      split at h
      · next hnumber =>
        refine number_sound hx ?_ h
        rcases Bool.or_eq_true_iff.mp hnumber with hdot | hdigit
        · obtain rfl := eq_of_beq hdot
          rw [hx] at hnone
          exact Or.inr ⟨rfl, digit_of_ofChars?_dot hnone⟩
        · exact Or.inl hdigit
      · exact word_sound h ht

theorem scan_number {c : Cursor} {s : String} {rest : List Char} (op : Bool) (hs : IsNumeral s)
    (hc : c.skipSpace.rest = s.toList ++ rest) : c.scan op = c.skipSpace.number := by
  obtain ⟨whole, fraction, hdigits, hne, hform⟩ := hs
  cases whole with
  | cons x whole =>
    have hx := hdigits x List.mem_cons_self
    rcases hform with hform | ⟨-, hform⟩
    · exact scan_digit op (r := whole ++ '.' :: fraction ++ rest) (by simp [hc, hform]) hx
    · exact scan_digit op (r := whole ++ rest) (by simp [hc, hform]) hx
  | nil =>
    cases fraction with
    | nil => exact absurd rfl hne
    | cons x fraction =>
      have hx := hdigits x List.mem_cons_self
      rcases hform with hform | ⟨hnil, -⟩
      · exact scan_dot_digit op (r := fraction ++ rest) (by simp [hc, hform]) hx
      · cases hnil

theorem scan_star {c : Cursor} {r : List Char} (op : Bool) (hc : c.skipSpace.rest = '*' :: r) :
    c.scan op = (if op then .mark (.op .multiply) else .text .nameTest "*",
      c.skipSpace.advance 1) := by
  unfold scan
  dsimp only
  rw [hc]
  rfl

theorem scan_quote {c : Cursor} {quote : Char} {r : List Char} (op : Bool)
    (hq : quote = '\'' ∨ quote = '"') (hc : c.skipSpace.rest = quote :: r) :
    c.scan op = c.skipSpace.literal quote := by
  unfold scan
  dsimp only
  rw [hc]
  rcases hq with rfl | rfl <;> rfl

theorem scan_dollar {c : Cursor} {r : List Char} (op : Bool) (hc : c.skipSpace.rest = '$' :: r) :
    c.scan op = (c.skipSpace.advance 1).variableReference := by
  unfold scan
  dsimp only
  rw [hc]
  rfl

theorem scan_name {c : Cursor} {n : String} {r : List Char} (op : Bool) (hn : IsNCName n)
    (hc : c.skipSpace.rest = n.toList ++ r) : c.scan op = c.skipSpace.word op := by
  obtain ⟨first, rest, hs, hfirst, -⟩ := hn
  exact scan_nameStart op (r := rest ++ r) (by rw [hc, hs]; rfl) hfirst

/-- A token is read where it is written, if it fits there and nothing goes on with it. -/
theorem scan_complete {c : Cursor} {t : Token String} {l rest : List Char} {op : Bool}
    (hl : Spells t l) (hc : c.skipSpace.rest = l ++ rest)
    (hfits : t.Fits op ((rest.dropWhile isSpace).head? = some '(')) (hend : EndsRun t.goesOn rest)
    (hcolon : (rest.dropWhile isSpace).head? ≠ some ':') :
    ∃ d w, c.scan op = (t, d) ∧ Blank w ∧ c.skipSpace.Over (l ++ w) d := by
  cases hl with
  | @mark m l hm =>
    by_cases hword : ∃ o, m = .op o ∧ o ∈ [BinaryOp.and, .or, .modulo, .divide]
    · obtain ⟨o, rfl, ho⟩ := hword
      obtain rfl := Option.some.inj hm
      have htrue : op = true := hfits (kind_of_word ho)
      subst htrue
      rw [scan_name true (isNCName_word ho) hc, word_operator ho hc (goesOn_word ho ▸ hend)]
      exact ⟨_, _, rfl, blank_takeWhile _, (over_advance hc).append (over_skipSpace _)⟩
    · by_cases hstar : m = .op .multiply
      · subst hstar
        obtain rfl := Option.some.inj hm
        obtain rfl : op = true := hfits (by decide)
        rw [scan_star true hc]
        exact ⟨_, [], rfl, blank_nil, over_advance hc⟩
      · have hop (o : BinaryOp) (ho : m = .op o) :
            o.tokenKind ∉ [TokenKind.and, .or, .multiplicative] := by
          subst ho
          cases o <;> simp_all [BinaryOp.tokenKind]
        rw [scan_mark op (hc ▸ ofChars?_spelling hm hop hend)]
        exact ⟨_, [], rfl, blank_nil, by simpa using over_advance hc⟩
  | @axis a w hw =>
    rw [scan_name op (r := w ++ [':', ':'] ++ rest) (isNCName_axis a) (by simp [hc])]
    obtain ⟨d, hd, hover⟩ := word_axis hw hc
    exact ⟨d, [], hd, blank_nil, by simpa using hover⟩
  | literal hq hs =>
    obtain ⟨d, hd, hover⟩ := literal_complete hs hc
    rw [scan_quote op hq (r := _) hc, hd]
    exact ⟨d, [], rfl, blank_nil, by simpa using hover⟩
  | number hs =>
    rw [scan_number op hs hc, number_complete hs hc hend]
    exact ⟨_, [], rfl, blank_nil, by simpa using over_advance hc⟩
  | star =>
    have hfalse := fits_star hfits
    subst hfalse
    rw [scan_star false hc]
    exact ⟨_, [], rfl, blank_nil, over_advance hc⟩
  | @namespaceStar p w w' hp hw hw' =>
    rw [scan_name op (r := w ++ ':' :: w' ++ ['*'] ++ rest) hp (by simp [hc])]
    obtain ⟨d, hd, hover⟩ := word_namespaceStar hp (fits_namespaceStar hfits) hw hw' hc
    exact ⟨d, [], hd, blank_nil, by simpa using hover⟩
  | @name kind p s l hk hs =>
    rw [goesOn_name hs.qName hk] at hend
    have hname : ∃ r, c.skipSpace.rest = p.toList ++ r := by
      cases hs with
      | plain hn => exact ⟨rest, hc⟩
      | @colon n w w' hp hw hw' hn => exact ⟨w ++ ':' :: w' ++ n.toList ++ rest, by simp [hc]⟩
    obtain ⟨r, hr⟩ := hname
    rw [scan_name op hs.qName.isNCName hr]
    exact word_name hk hs hc hfits hend hcolon
  | @variableReference p s l hs =>
    have hdollar : c.skipSpace.rest = ['$'] ++ (l ++ rest) := hc
    obtain ⟨d, w, hd, hw, hover⟩ :=
      variableReference_complete hs (rest_advance hdollar) hend hcolon
    rw [scan_dollar op hc]
    exact ⟨d, w, hd, hw, by simpa using (over_advance hdollar).append hover⟩

end Cursor
end XPath
