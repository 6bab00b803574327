import XPath.Proofs.Reading

/-! Where a text is at fault. The faults are told from the text alone, and reading finds them all and
no others, each at its place. -/
namespace XPath

def BeginsName (l : List Char) : Prop :=
  ∃ n r, IsNCName n ∧ l = n.toList ++ r

/-- The name `n` with one colon and the blanks around it, in front of `r`, where no name begins. -/
inductive HalfName : String → List Char → List Char → Prop
  | intro {n : String} {w w' r : List Char} (hn : IsNCName n) (hw : Blank w) (hw' : Blank w')
      (hsingle : (w' ++ r).head? ≠ some ':') (hend : EndsRun isSpace r) (hr : ¬ BeginsName r) :
      HalfName n (n.toList ++ w ++ ':' :: w') r

/-- The fault of a text from position `start` on, and the position where reading stops. The text has
no blank in front. -/
inductive Fault (expectsOperator : Bool) (start : Nat) : List Char → LexError → Nat → Prop
  | literal {quote : Char} {r : List Char} (hq : quote = '\'' ∨ quote = '"') (hr : quote ∉ r) :
      Fault expectsOperator start (quote :: r) (.unterminatedLiteral start)
        (start + (quote :: r).length)
  | bang {r : List Char} (hr : r.head? ≠ some '=') :
      Fault expectsOperator start ('!' :: r) (.loneBang start) start
  | character {x : Char} {r : List Char} (hx : x ∉ punctuation) (hdigit : x.isDigit = false)
      (hname : classify x ≠ .nameStart) :
      Fault expectsOperator start (x :: r) (.invalidNameStart start) start
  | axis {n : String} {w r : List Char} (hn : IsNCName n) (hw : Blank w)
      (haxis : ∀ a : Axis, n ≠ a.name) (hword : expectsOperator = true → ¬ IsOperatorWord n) :
      Fault expectsOperator start (n.toList ++ w ++ [':', ':'] ++ r) (.unknownAxis n)
        (start + (n.toList ++ w ++ [':', ':']).length)
  | dollar {r : List Char} (hr : ¬ BeginsName r) :
      Fault expectsOperator start ('$' :: r) (.malformedQName (start + 1)) (start + 1)
  | variableReference {n : String} {u r : List Char} (h : HalfName n u r) :
      Fault expectsOperator start ('$' :: (u ++ r)) (.malformedQName (start + 1))
        (start + 1 + u.length)
  | name {n : String} {u r : List Char} (h : HalfName n u r)
      (hword : expectsOperator = true → ¬ IsOperatorWord n) (hstar : r.head? ≠ some '*') :
      Fault expectsOperator start (u ++ r) (.malformedQName (start + u.length)) (start + u.length)

theorem HalfName.isNCName {n : String} {u r : List Char} (h : HalfName n u r) : IsNCName n := by
  cases h
  assumption

theorem HalfName.begins {n : String} {u r : List Char} (h : HalfName n u r) :
    ∃ l, u ++ r = n.toList ++ l := by
  cases h with
  | @intro w w' => exact ⟨w ++ ':' :: w' ++ r, by simp⟩

theorem beginsName_nil : ¬ BeginsName [] := by
  rintro ⟨n, r, hn, hl⟩
  exact hn.ne_nil (List.append_eq_nil_iff.mp hl.symm).1

theorem beginsName_cons {x : Char} {r : List Char} :
    BeginsName (x :: r) ↔ classify x = .nameStart := by
  constructor
  · rintro ⟨n, r', ⟨first, rest, hs, hfirst, -⟩, hl⟩
    rw [hs] at hl
    obtain ⟨rfl, -⟩ := List.cons.inj hl
    exact hfirst
  · intro hx
    exact ⟨String.ofList [x], r, ⟨x, [], String.toList_ofList, hx, nofun⟩,
      by rw [String.toList_ofList]; rfl⟩

theorem Axis.ofName?_eq_none {s : String} : Axis.ofName? s = none ↔ ∀ a : Axis, s ≠ a.name := by
  rw [Option.eq_none_iff_forall_ne_some]
  exact forall_congr' fun a => not_congr Axis.ofName?_eq_some

/-- A mark of one character that begins another mark is always read, by itself or in the other. -/
theorem ofChars?_ne_none {m : Mark} {x y : Char} (hm : (m, x, y) ∈ shortMarks) (r : List Char) :
    Mark.ofChars? (x :: r) ≠ none := by
  intro hnone
  by_cases hy : ∃ tail, r = y :: tail
  · obtain ⟨tail, rfl⟩ := hy
    simp only [shortMarks, List.mem_cons, Prod.mk.injEq, List.not_mem_nil, or_false] at hm
    rcases hm with ⟨-, rfl, rfl⟩ | ⟨-, rfl, rfl⟩ | ⟨-, rfl, rfl⟩ <;> cases hnone
  · have hshort := ofChars?_short hm (endsRun_of_ne_cons fun tail htail => hy ⟨tail, htail⟩)
    rw [hshort] at hnone
    cases hnone

/-- Of the characters in question only a few are left to tokens that are no marks. -/
theorem notMem_punctuation {x : Char} {r : List Char} (hmark : Mark.ofChars? (x :: r) = none)
    (hx : x ∉ ['\'', '"', '!', '$', '*']) (hdot : x ≠ '.') : x ∉ punctuation := by
  have hslash : x ≠ '/' := by
    rintro rfl
    exact ofChars?_ne_none List.mem_cons_self r hmark
  have hless : x ≠ '<' := by
    rintro rfl
    exact ofChars?_ne_none (List.mem_cons_of_mem _ List.mem_cons_self) r hmark
  have hgreater : x ≠ '>' := by
    rintro rfl
    exact ofChars?_ne_none (List.mem_of_getLast? rfl) r hmark
  intro hmem
  rw [punctuation] at hmem
  simp only [List.mem_cons, List.not_mem_nil, or_false, not_or] at hmem hx
  simp only [hx, hdot, hslash, hless, hgreater, or_false, false_or] at hmem
  rcases hmem with rfl | rfl | rfl | rfl | rfl | rfl | rfl | rfl | rfl | rfl <;> cases hmark

theorem ofChars?_bang {r : List Char} : Mark.ofChars? ('!' :: r) = none ↔ r.head? ≠ some '=' := by
  cases r with
  | nil => simp [Mark.ofChars?]
  | cons y r =>
    by_cases hy : y = '='
    · subst hy
      simp [Mark.ofChars?]
    · simp [Mark.ofChars?, hy]

namespace Cursor

theorem ncName?_eq_none {c : Cursor} : c.ncName? = none ↔ ¬ BeginsName c.rest := by
  unfold ncName?
  cases hc : c.rest with
  | nil => simp [beginsName_nil]
  | cons x r =>
    rw [beginsName_cons]
    dsimp only
    split <;> simp_all

/-- What stands behind a name, a colon and blanks is no name. -/
theorem halfName_iff {c e : Cursor} {n : String} :
    (∃ u, HalfName n u e.rest ∧ c.Over u e) ↔
      ∃ a r, c.ncName? = some (n, a) ∧ a.skipSpace.rest = ':' :: r ∧ (∀ tail, r ≠ ':' :: tail) ∧
        (a.skipSpace.advance 1).skipSpace = e ∧ e.ncName? = none := by
  constructor
  · rintro ⟨u, hhalf, hover⟩
    generalize hrest : e.rest = rest at hhalf
    cases hhalf with
    | intro hn hw hw' hsingle hend hr =>
      obtain ⟨a, e', hname, hcolon, he', -, hover'⟩ :=
        colon_complete hn hw hw' hend (hrest ▸ hover.rest)
      have he : (a.skipSpace.advance 1).skipSpace = e := by
        rw [← he', hover'.eq_advance, hover.eq_advance]
      refine ⟨a, _, hname, hcolon, ?_, he, ncName?_eq_none.mpr (hrest ▸ hr)⟩
      intro tail htail
      exact hsingle (by rw [htail]; rfl)
  · rintro ⟨a, r, hname, hcolon, hsingle, rfl, hlocal⟩
    obtain ⟨hn, hover, -⟩ := ncName?_eq_some.mp hname
    have hspace := over_skipSpace a
    have hspace' := over_skipSpace (a.skipSpace.advance 1)
    have hbehind : (a.skipSpace.advance 1).rest = r := rest_advance (u := [':']) hcolon
    have hall := over_colon hover hspace hcolon hspace' (over_nil _)
    rw [List.append_nil] at hall
    refine ⟨_, .intro hn (blank_takeWhile _) (blank_takeWhile _) ?_ ?_ ?_, hall⟩
    · rw [← hspace'.rest, hbehind]
      intro hhead
      obtain ⟨tail, htail⟩ := List.head?_eq_some_iff.mp hhead
      exact hsingle tail htail
    · rw [rest_skipSpace]
      exact endsRun_dropWhile isSpace _
    · exact ncName?_eq_none.mp hlocal

section
variable {c d : Cursor} {op : Bool} {e : LexError} {x : Char} {r : List Char}

theorem fault_of_literal (hq : x = '\'' ∨ x = '"') (hc : c.rest = x :: r)
    (h : c.literal x = (.mark (.error e), d)) : Fault op c.position c.rest e d.position := by
  have hvalue := over_takeWhile (c.advance 1) (· != x)
  have hbehind : (c.advance 1).rest = r := rest_advance (u := [x]) hc
  unfold literal at h
  dsimp only at h
  split at h
  · next hclose =>
    obtain ⟨he, rfl⟩ := Prod.mk.inj h
    cases he
    have hwhole := hvalue.rest
    rw [hclose, List.append_nil, hbehind] at hwhole
    have hnot : x ∉ r := by
      intro hmem
      rw [hwhole] at hmem
      simpa using List.mem_takeWhile_imp hmem
    have hposition : ((c.advance 1).takeWhile (· != x)).2.position =
        c.position + (x :: r).length := by
      rw [hvalue.position, hbehind, ← hwhole, List.length_cons, Nat.add_comm r.length]
      exact Nat.add_assoc _ _ _
    rw [hc, hposition]
    exact .literal hq hnot
  · cases (Prod.mk.inj h).1

theorem literal_of_notMem (hc : c.rest = x :: r) (hr : x ∉ r) :
    c.literal x = (.mark (.error (.unterminatedLiteral c.position)),
      c.advance (x :: r).length) := by
  have hbehind : (c.advance 1).rest = r ++ [] := by
    rw [List.append_nil]
    exact rest_advance (u := [x]) hc
  have hrun : (c.advance 1).takeWhile (· != x) = (r, (c.advance 1).advance r.length) := by
    apply takeWhile_eq hbehind _ (endsRun_nil _)
    intro y hy
    rw [bne_iff_ne]
    exact fun hyx => hr (hyx ▸ hy)
  have hover := (over_advance (u := [x]) hc).append (over_advance hbehind)
  have hend : (c.advance 1).advance r.length = c.advance (x :: r).length := hover.eq_advance
  unfold literal
  rw [hrun]
  dsimp only
  rw [rest_advance hbehind, hend]

theorem fault_of_variableReference (hc : c.rest = '$' :: r)
    (h : (c.advance 1).variableReference = (.mark (.error e), d)) :
    Fault op c.position c.rest e d.position := by
  have hbehind : (c.advance 1).rest = r := rest_advance (u := ['$']) hc
  unfold variableReference at h
  split at h
  · next hname =>
    obtain ⟨he, rfl⟩ := Prod.mk.inj h
    cases he
    rw [hc]
    exact .dollar (hbehind ▸ ncName?_eq_none.mp hname)
  · next n a hname =>
    dsimp only at h
    split at h
    · cases (Prod.mk.inj h).1
    · next r' hsingle hcolon =>
      split at h
      · next hlocal =>
        obtain ⟨he, rfl⟩ := Prod.mk.inj h
        cases he
        obtain ⟨u, hhalf, hover⟩ := halfName_iff.mpr ⟨a, r', hname, hcolon, hsingle, rfl, hlocal⟩
        rw [hc, ← hbehind, hover.rest, hover.position]
        exact .variableReference hhalf
      · cases (Prod.mk.inj h).1
    · cases (Prod.mk.inj h).1

theorem fault_of_word (hc : c.rest = x :: r) (hx : x ∉ punctuation) (hdigit : x.isDigit = false)
    (h : c.word op = (.mark (.error e), d)) : Fault op c.position c.rest e d.position := by
  unfold word at h
  split at h
  · next hname =>
    obtain ⟨he, rfl⟩ := Prod.mk.inj h
    cases he
    have hnot := ncName?_eq_none.mp hname
    rw [hc, beginsName_cons] at hnot
    rw [hc]
    exact .character hx hdigit hnot
  · next n a hname =>
    obtain ⟨hn, hover, -⟩ := ncName?_eq_some.mp hname
    have hspace := over_skipSpace a
    dsimp only at h
    split at h
    · cases (Prod.mk.inj h).1
    · next hnone =>
      have hword : op = true → ¬ IsOperatorWord n := by
        intro hop
        rw [if_pos hop] at hnone
        exact BinaryOp.ofWord?_eq_none.mp hnone
      split at h
      · next r' hcolons =>
        split at h
        · cases (Prod.mk.inj h).1
        · next haxis =>
          obtain ⟨he, rfl⟩ := Prod.mk.inj h
          cases he
          have hall := (hover.append hspace).append (over_advance (u := [':', ':']) hcolons)
          have hposition : (a.skipSpace.advance 2).position = _ := hall.position
          rw [hall.rest, hposition]
          exact .axis hn (blank_takeWhile _) (Axis.ofName?_eq_none.mp haxis) hword
      · next r' hsingle hcolon =>
        split at h
        · cases (Prod.mk.inj h).1
        · next hstar =>
          split at h
          · next hlocal =>
            obtain ⟨he, rfl⟩ := Prod.mk.inj h
            cases he
            obtain ⟨u, hhalf, hover⟩ :=
              halfName_iff.mpr ⟨a, r', hname, hcolon, hsingle, rfl, hlocal⟩
            rw [hover.rest, hover.position]
            apply Fault.name hhalf hword
            intro hstarred
            obtain ⟨tail, htail⟩ := List.head?_eq_some_iff.mp hstarred
            exact hstar tail htail
          · rw [nameOrCallee_eq] at h
            cases (Prod.mk.inj h).1
      · rw [nameOrCallee_eq] at h
        cases (Prod.mk.inj h).1

theorem variableReference_of_halfName {n : String} {u : List Char} (h : HalfName n u d.rest)
    (hover : c.Over u d) :
    c.variableReference = (.mark (.error (.malformedQName c.position)), d) := by
  obtain ⟨a, r, hname, hcolon, hsingle, he, hlocal⟩ := halfName_iff.mp ⟨u, h, hover⟩
  unfold variableReference
  rw [hname]
  dsimp only
  rw [hcolon]
  split
  · next tail hcolons => exact absurd (List.cons.inj hcolons).2 (hsingle tail)
  · rw [he, hlocal]
  · next hno => exact absurd rfl (hno _)

theorem word_of_halfName {n : String} {u : List Char} (h : HalfName n u d.rest)
    (hover : c.Over u d) (hword : op = true → ¬ IsOperatorWord n) (hstar : d.rest.head? ≠ some '*') :
    c.word op = (.mark (.error (.malformedQName d.position)), d) := by
  obtain ⟨a, r, hname, hcolon, hsingle, he, hlocal⟩ := halfName_iff.mp ⟨u, h, hover⟩
  unfold word
  rw [hname]
  dsimp only
  rw [ofWord?_of_not hword]
  dsimp only
  rw [hcolon]
  split
  · next tail hcolons => exact absurd (List.cons.inj hcolons).2 (hsingle tail)
  · rw [he]
    split
    · next tail htail =>
      rw [htail] at hstar
      exact absurd rfl hstar
    · rw [hlocal]
  · next hno => exact absurd rfl (hno _)

/-- A fault that is found is one. -/
theorem fault_of_scan (h : c.scan op = (.mark (.error e), d)) :
    Fault op c.skipSpace.position c.skipSpace.rest e d.position := by
  cases hmark : Mark.ofChars? c.skipSpace.rest with
  | some m =>
    rw [scan_mark op hmark] at h
    obtain ⟨l, rest, hl, -⟩ := ofChars?_eq_some hmark
    have hm : m.1 = .error e := Token.mark.inj (Prod.mk.inj h).1
    rw [hm] at hl
    cases hl
  | none =>
    cases hrest : c.skipSpace.rest with
    | nil =>
      rw [scan_end op hrest] at h
      cases (Prod.mk.inj h).1
    | cons x r =>
      rw [hrest] at hmark
      by_cases hx : x ∈ ['\'', '"', '!', '$', '*']
      · simp only [List.mem_cons, List.not_mem_nil, or_false] at hx
        rw [← hrest]
        rcases hx with rfl | rfl | rfl | rfl | rfl
        · rw [scan_quote op (Or.inl rfl) hrest] at h
          exact fault_of_literal (Or.inl rfl) hrest h
        · rw [scan_quote op (Or.inr rfl) hrest] at h
          exact fault_of_literal (Or.inr rfl) hrest h
        · rw [scan_bang op (hrest ▸ hmark) hrest] at h
          obtain ⟨he, rfl⟩ := Prod.mk.inj h
          cases he
          rw [hrest]
          exact .bang (ofChars?_bang.mp hmark)
        · rw [scan_dollar op hrest] at h
          exact fault_of_variableReference hrest h
        · rw [scan_star op hrest] at h
          cases op <;> cases (Prod.mk.inj h).1
      · rw [scan_other op (hrest ▸ hmark) hrest hx] at h
        split at h
        · have hfinal := number_not_final c.skipSpace
          rw [h] at hfinal
          cases hfinal
        · next hnumber =>
          obtain ⟨hdot, hdigit⟩ := Bool.or_eq_false_iff.mp (Bool.eq_false_iff.mpr hnumber)
          rw [← hrest]
          exact fault_of_word hrest (notMem_punctuation hmark hx (by simpa using hdot)) hdigit h

/-- A fault that there is is found. -/
theorem scan_of_fault {p : Nat} (h : Fault op c.skipSpace.position c.skipSpace.rest e p) :
    ∃ d, c.scan op = (.mark (.error e), d) ∧ d.position = p := by
  generalize hrest : c.skipSpace.rest = l at h
  cases h with
  | literal hq hr =>
    rw [scan_quote op hq hrest, literal_of_notMem hrest hr]
    exact ⟨_, rfl, rfl⟩
  | bang hr =>
    have hmark := ofChars?_bang.mpr hr
    rw [scan_bang op (hrest ▸ hmark) hrest]
    exact ⟨_, rfl, rfl⟩
  | @character x r hx hdigit hname =>
    have hfew : x ∉ ['\'', '"', '!', '$', '*'] := by
      intro hmem
      apply hx
      simp only [List.mem_cons, List.not_mem_nil, or_false] at hmem
      rcases hmem with rfl | rfl | rfl | rfl | rfl <;> decide
    have hdot : ¬(x == '.' || x.isDigit) = true := by
      rw [hdigit, Bool.or_false, beq_iff_eq]
      rintro rfl
      exact hx (by decide)
    have hnone : c.skipSpace.ncName? = none := by
      rw [ncName?_eq_none, hrest, beginsName_cons]
      exact hname
    rw [scan_other op (hrest ▸ ofChars?_of_notMem hx r) hrest hfew, if_neg hdot,
      word_of_none op hnone]
    exact ⟨_, rfl, rfl⟩
  | @axis n w r hn hw haxis hword =>
    obtain ⟨d, hd, hover⟩ := word_colons hn hword hw hrest
    rw [Axis.ofName?_eq_none.mpr haxis] at hd
    rw [scan_name op (r := w ++ [':', ':'] ++ r) hn (by simp [hrest])]
    exact ⟨d, hd, hover.position⟩
  | @dollar r hr =>
    have hbehind : (c.skipSpace.advance 1).rest = r := rest_advance (u := ['$']) hrest
    have hnone : (c.skipSpace.advance 1).ncName? = none := by
      rw [ncName?_eq_none, hbehind]
      exact hr
    rw [scan_dollar op hrest]
    unfold variableReference
    rw [hnone]
    exact ⟨_, rfl, rfl⟩
  | @variableReference n u r hhalf =>
    have hbehind : (c.skipSpace.advance 1).rest = u ++ r := rest_advance (u := ['$']) hrest
    have hover := over_advance hbehind
    rw [scan_dollar op hrest, variableReference_of_halfName (rest_advance hbehind ▸ hhalf) hover]
    exact ⟨_, rfl, hover.position⟩
  | @name n u r hhalf hword hstar =>
    have hover := over_advance hrest
    have hr := rest_advance hrest
    obtain ⟨l, hl⟩ := hhalf.begins
    rw [scan_name op hhalf.isNCName (hrest.trans hl),
      word_of_halfName (hr ▸ hhalf) hover hword (hr ▸ hstar)]
    exact ⟨_, rfl, rfl⟩

end

end Cursor

namespace Lexer

/-- Where the text goes on behind the blanks that the call of that number skips. -/
def start (s : String) (n : Nat) : Nat :=
  let position := ((ofString s).after n).position
  position + ((s.toList.drop position).takeWhile isSpace).length

/-- The call of that number begins there. -/
theorem start_eq (s : String) (n : Nat) :
    ((ofString s).after n).cursor.skipSpace.position = start s n ∧
      ((ofString s).after n).cursor.skipSpace.rest = s.toList.drop (start s n) ∧
      start s n ≤ s.toList.length := by
  have hreaches := reaches_after s n
  have hposition := (Cursor.over_skipSpace ((ofString s).after n).cursor).position
  rw [hreaches.rest_eq.1] at hposition
  have hstart : ((ofString s).after n).cursor.skipSpace.position = start s n := hposition
  have hrest := (hreaches.trans (Cursor.reaches_skipSpace _)).rest_eq
  rw [hstart] at hrest
  exact ⟨hstart, hrest⟩

/-- Whatever was read before, faults included, a call finds a fault if and only if there is one in
the text behind the blanks ahead, and stops where that fault makes it stop. A literal without its
second quote makes it stop at the end of the text. -/
theorem faults_located (s : String) (n : Nat) :
    (∀ e p, ((ofString s).after n).next.1 = .mark (.error e) ∧
        ((ofString s).after n).next.2.position = p ↔
      Fault ((ofString s).after n).context.expectsOperator (start s n)
        (s.toList.drop (start s n)) e p) ∧
    ∀ q, ((ofString s).after n).next.1 = .mark (.error (.unterminatedLiteral q)) →
      ((ofString s).after n).next.2.position = s.length := by
  obtain ⟨hstart, htext, hle⟩ := start_eq s n
  have hall (e : LexError) (p : Nat) : ((ofString s).after n).next.1 = .mark (.error e) ∧
        ((ofString s).after n).next.2.position = p ↔
      Fault ((ofString s).after n).context.expectsOperator (start s n)
        (s.toList.drop (start s n)) e p := by
    rw [← htext, ← hstart]
    constructor
    · rintro ⟨he, rfl⟩
      exact Cursor.fault_of_scan (Prod.ext he rfl)
    · intro hfault
      obtain ⟨d, hscan, hposition⟩ := Cursor.scan_of_fault hfault
      exact ⟨congrArg Prod.fst hscan, (congrArg (fun r => r.2.position) hscan).trans hposition⟩
  refine ⟨hall, fun q hq => ?_⟩
  have hfault := (hall _ _).mp ⟨hq, rfl⟩
  have hlength : start s n + (s.toList.drop (start s n)).length = s.length := by
    rw [List.length_drop, ← String.length_toList]
    omega
  rw [← hlength]
  generalize s.toList.drop (start s n) = text at hfault
  generalize ((ofString s).after n).next.2.position = p at hfault
  cases hfault
  rfl

/-- Behind a number and a blank, a literal without its second quote. -/
theorem faults_located_open_literal :
    ((ofString "1 'a").after 1).next.1 = .mark (.error (.unterminatedLiteral 2)) ∧
      ((ofString "1 'a").after 1).next.2.position = "1 'a".length ∧
      Fault true 2 ['\'', 'a'] (.unterminatedLiteral 2) 4 := by
  have hnext : ((ofString "1 'a").after 1).next.1 = .mark (.error (.unterminatedLiteral 2)) := rfl
  obtain ⟨hall, hend⟩ := faults_located "1 'a" 1
  have hposition := hend 2 hnext
  exact ⟨hnext, hposition, (hall _ 4).mp ⟨hnext, hposition⟩⟩

-- Behind a dollar sign it is the whole name that is at fault, elsewhere what follows the colon.
example : tokenize "$p: 1" = [.mark (.error (.malformedQName 1))] := rfl
example : tokenize "p: 1" = [.mark (.error (.malformedQName 3))] := rfl

end Lexer
end XPath
