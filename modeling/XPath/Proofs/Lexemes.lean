import XPath.Proofs.Lexer
import XPath.Proofs.Token.Progress

/-! Reading loses no character and takes none twice. Each token takes a spelling of it, the longest one
there, with the blanks around it, and what the tokens take is the whole text. -/
namespace XPath

/-- A name with or without a colon as it is written in front of `rest`. No part of it is followed by a
character that goes on with that part. -/
inductive NameLexeme : String → List Char → List Char → Prop
  | plain {n : String} {rest : List Char} (hn : IsNCName n) (hend : EndsRun inName rest) :
      NameLexeme n n.toList rest
  | colon {p n : String} {w w' rest : List Char} (hp : IsNCName p) (hw : Blank w)
      (hfirst : EndsRun inName (w ++ ':' :: w' ++ n.toList ++ rest)) (hw' : Blank w')
      (hn : IsNCName n) (hend : EndsRun inName rest) :
      NameLexeme (qualified p n) (p.toList ++ w ++ ':' :: w' ++ n.toList) rest

/-- A token as it is written in front of `rest`, in the longest of the ways to write it. -/
inductive Lexeme : Token String → List Char → List Char → Prop
  | mark {m : Mark} {l rest : List Char} (hm : m.spelling? = some l)
      (hend : EndsRun (Token.mark m).goesOn rest) : Lexeme (.mark m) l rest
  | axis {a : Axis} {w rest : List Char} (hw : Blank w)
      (hname : EndsRun inName (w ++ [':', ':'] ++ rest)) :
      Lexeme (.mark (.axis a)) (a.name.toList ++ w ++ [':', ':']) rest
  | literal {quote : Char} {s : String} {rest : List Char} (hq : quote = '\'' ∨ quote = '"')
      (hs : quote ∉ s.toList) : Lexeme (.text .literal s) (quote :: s.toList ++ [quote]) rest
  | number {s : String} {rest : List Char} (hs : IsNumeral s) (hdigit : EndsRun Char.isDigit rest)
      (hdot : '.' ∉ s.toList → EndsRun (· == '.') rest) : Lexeme (.text .number s) s.toList rest
  | star {rest : List Char} : Lexeme (.text .nameTest "*") ['*'] rest
  | namespaceStar {p : String} {w w' rest : List Char} (hp : IsNCName p) (hw : Blank w)
      (hfirst : EndsRun inName (w ++ ':' :: w' ++ ['*'] ++ rest)) (hw' : Blank w') :
      Lexeme (.text .nameTest (qualified p "*")) (p.toList ++ w ++ ':' :: w' ++ ['*']) rest
  | name {kind : TextKind} {s : String} {l rest : List Char}
      (hk : kind ∈ [TextKind.nameTest, .functionName, .nodeType, .processingInstruction])
      (hs : NameLexeme s l rest) : Lexeme (.text kind s) l rest
  | variableReference {s : String} {l rest : List Char} (hs : NameLexeme s l rest) :
      Lexeme (.text .variableReference s) ('$' :: l) rest

theorem Cursor.Over.unique {c d : Cursor} {u v : List Char} (h : c.Over u d) (h' : c.Over v d) :
    u = v :=
  List.append_cancel_right (h.rest.symm.trans h'.rest)

/-- Blanks and a colon end a part of a name. -/
theorem endsRun_colon {w : List Char} (hw : Blank w) (r : List Char) :
    EndsRun inName (w ++ ':' :: r) :=
  endsRun_blank hw (endsRun_cons.mpr (by decide))

theorem SpellsName.lexeme {p s : String} {l rest : List Char} (h : SpellsName p s l)
    (hend : EndsRun inName rest) : NameLexeme s l rest := by
  cases h with
  | plain hn => exact .plain hn hend
  | colon hp hw hw' hn =>
    apply NameLexeme.colon hp hw _ hw' hn hend
    simpa using endsRun_colon hw _

theorem Spells.lexeme {t : Token String} {l rest : List Char} (h : Spells t l)
    (hend : EndsRun t.goesOn rest) : Lexeme t l rest := by
  cases h with
  | mark hm => exact .mark hm hend
  | axis hw =>
    apply Lexeme.axis hw
    simpa using endsRun_colon hw _
  | literal hq hs => exact .literal hq hs
  | number hs =>
    have hparts (x : Char) (hx : rest.head? = some x) := Bool.or_eq_false_iff.mp (hend x hx)
    apply Lexeme.number hs
    · intro x hx
      exact (hparts x hx).1
    · intro hdot x hx
      have hnone := (hparts x hx).2
      simpa [hdot] using hnone
  | star => exact .star
  | namespaceStar hp hw hw' =>
    apply Lexeme.namespaceStar hp hw _ hw'
    simpa using endsRun_colon hw _
  | name hk hs =>
    rw [goesOn_name hs.qName hk] at hend
    exact .name hk (hs.lexeme hend)
  | variableReference hs => exact .variableReference (hs.lexeme hend)

namespace Lexer

/-- After so many tokens, errors and ends counted as tokens. -/
def after (l : Lexer) : Nat → Lexer
  | 0 => l
  | n + 1 => (l.after n).next.2

/-- The characters that the token of that number takes, whatever was read before it. -/
def piece (s : String) (n : Nat) : List Char :=
  let l := (ofString s).after n
  (s.toList.drop l.position).take (l.next.2.position - l.position)

theorem reaches_after (s : String) (n : Nat) :
    (Cursor.ofString s).Reaches ((ofString s).after n).cursor := by
  induction n with
  | zero => exact Cursor.reaches_refl _
  | succ n ih => exact ih.trans (Cursor.reaches_scan _ _)

/-- A piece is what lies between the cursor before and the cursor behind. -/
theorem over_piece (s : String) (n : Nat) :
    ((ofString s).after n).cursor.Over (piece s n) ((ofString s).after (n + 1)).cursor := by
  have hrest := (reaches_after s n).rest_eq.1
  obtain ⟨u, hu⟩ := Cursor.reaches_scan ((ofString s).after n).cursor
    ((ofString s).after n).context.expectsOperator
  have hlength : ((ofString s).after n).next.2.position - ((ofString s).after n).position =
      u.length := by
    have hposition := hu.position
    show (Cursor.scan _ _).2.position - ((ofString s).after n).cursor.position = u.length
    omega
  have hpiece : piece s n = u := by
    show (s.toList.drop ((ofString s).after n).cursor.position).take _ = u
    rw [hlength, ← hrest, hu.rest, List.take_left]
  rw [hpiece]
  exact hu

/-- A token that is none of the final ones is written in its piece, with blanks around it. -/
theorem piece_lexeme {s : String} {n : Nat}
    (hfinal : ((ofString s).after n).next.1.isFinal = false) :
    ∃ w text w', piece s n = w ++ text ++ w' ∧ Blank w ∧ Blank w' ∧ text ≠ [] ∧
      Lexeme ((ofString s).after n).next.1 text
        (w' ++ s.toList.drop ((ofString s).after (n + 1)).position) := by
  have hnext := (reaches_after s (n + 1)).rest_eq.1
  have hpiece := over_piece s n
  obtain ⟨text, hspells, ⟨w', hw', hover, hend⟩, -⟩ :=
    Cursor.scan_sound (Prod.eta _).symm hfinal
  have hall := (Cursor.over_skipSpace ((ofString s).after n).cursor).append hover
  have htaken := hpiece.unique hall
  have hlexeme := hspells.lexeme hend
  obtain ⟨x, r, hhead, -⟩ := hspells.head
  have hne : text ≠ [] := by simp [hhead]
  refine ⟨_, text, w', htaken.trans (List.append_assoc _ _ _).symm, blank_takeWhile _, hw', hne, ?_⟩
  show Lexeme _ text (w' ++ s.toList.drop ((ofString s).after (n + 1)).cursor.position)
  rw [← hnext]
  exact hlexeme

/-- From any token on, the pieces up to the end of the text make up the text that is left. -/
theorem rest_eq_pieces {s : String} {n : Nat} {ts : List (Token String)}
    (h : ((ofString s).after n).tokens.map Prod.fst = ts ++ [.mark .endOfInput]) :
    (∀ i (hi : i < ts.length), ((ofString s).after (n + i)).next.1 = ts[i]) ∧
      ∃ tail, Blank tail ∧ ((ofString s).after n).cursor.rest =
        (List.range' n ts.length).flatMap (piece s) ++ tail := by
  induction ts generalizing n with
  | nil =>
    rw [map_tokens] at h
    have hend := next_end.mp (List.cons.inj h).1
    have hblank : Blank ((ofString s).after n).cursor.rest := List.dropWhile_eq_nil_iff.mp hend
    exact ⟨fun i hi => absurd hi (Nat.not_lt_zero i), _, hblank, rfl⟩
  | cons t ts ih =>
    rw [map_tokens] at h
    obtain ⟨ht, hrest⟩ := List.cons.inj h
    cases hfinal : ((ofString s).after n).next.1.isFinal with
    | true => simp [hfinal] at hrest
    | false =>
      rw [hfinal] at hrest
      obtain ⟨htokens, tail, htail, hpieces⟩ := ih (n := n + 1) hrest
      constructor
      · intro i hi
        cases i with
        | zero => exact ht
        | succ i =>
          have hless : i < ts.length := Nat.lt_of_succ_lt_succ hi
          have hsame := htokens i hless
          rw [Nat.add_right_comm] at hsame
          exact hsame
      · refine ⟨tail, htail, ?_⟩
        rw [(over_piece s n).rest, hpieces, List.length_cons, List.range'_succ, List.flatMap_cons,
          List.append_assoc]

/-- Any token of a text but the final ones, whatever came before it, faults included, moves the cursor
on within the text, over blanks, the longest spelling of the token there, and blanks. If the text is
read to its end, it consists of what its tokens take so and of blanks behind them. -/
theorem pieces_lexemes (s : String) :
    (∀ n, ((ofString s).after n).next.1.isFinal = false →
      ((ofString s).after n).position < ((ofString s).after n).next.2.position ∧
        ((ofString s).after n).next.2.position ≤ s.length ∧
        ∃ w text w', piece s n = w ++ text ++ w' ∧ Blank w ∧ Blank w' ∧
          Lexeme ((ofString s).after n).next.1 text
            (w' ++ s.toList.drop ((ofString s).after n).next.2.position)) ∧
    ∀ ts, tokenize s = ts ++ [.mark .endOfInput] →
      (∀ i (hi : i < ts.length), ((ofString s).after i).next.1 = ts[i]) ∧
        ∃ tail, Blank tail ∧
          s.toList = (List.range ts.length).flatMap (piece s) ++ tail := by
  constructor
  · intro n hfinal
    have hbound := (reaches_after s (n + 1)).rest_eq.2
    have hposition := (over_piece s n).position
    obtain ⟨w, text, w', hpiece, hw, hw', hne, hlexeme⟩ := piece_lexeme hfinal
    have hpositive : 0 < text.length := List.length_pos_iff.mpr hne
    have hlength : (piece s n).length = w.length + text.length + w'.length := by
      rw [hpiece, List.length_append, List.length_append]
    refine ⟨?_, ?_, w, text, w', hpiece, hw, hw', hlexeme⟩
    · show ((ofString s).after n).cursor.position < ((ofString s).after (n + 1)).cursor.position
      omega
    · rw [← String.length_toList]
      exact hbound
  · intro ts h
    have hall := rest_eq_pieces (s := s) (n := 0) h
    simp only [Nat.zero_add] at hall
    rw [List.range_eq_range']
    exact hall

/-- Behind an axis that there is none of, names are read as anywhere else. -/
theorem pieces_lexemes_behind_fault :
    ((ofString "foo::p :*2").after 0).next.1 = .mark (.error (.unknownAxis "foo")) ∧
      ((ofString "foo::p :*2").after 1).next.1.isFinal = false ∧
      piece "foo::p :*2" 1 = ['p', ' ', ':', '*'] ∧
      (∃ w text w', piece "foo::p :*2" 1 = w ++ text ++ w' ∧ Blank w ∧ Blank w' ∧
        Lexeme ((ofString "foo::p :*2").after 1).next.1 text
          (w' ++ "foo::p :*2".toList.drop ((ofString "foo::p :*2").after 1).next.2.position)) ∧
      tokenize "p :*2" = [.text .nameTest "p:*", .text .number "2"] ++ [.mark .endOfInput] ∧
      ∃ tail, Blank tail ∧ "p :*2".toList = (List.range 2).flatMap (piece "p :*2") ++ tail := by
  have hfinal : ((ofString "foo::p :*2").after 1).next.1.isFinal = false := rfl
  have htokens : tokenize "p :*2" =
      [.text .nameTest "p:*", .text .number "2"] ++ [.mark .endOfInput] := rfl
  have hbehind := (pieces_lexemes "foo::p :*2").1 1 hfinal
  have hwhole := (pieces_lexemes "p :*2").2 _ htokens
  exact ⟨rfl, hfinal, rfl, hbehind.2.2, htokens, hwhole.2⟩

end Lexer
end XPath
