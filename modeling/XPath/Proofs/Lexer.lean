import XPath.Lexer
import XPath.Proofs.Token.Layout

/-! A text is read as a list of tokens if and only if it sets them out, and exactly the lists whose
tokens fit together can be set out. -/
namespace XPath

namespace Lexer

theorem next_eq (l : Lexer) :
    l.next = ((l.cursor.scan l.context.expectsOperator).1,
      ⟨(l.cursor.scan l.context.expectsOperator).2,
        l.context.record (l.cursor.scan l.context.expectsOperator).1.kind⟩) := rfl

/-- Where only blanks are left, the end is read, and nowhere else. -/
theorem next_end {l : Lexer} :
    l.next.1 = .mark .endOfInput ↔ l.cursor.rest.dropWhile isSpace = [] := by
  rw [next_eq, ← Cursor.rest_skipSpace]
  constructor
  · exact Cursor.rest_of_scan_end
  · intro h
    rw [Cursor.scan_end _ h]

/-- Behind the end nothing is left. -/
theorem rest_next_end {l : Lexer} (h : l.next.1 = .mark .endOfInput) :
    l.next.2.cursor.rest = [] := by
  have hskip : l.cursor.skipSpace.rest = [] := Cursor.rest_of_scan_end h
  rw [next_eq, Cursor.scan_end _ hskip]
  exact hskip

/-- Behind the end there is the end again. -/
theorem next_next_end {l : Lexer} (h : l.next.1 = .mark .endOfInput) :
    l.next.2.next.1 = .mark .endOfInput := by
  have hrest := rest_next_end h
  exact next_end.mpr (by rw [hrest]; rfl)

/-- A token takes at least one character. -/
theorem unread_next {l : Lexer} (h : l.next.1.isFinal = false) : l.next.2.unread < l.unread := by
  rw [next_eq] at h ⊢
  obtain ⟨text, hreads⟩ := Cursor.scan_sound (Prod.eta _).symm h
  obtain ⟨w, -, hover, -⟩ := hreads.moves
  obtain ⟨x, r, rfl, -⟩ := hreads.spells.head
  have hrest := ((Cursor.over_skipSpace l.cursor).append hover).rest
  unfold unread
  rw [hrest]
  simp only [List.length_append, List.length_cons]
  omega

/-- A number is read where there is a numeral. -/
theorem isNumeral_of_next {l : Lexer} {raw : String} (h : l.next.1 = .text .number raw) :
    IsNumeral raw := by
  rw [next_eq] at h
  obtain ⟨text, hreads⟩ := Cursor.scan_sound (Prod.eta _).symm (congrArg Token.isFinal h)
  have hfits := hreads.fits
  dsimp only at h
  rw [h] at hfits
  exact hfits

theorem trace_succ (n : Nat) (l : Lexer) :
    l.trace (n + 1) = (l.next.1, l.next.2.position) ::
      if l.next.1.isFinal then [] else l.next.2.trace n := rfl

/-- More steps than characters make no difference. -/
theorem trace_eq {l : Lexer} {n m : Nat} (hn : l.unread < n) (hm : l.unread < m) :
    l.trace n = l.trace m := by
  induction n generalizing l m with
  | zero => cases hn
  | succ n ih =>
    cases m with
    | zero => cases hm
    | succ m =>
      rw [trace_succ, trace_succ]
      cases hfinal : l.next.1.isFinal with
      | true => rfl
      | false =>
        have hless := unread_next hfinal
        rw [ih (l := l.next.2) (m := m) (by omega) (by omega)]

theorem tokens_eq (l : Lexer) :
    l.tokens = (l.next.1, l.next.2.position) ::
      if l.next.1.isFinal then [] else l.next.2.tokens := by
  unfold tokens
  rw [trace_succ]
  cases hfinal : l.next.1.isFinal with
  | true => rfl
  | false =>
    have hless := unread_next hfinal
    rw [trace_eq (m := l.next.2.unread + 1) (by omega) (by omega)]

theorem map_tokens (l : Lexer) :
    l.tokens.map Prod.fst =
      l.next.1 :: if l.next.1.isFinal then [] else l.next.2.tokens.map Prod.fst := by
  rw [tokens_eq]
  cases l.next.1.isFinal <;> rfl

/-- A token is read before a text that sets out others if it fits there and is written there. -/
theorem next_iff {l : Lexer} {t : Token String} {ts : List (Token String)} :
    (l.next.1 = t ∧ t.isFinal = false ∧ Layout ts l.next.2.cursor.rest) ↔
      t.Fits l.context.expectsOperator (ts.head? = some (.mark .leftParen)) ∧
        Layout (t :: ts) l.cursor.rest := by
  rw [next_eq]
  dsimp only
  constructor
  · rintro ⟨rfl, hfinal, hlayout⟩
    obtain ⟨text, hspells, ⟨w, hw, hover, hend⟩, hfits⟩ :=
      Cursor.scan_sound (Prod.eta _).symm hfinal
    rw [hlayout.head?_dropWhile.2] at hfits
    refine ⟨hfits, ?_⟩
    rw [((Cursor.over_skipSpace l.cursor).append hover).rest]
    have hall := Layout.cons (blank_takeWhile l.cursor.rest) hspells hend (hlayout.append_blank hw)
    simpa using hall
  · rintro ⟨hfits, hlayout⟩
    generalize htext : l.cursor.rest = text at hlayout
    cases hlayout with
    | @cons _ _ w u rest hw hspells hend hlayout =>
      have hhead := hlayout.head?_dropWhile
      have hrest : l.cursor.skipSpace.rest = u ++ rest := by
        rw [Cursor.rest_skipSpace, htext, Layout.dropWhile_eq hw hspells]
      rw [← hhead.2] at hfits
      obtain ⟨d, w', hd, hw', hover⟩ := Cursor.scan_complete hspells hrest hfits hend hhead.1
      rw [hd]
      refine ⟨rfl, hspells.not_final, ?_⟩
      have hdrop : rest = w' ++ d.rest := by
        have hall := hover.rest
        rw [hrest, List.append_assoc] at hall
        exact List.append_cancel_left hall
      rw [← Layout.dropWhile_iff]
      have hskip : d.rest.dropWhile isSpace = rest.dropWhile isSpace := by
        rw [hdrop, List.dropWhile_append_of_pos hw']
      rw [hskip]
      exact Layout.dropWhile_iff.mpr hlayout

/-- From a place in a text and the token before it on, the tokens are those that the rest sets
out. -/
theorem tokens_eq_iff {l : Lexer} {ts : List (Token String)} :
    l.tokens.map Prod.fst = ts ++ [.mark .endOfInput] ↔
      Consistent l.context ts ∧ Layout ts l.cursor.rest := by
  induction ts generalizing l with
  | nil =>
    rw [map_tokens]
    constructor
    · intro h
      have hend := next_end.mp (List.cons.inj h).1
      exact ⟨trivial, .nil (List.dropWhile_eq_nil_iff.mp hend)⟩
    · rintro ⟨-, hlayout⟩
      have hblank : Blank l.cursor.rest := by cases hlayout; assumption
      rw [next_end.mpr (List.dropWhile_eq_nil_iff.mpr hblank)]
      rfl
  | cons t ts ih =>
    have hcontext : l.next.2.context = l.context.record l.next.1.kind := rfl
    rw [map_tokens, Consistent]
    constructor
    · intro h
      obtain ⟨ht, htail⟩ := List.cons.inj h
      cases hfinal : l.next.1.isFinal with
      | true => simp [hfinal] at htail
      | false =>
        rw [hfinal] at htail
        obtain ⟨hrest, hlayout⟩ := ih.mp htail
        rw [ht] at hfinal
        obtain ⟨hfits, hall⟩ := next_iff.mp ⟨ht, hfinal, hlayout⟩
        rw [hcontext, ht] at hrest
        exact ⟨⟨hfits, hrest⟩, hall⟩
    · rintro ⟨⟨hfits, hrest⟩, hall⟩
      obtain ⟨ht, hfinal, hlayout⟩ := next_iff.mpr ⟨hfits, hall⟩
      rw [← ht, ← hcontext] at hrest
      rw [← ht] at hfinal
      have htail := ih.mpr ⟨hrest, hlayout⟩
      rw [ht] at hfinal ⊢
      rw [hfinal]
      exact congrArg (t :: ·) htail

end Lexer

theorem tokenize_eq_iff {s : String} {ts : List (Token String)} :
    tokenize s = ts ++ [.mark .endOfInput] ↔ Consistent {} ts ∧ Layout ts s.toList :=
  Lexer.tokens_eq_iff

/-- The lists of tokens that can be read are those whose tokens fit together, however they are set
out: exactly the texts that set them out are read so, among them all those with a blank between any
two tokens. -/
theorem tokenize_consistent (ts : List (Token String)) :
    ((∃ s, tokenize s = ts ++ [.mark .endOfInput]) ↔ Consistent {} ts) ∧
    (∀ s, Spaced ts s.toList → (tokenize s = ts ++ [.mark .endOfInput] ↔ Consistent {} ts)) ∧
    (∀ s, tokenize s = ts ++ [.mark .endOfInput] ↔ Consistent {} ts ∧ Layout ts s.toList) := by
  refine ⟨⟨?_, ?_⟩, fun s hs => ?_, fun s => tokenize_eq_iff⟩
  · rintro ⟨s, hs⟩
    exact (tokenize_eq_iff.mp hs).1
  · intro h
    refine ⟨String.ofList (setOut ts), tokenize_eq_iff.mpr ⟨h, ?_⟩⟩
    rw [String.toList_ofList]
    exact h.spaced.layout
  · rw [tokenize_eq_iff]
    exact and_iff_left hs.layout

/-- Whether a word is an operator depends on the token before it. -/
theorem tokenize_or_or_or :
    Spaced [.text .nameTest "or", .mark (.op .or), .text .nameTest "or"] "or or\tor".toList ∧
    Consistent {} [.text .nameTest "or", .mark (.op .or), .text .nameTest "or"] ∧
    tokenize "or or\tor" = [.text .nameTest "or", .mark (.op .or), .text .nameTest "or"] ++
      [.mark .endOfInput] := by
  have hor : IsNCName "or" := by decide
  have hname : Spells (.text .nameTest "or") ['o', 'r'] := .name (by decide) (.plain hor)
  have hspaced : Spaced [.text .nameTest "or", .mark (.op .or), .text .nameTest "or"]
      "or or\tor".toList := by
    have hlast : Spaced [.text .nameTest "or"] (['\t'] ++ ['o', 'r'] ++ []) :=
      .last (blank_singleton rfl) hname blank_nil
    have hmiddle : Spaced [.mark (.op .or), .text .nameTest "or"]
        ([' '] ++ ['o', 'r'] ++ '\t' :: ['o', 'r']) :=
      .cons (blank_singleton rfl) (.mark rfl) rfl hlast
    have hfirst : Spaced [.text .nameTest "or", .mark (.op .or), .text .nameTest "or"]
        ([] ++ ['o', 'r'] ++ ' ' :: ['o', 'r', '\t', 'o', 'r']) :=
      .cons blank_nil hname rfl hmiddle
    exact hfirst
  have hconsistent : Consistent {}
      [.text .nameTest "or", .mark (.op .or), .text .nameTest "or"] := by
    have hfits {paren : Prop} (hparen : ¬ paren) :
        (Token.text .nameTest "or").Fits false paren :=
      Or.inr ⟨"or", fun h => absurd h (by decide), Or.inr ⟨.plain hor, hparen⟩⟩
    exact ⟨hfits (by simp), fun _ => rfl, hfits (by simp), trivial⟩
  exact ⟨hspaced, hconsistent, ((tokenize_consistent _).2.1 _ hspaced).mpr hconsistent⟩

end XPath
