import XPath.Proofs.Token.Scan

/-! What a text that sets out tokens looks like from outside: blanks in front do not matter, and its
first character tells an opening parenthesis from any other token. -/
namespace XPath

/-- A character with which a token other than an opening parenthesis may begin. -/
private def Opens (x : Char) : Prop :=
  isSpace x = false ∧ x ≠ ':' ∧ x ≠ '('

private theorem opens_nameStart {x : Char} (hx : classify x = .nameStart) : Opens x := by
  refine ⟨?_, ?_, ?_⟩
  · cases hspace : isSpace x with
    | false => rfl
    | true =>
      have hin := inName_of_isSpace hspace
      simp [inName, hx] at hin
  · rintro rfl
    exact absurd hx (by decide)
  · rintro rfl
    exact absurd hx (by decide)

private theorem opens_digit {x : Char} (hx : x.isDigit = true) : Opens x := by
  refine ⟨isSpace_of_isDigit hx, ?_, ?_⟩
  · rintro rfl
    cases hx
  · rintro rfl
    cases hx

private theorem opens_isNCName {n : String} (hn : IsNCName n) (r : List Char) :
    ∃ x r', n.toList ++ r = x :: r' ∧ Opens x := by
  obtain ⟨first, rest, hs, hfirst, -⟩ := hn
  exact ⟨first, rest ++ r, by rw [hs, List.cons_append], opens_nameStart hfirst⟩

private theorem opens_number {s : String} (hs : IsNumeral s) :
    ∃ x r, s.toList = x :: r ∧ Opens x := by
  have hdot : Opens '.' := ⟨rfl, by decide, by decide⟩
  obtain ⟨whole, fraction, hdigits, hne, hform⟩ := hs
  cases whole with
  | cons x whole =>
    have hx := opens_digit (hdigits x List.mem_cons_self)
    rcases hform with hform | ⟨-, hform⟩
    · exact ⟨x, _, hform, hx⟩
    · exact ⟨x, _, hform, hx⟩
  | nil =>
    rcases hform with hform | ⟨rfl, -⟩
    · exact ⟨'.', _, hform, hdot⟩
    · exact absurd rfl hne

private theorem opens_mark {m : Mark} {l : List Char} (hm : m.spelling? = some l)
    (hparen : m ≠ .leftParen) : ∃ x r, l = x :: r ∧ Opens x := by
  cases m with
  | op o =>
    obtain rfl := Option.some.inj hm
    cases o <;> exact ⟨_, _, rfl, rfl, by decide, by decide⟩
  | endOfInput | error | axis => cases hm
  | leftParen => exact absurd rfl hparen
  | _ =>
    obtain rfl := Option.some.inj hm
    exact ⟨_, _, rfl, rfl, by decide, by decide⟩

private theorem opens_of_spells {t : Token String} {l : List Char} (h : Spells t l)
    (hparen : t ≠ .mark .leftParen) : ∃ x r, l = x :: r ∧ Opens x := by
  cases h with
  | mark hm => exact opens_mark hm (fun h => hparen (by rw [h]))
  | @axis a w hw =>
    rw [List.append_assoc]
    exact opens_isNCName (isNCName_axis a) _
  | literal hq hs =>
    refine ⟨_, _, rfl, ?_⟩
    rcases hq with rfl | rfl <;> exact ⟨rfl, by decide, by decide⟩
  | number hs => exact opens_number hs
  | star => exact ⟨'*', [], rfl, rfl, by decide, by decide⟩
  | @namespaceStar p w w' hp hw hw' =>
    rw [List.append_assoc, List.append_assoc]
    exact opens_isNCName hp _
  | name hk hs =>
    cases hs with
    | plain hn => simpa using opens_isNCName hn []
    | @colon n w w' hp hw hw' hn =>
      rw [List.append_assoc, List.append_assoc]
      exact opens_isNCName hp _
  | variableReference hs => exact ⟨'$', _, rfl, rfl, by decide, by decide⟩

/-- The first character of a token is not a blank. It is a parenthesis only if the token is one. -/
theorem Spells.head {t : Token String} {l : List Char} (h : Spells t l) :
    ∃ x r, l = x :: r ∧ isSpace x = false ∧ x ≠ ':' ∧ (x = '(' ↔ t = .mark .leftParen) := by
  by_cases hparen : t = .mark .leftParen
  · subst hparen
    cases h with
    | mark hm =>
      obtain rfl := Option.some.inj hm
      exact ⟨'(', [], rfl, rfl, by decide, by simp⟩
  · obtain ⟨x, r, hl, hspace, hcolon, hx⟩ := opens_of_spells h hparen
    exact ⟨x, r, hl, hspace, hcolon, iff_of_false hx hparen⟩

theorem Spells.not_final {t : Token String} {l : List Char} (h : Spells t l) :
    t.isFinal = false := by
  cases h with
  | @mark m l hm =>
    cases m with
    | endOfInput | error => cases hm
    | _ => rfl
  | _ => rfl

theorem Spells.endsRun {t : Token String} {l : List Char} (h : Spells t l) (r : List Char) :
    EndsRun isSpace (l ++ r) := by
  obtain ⟨x, r', rfl, hx, -⟩ := h.head
  exact endsRun_cons.mpr hx

namespace Layout

theorem append_blank {ts : List (Token String)} {w text : List Char} (hw : Blank w)
    (h : Layout ts text) : Layout ts (w ++ text) := by
  cases h with
  | nil hv => exact .nil (hw.append hv)
  | cons hv hl hend h => simpa using Layout.cons (hw.append hv) hl hend h

theorem dropWhile_eq {t : Token String} {w l rest : List Char} (hw : Blank w) (hl : Spells t l) :
    (w ++ l ++ rest).dropWhile isSpace = l ++ rest := by
  rw [List.append_assoc, dropWhile_append hw (hl.endsRun rest)]

/-- Blanks in front of a text do not matter. -/
theorem dropWhile_iff {ts : List (Token String)} {text : List Char} :
    Layout ts (text.dropWhile isSpace) ↔ Layout ts text := by
  constructor
  · intro h
    rw [← List.takeWhile_append_dropWhile (p := isSpace) (l := text)]
    exact h.append_blank (blank_takeWhile text)
  · intro h
    cases h with
    | nil hv => exact .nil fun x hx => hv x ((List.dropWhile_sublist isSpace).mem hx)
    | @cons t ts w l rest hw hl hend h =>
      rw [dropWhile_eq hw hl]
      exact Layout.cons blank_nil hl hend h

theorem head?_dropWhile {ts : List (Token String)} {text : List Char} (h : Layout ts text) :
    (text.dropWhile isSpace).head? ≠ some ':' ∧
      ((text.dropWhile isSpace).head? = some '(' ↔ ts.head? = some (.mark .leftParen)) := by
  cases h with
  | nil hw =>
    have hnil : text.dropWhile isSpace = [] := List.dropWhile_eq_nil_iff.mpr hw
    simp [hnil]
  | @cons t ts w l rest hw hl hend h =>
    obtain ⟨x, r, rfl, -, hcolon, hparen⟩ := hl.head
    rw [dropWhile_eq hw hl]
    simp [hcolon, hparen]

end Layout

/-! A blank between any two tokens is enough. -/

/-- A character of no name, number or longer mark goes on with no token. -/
theorem goesOn_of_break (t : Token String) {x : Char} (hname : inName x = false)
    (hdigit : x.isDigit = false) (hmark : x ∉ ['.', '/', '=']) : t.goesOn x = false := by
  simp only [List.mem_cons, List.not_mem_nil, or_false, not_or] at hmark
  unfold Token.goesOn
  split <;> simp [hname, hdigit, hmark]

theorem goesOn_blank (t : Token String) {x : Char} (hx : isSpace x = true) :
    t.goesOn x = false := by
  apply goesOn_of_break t (inName_of_isSpace hx)
  · cases hd : x.isDigit with
    | false => rfl
    | true => rw [isSpace_of_isDigit hd] at hx; cases hx
  · simp only [List.mem_cons, List.not_mem_nil, or_false]
    rintro (rfl | rfl | rfl) <;> cases hx

/-- Texts with the tokens of a list one after the other and a blank between any two. -/
inductive Spaced : List (Token String) → List Char → Prop
  | nil {w : List Char} (hw : Blank w) : Spaced [] w
  | last {t : Token String} {w l w' : List Char} (hw : Blank w) (hl : Spells t l) (hw' : Blank w') :
      Spaced [t] (w ++ l ++ w')
  | cons {t : Token String} {ts : List (Token String)} {w l rest : List Char} {x : Char}
      (hw : Blank w) (hl : Spells t l) (hx : isSpace x = true) (h : Spaced ts (x :: rest)) :
      Spaced (t :: ts) (w ++ l ++ x :: rest)

theorem Spaced.layout {ts : List (Token String)} {text : List Char} (h : Spaced ts text) :
    Layout ts text := by
  induction h with
  | nil hw => exact .nil hw
  | @last t w l w' hw hl hw' =>
    exact .cons hw hl (fun x hx => goesOn_blank t (hw' x (List.mem_of_mem_head? hx))) (.nil hw')
  | @cons t ts w l rest x hw hl hx h ih =>
    exact .cons hw hl (endsRun_cons.mpr (goesOn_blank t hx)) ih

theorem Spaced.append_blank {ts : List (Token String)} {w text : List Char} (hw : Blank w)
    (h : Spaced ts text) : Spaced ts (w ++ text) := by
  cases h with
  | nil hv => exact .nil (hw.append hv)
  | last hv hl hw' => simpa using Spaced.last (hw.append hv) hl hw'
  | cons hv hl hx h => simpa using Spaced.cons (hw.append hv) hl hx h

/-- One way to write a token. A literal gets a quote that it does not contain, if there is one. -/
def Token.spelling : Token String → List Char
  | .mark (.axis a) => a.name.toList ++ [':', ':']
  | .mark m => m.spelling?.getD []
  | .text .literal s =>
    let quote := if s.toList.contains '\'' then '"' else '\''
    quote :: s.toList ++ [quote]
  | .text .variableReference s => '$' :: s.toList
  | .text _ s => s.toList

/-- The tokens of a list with one space between any two. -/
def setOut : List (Token String) → List Char
  | [] => []
  | [t] => t.spelling
  | t :: ts => t.spelling ++ ' ' :: setOut ts

theorem QName.spells {p s : String} (h : QName p s) : SpellsName p s s.toList := by
  cases h with
  | plain hn => exact .plain hn
  | colon hp hn =>
    rw [toList_qualified]
    simpa using SpellsName.colon hp blank_nil blank_nil hn

private theorem qName_nodeType {s : String}
    (h : s ∈ ["comment", "text", "node", "processing-instruction"]) : QName s s := by
  simp only [List.mem_cons, List.not_mem_nil, or_false] at h
  rcases h with rfl | rfl | rfl | rfl <;> exact .plain (by decide)

/-- Whatever fits somewhere is spelled so. -/
theorem Token.Fits.spells {t : Token String} {op : Bool} {paren : Prop} (h : t.Fits op paren) :
    Spells t t.spelling := by
  cases t with
  | mark m =>
    cases m with
    | endOfInput | error => exact h.elim
    | axis a => simpa [Token.spelling] using Spells.axis (a := a) blank_nil
    | _ => exact .mark rfl
  | text kind s =>
    cases kind with
    | literal =>
      by_cases hs : '\'' ∈ s.toList
      · have hq : '"' ∉ s.toList := h.resolve_left (not_not_intro hs)
        simpa [Token.spelling, hs] using Spells.literal (Or.inr rfl) hq
      · simpa [Token.spelling, hs] using Spells.literal (Or.inl rfl) hs
    | number => exact .number h
    | nameTest =>
      rcases h with ⟨rfl, -⟩ | ⟨p, -, ⟨hp, rfl⟩ | ⟨hq, -⟩⟩
      · exact .star
      · simpa [Token.spelling, toList_qualified] using Spells.namespaceStar hp blank_nil blank_nil
      · exact .name (by decide) hq.spells
    | functionName =>
      obtain ⟨⟨p, -, hq⟩, -⟩ := h
      exact .name (by decide) hq.spells
    | nodeType =>
      have hname := List.mem_append_left ["processing-instruction"] h.1
      exact .name (by decide) (qName_nodeType hname).spells
    | processingInstruction =>
      exact .name (by decide) (qName_nodeType (by simp [h.1])).spells
    | variableReference =>
      obtain ⟨p, hq⟩ := h
      exact .variableReference hq.spells

theorem Consistent.spaced {c : OperatorContext} {ts : List (Token String)} (h : Consistent c ts) :
    Spaced ts (setOut ts) := by
  induction ts generalizing c with
  | nil => exact .nil blank_nil
  | cons t ts ih =>
    have hl := h.1.spells
    cases ts with
    | nil =>
      have hlast := Spaced.last blank_nil hl blank_nil
      rwa [List.append_nil, List.nil_append] at hlast
    | cons u ts =>
      have hspace : Blank [' '] := blank_singleton rfl
      have hrest := (ih h.2).append_blank hspace
      exact Spaced.cons (x := ' ') blank_nil hl rfl hrest

end XPath
