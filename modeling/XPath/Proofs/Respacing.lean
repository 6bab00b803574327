import XPath.Proofs.Descent.Exactness
import XPath.Proofs.Lexer

/-! Layout is insignificant. A text in which tokens are set out may be respaced: blanks may come and
go around tokens and at the colons within them, as long as they do not vanish between two tokens. The
same tokens are read, and the same tree. -/
namespace XPath

/-- A text without its blanks. -/
def compact (l : List Char) : List Char :=
  l.filter fun x => !isSpace x

@[simp] theorem compact_append (l r : List Char) : compact (l ++ r) = compact l ++ compact r :=
  List.filter_append l r

theorem compact_cons {x : Char} (hx : isSpace x = false) (l : List Char) :
    compact (x :: l) = x :: compact l := by
  simp [compact, hx]

theorem compact_of_solid {l : List Char} (hl : ∀ x ∈ l, isSpace x = false) : compact l = l := by
  unfold compact
  rw [List.filter_eq_self]
  intro x hx
  rw [hl x hx]
  rfl

theorem compact_eq_nil {w : List Char} : compact w = [] ↔ Blank w := by
  simp [compact, List.filter_eq_nil_iff, Blank]

theorem IsNCName.solid {s : String} (h : IsNCName s) : ∀ x ∈ s.toList, isSpace x = false := by
  intro x hx
  cases hspace : isSpace x with
  | false => rfl
  | true => exact (h.inName x hx).symm.trans (inName_of_isSpace hspace)

theorem IsNumeral.solid {s : String} (h : IsNumeral s) : ∀ x ∈ s.toList, isSpace x = false := by
  obtain ⟨whole, fraction, hdigits, -, hform⟩ := h
  intro x hx
  have hparts : x = '.' ∨ x ∈ whole ++ fraction := by
    rcases hform with hform | ⟨rfl, hform⟩
    · rw [hform, List.mem_append, List.mem_cons] at hx
      rw [List.mem_append]
      tauto
    · rw [hform] at hx
      exact Or.inr (List.mem_append_left [] hx)
  rcases hparts with rfl | hx
  · rfl
  · exact isSpace_of_isDigit (hdigits x hx)

theorem compact_colon {p : String} {w w' : List Char} (hp : IsNCName p) (hw : Blank w)
    (hw' : Blank w') (l : List Char) :
    compact (p.toList ++ w ++ ':' :: w' ++ l) = p.toList ++ ':' :: compact l := by
  have hbehind : compact (':' :: w' ++ l) = ':' :: compact l := by
    rw [List.cons_append, compact_cons rfl, compact_append, compact_eq_nil.mpr hw',
      List.nil_append]
  rw [List.append_assoc, compact_append, compact_append, compact_of_solid hp.solid,
    compact_eq_nil.mpr hw, List.append_nil, hbehind]

theorem SpellsName.compact_eq {p s : String} {l : List Char} (h : SpellsName p s l) :
    compact l = s.toList := by
  cases h with
  | plain hn => exact compact_of_solid hn.solid
  | colon hp hw hw' hn =>
    rw [compact_colon hp hw hw', compact_of_solid hn.solid, toList_qualified]

/-- The ways to write a token differ by blanks, or by the quotes of a literal. -/
theorem Spells.compact_eq {t : Token String} {l : List Char} (h : Spells t l)
    (ht : ∀ s, t ≠ .text .literal s) : compact l = t.spelling := by
  cases h with
  | @mark m l hm =>
    cases m with
    | op o =>
      obtain rfl := Option.some.inj hm
      cases o <;> rfl
    | endOfInput | error | axis => cases hm
    | _ =>
      obtain rfl := Option.some.inj hm
      rfl
  | @axis a w hw =>
    rw [compact_append, compact_append, compact_of_solid (isNCName_axis a).solid,
      compact_eq_nil.mpr hw, List.append_nil]
    rfl
  | literal => exact absurd rfl (ht _)
  | number hs => exact compact_of_solid hs.solid
  | star => rfl
  | namespaceStar hp hw hw' =>
    rw [compact_colon hp hw hw']
    show _ = (qualified _ "*").toList
    rw [toList_qualified]
    rfl
  | @name kind p s l hk hs =>
    rw [hs.compact_eq]
    simp only [List.mem_cons, List.not_mem_nil, or_false] at hk
    rcases hk with rfl | rfl | rfl | rfl <;> rfl
  | variableReference hs =>
    rw [compact_cons rfl, hs.compact_eq]
    rfl

theorem endsRun_of_solid {l : List Char} (hl : ∀ x ∈ l, isSpace x = false) : EndsRun isSpace l :=
  fun x hx => hl x (List.mem_of_mem_head? hx)

theorem endsRun_append {p : Char → Bool} {l : List Char} (hne : l ≠ []) (h : EndsRun p l)
    (r : List Char) : EndsRun p (l ++ r) := by
  obtain ⟨x, l, rfl⟩ := List.exists_cons_of_ne_nil hne
  exact endsRun_cons.mpr (endsRun_cons.mp h)

theorem IsNCName.endsRun_reverse {s : String} (h : IsNCName s) (l : List Char) :
    EndsRun isSpace (l ++ s.toList).reverse := by
  rw [List.reverse_append]
  apply endsRun_append (by simpa using h.ne_nil)
  exact endsRun_of_solid fun x hx => h.solid x (List.mem_reverse.mp hx)

theorem SpellsName.endsRun_reverse {p s : String} {l : List Char} (h : SpellsName p s l)
    (r : List Char) : EndsRun isSpace (r ++ l).reverse := by
  cases h with
  | plain hn => exact hn.endsRun_reverse r
  | colon hp hw hw' hn =>
    rw [← List.append_assoc]
    exact hn.endsRun_reverse _

/-- No spelling ends with a blank. -/
theorem Spells.endsRun_reverse {t : Token String} {l : List Char} (h : Spells t l) :
    EndsRun isSpace l.reverse := by
  cases h with
  | @mark m l hm =>
    have hsolid : ∀ x ∈ l, isSpace x = false := by
      cases m with
      | op o =>
        obtain rfl := Option.some.inj hm
        cases o <;> simp [BinaryOp.spelling, isSpace]
      | endOfInput | error | axis => cases hm
      | _ =>
        obtain rfl := Option.some.inj hm
        simp [isSpace]
    exact endsRun_of_solid fun x hx => hsolid x (List.mem_reverse.mp hx)
  | axis hw => simp [endsRun_cons, isSpace]
  | literal hq hs =>
    rw [List.reverse_append]
    rcases hq with rfl | rfl <;> exact endsRun_cons.mpr rfl
  | number hs => exact endsRun_of_solid fun x hx => hs.solid x (List.mem_reverse.mp hx)
  | star => exact endsRun_cons.mpr rfl
  | namespaceStar hp hw hw' => simp [endsRun_cons, isSpace]
  | name hk hs => exact hs.endsRun_reverse []
  | variableReference hs => exact hs.endsRun_reverse ['$']

theorem Spells.length_literal {s : String} {l : List Char} (h : Spells (.text .literal s) l) :
    l.length = s.toList.length + 2 := by
  cases h with
  | literal => simp
  | name hk => simp at hk

/-- No spelling of a token goes on to another one. -/
theorem Spells.eq_nil_of_append {t : Token String} {l u : List Char} (h : Spells t l)
    (h' : Spells t (l ++ u)) : u = [] := by
  by_cases ht : ∃ s, t = .text .literal s
  · obtain ⟨s, rfl⟩ := ht
    have hlength := h'.length_literal
    rw [List.length_append, h.length_literal] at hlength
    exact List.length_eq_zero_iff.mp (by omega)
  · have hplain (s : String) : t ≠ .text .literal s := fun hs => ht ⟨s, hs⟩
    have hcompact := h'.compact_eq hplain
    rw [compact_append, h.compact_eq hplain] at hcompact
    have hblank : Blank u := compact_eq_nil.mp (List.append_right_eq_self.mp hcompact)
    have hend := h'.endsRun_reverse
    by_contra hne
    obtain ⟨v, x, rfl⟩ := (List.eq_nil_or_concat' u).resolve_left hne
    rw [← List.append_assoc, List.reverse_append] at hend
    have hx := hblank x (by simp)
    rw [endsRun_cons.mp hend] at hx
    cases hx

/-- In a text, a token is spelled in one way only. -/
theorem Spells.unique {t : Token String} {l l' r r' : List Char} (h : Spells t l)
    (h' : Spells t l') (hall : l ++ r = l' ++ r') : l = l' := by
  rcases List.append_eq_append_iff.mp hall with ⟨u, rfl, -⟩ | ⟨u, rfl, -⟩
  · rw [h.eq_nil_of_append h', List.append_nil]
  · rw [h'.eq_nil_of_append h, List.append_nil]

theorem Spells.head?_eq {t : Token String} {l : List Char} (h : Spells t l)
    (ht : ∀ s, t ≠ .text .literal s) : l.head? = t.spelling.head? := by
  obtain ⟨x, r, rfl, hx, -⟩ := h.head
  rw [← h.compact_eq ht, compact_cons hx]
  rfl

theorem Spells.head?_literal {s : String} {l : List Char} (h : Spells (.text .literal s) l) :
    l.head? = some '\'' ∨ l.head? = some '"' := by
  cases h with
  | literal hq => exact hq.imp (congrArg some) (congrArg some)
  | name hk => simp at hk

/-- Whether a token goes on with the next one does not depend on how that one is spelled. -/
theorem Spells.endsRun_goesOn {t u : Token String} {l l' r : List Char} (h : Spells u l)
    (h' : Spells u l') (hend : EndsRun t.goesOn (l ++ r)) (r' : List Char) :
    EndsRun t.goesOn (l' ++ r') := by
  obtain ⟨x, v, hl, -⟩ := h.head
  obtain ⟨x', v', hl', -⟩ := h'.head
  rw [hl, List.cons_append, endsRun_cons] at hend
  rw [hl', List.cons_append, endsRun_cons]
  by_cases hu : ∃ s, u = .text .literal s
  · obtain ⟨s, rfl⟩ := hu
    have hquote := h'.head?_literal
    rw [hl', List.head?_cons, Option.some.injEq, Option.some.injEq] at hquote
    rcases hquote with rfl | rfl <;> exact goesOn_of_break t (by decide) rfl (by decide)
  · have hplain (s : String) : u ≠ .text .literal s := fun hs => hu ⟨s, hs⟩
    have hsame := (h.head?_eq hplain).trans (h'.head?_eq hplain).symm
    rw [hl, hl'] at hsame
    rwa [← Option.some.inj hsame]

/-- Two texts with the same tokens one after the other, each spelled in any way and with any blanks
behind it. Where the first text has blanks between two tokens, the second one has some too. -/
inductive Respaced : List (Token String) → List Char → List Char → Prop
  | nil : Respaced [] [] []
  | cons {t : Token String} {ts : List (Token String)} {l l' w w' rest rest' : List Char}
      (hl : Spells t l) (hl' : Spells t l') (hw : Blank w) (hw' : Blank w')
      (hgap : ts ≠ [] → w ≠ [] → w' ≠ []) (h : Respaced ts rest rest') :
      Respaced (t :: ts) (l ++ w ++ rest) (l' ++ w' ++ rest')

namespace Respaced
variable {ts : List (Token String)} {text text' : List Char}

/-- What separates two tokens still does when the text is respaced. -/
theorem endsRun {t : Token String} {w w' : List Char} (h : Respaced ts text text')
    (hw' : Blank w') (hgap : ts ≠ [] → w ≠ [] → w' ≠ []) (hend : EndsRun t.goesOn (w ++ text)) :
    EndsRun t.goesOn (w' ++ text') := by
  cases w' with
  | cons x w' => exact endsRun_cons.mpr (goesOn_blank t (hw' x List.mem_cons_self))
  | nil =>
    cases h with
    | nil => exact endsRun_nil _
    | cons hl hl' hw hw' =>
      obtain rfl : w = [] := by
        by_contra hne
        exact hgap (List.cons_ne_nil _ _) hne rfl
      rw [List.nil_append, List.append_assoc] at hend ⊢
      exact hl.endsRun_goesOn hl' hend _

/-- A text that sets out its tokens still does when it is respaced. -/
theorem layout {w w' : List Char} (h : Respaced ts text text') (hw : Blank w) (hw' : Blank w')
    (hlayout : Layout ts (w ++ text)) : Layout ts (w' ++ text') := by
  induction h generalizing w w' with
  | nil => exact .nil (by simpa using hw')
  | @cons t ts l l' v v' rest rest' hl hl' hv hv' hgap h ih =>
    generalize htext : w ++ (l ++ v ++ rest) = all at hlayout
    cases hlayout with
    | @cons _ _ w₀ l₀ rest₀ hw₀ hl₀ hend hrest =>
      -- Both ways to split the text come to the same.
      have hsplit : l ++ (v ++ rest) = l₀ ++ rest₀ := by
        have hdrop := congrArg (List.dropWhile isSpace) htext
        rwa [← List.append_assoc, ← List.append_assoc, List.append_assoc (w ++ l),
          Layout.dropWhile_eq hw hl, Layout.dropWhile_eq hw₀ hl₀] at hdrop
      obtain rfl := hl.unique hl₀ hsplit
      obtain rfl := List.append_cancel_left hsplit
      have hbehind := Layout.cons hw' hl' (h.endsRun hv' hgap hend) (ih hv hv' hrest)
      simpa using hbehind

end Respaced

/-- A text that sets out its tokens consists of blanks, then a spelling of each with blanks behind
it. -/
theorem Layout.respaced {ts : List (Token String)} {text : List Char} (h : Layout ts text) :
    ∃ w rest, text = w ++ rest ∧ Blank w ∧ Respaced ts rest rest := by
  induction h with
  | @nil w hw => exact ⟨w, [], (List.append_nil w).symm, hw, .nil⟩
  | @cons t ts w l rest hw hl hend h ih =>
    obtain ⟨v, rest, rfl, hv, hrest⟩ := ih
    refine ⟨w, l ++ v ++ rest, by simp, hw, ?_⟩
    exact .cons hl hl hv hv (fun _ => id) hrest

/-- Layout is insignificant. If a text without errors is respaced, blanks in front included, the same
tokens are read, and every setting accepts it as the same tree or not at all, as before. -/
theorem tokenize_respaced {ts : List (Token String)} {input input' : String}
    {w w' text text' : List Char} (hinput : input.toList = w ++ text)
    (hinput' : input'.toList = w' ++ text') (hw : Blank w) (hw' : Blank w')
    (h : Respaced ts text text') (htokens : tokenize input = ts ++ [.mark .endOfInput]) :
    tokenize input' = ts ++ [.mark .endOfInput] ∧
      ∀ (s : Setting) (e : Expr),
        Descent.parse s input = .ok e ↔ Descent.parse s input' = .ok e := by
  obtain ⟨hconsistent, hlayout⟩ := tokenize_eq_iff.mp htokens
  rw [hinput] at hlayout
  have hlayout' := h.layout hw hw' hlayout
  rw [← hinput'] at hlayout'
  have htokens' := tokenize_eq_iff.mpr ⟨hconsistent, hlayout'⟩
  refine ⟨htokens', fun s e => ?_⟩
  rw [Descent.parse_eq_ok_iff_derives, Descent.parse_eq_ok_iff_derives, htokens, htokens']

/-- Blanks come at both sides of the colon, at both ends, and the two between tokens change. -/
theorem tokenize_respaced_div :
    Respaced [.text .nameTest "a", .mark (.op .divide), .text .nameTest "p:b"] "a div p:b".toList
        "a\ndiv\tp : b ".toList ∧
      tokenize "a div p:b" =
        [.text .nameTest "a", .mark (.op .divide), .text .nameTest "p:b"] ++ [.mark .endOfInput] ∧
      tokenize " a\ndiv\tp : b " =
        [.text .nameTest "a", .mark (.op .divide), .text .nameTest "p:b"] ++ [.mark .endOfInput] ∧
      ∀ (s : Setting) (e : Expr), Descent.parse s "a div p:b" = .ok e ↔
        Descent.parse s " a\ndiv\tp : b " = .ok e := by
  have hspace (x : Char) (hx : isSpace x = true := by rfl) : Blank [x] := blank_singleton hx
  have ha : Spells (.text .nameTest "a") ['a'] := .name (by decide) (.plain (by decide))
  have hdiv : Spells (.mark (.op .divide)) ['d', 'i', 'v'] := .mark rfl
  have hname (w w' : List Char) (hw : Blank w) (hw' : Blank w') :
      Spells (.text .nameTest "p:b") (['p'] ++ w ++ ':' :: w' ++ ['b']) :=
    .name (by decide) (.colon (p := "p") (n := "b") (by decide) hw hw' (by decide))
  have hlast := hname [' '] [' '] (hspace ' ') (hspace ' ')
  have htail : Respaced [.text .nameTest "p:b"] (['p', ':', 'b'] ++ [] ++ [])
      (['p', ' ', ':', ' ', 'b'] ++ [' '] ++ []) :=
    .cons (hname [] [] blank_nil blank_nil) hlast blank_nil (hspace ' ') (fun h => absurd rfl h) .nil
  have hdivided := Respaced.cons hdiv hdiv (hspace ' ') (hspace '\t') (fun _ _ => by simp) htail
  have hall := Respaced.cons ha ha (hspace ' ') (hspace '\n') (fun _ _ => by simp) hdivided
  have htokens : tokenize "a div p:b" =
      [.text .nameTest "a", .mark (.op .divide), .text .nameTest "p:b"] ++ [.mark .endOfInput] := rfl
  have hinput : "a div p:b".toList = [] ++ "a div p:b".toList := rfl
  have hinput' : " a\ndiv\tp : b ".toList = [' '] ++ "a\ndiv\tp : b ".toList := rfl
  exact ⟨hall, htokens, tokenize_respaced hinput hinput' blank_nil (hspace ' ') hall htokens⟩

end XPath
