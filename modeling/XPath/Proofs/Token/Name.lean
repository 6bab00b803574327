import XPath.Proofs.Token.Lexeme

/-! Tokens that begin with a name. The name before a colon is read first; what it is depends on
whether an operator is expected and on what follows it. -/
namespace XPath

theorem BinaryOp.ofWord?_eq_some {s : String} {o : BinaryOp} :
    BinaryOp.ofWord? s = some o ↔ o ∈ [and, or, modulo, divide] ∧ s = o.spelling := by
  constructor
  · intro h
    unfold ofWord? at h
    split_ifs at h with h₁ h₂ h₃ h₄ <;> cases h
    · exact ⟨by decide, eq_of_beq h₁⟩
    · exact ⟨by decide, eq_of_beq h₂⟩
    · exact ⟨by decide, eq_of_beq h₃⟩
    · exact ⟨by decide, eq_of_beq h₄⟩
  · rintro ⟨ho, rfl⟩
    cases o <;> first | rfl | simp at ho

theorem BinaryOp.ofWord?_eq_none {s : String} : BinaryOp.ofWord? s = none ↔ ¬ IsOperatorWord s := by
  unfold ofWord? IsOperatorWord
  split_ifs <;> simp_all

theorem Axis.ofName?_eq_some {s : String} {a : Axis} : Axis.ofName? s = some a ↔ s = a.name := by
  constructor
  · intro h
    unfold ofName? at h
    have hname := List.find?_some h
    exact (eq_of_beq hname).symm
  · rintro rfl
    cases a <;> decide

theorem isNCName_axis (a : Axis) : IsNCName a.name := by
  cases a <;> decide

theorem isNCName_word {o : BinaryOp} (h : o ∈ [BinaryOp.and, .or, .modulo, .divide]) :
    IsNCName o.spelling := by
  cases o <;> first | decide | simp at h

theorem not_isOperatorWord_axis (a : Axis) : ¬ IsOperatorWord a.name := by
  unfold IsOperatorWord
  cases a <;> decide

theorem SpellsName.qName {p s : String} {l : List Char} (h : SpellsName p s l) : QName p s := by
  cases h with
  | plain hn => exact .plain hn
  | colon hp _ _ hn => exact .colon hp hn

theorem QName.isNCName {p s : String} (h : QName p s) : IsNCName p := by
  cases h with
  | plain hn => exact hn
  | colon hp _ => exact hp

theorem toList_qualified (p n : String) : (qualified p n).toList = p.toList ++ ':' :: n.toList := by
  simp [qualified]

/-- A star is never part of a name. -/
theorem star_notMem {s : String} (h : IsNCName s) : '*' ∉ s.toList :=
  fun hmem => absurd (h.inName '*' hmem) (by decide)

theorem getLast?_qName {p s : String} (h : QName p s) : s.toList.getLast? ≠ some '*' := by
  intro hlast
  have hmem := List.mem_of_getLast? hlast
  cases h with
  | plain hn => exact star_notMem hn hmem
  | @colon n hp hn =>
    have hne := hn.ne_nil
    rw [toList_qualified, List.getLast?_append, List.getLast?_cons_of_ne_nil hne] at hlast
    cases hl : n.toList.getLast? with
    | none => exact hne (List.getLast?_eq_none_iff.mp hl)
    | some x =>
      rw [hl] at hlast
      obtain rfl := Option.some.inj hlast
      exact star_notMem hn (List.mem_of_getLast? hl)

theorem QName.toList_eq {p s : String} (h : QName p s) :
    p.toList = s.toList.takeWhile inName := by
  cases h with
  | plain hn => simpa using (takeWhile_append hn.inName (endsRun_nil inName)).symm
  | @colon n hp hn =>
    rw [toList_qualified, takeWhile_append hp.inName (endsRun_cons.mpr (by decide))]

/-- The part before the colon is known from the whole name. -/
theorem QName.unique {p p' s : String} (h : QName p s) (h' : QName p' s) : p = p' :=
  String.toList_inj.mp (h.toList_eq.trans h'.toList_eq.symm)

theorem goesOn_word {o : BinaryOp} (h : o ∈ [BinaryOp.and, .or, .modulo, .divide]) :
    (Token.mark (.op o)).goesOn = inName := by
  cases o <;> first | rfl | simp at h

/-- What goes on with a name does not depend on what the name stands for. -/
theorem goesOn_name {kind : TextKind} {p s : String} (h : QName p s)
    (hk : kind ∈ [TextKind.nameTest, .functionName, .nodeType, .processingInstruction]) :
    (Token.text kind s).goesOn = inName := by
  have hlast := getLast?_qName h
  funext x
  simp only [List.mem_cons, List.not_mem_nil, or_false] at hk
  rcases hk with rfl | rfl | rfl | rfl
  · simp [Token.goesOn, hlast]
  · rfl
  · rfl
  · rfl

theorem fits_ofCallee {p s : String} {op : Bool} (h : QName p s)
    (hp : op = true → ¬ IsOperatorWord p) :
    (Token.text (.ofCallee s) s).Fits op True ∧ (Token.text .nameTest s).Fits op False := by
  refine ⟨?_, Or.inr ⟨p, hp, Or.inr ⟨h, id⟩⟩⟩
  unfold TextKind.ofCallee
  split_ifs with hpi hnode
  · exact ⟨eq_of_beq hpi, trivial⟩
  · refine ⟨?_, trivial⟩
    simpa [or_assoc] using hnode
  · refine ⟨⟨p, hp, h⟩, ?_, trivial⟩
    simp_all

/-- A token that consists of a name fits only where that name is read as it. -/
theorem fits_name {kind : TextKind} {p s : String} {op : Bool} {paren : Prop} [Decidable paren]
    (h : QName p s)
    (hk : kind ∈ [TextKind.nameTest, .functionName, .nodeType, .processingInstruction])
    (hfits : (Token.text kind s).Fits op paren) :
    (if paren then TextKind.ofCallee s else .nameTest) = kind ∧
      (op = true → ¬ IsOperatorWord p) := by
  simp only [List.mem_cons, List.not_mem_nil, or_false] at hk
  rcases hk with rfl | rfl | rfl | rfl
  · have hlast := getLast?_qName h
    rcases hfits with ⟨rfl, -⟩ | ⟨p', hp', ⟨-, rfl⟩ | ⟨h', hparen⟩⟩
    · exact absurd rfl hlast
    · exact absurd (by simp [qualified]) hlast
    · rw [if_neg hparen, h.unique h']
      exact ⟨rfl, hp'⟩
  · obtain ⟨⟨p', hp', h'⟩, hnot, hparen⟩ := hfits
    rw [if_pos hparen, h.unique h']
    refine ⟨?_, hp'⟩
    unfold TextKind.ofCallee
    simp_all
  · obtain ⟨hs, hparen⟩ := hfits
    rw [if_pos hparen]
    simp only [List.mem_cons, List.not_mem_nil, or_false] at hs
    rcases hs with rfl | rfl | rfl
    all_goals
      have hplain := h.unique (.plain (by decide))
      rw [hplain]
      exact ⟨rfl, fun _ => by unfold IsOperatorWord; decide⟩
  · obtain ⟨rfl, hparen⟩ := hfits
    have hplain := h.unique (.plain (by decide))
    rw [if_pos hparen, hplain]
    exact ⟨rfl, fun _ => by unfold IsOperatorWord; decide⟩

theorem endsRun_blank {w r : List Char} (hw : Blank w) (hr : EndsRun inName r) :
    EndsRun inName (w ++ r) := by
  cases w with
  | nil => exact hr
  | cons x w => exact endsRun_cons.mpr (inName_of_isSpace (hw x List.mem_cons_self))

/-- A name that may have blanks in front begins with a blank or with the start of a name. -/
theorem head_name {w r : List Char} {n : String} (hw : Blank w) (hn : IsNCName n) {x : Char}
    (hx : (w ++ (n.toList ++ r)).head? = some x) : isSpace x = true ∨ classify x = .nameStart := by
  obtain ⟨first, rest, hs, hfirst, -⟩ := hn
  cases w with
  | nil =>
    rw [hs] at hx
    obtain rfl := Option.some.inj hx
    exact Or.inr hfirst
  | cons y w =>
    obtain rfl := Option.some.inj hx
    exact Or.inl (hw y List.mem_cons_self)

theorem endsRun_name {r : List Char} {n : String} (hn : IsNCName n) :
    EndsRun isSpace (n.toList ++ r) := by
  obtain ⟨first, rest, hs, hfirst, -⟩ := hn
  rw [hs]
  refine endsRun_cons.mpr ?_
  cases hspace : isSpace first with
  | false => rfl
  | true =>
    have hin := inName_of_isSpace hspace
    simp [inName, hfirst] at hin

namespace Cursor

theorem ncName?_advance {c : Cursor} {n : String} {r : List Char} (hn : IsNCName n)
    (hc : c.rest = n.toList ++ r) (hend : EndsRun inName r) :
    c.ncName? = some (n, c.advance n.toList.length) :=
  ncName?_eq_some.mpr ⟨hn, over_advance hc, rest_advance hc ▸ hend⟩

theorem over_blank {c : Cursor} {w r : List Char} (hw : Blank w) (hc : c.rest = w ++ r)
    (hr : EndsRun isSpace r) : c.Over w c.skipSpace ∧ c.skipSpace.rest = r := by
  have hrun : c.rest.takeWhile isSpace = w := by rw [hc, takeWhile_append hw hr]
  have hrest : c.skipSpace.rest = r := by rw [rest_skipSpace, hc, dropWhile_append hw hr]
  exact ⟨hrun ▸ over_skipSpace c, hrest⟩

/-- The three parts of a name with a colon, one after the other. -/
theorem colon_complete {c : Cursor} {p : String} {w w' r : List Char} (hp : IsNCName p)
    (hw : Blank w) (hw' : Blank w') (hr : EndsRun isSpace r)
    (hc : c.rest = p.toList ++ w ++ ':' :: w' ++ r) :
    ∃ a e, c.ncName? = some (p, a) ∧ a.skipSpace.rest = ':' :: (w' ++ r) ∧
      e = (a.skipSpace.advance 1).skipSpace ∧ e.rest = r ∧
      c.Over (p.toList ++ w ++ ':' :: w') e := by
  have hc' : c.rest = p.toList ++ (w ++ ':' :: (w' ++ r)) := by simp [hc]
  have hname := ncName?_advance hp hc' (endsRun_blank hw (endsRun_cons.mpr (by decide)))
  have hbehind := rest_advance hc'
  obtain ⟨hover, hcolon⟩ := over_blank hw hbehind (endsRun_cons.mpr (by decide))
  have hone := over_advance (u := [':']) hcolon
  obtain ⟨hover', hrest⟩ := over_blank hw' (rest_advance (u := [':']) hcolon) hr
  refine ⟨_, _, hname, hcolon, rfl, hrest, ?_⟩
  simpa using (((over_advance hc').append hover).append hone).append hover'

theorem nameOrCallee_eq (c : Cursor) (name : String) :
    c.nameOrCallee name =
      (.text (if (c.rest.dropWhile isSpace).head? = some '(' then .ofCallee name else .nameTest)
        name, c.skipSpace) := by
  unfold nameOrCallee
  rw [← rest_skipSpace]
  dsimp only
  split
  · next h => rw [if_pos (by rw [h]; rfl)]
  · next h =>
    rw [if_neg]
    intro hhead
    obtain ⟨tail, htail⟩ := List.head?_eq_some_iff.mp hhead
    exact h tail htail

/-- A name with a colon, from its three parts. -/
theorem over_colon {c a d e f : Cursor} {p n w w' r : List Char} (hp : c.Over p a)
    (hw : a.Over w d) (hd : d.rest = ':' :: r) (hw' : (d.advance 1).Over w' e) (hn : e.Over n f) :
    c.Over (p ++ w ++ ':' :: w' ++ n) f := by
  have hcolon := over_advance (u := [':']) hd
  simpa using (((hp.append hw).append hcolon).append hw').append hn

theorem variableReference_sound {c d : Cursor} {t : Token String}
    (h : c.variableReference = (t, d)) (ht : t.isFinal = false) :
    ∃ p s l w, t = .text .variableReference s ∧ SpellsName p s l ∧ Blank w ∧ c.Over (l ++ w) d ∧
      EndsRun inName (w ++ d.rest) := by
  unfold variableReference at h
  cases hname : c.ncName? with
  | none =>
    rw [hname] at h
    obtain ⟨rfl, -⟩ := Prod.mk.inj h
    cases ht
  | some r =>
    obtain ⟨name, after⟩ := r
    obtain ⟨hn, hover, hend⟩ := ncName?_eq_some.mp hname
    have hspace := over_skipSpace after
    have hplain : ∃ p s l w, Token.text .variableReference name = .text .variableReference s ∧
        SpellsName p s l ∧ Blank w ∧ c.Over (l ++ w) after.skipSpace ∧
        EndsRun inName (w ++ after.skipSpace.rest) :=
      ⟨name, name, _, _, rfl, .plain hn, blank_takeWhile _, hover.append hspace,
        hspace.rest ▸ hend⟩
    rw [hname] at h
    dsimp only at h
    split at h
    · obtain ⟨rfl, rfl⟩ := Prod.mk.inj h
      exact hplain
    · next rest hcolon =>
      cases hlocal : (after.skipSpace.advance 1).skipSpace.ncName? with
      | none =>
        rw [hlocal] at h
        obtain ⟨rfl, -⟩ := Prod.mk.inj h
        cases ht
      | some r =>
        obtain ⟨localName, behind⟩ := r
        rw [hlocal] at h
        obtain ⟨rfl, rfl⟩ := Prod.mk.inj h
        obtain ⟨hl, hover', hend'⟩ := ncName?_eq_some.mp hlocal
        have hall := over_colon hover hspace hcolon (over_skipSpace _) hover'
        exact ⟨name, _, _, [], rfl, .colon hn (blank_takeWhile _) (blank_takeWhile _) hl,
          blank_nil, by simpa using hall, hend'⟩
    · obtain ⟨rfl, rfl⟩ := Prod.mk.inj h
      exact hplain

theorem variableReference_complete {c : Cursor} {p s : String} {l rest : List Char}
    (hs : SpellsName p s l) (hc : c.rest = l ++ rest) (hend : EndsRun inName rest)
    (hcolon : (rest.dropWhile isSpace).head? ≠ some ':') :
    ∃ d w, c.variableReference = (.text .variableReference s, d) ∧ Blank w ∧ c.Over (l ++ w) d := by
  unfold variableReference
  cases hs with
  | plain hn =>
    have hname := ncName?_advance hn hc hend
    have hover := (over_advance hc).append (over_skipSpace _)
    rw [hname]
    dsimp only
    split
    · next hrest => exact ⟨_, _, rfl, blank_takeWhile _, hover⟩
    · next hrest =>
      rw [rest_skipSpace, rest_advance hc] at hrest
      rw [hrest] at hcolon
      exact absurd rfl hcolon
    · exact ⟨_, _, rfl, blank_takeWhile _, hover⟩
  | @colon n w w' hp hw hw' hn =>
    have hc' : c.rest = p.toList ++ w ++ ':' :: w' ++ (n.toList ++ rest) := by simp [hc]
    obtain ⟨a, e, hname, hrest, he, hlocal, hover⟩ :=
      colon_complete hp hw hw' (endsRun_name hn) hc'
    have hover' := hover.append (over_advance hlocal)
    rw [hname]
    dsimp only
    rw [hrest]
    split
    · next tail hcolons =>
      have hhead : (w' ++ (n.toList ++ rest)).head? = some ':' := by
        rw [(List.cons.inj hcolons).2]
        rfl
      exact absurd (head_name hw' hn hhead) (by decide)
    · rw [← he, ncName?_advance hn hlocal hend]
      exact ⟨_, [], rfl, blank_nil, by simpa using hover'⟩
    · next hno => exact absurd rfl (hno _)

theorem nameOrCallee_sound {c a d e : Cursor} {p s : String} {l w : List Char} {op : Bool}
    {t : Token String} (hs : SpellsName p s l) (hp : op = true → ¬ IsOperatorWord p)
    (hc : c.Over l a) (hw : Blank w) (ha : a.Over w d) (hend : EndsRun inName a.rest)
    (h : d.nameOrCallee s = (t, e)) : c.Reads op t l e := by
  rw [nameOrCallee_eq] at h
  obtain ⟨rfl, rfl⟩ := Prod.mk.inj h
  have hfits := fits_ofCallee hs.qName hp
  have hspace : d.skipSpace.rest.dropWhile isSpace = d.rest.dropWhile isSpace := by
    rw [rest_skipSpace, List.dropWhile_idempotent]
  have hover := ha.append (over_skipSpace d)
  have hblank : Blank (w ++ d.rest.takeWhile isSpace) := hw.append (blank_takeWhile _)
  have hkind : (if (d.rest.dropWhile isSpace).head? = some '(' then TextKind.ofCallee s
      else .nameTest) ∈ [TextKind.nameTest, .functionName, .nodeType, .processingInstruction] := by
    unfold TextKind.ofCallee
    split_ifs <;> decide
  refine ⟨.name hkind hs, ⟨_, hblank, hc.append hover, ?_⟩, ?_⟩
  · rw [goesOn_name hs.qName hkind, ← hover.rest]
    exact hend
  · rw [hspace]
    split_ifs with hparen
    · rw [eq_true hparen]
      exact hfits.1
    · rw [eq_false hparen]
      exact hfits.2

/-- What stands behind the colon: a star, or a name that may be called. -/
theorem colon_sound {c a d e : Cursor} {p : String} {w r : List Char} {op : Bool} {t : Token String}
    (hn : IsNCName p) (hp : op = true → ¬ IsOperatorWord p) (hc : c.Over p.toList a) (hw : Blank w)
    (ha : a.Over w d) (hd : d.rest = ':' :: r)
    (h : (match (d.advance 1).skipSpace.rest with
      | '*' :: _ => (.text .nameTest (qualified p "*"), (d.advance 1).skipSpace.advance 1)
      | _ => match (d.advance 1).skipSpace.ncName? with
        | none => (.mark (.error (.malformedQName (d.advance 1).skipSpace.position)),
            (d.advance 1).skipSpace)
        | some (localName, after) => after.nameOrCallee (qualified p localName)) = (t, e))
    (ht : t.isFinal = false) : ∃ l, c.Reads op t l e := by
  have hspace := over_skipSpace (d.advance 1)
  have hblank := blank_takeWhile (d.advance 1).rest
  split at h
  · next r' hstar =>
    obtain ⟨rfl, rfl⟩ := Prod.mk.inj h
    have hone := over_advance (u := ['*']) hstar
    refine ⟨_, .namespaceStar hn hw hblank, ⟨[], blank_nil, ?_, fun x _ => ?_⟩, ?_⟩
    · simpa using over_colon hc ha hd hspace hone
    · simp [Token.goesOn, qualified]
    · exact Or.inr ⟨p, hp, Or.inl ⟨hn, rfl⟩⟩
  · cases hlocal : (d.advance 1).skipSpace.ncName? with
    | none =>
      rw [hlocal] at h
      obtain ⟨rfl, -⟩ := Prod.mk.inj h
      cases ht
    | some r =>
      obtain ⟨localName, after⟩ := r
      rw [hlocal] at h
      obtain ⟨hl, hover, hend⟩ := ncName?_eq_some.mp hlocal
      exact ⟨_, nameOrCallee_sound (.colon hn hw hblank hl) hp (over_colon hc ha hd hspace hover)
        blank_nil (over_nil after) hend h⟩

theorem word_sound {c d : Cursor} {t : Token String} {op : Bool} (h : c.word op = (t, d))
    (ht : t.isFinal = false) : ∃ l, c.Reads op t l d := by
  unfold word at h
  cases hname : c.ncName? with
  | none =>
    rw [hname] at h
    obtain ⟨rfl, -⟩ := Prod.mk.inj h
    cases ht
  | some r =>
    obtain ⟨name, after⟩ := r
    obtain ⟨hn, hover, hend⟩ := ncName?_eq_some.mp hname
    have hspace := over_skipSpace after
    have hblank := blank_takeWhile after.rest
    rw [hname] at h
    dsimp only at h
    cases hword : if op = true then BinaryOp.ofWord? name else none with
    | some o =>
      rw [hword] at h
      obtain ⟨rfl, rfl⟩ := Prod.mk.inj h
      split_ifs at hword with hop
      obtain ⟨ho, rfl⟩ := BinaryOp.ofWord?_eq_some.mp hword
      refine ⟨_, .mark rfl, ⟨_, hblank, hover.append hspace, ?_⟩, fun _ => hop⟩
      rw [goesOn_word ho, ← hspace.rest]
      exact hend
    | none =>
      have hp : op = true → ¬ IsOperatorWord name := by
        rintro rfl
        exact BinaryOp.ofWord?_eq_none.mp hword
      rw [hword] at h
      dsimp only at h
      split at h
      · next r hcolons =>
        have htwo := over_advance (u := [':', ':']) hcolons
        split at h
        · next a ha =>
          obtain ⟨rfl, rfl⟩ := Prod.mk.inj h
          obtain rfl := Axis.ofName?_eq_some.mp ha
          refine ⟨_, .axis hblank, ⟨[], blank_nil, ?_, fun _ _ => rfl⟩, trivial⟩
          simpa using (hover.append hspace).append htwo
        · obtain ⟨rfl, -⟩ := Prod.mk.inj h
          cases ht
      · next r _ hcolon => exact colon_sound hn hp hover hblank hspace hcolon h ht
      · exact ⟨_, nameOrCallee_sound (.plain hn) hp hover hblank hspace hend h⟩

theorem ofWord?_of_not {p : String} {op : Bool} (hp : op = true → ¬ IsOperatorWord p) :
    (if op = true then BinaryOp.ofWord? p else none) = none := by
  split_ifs with hop
  · exact BinaryOp.ofWord?_eq_none.mpr (hp hop)
  · rfl

theorem word_operator {c : Cursor} {o : BinaryOp} {rest : List Char}
    (ho : o ∈ [BinaryOp.and, .or, .modulo, .divide]) (hc : c.rest = o.spelling.toList ++ rest)
    (hend : EndsRun inName rest) :
    c.word true = (.mark (.op o), (c.advance o.spelling.toList.length).skipSpace) := by
  unfold word
  rw [ncName?_advance (isNCName_word ho) hc hend]
  dsimp only
  rw [if_pos rfl, BinaryOp.ofWord?_eq_some.mpr ⟨ho, rfl⟩]

/-- A name before a double colon is looked up among the axes. -/
theorem word_colons {c : Cursor} {n : String} {op : Bool} {w rest : List Char} (hn : IsNCName n)
    (hword : op = true → ¬ IsOperatorWord n) (hw : Blank w)
    (hc : c.rest = (n.toList ++ w ++ [':', ':']) ++ rest) :
    ∃ d, c.word op = (.mark ((Axis.ofName? n).elim (.error (.unknownAxis n)) .axis), d) ∧
      c.Over (n.toList ++ w ++ [':', ':']) d := by
  have hc' : c.rest = n.toList ++ (w ++ ':' :: ':' :: rest) := by simp [hc]
  have hname := ncName?_advance hn hc' (endsRun_blank hw (endsRun_cons.mpr (by decide)))
  obtain ⟨hover, hcolons⟩ := over_blank hw (rest_advance hc') (endsRun_cons.mpr (by decide))
  have htwo := over_advance (u := [':', ':']) hcolons
  have hall : c.Over (n.toList ++ w ++ [':', ':']) _ := ((over_advance hc').append hover).append htwo
  unfold word
  rw [hname]
  dsimp only
  rw [ofWord?_of_not hword]
  dsimp only
  rw [hcolons]
  cases Axis.ofName? n with
  | none => exact ⟨_, rfl, hall⟩
  | some a => exact ⟨_, rfl, hall⟩

theorem word_axis {c : Cursor} {a : Axis} {op : Bool} {w rest : List Char} (hw : Blank w)
    (hc : c.rest = (a.name.toList ++ w ++ [':', ':']) ++ rest) :
    ∃ d, c.word op = (.mark (.axis a), d) ∧ c.Over (a.name.toList ++ w ++ [':', ':']) d := by
  have hcolons := word_colons (isNCName_axis a) (fun (_ : op = true) => not_isOperatorWord_axis a)
    hw hc
  rwa [Axis.ofName?_eq_some.mpr rfl] at hcolons

theorem word_namespaceStar {c : Cursor} {p : String} {op : Bool} {w w' rest : List Char}
    (hn : IsNCName p) (hp : op = true → ¬ IsOperatorWord p) (hw : Blank w) (hw' : Blank w')
    (hc : c.rest = (p.toList ++ w ++ ':' :: w' ++ ['*']) ++ rest) :
    ∃ d, c.word op = (.text .nameTest (qualified p "*"), d) ∧
      c.Over (p.toList ++ w ++ ':' :: w' ++ ['*']) d := by
  have hc' : c.rest = p.toList ++ w ++ ':' :: w' ++ ('*' :: rest) := by simp [hc]
  obtain ⟨a, e, hname, hrest, he, hstar, hover⟩ :=
    colon_complete hn hw hw' (endsRun_cons.mpr (by decide)) hc'
  have hone := over_advance (u := ['*']) hstar
  unfold word
  rw [hname]
  dsimp only
  rw [ofWord?_of_not hp]
  dsimp only
  rw [hrest]
  split
  · next tail hcolons =>
    have hsecond := (List.cons.inj hcolons).2
    cases w' with
    | nil => cases hsecond
    | cons x w' =>
      obtain rfl := (List.cons.inj hsecond).1
      have hblank := hw' ':' List.mem_cons_self
      exact absurd hblank (by decide)
  · rw [← he, hstar]
    exact ⟨_, rfl, hover.append hone⟩
  · next hno => exact absurd rfl (hno _)

theorem word_name {c : Cursor} {kind : TextKind} {p s : String} {l rest : List Char} {op : Bool}
    (hk : kind ∈ [TextKind.nameTest, .functionName, .nodeType, .processingInstruction])
    (hs : SpellsName p s l) (hc : c.rest = l ++ rest)
    (hfits : (Token.text kind s).Fits op ((rest.dropWhile isSpace).head? = some '('))
    (hend : EndsRun inName rest) (hcolon : (rest.dropWhile isSpace).head? ≠ some ':') :
    ∃ d w, c.word op = (.text kind s, d) ∧ Blank w ∧ c.Over (l ++ w) d := by
  obtain ⟨hkind, hp⟩ := fits_name hs.qName hk hfits
  unfold word
  cases hs with
  | plain hn =>
    have hrest : (c.advance p.toList.length).rest = rest := rest_advance hc
    have hspace := over_skipSpace (c.advance p.toList.length)
    rw [ncName?_advance hn hc hend]
    dsimp only
    rw [ofWord?_of_not hp]
    dsimp only
    split
    · next hcolons =>
      rw [rest_skipSpace, hrest] at hcolons
      exact absurd (by rw [hcolons]; rfl) hcolon
    · next hcolons =>
      rw [rest_skipSpace, hrest] at hcolons
      exact absurd (by rw [hcolons]; rfl) hcolon
    · rw [nameOrCallee_eq, rest_skipSpace, List.dropWhile_idempotent, hrest, hkind]
      exact ⟨_, _, rfl, (blank_takeWhile _).append (blank_takeWhile _),
        (over_advance hc).append (hspace.append (over_skipSpace _))⟩
  | @colon n w w' hn hw hw' hl =>
    have hc' : c.rest = p.toList ++ w ++ ':' :: w' ++ (n.toList ++ rest) := by simp [hc]
    obtain ⟨a, e, hname, hrest, he, hlocal, hover⟩ :=
      colon_complete hn hw hw' (endsRun_name hl) hc'
    have hover' := hover.append (over_advance hlocal)
    rw [hname]
    dsimp only
    rw [ofWord?_of_not hp]
    dsimp only
    rw [hrest]
    split
    · next tail hcolons =>
      have hhead : (w' ++ (n.toList ++ rest)).head? = some ':' := by
        rw [(List.cons.inj hcolons).2]
        rfl
      exact absurd (head_name hw' hl hhead) (by decide)
    · rw [← he]
      split
      · next tail hstar =>
        have hhead : ([] ++ (n.toList ++ rest)).head? = some '*' := by
          rw [List.nil_append, ← hlocal, hstar]
          rfl
        exact absurd (head_name blank_nil hl hhead) (by decide)
      · rw [ncName?_advance hl hlocal hend]
        dsimp only
        rw [nameOrCallee_eq, rest_advance hlocal, hkind]
        exact ⟨_, _, rfl, blank_takeWhile _, hover'.append (over_skipSpace _)⟩
    · next hno => exact absurd rfl (hno _)

end Cursor
end XPath
