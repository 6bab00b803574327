import XPath.Proofs.Lexemes
import XPath.Proofs.Token.Positions

/-! Reading on and on, through faults and behind the end. The cursor moves on within the text with
each token, except where nothing can be read: there the same is found for ever. -/
namespace XPath

/-- The tokens that take nothing from the text but blanks: the end, and the faults of a character
that begins no token. -/
def Token.Rests : Token String → Prop
  | .mark .endOfInput | .mark (.error (.loneBang _)) | .mark (.error (.invalidNameStart _)) => True
  | _ => False

theorem Token.not_rests_of_not_final {t : Token String} (h : t.isFinal = false) : ¬ t.Rests := by
  cases t with
  | text => exact id
  | mark m => cases m <;> first | exact id | cases h

namespace Cursor

theorem skipSpace_skipSpace (c : Cursor) : c.skipSpace.skipSpace = c.skipSpace := by
  have hrest : EndsRun isSpace c.skipSpace.rest := by
    rw [rest_skipSpace]
    exact endsRun_dropWhile isSpace c.rest
  have hnone : c.skipSpace.takeWhile isSpace = ([], c.skipSpace.advance 0) :=
    takeWhile_eq rfl (by simp) hrest
  change (c.skipSpace.takeWhile isSpace).2 = c.skipSpace
  rw [hnone]
  rfl

/-- Blanks ahead do not matter. -/
theorem scan_skipSpace (c : Cursor) (op : Bool) : c.skipSpace.scan op = c.scan op := by
  unfold scan
  rw [skipSpace_skipSpace]

theorem scan_bang {c : Cursor} {r : List Char} (op : Bool)
    (hmark : Mark.ofChars? c.skipSpace.rest = none) (hc : c.skipSpace.rest = '!' :: r) :
    c.scan op = (.mark (.error (.loneBang c.skipSpace.position)), c.skipSpace) := by
  unfold scan
  dsimp only
  rw [hmark, hc]
  rfl

theorem scan_other {c : Cursor} {x : Char} {r : List Char} (op : Bool)
    (hmark : Mark.ofChars? c.skipSpace.rest = none) (hc : c.skipSpace.rest = x :: r)
    (hx : x ∉ ['\'', '"', '!', '$', '*']) :
    c.scan op =
      if x == '.' || x.isDigit then c.skipSpace.number else c.skipSpace.word op := by
  unfold scan
  dsimp only
  rw [hmark, hc]
  dsimp only
  split <;> simp_all

theorem not_rests_literal (c : Cursor) (quote : Char) : ¬ (c.literal quote).1.Rests := by
  unfold literal
  dsimp only
  split <;> exact id

theorem not_rests_variableReference (c : Cursor) : ¬ c.variableReference.1.Rests := by
  unfold variableReference
  split
  · exact id
  · dsimp only
    split
    · exact id
    · split <;> exact id
    · exact id

theorem not_rests_word {c after : Cursor} {name : String} (op : Bool)
    (hname : c.ncName? = some (name, after)) : ¬ (c.word op).1.Rests := by
  unfold word
  rw [hname]
  dsimp only
  split
  · exact id
  · split
    · split <;> exact id
    · split
      · exact id
      · split
        · exact id
        · rw [nameOrCallee_eq]
          exact id
    · rw [nameOrCallee_eq]
      exact id

/-- A word takes its first name at least. -/
theorem position_lt_word {c after : Cursor} {name : String} (op : Bool)
    (hname : c.ncName? = some (name, after)) : c.position < (c.word op).2.position := by
  obtain ⟨hn, hover, -⟩ := ncName?_eq_some.mp hname
  have hbehind := (reaches_word_of_name op hname).position_le
  have hlength : 0 < name.toList.length := List.length_pos_iff.mpr hn.ne_nil
  rw [hover.position] at hbehind
  omega

theorem number_not_final (c : Cursor) : c.number.1.isFinal = false := by
  unfold number
  dsimp only
  split <;> rfl

theorem position_lt_of_not_final {c : Cursor} {op : Bool} (h : (c.scan op).1.isFinal = false) :
    c.skipSpace.position < (c.scan op).2.position := by
  obtain ⟨l, hreads⟩ := scan_sound (Prod.eta _).symm h
  obtain ⟨w, -, hover, -⟩ := hreads.moves
  obtain ⟨x, r, rfl, -⟩ := hreads.spells.head
  rw [hover.position, List.length_append, List.length_cons]
  omega

/-- A token that rests is found in front of its character whatever was read before. All others move
the cursor on. -/
theorem rests_or_moves (c : Cursor) (op : Bool) :
    (c.scan op).1.Rests ∧ (c.scan op).2 = c.skipSpace ∧ (∀ op', c.scan op' = c.scan op) ∨
      ¬ (c.scan op).1.Rests ∧ c.skipSpace.position < (c.scan op).2.position := by
  by_cases hfinal : (c.scan op).1.isFinal = false
  · exact Or.inr ⟨Token.not_rests_of_not_final hfinal, position_lt_of_not_final hfinal⟩
  -- The end and the faults are left. They are told apart by the character ahead.
  cases hmark : Mark.ofChars? c.skipSpace.rest with
  | some m =>
    rw [scan_mark op hmark] at hfinal
    obtain ⟨l, rest, hl, -⟩ := ofChars?_eq_some hmark
    exact absurd (Spells.mark hl).not_final hfinal
  | none =>
    cases hrest : c.skipSpace.rest with
    | nil =>
      have hend (op' : Bool) := scan_end op' hrest
      rw [hend op]
      exact Or.inl ⟨trivial, rfl, hend⟩
    | cons x r =>
      have hone (d : Cursor) (h : (c.skipSpace.advance 1).Reaches d) :
          c.skipSpace.position < d.position := h.position_le
      by_cases hx : x ∈ ['\'', '"', '!', '$', '*']
      · simp only [List.mem_cons, List.not_mem_nil, or_false] at hx
        rcases hx with rfl | rfl | rfl | rfl | rfl
        · rw [scan_quote op (Or.inl rfl) hrest]
          exact Or.inr ⟨not_rests_literal _ _, hone _ (reaches_literal _ _)⟩
        · rw [scan_quote op (Or.inr rfl) hrest]
          exact Or.inr ⟨not_rests_literal _ _, hone _ (reaches_literal _ _)⟩
        · have hbang (op' : Bool) := scan_bang op' hmark hrest
          rw [hbang op]
          exact Or.inl ⟨trivial, rfl, hbang⟩
        · rw [scan_dollar op hrest]
          exact Or.inr ⟨not_rests_variableReference _, hone _ (reaches_variableReference _)⟩
        · rw [scan_star op hrest] at hfinal
          cases op <;> exact absurd rfl hfinal
      · have hother (op' : Bool) := scan_other op' hmark hrest hx
        split at hother
        · rw [hother] at hfinal
          exact absurd (number_not_final _) hfinal
        · cases hname : c.skipSpace.ncName? with
          | none =>
            have hfault (op' : Bool) := (hother op').trans (word_of_none op' hname)
            rw [hfault op]
            exact Or.inl ⟨trivial, rfl, hfault⟩
          | some n =>
            rw [hother]
            exact Or.inr ⟨not_rests_word op hname, position_lt_word op hname⟩

end Cursor

namespace Lexer

/-- Where a token rests, it is read again, with everything as before. -/
theorem next_next {l : Lexer} (h : l.next.1.Rests) : l.next.2.next = l.next := by
  rcases l.cursor.rests_or_moves l.context.expectsOperator with ⟨-, hcursor, hagain⟩ | ⟨hnot, -⟩
  · have hscan : l.next.2.cursor.scan l.next.2.context.expectsOperator =
        l.cursor.scan l.context.expectsOperator := by
      change (l.cursor.scan _).2.scan _ = _
      rw [hcursor, Cursor.scan_skipSpace, hagain]
    rw [next_eq l.next.2, hscan]
    rfl
  · exact absurd h hnot

theorem after_succ (l : Lexer) (n : Nat) : l.after (n + 1) = l.next.2.after n := by
  induction n with
  | zero => rfl
  | succ n ih => exact congrArg (fun l' => l'.next.2) ih

theorem next_after {l : Lexer} {n m : Nat} (h : (l.after n).next.1.Rests) (hle : n ≤ m) :
    (l.after m).next = (l.after n).next := by
  induction m, hle using Nat.le_induction with
  | base => rfl
  | succ m hle ih =>
    have hrests : (l.after m).next.1.Rests := by rwa [ih]
    exact (next_next hrests).trans ih

/-- The tokens up to the first final one are read by so many calls, and each call before the last
one takes a character. -/
theorem tokens_eq_calls (l : Lexer) :
    ∃ n ≤ l.unread,
      l.tokens.map Prod.fst = (List.range (n + 1)).map (fun i => (l.after i).next.1) ∧
      (∀ i < n, (l.after i).next.1.isFinal = false) ∧ (l.after n).next.1.isFinal = true := by
  induction hk : l.unread using Nat.strong_induction_on generalizing l with
  | _ k ih =>
    rw [map_tokens]
    cases hfinal : l.next.1.isFinal with
    | true => exact ⟨0, Nat.zero_le k, rfl, nofun, hfinal⟩
    | false =>
      have hless := unread_next hfinal
      obtain ⟨n, hle, htokens, hbefore, hlast⟩ := ih l.next.2.unread (hk ▸ hless) l.next.2 rfl
      refine ⟨n + 1, by omega, ?_, ?_, ?_⟩
      · rw [List.range_succ_eq_map, List.map_cons, List.map_map, if_neg Bool.false_ne_true, htokens]
        simp only [Function.comp_def, Nat.succ_eq_add_one, after_succ]
        rfl
      · intro i hi
        cases i with
        | zero => exact hfinal
        | succ i =>
          rw [after_succ]
          exact hbefore i (by omega)
      · rw [after_succ]
        exact hlast

/-- However often tokens are read from a text, faults and the end included, the text is not left: each
token can be read by positions in it. The cursor does not go back, and it moves on unless the token
rests. The end is read where only blanks are left, and then the cursor is behind them. A token that
rests is read for ever at the same place. So as many calls as the text has characters and one more, if
not fewer, read its tokens: the first final one is the last of them. -/
theorem calls_progress (s : String) :
    (∀ n, let l := (ofString s).after n
      ByPosition.scan? s.toList l.position l.context.expectsOperator =
        some (l.next.1, l.next.2.position) ∧
      l.position ≤ l.next.2.position ∧ l.next.2.position ≤ s.length ∧
      (¬ l.next.1.Rests → l.position < l.next.2.position) ∧
      (l.next.1 = .mark .endOfInput ↔ Blank (s.toList.drop l.position)) ∧
      (l.next.1 = .mark .endOfInput → l.next.2.position = s.length) ∧
      (l.next.1.Rests → ∀ m, n ≤ m →
        ((ofString s).after m).next.1 = l.next.1 ∧
          ((ofString s).after m).next.2.position = l.next.2.position)) ∧
    ∃ n ≤ s.length,
      tokenize s = (List.range (n + 1)).map (fun i => ((ofString s).after i).next.1) ∧
      (∀ i < n, ((ofString s).after i).next.1.isFinal = false) ∧
      ((ofString s).after n).next.1.isFinal = true := by
  constructor
  · intro n l
    have hreaches := reaches_after s n
    have hrest : l.cursor.rest = s.toList.drop l.position := hreaches.rest_eq.1
    obtain ⟨hrest', hle⟩ := (reaches_after s (n + 1)).rest_eq
    refine ⟨ByPosition.scan?_eq hreaches _, ?_, ?_, ?_, ?_, ?_, ?_⟩
    · exact (Cursor.reaches_scan _ _).position_le
    · exact hle
    · intro hmoves
      have hspace := (Cursor.reaches_skipSpace l.cursor).position_le
      rcases l.cursor.rests_or_moves l.context.expectsOperator with ⟨hrests, -⟩ | ⟨-, hless⟩
      · exact absurd hrests hmoves
      · exact Nat.lt_of_le_of_lt hspace hless
    · rw [next_end, hrest]
      exact List.dropWhile_eq_nil_iff
    · intro hend
      have hlong := List.drop_eq_nil_iff.mp (hrest'.symm.trans (rest_next_end hend))
      exact Nat.le_antisymm hle hlong
    · intro hrests m hm
      have hsame := next_after hrests hm
      exact ⟨congrArg Prod.fst hsame, congrArg (fun r => r.2.position) hsame⟩
  · have hlength : (ofString s).unread = s.length := String.length_toList
    obtain ⟨n, hle, hall⟩ := tokens_eq_calls (ofString s)
    exact ⟨n, hlength ▸ hle, hall⟩

end Lexer
end XPath
