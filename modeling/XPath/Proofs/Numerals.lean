import XPath.Proofs.Binary64.Nearest
import XPath.Proofs.Descent.DepthLimit
import XPath.Proofs.Lexemes

/-! Numbers in expressions. Each one that is read is a numeral, and the double that it stands for is
the one nearest to the number that its digits denote. -/
namespace XPath
namespace Numeral

/-- All digits of a numeral taken for one whole number. -/
def digits (s : String) : Nat :=
  Nat.ofDigitChars 10 (s.toList.filter Char.isDigit) 0

/-- How many digits a numeral has behind its full stop. -/
def places (s : String) : Nat :=
  (s.toList.dropWhile (· != '.')).tail.length

/-- The number that a numeral denotes. -/
def value (s : String) : ℚ :=
  digits s / 10 ^ places s

variable {s : String} {whole fraction : List Char}

theorem digits_dotted (hs : s.toList = whole ++ '.' :: fraction)
    (hdigits : ∀ x ∈ whole ++ fraction, x.isDigit = true) :
    digits s = Binary64.digitsValue (whole ++ fraction) := by
  have hfilter : s.toList.filter Char.isDigit = whole ++ fraction := by
    obtain ⟨hwhole, hfraction⟩ := List.forall_mem_append.mp hdigits
    rw [hs, List.filter_append, List.filter_cons_of_neg (by decide),
      List.filter_eq_self.mpr hwhole, List.filter_eq_self.mpr hfraction]
  unfold digits
  rw [hfilter, Nat.ofDigitChars_eq_foldl]
  rfl

theorem digits_whole (hdigits : ∀ x ∈ s.toList, x.isDigit = true) :
    digits s = Binary64.digitsValue s.toList := by
  unfold digits
  rw [List.filter_eq_self.mpr hdigits, Nat.ofDigitChars_eq_foldl]
  rfl

theorem ne_dot_of_isDigit {x : Char} (h : x.isDigit = true) : (x != '.') = true := by
  rw [bne_iff_ne]
  rintro rfl
  cases h

theorem places_dotted (hs : s.toList = whole ++ '.' :: fraction)
    (hwhole : ∀ x ∈ whole, x.isDigit = true) : places s = fraction.length := by
  unfold places
  rw [hs, dropWhile_append (fun x hx => ne_dot_of_isDigit (hwhole x hx)) (endsRun_cons.mpr rfl),
    List.tail_cons]

theorem places_whole (hdigits : ∀ x ∈ s.toList, x.isDigit = true) : places s = 0 := by
  unfold places
  rw [List.dropWhile_eq_nil_iff.mpr fun x hx => ne_dot_of_isDigit (hdigits x hx)]
  rfl

/-- A numeral stands for the double nearest to the number that it denotes. -/
theorem rounds (h : IsNumeral s) :
    ∃ x, Binary64.ofNumeral? s = some x ∧ Binary64.Rounds (value s) x := by
  obtain ⟨whole, fraction, hdigits, hne, hs | ⟨rfl, rfl⟩⟩ := h
  · have hround := Binary64.rounds_ofRatio (Nat.pow_pos (n := fraction.length) (show 0 < 10 by decide))
      (Binary64.digitsValue (whole ++ fraction))
    have hvalue : value s = (Binary64.digitsValue (whole ++ fraction) : ℚ) /
        ((10 ^ fraction.length : ℕ) : ℚ) := by
      unfold value
      rw [digits_dotted hs hdigits, places_dotted hs (List.forall_mem_append.mp hdigits).1,
        Nat.cast_pow, Nat.cast_ofNat]
    exact ⟨_, Binary64.ofNumeral?_dotted hs hdigits hne, hvalue ▸ hround⟩
  · rw [List.append_nil] at hdigits hne
    have hround := Binary64.rounds_ofRatio Nat.one_pos (Binary64.digitsValue s.toList)
    have hvalue : value s = (Binary64.digitsValue s.toList : ℚ) / ((1 : ℕ) : ℚ) := by
      unfold value
      rw [digits_whole hdigits, places_whole hdigits, pow_zero, Nat.cast_one]
    exact ⟨_, Binary64.ofNumeral?_whole hdigits hne, hvalue ▸ hround⟩

-- Halfway between two doubles, the one with the even significand.
example : Binary64.ofNumeral? "9007199254740993" = some ⟨0x4340000000000000⟩ := by decide +kernel

/-- The characters of a numeral. -/
theorem chars (h : IsNumeral s) :
    s.toList ≠ [] ∧ (∀ x ∈ s.toList, x.isDigit = true ∨ x = '.') ∧ s.toList.count '.' ≤ 1 ∧
      ∃ x ∈ s.toList, x.isDigit = true := by
  obtain ⟨whole, fraction, hdigits, hne, hform⟩ := h
  have hnone : (whole ++ fraction).count '.' = 0 :=
    List.count_eq_zero.mpr fun hdot => absurd (hdigits '.' hdot) (by decide)
  obtain ⟨x, hx⟩ := List.exists_mem_of_ne_nil _ hne
  have hmem : x ∈ s.toList := by
    rcases hform with hs | ⟨rfl, rfl⟩
    · rw [hs]
      rcases List.mem_append.mp hx with hx | hx
      · exact List.mem_append_left _ hx
      · exact List.mem_append_right _ (List.mem_cons_of_mem _ hx)
    · rwa [List.append_nil] at hx
  refine ⟨List.ne_nil_of_mem hmem, ?_, ?_, x, hmem, hdigits x hx⟩
  · intro y hy
    rcases hform with hs | ⟨rfl, rfl⟩
    · rw [hs, List.mem_append, List.mem_cons] at hy
      rcases hy with hy | rfl | hy
      · exact Or.inl (hdigits y (List.mem_append_left _ hy))
      · exact Or.inr rfl
      · exact Or.inl (hdigits y (List.mem_append_right _ hy))
    · exact Or.inl (hdigits y (List.mem_append_left _ hy))
  · rcases hform with hs | ⟨rfl, rfl⟩
    · rw [List.count_append] at hnone
      rw [hs, List.count_append, List.count_cons_self]
      omega
    · rw [List.append_nil] at hnone
      omega

end Numeral

namespace Descent

/-- No numeral is a reason to reject an expression. -/
theorem parse_ne_invalidNumber (s : Setting) (input raw : String) :
    parse s input ≠ .error (.invalidNumber raw) := by
  intro hparse
  have hrelaxes : s.Relaxes (fun r => r ≠ .invalidNumber raw) s.lax :=
    s.relaxes_lax (fun _ => nofun) (fun _ => nofun) fun _ _ _ => nofun
  -- In a setting that only looks at the tokens, some token would be the reason.
  have hlax : parse s.lax input = .error (.invalidNumber raw) := by
    rcases parse_relaxed hrelaxes input with hsame | ⟨r, hr, hcut⟩
    · rw [← hsame, hparse]
    · rw [hparse] at hr
      exact absurd (Except.error.inj hr).symm hcut
  have hwide : parse (s.lax.within (max s.options.maxDepth (input.length + 1))) input =
      .error (.invalidNumber raw) := by
    have hle := Nat.le_max_left s.options.maxDepth (input.length + 1)
    have hsame : s.lax.within s.options.maxDepth = s.lax := rfl
    rcases parse_within_le hle s.lax input with heq | hdeep
    · rw [← heq, hsame, hlax]
    · rw [hsame, hlax] at hdeep
      cases hdeep
  have hlenient : (s.lax.within (max s.options.maxDepth (input.length + 1))).Lenient :=
    Setting.lenient rfl rfl fun _ => rfl
  have hunread : (Context.begin input {}).lexer.unread <
      max s.options.maxDepth (input.length + 1) := by
    have hlength : (Context.begin input {}).lexer.unread = input.length := String.length_toList
    omega
  obtain ⟨d, a, hfails, -⟩ := fails_of_run hwide
  obtain ⟨before, t, position, -, -, hreason, -⟩ := stopped_at_token hlenient rfl hunread hfails
  unfold refusal at hreason
  split at hreason <;> cases hreason

/-- Wherever a number is read, its text has digits and at most one full stop, of digits one at least.
It is always converted, and to the double nearest to the number that the digits denote, so that an
expression is never rejected for a number in it, whatever the table of texts was used for before. -/
theorem numbers_convert :
    (∀ (input : String) (n : Nat) (raw : String),
      ((Lexer.ofString input).after n).next.1 = .text .number raw →
        (raw.toList ≠ [] ∧ (∀ x ∈ raw.toList, x.isDigit = true ∨ x = '.') ∧
          raw.toList.count '.' ≤ 1 ∧ ∃ x ∈ raw.toList, x.isDigit = true) ∧
        ∃ x, Binary64.ofNumeral? raw = some x ∧
          Binary64.Rounds ((Numeral.digits raw : ℚ) / 10 ^ Numeral.places raw) x) ∧
    ∀ (s : Setting) (input : String) (past : List Arena.Call),
      (({} : Arena).after past).slots.size + 2 ≤ UInt32.size →
        ∀ raw, (grammar.run s (.begin input (({} : Arena).after past))).1 ≠
          .error (.invalidNumber raw) := by
  constructor
  · intro input n raw hnumber
    have hnumeral := Lexer.isNumeral_of_next hnumber
    exact ⟨Numeral.chars hnumeral, Numeral.rounds hnumeral⟩
  · intro s input past hroom raw
    have hsound := Arena.sound_after Arena.sound_empty past (Nat.le_of_add_right_le hroom)
    have hcount := hsound.live_add
    have hlive : (({} : Arena).after past).live + 2 ≤ UInt32.size := by omega
    have hmatches := run_grammar_matches (c := .begin input (({} : Arena).after past)) hsound
      (Nat.le_of_add_right_le hroom) hlive (Nat.le_refl _) s
    have hresult : (grammar.run s (.begin input (({} : Arena).after past))).1 = parse s input :=
      hmatches.result.trans (parse_eq_interpret s input).symm
    rw [hresult]
    exact parse_ne_invalidNumber s input raw

/-- A number with no digit in front of its full stop, read with a table that holds a text. -/
theorem numbers_convert_half :
    ((Lexer.ofString ".5").after 0).next.1 = .text .number ".5" ∧
      (∃ x, Binary64.ofNumeral? ".5" = some x ∧ Binary64.Rounds (5 / 10) x) ∧
      (({} : Arena).after [.register "a"]).slots.size + 2 ≤ UInt32.size ∧
      (grammar.run {} (.begin ".5" (({} : Arena).after [.register "a"]))).1 ≠
        .error (.invalidNumber ".5") := by
  have hnext : ((Lexer.ofString ".5").after 0).next.1 = .text .number ".5" := rfl
  have hroom : (({} : Arena).after [.register "a"]).slots.size + 2 ≤ UInt32.size := by decide
  have hdigits : Numeral.digits ".5" = 5 := by decide
  have hplaces : Numeral.places ".5" = 1 := by decide
  obtain ⟨hread, haccepted⟩ := numbers_convert
  obtain ⟨-, hconverts⟩ := hread ".5" 0 ".5" hnext
  rw [hdigits, hplaces, pow_one, Nat.cast_ofNat] at hconverts
  exact ⟨hnext, hconverts, hroom, haccepted {} ".5" [.register "a"] hroom ".5"⟩

end Descent
end XPath
