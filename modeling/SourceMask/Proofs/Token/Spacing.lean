import SourceMask.Proofs.Token.Shape

/-!
# Blanks between tokens

A blank outside of strings is a break that makes no token.  So it only ends what stands in front of
it, and where that has ended anyway it makes no difference: at the ends of a text, and next to
another break.

Putting a blank somewhere also changes what the character in front of it is followed by.  That
matters for a dot alone, which belongs to a name if a digit comes next.

Main results:

- Theorem `scanFrom_append_congr`: outside of strings a text goes on in one way, as far as it starts
  with a digit or not.
- Theorem `scanFrom_blanks`: blanks end a stretch.
- Theorem `scan_append_blanks`: blanks at the ends of a text or next to a break do not change its
  tokens.
-/

namespace SourceMask

namespace Token

/-! ## Breaks -/

/-- Whether a character outside of strings is a break in front of a text. -/
def isBreak (c : Char) (back : Text) : Bool := !isDelimiter c && !continuesName c back

/-- The last character of a text is blank or a break in front of the text behind it. -/
def EndsInBreak (front back : Text) : Prop :=
  ∃ start c, front = start ++ [c] ∧ (Text.isBlank c = true ∨ isBreak c back = true)

/-- The first character of a text is blank or a break. -/
def StartsWithBreak (back : Text) : Prop :=
  ∃ c rest, back = c :: rest ∧ (Text.isBlank c = true ∨ isBreak c rest = true)

/-- A blank is no delimiter. -/
theorem isDelimiter_of_isBlank {c : Char} (h : Text.isBlank c = true) : isDelimiter c = false := by
  have hblanks : (Text.blanks.all fun d => !isDelimiter d) = true := by decide
  have hc := List.all_eq_true.mp hblanks c (List.contains_iff_mem.mp h)
  simpa using hc

/-- A blank is no part of a name. -/
theorem continuesName_of_isBlank {c : Char} (h : Text.isBlank c = true) (back : Text) :
    continuesName c back = false := by
  cases hname : continuesName c back with
  | false => rfl
  | true =>
    rw [isBlank_of_continuesName hname] at h
    cases h

/-- What is no part of a name is no digit. -/
theorem startsWithDigit_of_continuesName {c : Char} {back : Text}
    (h : continuesName c back = false) (rest : Text) : startsWithDigit (c :: rest) = false := by
  cases hdigit : c.isDigit with
  | false => exact hdigit
  | true =>
    have hname : Text.isNameChar c = true := by
      apply Text.isNameChar_of_isAsciiName
      simp [Text.isAsciiName, hdigit]
    simp [continuesName, hname] at h

/-- A break is no delimiter and no part of a name. -/
theorem isBreak_iff {c : Char} {back : Text} :
    isBreak c back = true ↔ isDelimiter c = false ∧ continuesName c back = false := by
  simp [isBreak]

/-- A blank is a break in front of every text. -/
theorem isBreak_of_isBlank {c : Char} (h : Text.isBlank c = true) (back : Text) :
    isBreak c back = true :=
  isBreak_iff.mpr ⟨isDelimiter_of_isBlank h, continuesName_of_isBlank h back⟩

/-! ## Two ways to go on -/

/-- What a character is depends on the text behind it through a digit at its start only. -/
theorem continuesName_congr {back back' : Text}
    (h : startsWithDigit back = startsWithDigit back') (c : Char) :
    continuesName c back = continuesName c back' := by
  rw [continuesName, continuesName, h]

/-- Whether a text starts with a digit is settled by its first part, if that is not empty. -/
theorem startsWithDigit_append_congr {back back' : Text}
    (h : startsWithDigit back = startsWithDigit back') (front : Text) :
    startsWithDigit (front ++ back) = startsWithDigit (front ++ back') := by
  cases front with
  | nil => exact h
  | cons c rest => rfl

/-- If two texts start with a digit at the same time and are scanned as one, then they also are
behind a text that leads out of all strings. -/
theorem scanFrom_append_congr {inString : Bool} {front back back' : Text}
    (h : IsBalanced inString front) (hdigit : startsWithDigit back = startsWithDigit back')
    (hscan : scanFrom false back = scanFrom false back') :
    scanFrom inString (front ++ back) = scanFrom inString (front ++ back') := by
  induction inString, front using scan_induction with
  | stop inString =>
    cases inString with
    | false => exact hscan
    | true => cases h
  | delimiter inString c rest hdelimiter ih =>
    rw [List.cons_append, List.cons_append, scanFrom_delimiter hdelimiter,
      scanFrom_delimiter hdelimiter, ih ((isBalanced_delimiter hdelimiter).mp h)]
  | quoted c rest hdelimiter ih =>
    rw [List.cons_append, List.cons_append, scanFrom_quoted hdelimiter,
      scanFrom_quoted hdelimiter, ih ((isBalanced_other hdelimiter).mp h)]
  | name c rest hdelimiter _ ih =>
    have hrest := ih ((isBalanced_other hdelimiter).mp h)
    have hsame := continuesName_congr (startsWithDigit_append_congr hdigit rest) c
    simp [scanFrom, hdelimiter, hsame, hrest]
  | pause c rest hdelimiter _ ih =>
    have hrest := ih ((isBalanced_other hdelimiter).mp h)
    have hsame := continuesName_congr (startsWithDigit_append_congr hdigit rest) c
    simp [scanFrom, hdelimiter, hsame, hrest]

/-! ## Blanks -/

section

variable {blanks back : Text}

/-- A blank ends a stretch and makes no token. -/
theorem scanFrom_blank {c : Char} (h : Text.isBlank c = true) (back : Text) :
    scanFrom false (c :: back) = ⟨[], [], (scanFrom false back).tokens⟩ := by
  rw [scanFrom_break (isDelimiter_of_isBlank h) (continuesName_of_isBlank h back), ofBreak,
    if_pos h]
  rfl

/-- Blanks in front of a text make no token. -/
theorem tokens_scanFrom_blanks (h : blanks.all Text.isBlank = true) (back : Text) :
    (scanFrom false (blanks ++ back)).tokens = (scanFrom false back).tokens := by
  induction blanks with
  | nil => rfl
  | cons c rest ih =>
    rw [List.all_cons, Bool.and_eq_true] at h
    rw [List.cons_append, scanFrom_blank h.1]
    exact ih h.2

/-- Blanks end a stretch. -/
theorem scanFrom_blanks (h : blanks.all Text.isBlank = true) (hne : blanks ≠ []) (back : Text) :
    scanFrom false (blanks ++ back) = ⟨[], [], (scanFrom false back).tokens⟩ := by
  cases blanks with
  | nil => exact absurd rfl hne
  | cons c rest =>
    rw [List.all_cons, Bool.and_eq_true] at h
    rw [List.cons_append, scanFrom_blank h.1, tokens_scanFrom_blanks h.2]

/-- A break in front of a text is one in front of blanks too. -/
theorem isBreak_append_blanks {c : Char} (h : isBreak c back = true)
    (hblanks : blanks.all Text.isBlank = true) : isBreak c (blanks ++ back) = true := by
  cases blanks with
  | nil => exact h
  | cons b rest =>
    rw [List.all_cons, Bool.and_eq_true] at hblanks
    rcases isBreak_iff.mp h with ⟨hdelimiter, hname⟩
    refine isBreak_iff.mpr ⟨hdelimiter, ?_⟩
    rw [continuesName, Bool.or_eq_false_iff] at hname
    have hdigit := startsWithDigit_of_continuesName (continuesName_of_isBlank hblanks.1 rest)
    rw [List.cons_append, continuesName, hdigit, hname.1, Bool.and_false]
    rfl

/-- Behind a break, blanks make no difference. -/
theorem scanFrom_break_blanks {c : Char} (h : isBreak c back = true)
    (hblanks : blanks.all Text.isBlank = true) :
    scanFrom false (c :: (blanks ++ back)) = scanFrom false (c :: back) := by
  rcases isBreak_iff.mp h with ⟨hdelimiter, hname⟩
  rcases isBreak_iff.mp (isBreak_append_blanks h hblanks) with ⟨-, hname'⟩
  rw [scanFrom_break hdelimiter hname', scanFrom_break hdelimiter hname,
    tokens_scanFrom_blanks hblanks]

/-- In front of a break, blanks make no difference. -/
theorem scanFrom_blanks_break {c : Char} {rest : Text} (h : isBreak c rest = true)
    (hblanks : blanks.all Text.isBlank = true) :
    scanFrom false (blanks ++ c :: rest) = scanFrom false (c :: rest) := by
  by_cases hne : blanks = []
  · rw [hne]
    rfl
  · rcases isBreak_iff.mp h with ⟨hdelimiter, hname⟩
    rw [scanFrom_blanks hblanks hne, scanFrom_break hdelimiter hname]
    rfl

/-- Neither blanks in front of a break nor the break start with a digit. -/
theorem startsWithDigit_blanks_break {c : Char} {rest : Text} (h : isBreak c rest = true)
    (hblanks : blanks.all Text.isBlank = true) :
    startsWithDigit (blanks ++ c :: rest) = startsWithDigit (c :: rest) := by
  cases blanks with
  | nil => rfl
  | cons b others =>
    rw [List.all_cons, Bool.and_eq_true] at hblanks
    rw [startsWithDigit_of_continuesName (isBreak_iff.mp h).2, List.cons_append,
      startsWithDigit_of_continuesName (continuesName_of_isBlank hblanks.1 others)]

end

/-- A text and the same with blanks behind it are scanned as one. -/
theorem scanFrom_concat_blanks {inString : Bool} {text blanks : Text}
    (h : IsBalanced inString text) (hblanks : blanks.all Text.isBlank = true) :
    scanFrom inString (text ++ blanks) = scanFrom inString text := by
  by_cases hne : blanks = []
  · rw [hne, List.append_nil]
  · have hdigit : startsWithDigit blanks = startsWithDigit [] := by
      cases blanks with
      | nil => rfl
      | cons c rest =>
        rw [List.all_cons, Bool.and_eq_true] at hblanks
        exact startsWithDigit_of_continuesName (continuesName_of_isBlank hblanks.1 rest) rest
    have hscan : scanFrom false blanks = scanFrom false [] := by
      have hends := scanFrom_blanks hblanks hne []
      rwa [List.append_nil] at hends
    have hsame := scanFrom_append_congr h hdigit hscan
    rwa [List.append_nil] at hsame

/-- Blanks at the start or at the end of a text, or between two characters of which the first is
blank or a break, or the second, do not change the tokens, if they stand outside of strings. -/
theorem scan_append_blanks {front blanks back : Text}
    (hbalanced : front.countP isDelimiter % 2 = 0) (hblanks : blanks.all Text.isBlank = true)
    (hplace : front = [] ∨ back = [] ∨ EndsInBreak front back ∨ StartsWithBreak back) :
    scan (front ++ blanks ++ back) = scan (front ++ back) := by
  have hfront : IsBalanced false front := hbalanced
  rcases hplace with rfl | rfl | ⟨start, c, rfl, hc⟩ | ⟨c, rest, rfl, hc⟩
  · exact tokens_scanFrom_blanks hblanks back
  · rw [List.append_nil, List.append_nil, scan, scan, scanFrom_concat_blanks hfront hblanks]
  · -- The break itself is read in one way, so that only what stands in front of it is balanced.
    have hbreak : isBreak c back = true := hc.elim (isBreak_of_isBlank · back) id
    have hstart : IsBalanced false start := by
      rw [IsBalanced, List.countP_append,
        List.countP_cons_of_neg (by simp [(isBreak_iff.mp hbreak).1])] at hfront
      exact hfront
    have hsame : scanFrom false (start ++ (c :: (blanks ++ back))) =
        scanFrom false (start ++ (c :: back)) :=
      scanFrom_append_congr hstart rfl (scanFrom_break_blanks hbreak hblanks)
    rw [scan, scan, List.append_assoc, List.append_assoc, List.append_assoc, List.singleton_append,
      List.singleton_append, hsame]
  · have hbreak : isBreak c rest = true := hc.elim (isBreak_of_isBlank · rest) id
    have hsame := scanFrom_append_congr hfront (startsWithDigit_blanks_break hbreak hblanks)
      (scanFrom_blanks_break hbreak hblanks)
    rw [scan, scan, List.append_assoc, hsame]

/-- Blanks behind the parenthesis of a call do not change its tokens, though a number that starts
with a dot comes next. -/
theorem scan_append_blanks_call :
    "'a b'.f(".toList.countP isDelimiter % 2 = 0 ∧
      "\n\t".toList.all Text.isBlank = true ∧
      EndsInBreak "'a b'.f(".toList ".5, 'c)".toList ∧
      scan ("'a b'.f(".toList ++ "\n\t".toList ++ ".5, 'c)".toList) =
        scan ("'a b'.f(".toList ++ ".5, 'c)".toList) := by
  have hplace : EndsInBreak "'a b'.f(".toList ".5, 'c)".toList :=
    ⟨"'a b'.f".toList, '(', by decide, .inr (by decide)⟩
  refine ⟨by decide, by decide, hplace, ?_⟩
  exact scan_append_blanks (by decide) (by decide) (.inr (.inr (.inl hplace)))

/-- Between two characters of which neither is a break, a blank does make a difference. -/
example : scan "1 .5".toList ≠ scan "1.5".toList := by decide +kernel

end Token

end SourceMask
