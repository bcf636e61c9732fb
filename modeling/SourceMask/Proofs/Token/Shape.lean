import SourceMask.Token.Scan

/-!
# Shapes of tokens

A token of a scan has one of three shapes.  A *string* is made of quoted pieces that follow one
another directly, each from a delimiter to the next one.  A *name* is a run of characters that each
continue a name.  A *single* character is neither of these and not blank.

Every token starts in the way of its shape.  That a string is also closed can be said when the text
has an even number of delimiters; otherwise the last string takes the rest of the text.

Main results:

- Theorem `isNameRun_scanFrom`: the name characters of a stretch make a name.
- Theorem `startsQuoted_scanFrom`: outside of strings, the string characters of a stretch start
  with a delimiter.
- Theorem `hasShape_of_mem_scan`: all tokens of a text with an even number of delimiters have one
  of the three shapes.
-/

namespace SourceMask

namespace Token

/-! ## Shapes of texts -/

/-- Whether every character of a text continues a name. -/
def isNameRun : Text → Bool
  | [] => true
  | c :: rest => continuesName c rest && isNameRun rest

/-- Whether a text that stands inside or outside of a string is made of string characters only, and
closes the string at its end. -/
def closesStrings (inString : Bool) : Text → Bool
  | [] => !inString
  | c :: rest =>
    if isDelimiter c then closesStrings (!inString) rest
    else inString && closesStrings inString rest

/-- Whether a text starts with a delimiter. -/
def startsQuoted : Text → Bool
  | [] => false
  | c :: _ => isDelimiter c

/-! ## Shapes of tokens -/

/-- A name or a number: a run of characters that continue a name. -/
def IsName (token : Token) : Prop := token.text ≠ [] ∧ isNameRun token.text = true

/-- A string: it starts with a delimiter. -/
def IsString (token : Token) : Prop := startsQuoted token.text = true

/-- A string of which every quoted piece is closed. -/
def IsClosedString (token : Token) : Prop :=
  token.text ≠ [] ∧ closesStrings false token.text = true

/-- A single character that is no blank and belongs to no string and no name. -/
def IsSingle (token : Token) : Prop :=
  ∃ c, token.text = [c] ∧ Text.isBlank c = false ∧ isDelimiter c = false ∧
    Text.isNameChar c = false

/-- A token of one of the three shapes, its strings closed. -/
def HasShape (token : Token) : Prop := token.IsClosedString ∨ token.IsName ∨ token.IsSingle

/-! ## Characters -/

/-- A delimiter is no name character and no dot. -/
theorem continuesName_of_isDelimiter {c : Char} (h : isDelimiter c = true) (rest : Text) :
    continuesName c rest = false := by
  simp only [isDelimiter, Bool.or_eq_true, decide_eq_true_eq] at h
  rcases h with (rfl | rfl) | rfl <;> rfl

/-- What continues a name is no delimiter. -/
theorem isDelimiter_of_continuesName {c : Char} {rest : Text} (h : continuesName c rest = true) :
    isDelimiter c = false := by
  cases hdelimiter : isDelimiter c with
  | false => rfl
  | true =>
    rw [continuesName_of_isDelimiter hdelimiter] at h
    cases h

/-- A blank continues no name. -/
theorem isBlank_of_continuesName {c : Char} {rest : Text} (h : continuesName c rest = true) :
    Text.isBlank c = false := by
  -- Stated for the list itself, so that the blanks are gone through and not all characters.
  have hblanks : (Text.blanks.all fun d => !Text.isNameChar d && d != '.') = true := by
    decide +kernel
  cases hblank : Text.isBlank c with
  | false => rfl
  | true =>
    have hc := List.all_eq_true.mp hblanks c (List.contains_iff_mem.mp hblank)
    simp only [continuesName, Bool.or_eq_true, Bool.and_eq_true, decide_eq_true_eq] at h
    simp only [Bool.and_eq_true, Bool.not_eq_true', bne_iff_ne] at hc
    rcases h with h | ⟨rfl, -⟩
    · rw [hc.1] at h
      cases h
    · exact absurd rfl hc.2

/-- A name starts with no delimiter. -/
theorem not_isString_of_isName {token : Token} (h : token.IsName) : ¬ token.IsString := by
  rcases h with ⟨hne, hrun⟩
  unfold IsString
  cases htext : token.text with
  | nil => exact absurd htext hne
  | cons c rest =>
    rw [htext, isNameRun, Bool.and_eq_true] at hrun
    rw [startsQuoted, isDelimiter_of_continuesName hrun.1]
    exact Bool.false_ne_true

/-! ## Along a scan -/

/-- Induction along a scan, with one case for each way to read a character. -/
theorem scan_induction {motive : Bool → Text → Prop}
    (stop : ∀ inString, motive inString [])
    (delimiter : ∀ inString c rest, isDelimiter c = true → motive (!inString) rest →
      motive inString (c :: rest))
    (quoted : ∀ c rest, isDelimiter c = false → motive true rest → motive true (c :: rest))
    (name : ∀ c rest, isDelimiter c = false → continuesName c rest = true → motive false rest →
      motive false (c :: rest))
    (pause : ∀ c rest, isDelimiter c = false → continuesName c rest = false →
      motive false rest → motive false (c :: rest))
    (inString : Bool) (text : Text) : motive inString text := by
  induction text generalizing inString with
  | nil => exact stop inString
  | cons c rest ih =>
    cases hdelimiter : isDelimiter c with
    | true => exact delimiter inString c rest hdelimiter (ih (!inString))
    | false =>
      cases inString with
      | true => exact quoted c rest hdelimiter (ih true)
      | false =>
        cases hname : continuesName c rest with
        | true => exact name c rest hdelimiter hname (ih false)
        | false => exact pause c rest hdelimiter hname (ih false)

/-- Outside of strings a digit at the start of a text is the first name character of its stretch. -/
theorem startsWithDigit_name {text : Text} (h : startsWithDigit text = true) :
    startsWithDigit (scanFrom false text).name = true := by
  cases text with
  | nil => cases h
  | cons d rest =>
    have hdigit : d.isDigit = true := h
    have hname : Text.isNameChar d = true := by
      apply Text.isNameChar_of_isAsciiName
      simp [Text.isAsciiName, hdigit]
    have hcontinues : continuesName d rest = true := by
      simp [continuesName, hname]
    rw [scanFrom_name (isDelimiter_of_continuesName hcontinues) hcontinues]
    exact hdigit

/-- The name characters of a stretch make a name: the digit that a dot was read for comes next. -/
theorem isNameRun_scanFrom (inString : Bool) (text : Text) :
    isNameRun (scanFrom inString text).name = true := by
  induction inString, text using scan_induction with
  | stop => rfl
  | delimiter inString c rest hdelimiter ih =>
    rw [scanFrom_delimiter hdelimiter]
    exact ih
  | quoted c rest hdelimiter ih =>
    rw [scanFrom_quoted hdelimiter]
    exact ih
  | name c rest hdelimiter hname ih =>
    have hcontinues : continuesName c (scanFrom false rest).name = true := by
      simp only [continuesName, Bool.or_eq_true, Bool.and_eq_true] at hname ⊢
      exact hname.imp_right fun hdot => ⟨hdot.1, startsWithDigit_name hdot.2⟩
    rw [scanFrom_name hdelimiter hname, Stretch.extend, isNameRun, hcontinues, ih]
    rfl
  | pause c rest hdelimiter hname ih =>
    rw [scanFrom_break hdelimiter hname]
    rfl

/-- Outside of strings, the string characters of a stretch start with a delimiter. -/
theorem startsQuoted_scanFrom {text : Text} (hne : (scanFrom false text).quoted ≠ []) :
    startsQuoted (scanFrom false text).quoted = true := by
  induction text with
  | nil => exact absurd rfl hne
  | cons c rest ih =>
    cases hdelimiter : isDelimiter c with
    | true =>
      rw [scanFrom_delimiter hdelimiter]
      exact hdelimiter
    | false =>
      cases hname : continuesName c rest with
      | true =>
        rw [scanFrom_name hdelimiter hname] at hne ⊢
        exact ih hne
      | false =>
        rw [scanFrom_break hdelimiter hname] at hne
        exact absurd rfl hne

/-- The tokens of a stretch are its string, its name, and the later ones. -/
theorem mem_tokens {stretch : Stretch} {token : Token} (h : token ∈ stretch.tokens) :
    (stretch.quoted ≠ [] ∧ token = ⟨stretch.quoted⟩) ∨
      (stretch.name ≠ [] ∧ token = ⟨stretch.name⟩) ∨ token ∈ stretch.later := by
  rw [Stretch.tokens, Stretch.pending, List.append_assoc] at h
  rcases List.mem_append.mp h with h | h
  · split at h
    · cases h
    · rename_i hne
      exact .inl ⟨hne, List.mem_singleton.mp h⟩
  · rcases List.mem_append.mp h with h | h
    · split at h
      · cases h
      · rename_i hne
        exact .inr (.inl ⟨hne, List.mem_singleton.mp h⟩)
    · exact .inr (.inr h)

/-! ## Texts with an even number of delimiters -/

/-- Whether the delimiters of a text lead from inside or outside of a string to outside. -/
def IsBalanced (inString : Bool) (text : Text) : Prop :=
  (text.countP isDelimiter + inString.toNat) % 2 = 0

theorem isBalanced_delimiter {c : Char} (h : isDelimiter c = true) {inString : Bool}
    {rest : Text} : IsBalanced inString (c :: rest) ↔ IsBalanced (!inString) rest := by
  rw [IsBalanced, IsBalanced, List.countP_cons_of_pos h]
  cases inString with
  | true =>
    simp only [Bool.not_true, Bool.toNat_true, Bool.toNat_false]
    omega
  | false =>
    simp only [Bool.not_false, Bool.toNat_true, Bool.toNat_false]

theorem isBalanced_other {c : Char} (h : isDelimiter c = false) {inString : Bool} {rest : Text} :
    IsBalanced inString (c :: rest) ↔ IsBalanced inString rest := by
  rw [IsBalanced, IsBalanced, List.countP_cons_of_neg (by simp [h])]

/-- What a break makes a token of is a single character. -/
theorem hasShape_of_mem_ofBreak {c : Char} {rest : Text} (hdelimiter : isDelimiter c = false)
    (hname : continuesName c rest = false) {token : Token} (h : token ∈ ofBreak c) :
    token.HasShape := by
  unfold ofBreak at h
  split at h
  · cases h
  · rename_i hblank
    rw [List.mem_singleton] at h
    subst h
    simp only [continuesName, Bool.or_eq_false_iff] at hname
    exact .inr (.inr ⟨c, rfl, by simpa using hblank, hdelimiter, hname.1⟩)

/-- If the strings of a stretch are closed, then its tokens have shapes as far as the later ones
have. -/
theorem hasShape_of_mem_tokens {text : Text}
    (hcloses : closesStrings false (scanFrom false text).quoted = true)
    (hlater : ∀ token ∈ (scanFrom false text).later, token.HasShape) :
    ∀ token ∈ (scanFrom false text).tokens, token.HasShape := by
  intro token htoken
  rcases mem_tokens htoken with ⟨hne, rfl⟩ | ⟨hne, rfl⟩ | htoken
  · exact .inl ⟨hne, hcloses⟩
  · exact .inr (.inl ⟨hne, isNameRun_scanFrom false text⟩)
  · exact hlater token htoken

/-- In a balanced text the string characters of the stretch close its strings, and all tokens behind
the stretch have shapes. -/
theorem closesStrings_scanFrom {inString : Bool} {text : Text} (h : IsBalanced inString text) :
    closesStrings inString (scanFrom inString text).quoted = true ∧
      ∀ token ∈ (scanFrom inString text).later, token.HasShape := by
  induction inString, text using scan_induction with
  | stop inString =>
    cases inString with
    | false => exact ⟨rfl, fun _ htoken => by cases htoken⟩
    | true => cases h
  | delimiter inString c rest hdelimiter ih =>
    rcases ih ((isBalanced_delimiter hdelimiter).mp h) with ⟨hcloses, hlater⟩
    rw [scanFrom_delimiter hdelimiter]
    refine ⟨?_, hlater⟩
    rw [Stretch.quote, closesStrings, if_pos hdelimiter]
    exact hcloses
  | quoted c rest hdelimiter ih =>
    rcases ih ((isBalanced_other hdelimiter).mp h) with ⟨hcloses, hlater⟩
    rw [scanFrom_quoted hdelimiter]
    refine ⟨?_, hlater⟩
    rw [Stretch.quote, closesStrings, if_neg (by simp [hdelimiter]), hcloses]
    rfl
  | name c rest hdelimiter hname ih =>
    rw [scanFrom_name hdelimiter hname]
    exact ih ((isBalanced_other hdelimiter).mp h)
  | pause c rest hdelimiter hname ih =>
    rcases ih ((isBalanced_other hdelimiter).mp h) with ⟨hcloses, hlater⟩
    rw [scanFrom_break hdelimiter hname]
    refine ⟨rfl, ?_⟩
    intro token htoken
    rcases List.mem_append.mp htoken with htoken | htoken
    · exact hasShape_of_mem_ofBreak hdelimiter hname htoken
    · exact hasShape_of_mem_tokens hcloses hlater token htoken

/-- All tokens of a text with an even number of delimiters have one of the three shapes. -/
theorem hasShape_of_mem_scan {text : Text} (h : text.countP isDelimiter % 2 = 0) :
    ∀ token ∈ scan text, token.HasShape := by
  have hbalanced : IsBalanced false text := h
  rcases closesStrings_scanFrom hbalanced with ⟨hcloses, hlater⟩
  exact hasShape_of_mem_tokens hcloses hlater

end Token

end SourceMask
