import SourceMask.Proofs.Token.Spacing
import SourceMask.Report

/-!
# Reading a report back

A report without header lines has each token of a file on lines of its own, with a line break
behind it.  The line break is blank and ends what stands in front of it, if that is no open string.
So scanning the report finds the tokens of the file again.

Main results:

- Theorem `tokens_scanFrom_token`: a token with a line break behind it is scanned as that token.
- Theorem `scan_tokenLines`: tokens that have shapes are found again in their lines.
- Theorem `scan_plain_scan`: the report on the tokens of a text with an even number of delimiters
  is scanned as the text, and it tells the tokens of such texts apart.
-/

namespace SourceMask

namespace Token

/-! ## Lines of one token -/

/-- A character goes on with a name in front of a longer text, too. -/
theorem continuesName_append {c : Char} {first : Text} (h : continuesName c first = true)
    (second : Text) : continuesName c (first ++ second) = true := by
  simp only [continuesName, Bool.or_eq_true, Bool.and_eq_true] at h ⊢
  refine h.imp_right fun hdot => ⟨hdot.1, ?_⟩
  cases first with
  | nil => cases hdot.2
  | cons d first => exact hdot.2

/-- A name with a line break behind it is read as the name of its stretch. -/
theorem scanFrom_name_lineBreak {name : Text} (h : isNameRun name = true) (rest : Text) :
    scanFrom false (name ++ '\n' :: rest) = ⟨[], name, (scanFrom false rest).tokens⟩ := by
  induction name with
  | nil => exact scanFrom_blank rfl rest
  | cons c name ih =>
    rw [isNameRun, Bool.and_eq_true] at h
    have hcontinues := continuesName_append h.1 ('\n' :: rest)
    rw [List.cons_append, scanFrom_name (isDelimiter_of_continuesName h.1) hcontinues, ih h.2]
    rfl

/-- Closed strings with a line break behind them are read as the string of their stretch. -/
theorem scanFrom_string_lineBreak {inString : Bool} {string : Text}
    (h : closesStrings inString string = true) (rest : Text) :
    scanFrom inString (string ++ '\n' :: rest) = ⟨string, [], (scanFrom false rest).tokens⟩ := by
  induction string generalizing inString with
  | nil =>
    cases inString with
    | false => exact scanFrom_blank rfl rest
    | true => cases h
  | cons c string ih =>
    rw [closesStrings] at h
    cases hdelimiter : isDelimiter c with
    | true =>
      rw [if_pos hdelimiter] at h
      rw [List.cons_append, scanFrom_delimiter hdelimiter, ih h]
      rfl
    | false =>
      rw [if_neg (by simp [hdelimiter]), Bool.and_eq_true] at h
      rcases h with ⟨rfl, hcloses⟩
      rw [List.cons_append, scanFrom_quoted hdelimiter, ih hcloses]
      rfl

/-- A single character with a line break behind it ends its stretch and makes a token. -/
theorem scanFrom_single_lineBreak {c : Char} (hblank : Text.isBlank c = false)
    (hdelimiter : isDelimiter c = false) (hname : Text.isNameChar c = false) (rest : Text) :
    scanFrom false (c :: '\n' :: rest) = ⟨[], [], ⟨[c]⟩ :: (scanFrom false rest).tokens⟩ := by
  have hbreak : continuesName c ('\n' :: rest) = false := by
    rw [continuesName, hname]
    exact Bool.and_false _
  rw [scanFrom_break hdelimiter hbreak, scanFrom_blank rfl, ofBreak, hblank]
  rfl

/-- A token with a line break behind it is scanned as that token. -/
theorem tokens_scanFrom_token {token : Token} (h : token.HasShape) (rest : Text) :
    (scanFrom false (token.text ++ '\n' :: rest)).tokens =
      token :: (scanFrom false rest).tokens := by
  rcases h with ⟨hne, hcloses⟩ | ⟨hne, hrun⟩ | ⟨c, htext, hblank, hdelimiter, hname⟩
  · rw [scanFrom_string_lineBreak hcloses, Stretch.tokens, Stretch.pending]
    simp [hne]
  · rw [scanFrom_name_lineBreak hrun, Stretch.tokens, Stretch.pending]
    simp [hne]
  · rw [htext, List.singleton_append, scanFrom_single_lineBreak hblank hdelimiter hname,
      ← htext]
    rfl

end Token

namespace Report

/-! ## Reports without headers -/

/-- Tokens that have shapes are found again in their lines. -/
theorem scan_tokenLines {tokens : List Token} (h : ∀ token ∈ tokens, token.HasShape) :
    Token.scan (tokenLines tokens) = tokens := by
  induction tokens with
  | nil => rfl
  | cons token rest ih =>
    have hrest := ih fun other hother => h other (List.mem_cons_of_mem token hother)
    have hlines : tokenLines (token :: rest) = token.text ++ '\n' :: tokenLines rest := by
      simp [tokenLines]
    rw [Token.scan] at hrest ⊢
    rw [hlines, Token.tokens_scanFrom_token (h token List.mem_cons_self), hrest]

/-- Without headers the report on one file is made of the lines of its tokens. -/
theorem plain_processed (file : ProcessedFile) :
    plain false [.processed file] = tokenLines file.tokens := by
  simp [plain, part]

/-- The report without headers on the tokens of a text with an even number of delimiters is scanned
as the text.  Two such texts with the same report have the same tokens. -/
theorem scan_plain_scan (text : Text) (h : text.countP Token.isDelimiter % 2 = 0) (path : Path)
    (dialect : Dialect) :
    Token.scan (plain false [.processed ⟨path, dialect, Token.scan text⟩]) = Token.scan text ∧
      ∀ (other : Text) (path' : Path) (dialect' : Dialect),
        other.countP Token.isDelimiter % 2 = 0 →
        plain false [.processed ⟨path, dialect, Token.scan text⟩] =
          plain false [.processed ⟨path', dialect', Token.scan other⟩] →
        Token.scan text = Token.scan other := by
  have hread : ∀ (other : Text) (path : Path) (dialect : Dialect),
      other.countP Token.isDelimiter % 2 = 0 →
      Token.scan (plain false [.processed ⟨path, dialect, Token.scan other⟩]) =
        Token.scan other := by
    intro other path dialect hother
    rw [plain_processed]
    exact scan_tokenLines (Token.hasShape_of_mem_scan hother)
  refine ⟨hread text path dialect h, ?_⟩
  intro other path' dialect' hother hsame
  rw [← hread text path dialect h, hsame]
  exact hread other path' dialect' hother

/-- A text with a name that goes on behind a string, a number, and a string of two lines. -/
def mixedText : Text := "a'b'c + .5 \x60\n\x60".toList

/-- The report on such a text is scanned as the text.  It is also the report on the text with fewer
blanks, which therefore has the same tokens. -/
theorem scan_plain_scan_mixed :
    mixedText.countP Token.isDelimiter % 2 = 0 ∧
      Token.scan (plain false [.processed ⟨.ofText ['p'], .typescript, Token.scan mixedText⟩]) =
        Token.scan mixedText ∧
      Token.scan mixedText = Token.scan "a'b'c+.5 \x60\n\x60".toList := by
  have hread := scan_plain_scan mixedText (by decide) (.ofText ['p']) .typescript
  exact ⟨by decide, hread.1, hread.2 _ (.ofText ['q']) .tsx (by decide) (by decide +kernel)⟩

end Report

end SourceMask
