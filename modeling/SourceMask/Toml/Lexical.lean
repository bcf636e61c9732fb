import SourceMask.Text.Offset

/-!
# TOML: characters, blanks and comments

The smallest parts of a TOML document.  Readers answer with what they read at the start of a text
and with the text that follows it, or with nothing where the text does not start as they want.
-/

namespace SourceMask

namespace Toml

/-- What reads a value at the start of a text. -/
abbrev Reader (α : Type) := Text → Option (α × Text)

/-! ## Classes of characters -/

/-- Whether a character is a blank inside of a line. -/
def isBlank (c : Char) : Bool := c = ' ' || c = '\t'

/-- Whether a character may stand in a comment or a quoted text: every one but the control
characters, of which only the tab may. -/
def isPrintable (c : Char) : Bool := c = '\t' || (32 ≤ c.toNat && c.toNat ≠ 127)

/-- Whether a character may stand in a key without quotation marks. -/
def isBare (c : Char) : Bool := c.isAlphanum || c = '_' || c = '-'

/-! ## Blanks -/

/-- What follows a character. -/
def mark? (c : Char) (text : Text) : Option Text := Text.dropStart? [c] text

/-- The text without the blanks at its start. -/
def skipBlanks (text : Text) : Text := text.dropWhile isBlank

/-- What follows a line break, written with or without a carriage return. -/
def lineBreak? : Text → Option Text
  | '\n' :: rest => some rest
  | '\r' :: '\n' :: rest => some rest
  | _ => none

/-- A line break takes at least one character. -/
theorem lineBreak?_length {text rest : Text} (h : lineBreak? text = some rest) :
    rest.length < text.length := by
  unfold lineBreak? at h
  split at h
  · simp only [Option.some.injEq] at h
    simp [← h]
  · simp only [Option.some.injEq] at h
    simp only [← h, List.length_cons]
    omega
  · simp at h

/-- The text without the comment at its start. -/
def skipComment : Text → Text
  | '#' :: rest => rest.dropWhile isPrintable
  | text => text

/-- What follows the end of a line: blanks, perhaps a comment, and a line break or the end of the
document. -/
def lineEnd? (text : Text) : Option Text :=
  match skipComment (skipBlanks text) with
  | [] => some []
  | rest => lineBreak? rest

/-- The text without the blanks, comments and line breaks at its start. -/
def skipLines (text : Text) : Text :=
  match text with
  | [] => []
  | c :: rest =>
    if isBlank c then
      skipLines rest
    else if c = '#' then
      skipLines (rest.dropWhile isPrintable)
    else
      match _h : lineBreak? (c :: rest) with
      | some rest => skipLines rest
      | none => c :: rest
termination_by text.length
decreasing_by
  · simp
  · exact Nat.lt_succ_of_le (List.dropWhile_sublist _).length_le
  · exact lineBreak?_length _h

end Toml

end SourceMask
