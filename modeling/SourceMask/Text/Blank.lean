import SourceMask.Text.Offset

/-!
# Blank characters

The characters with the Unicode property `White_Space`: the ASCII blanks from tab to carriage
return, the space, and the separators of other scripts.  The same set ends tokens, precedes a
comment and is trimmed from the ends of a text.

Main results:

- Theorem `trimStart_append_of_blank`: a blank beginning is taken away.
- Theorem `trimStart_cons_of_not`: trimming stops at the first character that is not blank.
-/

namespace SourceMask

namespace Text

/-- The blank characters. -/
def blanks : List Char :=
  ['\t', '\n', '\x0B', '\x0C', '\r', ' ', '\u0085', '\u00A0', '\u1680', '\u2000', '\u2001',
    '\u2002', '\u2003', '\u2004', '\u2005', '\u2006', '\u2007', '\u2008', '\u2009', '\u200A',
    '\u2028', '\u2029', '\u202F', '\u205F', '\u3000']

/-- Whether a character is blank. -/
def isBlank (c : Char) : Bool := blanks.contains c

/-- The text without the blanks at its start. -/
def trimStart (text : Text) : Text := text.dropWhile isBlank

/-- The text without the blanks at its end. -/
def trimEnd (text : Text) : Text := (trimStart text.reverse).reverse

/-- The text without the blanks at its ends. -/
def trim (text : Text) : Text := trimEnd (trimStart text)

/-- A text that starts with a character that is not blank keeps its start. -/
theorem trimStart_cons_of_not {c : Char} (h : isBlank c = false) (rest : Text) :
    trimStart (c :: rest) = c :: rest := by
  simp [trimStart, h]

/-- A blank beginning is taken away. -/
theorem trimStart_append_of_blank {front : Text} (h : front.all isBlank) (text : Text) :
    trimStart (front ++ text) = trimStart text := by
  rw [trimStart, List.dropWhile_append_of_pos (by simpa using h), trimStart]

end Text

end SourceMask
