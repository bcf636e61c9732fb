import SourceMask.Text.Blank
import SourceMask.Text.Word
import SourceMask.Token

/-!
# Scanning a text into tokens

Three kinds of tokens come out of a scan: quoted strings with their delimiters, runs of name
characters (with a dot glued in where an ASCII digit follows it), and single characters of any
other kind.  Blanks separate tokens and never produce one.

Between two *breaks* (characters outside of strings that belong to no string and no name) lies a
*stretch*.  Its string characters make one token and its name characters another, and the string
goes first, whichever of them began.  A string is opened and closed by any delimiter: the scan
remembers only whether it is inside of one.

Main results:

- Theorems `scanFrom_delimiter`, `scanFrom_quoted`, `scanFrom_name` and `scanFrom_break`: one
  equation for each way to read a character.
-/

namespace SourceMask

namespace Token

/-! ## Classes of characters -/

/-- Whether a character opens and closes strings: the two quotation marks and the grave accent. -/
def isDelimiter (c : Char) : Bool := c = '"' || c = '\'' || c = '\x60'

/-- Whether a text goes on with an ASCII digit. -/
def startsWithDigit : Text → Bool
  | [] => false
  | c :: _ => c.isDigit

/-- Whether a character outside of strings belongs to a name: a name character, or a dot in front
of an ASCII digit. -/
def continuesName (c : Char) (rest : Text) : Bool :=
  Text.isNameChar c || (c = '.' && startsWithDigit rest)

/-! ## The scan -/

/-- What the scan of a text finds: the string characters and the name characters up to the first
break, and the tokens from that break on. -/
structure Stretch where
  quoted : Text
  name : Text
  later : List Token
  deriving DecidableEq, Repr

namespace Stretch

/-- A stretch in front of the end of the text. -/
def empty : Stretch := ⟨[], [], []⟩

/-- Put a string character in front. -/
def quote (c : Char) (stretch : Stretch) : Stretch := { stretch with quoted := c :: stretch.quoted }

/-- Put a name character in front. -/
def extend (c : Char) (stretch : Stretch) : Stretch := { stretch with name := c :: stretch.name }

/-- A token for each kind of character in the stretch, the string before the name. -/
def pending (stretch : Stretch) : List Token :=
  (if stretch.quoted = [] then [] else [⟨stretch.quoted⟩]) ++
    (if stretch.name = [] then [] else [⟨stretch.name⟩])

/-- All tokens found, those of the stretch first. -/
def tokens (stretch : Stretch) : List Token := stretch.pending ++ stretch.later

end Stretch

/-- The tokens that a break itself makes: none for a blank. -/
def ofBreak (c : Char) : List Token := if Text.isBlank c then [] else [⟨[c]⟩]

/-- Scan a text from a place that lies inside or outside of a string. -/
def scanFrom (inString : Bool) : Text → Stretch
  | [] => .empty
  | c :: rest =>
    if isDelimiter c then
      (scanFrom (!inString) rest).quote c
    else if inString then
      (scanFrom true rest).quote c
    else if continuesName c rest then
      (scanFrom false rest).extend c
    else
      ⟨[], [], ofBreak c ++ (scanFrom false rest).tokens⟩

/-- The token sequence of a text.  A string that is not closed takes the rest of the text. -/
def scan (text : Text) : List Token := (scanFrom false text).tokens

/-! ## One equation for each kind of character -/

@[simp] theorem scanFrom_nil (inString : Bool) : scanFrom inString [] = .empty := rfl

/-- A delimiter is a string character and turns the state over. -/
theorem scanFrom_delimiter {c : Char} (h : isDelimiter c) (inString : Bool) (rest : Text) :
    scanFrom inString (c :: rest) = (scanFrom (!inString) rest).quote c := by
  simp [scanFrom, h]

/-- Inside of a string every character is a string character. -/
theorem scanFrom_quoted {c : Char} (h : isDelimiter c = false) (rest : Text) :
    scanFrom true (c :: rest) = (scanFrom true rest).quote c := by
  simp [scanFrom, h]

/-- Outside of strings a character that continues a name is a name character. -/
theorem scanFrom_name {c : Char} {rest : Text} (h : isDelimiter c = false)
    (hname : continuesName c rest) :
    scanFrom false (c :: rest) = (scanFrom false rest).extend c := by
  simp [scanFrom, h, hname]

/-- Outside of strings every other character ends the stretch. -/
theorem scanFrom_break {c : Char} {rest : Text} (h : isDelimiter c = false)
    (hname : continuesName c rest = false) :
    scanFrom false (c :: rest) = ⟨[], [], ofBreak c ++ (scanFrom false rest).tokens⟩ := by
  simp [scanFrom, h, hname]

end Token

end SourceMask
