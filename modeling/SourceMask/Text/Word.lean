import SourceMask.Text.Letter
import SourceMask.Text.Mark
import SourceMask.Text.Numeral
import SourceMask.Text.Recent

/-!
# Names and words

Two classes of characters that overlap but differ.  *Alphanumeric* characters are letters and
numerals of every kind.  *Word* characters are letters, decimal digits, marks, connectors and
joiners, as far as they are not recent.  A superscript two is alphanumeric and no word character; a
combining accent is a word character and mostly not alphanumeric.  Names of tokens are made of the
first class, boundaries between words are drawn by the second.

Main results:

- Theorem `isWordChar_of_isAsciiName`: the two classes agree on the characters of ASCII names.
- Theorem `isWordBoundary_comm`: a boundary does not depend on the direction of reading.
-/

namespace SourceMask

namespace Text

/-- Whether a character is a letter or a numeral. -/
def isAlphanumeric (c : Char) : Bool :=
  isAlphabetic c || isDecimalDigit c || isOtherNumeral c

/-- Whether a character may stand in a name: a letter, a numeral or the low line. -/
def isNameChar (c : Char) : Bool := isAlphanumeric c || c = '_'

/-- Whether a character belongs to a word. -/
def isWordChar (c : Char) : Bool :=
  (isAlphabetic c || isDecimalDigit c || isMark c || isConnector c) && !isRecent c

/-- Whether a character belongs to an identifier: a word character or the dollar sign. -/
def isIdentifierChar (c : Char) : Bool := isWordChar c || c = '$'

/-- Whether a word starts or ends between two neighbours, either of which may be missing. -/
def isWordBoundary (before after : Option Char) : Bool :=
  before.any isWordChar != after.any isWordChar

/-- A boundary does not depend on the direction of reading. -/
theorem isWordBoundary_comm (before after : Option Char) :
    isWordBoundary before after = isWordBoundary after before := by
  unfold isWordBoundary
  cases before.any isWordChar <;> cases after.any isWordChar <;> rfl

/-! ## ASCII names -/

/-- Whether a character is an ASCII letter, an ASCII digit or the low line. -/
def isAsciiName (c : Char) : Bool := c.isAlpha || c.isDigit || c = '_'

/-- An ASCII name character is ASCII. -/
theorem toNat_lt_of_isAsciiName {c : Char} (h : isAsciiName c) : c.toNat < 128 := by
  delta isAsciiName Char.isAlpha Char.isUpper Char.isLower Char.isDigit at h
  simp only [Bool.or_eq_true, Bool.and_eq_true, decide_eq_true_eq, UInt32.le_iff_toNat_le,
    ge_iff_le] at h
  change (((65 ≤ c.toNat ∧ c.toNat ≤ 90) ∨ (97 ≤ c.toNat ∧ c.toNat ≤ 122)) ∨
    (48 ≤ c.toNat ∧ c.toNat ≤ 57)) ∨ c = '_' at h
  rcases h with ((h | h) | h) | rfl
  · omega
  · omega
  · omega
  · decide

/-- ASCII letters, digits and the low line are word characters. -/
theorem isWordChar_of_isAsciiName {c : Char} (h : isAsciiName c) : isWordChar c := by
  have hlt := toNat_lt_of_isAsciiName h
  simp only [isAsciiName, Bool.or_eq_true] at h
  simp only [isWordChar, isAlphabetic, isDecimalDigit, isConnector, hlt, if_true,
    isRecent_eq_false_of_lt hlt]
  rcases h with (h | h) | h <;> simp [h]

/-- ASCII letters, digits and the low line are name characters. -/
theorem isNameChar_of_isAsciiName {c : Char} (h : isAsciiName c) : isNameChar c := by
  have hlt := toNat_lt_of_isAsciiName h
  simp only [isAsciiName, Bool.or_eq_true] at h
  simp only [isNameChar, isAlphanumeric, isAlphabetic, isDecimalDigit, hlt, if_true]
  rcases h with (h | h) | h <;> simp [h]

end Text

end SourceMask
