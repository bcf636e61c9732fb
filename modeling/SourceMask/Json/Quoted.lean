import SourceMask.Text.Offset

/-!
# Quoted text in JSON

A text stands between quotation marks.  The quotation mark, the backslash and the control
characters below the space are written with a backslash: five of them by a letter, the others by
their code point in four hexadecimal digits.  Every other character stands for itself.  When read,
a slash may be escaped as well and any code point may be given in digits, those beyond the first
plane as a surrogate pair.

Main results:

- Theorem `unescape?_length`: an escape takes at least one character.
-/

namespace SourceMask

namespace Json

/-! ## Hexadecimal digits -/

/-- The lower-case hexadecimal digit of a number below sixteen. -/
def hexDigit (n : Nat) : Char :=
  if n < 10 then Char.ofNat (48 + n) else Char.ofNat (87 + n)

/-- The number that a hexadecimal digit stands for. -/
def hexValue? (c : Char) : Option Nat :=
  if '0' ≤ c ∧ c ≤ '9' then some (c.toNat - 48)
  else if 'a' ≤ c ∧ c ≤ 'f' then some (c.toNat - 87)
  else if 'A' ≤ c ∧ c ≤ 'F' then some (c.toNat - 55)
  else none

/-- The number that several hexadecimal digits stand for. -/
def hexNumber? (digits : Text) : Option Nat :=
  digits.foldlM (fun n c => (hexValue? c).map (16 * n + ·)) 0

/-- The character of a code point, if it has one. -/
def charOfCode? (code : Nat) : Option Char :=
  if _h : code.isValidChar then some (Char.ofNat code) else none

/-! ## Writing -/

/-- The written form of one character. -/
def encodeChar (c : Char) : Text :=
  if c = '"' then ['\\', '"']
  else if c = '\\' then ['\\', '\\']
  else if c = '\x08' then ['\\', 'b']
  else if c = '\x0C' then ['\\', 'f']
  else if c = '\n' then ['\\', 'n']
  else if c = '\r' then ['\\', 'r']
  else if c = '\t' then ['\\', 't']
  else if c.toNat < 32 then ['\\', 'u', '0', '0', hexDigit (c.toNat / 16), hexDigit (c.toNat % 16)]
  else [c]

/-- The written form of a text, without the quotation marks around it. -/
def encode (text : Text) : Text := text.flatMap encodeChar

/-- The written form of a text. -/
def quote (text : Text) : Text := '"' :: (encode text ++ ['"'])

/-! ## Reading -/

/-- The code point that four hexadecimal digits give, and what follows them. -/
def code? : Text → Option (Nat × Text)
  | a :: b :: c :: d :: rest => (hexNumber? [a, b, c, d]).map (·, rest)
  | _ => none

/-- The character that is given by its code point, and what follows it.  The first half of a
surrogate pair wants the second half behind it. -/
def unescapeCode? (text : Text) : Option (Char × Text) :=
  match code? text with
  | none => none
  | some (high, rest) =>
    if 0xD800 ≤ high ∧ high < 0xDC00 then
      match rest with
      | '\\' :: 'u' :: rest =>
        match code? rest with
        | some (low, rest) =>
          if 0xDC00 ≤ low ∧ low < 0xE000 then
            (charOfCode? (0x10000 + (high - 0xD800) * 0x400 + (low - 0xDC00))).map (·, rest)
          else
            none
        | none => none
      | _ => none
    else
      (charOfCode? high).map (·, rest)

/-- The letters that stand for one character behind a backslash. -/
def letterEscapes : List (Char × Char) :=
  [('"', '"'), ('\\', '\\'), ('/', '/'), ('b', '\x08'), ('f', '\x0C'), ('n', '\n'), ('r', '\r'),
    ('t', '\t')]

/-- The character that stands behind a backslash, and what follows it. -/
def unescape? : Text → Option (Char × Text)
  | [] => none
  | c :: rest =>
    if c = 'u' then unescapeCode? rest else (letterEscapes.lookup c).map (·, rest)

/-- Four digits are taken away. -/
theorem code?_length {text rest : Text} {code : Nat} (h : code? text = some (code, rest)) :
    rest.length < text.length := by
  unfold code? at h
  split at h
  · simp only [Option.map_eq_some_iff, Prod.mk.injEq] at h
    obtain ⟨-, -, -, rfl⟩ := h
    simp only [List.length_cons]
    omega
  · simp at h

/-- A code point takes at least one character. -/
theorem unescapeCode?_length {text rest : Text} {c : Char}
    (h : unescapeCode? text = some (c, rest)) : rest.length < text.length := by
  unfold unescapeCode? at h
  split at h
  · simp at h
  · rename_i high after hcode
    have hafter := code?_length hcode
    split at h
    · split at h
      · rename_i after'
        split at h
        · rename_i low last hlow
          have hlast := code?_length hlow
          split at h
          · simp only [Option.map_eq_some_iff, Prod.mk.injEq] at h
            obtain ⟨-, -, -, rfl⟩ := h
            simp only [List.length_cons] at hafter
            omega
          · simp at h
        · simp at h
      · simp at h
    · simp only [Option.map_eq_some_iff, Prod.mk.injEq] at h
      obtain ⟨-, -, -, rfl⟩ := h
      exact hafter

/-- An escape takes at least one character. -/
theorem unescape?_length {text rest : Text} {c : Char} (h : unescape? text = some (c, rest)) :
    rest.length < text.length := by
  cases text with
  | nil => simp [unescape?] at h
  | cons first others =>
    simp only [unescape?] at h
    split at h
    · exact Nat.lt_trans (unescapeCode?_length h) (by simp)
    · simp only [Option.map_eq_some_iff, Prod.mk.injEq] at h
      obtain ⟨-, -, -, rfl⟩ := h
      simp

/-- The text in front of the closing quotation mark, and what follows that mark. -/
def decode? (text : Text) : Option (Text × Text) :=
  match text with
  | [] => none
  | c :: rest =>
    if c = '"' then
      some ([], rest)
    else if c = '\\' then
      match _h : unescape? rest with
      | some (c, rest) => (decode? rest).map fun (value, after) => (c :: value, after)
      | none => none
    else if c.toNat < 32 then
      none
    else
      (decode? rest).map fun (value, after) => (c :: value, after)
termination_by text.length
decreasing_by
  · have := unescape?_length _h
    simp only [List.length_cons]
    omega
  · simp

end Json

end SourceMask
