import SourceMask.Json.Quoted
import SourceMask.Toml.Lexical

/-!
# TOML: quoted texts

A text is quoted with one or three marks.  Between quotation marks a backslash starts an escape;
between apostrophes every character stands for itself.  With three marks a text may run over
several lines, a line break right behind the opening marks does not count, and up to two marks may
stand directly in front of the closing ones.
-/

namespace SourceMask

namespace Toml

/-! ## Escapes -/

/-- The letters that stand for one character behind a backslash. -/
def letterEscapes : List (Char × Char) :=
  [('"', '"'), ('\\', '\\'), ('b', '\x08'), ('f', '\x0C'), ('n', '\n'), ('r', '\r'), ('t', '\t')]

/-- The character whose code point is given by a number of hexadecimal digits. -/
def codePoint? (digits : Nat) : Reader Char := fun text =>
  if text.length < digits then
    none
  else
    ((Json.hexNumber? (text.take digits)).bind Json.charOfCode?).map (·, text.drop digits)

/-- The character that stands behind a backslash. -/
def unescape? : Reader Char
  | [] => none
  | c :: rest =>
    if c = 'u' then codePoint? 4 rest
    else if c = 'U' then codePoint? 8 rest
    else (letterEscapes.lookup c).map (·, rest)

/-- An escape takes at least one character. -/
theorem unescape?_length {text rest : Text} {c : Char} (h : unescape? text = some (c, rest)) :
    rest.length < text.length := by
  cases text with
  | nil => simp [unescape?] at h
  | cons first others =>
    simp only [unescape?] at h
    have hcode : ∀ digits, codePoint? digits others = some (c, rest) →
        rest.length ≤ others.length := by
      intro digits h
      unfold codePoint? at h
      split at h
      · simp at h
      · simp only [Option.map_eq_some_iff, Prod.mk.injEq] at h
        obtain ⟨-, -, -, rfl⟩ := h
        simp
    split at h
    · exact Nat.lt_succ_of_le (hcode 4 h)
    · split at h
      · exact Nat.lt_succ_of_le (hcode 8 h)
      · simp only [Option.map_eq_some_iff, Prod.mk.injEq] at h
        obtain ⟨-, -, -, rfl⟩ := h
        simp

/-! ## One line -/

/-- The text in front of a closing quotation mark. -/
def basic? (text : Text) : Option (Text × Text) :=
  match text with
  | [] => none
  | c :: rest =>
    if c = '"' then
      some ([], rest)
    else if c = '\\' then
      match _h : unescape? rest with
      | some (c, rest) => (basic? rest).map fun (value, after) => (c :: value, after)
      | none => none
    else if isPrintable c then
      (basic? rest).map fun (value, after) => (c :: value, after)
    else
      none
termination_by text.length
decreasing_by
  · have := unescape?_length _h
    simp only [List.length_cons]
    omega
  · simp

/-- The text in front of a closing apostrophe. -/
def verbatim? : Reader Text
  | [] => none
  | c :: rest =>
    if c = '\'' then some ([], rest)
    else if isPrintable c then (verbatim? rest).map fun (value, after) => (c :: value, after)
    else none

/-! ## Several lines -/

/-- The marks that end a text of several lines: three of them, and up to two more that belong to
the text. -/
def closing? (mark : Char) : Reader Text
  | a :: b :: c :: rest =>
    if a = mark ∧ b = mark ∧ c = mark then
      let extra := (rest.take 2).takeWhile (· = mark)
      some (extra, rest.drop extra.length)
    else
      none
  | _ => none

/-- What follows a backslash at the end of a line: the next character that is neither blank nor a
line break. -/
def continuation? (text : Text) : Option Text :=
  (lineBreak? (skipBlanks text)).map go
where
  /-- Skip blanks and line breaks. -/
  go (text : Text) : Text :=
    match text with
    | [] => []
    | c :: rest =>
      if isBlank c then
        go rest
      else
        match _h : lineBreak? (c :: rest) with
        | some rest => go rest
        | none => c :: rest
  termination_by text.length
  decreasing_by
    · simp
    · exact lineBreak?_length _h

/-- Skipping makes no text longer. -/
theorem continuation?_go_length (text : Text) : (continuation?.go text).length ≤ text.length := by
  fun_induction continuation?.go text with
  | case1 => simp
  | case2 c rest hblank ih => exact Nat.le_succ_of_le ih
  | case3 c rest hblank rest' hbreak ih =>
    have := lineBreak?_length hbreak
    omega
  | case4 => simp

/-- A continued line takes at least one character. -/
theorem continuation?_length {text rest : Text} (h : continuation? text = some rest) :
    rest.length < text.length := by
  simp only [continuation?, Option.map_eq_some_iff] at h
  obtain ⟨after, hafter, rfl⟩ := h
  have hbreak := lineBreak?_length hafter
  have hblank : (skipBlanks text).length ≤ text.length := (List.dropWhile_sublist _).length_le
  have := continuation?_go_length after
  omega

/-- The text in front of three closing marks.  With `escapes` on a backslash starts an escape or
joins two lines.  A line break is read as a line feed. -/
def multiline? (mark : Char) (escapes : Bool) (text : Text) : Option (Text × Text) :=
  match text with
  | [] => none
  | c :: rest =>
    match closing? mark (c :: rest) with
    | some found => some found
    | none =>
      if escapes && c = '\\' then
        match _h : unescape? rest with
        | some (c, rest) =>
          (multiline? mark escapes rest).map fun (value, after) => (c :: value, after)
        | none =>
          match _h : continuation? rest with
          | some rest => multiline? mark escapes rest
          | none => none
      else
        match _h : lineBreak? (c :: rest) with
        | some rest =>
          (multiline? mark escapes rest).map fun (value, after) => ('\n' :: value, after)
        | none =>
          if isPrintable c then
            (multiline? mark escapes rest).map fun (value, after) => (c :: value, after)
          else
            none
termination_by text.length
decreasing_by
  · have := unescape?_length _h
    simp only [List.length_cons]
    omega
  · have := continuation?_length _h
    simp only [List.length_cons]
    omega
  · exact lineBreak?_length _h
  · simp

/-! ## Any quoted text -/

/-- The text of a value in quotation marks or apostrophes, one or three of them. -/
def quoted? : Reader Text
  | '"' :: '"' :: '"' :: rest => multiline? '"' true ((lineBreak? rest).getD rest)
  | '"' :: rest => basic? rest
  | '\'' :: '\'' :: '\'' :: rest => multiline? '\'' false ((lineBreak? rest).getD rest)
  | '\'' :: rest => verbatim? rest
  | _ => none

end Toml

end SourceMask
