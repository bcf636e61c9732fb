import SourceMask.Json.Quoted

/-!
# Reading quoted text back

What is written for a character is read as that character, whatever follows it: the letter escapes
and the four digits of a control character stand for it, and every other character that is written
as it is neither ends the text nor starts an escape.  So a quoted text is read up to its closing
quotation mark and no further.

Main results:

- Theorem `decode?_encodeChar`: a written character is read as itself.
- Theorem `decode?_encode`: a written text is read back, and what follows it is left.
-/

namespace SourceMask

namespace Json

/-! ## Digits -/

/-- A hexadecimal digit stands for the number that it was made of. -/
theorem hexValue?_hexDigit : ∀ n, n < 16 → hexValue? (hexDigit n) = some n := by
  decide

/-- The four digits of a control character give its code point. -/
theorem code?_control {code : Nat} (h : code < 32) (rest : Text) :
    code? ('0' :: '0' :: hexDigit (code / 16) :: hexDigit (code % 16) :: rest) =
      some (code, rest) := by
  have hzero : hexValue? '0' = some 0 := rfl
  have hhigh := hexValue?_hexDigit (code / 16) (by omega)
  have hlow := hexValue?_hexDigit (code % 16) (by omega)
  have hvalue : 16 * (code / 16) + code % 16 = code := Nat.div_add_mod code 16
  simp [code?, hexNumber?, hzero, hhigh, hlow, hvalue]

/-- A control character is found again by its four digits. -/
theorem unescape?_control {c : Char} (h : c.toNat < 32) (rest : Text) :
    unescape? ('u' :: '0' :: '0' :: hexDigit (c.toNat / 16) :: hexDigit (c.toNat % 16) :: rest) =
      some (c, rest) := by
  have hplain : ¬ (0xD800 ≤ c.toNat ∧ c.toNat < 0xDC00) := by omega
  have hvalid : c.toNat.isValidChar := c.valid
  rw [unescape?, if_pos rfl, unescapeCode?, code?_control h]
  simp only [hplain, if_false, charOfCode?, hvalid, dite_true, Char.ofNat_toNat, Option.map_some]

/-! ## Characters -/

/-- An escape in front of a text gives its character. -/
theorem decode?_escape {text rest : Text} {c : Char} (h : unescape? text = some (c, rest)) :
    decode? ('\\' :: text) =
      (decode? rest).map fun (value, after) => (c :: value, after) := by
  rw [decode?, if_neg (by decide), if_pos rfl]
  split
  · rename_i other rest' hother
    rw [h] at hother
    cases hother
    rfl
  · rename_i hnone
    rw [h] at hnone
    cases hnone

/-- A character that needs no escape gives itself. -/
theorem decode?_plain {c : Char} (hquote : c ≠ '"') (hslash : c ≠ '\\') (hcontrol : ¬ c.toNat < 32)
    (rest : Text) :
    decode? (c :: rest) = (decode? rest).map fun (value, after) => (c :: value, after) := by
  rw [decode?, if_neg hquote, if_neg hslash, if_neg hcontrol]

/-- The characters that are written as a letter behind a backslash. -/
def lettered : List Char := ['"', '\\', '\x08', '\x0C', '\n', '\r', '\t']

/-- Behind a backslash the letter of a character stands for it. -/
theorem decode?_encodeChar_of_lettered {c : Char} (h : c ∈ lettered) (rest : Text) :
    decode? (encodeChar c ++ rest) =
      (decode? rest).map fun (value, after) => (c :: value, after) := by
  simp only [lettered, List.mem_cons, List.not_mem_nil, or_false] at h
  rcases h with rfl | rfl | rfl | rfl | rfl | rfl | rfl
  all_goals exact decode?_escape rfl

/-- Every other character is written in digits or as it is. -/
theorem encodeChar_of_not_lettered {c : Char} (h : c ∉ lettered) :
    encodeChar c =
      if c.toNat < 32 then
        ['\\', 'u', '0', '0', hexDigit (c.toNat / 16), hexDigit (c.toNat % 16)]
      else [c] := by
  simp only [lettered, List.mem_cons, List.not_mem_nil, or_false, not_or] at h
  simp only [encodeChar, h, if_false]

/-- A written character is read as itself. -/
theorem decode?_encodeChar (c : Char) (rest : Text) :
    decode? (encodeChar c ++ rest) =
      (decode? rest).map fun (value, after) => (c :: value, after) := by
  by_cases hletter : c ∈ lettered
  · exact decode?_encodeChar_of_lettered hletter rest
  · rw [encodeChar_of_not_lettered hletter]
    by_cases hcontrol : c.toNat < 32
    · rw [if_pos hcontrol]
      exact decode?_escape (unescape?_control hcontrol rest)
    · have hquote : c ≠ '"' := fun hc => hletter (by simp [hc, lettered])
      have hslash : c ≠ '\\' := fun hc => hletter (by simp [hc, lettered])
      rw [if_neg hcontrol]
      exact decode?_plain hquote hslash hcontrol rest

/-! ## Texts -/

/-- A written text is read back, and what follows it is left. -/
theorem decode?_encode (text rest : Text) :
    decode? (encode text ++ '"' :: rest) = some (text, rest) := by
  induction text with
  | nil => rw [encode, List.flatMap_nil, List.nil_append, decode?, if_pos rfl]
  | cons c text ih =>
    have hencode : encode (c :: text) ++ '"' :: rest =
        encodeChar c ++ (encode text ++ '"' :: rest) := by
      simp [encode]
    rw [hencode, decode?_encodeChar, ih]
    rfl

end Json

end SourceMask
