import SourceMask.Text.Offset

/-!
# Texts as bytes

A text is written as bytes in UTF-8.  Names of files and arguments are bytes, whether these are
those of a text or not.  Bytes that are not can still be shown: a replacement character stands for
each longest stretch that begins a character without completing it, and for each byte that begins
none.

Main results:

- Theorem `decode?_eq_some_iff`: a text is found in its own bytes, and in no others.
- Theorem `decodeLossy_encode`: the bytes of a text are shown as the text.
-/

namespace SourceMask

/-- A sequence of bytes. -/
abbrev Bytes := List UInt8

/-- The bytes of a text. -/
def Text.encode (text : Text) : Bytes := text.flatMap String.utf8EncodeChar

/-- The bytes of a fixed word. -/
def Bytes.ofWord (word : String) : Bytes := Text.encode word.toList

namespace Text

/-! ## Bytes of texts -/

/-- The text whose bytes these are, if there is one. -/
def decode? (bytes : Bytes) : Option Text :=
  (String.fromUTF8? bytes.toByteArray).map String.toList

theorem encode_cons (c : Char) (rest : Text) :
    encode (c :: rest) = String.utf8EncodeChar c ++ encode rest :=
  List.flatMap_cons

theorem toByteArray_encode (text : Text) :
    (encode text).toByteArray = (String.ofList text).toByteArray :=
  String.toByteArray_ofList.symm

/-- A text is found again in its bytes. -/
theorem decode?_encode (text : Text) : decode? (encode text) = some text := by
  have hvalid : (String.ofList text).toByteArray.IsValidUTF8 := (String.ofList text).isValidUTF8
  rw [decode?, toByteArray_encode, String.fromUTF8?, dif_pos hvalid]
  exact congrArg some String.toList_ofList

/-- Bytes that are those of a text are those of one text only. -/
theorem encode_of_decode? {bytes : Bytes} {text : Text} (h : decode? bytes = some text) :
    encode text = bytes := by
  rw [decode?, Option.map_eq_some_iff] at h
  rcases h with ⟨string, hstring, rfl⟩
  have hbytes : string.toByteArray = bytes.toByteArray := by
    unfold String.fromUTF8? at hstring
    split at hstring
    · cases hstring
      rfl
    · cases hstring
  have hsame : (encode string.toList).toByteArray = bytes.toByteArray := by
    rw [toByteArray_encode, String.ofList_toList, hbytes]
  simpa using congrArg (fun array => array.data.toList) hsame

/-- A text is found in its own bytes, and in no others. -/
theorem decode?_eq_some_iff {bytes : Bytes} {text : Text} :
    decode? bytes = some text ↔ bytes = encode text := by
  constructor
  · intro h
    exact (encode_of_decode? h).symm
  · rintro rfl
    exact decode?_encode text

/-! ## Bytes of no text -/

/-- For the first byte of a character of several bytes: the least and the greatest byte that can
stand behind it, and how many bytes stand behind these two. -/
def follower? (first : UInt8) : Option (UInt8 × UInt8 × Nat) :=
  if 0xC2 ≤ first && first ≤ 0xDF then some (0x80, 0xBF, 0)
  else if first = 0xE0 then some (0xA0, 0xBF, 1)
  else if first = 0xED then some (0x80, 0x9F, 1)
  else if 0xE1 ≤ first && first ≤ 0xEF then some (0x80, 0xBF, 1)
  else if first = 0xF0 then some (0x90, 0xBF, 2)
  else if 0xF1 ≤ first && first ≤ 0xF3 then some (0x80, 0xBF, 2)
  else if first = 0xF4 then some (0x80, 0x8F, 2)
  else none

/-- How many bytes behind the first one go on with a character that is not completed. -/
def brokenTail (first : UInt8) : Bytes → Nat
  | [] => 0
  | second :: rest =>
    match follower? first with
    | some (least, greatest, more) =>
      if least ≤ second && second ≤ greatest then
        1 + ((rest.take more).takeWhile fun byte => 0x80 ≤ byte && byte ≤ 0xBF).length
      else
        0
    | none => 0

/-- The text that is shown for bytes. -/
def decodeLossy : Bytes → Text
  | [] => []
  | first :: rest =>
    match (first :: rest).toByteArray.utf8DecodeChar? 0 with
    | some c => c :: decodeLossy (rest.drop (c.utf8Size - 1))
    | none => '\uFFFD' :: decodeLossy (rest.drop (brokenTail first rest))
termination_by bytes => bytes.length
decreasing_by
  all_goals
    rw [List.length_drop, List.length_cons]
    omega

/-- The bytes of a text are shown as the text. -/
theorem decodeLossy_encode (text : Text) : decodeLossy (encode text) = text := by
  induction text with
  | nil => rw [encode, List.flatMap_nil, decodeLossy]
  | cons c rest ih =>
    have hdecode : (encode (c :: rest)).toByteArray.utf8DecodeChar? 0 = some c := by
      rw [toByteArray_encode, String.toByteArray_ofList]
      exact List.utf8DecodeChar?_utf8Encode_cons
    have hlength : (String.utf8EncodeChar c).length = c.utf8Size := String.length_utf8EncodeChar c
    rw [encode_cons] at hdecode ⊢
    cases hbytes : String.utf8EncodeChar c with
    | nil =>
      rw [hbytes] at hlength
      exact absurd hlength.symm (Nat.ne_of_gt c.utf8Size_pos)
    | cons first others =>
      rw [hbytes, List.length_cons] at hlength
      rw [hbytes, List.cons_append] at hdecode
      rw [List.cons_append, decodeLossy, hdecode]
      have hdrop : (others ++ encode rest).drop (c.utf8Size - 1) = encode rest := by
        rw [← hlength, Nat.add_sub_cancel, List.drop_left]
      simp only [hdrop, ih]

/-- A character that breaks off is one stretch, and a byte that begins no character is another. -/
example : decodeLossy [0x61, 0xE2, 0x82, 0x62, 0xFF, 0xF0, 0x9F, 0x98, 0xC3, 0xA9] =
    "a\uFFFDb\uFFFD\uFFFDé".toList := by
  decide +kernel

end Text

end SourceMask
