/-!
# Texts and byte offsets

A text is a list of characters.  Positions in it are counted in bytes of its UTF-8 form, so an
offset names a place only when it falls between two characters.  This module measures texts,
cuts them at offsets, exchanges a byte range for another text, and turns an offset into a line
and a column.

Main results:

- Theorem `byteLength_append`: lengths add up under concatenation.
- Theorem `splitAtByte?_append`: the offset at the end of a first part cuts exactly there.
- Theorem `eq_append_of_splitAtByte?`: the two halves of a cut make up the text, and the first
  one has the length asked for.
-/

namespace SourceMask

/-- A text, as its list of characters. -/
abbrev Text := List Char

namespace Text

/-! ## Length -/

/-- Number of bytes the text takes in UTF-8. -/
def byteLength : Text → Nat
  | [] => 0
  | c :: rest => c.utf8Size + byteLength rest

@[simp] theorem byteLength_nil : byteLength [] = 0 := rfl

@[simp] theorem byteLength_cons (c : Char) (rest : Text) :
    byteLength (c :: rest) = c.utf8Size + byteLength rest := rfl

/-- Lengths add up under concatenation. -/
@[simp] theorem byteLength_append (first second : Text) :
    byteLength (first ++ second) = byteLength first + byteLength second := by
  induction first with
  | nil => simp
  | cons c rest ih => simp [ih, Nat.add_assoc]

/-- Only the empty text takes no bytes. -/
theorem byteLength_eq_zero_iff (text : Text) : byteLength text = 0 ↔ text = [] := by
  cases text with
  | nil => simp
  | cons c rest =>
    have := c.utf8Size_pos
    simp only [byteLength_cons, reduceCtorEq, iff_false]
    omega

/-! ## Cutting -/

/-- The parts before and after a byte offset.  An offset inside a character or behind the end
of the text cuts nothing. -/
def splitAtByte? : Nat → Text → Option (Text × Text)
  | 0, text => some ([], text)
  | _ + 1, [] => none
  | n + 1, c :: rest =>
    if c.utf8Size ≤ n + 1 then
      (splitAtByte? (n + 1 - c.utf8Size) rest).map fun (first, second) => (c :: first, second)
    else
      none

@[simp] theorem splitAtByte?_zero (text : Text) : splitAtByte? 0 text = some ([], text) := by
  simp [splitAtByte?]

/-- A character that lies wholly before the offset goes to the first part. -/
theorem splitAtByte?_cons (offset : Nat) (c : Char) (rest : Text) :
    splitAtByte? (c.utf8Size + offset) (c :: rest) =
      (splitAtByte? offset rest).map fun (first, second) => (c :: first, second) := by
  have hpos := c.utf8Size_pos
  obtain ⟨n, hn⟩ : ∃ n, c.utf8Size + offset = n + 1 := ⟨c.utf8Size + offset - 1, by omega⟩
  rw [hn, splitAtByte?, if_pos (by omega)]
  congr 2
  omega

/-- The offset at the end of a first part cuts exactly there. -/
theorem splitAtByte?_append (first second : Text) :
    splitAtByte? (byteLength first) (first ++ second) = some (first, second) := by
  induction first with
  | nil => simp
  | cons c rest ih => simp [splitAtByte?_cons, ih]

/-- The two halves of a cut make up the text, and the first has the length asked for. -/
theorem eq_append_of_splitAtByte? {offset : Nat} {text first second : Text}
    (h : splitAtByte? offset text = some (first, second)) :
    text = first ++ second ∧ byteLength first = offset := by
  fun_induction splitAtByte? offset text generalizing first second with
  | case1 text => simp_all
  | case2 => simp at h
  | case3 n c rest hle ih =>
    simp only [Option.map_eq_some_iff, Prod.exists, Prod.mk.injEq] at h
    obtain ⟨a, b, hab, rfl, rfl⟩ := h
    obtain ⟨rfl, hlen⟩ := ih hab
    exact ⟨rfl, by simp only [byteLength_cons]; omega⟩
  | case4 => simp at h

/-- Whether a byte offset falls between two characters of the text or at one of its ends. -/
def isBoundary (offset : Nat) (text : Text) : Bool := (splitAtByte? offset text).isSome

/-- The text between two byte offsets, when both fall on boundaries and stand in order. -/
def slice? (text : Text) (start stop : Nat) : Option Text := do
  let (front, _) ← splitAtByte? stop text
  let (_, piece) ← splitAtByte? start front
  pure piece

/-- Exchange the text between two byte offsets for another one. -/
def replaceRange? (text : Text) (start stop : Nat) (piece : Text) : Option Text := do
  let (front, after) ← splitAtByte? stop text
  let (before, _) ← splitAtByte? start front
  pure (before ++ piece ++ after)

/-! ## Lines and columns -/

/-- A place in a text: how many line breaks stand before it, and how many bytes after the last
of those. -/
structure Position where
  row : Nat
  column : Nat
  deriving DecidableEq, Repr

/-- The place one character further on. -/
def Position.advance (position : Position) (c : Char) : Position :=
  if c = '\n' then ⟨position.row + 1, 0⟩ else ⟨position.row, position.column + c.utf8Size⟩

/-- The place reached by reading a text from its start. -/
def endPosition (text : Text) : Position := text.foldl Position.advance ⟨0, 0⟩

/-- The characters that begin before a byte offset. -/
def upToByte : Nat → Text → Text
  | _, [] => []
  | 0, _ => []
  | n + 1, c :: rest => c :: upToByte (n + 1 - c.utf8Size) rest

/-- The place of a byte offset. -/
def positionAt (text : Text) (offset : Nat) : Position := endPosition (upToByte offset text)

/-! ## Character patterns -/

/-- The rest of a text behind a given beginning, if it begins so. -/
def dropStart? : (start text : Text) → Option Text
  | [], text => some text
  | _ :: _, [] => none
  | s :: start, c :: text => if s = c then dropStart? start text else none

@[simp] theorem dropStart?_nil (text : Text) : dropStart? [] text = some text := rfl

/-- A beginning is found exactly when the text is that beginning and the rest. -/
theorem dropStart?_eq_some_iff (start text rest : Text) :
    dropStart? start text = some rest ↔ text = start ++ rest := by
  fun_induction dropStart? start text with
  | case1 text => simp [eq_comm]
  | case2 => simp
  | case3 start s text ih => simp [ih]
  | case4 s start c text hne => simp [eq_comm, hne]

/-- The lines of a text, each with the line break that ends it. -/
def lines : Text → List Text
  | [] => []
  | c :: rest =>
    if c = '\n' then
      ['\n'] :: lines rest
    else
      match lines rest with
      | [] => [[c]]
      | line :: others => (c :: line) :: others

/-- Lines put together again are the text. -/
@[simp] theorem flatten_lines (text : Text) : (lines text).flatten = text := by
  fun_induction lines text <;> simp_all

end Text

end SourceMask
