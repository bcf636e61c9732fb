import SourceMask.Toml.Moment
import SourceMask.Toml.Number
import SourceMask.Toml.Quoted

/-!
# TOML: keys and values

A key is one word or several, joined by dots, each of them bare or quoted.  A value is a scalar, a
list in brackets, or a record in braces on one line.  Lists and records may be nested, and keys be
joined, to fewer than eighty levels.
-/

namespace SourceMask

namespace Toml

/-- One more than the number of levels that values and keys may have. -/
def levelLimit : Nat := 80

/-! ## Keys -/

/-- One word of a key. -/
def keyWord? : Reader Text := fun text =>
  match text with
  | '"' :: rest => basic? rest
  | '\'' :: rest => verbatim? rest
  | _ =>
    let word := text.takeWhile isBare
    if word = [] then none else some (word, text.dropWhile isBare)

/-- A key of at most so many words, with the blanks around it. -/
def keyUpTo? : Nat → Reader (List Text)
  | 0, _ => none
  | n + 1, text => do
    let (word, rest) ← keyWord? (skipBlanks text)
    match skipBlanks rest with
    | '.' :: rest => (keyUpTo? n rest).map fun (words, after) => (word :: words, after)
    | rest => some ([word], rest)

/-- The key at the start of a text, with the blanks around it. -/
def key? : Reader (List Text) := keyUpTo? (levelLimit - 1)

/-! ## Scalars -/

/-- The truth value at the start of a text. -/
def flag? : Reader Data := fun text =>
  [(['t', 'r', 'u', 'e'], true), (['f', 'a', 'l', 's', 'e'], false)].findSome? fun (word, on) =>
    (Text.dropStart? word text).map (.flag on, ·)

/-- The scalar at the start of a text. -/
def scalar? : Reader Data := fun text =>
  ((quoted? text).map fun (value, rest) => (.text value, rest)).or
    ((flag? text).or ((moment? text).or ((decimal? text).or (integer? text))))

/-! ## Records on one line -/

/-- A field of a record while it is being read.  What joined keys have opened can be added to;
what was written as a value is complete. -/
inductive Slot where
  | closed (value : Data)
  | opened (fields : List (Text × Slot))
  deriving Inhabited

/-- Put a value into fields under a key, opening records for all words of the key but the last.
A word that is taken already is refused, unless it names an opened record and is not the last. -/
def Slot.put? (value : Data) : List Text → List (Text × Slot) → Option (List (Text × Slot))
  | [], _ => none
  | [word], fields =>
    if (fields.lookup word).isSome then none else some (fields ++ [(word, closed value)])
  | word :: words, fields =>
    match fields.lookup word with
    | none => (put? value words []).map fun inner => fields ++ [(word, opened inner)]
    | some (opened inner) =>
      (put? value words inner).map fun inner =>
        fields.map fun (name, slot) => (name, if name = word then opened inner else slot)
    | some (closed _) => none

mutual

/-- The data of a field. -/
def Slot.toData : Slot → Data
  | closed value => value
  | opened fields => .record (fieldsToData fields)

/-- The data of several fields. -/
def Slot.fieldsToData : List (Text × Slot) → List (Text × Data)
  | [] => []
  | (name, slot) :: rest => (name, slot.toData) :: fieldsToData rest

end

/-! ## Lists and records -/

/-- Read the items of a list up to the bracket that closes it, given how to read one.  Blanks,
comments and line breaks may stand between the parts, and a comma behind the last item. -/
def items? (value? : Reader Data) : Nat → Reader (List Data)
  | 0, _ => none
  | n + 1, text =>
    match skipLines text with
    | ']' :: rest => some ([], rest)
    | text => do
      let (item, rest) ← value? text
      match skipLines rest with
      | ',' :: rest => (items? value? n rest).map fun (items, after) => (item :: items, after)
      | ']' :: rest => some ([item], rest)
      | _ => none

/-- Read the fields of a record up to the brace that closes it, at least one, given how to read a
value. -/
def fields? (value? : Reader Data) : Nat → List (Text × Slot) → Reader (List (Text × Slot))
  | 0, _, _ => none
  | n + 1, fields, text => do
    let (key, rest) ← key? text
    let (value, rest) ← value? (skipBlanks (← mark? '=' rest))
    let fields ← Slot.put? value key fields
    match skipBlanks rest with
    | ',' :: rest => fields? value? n fields rest
    | '\x7d' :: rest => some (fields, rest)
    | _ => none

/-- The value at the start of a text, with fewer levels than a number. -/
def valueBelow? : Nat → Reader Data
  | 0, _ => none
  | levels + 1, text =>
    match text with
    | '[' :: rest =>
      if levels = 0 then none
      else (items? (valueBelow? levels) (rest.length + 1) rest).map fun (items, after) =>
        (.list items, after)
    | '\x7b' :: rest =>
      if levels = 0 then none
      else
        match skipBlanks rest with
        | '\x7d' :: after => some (.record [], after)
        | _ => (fields? (valueBelow? levels) (rest.length + 1) [] rest).map fun (fields, after) =>
          (.record (Slot.fieldsToData fields), after)
    | _ => scalar? text

/-- The value at the start of a text. -/
def value? : Reader Data := valueBelow? levelLimit

end Toml

end SourceMask
