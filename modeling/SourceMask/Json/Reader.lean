import SourceMask.Data
import SourceMask.Json.Quoted

/-!
# Reading JSON

A document is one value with blanks around it.  Readers answer with the value at the start of a
text and the text that follows it; the number that they carry bounds how deep and how far they
read, and the length of the document is always enough.
-/

namespace SourceMask

namespace Json

/-! ## Blanks and words -/

/-- Whether a character may stand between the parts of a document. -/
def isSeparator (c : Char) : Bool := c = ' ' || c = '\t' || c = '\n' || c = '\r'

/-- The text without the blanks at its start. -/
def skipBlanks (text : Text) : Text := text.dropWhile isSeparator

/-- The value that a word stands for, and what follows it. -/
def readWord? (text : Text) : Option (Data × Text) :=
  [(['n', 'u', 'l', 'l'], Data.null), (['t', 'r', 'u', 'e'], .flag true),
    (['f', 'a', 'l', 's', 'e'], .flag false)].findSome? fun (word, value) =>
      (Text.dropStart? word text).map (value, ·)

/-! ## Numbers -/

/-- The digits at the start of a text, and what follows them. -/
def spanDigits (text : Text) : Text × Text := text.span Char.isDigit

/-- The number that decimal digits stand for. -/
def digitsValue (digits : Text) : Nat := digits.foldl (fun n c => 10 * n + (c.toNat - 48)) 0

/-- The fraction at the start of a text, which may be missing, and what follows it. -/
def spanFraction? (text : Text) : Option (Text × Text) :=
  match text with
  | '.' :: rest =>
    let (digits, after) := spanDigits rest
    if digits = [] then none else some ('.' :: digits, after)
  | _ => some ([], text)

/-- The exponent at the start of a text, which may be missing, and what follows it. -/
def spanExponent? (text : Text) : Option (Text × Text) :=
  match text with
  | [] => some ([], [])
  | e :: rest =>
    if e = 'e' || e = 'E' then
      let (sign, rest) := rest.splitAt (if rest.head?.any fun c => c = '+' || c = '-' then 1 else 0)
      let (digits, after) := spanDigits rest
      if digits = [] then none else some (e :: (sign ++ digits), after)
    else
      some ([], text)

/-- The number at the start of a text, and what follows it.  Leading zeros are refused, and a
number with a fraction or an exponent, or a zero with a sign, is kept as written. -/
def readNumber? (text : Text) : Option (Data × Text) := do
  let negative := text.head? = some '-'
  let (digits, rest) := spanDigits (if negative then text.drop 1 else text)
  guard (digits ≠ [] && !(digits.head? = some '0' && digits ≠ ['0']))
  let (fraction, rest) ← spanFraction? rest
  let (exponent, rest) ← spanExponent? rest
  let value := digitsValue digits
  if fraction = [] && exponent = [] && !(negative && value = 0) then
    some (.integer (if negative then -value else value), rest)
  else
    some (.decimal ((if negative then ['-'] else []) ++ digits ++ fraction ++ exponent), rest)

/-! ## Values -/

mutual

/-- The value at the start of a text, blanks in front of it allowed, and what follows it. -/
def readValue? : Nat → Text → Option (Data × Text)
  | 0, _ => none
  | n + 1, text =>
    match skipBlanks text with
    | [] => none
    | c :: rest =>
      if c = '"' then
        (decode? rest).map fun (value, after) => (.text value, after)
      else if c = '[' then
        match skipBlanks rest with
        | ']' :: after => some (.list [], after)
        | _ => (readItems? n rest).map fun (items, after) => (.list items, after)
      else if c = '\x7b' then
        match skipBlanks rest with
        | '\x7d' :: after => some (.record [], after)
        | _ => (readFields? n rest).map fun (fields, after) => (.record fields, after)
      else
        (readWord? (c :: rest)).or (readNumber? (c :: rest))

/-- The items up to the bracket that closes a list, at least one, and what follows it. -/
def readItems? : Nat → Text → Option (List Data × Text)
  | 0, _ => none
  | n + 1, text =>
    match readValue? n text with
    | none => none
    | some (item, rest) =>
      match skipBlanks rest with
      | ',' :: rest => (readItems? n rest).map fun (items, after) => (item :: items, after)
      | ']' :: after => some ([item], after)
      | _ => none

/-- The fields up to the brace that closes a record, at least one, and what follows it. -/
def readFields? : Nat → Text → Option (List (Text × Data) × Text)
  | 0, _ => none
  | n + 1, text =>
    match skipBlanks text with
    | '"' :: rest =>
      match decode? rest with
      | none => none
      | some (key, rest) =>
        match skipBlanks rest with
        | ':' :: rest =>
          match readValue? n rest with
          | none => none
          | some (value, rest) =>
            match skipBlanks rest with
            | ',' :: rest =>
              (readFields? n rest).map fun (fields, after) => ((key, value) :: fields, after)
            | '\x7d' :: after => some ([(key, value)], after)
            | _ => none
        | _ => none
    | _ => none

end

/-- The data of a JSON document. -/
def read? (text : Text) : Option Data :=
  match readValue? (text.length + 1) text with
  | some (data, rest) => if skipBlanks rest = [] then some data else none
  | none => none

end Json

end SourceMask
