import SourceMask.Data
import SourceMask.Json.Quoted

/-!
# Writing JSON

Data is written in two layouts.  The compact one has no blanks.  In the indented one each item of
a list and each field of a record stands on a line of its own, two spaces further in than what
encloses it; empty lists and records stay closed.
-/

namespace SourceMask

namespace Json

/-- The digits of an integer, with a minus sign where it is negative. -/
def integerText (value : Int) : Text :=
  (if value < 0 then ['-'] else []) ++ Nat.toDigits 10 value.natAbs

/-- The written form of data that has no parts. -/
def scalarText : Data → Text
  | .null => ['n', 'u', 'l', 'l']
  | .flag true => ['t', 'r', 'u', 'e']
  | .flag false => ['f', 'a', 'l', 's', 'e']
  | .integer value => integerText value
  | .decimal written => written
  | .moment written => quote written
  | .text value => quote value
  | .list _ => ['[', ']']
  | .record _ => ['\x7b', '\x7d']

/-! ## Compact -/

mutual

/-- The compact form of data. -/
def compact : Data → Text
  | .list (item :: items) => '[' :: (compact item ++ compactItems items)
  | .record ((key, value) :: fields) =>
    '\x7b' :: (quote key ++ ':' :: (compact value ++ compactFields fields))
  | data => scalarText data

/-- The compact form of the later items of a list, with the bracket that closes it. -/
def compactItems : List Data → Text
  | [] => [']']
  | item :: items => ',' :: (compact item ++ compactItems items)

/-- The compact form of the later fields of a record, with the brace that closes it. -/
def compactFields : List (Text × Data) → Text
  | [] => ['\x7d']
  | (key, value) :: fields =>
    ',' :: (quote key ++ ':' :: (compact value ++ compactFields fields))

end

/-! ## Indented -/

/-- A line break and the blanks at the start of a line at some depth. -/
def lineStart (depth : Nat) : Text := '\n' :: List.replicate (2 * depth) ' '

mutual

/-- The indented form of data that stands at some depth. -/
def indented (depth : Nat) : Data → Text
  | .list (item :: items) =>
    '[' :: (lineStart (depth + 1) ++ (indented (depth + 1) item ++ indentedItems depth items))
  | .record ((key, value) :: fields) =>
    '\x7b' :: (lineStart (depth + 1) ++ (quote key ++ ':' :: ' ' ::
      (indented (depth + 1) value ++ indentedFields depth fields)))
  | data => scalarText data

/-- The indented form of the later items of a list at some depth, with the bracket that closes
it. -/
def indentedItems (depth : Nat) : List Data → Text
  | [] => lineStart depth ++ [']']
  | item :: items =>
    ',' :: (lineStart (depth + 1) ++ (indented (depth + 1) item ++ indentedItems depth items))

/-- The indented form of the later fields of a record at some depth, with the brace that closes
it. -/
def indentedFields (depth : Nat) : List (Text × Data) → Text
  | [] => lineStart depth ++ ['\x7d']
  | (key, value) :: fields =>
    ',' :: (lineStart (depth + 1) ++ (quote key ++ ':' :: ' ' ::
      (indented (depth + 1) value ++ indentedFields depth fields)))

end

/-- Data as a JSON document in the indented layout. -/
def pretty (data : Data) : Text := indented 0 data

end Json

end SourceMask
