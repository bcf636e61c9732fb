import SourceMask.Text.Offset

/-!
# Structured data

Settings, recorded outcomes and reports are exchanged as structured data: scalars, lists and
records.  The same type serves every format that such data is written in.
-/

namespace SourceMask

/-- A piece of structured data. -/
inductive Data where
  | null
  | flag (value : Bool)
  | integer (value : Int)
  /-- A number with a fraction or an exponent, as written. -/
  | decimal (written : Text)
  /-- A date or a time of day, as written. -/
  | moment (written : Text)
  | text (value : Text)
  | list (items : List Data)
  | record (fields : List (Text × Data))
  deriving Repr, Inhabited

namespace Data

/-- A text made from a fixed word. -/
def word (value : String) : Data := text value.toList

/-- The value of a field, the first one if a record names it more than once. -/
def field? (fields : List (Text × Data)) (name : String) : Option Data :=
  fields.lookup name.toList

/-- The text that a value is, if it is one. -/
def toText? : Data → Option Text
  | text value => some value
  | _ => none

/-- The alternative that a value chooses: a text names it, and so does a record with this one field
if the value of the field is void. -/
def choice? (isVoid : Data → Bool) : Data → Option Text
  | text name => some name
  | record [(name, value)] => if isVoid value then some name else none
  | _ => none

/-- Whether a value is the null value, which is void in JSON. -/
def isNull : Data → Bool
  | null => true
  | _ => false

/-- The texts of a list of texts. -/
def toTexts? : Data → Option (List Text)
  | list items => items.mapM toText?
  | _ => none

end Data

end SourceMask
