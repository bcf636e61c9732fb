import SourceMask.Text.Blank

/-!
# Dialects

Source text is written in one of two dialects, which differ in their grammar.  A dialect is known
by a name, given by hand, or by the extension of a file name; case does not matter in either.
-/

namespace SourceMask

/-- The grammar that a source text is parsed with. -/
inductive Dialect where
  /-- Plain sources. -/
  | typescript
  /-- Sources with markup elements in them. -/
  | tsx
  deriving DecidableEq, Repr

namespace Dialect

instance : Inhabited Dialect := ⟨.typescript⟩

/-- The name of a dialect in settings, reports and messages. -/
def name : Dialect → String
  | .typescript => "typescript"
  | .tsx => "tsx"

/-- The dialect that goes by exactly this name in settings and reports. -/
def ofExactName? (name : Text) : Option Dialect :=
  if name = "typescript".toList then some .typescript
  else if name = "tsx".toList then some .tsx
  else none

/-- The dialect that a file extension stands for. -/
def ofExtension? (extension : Text) : Option Dialect :=
  let lower := extension.map Char.toLower
  if lower ∈ ["ts".toList, "mts".toList, "cts".toList] then some .typescript
  else if lower = "tsx".toList then some .tsx
  else none

/-- The dialect that a name given by hand stands for; blanks around it do not count. -/
def ofName? (name : Text) : Option Dialect :=
  let lower := (Text.trim name).map Char.toLower
  if lower ∈ ["typescript".toList, "ts".toList] then some .typescript
  else if lower = "tsx".toList then some .tsx
  else none

end Dialect

end SourceMask
