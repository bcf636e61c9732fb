import SourceMask.Data
import SourceMask.Settings

/-!
# Settings as data

Settings come as a record of four sections.  Any section or field may be missing, in which case
its default holds, and unknown names are passed over.  A section may also be a list of its fields
in order; the output path is the one field that such a list must not leave out.
-/

namespace SourceMask

namespace Settings

/-- What depends on the format that data was read from. -/
structure Convention where
  /-- Whether a value carries nothing, so that its field alone names an alternative. -/
  isVoid : Data → Bool
  /-- Whether a list may have more items than the section has fields. -/
  allowsExtra : Bool

/-- The convention of JSON: only null is void, and surplus items are refused. -/
def Convention.json : Convention := ⟨Data.isNull, false⟩

/-- The convention of TOML: empty lists and empty records are void, and surplus items are passed
over. -/
def Convention.toml : Convention where
  isVoid
    | .list [] | .record [] => true
    | _ => false
  allowsExtra := true

/-! ## Sections -/

/-- The fields of a section, each with its value if it is there. -/
structure Fields where
  values : List (Option Data)
  /-- Whether the section is a list. -/
  positional : Bool

/-- The value of a field, by its place in the section. -/
def Fields.get? (fields : Fields) (index : Nat) : Option Data := (fields.values[index]?).join

/-- The fields of a section with the given names.  A moment names no known field. -/
def fieldsOf? (convention : Convention) (names : List String) : Data → Option Fields
  | .record fields => some ⟨names.map (Data.field? fields), false⟩
  | .list items =>
    if !convention.allowsExtra && names.length < items.length then none
    else some ⟨items.map some, true⟩
  | .moment _ => some ⟨[], false⟩
  | _ => none

/-- Read a field that may be missing. -/
def read? {α : Type} (fields : Fields) (index : Nat) (fallback : α) (value? : Data → Option α) :
    Option α :=
  match fields.get? index with
  | some data => value? data
  | none => some fallback

/-- The truth value that data is. -/
def flag? : Data → Option Bool
  | .flag on => some on
  | _ => none

/-- The number that data is, if it fits into 64 bits without a sign. -/
def count? : Data → Option Nat
  | .integer value => if 0 ≤ value ∧ value < 18446744073709551616 then some value.toNat else none
  | _ => none

/-- The path that data is; null is none. -/
def path? : Data → Option (Option Path)
  | .null => some none
  | .text path => some (some (.ofText path))
  | _ => none

/-! ## The four sections -/

/-- The settings of the filter. -/
def filter? (convention : Convention) (data : Data) : Option Filter := do
  let fields ← fieldsOf? convention ["strip_comments", "strip_imports"] data
  pure ⟨← read? fields 0 true flag?, ← read? fields 1 true flag?⟩

/-- The settings of masking. -/
def masking? (convention : Convention) (data : Data) : Option Masking := do
  let fields ← fieldsOf? convention
    ["dialect", "class_scope", "function_scope", "reject_syntax_errors", "max_file_size"] data
  let standard : Masking := {}
  pure ⟨← read? fields 0 standard.dialect
      fun data => (data.choice? convention.isVoid).bind Dialect.ofExactName?,
    ← read? fields 1 standard.classScope flag?, ← read? fields 2 standard.functionScope flag?,
    ← read? fields 3 standard.rejectsDefects flag?, ← read? fields 4 standard.maxFileSize count?⟩

/-- The settings of the output. -/
def output? (convention : Convention) (data : Data) : Option Output := do
  let fields ← fieldsOf? convention ["format", "output_path"] data
  let format ← read? fields 0 default
    fun data => (data.choice? convention.isVoid).bind ReportFormat.ofExactName?
  guard (!(fields.positional && (fields.get? 1).isNone))
  pure ⟨format, ← read? fields 1 none path?⟩

/-- The number of threads. -/
def threads? (convention : Convention) (data : Data) : Option Nat := do
  let fields ← fieldsOf? convention ["threads"] data
  read? fields 0 0 count?

/-- The settings that data describes. -/
def ofData? (convention : Convention) (data : Data) : Option Settings := do
  let fields ← fieldsOf? convention ["filter", "anonymizer", "output", "concurrency"] data
  pure ⟨← read? fields 0 {} (filter? convention), ← read? fields 1 {} (masking? convention),
    ← read? fields 2 {} (output? convention), ← read? fields 3 0 (threads? convention)⟩

end Settings

end SourceMask
