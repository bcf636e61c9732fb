import SourceMask.Dialect
import SourceMask.Text.Encoding

/-!
# Paths

A path is kept as it was written, as bytes.  Mostly these are the bytes of a text, but they need not
be.  The parts of a path stand between slashes; empty parts and single dots name nothing.  The
extension of a path is what follows the last dot in its last part, provided that something stands
before that dot.

Main results:

- Theorem `text?_eq_some_iff`: a path is the text that it was made from, and no other one.
-/

namespace SourceMask

/-- The name of a file, as written. -/
abbrev Path := Bytes

namespace Path

/-! ## Paths and texts -/

/-- The path that a text is. -/
def ofText (text : Text) : Path := text.encode

/-- The text that a path is, if it is one. -/
def text? (path : Path) : Option Text := Text.decode? path

/-- How a path is shown. -/
def display (path : Path) : Text := Text.decodeLossy path

/-- A path is the text that it was made from, and no other one. -/
theorem text?_eq_some_iff {path : Path} {text : Text} :
    path.text? = some text ↔ path = ofText text :=
  Text.decode?_eq_some_iff

/-! ## Parts -/

/-- What stands between the parts of a path. -/
def slash : UInt8 := 0x2F

/-- What stands in front of an extension. -/
def dot : UInt8 := 0x2E

/-- Cut bytes at every occurrence of one of them. -/
def splitOn (separator : UInt8) : Bytes → List Bytes
  | [] => [[]]
  | byte :: rest =>
    if byte = separator then
      [] :: splitOn separator rest
    else
      match splitOn separator rest with
      | [] => [[byte]]
      | part :: others => (byte :: part) :: others

/-- The parts of a path that name something. -/
def parts (path : Path) : List Bytes :=
  (splitOn slash path).filter fun part => part ≠ [] && part ≠ [dot]

/-- The paths that lead to the parents of what a path leads to, outermost first, and the path
itself. -/
def stages (path : Path) : List Path :=
  (List.range (path.length + 1)).filterMap fun n =>
    if 0 < n && (n = path.length || path[n]? = some slash) then some (path.take n) else none

/-- A path without the slashes at its end; the root keeps its slash. -/
def withoutSlashes (path : Path) : Path :=
  path.take 1 ++ ((path.drop 1).reverse.dropWhile (· = slash)).reverse

/-- What stands before the last part of a path. -/
def parent (path : Path) : Path :=
  withoutSlashes (path.withoutSlashes.reverse.dropWhile (· ≠ slash)).reverse

/-- The last part of a path, unless it points to a parent directory. -/
def fileName? (path : Path) : Option Bytes :=
  path.parts.getLast?.filter fun part => part ≠ [dot, dot]

/-- What follows the last dot of a file name, if anything stands before that dot. -/
def extensionOfName? (name : Bytes) : Option Bytes :=
  match (splitOn dot name).reverse with
  | last :: front :: others => if others = [] && front = [] then none else some last
  | _ => none

/-- The extension of a path. -/
def extension? (path : Path) : Option Bytes := path.fileName?.bind extensionOfName?

/-- The dialect that the extension of a path stands for.  An extension that is no text stands for
none. -/
def dialect? (path : Path) : Option Dialect :=
  (path.extension?.bind Text.decode?).bind Dialect.ofExtension?

end Path

end SourceMask
