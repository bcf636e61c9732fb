import SourceMask.Store.Access

/-!
# Source files

A source file is known by its path, its dialect and the size that it had when it was opened.  Its
text is read when it is first asked for and kept from then on, whatever becomes of the store.

Main results:

- Theorem `load_of_content`: a text that is kept is answered without looking at the store.
-/

namespace SourceMask

/-- A file that has been opened. -/
structure SourceFile where
  path : Path
  dialect : Dialect
  size : Nat
  /-- The text, if it is kept. -/
  content : Option Text := none
  deriving DecidableEq, Repr

namespace SourceFile

/-- The dialect of a file: the one that its name tells, or else the given one. -/
def dialectOf (path : Path) (fallback : Dialect) : Dialect := path.dialect?.getD fallback

/-- Open the file that a path leads to. -/
def openIn (store : Store) (path : Path) (fallback : Dialect) : Except AccessFault SourceFile := do
  let size ← store.size path
  pure { path, dialect := dialectOf path fallback, size }

/-- The text of a file, and the file with its text kept. -/
def load (file : SourceFile) (store : Store) : Except AccessFault Text × SourceFile :=
  match file.content with
  | some text => (.ok text, file)
  | none =>
    match store.text file.path with
    | .ok text => (.ok text, { file with content := some text })
    | .error fault => (.error fault, file)

/-- The file without its text. -/
def unload (file : SourceFile) : SourceFile := { file with content := none }

/-- The file with a given text. -/
def withContent (file : SourceFile) (text : Text) : SourceFile := { file with content := some text }

/-- A text that is kept is answered without looking at the store. -/
theorem load_of_content {file : SourceFile} {text : Text} (h : file.content = some text)
    (store : Store) : file.load store = (.ok text, file) := by
  simp [load, h]

end SourceFile

end SourceMask
