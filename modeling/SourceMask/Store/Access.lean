import SourceMask.Store.Route

/-!
# Reading and writing

Files are read and written by their paths.  A device reads as an empty file.  A file is written by
making it anew, so that a write that is refused on its way leaves the part that was written.
-/

namespace SourceMask

namespace Store

/-! ## Reading -/

/-- The size that a directory is said to have. -/
def directorySize : Nat := 4096

/-- The number of bytes of what a path leads to. -/
def size (store : Store) (path : Path) : Except AccessFault Nat := do
  match ← store.find path with
  | .file bytes => .ok bytes.size
  | .directory => .ok directorySize
  | .device _ => .ok 0

/-- The bytes of the file that a path leads to. -/
def bytes (store : Store) (path : Path) : Except AccessFault ByteArray := do
  match ← store.find path with
  | .file bytes => .ok bytes
  | .directory => .error .isDirectory
  | .device _ => .ok .empty

/-- The text of the file that a path leads to. -/
def text (store : Store) (path : Path) : Except AccessFault Text := do
  match String.fromUTF8? (← store.bytes path) with
  | some text => .ok text.toList
  | none => .error .notText

/-! ## Writing -/

/-- The place that a file is written to by its path.  The directory that it goes to has to be there,
and only a directory may have a slash behind its name. -/
def target (store : Store) (path : Path) : Except AccessFault Location := do
  let location ← store.locate path.withoutSlashes
  if path.getLast? = some Path.slash then .error .isDirectory
  else
    match store.content? location with
    | some .directory => .error .isDirectory
    | _ => .ok location

/-- Whether bytes are refused at a place. -/
def refusal? (store : Store) (location : Location) (bytes : ByteArray) : Option Refusal :=
  match store.content? location with
  | some (.device .full) => if bytes.size = 0 then none else some { fault := .noSpace }
  | _ => store.refuses store.entries location bytes

/-- The store with bytes at a place that is no directory.  A device stays what it is. -/
def fill (store : Store) (location : Location) (bytes : ByteArray) : Store :=
  match store.content? location with
  | some (.device _) => store
  | _ => store.put location (.file bytes)

/-- Write a file: why it was refused, if it was, and the store as it is then. -/
def write (store : Store) (path : Path) (bytes : ByteArray) : Option Refusal × Store :=
  match store.target path with
  | .error fault => (some { fault }, store)
  | .ok location =>
    match store.refusal? location bytes with
    | none => (none, store.fill location bytes)
    | some refusal => (some refusal, refusal.taken.elim store (store.fill location))

/-- Write a text to a file. -/
def writeText (store : Store) (path : Path) (text : Text) : Option Refusal × Store :=
  store.write path (String.ofList text).toUTF8

/-- What the standard output shows when a text is written. -/
def shown (store : Store) (path : Path) (text : Text) : Text :=
  match store.find path with
  | .ok (.device .display) => text
  | _ => []

/-- Follow one part of a path from a place, making a directory where nothing stands. -/
def enterMaking (store : Store) (here : Location) (part : Bytes) :
    Except AccessFault (Store × Location) := do
  let here ← store.enter here part
  match store.content? here with
  | none => .ok (store.put here .directory, here)
  | some _ => .ok (store, here)

/-- Make the directory that a path leads to, and those on the way, as far as they are missing. -/
def makeDirectories (store : Store) (path : Path) : Except AccessFault Store := do
  match pathFault? path with
  | some fault => .error fault
  | none =>
    let (store, here) ← (Path.splitOn Path.slash path).foldlM
      (fun (store, here) part => store.enterMaking here part) (store, store.origin path)
    match store.content? here with
    | some .directory => .ok store
    | _ => .error .alreadyExists

/-- Write a file, making the directories on the way. -/
def supply (store : Store) (path : Path) (bytes : ByteArray) : Option Refusal × Store :=
  if path.parent = [] then
    store.write path bytes
  else
    match store.makeDirectories path.parent with
    | .ok store => store.write path bytes
    | .error fault => (some { fault }, store)

/-- Take down what stands where a path leads, provided that its parents have been taken down. -/
def note (store : Store) (path : Path) (content : Content) : Store :=
  match store.locate path with
  | .ok location => store.put location content
  | .error _ => store

/-- Remove the file that a path leads to. -/
def remove (store : Store) (path : Path) : Except AccessFault Store := do
  let location ← store.locate path
  match store.content? location with
  | some .directory => .error .isDirectory
  | some _ => .ok (store.erase location)
  | none => .error .notFound

end Store

end SourceMask
