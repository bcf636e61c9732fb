import SourceMask.Store

/-!
# Routes

A path is followed part by part, from the root if it starts with a slash and from the working
directory otherwise.  Empty parts and single dots stay where they are, two dots lead to the parent,
and every part but the last has to be a directory.  The root is its own parent.
-/

namespace SourceMask

namespace Store

/-- The most bytes that a part of a path may take. -/
def partLimit : Nat := 255

/-- The most bytes that a path may take. -/
def pathLimit : Nat := 4095

/-- The place that one part of a path leads to. -/
def step (here : Location) (part : Bytes) : Except AccessFault Location :=
  if part = [] || part = [Path.dot] then .ok here
  else if part = [Path.dot, Path.dot] then .ok here.dropLast
  else if partLimit < part.length then .error .nameTooLong
  else .ok (here ++ [part])

/-- Follow one part of a path from a place, which has to be a directory. -/
def enter (store : Store) (here : Location) (part : Bytes) : Except AccessFault Location :=
  match store.content? here with
  | some .directory => step here part
  | some _ => .error .notDirectory
  | none => .error .notFound

/-- Follow the parts of a path from a place.  What stands at the last part is not looked at. -/
def follow (store : Store) (here : Location) (parts : List Bytes) : Except AccessFault Location :=
  parts.foldlM store.enter here

/-- The place that a path starts from. -/
def origin (store : Store) (path : Path) : Location :=
  if path.head? = some Path.slash then [] else store.home

/-- Why a path cannot be followed whatever the store holds. -/
def pathFault? (path : Path) : Option AccessFault :=
  if path.contains 0 then some .nulInName
  else if path = [] then some .notFound
  else if pathLimit < path.length then some .nameTooLong
  else none

/-- The place that a path leads to. -/
def locate (store : Store) (path : Path) : Except AccessFault Location :=
  match pathFault? path with
  | some fault => .error fault
  | none => store.follow (store.origin path) (Path.splitOn Path.slash path)

/-- What a path leads to. -/
def find (store : Store) (path : Path) : Except AccessFault Content := do
  match store.content? (← store.locate path) with
  | some content => .ok content
  | none => .error .notFound

end Store

end SourceMask
