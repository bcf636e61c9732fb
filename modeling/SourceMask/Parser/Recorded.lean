import SourceMask.Data
import SourceMask.Parser
import SourceMask.Tree.Listing

/-!
# Recorded trees

A parser can answer from a record: for a file, or for a text that comes from no file, the trees
that its passes ask for, in the order in which they ask.  A tree is recorded as its listing, each
node as a list of its depth, kind, field, start, end and marks.
-/

namespace SourceMask

namespace Node

/-- The number that data is. -/
def natural? : Data → Option Nat
  | .integer value => if 0 ≤ value then some value.toNat else none
  | _ => none

/-- The line of a listing that data describes. -/
def lineOfData? : Data → Option Line
  | .list [depth, kind, field, start, stop, marks] => do
    let field ← field.toText?
    let marks ← marks.toText?
    let label : NodeLabel := {
      kind := String.ofList (← kind.toText?)
      field := if field = [] then none else some (String.ofList field)
      start := ← natural? start
      stop := ← natural? stop
      hasError := marks.contains 'h'
      isError := marks.contains 'e'
      isMissing := marks.contains 'm'
    }
    pure ⟨← natural? depth, label⟩
  | _ => none

/-- The tree that data describes. -/
def ofData? : Data → Option Node
  | .list lines => do ofListing? (← lines.mapM lineOfData?)
  | _ => none

end Node

namespace Parser

/-- The recorded tree that a pass asks for: the first pass asks first, the second last. -/
def treeFor? (pass : Pass) (trees : List Node) : Option Node :=
  match pass with
  | .classScope => trees.head?
  | .functionScope => trees.getLast?

/-- The parser that answers every request from the same trees. -/
def ofTrees (trees : List Node) : Parser := fun request => treeFor? request.pass trees

/-- The parser that answers from the trees of the file that a text comes from. -/
def ofRecord (trees : List (Path × List Node)) : Parser := fun request =>
  (request.origin.bind fun path => trees.lookup path).bind (treeFor? request.pass)

end Parser

end SourceMask
