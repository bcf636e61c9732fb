import SourceMask.Dialect
import SourceMask.Tree.Node

/-!
# Parsing and defects

Parsing is done elsewhere: a parser is a function that answers a request with a tree.  What is
checked here is the tree.  If defects are to be rejected, the first one in document order is
reported with its line and column.

Main results:

- Theorem `check_of_not_reject`: without rejection every tree passes.
-/

namespace SourceMask

/-- Why a text has no tree to work on. -/
inductive ParseFault where
  /-- The parser gave no tree. -/
  | noTree (dialect : Dialect)
  /-- The tree has a defect; line and column are counted from one. -/
  | defect (dialect : Dialect) (line column : Nat)
  deriving DecidableEq, Repr

namespace Node

/-! ## The first defect -/

/-- The first defect in document order among open nodes.  A node that is marked as free of errors
is passed over with all that is below it. -/
def firstDefect? : List Node → Option Node
  | [] => none
  | node :: others =>
    if node.isDefect then some node
    else if node.hasError then firstDefect? (node.children ++ others)
    else firstDefect? others
termination_by stack => sizeList stack
decreasing_by
  · rw [sizeList_append, sizeList_cons, size_eq]
    omega
  · have := size_pos node
    rw [sizeList_cons]
    omega

/-- Line and column of the first defect, counted from one. -/
def defectPosition (text : Text) (root : Node) : Nat × Nat :=
  match firstDefect? [root] with
  | some node =>
    let position := Text.positionAt text node.start
    (position.row + 1, position.column + 1)
  | none => (1, 1)

/-- Let a tree pass, unless defects are rejected and it is marked as having one. -/
def check (reject : Bool) (dialect : Dialect) (text : Text) (root : Node) :
    Except ParseFault Node :=
  if reject && root.hasError then
    let (line, column) := defectPosition text root
    .error (.defect dialect line column)
  else
    .ok root

/-- Without rejection every tree passes. -/
theorem check_of_not_reject (dialect : Dialect) (text : Text) (root : Node) :
    check false dialect text root = .ok root := by
  simp [check]

end Node

end SourceMask
