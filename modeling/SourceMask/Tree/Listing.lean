import SourceMask.Tree.Node

/-!
# Tree listings

A tree can be written as the list of its nodes in document order, each with its depth.  The
children of a node are the nodes after it that lie deeper, up to the next one that does not.
The listing is read from its end: whenever a node is met, the trees that stand deeper than it and
directly behind it become its children.
-/

namespace SourceMask

namespace Node

/-- A line of a listing: the depth of a node and what is said of it. -/
structure Line where
  depth : Nat
  label : NodeLabel
  deriving DecidableEq, Repr

/-- Put a node in front of trees of given depths, taking the deeper ones as its children. -/
def attach (line : Line) (trees : List (Nat × Node)) : List (Nat × Node) :=
  let inside := trees.takeWhile fun (depth, _) => line.depth < depth
  let outside := trees.dropWhile fun (depth, _) => line.depth < depth
  (line.depth, mk line.label (inside.map (·.2))) :: outside

/-- The trees of a listing, each with its depth. -/
def treesOfListing (lines : List Line) : List (Nat × Node) := lines.foldr attach []

/-- The tree of a listing, if it lists exactly one. -/
def ofListing? (lines : List Line) : Option Node :=
  match treesOfListing lines with
  | [(_, root)] => some root
  | _ => none

mutual

/-- The listing of a tree whose root has a given depth. -/
def listing (depth : Nat) : Node → List Line
  | mk label children => ⟨depth, label⟩ :: listingList (depth + 1) children

/-- The listing of several trees, one after the other. -/
def listingList (depth : Nat) : List Node → List Line
  | [] => []
  | node :: rest => listing depth node ++ listingList depth rest

end

end Node

end SourceMask
