import SourceMask.Pass
import SourceMask.Tree.Node

/-!
# Declarations in a tree

A pass masks the outermost nodes of its kinds: a declaration inside of another one belongs to
that one.  The tree is walked with a list of open nodes, from which the first is taken and its
children put in its place.
-/

namespace SourceMask

namespace Pass

/-- The outermost declarations of a pass among open nodes, in document order. -/
def declarationsFrom (pass : Pass) : List Node → List Node
  | [] => []
  | node :: others =>
    if pass.isTarget node.kind then node :: declarationsFrom pass others
    else declarationsFrom pass (node.children ++ others)
termination_by stack => Node.sizeList stack
decreasing_by
  · have := Node.size_pos node
    rw [Node.sizeList_cons]
    omega
  · rw [Node.sizeList_append, Node.sizeList_cons, Node.size_eq]
    omega

/-- The outermost declarations of a pass in a tree, in document order. -/
def declarations (pass : Pass) (root : Node) : List Node := pass.declarationsFrom [root]

end Pass

end SourceMask
