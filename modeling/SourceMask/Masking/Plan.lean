import SourceMask.Edit
import SourceMask.NameTable
import SourceMask.Tree.Declarations

/-!
# Planning a pass

For each declaration that a pass masks, the names that it introduces are collected from its
subtree, and its text is masked with them.  What changes becomes an edit of the declaration's
byte range; the rest of the text is not touched.
-/

namespace SourceMask

namespace Pass

/-! ## Text of nodes -/

/-- The text that a node covers. -/
def textOf (source : Text) (node : Node) : Except Edit.Fault Text :=
  match Text.slice? source node.start node.stop with
  | some text => .ok text
  | none => .error (.invalid node.start node.stop (Text.byteLength source))

/-! ## Names of a declaration -/

/-- Record the name that a node introduces below a parent of a given kind, if it introduces
one. -/
def recordName (pass : Pass) (source : Text) (parentKind : String) (table : NameTable)
    (node : Node) : Except Edit.Fault NameTable :=
  match pass.classify node.kind parentKind node.field with
  | some role => (textOf source node).map fun name => (table.insert role name).2
  | none => .ok table

/-- Record the names that the children of a node introduce, from left to right. -/
def recordChildren (pass : Pass) (source : Text) (table : NameTable) (parent : Node) :
    Except Edit.Fault NameTable :=
  parent.children.foldlM (pass.recordName source parent.kind) table

/-- Record the names that are introduced below open nodes: first by the children of the first
node, then below these, then below the other nodes. -/
def recordBelow (pass : Pass) (source : Text) (table : NameTable) :
    List Node → Except Edit.Fault NameTable
  | [] => .ok table
  | node :: others =>
    match pass.recordChildren source table node with
    | .error fault => .error fault
    | .ok table => recordBelow pass source table (node.children ++ others)
termination_by stack => Node.sizeList stack
decreasing_by
  rw [Node.sizeList_append, Node.sizeList_cons, Node.size_eq]
  omega

/-- The names that a declaration introduces for a pass. -/
def declaredNames (pass : Pass) (source : Text) (declaration : Node) :
    Except Edit.Fault NameTable :=
  pass.recordBelow source .empty [declaration]

/-! ## The plan -/

/-- The edit that masks one declaration, if masking changes its text. -/
def planDeclaration (pass : Pass) (source : Text) (declaration : Node) :
    Except Edit.Fault (Option Edit) := do
  let names ← pass.declaredNames source declaration
  if names.isEmpty then
    pure none
  else
    let slice ← textOf source declaration
    let masked := names.mask slice
    pure (if masked = slice then none else some ⟨masked, declaration.start, declaration.stop⟩)

/-- The edits of a pass over a text with the given tree, in document order. -/
def plan (pass : Pass) (source : Text) (root : Node) : Except Edit.Fault (List Edit) := do
  let edits ← (pass.declarations root).mapM (pass.planDeclaration source)
  pure (edits.filterMap id)

/-- The text after a pass. -/
def maskText (pass : Pass) (source : Text) (root : Node) : Except Edit.Fault Text := do
  Edit.applyAll source (← pass.plan source root)

end Pass

end SourceMask
