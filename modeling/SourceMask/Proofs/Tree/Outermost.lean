import SourceMask.Tree.Declarations

/-!
# Outermost declarations by recursion on the tree

The outermost declarations of a tree are its root, if the pass masks its kind, and otherwise those
of its children from left to right.  The walk with a list of open nodes finds the same.

Main results:

- Theorem `declarationsFrom_eq_outermostList`: the walk over open nodes finds the outermost
  declarations of each of them, in their order.
- Theorem `outermost_of_not_target`: below a root that is no declaration, the children are searched
  one after the other.
-/

namespace SourceMask

namespace Pass

mutual

/-- The outermost declarations of a tree, from left to right. -/
def outermost (pass : Pass) : Node → List Node
  | .mk label children =>
    if pass.isTarget label.kind then [.mk label children] else outermostList pass children

/-- The outermost declarations of several trees, from left to right. -/
def outermostList (pass : Pass) : List Node → List Node
  | [] => []
  | node :: rest => outermost pass node ++ outermostList pass rest

end

@[simp] theorem outermostList_nil (pass : Pass) : pass.outermostList [] = [] := rfl

@[simp] theorem outermostList_cons (pass : Pass) (node : Node) (rest : List Node) :
    pass.outermostList (node :: rest) = pass.outermost node ++ pass.outermostList rest := rfl

@[simp] theorem outermostList_append (pass : Pass) (first second : List Node) :
    pass.outermostList (first ++ second) =
      pass.outermostList first ++ pass.outermostList second := by
  induction first with
  | nil => rfl
  | cons node rest ih => simp only [List.cons_append, outermostList_cons, ih, List.append_assoc]

/-- A declaration is its own outermost declaration. -/
theorem outermost_of_target {pass : Pass} {node : Node} (h : pass.isTarget node.kind = true) :
    pass.outermost node = [node] := by
  cases node with
  | mk label children => exact if_pos h

/-- Below a root that is no declaration, the children are searched one after the other. -/
theorem outermost_of_not_target {pass : Pass} {node : Node}
    (h : pass.isTarget node.kind = false) :
    pass.outermost node = pass.outermostList node.children := by
  cases node with
  | mk label children => exact if_neg (by simpa [Node.kind] using h)

/-- The walk over open nodes finds the outermost declarations of each of them, in their order. -/
theorem declarationsFrom_eq_outermostList (pass : Pass) (stack : List Node) :
    pass.declarationsFrom stack = pass.outermostList stack := by
  fun_induction declarationsFrom pass stack with
  | case1 => rfl
  | case2 node others htarget ih =>
    rw [outermostList_cons, outermost_of_target htarget, ih]
    rfl
  | case3 node others htarget ih =>
    have hnot : pass.isTarget node.kind = false := by simpa using htarget
    rw [ih, outermostList_append, outermostList_cons, outermost_of_not_target hnot]

/-- The walk from the root finds the outermost declarations of the tree. -/
theorem declarations_eq_outermost (pass : Pass) (root : Node) :
    pass.declarations root = pass.outermost root := by
  rw [declarations, declarationsFrom_eq_outermostList, outermostList_cons, outermostList_nil,
    List.append_nil]

end Pass

end SourceMask
