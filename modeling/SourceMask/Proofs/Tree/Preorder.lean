import SourceMask.Proofs.Tree.Outermost

/-!
# Trees in document order

The nodes of a tree in document order: a node stands in front of everything below it, and its
children follow one another from left to right, each with all that is below it.  So the nodes of a
subtree stand together.  The outermost declarations of a pass are some of the nodes, in the same
order.

Main results:

- Theorem `length_preorder`: every node of a tree is listed once.
- Theorem `preorder_infix_of_mem`: the nodes of a subtree stand together.
- Theorem `outermost_sublist_preorder`: the outermost declarations are listed in document order.
-/

namespace SourceMask

namespace Node

mutual

/-- The nodes of a tree in document order. -/
def preorder : Node → List Node
  | mk label children => mk label children :: preorderList children

/-- The nodes of several trees in document order. -/
def preorderList : List Node → List Node
  | [] => []
  | node :: rest => preorder node ++ preorderList rest

end

@[simp] theorem preorderList_nil : preorderList [] = [] := rfl

@[simp] theorem preorderList_cons (node : Node) (rest : List Node) :
    preorderList (node :: rest) = node.preorder ++ preorderList rest := rfl

@[simp] theorem preorderList_append (first second : List Node) :
    preorderList (first ++ second) = preorderList first ++ preorderList second := by
  induction first with
  | nil => rfl
  | cons node rest ih => simp only [List.cons_append, preorderList_cons, ih, List.append_assoc]

/-- A node stands in front of everything below it. -/
theorem preorder_eq (node : Node) : node.preorder = node :: preorderList node.children := by
  cases node
  rfl

/-- A tree is listed with its root. -/
theorem mem_preorder (root : Node) : root ∈ root.preorder := by
  rw [preorder_eq]
  exact List.mem_cons_self

/-- Each of several trees is listed with its root. -/
theorem mem_preorderList_of_mem {node : Node} {nodes : List Node} (h : node ∈ nodes) :
    node ∈ preorderList nodes := by
  rcases List.append_of_mem h with ⟨front, back, rfl⟩
  rw [preorderList_append, preorderList_cons]
  exact List.mem_append_right _ (List.mem_append_left _ node.mem_preorder)

mutual

/-- Every node of a tree is listed once. -/
theorem length_preorder : ∀ node : Node, node.preorder.length = node.size
  | mk _ children => by
    rw [preorder_eq, size_eq, List.length_cons, children_mk, length_preorderList children,
      Nat.add_comm]

/-- Every node of several trees is listed once. -/
theorem length_preorderList : ∀ nodes : List Node, (preorderList nodes).length = sizeList nodes
  | [] => rfl
  | node :: rest => by
    rw [preorderList_cons, sizeList_cons, List.length_append, length_preorder node,
      length_preorderList rest]

end

mutual

/-- The nodes of a subtree stand together. -/
theorem preorder_infix_of_mem {node : Node} :
    ∀ {root : Node}, node ∈ root.preorder → node.preorder <:+: root.preorder
  | mk label children, h => by
    rw [preorder_eq (mk label children), children_mk] at h ⊢
    rcases List.mem_cons.mp h with rfl | h
    · exact List.infix_rfl
    · exact List.infix_cons (preorder_infix_of_mem_list h)

/-- The nodes of a subtree of one of several trees stand together. -/
theorem preorder_infix_of_mem_list {node : Node} :
    ∀ {nodes : List Node}, node ∈ preorderList nodes → node.preorder <:+: preorderList nodes
  | first :: rest, h => by
    rcases List.mem_append.mp h with h | h
    · exact (preorder_infix_of_mem h).trans (List.infix_append' [] _ _)
    · exact (preorder_infix_of_mem_list h).trans (List.suffix_append _ _).isInfix

end

end Node

namespace Pass

mutual

/-- The outermost declarations of a tree are listed in document order. -/
theorem outermost_sublist_preorder (pass : Pass) :
    ∀ node : Node, (pass.outermost node).Sublist node.preorder
  | .mk label children => by
    rw [Node.preorder_eq]
    cases htarget : pass.isTarget (Node.mk label children).kind with
    | true =>
      rw [outermost_of_target htarget]
      exact (List.nil_sublist _).cons_cons _
    | false =>
      rw [outermost_of_not_target htarget]
      exact (outermostList_sublist_preorderList pass children).cons _

/-- The outermost declarations of several trees are listed in document order. -/
theorem outermostList_sublist_preorderList (pass : Pass) :
    ∀ nodes : List Node, (pass.outermostList nodes).Sublist (Node.preorderList nodes)
  | [] => .slnil
  | node :: rest =>
    (outermost_sublist_preorder pass node).append (outermostList_sublist_preorderList pass rest)

end

end Pass

end SourceMask
