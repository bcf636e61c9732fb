import SourceMask.Proofs.Tree.WellFormed

/-!
# Shifted trees

A tree of a text becomes a tree of a longer text when all offsets are shifted by the bytes in front
of the part.  Its declarations are the shifted declarations, and because every node covers the same
characters as before, they introduce the same names.

Main results:

- Theorem `outermostList_shift`: the outermost declarations of shifted trees are the shifted ones.
- Theorem `declaredNames_shift`: a declaration introduces the same names wherever its text stands.
-/

namespace SourceMask

namespace Node

mutual

/-- The tree with all offsets further on by a number of bytes. -/
def shift (distance : Nat) : Node → Node
  | mk label children =>
    mk { label with start := label.start + distance, stop := label.stop + distance }
      (shiftList distance children)

/-- Several trees with all offsets further on by a number of bytes. -/
def shiftList (distance : Nat) : List Node → List Node
  | [] => []
  | node :: rest => shift distance node :: shiftList distance rest

end

variable {text : Text} {distance : Nat}

theorem shiftList_eq_map (distance : Nat) (nodes : List Node) :
    shiftList distance nodes = nodes.map (shift distance) := by
  induction nodes with
  | nil => rfl
  | cons node rest ih => rw [shiftList, ih, List.map_cons]

@[simp] theorem kind_shift (node : Node) : (node.shift distance).kind = node.kind := by
  cases node
  rfl

@[simp] theorem field_shift (node : Node) : (node.shift distance).field = node.field := by
  cases node
  rfl

@[simp] theorem start_shift (node : Node) :
    (node.shift distance).start = node.start + distance := by
  cases node
  rfl

@[simp] theorem stop_shift (node : Node) : (node.shift distance).stop = node.stop + distance := by
  cases node
  rfl

@[simp] theorem children_shift (node : Node) :
    (node.shift distance).children = node.children.map (shift distance) := by
  cases node with
  | mk label children => exact shiftList_eq_map distance children

mutual

/-- A shift by no bytes changes nothing. -/
@[simp] theorem shift_zero : ∀ node : Node, node.shift 0 = node
  | mk label children => by rw [shift, shiftList_zero children]; rfl

/-- A shift by no bytes changes nothing. -/
theorem shiftList_zero : ∀ nodes : List Node, shiftList 0 nodes = nodes
  | [] => rfl
  | node :: rest => by rw [shiftList, shift_zero node, shiftList_zero rest]

end

/-- A shifted node covers the same characters as before. -/
theorem textOf_shift {node : Node} (h : node.isWellFormed text = true) (before after : Text) :
    Pass.textOf (before ++ text ++ after) (node.shift (Text.byteLength before)) =
      Pass.textOf text node := by
  rcases exists_textOf h with ⟨piece, hpiece, htext⟩
  have hinside := Text.slice?_inside hpiece before after
  rw [htext, Pass.textOf, start_shift, stop_shift, hinside]

end Node

namespace Pass

variable {pass : Pass} {text : Text}

/-- The outermost declarations of shifted trees are the shifted ones. -/
theorem outermostList_shift (distance : Nat) (nodes : List Node) :
    pass.outermostList (nodes.map (Node.shift distance)) =
      (pass.outermostList nodes).map (Node.shift distance) := by
  rw [← declarationsFrom_eq_outermostList, ← declarationsFrom_eq_outermostList]
  fun_induction declarationsFrom pass nodes with
  | case1 => rw [List.map_nil, declarationsFrom]
  | case2 node others htarget ih =>
    rw [List.map_cons, declarationsFrom, Node.kind_shift, if_pos htarget, ih, List.map_cons]
  | case3 node others htarget ih =>
    rw [List.map_cons, declarationsFrom, Node.kind_shift, if_neg htarget, Node.children_shift,
      ← List.map_append, ih]

/-- Children introduce the same names wherever their text stands. -/
theorem recordChildren_shift {parent : Node} (h : parent.isWellFormed text = true)
    (before after : Text) (table : NameTable) :
    pass.recordChildren (before ++ text ++ after) table
        (parent.shift (Text.byteLength before)) =
      pass.recordChildren text table parent := by
  have hchildren : ∀ child ∈ parent.children, child.isWellFormed text = true :=
    fun child => Node.isWellFormed_child h
  rw [recordChildren, recordChildren, Node.children_shift, Node.kind_shift, List.foldlM_map]
  generalize parent.children = nodes at hchildren
  induction nodes generalizing table with
  | nil => rfl
  | cons child rest ih =>
    have hstep : pass.recordName (before ++ text ++ after) parent.kind table
        (child.shift (Text.byteLength before)) = pass.recordName text parent.kind table child := by
      rw [recordName, recordName, Node.kind_shift, Node.field_shift,
        Node.textOf_shift (hchildren child List.mem_cons_self)]
    rw [List.foldlM_cons, List.foldlM_cons, hstep]
    refine congrArg _ (funext fun next => ?_)
    exact ih next fun other hother => hchildren other (List.mem_cons_of_mem child hother)

/-- The names introduced below nodes are the same wherever the text of the nodes stands. -/
theorem recordBelow_shift (stack : List Node)
    (h : ∀ node ∈ stack, node.isWellFormed text = true) (before after : Text)
    (table : NameTable) :
    pass.recordBelow (before ++ text ++ after) table
        (stack.map (Node.shift (Text.byteLength before))) =
      pass.recordBelow text table stack := by
  fun_induction recordBelow pass text table stack with
  | case1 table => rw [List.map_nil, recordBelow]
  | case2 table node others fault hfault =>
    have hnode := h node List.mem_cons_self
    rw [List.map_cons, recordBelow, recordChildren_shift hnode, hfault]
  | case3 table node others names hnames ih =>
    have hnode := h node List.mem_cons_self
    rw [List.map_cons, recordBelow, recordChildren_shift hnode, hnames, Node.children_shift,
      ← List.map_append]
    apply ih
    intro other hother
    rcases List.mem_append.mp hother with hother | hother
    · exact Node.isWellFormed_child hnode hother
    · exact h other (List.mem_cons_of_mem node hother)

/-- A declaration introduces the same names wherever its text stands. -/
theorem declaredNames_shift {declaration : Node} (h : declaration.isWellFormed text = true)
    (before after : Text) :
    pass.declaredNames (before ++ text ++ after) (declaration.shift (Text.byteLength before)) =
      pass.declaredNames text declaration :=
  recordBelow_shift [declaration] (by simpa using h) before after .empty

end Pass

end SourceMask
