import SourceMask.Text.Offset

/-!
# Syntax trees

A parser answers with a tree of nodes.  Each node has a kind, the field that it fills in its
parent, a byte range of the parsed text, and three marks: whether it is itself an error or stands
for something missing, and whether such a node is anywhere at or below it.

Main results:

- Theorem `size_pos`: every node counts, so a walk that takes nodes off a list of open nodes and
  puts their children on it comes to an end.
-/

namespace SourceMask

/-- What a parser says of one node. -/
structure NodeLabel where
  kind : String
  field : Option String := none
  start : Nat
  stop : Nat
  hasError : Bool := false
  isError : Bool := false
  isMissing : Bool := false
  deriving DecidableEq, Repr, Inhabited

/-- A node of a syntax tree with its children from left to right. -/
inductive Node where
  | mk (label : NodeLabel) (children : List Node)
  deriving Repr, Inhabited

namespace Node

/-! ## Parts of a node -/

/-- What the parser says of the node. -/
def label : Node → NodeLabel
  | mk label _ => label

/-- The children from left to right. -/
def children : Node → List Node
  | mk _ children => children

@[simp] theorem label_mk (label : NodeLabel) (children : List Node) :
    (mk label children).label = label := rfl

@[simp] theorem children_mk (label : NodeLabel) (children : List Node) :
    (mk label children).children = children := rfl

/-- The grammar rule that the node comes from. -/
def kind (node : Node) : String := node.label.kind

/-- The part that the node plays in its parent, if the grammar names one. -/
def field (node : Node) : Option String := node.label.field

/-- Where the node starts in the text. -/
def start (node : Node) : Nat := node.label.start

/-- Where the node ends in the text. -/
def stop (node : Node) : Nat := node.label.stop

/-- Whether the node is an error or stands for something missing. -/
def isDefect (node : Node) : Bool := node.label.isError || node.label.isMissing

/-- Whether the node is marked as having a defect at or below it. -/
def hasError (node : Node) : Bool := node.label.hasError

/-! ## Size -/

mutual

/-- Number of nodes of a tree. -/
def size : Node → Nat
  | mk _ children => 1 + sizeList children

/-- Number of nodes of several trees. -/
def sizeList : List Node → Nat
  | [] => 0
  | node :: rest => size node + sizeList rest

end

@[simp] theorem sizeList_nil : sizeList [] = 0 := rfl

@[simp] theorem sizeList_cons (node : Node) (rest : List Node) :
    sizeList (node :: rest) = size node + sizeList rest := rfl

@[simp] theorem sizeList_append (first second : List Node) :
    sizeList (first ++ second) = sizeList first + sizeList second := by
  induction first with
  | nil => simp
  | cons node rest ih => simp [ih, Nat.add_assoc]

/-- A node counts for itself and for what is below it. -/
theorem size_eq (node : Node) : size node = 1 + sizeList node.children := by
  cases node
  rfl

/-- Every node counts. -/
theorem size_pos (node : Node) : 0 < size node := by
  rw [size_eq]
  omega

end Node

end SourceMask
