import SourceMask.Masking.Plan
import SourceMask.Proofs.Text.Exchange
import SourceMask.Proofs.Tree.Outermost

/-!
# Well-formed trees

A tree fits the text that it was made for when every node covers a part of it, and the children of
a node lie inside of that part, one after the other and without overlap.  Nodes that cover nothing
are allowed.

From this follows all that a pass relies on: the outermost declarations lie one after the other,
each of them reads as a slice of the text, and so does every name that they introduce.

Main results:

- Theorem `inOrder_outermost`: the outermost declarations of a well-formed tree lie in order.
- Theorem `exists_declaredNames`: the names of a well-formed declaration can be collected.
- Theorem `exists_exchanges`: a text can be read from left to right by the ranges of nodes that
  lie in order.
-/

namespace SourceMask

namespace Node

mutual

/-- Whether a tree fits a text: its nodes start and end between two characters, and the children
of each node lie inside of it and in order. -/
def isWellFormed (text : Text) : Node → Bool
  | mk label children =>
    Text.isBoundary label.start text && Text.isBoundary label.stop text &&
      inOrder text label.start label.stop children

/-- Whether several trees fit a text and lie between two byte offsets, one after the other and
without overlap. -/
def inOrder (text : Text) (low high : Nat) : List Node → Bool
  | [] => low ≤ high
  | node :: rest => low ≤ node.start && isWellFormed text node && inOrder text node.stop high rest

end

variable {text : Text} {low mid high : Nat}

/-! ## Parts of a well-formed tree -/

@[simp] theorem inOrder_nil : inOrder text low high [] = true ↔ low ≤ high := by
  simp [inOrder]

@[simp] theorem inOrder_cons {node : Node} {rest : List Node} :
    inOrder text low high (node :: rest) = true ↔
      low ≤ node.start ∧ node.isWellFormed text = true ∧
        inOrder text node.stop high rest = true := by
  simp [inOrder, and_assoc]

theorem isWellFormed_iff {node : Node} :
    node.isWellFormed text = true ↔
      Text.isBoundary node.start text = true ∧ Text.isBoundary node.stop text = true ∧
        inOrder text node.start node.stop node.children = true := by
  cases node with
  | mk label children => simp [isWellFormed, start, stop, and_assoc]

mutual

/-- A well-formed node does not end before it starts. -/
theorem start_le_stop : ∀ {node : Node}, node.isWellFormed text = true → node.start ≤ node.stop
  | mk _ _, h => by
    rcases isWellFormed_iff.mp h with ⟨-, -, hchildren⟩
    exact inOrder_le hchildren

/-- Trees in order between two offsets show that the offsets are in order. -/
theorem inOrder_le : ∀ {low high : Nat} {nodes : List Node},
    inOrder text low high nodes = true → low ≤ high
  | _, _, [], h => inOrder_nil.mp h
  | _, _, node :: _, h => by
    rcases inOrder_cons.mp h with ⟨hlow, hnode, hrest⟩
    have hself := start_le_stop hnode
    have hlater := inOrder_le hrest
    omega

end

/-- Trees in order lie between any two offsets further apart. -/
theorem inOrder_of_le {low' : Nat} {nodes : List Node} (hle : low' ≤ low)
    (h : inOrder text low high nodes = true) : inOrder text low' high nodes = true := by
  cases nodes with
  | nil => exact inOrder_nil.mpr (Nat.le_trans hle (inOrder_nil.mp h))
  | cons node rest =>
    rcases inOrder_cons.mp h with ⟨hlow, hnode, hrest⟩
    exact inOrder_cons.mpr ⟨Nat.le_trans hle hlow, hnode, hrest⟩

/-- Trees in order followed by trees in order are in order. -/
theorem inOrder_append {first second : List Node} (hfirst : inOrder text low mid first = true)
    (hsecond : inOrder text mid high second = true) :
    inOrder text low high (first ++ second) = true := by
  induction first generalizing low with
  | nil => exact inOrder_of_le (inOrder_nil.mp hfirst) hsecond
  | cons node rest ih =>
    rcases inOrder_cons.mp hfirst with ⟨hlow, hnode, hrest⟩
    exact inOrder_cons.mpr ⟨hlow, hnode, ih hrest⟩

/-- Each of several trees in order is well formed. -/
theorem isWellFormed_of_mem {nodes : List Node} {node : Node}
    (h : inOrder text low high nodes = true) (hmem : node ∈ nodes) :
    node.isWellFormed text = true := by
  induction nodes generalizing low with
  | nil => simp at hmem
  | cons other rest ih =>
    rcases inOrder_cons.mp h with ⟨-, hother, hrest⟩
    rcases List.mem_cons.mp hmem with rfl | hmem
    · exact hother
    · exact ih hrest hmem

/-- Children of a well-formed node are well formed. -/
theorem isWellFormed_child {node child : Node} (h : node.isWellFormed text = true)
    (hmem : child ∈ node.children) : child.isWellFormed text = true :=
  isWellFormed_of_mem (isWellFormed_iff.mp h).2.2 hmem

/-! ## Texts of nodes -/

/-- A well-formed node reads as a slice of the text. -/
theorem exists_textOf {node : Node} (h : node.isWellFormed text = true) :
    ∃ piece, Text.slice? text node.start node.stop = some piece ∧
      Pass.textOf text node = .ok piece := by
  rcases isWellFormed_iff.mp h with ⟨hstart, hstop, -⟩
  rcases Text.exists_slice? hstart hstop (start_le_stop h) with ⟨piece, hpiece⟩
  exact ⟨piece, hpiece, by rw [Pass.textOf, hpiece]⟩

/-- Nodes that lie in order start behind the start of the range, and follow one another. -/
theorem pairwise_of_inOrder {nodes : List Node} (h : inOrder text low high nodes = true) :
    (∀ node ∈ nodes, low ≤ node.start) ∧
      nodes.Pairwise fun first second => first.stop ≤ second.start := by
  induction nodes generalizing low with
  | nil => exact ⟨by simp, .nil⟩
  | cons node rest ih =>
    rcases inOrder_cons.mp h with ⟨hlow, hnode, hrest⟩
    rcases ih hrest with ⟨hbehind, hfollow⟩
    refine ⟨?_, .cons hbehind hfollow⟩
    intro other hmem
    rcases List.mem_cons.mp hmem with rfl | hmem
    · exact hlow
    · have hle := start_le_stop hnode
      have hother := hbehind other hmem
      omega

/-- A text can be read from left to right by the ranges of nodes that lie in order. -/
theorem exists_exchanges (before after : Text) {source : Text} {nodes : List Node}
    {writes : Node → Text → Text → Prop}
    (hwrites : ∀ node ∈ nodes, ∀ slice, ∃ piece, writes node slice piece)
    (horder : inOrder source (Text.byteLength before) high nodes = true)
    (hsource : source = before ++ after) :
    ∃ result, Text.Exchanges Node.start Node.stop writes (Text.byteLength before) after nodes
      result := by
  rcases pairwise_of_inOrder horder with ⟨hlow, hfollow⟩
  refine Text.Exchanges.exists_of_follow before after hwrites ?_ hlow hfollow hsource
  intro node hmem
  have hnode := isWellFormed_of_mem horder hmem
  rcases isWellFormed_iff.mp hnode with ⟨hstart, hstop, -⟩
  exact ⟨start_le_stop hnode, hstart, hstop⟩

end Node

namespace Pass

variable {pass : Pass} {text : Text} {low high : Nat}

/-! ## Declarations -/

/-- The walk over open nodes that lie in order finds declarations that lie in order. -/
theorem inOrder_declarationsFrom {stack : List Node}
    (h : Node.inOrder text low high stack = true) :
    Node.inOrder text low high (pass.declarationsFrom stack) = true := by
  fun_induction declarationsFrom pass stack generalizing low with
  | case1 => exact h
  | case2 node others htarget ih =>
    rcases Node.inOrder_cons.mp h with ⟨hlow, hnode, hothers⟩
    exact Node.inOrder_cons.mpr ⟨hlow, hnode, ih hothers⟩
  | case3 node others htarget ih =>
    rcases Node.inOrder_cons.mp h with ⟨hlow, hnode, hothers⟩
    rcases Node.isWellFormed_iff.mp hnode with ⟨-, -, hchildren⟩
    exact ih (Node.inOrder_append (Node.inOrder_of_le hlow hchildren) hothers)

/-- The outermost declarations of a well-formed tree lie in order. -/
theorem inOrder_outermost (pass : Pass) {root : Node} (h : root.isWellFormed text = true) :
    Node.inOrder text root.start root.stop (pass.outermost root) = true := by
  rw [← declarations_eq_outermost]
  exact inOrder_declarationsFrom
    (Node.inOrder_cons.mpr ⟨Nat.le_refl _, h, Node.inOrder_nil.mpr (Nat.le_refl _)⟩)

/-! ## Names -/

/-- The names that well-formed children introduce can be recorded. -/
theorem exists_recordChildren (pass : Pass) {parent : Node} (h : parent.isWellFormed text = true)
    (table : NameTable) : ∃ names, pass.recordChildren text table parent = .ok names := by
  have hchildren : ∀ child ∈ parent.children, child.isWellFormed text = true :=
    fun child => Node.isWellFormed_child h
  unfold recordChildren
  generalize parent.children = nodes at hchildren
  induction nodes generalizing table with
  | nil => exact ⟨table, rfl⟩
  | cons child rest ih =>
    have hrest := fun other hother => hchildren other (List.mem_cons_of_mem child hother)
    have hstep : ∃ names, pass.recordName text parent.kind table child = .ok names := by
      rcases Node.exists_textOf (hchildren child List.mem_cons_self) with ⟨piece, -, hpiece⟩
      unfold recordName
      cases pass.classify child.kind parent.kind child.field with
      | none => exact ⟨table, rfl⟩
      | some role => exact ⟨(table.insert role piece).2, by rw [hpiece]; rfl⟩
    rcases hstep with ⟨names, hnames⟩
    rcases ih names hrest with ⟨result, hresult⟩
    exact ⟨result, by rw [List.foldlM_cons, hnames]; exact hresult⟩

/-- The names that are introduced below well-formed nodes can be recorded. -/
theorem exists_recordBelow (pass : Pass) {stack : List Node} (table : NameTable)
    (h : ∀ node ∈ stack, node.isWellFormed text = true) :
    ∃ names, pass.recordBelow text table stack = .ok names := by
  fun_induction recordBelow pass text table stack with
  | case1 table => exact ⟨table, rfl⟩
  | case2 table node others fault hfault =>
    rcases exists_recordChildren pass (h node List.mem_cons_self) table with ⟨names, hnames⟩
    rw [hnames] at hfault
    cases hfault
  | case3 table node others names hnames ih =>
    apply ih
    intro other hother
    rcases List.mem_append.mp hother with hother | hother
    · exact Node.isWellFormed_child (h node List.mem_cons_self) hother
    · exact h other (List.mem_cons_of_mem node hother)

/-- The names of a well-formed declaration can be collected. -/
theorem exists_declaredNames (pass : Pass) {declaration : Node}
    (h : declaration.isWellFormed text = true) :
    ∃ names, pass.declaredNames text declaration = .ok names :=
  exists_recordBelow pass .empty (by simpa using h)

end Pass

end SourceMask
