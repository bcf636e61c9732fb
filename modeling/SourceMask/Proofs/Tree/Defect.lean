import SourceMask.Parser
import SourceMask.Failure
import SourceMask.Proofs.Text.Lines
import SourceMask.Proofs.Tree.Preorder

/-!
# The first defect

The search for a defect passes over every node that is marked as free of errors, with all that is
below it.  If the marks of a tree tell the truth, nothing is missed by that: the search finds what
the whole list of nodes in document order has as its first defect.  A tree is rejected exactly if it
has a defect, and then there is one to report, so the position that stands in for a missing one is
not used.

Main results:

- Theorem `positionAt_append`: the row counts the line breaks, the column the bytes behind the last
  one.
- Theorem `firstDefect?_eq_find?`: the search agrees with document order.
- Theorem `hasError_iff`: a root is marked exactly if there is a first defect.
- Theorem `tree_reports_first_defect`: which trees are rejected, and with which message.
-/

namespace SourceMask

namespace Text

/-! ## Lines and columns -/

/-- Reading up to the offset behind a beginning of the text reads that beginning. -/
theorem upToByte_append (front back : Text) : upToByte (byteLength front) (front ++ back) = front := by
  induction front with
  | nil => cases back <;> rfl
  | cons c front ih =>
    have hpos := c.utf8Size_pos
    obtain ⟨n, hn⟩ : ∃ n, byteLength (c :: front) = n + 1 :=
      ⟨c.utf8Size + byteLength front - 1, by rw [byteLength_cons]; omega⟩
    have hrest : n + 1 - c.utf8Size = byteLength front := by
      rw [← hn, byteLength_cons]
      omega
    rw [hn, List.cons_append, upToByte, hrest, ih]

/-- The row counts the line breaks that are read, the column the bytes behind the last one. -/
theorem endPosition_eq (text : Text) :
    endPosition text = ⟨text.count '\n', byteLength (lastLine text)⟩ := by
  induction text using List.reverseRecOn with
  | nil => rfl
  | append_singleton front c ih =>
    have hstep : endPosition (front ++ [c]) = (endPosition front).advance c := by
      simp [endPosition]
    rw [hstep, ih, Position.advance]
    by_cases hc : c = '\n'
    · rw [if_pos hc, hc, lastLine_of_endsLine (endsLine_concat front)]
      simp
    · have hline : '\n' ∉ [c] := by simpa using Ne.symm hc
      rw [if_neg hc, lastLine_append hline]
      simp [hc]

/-- The place behind a beginning of the text: the line breaks of that beginning, and the bytes of its
last line. -/
theorem positionAt_append (front back : Text) :
    positionAt (front ++ back) (byteLength front) =
      ⟨front.count '\n', byteLength (lastLine front)⟩ := by
  rw [positionAt, upToByte_append, endPosition_eq]

end Text

namespace Node

/-! ## Marks that tell the truth -/

/-- In a tree every node is marked exactly if it is a defect or one is below it. -/
def MarksDefects (root : Node) : Prop :=
  ∀ node ∈ root.preorder,
    node.hasError = true ↔ ∃ defect ∈ node.preorder, defect.isDefect = true

instance (root : Node) : Decidable root.MarksDefects :=
  inferInstanceAs (Decidable (∀ node ∈ root.preorder,
    node.hasError = true ↔ ∃ defect ∈ node.preorder, defect.isDefect = true))

/-- The marks of a subtree tell the truth as well. -/
theorem MarksDefects.of_mem {root node : Node} (h : root.MarksDefects)
    (hnode : node ∈ root.preorder) : node.MarksDefects :=
  fun other hother => h other ((preorder_infix_of_mem hnode).subset hother)

/-- The marks below a node tell the truth as well. -/
theorem MarksDefects.of_child {node child : Node} (h : node.MarksDefects)
    (hchild : child ∈ node.children) : child.MarksDefects := by
  apply h.of_mem
  rw [preorder_eq]
  exact List.mem_cons_of_mem _ (mem_preorderList_of_mem hchild)

/-- Below a node that is not marked there is no defect. -/
theorem find?_eq_none_of_hasError {node : Node} (h : node.MarksDefects)
    (herror : node.hasError = false) : node.preorder.find? isDefect = none := by
  rw [List.find?_eq_none]
  intro defect hdefect hisDefect
  rw [(h node node.mem_preorder).mpr ⟨defect, hdefect, hisDefect⟩] at herror
  cases herror

/-! ## The search -/

/-- Passing over nodes that are not marked does not change which defect comes first. -/
theorem firstDefect?_eq_find? {stack : List Node} (h : ∀ node ∈ stack, node.MarksDefects) :
    firstDefect? stack = (preorderList stack).find? isDefect := by
  fun_induction firstDefect? stack with
  | case1 => rfl
  | case2 node others hdefect =>
    rw [preorderList_cons, preorder_eq, List.cons_append, List.find?_cons_of_pos hdefect]
  | case3 node others hdefect herror ih =>
    have hnode := h node List.mem_cons_self
    have hopen : ∀ other ∈ node.children ++ others, other.MarksDefects := by
      intro other hother
      rcases List.mem_append.mp hother with hchild | hother
      · exact hnode.of_child hchild
      · exact h other (List.mem_cons_of_mem _ hother)
    rw [ih hopen, preorderList_append, preorderList_cons, preorder_eq, List.cons_append,
      List.find?_cons_of_neg hdefect]
  | case4 node others hdefect herror ih =>
    have hnone := find?_eq_none_of_hasError (h node List.mem_cons_self)
      (Bool.eq_false_iff.mpr herror)
    rw [ih fun other hother => h other (List.mem_cons_of_mem _ hother), preorderList_cons,
      List.find?_append, hnone, Option.none_or]

/-- The search from the root finds the first defect of the tree in document order. -/
theorem firstDefect?_root {root : Node} (h : root.MarksDefects) :
    firstDefect? [root] = root.preorder.find? isDefect := by
  rw [firstDefect?_eq_find? (by simpa using h), preorderList_cons, preorderList_nil,
    List.append_nil]

/-- A root is marked exactly if the search finds a defect. -/
theorem hasError_iff {root : Node} (h : root.MarksDefects) :
    root.hasError = true ↔ (firstDefect? [root]).isSome = true := by
  rw [h root root.mem_preorder, firstDefect?_root h, List.find?_isSome]

/-- A marked tree is rejected at its first defect in document order. -/
theorem check_of_find? {root node : Node} (h : root.MarksDefects)
    (hfirst : root.preorder.find? isDefect = some node) (dialect : Dialect) (text : Text) :
    root.check true dialect text =
      .error (.defect dialect ((Text.positionAt text node.start).row + 1)
        ((Text.positionAt text node.start).column + 1)) := by
  have hsearch : firstDefect? [root] = some node := (firstDefect?_root h).trans hfirst
  have herror : root.hasError = true := by
    rw [hasError_iff h, hsearch]
    rfl
  rw [check, defectPosition, hsearch, herror]
  rfl

/-- A tree without defects passes. -/
theorem check_of_forall_not_isDefect {root : Node} (h : root.MarksDefects)
    (hnone : ∀ node ∈ root.preorder, node.isDefect = false) (reject : Bool) (dialect : Dialect)
    (text : Text) : root.check reject dialect text = .ok root := by
  have herror : root.hasError = false := by
    rw [Bool.eq_false_iff]
    intro herror
    rcases (h root root.mem_preorder).mp herror with ⟨defect, hdefect, hisDefect⟩
    rw [hnone defect hdefect] at hisDefect
    cases hisDefect
  simp [check, herror]

end Node

namespace Parser

open Node (firstDefect? isDefect MarksDefects)

/-- If defects are rejected, then a tree whose marks tell the truth is rejected exactly if it has
one.  The message tells line and column, counted from one, of the first one in document order: the
search finds it whenever the root is marked.  If defects are not rejected, every tree passes. -/
theorem tree_reports_first_defect {parser : Parser} {request : Request} {root : Node}
    (hroot : parser request = some root) (hmarks : root.MarksDefects) :
    ((∃ fault, parser.tree true request = .error fault) ↔
        ∃ node ∈ root.preorder, node.isDefect = true) ∧
      ((∀ node ∈ root.preorder, node.isDefect = false) → parser.tree true request = .ok root) ∧
      (∀ node, root.preorder.find? isDefect = some node →
        ∃ position, position = Text.positionAt request.text node.start ∧
          parser.tree true request =
            .error (.defect request.dialect (position.row + 1) (position.column + 1)) ∧
          (Failure.parse none
              (.defect request.dialect (position.row + 1) (position.column + 1))).message =
            "Tree-sitter parsing error: " ++ ("Syntax error in " ++ request.dialect.name ++
              " source at line " ++ toString (position.row + 1) ++
              ", column " ++ toString (position.column + 1)) ∧
          ∀ front back, request.text = front ++ back → Text.byteLength front = node.start →
            position = ⟨front.count '\n', Text.byteLength (Text.lastLine front)⟩) ∧
      firstDefect? [root] = root.preorder.find? isDefect ∧
      (root.hasError = true → (firstDefect? [root]).isSome = true) ∧
      parser.tree false request = .ok root := by
  have htree : ∀ reject, parser.tree reject request =
      root.check reject request.dialect request.text := by
    intro reject
    rw [tree, hroot]
  have hpasses : (∀ node ∈ root.preorder, node.isDefect = false) →
      parser.tree true request = .ok root :=
    fun hnone => (htree true).trans (Node.check_of_forall_not_isDefect hmarks hnone _ _ _)
  refine ⟨⟨?_, ?_⟩, hpasses, ?_, ?_, (Node.hasError_iff hmarks).mp, ?_⟩
  · rintro ⟨fault, hfault⟩
    by_contra hnone
    rw [hpasses (by simpa using hnone)] at hfault
    cases hfault
  · intro hdefect
    rcases Option.isSome_iff_exists.mp (List.find?_isSome.mpr hdefect) with ⟨node, hfirst⟩
    exact ⟨_, (htree true).trans (Node.check_of_find? hmarks hfirst _ _)⟩
  · intro node hfirst
    refine ⟨_, rfl, (htree true).trans (Node.check_of_find? hmarks hfirst _ _), rfl, ?_⟩
    intro front back htext hfront
    rw [htext, ← hfront, Text.positionAt_append]
  · exact Node.firstDefect?_root hmarks
  · rw [htree, Node.check_of_not_reject]

/-- A correct line, and one with two signs of equality. -/
def twoLinesText : Text := "let ok = 1;\n  let = = 3;".toList

/-- The second sign of equality. -/
def strayEquality : Node := .mk ⟨"ERROR", none, 20, 21, true, true, false⟩ []

/-- The tree of the two lines.  The declaration on the first line is not marked. -/
def twoLines : Node :=
  .mk ⟨"program", none, 0, 24, true, false, false⟩
    [.mk ⟨"lexical_declaration", none, 0, 11, false, false, false⟩
      [.mk ⟨"variable_declarator", none, 4, 10, false, false, false⟩
        [.mk ⟨"identifier", some "name", 4, 6, false, false, false⟩ [],
          .mk ⟨"number", some "value", 9, 10, false, false, false⟩ []]],
      .mk ⟨"expression_statement", none, 14, 24, true, false, false⟩
        [.mk ⟨"assignment_expression", none, 14, 23, true, false, false⟩
          [.mk ⟨"identifier", some "left", 14, 17, false, false, false⟩ [],
            strayEquality,
            .mk ⟨"number", some "right", 22, 23, false, false, false⟩ []]]]

/-- The stray sign of equality is reported on the second line, in the ninth column. -/
theorem tree_reports_first_defect_twoLines :
    twoLines.MarksDefects ∧ twoLines.preorder.find? isDefect = some strayEquality ∧
      tree (fun _ => some twoLines) true ⟨none, .classScope, .typescript, twoLinesText⟩ =
        .error (.defect .typescript 2 9) := by
  have hmarks : twoLines.MarksDefects := by decide +kernel
  have hfirst : twoLines.preorder.find? isDefect = some strayEquality := rfl
  refine ⟨hmarks, hfirst, ?_⟩
  have hreports := @tree_reports_first_defect (fun _ => some twoLines)
    ⟨none, .classScope, .typescript, twoLinesText⟩ twoLines rfl hmarks
  rcases hreports.2.2.1 strayEquality hfirst with ⟨position, hposition, hfault, -, -⟩
  have hplace : Text.positionAt twoLinesText strayEquality.start = ⟨1, 8⟩ := by decide +kernel
  rw [hfault, hposition, hplace]

end Parser

end SourceMask
