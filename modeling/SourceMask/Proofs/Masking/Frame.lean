import SourceMask.Masking
import SourceMask.Parser.Recorded
import SourceMask.Proofs.Edit.Splice
import SourceMask.Proofs.Names.Recorded
import SourceMask.Proofs.Tree.WellFormed

/-!
# What a pass changes and what it keeps

A pass over a well-formed tree succeeds.  Its result is told from left to right: in front of,
between and behind the outermost declarations the text is kept, and the slice of each declaration
gives way to the slice with the names of that declaration masked.

Main results:

- Theorem `maskText_of_masks`: the edits that a pass plans and carries out give the text that is
  told from left to right.
- Theorem `exists_masks`: for a well-formed tree there is such a text.
- Theorem `exists_runPass_iff_masks`: a pass over a well-formed tree succeeds, with exactly the text
  that is told from left to right.
-/

namespace SourceMask

namespace Pass

/-- What a pass writes for a declaration that reads as a slice: the slice with the names of the
declaration masked. -/
def Writes (pass : Pass) (source : Text) (declaration : Node) (slice piece : Text) : Prop :=
  ∃ names, pass.declaredNames source declaration = .ok names ∧ piece = names.mask slice

/-- A text read from left to right, with the slices of the outermost declarations masked and all
else kept, gives a result. -/
def Masks (pass : Pass) (source : Text) (root : Node) (result : Text) : Prop :=
  Text.Exchanges Node.start Node.stop (pass.Writes source) 0 source (pass.outermost root) result

variable {pass : Pass} {source text result : Text}

/-- A declaration determines what is written for it. -/
theorem writes_unique {declaration : Node} {slice piece piece' : Text}
    (h : pass.Writes source declaration slice piece)
    (h' : pass.Writes source declaration slice piece') : piece = piece' := by
  rcases h with ⟨names, hnames, rfl⟩
  rcases h' with ⟨names', hnames', rfl⟩
  rw [hnames] at hnames'
  cases hnames'
  rfl

/-! ## The plan -/

/-- A declaration is planned as an edit exactly when masking changes its slice. -/
theorem planDeclaration_of_writes {declaration : Node} {slice piece : Text}
    (hslice : Text.slice? source declaration.start declaration.stop = some slice)
    (hwrites : pass.Writes source declaration slice piece) :
    pass.planDeclaration source declaration =
      .ok (if piece = slice then none else some ⟨piece, declaration.start, declaration.stop⟩) := by
  rcases hwrites with ⟨names, hnames, rfl⟩
  have htext : textOf source declaration = .ok slice := by
    rw [textOf, hslice]
  by_cases hempty : names.isEmpty = true
  · have hsame := NameTable.mask_of_isEmpty hempty slice
    simp [planDeclaration, hnames, hempty, hsame, bind, Except.bind, pure, Except.pure]
  · simp [planDeclaration, hnames, hempty, htext, bind, Except.bind, pure, Except.pure]

/-- A slice that masking changes is not empty. -/
theorem byteLength_pos_of_writes {declaration : Node} {slice piece : Text}
    (hwrites : pass.Writes source declaration slice piece) (hne : piece ≠ slice) :
    0 < Text.byteLength slice := by
  rcases hwrites with ⟨names, hnames, rfl⟩
  rcases Nat.eq_zero_or_pos (Text.byteLength slice) with hzero | hpos
  · have hnil : slice = [] := (Text.byteLength_eq_zero_iff slice).mp hzero
    subst hnil
    exact absurd (NameTable.mask_nil (isRecorded_declaredNames hnames)) hne
  · exact hpos

/-- Reading with the declarations masked is reading with the planned edits, whose ranges are not
empty: a declaration that is not planned reads as before and becomes a part of the gap. -/
theorem exists_plans_of_exchanges {offset : Nat} {nodes : List Node}
    (h : Text.Exchanges Node.start Node.stop (pass.Writes source) offset text nodes result) :
    ∀ {before : Text}, source = before ++ text → Text.byteLength before = offset →
      ∃ plans, nodes.mapM (pass.planDeclaration source) = .ok plans ∧
        Text.Exchanges Edit.start Edit.stop (fun edit _ piece => piece = edit.text) offset text
          (plans.filterMap id) result ∧
        ∀ edit ∈ plans.filterMap id, edit.start < edit.stop := by
  induction h with
  | done offset text =>
    intro _ _ _
    exact ⟨[], rfl, .done offset text, by simp⟩
  | @step offset gap slice rest piece result node nodes hstart hstop hwrites _ ih =>
    intro before hsource hbefore
    have hbegin : Text.byteLength (before ++ gap) = node.start := by
      rw [Text.byteLength_append, hbefore, hstart]
    have hend : Text.byteLength (before ++ gap ++ slice) = node.stop := by
      rw [Text.byteLength_append, hbegin, hstop]
    have hparts : source = before ++ gap ++ slice ++ rest := by
      simpa only [List.append_assoc] using hsource
    have hslice : Text.slice? source node.start node.stop = some slice := by
      rw [hparts, ← hbegin, ← hend]
      exact Text.slice?_append _ _ _
    have hplan := planDeclaration_of_writes hslice hwrites
    rcases ih hparts hend with ⟨plans, hplans, hlater, hnonempty⟩
    by_cases hsame : piece = slice
    · rw [if_pos hsame] at hplan
      refine ⟨none :: plans, by rw [List.mapM_cons, hplan, hplans]; rfl, ?_, hnonempty⟩
      rw [hsame]
      apply Text.Exchanges.extend (gap ++ slice)
      rwa [Text.byteLength_append, ← Nat.add_assoc, ← hstart, ← hstop]
    · rw [if_neg hsame] at hplan
      have hpos := byteLength_pos_of_writes hwrites hsame
      refine ⟨some ⟨piece, node.start, node.stop⟩ :: plans,
        by rw [List.mapM_cons, hplan, hplans]; rfl, .step hstart hstop rfl hlater, ?_⟩
      intro edit hedit
      rcases List.mem_cons.mp hedit with rfl | hedit
      · change node.start < node.stop
        omega
      · exact hnonempty edit hedit

/-- The edits that a pass plans and carries out give the text that is told from left to right. -/
theorem maskText_of_masks {root : Node} (h : pass.Masks source root result) :
    pass.maskText source root = .ok result := by
  rcases exists_plans_of_exchanges h (List.nil_append source).symm Text.byteLength_nil with
    ⟨plans, hplans, hedits, hnonempty⟩
  have hplan : pass.plan source root = .ok (plans.filterMap id) := by
    rw [plan, declarations_eq_outermost, hplans]
    rfl
  have hfollow := (Edit.pairwise_of_exchanges hedits).2
  have horder := Edit.rightmostFirst_eq_reverse hnonempty hfollow
  have hsplices :
      Edit.Splices source (Edit.rightmostFirst (plans.filterMap id)).reverse result := by
    rw [horder, List.reverse_reverse]
    exact hedits
  rw [maskText, hplan]
  exact Edit.applyAll_of_splices hsplices

/-! ## Well-formed trees -/

/-- For a well-formed tree there is a text that is told from left to right. -/
theorem exists_masks (pass : Pass) {root : Node} (hwf : root.isWellFormed source = true) :
    ∃ result, pass.Masks source root result := by
  have horder := Node.inOrder_of_le (Nat.zero_le _) (inOrder_outermost pass hwf)
  refine Node.exists_exchanges [] source ?_ horder (List.nil_append source).symm
  intro declaration hmem slice
  rcases exists_declaredNames pass (Node.isWellFormed_of_mem horder hmem) with ⟨names, hnames⟩
  exact ⟨names.mask slice, names, hnames, rfl⟩

/-- There is only one text that is told from left to right. -/
theorem masks_unique {root : Node} {result' : Text} (h : pass.Masks source root result)
    (h' : pass.Masks source root result') : result = result' := by
  have hwrites : ∀ declaration slice piece piece', pass.Writes source declaration slice piece →
      pass.Writes source declaration slice piece' → piece = piece' :=
    fun _ _ _ _ => writes_unique
  exact Text.Exchanges.unique hwrites h h'

end Pass

namespace Masking

variable {masking : Masking} {parser : Parser} {request : Request} {root : Node}

/-- A pass over a tree that the parser gives and the check lets pass masks the text of the
request. -/
theorem runPass_of_masks {result : Text}
    (htree : parser.tree masking.rejectsDefects request = .ok root)
    (hmasks : request.pass.Masks request.text root result) :
    masking.runPass parser request = .ok result := by
  simp [runPass, htree, Pass.maskText_of_masks hmasks, Except.mapError, bind, Except.bind]

/-- A pass over a well-formed tree succeeds.  Its result is the one text in which the slice of each
outermost declaration is exchanged for the slice with the names of the declaration masked, while
all else is kept in order. -/
theorem exists_runPass_iff_masks (masking : Masking) (parser : Parser)
    (htree : parser.tree masking.rejectsDefects request = .ok root)
    (hwf : root.isWellFormed request.text = true) :
    ∃ result, masking.runPass parser request = .ok result ∧
      ∀ other, request.pass.Masks request.text root other ↔ other = result := by
  rcases Pass.exists_masks request.pass hwf with ⟨result, hresult⟩
  refine ⟨result, runPass_of_masks htree hresult, ?_⟩
  intro other
  constructor
  · intro hother
    exact Pass.masks_unique hother hresult
  · rintro rfl
    exact hresult

/-- A text of a class with a field, behind a comment with a character of two bytes. -/
def fieldClassText : Text := "/*é*/class A {x}".toList

/-- The tree of the text of a class with a field. -/
def fieldClass : Node :=
  .mk ⟨"program", none, 0, 17, false, false, false⟩
    [.mk ⟨"comment", none, 0, 6, false, false, false⟩ [],
      .mk ⟨"class_declaration", none, 6, 17, false, false, false⟩
        [.mk ⟨"type_identifier", some "name", 12, 13, false, false, false⟩ [],
          .mk ⟨"class_body", some "body", 14, 17, false, false, false⟩
            [.mk ⟨"public_field_definition", none, 15, 16, false, false, false⟩
              [.mk ⟨"property_identifier", some "name", 15, 16, false, false, false⟩ []]]]]

/-- A request for the tree of a text of classes. -/
def classRequest (text : Text) : Request := ⟨none, .classScope, .typescript, text⟩

/-- The pass over a class with a field succeeds and masks the class and the field. -/
theorem exists_runPass_iff_masks_fieldClass :
    Parser.tree (.ofTrees [fieldClass]) true (classRequest fieldClassText) = .ok fieldClass ∧
      fieldClass.isWellFormed fieldClassText = true ∧
        runPass {} (.ofTrees [fieldClass]) (classRequest fieldClassText) =
            .ok "/*é*/class _class_ {_property0_}".toList ∧
          ∀ other, Pass.classScope.Masks fieldClassText fieldClass other ↔
            other = "/*é*/class _class_ {_property0_}".toList := by
  have htree : Parser.tree (.ofTrees [fieldClass]) true (classRequest fieldClassText) =
      .ok fieldClass := rfl
  have hwf : fieldClass.isWellFormed fieldClassText = true := by decide
  have hrun : runPass {} (.ofTrees [fieldClass]) (classRequest fieldClassText) =
      .ok "/*é*/class _class_ {_property0_}".toList := by decide +kernel
  rcases exists_runPass_iff_masks {} (.ofTrees [fieldClass]) htree hwf with
    ⟨result, hresult, hmasks⟩
  rw [hrun] at hresult
  cases hresult
  exact ⟨htree, hwf, hrun, hmasks⟩

end Masking

end SourceMask
