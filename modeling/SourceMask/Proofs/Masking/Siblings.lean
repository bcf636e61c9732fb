import SourceMask.Proofs.Masking.Frame
import SourceMask.Proofs.Tree.Shift

/-!
# Declarations side by side

Declarations that stand side by side do not influence each other.  What is written for a
declaration depends on the tree below it and on the text that it covers; neither its place nor what
stands around it matters.  A pass over a text that is put together from two others therefore gives
what it gives for each of them alone.

Main results:

- Theorem `writes_shift`: what is written for a declaration is the same wherever its text stands.
- Theorem `runPass_side_by_side`: the run over two texts and what stands between them is made of
  the runs over each of the two.
-/

namespace SourceMask

namespace Pass

variable {pass : Pass} {text result : Text} {root : Node}

/-- What is written for a declaration is the same wherever its text stands. -/
theorem writes_shift (pass : Pass) {declaration : Node} (h : declaration.isWellFormed text = true)
    (before after slice piece : Text) :
    pass.Writes (before ++ text ++ after) (declaration.shift (Text.byteLength before)) slice piece ↔
      pass.Writes text declaration slice piece := by
  rw [Writes, Writes, declaredNames_shift h]

/-- The outermost declarations of a well-formed tree are well formed. -/
theorem isWellFormed_of_mem_outermost (hwf : root.isWellFormed text = true) {declaration : Node}
    (hmem : declaration ∈ pass.outermost root) : declaration.isWellFormed text = true :=
  Node.isWellFormed_of_mem (inOrder_outermost pass hwf) hmem

/-- The text of a tree is masked in the same way as a part of a longer text. -/
theorem exchanges_shift_of_masks (hwf : root.isWellFormed text = true)
    (h : pass.Masks text root result) (before after : Text) :
    Text.Exchanges Node.start Node.stop (pass.Writes (before ++ text ++ after))
      (Text.byteLength before) text
      ((pass.outermost root).map (Node.shift (Text.byteLength before))) result := by
  have hwrites : ∀ declaration ∈ pass.outermost root, ∀ slice piece,
      pass.Writes text declaration slice piece →
        pass.Writes (before ++ text ++ after) (declaration.shift (Text.byteLength before)) slice
          piece := by
    intro declaration hmem slice piece
    exact (writes_shift pass (isWellFormed_of_mem_outermost hwf hmem) before after slice piece).mpr
  have hmoved := Text.Exchanges.map (Node.shift (Text.byteLength before)) (Text.byteLength before)
    (fun declaration _ => Node.start_shift declaration)
    (fun declaration _ => Node.stop_shift declaration) hwrites h
  rwa [Nat.zero_add] at hmoved

/-- Two texts and what stands between them are masked as each of the two alone. -/
theorem masks_side_by_side {first between second firstResult secondResult : Text}
    {firstRoot secondRoot : Node} (hfirstWf : firstRoot.isWellFormed first = true)
    (hsecondWf : secondRoot.isWellFormed second = true)
    (hfirstKind : pass.isTarget firstRoot.kind = false)
    (hsecondKind : pass.isTarget secondRoot.kind = false)
    (hkind : pass.isTarget root.kind = false)
    (hchildren : root.children = firstRoot.children ++
      secondRoot.children.map (Node.shift (Text.byteLength (first ++ between))))
    (hfirst : pass.Masks first firstRoot firstResult)
    (hsecond : pass.Masks second secondRoot secondResult) :
    pass.Masks (first ++ between ++ second) root (firstResult ++ between ++ secondResult) := by
  have houtermost : pass.outermost root = pass.outermost firstRoot ++
      (pass.outermost secondRoot).map (Node.shift (Text.byteLength (first ++ between))) := by
    rw [outermost_of_not_target hkind, hchildren, outermostList_append, outermostList_shift,
      outermost_of_not_target hfirstKind, outermost_of_not_target hsecondKind]
  have hfront := exchanges_shift_of_masks hfirstWf hfirst [] (between ++ second)
  have hback := exchanges_shift_of_masks hsecondWf hsecond (first ++ between) []
  have hunmoved : (Node.shift (Text.byteLength [])) = id := funext Node.shift_zero
  rw [hunmoved, List.map_id, List.nil_append, ← List.append_assoc] at hfront
  rw [List.append_nil, Text.byteLength_append] at hback
  rw [Masks, houtermost, List.append_assoc firstResult, List.append_assoc first,
    Text.byteLength_append]
  rw [List.append_assoc] at hfront hback
  apply hfront.append
  rw [Text.byteLength_nil, Nat.zero_add]
  exact hback.extend between

end Pass

namespace Masking

/-- The run over two texts and what stands between them is made of the runs over each of the two,
if the tree of the whole has the declarations of both trees side by side.  What is written for a
declaration is the same in the part and in the whole. -/
theorem runPass_side_by_side (masking : Masking) (parser : Parser) {origin : Option Path}
    {pass : Pass} {dialect : Dialect} {first between second : Text}
    {firstRoot secondRoot root : Node}
    (hfirst : parser.tree masking.rejectsDefects ⟨origin, pass, dialect, first⟩ = .ok firstRoot)
    (hsecond : parser.tree masking.rejectsDefects ⟨origin, pass, dialect, second⟩ =
      .ok secondRoot)
    (hwhole : parser.tree masking.rejectsDefects
      ⟨origin, pass, dialect, first ++ between ++ second⟩ = .ok root)
    (hfirstWf : firstRoot.isWellFormed first = true)
    (hsecondWf : secondRoot.isWellFormed second = true)
    (hfirstKind : pass.isTarget firstRoot.kind = false)
    (hsecondKind : pass.isTarget secondRoot.kind = false)
    (hkind : pass.isTarget root.kind = false)
    (hchildren : root.children = firstRoot.children ++
      secondRoot.children.map (Node.shift (Text.byteLength (first ++ between)))) :
    (∃ firstResult secondResult,
      masking.runPass parser ⟨origin, pass, dialect, first⟩ = .ok firstResult ∧
        masking.runPass parser ⟨origin, pass, dialect, second⟩ = .ok secondResult ∧
          masking.runPass parser ⟨origin, pass, dialect, first ++ between ++ second⟩ =
            .ok (firstResult ++ between ++ secondResult)) ∧
      (∀ declaration ∈ pass.outermost firstRoot, ∀ slice piece,
        pass.Writes (first ++ between ++ second) declaration slice piece ↔
          pass.Writes first declaration slice piece) ∧
        ∀ declaration ∈ pass.outermost secondRoot, ∀ slice piece,
          pass.Writes (first ++ between ++ second)
              (declaration.shift (Text.byteLength (first ++ between))) slice piece ↔
            pass.Writes second declaration slice piece := by
  rcases Pass.exists_masks pass hfirstWf with ⟨firstResult, hfirstMasks⟩
  rcases Pass.exists_masks pass hsecondWf with ⟨secondResult, hsecondMasks⟩
  have hmasks := Pass.masks_side_by_side hfirstWf hsecondWf hfirstKind hsecondKind hkind hchildren
    hfirstMasks hsecondMasks
  refine ⟨⟨firstResult, secondResult, ?_, ?_, ?_⟩, ?_, ?_⟩
  · exact runPass_of_masks hfirst hfirstMasks
  · exact runPass_of_masks hsecond hsecondMasks
  · exact runPass_of_masks hwhole hmasks
  · intro declaration hmem slice piece
    have hwf := Pass.isWellFormed_of_mem_outermost hfirstWf hmem
    simpa using Pass.writes_shift pass hwf [] (between ++ second) slice piece
  · intro declaration hmem slice piece
    have hwf := Pass.isWellFormed_of_mem_outermost hsecondWf hmem
    simpa using Pass.writes_shift pass hwf (first ++ between) [] slice piece

/-- A text of a class without members. -/
def emptyClassText : Text := "class B {}".toList

/-- The tree of the text of a class without members. -/
def emptyClass : Node :=
  .mk ⟨"program", none, 0, 10, false, false, false⟩
    [.mk ⟨"class_declaration", none, 0, 10, false, false, false⟩
      [.mk ⟨"type_identifier", some "name", 6, 7, false, false, false⟩ [],
        .mk ⟨"class_body", some "body", 8, 10, false, false, false⟩ []]]

/-- The text of both classes with a blank between them. -/
def twoClassesText : Text := fieldClassText ++ [' '] ++ emptyClassText

/-- The tree of the text of both classes. -/
def twoClasses : Node :=
  .mk ⟨"program", none, 0, 28, false, false, false⟩
    [.mk ⟨"comment", none, 0, 6, false, false, false⟩ [],
      .mk ⟨"class_declaration", none, 6, 17, false, false, false⟩
        [.mk ⟨"type_identifier", some "name", 12, 13, false, false, false⟩ [],
          .mk ⟨"class_body", some "body", 14, 17, false, false, false⟩
            [.mk ⟨"public_field_definition", none, 15, 16, false, false, false⟩
              [.mk ⟨"property_identifier", some "name", 15, 16, false, false, false⟩ []]]],
      .mk ⟨"class_declaration", none, 18, 28, false, false, false⟩
        [.mk ⟨"type_identifier", some "name", 24, 25, false, false, false⟩ [],
          .mk ⟨"class_body", some "body", 26, 28, false, false, false⟩ []]]

/-- A parser that knows the trees of two classes, one by one and side by side. -/
def classParser : Parser := fun request =>
  if request.text = fieldClassText then some fieldClass
  else if request.text = emptyClassText then some emptyClass
  else if request.text = twoClassesText then some twoClasses
  else none

/-- The run over two classes and the blank between them is made of the runs over each class. -/
theorem runPass_side_by_side_twoClasses :
    classParser.tree true (classRequest fieldClassText) = .ok fieldClass ∧
      classParser.tree true (classRequest emptyClassText) = .ok emptyClass ∧
      classParser.tree true (classRequest twoClassesText) = .ok twoClasses ∧
      fieldClass.isWellFormed fieldClassText = true ∧
      emptyClass.isWellFormed emptyClassText = true ∧
      Pass.classScope.isTarget fieldClass.kind = false ∧
      Pass.classScope.isTarget emptyClass.kind = false ∧
      Pass.classScope.isTarget twoClasses.kind = false ∧
      twoClasses.children = fieldClass.children ++ emptyClass.children.map
        (Node.shift (Text.byteLength (fieldClassText ++ [' ']))) ∧
      ∃ firstResult secondResult,
        runPass {} classParser (classRequest fieldClassText) = .ok firstResult ∧
          runPass {} classParser (classRequest emptyClassText) = .ok secondResult ∧
            runPass {} classParser (classRequest twoClassesText) =
              .ok (firstResult ++ [' '] ++ secondResult) :=
  ⟨rfl, rfl, rfl, by decide, by decide, by decide, by decide, by decide, rfl,
    (runPass_side_by_side {} classParser rfl rfl rfl (by decide) (by decide) (by decide)
      (by decide) (by decide) rfl).1⟩

end Masking

end SourceMask
