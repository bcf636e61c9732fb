import SourceMask.Filter
import SourceMask.Proofs.Text.Lines

/-!
# What the import stage takes out

The import stage reads a text from left to right and skips the import declarations that it meets
where a line begins.  What it takes out can also be told line by line.  A line is judged by its
beginning alone: spaces and tabs, the keyword, and one more character.  None of these is a line
break, so a text is judged by its first line, and a declaration is one line with its break.  The
lines that are kept are the lines of what is left, and no import line is among them.

Main results:

- Theorem `isImportLine_iff`: how an import line begins.
- Theorem `lines_of_afterImport?`: a declaration is the first line of the text that it starts.
- Theorem `stripImports_eq_flatten`: the import stage keeps the lines that are no import lines.
- Theorem `isImportLine_of_mem_stripImports`: no import line is left.
- Theorem `exists_importLine_iff`: where import lines stand in a text.
- Theorem `stripImports_of_tail`: a text that has at most its first line to lose.
- Theorem `apply_eq_trim_otherLines`: the filter with the import stage, line by line.
-/

namespace SourceMask

namespace Filter

/-! ## The beginning of an import line -/

/-- Whether a line is an import line. -/
def isImportLine (line : Text) : Bool :=
  match Text.dropStart? importKeyword (line.dropWhile fun c => c = ' ' || c = '\t') with
  | some (c :: _) => followsImport c
  | _ => false

/-- An import line begins with spaces and tabs, the keyword, and one character that lets it be a
declaration. -/
theorem isImportLine_iff {line : Text} :
    isImportLine line = true ↔
      ∃ indent c rest, line = indent ++ (importKeyword ++ c :: rest) ∧
        (∀ b ∈ indent, b = ' ' ∨ b = '\t') ∧ followsImport c = true := by
  constructor
  · intro h
    unfold isImportLine at h
    split at h
    · rename_i c rest hdrop
      refine ⟨line.takeWhile fun b => b = ' ' || b = '\t', c, rest, ?_, ?_, h⟩
      · rw [← (Text.dropStart?_eq_some_iff _ _ _).mp hdrop, List.takeWhile_append_dropWhile]
      · intro b hb
        simpa using List.mem_takeWhile_imp hb
    · cases h
  · rintro ⟨indent, c, rest, rfl, hindent, hc⟩
    have hdrop : (indent ++ (importKeyword ++ c :: rest)).dropWhile
        (fun b => b = ' ' || b = '\t') = importKeyword ++ c :: rest := by
      rw [List.dropWhile_append_of_pos (by simpa using hindent)]
      rfl
    have hkeyword := (Text.dropStart?_eq_some_iff importKeyword _ (c :: rest)).mpr rfl
    rw [isImportLine, hdrop, hkeyword]
    exact hc

/-- What comes behind its beginning does not matter to an import line. -/
theorem isImportLine_append {line : Text} (h : isImportLine line = true) (more : Text) :
    isImportLine (line ++ more) = true := by
  rcases isImportLine_iff.mp h with ⟨indent, c, rest, rfl, hindent, hc⟩
  exact isImportLine_iff.mpr ⟨indent, c, rest ++ more, by simp, hindent, hc⟩

/-- No line break stands in the beginning of an import line. -/
theorem lineBreak_notMem_beginning {indent : Text} {c : Char}
    (hindent : ∀ b ∈ indent, b = ' ' ∨ b = '\t') (hc : followsImport c = true) :
    '\n' ∉ indent ++ (importKeyword ++ [c]) := by
  intro hmem
  rcases List.mem_append.mp hmem with hmem | hmem
  · exact absurd (hindent _ hmem) (by decide)
  · rcases List.mem_append.mp hmem with hmem | hmem
    · exact absurd hmem (by decide)
    · rw [← List.mem_singleton.mp hmem] at hc
      exact absurd hc (by decide)

/-- A text starts like an import line exactly if its first line is one. -/
theorem isImportLine_iff_head {text : Text} :
    isImportLine text = true ↔
      ∃ line others, Text.lines text = line :: others ∧ isImportLine line = true := by
  constructor
  · intro h
    rcases isImportLine_iff.mp h with ⟨indent, c, rest, rfl, hindent, hc⟩
    have hbreak := lineBreak_notMem_beginning hindent hc
    rcases Text.exists_lines_eq_cons (by simp) hbreak rest with ⟨more, others, hlines⟩
    have htext : indent ++ (importKeyword ++ c :: rest) =
        (indent ++ (importKeyword ++ [c])) ++ rest := by
      simp
    refine ⟨_, others, htext ▸ hlines, ?_⟩
    exact isImportLine_iff.mpr ⟨indent, c, more, by simp, hindent, hc⟩
  · rintro ⟨line, others, hlines, hline⟩
    have htext := Text.flatten_lines text
    rw [hlines, List.flatten_cons] at htext
    rw [← htext]
    exact isImportLine_append hline _

/-- What comes behind its line break does not matter to an import line. -/
theorem isImportLine_lineBreak {line : Text} (hline : '\n' ∉ line) (rest : Text) :
    isImportLine (line ++ '\n' :: rest) = isImportLine (line ++ ['\n']) := by
  rw [Bool.eq_iff_iff, isImportLine_iff_head, Text.lines_lineBreak hline]
  simp

/-! ## The import stage -/

/-- A declaration starts a text exactly if the text starts like an import line. -/
theorem isSome_afterImport? (text : Text) : (afterImport? text).isSome = isImportLine text := by
  unfold afterImport? isImportLine
  cases Text.dropStart? importKeyword (text.dropWhile fun b => b = ' ' || b = '\t') with
  | none => rfl
  | some behind =>
    cases behind with
    | nil => rfl
    | cons c rest =>
      dsimp only
      cases followsImport c with
      | false => rfl
      | true => rfl

/-- A declaration goes from its beginning to the end of the line, and then takes the line break, if
there is one. -/
theorem exists_of_afterImport? {text after : Text} (h : afterImport? text = some after) :
    ∃ indent c body back, text = indent ++ (importKeyword ++ c :: body) ++ back ∧
      (∀ b ∈ indent, b = ' ' ∨ b = '\t') ∧ followsImport c = true ∧ '\n' ∉ body ∧
      (∀ d ∈ back.head?, d = '\n') ∧ after = back.tail := by
  unfold afterImport? at h
  split at h
  · rename_i c rest hdrop
    split at h
    · rename_i hc
      refine ⟨text.takeWhile fun b => b = ' ' || b = '\t', c, rest.takeWhile (· ≠ '\n'),
        rest.dropWhile (· ≠ '\n'), ?_, ?_, hc, ?_, ?_, ?_⟩
      · rw [List.append_assoc, List.append_assoc, List.cons_append, List.takeWhile_append_dropWhile,
          ← (Text.dropStart?_eq_some_iff _ _ _).mp hdrop, List.takeWhile_append_dropWhile]
      · intro b hb
        simpa using List.mem_takeWhile_imp hb
      · intro hmem
        simpa using List.mem_takeWhile_imp hmem
      · intro d hd
        have hnot := List.head?_dropWhile_not (· ≠ '\n') rest
        rw [Option.mem_def.mp hd] at hnot
        simpa using hnot
      · -- A carriage return belongs to the rest of the line, so no other can come first here.
        rw [Option.some.injEq] at h
        rw [← h]
        have hnot := List.head?_dropWhile_not (· ≠ '\n') rest
        cases hback : rest.dropWhile (· ≠ '\n') with
        | nil => rfl
        | cons d more =>
          rw [hback] at hnot
          obtain rfl : d = '\n' := by simpa using hnot
          rfl
    · cases h
  · cases h

/-- A declaration is the first line of the text that it starts. -/
theorem lines_of_afterImport? {text after : Text} (h : afterImport? text = some after) :
    ∃ line, Text.lines text = line :: Text.lines after ∧ isImportLine line = true := by
  rcases exists_of_afterImport? h with ⟨indent, c, body, back, rfl, hindent, hc, hbody, hback, rfl⟩
  have hline : '\n' ∉ indent ++ (importKeyword ++ c :: body) := by
    have hbeginning := lineBreak_notMem_beginning hindent hc
    simp only [List.mem_append, List.mem_cons, not_or] at hbeginning ⊢
    exact ⟨hbeginning.1, hbeginning.2.1, hbeginning.2.2.1, hbody⟩
  have himport : isImportLine (indent ++ (importKeyword ++ c :: body)) = true :=
    isImportLine_iff.mpr ⟨indent, c, body, rfl, hindent, hc⟩
  cases back with
  | nil =>
    refine ⟨_, ?_, himport⟩
    rw [List.append_nil]
    exact Text.lines_of_notMem hline (by simp)
  | cons d rest =>
    obtain rfl := hback d rfl
    exact ⟨_, Text.lines_lineBreak hline rest, isImportLine_append himport ['\n']⟩

/-- Where no declaration starts, it does not matter whether a line begins. -/
theorem dropImports_eq_of_none {text : Text} (h : afterImport? text = none) :
    dropImports true text = dropImports false text := by
  cases text with
  | nil => rw [dropImports_nil, dropImports_nil]
  | cons c rest => rw [dropImports_of_none fun _ => h, dropImports_of_none (by simp)]

/-- Up to the next line break nothing is taken out, if no line begins. -/
theorem dropImports_of_notMem {line : Text} (hline : '\n' ∉ line) :
    dropImports false line = line := by
  induction line with
  | nil => exact dropImports_nil false
  | cons c line ih =>
    rw [List.mem_cons, not_or] at hline
    rw [dropImports_of_none (by simp), decide_eq_false (Ne.symm hline.1), ih hline.2]

/-- Behind the next line break a line begins. -/
theorem dropImports_lineBreak {line : Text} (hline : '\n' ∉ line) (rest : Text) :
    dropImports false (line ++ '\n' :: rest) = line ++ '\n' :: stripImports rest := by
  induction line with
  | nil => exact dropImports_of_none (by simp)
  | cons c line ih =>
    rw [List.mem_cons, not_or] at hline
    rw [List.cons_append, dropImports_of_none (by simp), decide_eq_false (Ne.symm hline.1),
      ih hline.2]
    rfl

/-- The import stage takes the first line out or goes on behind it. -/
theorem stripImports_lineBreak {line : Text} (hline : '\n' ∉ line) (rest : Text) :
    stripImports (line ++ '\n' :: rest) =
      if isImportLine (line ++ ['\n']) then stripImports rest
      else line ++ '\n' :: stripImports rest := by
  rw [← isImportLine_lineBreak hline rest, ← isSome_afterImport?]
  cases hafter : afterImport? (line ++ '\n' :: rest) with
  | none => exact (dropImports_eq_of_none hafter).trans (dropImports_lineBreak hline rest)
  | some after =>
    rcases lines_of_afterImport? hafter with ⟨first, hlines, -⟩
    rw [Text.lines_lineBreak hline, List.cons.injEq] at hlines
    have hrest := congrArg List.flatten hlines.2
    rw [Text.flatten_lines, Text.flatten_lines] at hrest
    rw [hrest] at hafter ⊢
    exact dropImports_of_some hafter

/-- The import stage takes a text of one line out or keeps it. -/
theorem stripImports_of_notMem {line : Text} (hline : '\n' ∉ line) (hne : line ≠ []) :
    stripImports line = if isImportLine line then [] else line := by
  rw [← isSome_afterImport?]
  cases hafter : afterImport? line with
  | none => exact (dropImports_eq_of_none hafter).trans (dropImports_of_notMem hline)
  | some after =>
    rcases lines_of_afterImport? hafter with ⟨first, hlines, -⟩
    rw [Text.lines_of_notMem hline hne, List.cons.injEq] at hlines
    have hafterNil := congrArg List.flatten hlines.2
    rw [Text.flatten_lines] at hafterNil
    rw [← hafterNil] at hafter
    exact (dropImports_of_some hafter).trans (dropImports_nil true)

/-- The import stage keeps the lines that are no import lines, in order. -/
theorem stripImports_eq_flatten (text : Text) :
    stripImports text = ((Text.lines text).filter fun line => !isImportLine line).flatten := by
  induction text using Text.lines_induction with
  | nil => exact stripImports_nil
  | last line hne hline =>
    rw [stripImports_of_notMem hline hne, Text.lines_of_notMem hline hne, List.filter_singleton]
    cases isImportLine line with
    | false => simp
    | true => rfl
  | more line rest hline ih =>
    rw [stripImports_lineBreak hline, Text.lines_lineBreak hline, ih]
    cases himport : isImportLine (line ++ ['\n']) with
    | false =>
      rw [List.filter_cons_of_pos (by simp [himport]), List.flatten_cons, List.append_assoc]
      rfl
    | true =>
      rw [List.filter_cons_of_neg (by simp [himport])]
      rfl

/-- What is left has the lines that are kept. -/
theorem lines_stripImports (text : Text) :
    Text.lines (stripImports text) = (Text.lines text).filter fun line => !isImportLine line := by
  rw [stripImports_eq_flatten]
  exact Text.lines_filter _ text

/-- No import line is left by the import stage. -/
theorem isImportLine_of_mem_stripImports {text line : Text}
    (h : line ∈ Text.lines (stripImports text)) : isImportLine line = false := by
  rw [lines_stripImports] at h
  simpa using (List.mem_filter.mp h).2

/-- A text has an import line exactly if it starts like one where a line begins. -/
theorem exists_importLine_iff {text : Text} :
    (∃ line ∈ Text.lines text, isImportLine line = true) ↔
      ∃ front back, text = front ++ back ∧ Text.EndsLine front ∧ isImportLine back = true := by
  constructor
  · rintro ⟨line, hmem, hline⟩
    rcases List.append_of_mem hmem with ⟨before, after, hlines⟩
    refine ⟨before.flatten, (line :: after).flatten, ?_, ?_, ?_⟩
    · rw [← List.flatten_append, ← hlines, Text.flatten_lines]
    · exact Text.endsLine_of_lines_eq hlines (List.cons_ne_nil line after)
    · exact isImportLine_append hline after.flatten
  · rintro ⟨front, back, rfl, hfront, hback⟩
    rcases isImportLine_iff_head.mp hback with ⟨line, others, hlines, hline⟩
    refine ⟨line, ?_, hline⟩
    rw [Text.lines_append hfront, hlines]
    simp

/-- A text without import lines starts like one nowhere where a line begins. -/
theorem isImportLine_of_endsLine {front back : Text}
    (h : ∀ line ∈ Text.lines (front ++ back), isImportLine line = false)
    (hfront : Text.EndsLine front) : isImportLine back = false := by
  cases hback : isImportLine back with
  | false => rfl
  | true =>
    rcases exists_importLine_iff.mpr ⟨front, back, rfl, hfront, hback⟩ with ⟨line, hmem, hline⟩
    rw [h line hmem] at hline
    cases hline

/-- A line behind the first one that is an import line begins behind a line break. -/
theorem exists_of_mem_tail {text line : Text} (hmem : line ∈ (Text.lines text).tail)
    (hline : isImportLine line = true) :
    ∃ front back, text = front ++ back ∧ front ≠ [] ∧ Text.EndsLine front ∧
      isImportLine back = true := by
  cases hlines : Text.lines text with
  | nil =>
    rw [hlines] at hmem
    cases hmem
  | cons first others =>
    rw [hlines] at hmem
    rcases List.append_of_mem hmem with ⟨before, after, hothers⟩
    rw [List.tail_cons] at hothers
    have hcut : Text.lines text = (first :: before) ++ line :: after := by
      rw [hlines, hothers]
      rfl
    refine ⟨(first :: before).flatten, (line :: after).flatten, ?_, ?_, ?_, ?_⟩
    · rw [← List.flatten_append, ← hcut, Text.flatten_lines]
    · have hfirst : first ≠ [] := Text.ne_nil_of_mem_lines (hlines ▸ List.mem_cons_self)
      rw [List.flatten_cons]
      exact List.append_ne_nil_of_left_ne_nil hfirst _
    · exact Text.endsLine_of_lines_eq hcut (List.cons_ne_nil line after)
    · exact isImportLine_append hline after.flatten

/-- A text with no import line behind its first line loses the first line or nothing. -/
theorem stripImports_of_tail {text : Text}
    (h : ∀ line ∈ (Text.lines text).tail, isImportLine line = false) :
    stripImports text =
      if isImportLine text then (Text.lines text).tail.flatten else text := by
  cases hlines : Text.lines text with
  | nil =>
    have htext := Text.flatten_lines text
    rw [hlines] at htext
    rw [← htext]
    exact stripImports_nil
  | cons first others =>
    have hothers : others.filter (fun line => !isImportLine line) = others := by
      rw [List.filter_eq_self]
      intro line hmem
      rw [h line (by rwa [hlines])]
      rfl
    have hstart : isImportLine text = isImportLine first := by
      rw [Bool.eq_iff_iff, isImportLine_iff_head, hlines]
      simp
    rw [stripImports_eq_flatten, hlines, hstart]
    cases hfirst : isImportLine first with
    | false =>
      rw [List.filter_cons_of_pos (by simp [hfirst]), hothers, ← hlines, Text.flatten_lines]
      rfl
    | true =>
      rw [List.filter_cons_of_neg (by simp [hfirst]), hothers]
      rfl

/-! ## The filter -/

/-- A line that begins with spaces and tabs, the word `import`, and a character that is neither a
word character nor a dollar sign, an opening parenthesis, a dot or the beginning of a line break. -/
def IsImport (line : Text) : Prop :=
  ∃ indent c rest, line = indent ++ ("import".toList ++ c :: rest) ∧
    (∀ b ∈ indent, b = ' ' ∨ b = '\t') ∧ Text.isWordChar c = false ∧
    c ∉ ['$', '(', '.', '\r', '\n']

/-- Whether a line is an import line can be computed. -/
theorem isImport_iff {line : Text} : IsImport line ↔ isImportLine line = true := by
  have hfollows : ∀ c, (Text.isWordChar c = false ∧ c ∉ ['$', '(', '.', '\r', '\n']) ↔
      followsImport c = true := by
    intro c
    simp [followsImport, Text.isIdentifierChar, and_assoc]
  simp only [isImportLine_iff, IsImport, hfollows]
  rfl

instance (line : Text) : Decidable (IsImport line) := decidable_of_iff _ isImport_iff.symm

/-- The filter with the import stage alone gives the lines of the text that are no import lines, in
order and each with its line break, trimmed.  With both stages on it gives those of what the comment
stage leaves. -/
theorem apply_eq_trim_otherLines (text : Text) :
    (⟨false, true⟩ : Filter).apply text =
        Text.trim ((Text.lines text).filter fun line => ¬ IsImport line).flatten ∧
      (⟨true, true⟩ : Filter).apply text =
        Text.trim ((Text.lines (stripComments text)).filter fun line => ¬ IsImport line).flatten := by
  have hlines : ∀ text, stripImports text =
      ((Text.lines text).filter fun line => ¬ IsImport line).flatten := by
    intro text
    rw [stripImports_eq_flatten]
    congr 2
    funext line
    rw [Bool.eq_iff_iff]
    simp [isImport_iff]
  exact ⟨congrArg Text.trim (hlines text), congrArg Text.trim (hlines (stripComments text))⟩

example : (⟨false, true⟩ : Filter).apply
    "import a\r\n\timport*b\nimport(c)\nimport\nimported;\nimport d".toList =
      "import(c)\nimport\nimported;".toList := by
  decide +kernel

end Filter

end SourceMask
