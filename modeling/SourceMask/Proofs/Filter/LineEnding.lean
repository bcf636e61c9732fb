import SourceMask.Proofs.Filter.Repeat

/-!
# Line endings

A text may end its lines with a line break alone or with a carriage return in front of it.  The
filter looks at the two in different ways: a carriage return is blank, it is part of the rest of a
line, and it may not follow the keyword of an import line.  Still it takes out the same of both
forms of a text.  The invariant is that carriage returns stand in front of line breaks only.  Every
stage keeps it, since a carriage return goes together with its line break or is the last of a
comment, whose line break stays alone.  So what the stages leave may end some lines the one way and
some the other.

Main results:

- Theorem `afterComment?_dropReturns`: a comment is found without the carriage returns where it is
  found with them.
- Theorems `dropReturns_stripComments` and `dropReturns_stripImports`: each stage takes out the same
  with carriage returns and without them.
- Theorem `dropReturns_apply`: so does the filter on every text whose carriage returns stand in
  front of line breaks.
- Theorem `dropReturns_apply_addReturns`: the two forms of a text lose the same.
-/

namespace SourceMask

namespace Text

/-! ## Carriage returns -/

/-- The text with a carriage return in front of each line break. -/
def addReturns : Text → Text
  | [] => []
  | c :: rest => if c = '\n' then '\r' :: '\n' :: addReturns rest else c :: addReturns rest

/-- The text without its carriage returns. -/
def dropReturns (text : Text) : Text := text.filter (· ≠ '\r')

/-- Carriage returns stand directly in front of line breaks only. -/
def ReturnsEndLines : Text → Prop
  | [] => True
  | c :: rest => (c = '\r' → rest.head? = some '\n') ∧ ReturnsEndLines rest

@[simp] theorem dropReturns_nil : dropReturns [] = [] := rfl

@[simp] theorem dropReturns_return (rest : Text) : dropReturns ('\r' :: rest) = dropReturns rest :=
  List.filter_cons_of_neg (by decide)

/-- Other characters stay. -/
theorem dropReturns_cons {c : Char} (h : c ≠ '\r') (rest : Text) :
    dropReturns (c :: rest) = c :: dropReturns rest :=
  List.filter_cons_of_pos (by simpa using h)

@[simp] theorem dropReturns_append (front back : Text) :
    dropReturns (front ++ back) = dropReturns front ++ dropReturns back :=
  List.filter_append front back

/-- A text without carriage returns stays as it is. -/
theorem dropReturns_of_notMem {text : Text} (h : '\r' ∉ text) : dropReturns text = text := by
  rw [dropReturns, List.filter_eq_self]
  intro c hc
  simpa using ne_of_mem_of_not_mem hc h

/-- A text without carriage returns gets back what was put in front of its line breaks. -/
theorem dropReturns_addReturns {text : Text} (h : '\r' ∉ text) :
    dropReturns (addReturns text) = text := by
  induction text with
  | nil => rfl
  | cons c rest ih =>
    rw [List.mem_cons, not_or] at h
    rw [addReturns]
    split
    · rename_i hbreak
      rw [dropReturns_return, dropReturns_cons (by decide), ih h.2, hbreak]
    · rw [dropReturns_cons (Ne.symm h.1), ih h.2]

/-- The carriage returns that are put into a text stand in front of line breaks. -/
theorem returnsEndLines_addReturns {text : Text} (h : '\r' ∉ text) :
    ReturnsEndLines (addReturns text) := by
  induction text with
  | nil => trivial
  | cons c rest ih =>
    rw [List.mem_cons, not_or] at h
    rw [addReturns]
    split
    · exact ⟨fun _ => rfl, fun hreturn => absurd hreturn (by decide), ih h.2⟩
    · exact ⟨fun hreturn => absurd hreturn.symm h.1, ih h.2⟩

/-- Where no line ends, there are no carriage returns. -/
theorem ReturnsEndLines.return_notMem {text : Text} (h : ReturnsEndLines text)
    (hline : '\n' ∉ text) : '\r' ∉ text := by
  induction text with
  | nil => exact List.not_mem_nil
  | cons c rest ih =>
    rw [List.mem_cons, not_or] at hline ⊢
    refine ⟨fun hreturn => ?_, ih h.2 hline.2⟩
    exact hline.2 (List.mem_of_mem_head? (h.1 hreturn.symm))

/-- What stands at the end of a text has its carriage returns in front of line breaks as well. -/
theorem ReturnsEndLines.of_suffix {text back : Text} (h : ReturnsEndLines text)
    (hback : back <:+ text) : ReturnsEndLines back := by
  rcases hback with ⟨front, rfl⟩
  induction front with
  | nil => exact h
  | cons c front ih => exact ih h.2

/-- A text starts as it does without its carriage returns, up to the first line break. -/
theorem exists_of_dropReturns_eq_append {text front back : Text} (h : ReturnsEndLines text)
    (hfront : '\n' ∉ front) (htext : dropReturns text = front ++ back) :
    ∃ more, text = front ++ more ∧ dropReturns more = back := by
  induction front generalizing text with
  | nil => exact ⟨text, rfl, htext⟩
  | cons c front ih =>
    rw [List.mem_cons, not_or] at hfront
    cases text with
    | nil => cases htext
    | cons d rest =>
      by_cases hd : d = '\r'
      · -- Behind a carriage return a line break would be the first character.
        rcases List.head?_eq_some_iff.mp (h.1 hd) with ⟨others, rfl⟩
        rw [hd, dropReturns_return, dropReturns_cons (by decide), List.cons_append,
          List.cons.injEq] at htext
        exact absurd htext.1 hfront.1
      · rw [dropReturns_cons hd, List.cons_append, List.cons.injEq] at htext
        rcases ih h.2 hfront.2 htext.2 with ⟨more, rfl, hmore⟩
        exact ⟨more, by rw [htext.1]; rfl, hmore⟩

/-- Carriage returns may be left out before or after the beginning of a text is dropped, if they are
dropped with it. -/
theorem dropReturns_dropWhile {drops : Char → Bool} (h : drops '\r' = true) (text : Text) :
    dropReturns (text.dropWhile drops) = (dropReturns text).dropWhile drops := by
  induction text with
  | nil => rfl
  | cons c rest ih =>
    by_cases hc : c = '\r'
    · rw [hc, List.dropWhile_cons_of_pos h, dropReturns_return, ih]
    · rw [dropReturns_cons hc]
      cases hdrops : drops c with
      | true => rw [List.dropWhile_cons_of_pos hdrops, List.dropWhile_cons_of_pos hdrops, ih]
      | false =>
        rw [List.dropWhile_cons_of_neg (by simp [hdrops]),
          List.dropWhile_cons_of_neg (by simp [hdrops]), dropReturns_cons hc]

/-- Carriage returns may be left out before or after the start of a text is trimmed. -/
theorem dropReturns_trimStart (text : Text) :
    dropReturns (trimStart text) = trimStart (dropReturns text) :=
  dropReturns_dropWhile (by decide) text

/-- Carriage returns may be left out before or after a text is trimmed. -/
theorem dropReturns_trim (text : Text) : dropReturns (trim text) = trim (dropReturns text) := by
  have hreverse : ∀ text : Text, dropReturns text.reverse = (dropReturns text).reverse :=
    fun text => List.filter_reverse
  unfold trim trimEnd
  rw [hreverse, dropReturns_trimStart, hreverse, dropReturns_trimStart]

end Text

namespace Filter

open Text (dropReturns addReturns ReturnsEndLines)

/-! ## The comment stage -/

/-- A comment is found without the carriage returns where it is found with them. -/
theorem afterComment?_dropReturns {text : Text} (h : ReturnsEndLines text) :
    afterComment? (dropReturns text) = (afterComment? text).map dropReturns := by
  have htrim := Text.dropReturns_trimStart text
  cases hafter : afterComment? text with
  | none =>
    rw [Option.map_none, afterComment?_eq_none_iff, ← htrim]
    rintro ⟨rest, hrest⟩
    have hends := h.of_suffix (List.dropWhile_suffix Text.isBlank)
    rcases Text.exists_of_dropReturns_eq_append hends (by decide) hrest.symm with ⟨more, hmore, -⟩
    exact afterComment?_eq_none_iff.mp hafter ⟨more, hmore.symm⟩
  | some after =>
    unfold afterComment? at hafter
    split at hafter
    · rename_i rest hslashes
      rw [Option.some.injEq] at hafter
      rw [hslashes, Text.dropReturns_cons (by decide), Text.dropReturns_cons (by decide)] at htrim
      rw [afterComment?, ← htrim, ← hafter, Option.map_some, Text.dropReturns_dropWhile (by decide)]
      rfl
    · cases hafter

/-- The comment stage leaves carriage returns in front of line breaks only. -/
theorem returnsEndLines_stripComments {text : Text} (h : ReturnsEndLines text) :
    ReturnsEndLines (stripComments text) := by
  fun_induction stripComments text with
  | case1 => trivial
  | case2 c rest after hafter ih =>
    rcases exists_of_afterComment? hafter with ⟨gap, body, htext, -⟩
    exact ih (h.of_suffix ⟨_, htext.symm⟩)
  | case3 c rest hafter ih =>
    refine ⟨fun hreturn => ?_, ih h.2⟩
    -- A carriage return is blank, so a comment behind it would take it as well.
    rcases List.head?_eq_some_iff.mp (h.1 hreturn) with ⟨others, rfl⟩
    have hnone : afterComment? ('\n' :: others) = none := by
      rw [afterComment?_eq_none_iff] at hafter ⊢
      rwa [hreturn, Text.trimStart, List.dropWhile_cons_of_pos (by decide)] at hafter
    rw [stripComments_of_none hnone]
    rfl

/-- The comment stage takes out the same with carriage returns and without them. -/
theorem dropReturns_stripComments {text : Text} (h : ReturnsEndLines text) :
    dropReturns (stripComments text) = stripComments (dropReturns text) := by
  fun_induction stripComments text with
  | case1 => simp
  | case2 c rest after hafter ih =>
    have hcomment := afterComment?_dropReturns h
    rw [hafter, Option.map_some] at hcomment
    rcases exists_of_afterComment? hafter with ⟨gap, body, htext, -⟩
    rw [stripComments_of_some hcomment, ih (h.of_suffix ⟨_, htext.symm⟩)]
  | case3 c rest hafter ih =>
    by_cases hc : c = '\r'
    · rw [hc, Text.dropReturns_return, Text.dropReturns_return, ih h.2]
    · have hcomment := afterComment?_dropReturns h
      rw [hafter, Option.map_none, Text.dropReturns_cons hc] at hcomment
      rw [Text.dropReturns_cons hc, Text.dropReturns_cons hc, stripComments_of_none hcomment,
        ih h.2]

/-! ## The import stage -/

/-- A text starts like an import line with carriage returns exactly if it does without them. -/
theorem isImportLine_dropReturns {text : Text} (h : ReturnsEndLines text) :
    isImportLine (dropReturns text) = isImportLine text := by
  rw [Bool.eq_iff_iff, isImportLine_iff, isImportLine_iff]
  constructor
  · rintro ⟨indent, c, rest, htext, hindent, hc⟩
    have hbreak := lineBreak_notMem_beginning hindent hc
    have hcut : dropReturns text = (indent ++ (importKeyword ++ [c])) ++ rest := by
      rw [htext]
      simp
    rcases Text.exists_of_dropReturns_eq_append h hbreak hcut with ⟨more, rfl, -⟩
    exact ⟨indent, c, more, by simp, hindent, hc⟩
  · rintro ⟨indent, c, rest, rfl, hindent, hc⟩
    refine ⟨indent, c, dropReturns rest, ?_, hindent, hc⟩
    have hreturn : '\r' ∉ indent ∧ '\r' ≠ c := by
      refine ⟨fun hmem => absurd (hindent _ hmem) (by decide), ?_⟩
      rintro rfl
      exact absurd hc (by decide)
    rw [Text.dropReturns_append, Text.dropReturns_append, Text.dropReturns_of_notMem hreturn.1,
      Text.dropReturns_cons (Ne.symm hreturn.2)]
    rfl

/-- The import stage takes out the same with carriage returns and without them. -/
theorem dropReturns_stripImports {text : Text} (h : ReturnsEndLines text) :
    dropReturns (stripImports text) = stripImports (dropReturns text) := by
  have hline : ∀ {line : Text}, '\n' ∉ line → '\n' ∉ dropReturns line :=
    fun hline hmem => hline (List.mem_filter.mp hmem).1
  induction text using Text.lines_induction with
  | nil => simp
  | last line hne hbreak =>
    rw [stripImports_of_notMem hbreak hne, Text.dropReturns_of_notMem (h.return_notMem hbreak),
      stripImports_of_notMem hbreak hne]
    split
    · rfl
    · exact Text.dropReturns_of_notMem (h.return_notMem hbreak)
  | more line rest hbreak ih =>
    have hbegin := isImportLine_dropReturns h
    have hrest := ih (h.of_suffix ((List.suffix_cons _ _).trans (List.suffix_append _ _)))
    rw [Text.dropReturns_append, Text.dropReturns_cons (by decide),
      isImportLine_lineBreak (hline hbreak), isImportLine_lineBreak hbreak] at hbegin
    rw [stripImports_lineBreak hbreak, Text.dropReturns_append, Text.dropReturns_cons (by decide),
      stripImports_lineBreak (hline hbreak), hbegin]
    split
    · exact hrest
    · rw [Text.dropReturns_append, Text.dropReturns_cons (by decide), hrest]

/-! ## The filter -/

/-- The filter takes out the same with carriage returns and without them, if they stand in front of
line breaks. -/
theorem dropReturns_apply (filter : Filter) {text : Text} (h : ReturnsEndLines text) :
    dropReturns (filter.apply text) = filter.apply (dropReturns text) := by
  have hcomments : ReturnsEndLines (if filter.dropsComments then stripComments text else text) ∧
      dropReturns (if filter.dropsComments then stripComments text else text) =
        if filter.dropsComments then stripComments (dropReturns text) else dropReturns text := by
    split
    · exact ⟨returnsEndLines_stripComments h, dropReturns_stripComments h⟩
    · exact ⟨h, rfl⟩
  rw [apply_eq_trim_strip, apply_eq_trim_strip, Text.dropReturns_trim]
  unfold strip
  rw [← hcomments.2]
  cases filter.dropsImports with
  | false => rfl
  | true => exact congrArg Text.trim (dropReturns_stripImports hcomments.1)

/-- The two forms of a text lose the same to the filter: what it gives for the text with carriage
returns in front of the line breaks is, without the carriage returns that are left, what it gives
for the text with line breaks alone. -/
theorem dropReturns_apply_addReturns (filter : Filter) {text : Text} (h : '\r' ∉ text) :
    dropReturns (filter.apply (addReturns text)) = filter.apply text := by
  rw [dropReturns_apply filter (Text.returnsEndLines_addReturns h), Text.dropReturns_addReturns h]

/-- An import line, a comment of its own line and one behind code: in front of the last line a
carriage return is left, behind the comments none. -/
theorem dropReturns_apply_addReturns_statements :
    '\r' ∉ "import a from 'a';\n// b\nf(x); // c\ng(y);\nh(z);\n".toList ∧
    full.apply (addReturns "import a from 'a';\n// b\nf(x); // c\ng(y);\nh(z);\n".toList) =
      "f(x);\ng(y);\r\nh(z);".toList ∧
    dropReturns (full.apply
        (addReturns "import a from 'a';\n// b\nf(x); // c\ng(y);\nh(z);\n".toList)) =
      "f(x);\ng(y);\nh(z);".toList := by
  have hreturn : '\r' ∉ "import a from 'a';\n// b\nf(x); // c\ng(y);\nh(z);\n".toList := by
    decide
  refine ⟨hreturn, by decide +kernel, ?_⟩
  rw [dropReturns_apply_addReturns full hreturn]
  decide +kernel

end Filter

end SourceMask
