import SourceMask.Proofs.Filter.Comment
import SourceMask.Proofs.Filter.Import

/-!
# Running the filter on its own output

A second run finds no comment: no two slashes are left, and neither taking out lines nor trimming
brings two together.  It finds no import line either, but for the first line.  In front of the
keyword an import line has spaces and tabs only, while trimming takes every blank.  So a line that
the import stage has kept for another blank in front of its keyword may become an import line when
it is the first line that is not blank.  Then a second run takes out this line and nothing else.

Main results:

- Theorem `reveals_iff`: whether trimming brings an import line to light can be computed.
- Theorem `strip_apply`: what the stages of a second run take out.
- Theorem `apply_apply_eq_iff`: when a second run changes something, and what it changes.
-/

namespace SourceMask

namespace Filter

/-! ## The stages before trimming -/

/-- What the stages that are on leave before it is trimmed. -/
def strip (filter : Filter) (text : Text) : Text :=
  let text := if filter.dropsComments then stripComments text else text
  if filter.dropsImports then stripImports text else text

/-- The filter trims what the stages leave. -/
theorem apply_eq_trim_strip (filter : Filter) (text : Text) :
    filter.apply text = Text.trim (filter.strip text) := rfl

/-- Taking out import lines brings no two slashes together. -/
theorem slashes_infix_of_stripImports {text : Text} (h : slashes <:+: stripImports text) :
    slashes <:+: text := by
  induction text using Text.lines_induction with
  | nil => rwa [stripImports_nil] at h
  | last line hne hline =>
    rw [stripImports_of_notMem hline hne] at h
    split at h
    · simp [slashes] at h
    · exact h
  | more line rest hline ih =>
    rw [stripImports_lineBreak hline] at h
    rw [slashes_infix_append_cons (by decide)]
    split at h
    · exact .inr (ih h)
    · rw [slashes_infix_append_cons (by decide)] at h
      exact h.imp_right ih

/-- No comment is left before trimming. -/
theorem not_slashes_infix_strip {filter : Filter} (h : filter.dropsComments = true) (text : Text) :
    ¬ slashes <:+: filter.strip text := by
  have hnone := not_slashes_infix_stripComments text
  simp only [strip, h, if_true]
  split
  · exact fun hslashes => hnone (slashes_infix_of_stripImports hslashes)
  · exact hnone

/-- No import line is left before trimming. -/
theorem isImportLine_of_mem_strip {filter : Filter} (h : filter.dropsImports = true)
    {text line : Text} (hmem : line ∈ Text.lines (filter.strip text)) :
    isImportLine line = false := by
  simp only [strip, h, if_true] at hmem
  exact isImportLine_of_mem_stripImports hmem

/-- A text that has no two slashes and no import line behind its first line loses the first line to
the stages or nothing. -/
theorem strip_eq {filter : Filter} {text : Text}
    (hcomments : filter.dropsComments = true → ¬ slashes <:+: text)
    (himports : filter.dropsImports = true →
      ∀ line ∈ (Text.lines text).tail, isImportLine line = false) :
    filter.strip text =
      if filter.dropsImports && isImportLine text then (Text.lines text).tail.flatten
      else text := by
  have hstart : (if filter.dropsComments then stripComments text else text) = text := by
    split
    · rename_i h
      exact stripComments_eq_self (hcomments h)
    · rfl
  simp only [strip, hstart]
  cases h : filter.dropsImports with
  | false => rfl
  | true => simpa using stripImports_of_tail (himports h)

/-! ## Import lines that trimming brings to light -/

/-- Whether a text consists of what an import line may have in front of the keyword. -/
def isIndent (text : Text) : Bool := text.all fun b => b = ' ' || b = '\t'

/-- The first line that is not blank is an import line but for the blanks in front of the keyword:
they are not all spaces and tabs. -/
def Reveals (text : Text) : Prop :=
  ∃ front indent c rest, text = front ++ (indent ++ (importKeyword ++ c :: rest)) ∧
    front.all Text.isBlank = true ∧ Text.EndsLine front ∧
    indent.all Text.isBlank = true ∧ '\n' ∉ indent ∧ isIndent indent = false ∧
    followsImport c = true ∧ (c :: rest).all Text.isBlank = false

/-- A trimmed text is an import line exactly if it starts with the keyword and one more character
that lets it be a declaration. -/
theorem isImportLine_trim_iff {text : Text} :
    isImportLine (Text.trim text) = true ↔
      ∃ c rest, Text.trim text = importKeyword ++ c :: rest ∧ followsImport c = true := by
  rw [isImportLine_iff]
  constructor
  · rintro ⟨indent, c, rest, htrim, hindent, hc⟩
    cases indent with
    | nil => exact ⟨c, rest, htrim, hc⟩
    | cons b indent =>
      have hblank := Text.isBlank_of_trim_eq_cons htrim
      rcases hindent b List.mem_cons_self with rfl | rfl
      · exact absurd hblank (by decide)
      · exact absurd hblank (by decide)
  · rintro ⟨c, rest, htrim, hc⟩
    exact ⟨[], c, rest, htrim, by simp, hc⟩

/-- Behind blanks, the keyword and something that is not blank, trimming keeps what follows the
keyword. -/
theorem exists_trim_keyword {blanks rest : Text} {c : Char}
    (hblanks : blanks.all Text.isBlank = true) (hrest : (c :: rest).all Text.isBlank = false) :
    ∃ more, Text.trim (blanks ++ (importKeyword ++ c :: rest)) = importKeyword ++ c :: more := by
  rcases List.all_eq_false.mp hrest with ⟨d, hmem, hd⟩
  rcases List.append_of_mem hmem with ⟨run, back, hcut⟩
  have htrim := Text.trim_between (by decide : Text.isBlank 'i' = false)
    (Bool.not_eq_true _ ▸ hd) blanks (importKeyword.tail ++ run) back
  have hnil : Text.trimStart blanks = [] := by
    rw [← List.append_nil blanks, Text.trimStart_append_of_blank hblanks]
    rfl
  rw [hnil, List.append_assoc, ← hcut, List.append_assoc] at htrim
  cases run with
  | nil =>
    rw [List.nil_append, List.cons.injEq] at hcut
    rw [hcut.1]
    exact ⟨Text.trimEnd back, hcut.1 ▸ htrim⟩
  | cons e run =>
    rw [List.cons_append, List.cons.injEq] at hcut
    rw [hcut.1] at htrim ⊢
    exact ⟨run ++ d :: Text.trimEnd back, htrim⟩

/-- If a trimmed text is an import line, then the keyword is the first thing in the text that is not
blank, and it is not the last one. -/
theorem exists_of_isImportLine_trim {text : Text} (h : isImportLine (Text.trim text) = true) :
    ∃ front c rest, text = front ++ (Text.lastLine (text.takeWhile Text.isBlank) ++
        (importKeyword ++ c :: rest)) ∧
      text.takeWhile Text.isBlank = front ++ Text.lastLine (text.takeWhile Text.isBlank) ∧
      Text.EndsLine front ∧ followsImport c = true ∧ (c :: rest).all Text.isBlank = false := by
  rcases isImportLine_trim_iff.mp h with ⟨c, rest, htrim, hc⟩
  rcases Text.exists_trim text with ⟨left, right, htext, hleft, -⟩
  rw [htrim, List.append_assoc, List.cons_append] at htext
  have hblanks : text.takeWhile Text.isBlank = left := by
    rw [htext]
    exact Text.takeWhile_isBlank_append hleft (by decide) _
  rw [hblanks]
  rcases Text.exists_lastLine left with ⟨front, hfront, hends⟩
  refine ⟨front, c, rest ++ right, ?_, hfront, hends, hc, ?_⟩
  · rw [← List.append_assoc, ← hfront]
    exact htext
  · -- The trimmed text ends behind the keyword, and not with a blank.
    have hne : Text.trim text ≠ [] := by simp [htrim]
    have hlast := Text.isBlank_getLast_trim hne
    simp only [htrim, List.getLast_append_of_ne_nil _ (List.cons_ne_nil c rest)] at hlast
    refine List.all_eq_false.mpr ⟨_, ?_, Bool.eq_false_iff.mp hlast⟩
    exact List.mem_append_left right (List.getLast_mem (List.cons_ne_nil c rest))

/-- Whether trimming brings an import line to light shows on the trimmed text and on the blanks in
front of it. -/
theorem reveals_iff {text : Text} :
    Reveals text ↔ isImportLine (Text.trim text) = true ∧
      isIndent (Text.lastLine (text.takeWhile Text.isBlank)) = false := by
  constructor
  · rintro ⟨front, indent, c, rest, rfl, hfront, hends, hindent, hline, hmixed, hc, hrest⟩
    have hblanks : (front ++ indent).all Text.isBlank = true := by simp [hfront, hindent]
    have hleft : (front ++ indent ++ (importKeyword ++ c :: rest)).takeWhile Text.isBlank =
        front ++ indent :=
      Text.takeWhile_isBlank_append hblanks (by decide) _
    rw [← List.append_assoc, hleft, Text.lastLine_append hline, Text.lastLine_of_endsLine hends]
    rcases exists_trim_keyword hblanks hrest with ⟨more, htrim⟩
    exact ⟨isImportLine_trim_iff.mpr ⟨c, more, htrim, hc⟩, hmixed⟩
  · rintro ⟨himport, hmixed⟩
    rcases exists_of_isImportLine_trim himport with
      ⟨front, c, rest, htext, hblanks, hends, hc, hrest⟩
    have hall : (text.takeWhile Text.isBlank).all Text.isBlank = true := List.all_takeWhile
    rw [hblanks, List.all_append, Bool.and_eq_true] at hall
    exact ⟨front, _, c, rest, htext, hall.1, hends, hall.2, Text.notMem_lastLine _, hmixed, hc,
      hrest⟩

instance (text : Text) : Decidable (Reveals text) := decidable_of_iff _ reveals_iff.symm

/-- A text without import lines starts like one when it is trimmed exactly if trimming brings one
to light. -/
theorem isImportLine_trim_iff_reveals {text : Text}
    (h : ∀ line ∈ Text.lines text, isImportLine line = false) :
    isImportLine (Text.trim text) = true ↔ Reveals text := by
  refine ⟨fun himport => reveals_iff.mpr ⟨himport, ?_⟩, fun hreveals => (reveals_iff.mp hreveals).1⟩
  rcases exists_of_isImportLine_trim himport with ⟨front, c, rest, htext, -, hends, hc, -⟩
  cases hindent : isIndent (Text.lastLine (text.takeWhile Text.isBlank)) with
  | false => rfl
  | true =>
    -- With spaces and tabs only, the line is an import line already.
    have hline : isImportLine (Text.lastLine (text.takeWhile Text.isBlank) ++
        (importKeyword ++ c :: rest)) = true :=
      isImportLine_iff.mpr ⟨_, c, rest, rfl, by simpa [isIndent] using hindent, hc⟩
    rw [isImportLine_of_endsLine (htext ▸ h) hends] at hline
    cases hline

/-! ## The second run -/

/-- Trimming a text without import lines leaves none behind the first line. -/
theorem isImportLine_of_mem_tail_trim {text line : Text}
    (h : ∀ line ∈ Text.lines text, isImportLine line = false)
    (hmem : line ∈ (Text.lines (Text.trim text)).tail) : isImportLine line = false := by
  by_contra hline
  rw [Bool.not_eq_false] at hline
  rcases exists_of_mem_tail hmem hline with ⟨front, back, htrim, hne, hends, hback⟩
  rcases Text.exists_trim text with ⟨left, right, htext, -, -⟩
  have hcut : text = (left ++ front) ++ (back ++ right) := by
    rw [htrim] at htext
    simpa using htext
  have hnone := isImportLine_of_endsLine (hcut ▸ h) (hends.append hne left)
  rw [isImportLine_append hback right] at hnone
  cases hnone

/-- No comment is left by the filter. -/
theorem not_slashes_infix_apply {filter : Filter} (h : filter.dropsComments = true) (text : Text) :
    ¬ slashes <:+: filter.apply text :=
  fun hslashes => not_slashes_infix_strip h text (hslashes.trans (Text.trim_infix _))

/-- No import line is left by the filter behind the first line. -/
theorem isImportLine_of_mem_tail_apply {filter : Filter} (h : filter.dropsImports = true)
    {text line : Text} (hmem : line ∈ (Text.lines (filter.apply text)).tail) :
    isImportLine line = false :=
  isImportLine_of_mem_tail_trim (fun _ => isImportLine_of_mem_strip h) hmem

/-- The stages of a second run take out the line that trimming has brought to light, if there is
one, and nothing else. -/
theorem strip_apply (filter : Filter) (text : Text) :
    filter.strip (filter.apply text) =
      if filter.dropsImports = true ∧ Reveals (filter.strip text) then
        (Text.lines (filter.apply text)).tail.flatten
      else filter.apply text := by
  rw [strip_eq (fun h => not_slashes_infix_apply h text)
    (fun h _ => isImportLine_of_mem_tail_apply h)]
  cases h : filter.dropsImports with
  | false => simp
  | true =>
    have hreveals : isImportLine (filter.apply text) = true ↔ Reveals (filter.strip text) :=
      isImportLine_trim_iff_reveals fun _ => isImportLine_of_mem_strip h
    simp [hreveals]

end Filter

end SourceMask
