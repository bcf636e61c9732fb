import Mathlib.Data.List.DropRight
import SourceMask.Text.Offset

/-!
# Lines of texts

A line break ends a line and belongs to it.  So a text is cut between two lines behind each of its
line breaks and nowhere else, and leaving out lines makes no new ones.

Main results:

- Theorems `lines_lineBreak` and `lines_of_notMem`: the first line goes up to the first line break.
- Theorem `lines_append`: behind a line break the lines of the rest begin.
- Theorem `lines_filter`: the lines of some lines of a text are these lines.
- Theorem `lastLine_append`: what has no line break goes on with the line in front of it.
-/

namespace SourceMask

namespace Text

/-! ## First lines -/

/-- The first line goes up to the first line break. -/
theorem lines_lineBreak {line : Text} (h : '\n' ∉ line) (rest : Text) :
    lines (line ++ '\n' :: rest) = (line ++ ['\n']) :: lines rest := by
  induction line with
  | nil => rfl
  | cons c line ih =>
    rw [List.mem_cons, not_or] at h
    rw [List.cons_append, lines, if_neg (Ne.symm h.1), ih h.2]
    rfl

/-- A text without line breaks is one line. -/
theorem lines_of_notMem {line : Text} (h : '\n' ∉ line) (hne : line ≠ []) :
    lines line = [line] := by
  induction line with
  | nil => exact absurd rfl hne
  | cons c line ih =>
    rw [List.mem_cons, not_or] at h
    rw [lines, if_neg (Ne.symm h.1)]
    by_cases hline : line = []
    · rw [hline]
      rfl
    · rw [ih h.2 hline]

/-- Induction over the lines of a text. -/
theorem lines_induction {motive : Text → Prop} (nil : motive [])
    (last : ∀ line, line ≠ [] → '\n' ∉ line → motive line)
    (more : ∀ line rest, '\n' ∉ line → motive rest → motive (line ++ '\n' :: rest))
    (text : Text) : motive text := by
  by_cases hbreak : '\n' ∈ text
  · rcases List.eq_append_cons_of_mem hbreak with ⟨line, rest, htext, hline⟩
    have hshorter : rest.length < text.length := by
      rw [htext, List.length_append, List.length_cons]
      omega
    rw [htext]
    exact more line rest hline (lines_induction nil last more rest)
  · by_cases hnil : text = []
    · rw [hnil]
      exact nil
    · exact last text hnil hbreak
termination_by text.length

/-- A line has at least one character. -/
theorem ne_nil_of_mem_lines {text line : Text} (h : line ∈ lines text) : line ≠ [] := by
  induction text using lines_induction with
  | nil => cases h
  | last only hne hline =>
    rw [lines_of_notMem hline hne, List.mem_singleton] at h
    rw [h]
    exact hne
  | more first rest hline ih =>
    rw [lines_lineBreak hline, List.mem_cons] at h
    rcases h with rfl | h
    · simp
    · exact ih h

/-- A text without its first line is shorter. -/
theorem length_flatten_tail_lt {text : Text} (h : text ≠ []) :
    (lines text).tail.flatten.length < text.length := by
  have htext := flatten_lines text
  cases hlines : lines text with
  | nil =>
    rw [hlines] at htext
    exact absurd htext.symm h
  | cons first others =>
    have hfirst : first ≠ [] := ne_nil_of_mem_lines (hlines ▸ List.mem_cons_self)
    have hpos := List.length_pos_of_ne_nil hfirst
    rw [hlines, List.flatten_cons] at htext
    rw [← htext, List.tail_cons, List.length_append]
    omega

/-- The lines of some lines of a text are these lines. -/
theorem lines_filter (keeps : Text → Bool) (text : Text) :
    lines ((lines text).filter keeps).flatten = (lines text).filter keeps := by
  induction text using lines_induction with
  | nil => rfl
  | last line hne hline =>
    rw [lines_of_notMem hline hne, List.filter_singleton]
    cases keeps line with
    | false => rfl
    | true => simpa using lines_of_notMem hline hne
  | more line rest hline ih =>
    rw [lines_lineBreak hline]
    cases hkeeps : keeps (line ++ ['\n']) with
    | false => rw [List.filter_cons_of_neg (by simp [hkeeps]), ih]
    | true =>
      rw [List.filter_cons_of_pos hkeeps, List.flatten_cons, List.append_assoc,
        List.singleton_append, lines_lineBreak hline, ih]

/-- The first line of a text has at least the characters up to the first line break. -/
theorem exists_lines_eq_cons {front : Text} (hne : front ≠ []) (h : '\n' ∉ front) (back : Text) :
    ∃ more others, lines (front ++ back) = (front ++ more) :: others := by
  by_cases hbreak : '\n' ∈ back
  · rcases List.eq_append_cons_of_mem hbreak with ⟨start, rest, rfl, hstart⟩
    have hline : '\n' ∉ front ++ start := by simp [h, hstart]
    refine ⟨start ++ ['\n'], lines rest, ?_⟩
    rw [← List.append_assoc, lines_lineBreak hline, List.append_assoc]
  · refine ⟨back, [], lines_of_notMem ?_ ?_⟩
    · simp [h, hbreak]
    · simp [hne]

/-! ## Ends of lines -/

/-- Whether a new line begins behind a text: it is empty or ends with a line break. -/
def EndsLine (text : Text) : Prop := ∀ c ∈ text.getLast?, c = '\n'

/-- A line break ends a line. -/
theorem endsLine_concat (front : Text) : EndsLine (front ++ ['\n']) := by
  intro c hc
  rw [List.getLast?_concat, Option.mem_some_iff] at hc
  exact hc.symm

/-- What ends a line does so behind other text. -/
theorem EndsLine.append {text : Text} (h : EndsLine text) (hne : text ≠ []) (front : Text) :
    EndsLine (front ++ text) := by
  intro c hc
  rw [List.getLast?_append_of_ne_nil front hne] at hc
  exact h c hc

/-- Behind a line break the lines of the rest begin. -/
theorem lines_append {front : Text} (h : EndsLine front) (back : Text) :
    lines (front ++ back) = lines front ++ lines back := by
  induction front using lines_induction with
  | nil => rfl
  | last line hne hline =>
    have hlast : line.getLast hne = '\n' := h _ (List.getLast?_eq_some_getLast hne)
    exact absurd (hlast ▸ List.getLast_mem hne) hline
  | more line rest hline ih =>
    have hrest : EndsLine rest := by
      intro c hc
      apply h c
      cases rest with
      | nil => cases hc
      | cons d rest =>
        rw [List.getLast?_append, List.getLast?_cons_cons]
        rw [Option.mem_def] at hc
        rw [hc]
        rfl
    rw [List.append_assoc, List.cons_append, lines_lineBreak hline, lines_lineBreak hline, ih hrest]
    rfl

/-- Lines that are not the last end with a line break. -/
theorem endsLine_of_lines_eq {text : Text} {before after : List Text}
    (h : lines text = before ++ after) (hafter : after ≠ []) : EndsLine before.flatten := by
  induction text using lines_induction generalizing before with
  | nil =>
    rw [List.append_eq_nil_iff.mp h.symm |>.1]
    intro c hc
    cases hc
  | last line hne hline =>
    rw [lines_of_notMem hline hne] at h
    cases before with
    | nil =>
      intro c hc
      cases hc
    | cons first before =>
      simp only [List.cons_append, List.cons.injEq, List.nil_eq_append_iff] at h
      exact absurd h.2.2 hafter
  | more line rest hline ih =>
    rw [lines_lineBreak hline] at h
    cases before with
    | nil =>
      intro c hc
      cases hc
    | cons first before =>
      simp only [List.cons_append, List.cons.injEq] at h
      rcases h with ⟨rfl, hrest⟩
      intro c hc
      rw [List.flatten_cons, List.getLast?_append] at hc
      cases hlast : before.flatten.getLast? with
      | none =>
        rw [hlast] at hc
        simpa using hc.symm
      | some d =>
        rw [hlast] at hc
        exact ih hrest c (by rw [hlast]; exact hc)

/-! ## Last lines -/

/-- The beginning of the line that a text stops on. -/
def lastLine (text : Text) : Text := text.rtakeWhile (· ≠ '\n')

/-- The last line of a text has no line break. -/
theorem notMem_lastLine (text : Text) : '\n' ∉ lastLine text := by
  intro hmem
  have hne := List.mem_rtakeWhile_imp hmem
  simp at hne

/-- In front of its last line, a text ends a line. -/
theorem exists_lastLine (text : Text) :
    ∃ start, text = start ++ lastLine text ∧ EndsLine start := by
  refine ⟨text.rdropWhile (· ≠ '\n'), List.rdropWhile_append_rtakeWhile.symm, ?_⟩
  intro c hc
  have hne : text.rdropWhile (· ≠ '\n') ≠ [] := by
    intro hnil
    rw [hnil] at hc
    cases hc
  have hlast := List.rdropWhile_last_not _ _ hne
  rw [List.getLast?_eq_some_getLast hne, Option.mem_some_iff] at hc
  rw [← hc]
  simpa using hlast

/-- What has no line break goes on with the line in front of it. -/
theorem lastLine_append {run : Text} (h : '\n' ∉ run) (front : Text) :
    lastLine (front ++ run) = lastLine front ++ run := by
  have hrun : ∀ c ∈ run.reverse, decide (c ≠ '\n') = true := by
    intro c hc
    have hmem := List.mem_reverse.mp hc
    have hne : c ≠ '\n' := by
      rintro rfl
      exact h hmem
    simp [hne]
  unfold lastLine List.rtakeWhile
  rw [List.reverse_append, List.takeWhile_append_of_pos hrun, List.reverse_append,
    List.reverse_reverse]

/-- Behind the end of a line nothing stands on the next one. -/
theorem lastLine_of_endsLine {text : Text} (h : EndsLine text) : lastLine text = [] := by
  unfold lastLine
  rw [List.rtakeWhile_eq_nil_iff]
  intro hne
  have hlast := h _ (List.getLast?_eq_some_getLast hne)
  simp [hlast]

/-- What has a line break is on its own line from there on. -/
theorem lastLine_append_of_mem {run : Text} (h : '\n' ∈ run) (front : Text) :
    lastLine (front ++ run) = lastLine run := by
  rcases exists_lastLine run with ⟨start, hrun, hstart⟩
  have hne : start ≠ [] := by
    rintro rfl
    rw [hrun, List.nil_append] at h
    exact notMem_lastLine run h
  calc
    lastLine (front ++ run) = lastLine ((front ++ start) ++ lastLine run) := by
      rw [List.append_assoc, ← hrun]
    _ = lastLine (front ++ start) ++ lastLine run := lastLine_append (notMem_lastLine run) _
    _ = lastLine run := by rw [lastLine_of_endsLine (hstart.append hne front), List.nil_append]

end Text

end SourceMask
