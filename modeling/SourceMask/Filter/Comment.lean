import SourceMask.Text.Blank

/-!
# Line comments

A comment runs from two slashes to the end of its line; the line break itself stays.  The blanks
in front of a comment, line breaks included, go with it.  Strings are not looked at, so two
slashes inside of one count as well.

Main results:

- Theorem `afterComment?_length`: what follows a comment is shorter than what it was found in.
- Theorem `stripComments_of_none`: a character that starts no comment is kept.
- Theorem `stripComments_of_some`: a comment is skipped as a whole.
-/

namespace SourceMask

namespace Filter

/-- The text after a comment, if the text starts with one, blanks in front of it allowed. -/
def afterComment? (text : Text) : Option Text :=
  match Text.trimStart text with
  | '/' :: '/' :: rest => some (rest.dropWhile (· ≠ '\n'))
  | _ => none

/-- What follows a comment is shorter than what it was found in. -/
theorem afterComment?_length {text after : Text} (h : afterComment? text = some after) :
    after.length < text.length := by
  unfold afterComment? at h
  split at h
  · rename_i rest htrim
    obtain rfl : rest.dropWhile (· ≠ '\n') = after := by simpa using h
    have hdrop : (rest.dropWhile (· ≠ '\n')).length ≤ rest.length :=
      (List.dropWhile_sublist _).length_le
    have htext : (Text.trimStart text).length ≤ text.length :=
      (List.dropWhile_sublist _).length_le
    rw [htrim] at htext
    simp only [List.length_cons] at htext
    omega
  · simp at h

/-- The text without its comments and the blanks in front of them. -/
def stripComments (text : Text) : Text :=
  match text with
  | [] => []
  | c :: rest =>
    match _h : afterComment? (c :: rest) with
    | some after => stripComments after
    | none => c :: stripComments rest
termination_by text.length
decreasing_by
  · exact afterComment?_length _h
  · simp

@[simp] theorem stripComments_nil : stripComments [] = [] := by
  rw [stripComments]

/-- A comment is skipped as a whole. -/
theorem stripComments_of_some {text after : Text} (h : afterComment? text = some after) :
    stripComments text = stripComments after := by
  cases text with
  | nil => simp [afterComment?, Text.trimStart] at h
  | cons c rest =>
    rw [stripComments]
    split
    · simp_all
    · simp_all

/-- A character that starts no comment is kept. -/
theorem stripComments_of_none {c : Char} {rest : Text} (h : afterComment? (c :: rest) = none) :
    stripComments (c :: rest) = c :: stripComments rest := by
  rw [stripComments]
  split
  · simp_all
  · rfl

end Filter

end SourceMask
