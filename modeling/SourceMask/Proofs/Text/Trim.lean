import Mathlib.Data.List.DropRight
import SourceMask.Text.Blank

/-!
# Trimmed texts

Trimming takes the blanks from the ends of a text and nothing else.  What it leaves has no blank at
either end, so trimming it again changes nothing.

Main results:

- Theorem `exists_trim`: a text is its trimmed form with blanks around it.
- Theorem `trim_trim`: trimming twice is trimming once.
- Theorem `trim_between`: what stands between two characters that are not blank is kept.
-/

namespace SourceMask

namespace Text

/-- Trimming the start stops in front of a character that is not blank. -/
theorem trimStart_append_of_not {c : Char} (h : isBlank c = false) (front back : Text) :
    trimStart (front ++ c :: back) = trimStart front ++ c :: back := by
  unfold trimStart
  rw [List.dropWhile_append]
  split
  · rename_i hnil
    rw [List.isEmpty_iff.mp hnil, List.dropWhile_cons_of_neg (by simp [h])]
    rfl
  · rfl

/-- Trimming the end stops behind a character that is not blank. -/
theorem trimEnd_append_of_not {c : Char} (h : isBlank c = false) (front back : Text) :
    trimEnd (front ++ c :: back) = front ++ c :: trimEnd back := by
  unfold trimEnd
  rw [List.reverse_append, List.reverse_cons, List.append_assoc, List.singleton_append,
    trimStart_append_of_not h]
  simp

/-- A blank end is taken away. -/
theorem trimEnd_append_of_blank {back : Text} (h : back.all isBlank = true) (text : Text) :
    trimEnd (text ++ back) = trimEnd text := by
  unfold trimEnd
  rw [List.reverse_append, trimStart_append_of_blank (by simpa using h)]

/-- A text is its form trimmed at the end with blanks behind it. -/
theorem exists_trimEnd (text : Text) :
    ∃ right, text = trimEnd text ++ right ∧ right.all isBlank = true :=
  ⟨text.rtakeWhile isBlank, List.rdropWhile_append_rtakeWhile.symm,
    List.all_eq_true.mpr fun _ hc => List.mem_rtakeWhile_imp hc⟩

/-- Trimming the end twice is trimming it once. -/
@[simp] theorem trimEnd_trimEnd (text : Text) : trimEnd (trimEnd text) = trimEnd text :=
  List.rdropWhile_idempotent isBlank text

/-- Trimming the end makes a text no longer. -/
theorem length_trimEnd_le (text : Text) : (trimEnd text).length ≤ text.length := by
  rcases exists_trimEnd text with ⟨right, htext, -⟩
  have hlength := congrArg List.length htext
  rw [List.length_append] at hlength
  omega

/-- What stands between two characters that are not blank is kept. -/
theorem trim_between {a b : Char} (ha : isBlank a = false) (hb : isBlank b = false)
    (front between back : Text) :
    trim (front ++ a :: (between ++ b :: back)) =
      trimStart front ++ a :: (between ++ b :: trimEnd back) := by
  have hsplit : trimStart front ++ a :: (between ++ b :: back) =
      (trimStart front ++ a :: between) ++ b :: back := by
    simp
  rw [trim, trimStart_append_of_not ha, hsplit, trimEnd_append_of_not hb]
  simp

/-- A text is its trimmed form with blanks around it. -/
theorem exists_trim (text : Text) :
    ∃ left right, text = left ++ (trim text ++ right) ∧ left.all isBlank = true ∧
      right.all isBlank = true := by
  rcases exists_trimEnd (trimStart text) with ⟨right, hend, hright⟩
  refine ⟨text.takeWhile isBlank, right, ?_, List.all_takeWhile, hright⟩
  rw [trim, ← hend, trimStart, List.takeWhile_append_dropWhile]

/-- A trimmed text is a part of the text. -/
theorem trim_infix (text : Text) : trim text <:+: text := by
  rcases exists_trim text with ⟨left, right, htext, -, -⟩
  exact ⟨left, right, by rw [List.append_assoc, ← htext]⟩

/-- Blanks that another character follows are the blanks at the start. -/
theorem takeWhile_isBlank_append {blanks : Text} (hblanks : blanks.all isBlank = true) {c : Char}
    (hc : isBlank c = false) (rest : Text) :
    (blanks ++ c :: rest).takeWhile isBlank = blanks := by
  rw [List.takeWhile_append_of_pos (List.all_eq_true.mp hblanks),
    List.takeWhile_cons_of_neg (by simp [hc]), List.append_nil]

/-- A trimmed text starts with no blank. -/
theorem isBlank_of_trim_eq_cons {text rest : Text} {c : Char} (h : trim text = c :: rest) :
    isBlank c = false := by
  have hprefix : trim text <+: trimStart text := List.rdropWhile_prefix isBlank _
  rcases hprefix with ⟨right, hright⟩
  have hhead := List.head?_dropWhile_not isBlank text
  rw [h] at hright
  rw [show text.dropWhile isBlank = c :: (rest ++ right) from hright.symm] at hhead
  exact hhead

/-- A trimmed text ends with no blank. -/
theorem isBlank_getLast_trim {text : Text} (h : trim text ≠ []) :
    isBlank ((trim text).getLast h) = false := by
  have hlast := List.rdropWhile_last_not isBlank (trimStart text) h
  rwa [Bool.not_eq_true] at hlast

/-- A trimmed text is not trimmed at its start. -/
theorem trimStart_trim (text : Text) : trimStart (trim text) = trim text := by
  cases h : trim text with
  | nil => rfl
  | cons c rest => exact trimStart_cons_of_not (isBlank_of_trim_eq_cons h) rest

/-- Trimming twice is trimming once. -/
@[simp] theorem trim_trim (text : Text) : trim (trim text) = trim text := by
  rw [trim, trimStart_trim]
  exact List.rdropWhile_idempotent isBlank (trimStart text)

end Text

end SourceMask
