import SourceMask.Text.Offset
import SourceMask.Text.Word

/-!
# Import declarations

An import declaration starts where a line begins: spaces and tabs, the keyword `import`, and a
character that lets it be a declaration.  A word character or a dollar sign would continue the
keyword to another name, a parenthesis or a dot makes it an expression, and a line that ends
right after the keyword is left alone.  A declaration goes to the end of its line and takes the line
break with it, if there is one.

Main results:

- Theorem `afterImport?_length`: what follows a declaration is shorter than what it was found in.
- Theorem `dropImports_of_none`: a character that starts no declaration is kept.
- Theorem `dropImports_of_some`: a declaration is skipped as a whole.
-/

namespace SourceMask

namespace Filter

/-- The keyword that begins an import declaration. -/
def importKeyword : Text := ['i', 'm', 'p', 'o', 'r', 't']

/-- Whether a character right after the keyword lets it begin a declaration. -/
def followsImport (c : Char) : Bool :=
  !(Text.isIdentifierChar c || c = '(' || c = '.' || c = '\r' || c = '\n')

/-- The text behind a line break, if it starts with one; a carriage return may come first. -/
def afterLineBreak : Text → Text
  | '\r' :: '\n' :: rest => rest
  | '\n' :: rest => rest
  | text => text

/-- A line break makes a text no longer. -/
theorem afterLineBreak_length (text : Text) : (afterLineBreak text).length ≤ text.length := by
  unfold afterLineBreak
  split
  · simp only [List.length_cons]
    omega
  · simp
  · exact Nat.le_refl _

/-- The text after an import declaration and its line break, if the text starts with one, spaces and
tabs in front of it allowed. -/
def afterImport? (text : Text) : Option Text :=
  match Text.dropStart? importKeyword (text.dropWhile fun c => c = ' ' || c = '\t') with
  | some (c :: rest) =>
    if followsImport c then some (afterLineBreak (rest.dropWhile (· ≠ '\n'))) else none
  | _ => none

/-- What follows an import declaration is shorter than what it was found in. -/
theorem afterImport?_length {text after : Text} (h : afterImport? text = some after) :
    after.length < text.length := by
  unfold afterImport? at h
  split at h
  · rename_i c rest hdrop
    split at h
    · rw [Option.some.injEq] at h
      have hafter := afterLineBreak_length (rest.dropWhile (· ≠ '\n'))
      have hline : (rest.dropWhile (· ≠ '\n')).length ≤ rest.length :=
        (List.dropWhile_sublist _).length_le
      have htext : (text.dropWhile fun c => c = ' ' || c = '\t').length ≤ text.length :=
        (List.dropWhile_sublist _).length_le
      rw [(Text.dropStart?_eq_some_iff _ _ _).mp hdrop, List.length_append,
        List.length_cons] at htext
      rw [h] at hafter
      omega
    · cases h
  · cases h

/-- The text without its import declarations, given whether a line begins with it.  Behind a
declaration a line begins, or the text is at its end. -/
def dropImports (beginsLine : Bool) (text : Text) : Text :=
  match text with
  | [] => []
  | c :: rest =>
    match _h : if beginsLine then afterImport? (c :: rest) else none with
    | some after => dropImports true after
    | none => c :: dropImports (c = '\n') rest
termination_by text.length
decreasing_by
  · split at _h
    · exact afterImport?_length _h
    · cases _h
  · simp

@[simp] theorem dropImports_nil (beginsLine : Bool) : dropImports beginsLine [] = [] := by
  rw [dropImports]

/-- A declaration is skipped as a whole. -/
theorem dropImports_of_some {text after : Text} (h : afterImport? text = some after) :
    dropImports true text = dropImports true after := by
  cases text with
  | nil => cases h
  | cons c rest =>
    rw [dropImports]
    split
    · simp_all
    · simp_all

/-- A character that starts no declaration is kept. -/
theorem dropImports_of_none {beginsLine : Bool} {c : Char} {rest : Text}
    (h : beginsLine = true → afterImport? (c :: rest) = none) :
    dropImports beginsLine (c :: rest) = c :: dropImports (c = '\n') rest := by
  rw [dropImports]
  split
  · simp_all
  · rfl

/-- The text without its import declarations. -/
def stripImports (text : Text) : Text := dropImports true text

@[simp] theorem stripImports_nil : stripImports [] = [] := dropImports_nil true

end Filter

end SourceMask
