import SourceMask.Role
import SourceMask.Text.Blank
import SourceMask.Text.Word

/-!
# Anchors

A name is masked only where an *anchor* of its role stands right before it.  The anchor of a
class name is the keyword and the blanks behind it.  The anchor of a function or method name is a
keyword, then blanks and asterisks, then modifiers each followed by blanks, then perhaps an
asterisk and blanks.  A variable name wants a character before it that continues no identifier and
is no dot, or the start of the text.  A property name wants no anchor at all.

One place can be the start of anchors of several lengths.  They are listed longest first, and that
is the order in which they are tried.

Main results:

- Theorem `length_lt_of_modifier?`: a modifier takes at least one character away.
-/

namespace SourceMask

namespace Role

/-! ## Runs -/

/-- The numbers from `high` down to `low`. -/
def countdown (low high : Nat) : List Nat :=
  (List.range (high + 1 - low)).map (high - ·)

@[simp] theorem mem_countdown {low high n : Nat} :
    n ∈ countdown low high ↔ low ≤ n ∧ n ≤ high := by
  simp only [countdown, List.mem_map, List.mem_range]
  constructor
  · rintro ⟨k, hk, rfl⟩
    omega
  · intro h
    exact ⟨high - n, by omega, by omega⟩

/-- How many characters at the start of a text have a property. -/
def runLength (p : Char → Bool) (text : Text) : Nat := (text.takeWhile p).length

/-! ## Keywords and modifiers -/

/-- The keyword in front of a class name. -/
def classKeyword : Text := ['c', 'l', 'a', 's', 's']

/-- The keywords in front of function and method names. -/
def memberKeywords : List Text :=
  [['f', 'u', 'n', 'c', 't', 'i', 'o', 'n'],
    ['p', 'u', 'b', 'l', 'i', 'c'],
    ['p', 'r', 'i', 'v', 'a', 't', 'e'],
    ['p', 'r', 'o', 't', 'e', 'c', 't', 'e', 'd']]

/-- The modifiers that may stand between such a keyword and the name. -/
def modifiers : List Text :=
  [['s', 't', 'a', 't', 'i', 'c'],
    ['a', 's', 'y', 'n', 'c'],
    ['a', 'b', 's', 't', 'r', 'a', 'c', 't'],
    ['o', 'v', 'e', 'r', 'r', 'i', 'd', 'e'],
    ['r', 'e', 'a', 'd', 'o', 'n', 'l', 'y'],
    ['g', 'e', 't'],
    ['s', 'e', 't']]

/-- The first of several words that a text starts with, as its length and the rest. -/
def leadingWord? (words : List Text) (text : Text) : Option (Nat × Text) :=
  words.findSome? fun word => (Text.dropStart? word text).map fun rest => (word.length, rest)

/-- A leading word and the rest make up the text. -/
theorem length_of_leadingWord? {words : List Text} {text rest : Text} {n : Nat}
    (h : leadingWord? words text = some (n, rest)) : text.length = n + rest.length := by
  obtain ⟨word, -, hword⟩ := List.exists_of_findSome?_eq_some h
  simp only [Option.map_eq_some_iff, Prod.mk.injEq] at hword
  obtain ⟨after, hafter, rfl, rfl⟩ := hword
  rw [(Text.dropStart?_eq_some_iff _ _ _).1 hafter, List.length_append]

/-- A modifier at the start of a text: its length, the number of blanks behind it, of which there
is at least one, and what follows them. -/
def modifier? (text : Text) : Option (Nat × Nat × Text) :=
  match leadingWord? modifiers text with
  | some (n, rest) =>
    let blank := runLength Text.isBlank rest
    if blank = 0 then none else some (n, blank, rest.drop blank)
  | none => none

/-- A modifier takes at least one character away. -/
theorem length_lt_of_modifier? {text rest : Text} {n blank : Nat}
    (h : modifier? text = some (n, blank, rest)) : rest.length < text.length := by
  unfold modifier? at h
  split at h
  · rename_i n' rest' hword
    have hlen := length_of_leadingWord? hword
    have hrun : runLength Text.isBlank rest' ≤ rest'.length :=
      (List.takeWhile_sublist _).length_le
    simp only [Option.ite_none_left_eq_some, Option.some.injEq, Prod.mk.injEq] at h
    obtain ⟨hne, -, -, rfl⟩ := h
    rw [List.length_drop]
    omega
  · simp at h

/-! ## Lengths of anchors -/

/-- Lengths of the anchor parts that start behind the modifiers, longest first: perhaps an asterisk
and blanks. -/
def starLengths : Text → List Nat
  | '*' :: rest => countdown 0 (1 + runLength Text.isBlank rest)
  | _ => [0]

/-- Lengths of the anchor parts that start where a modifier may stand, longest first: modifiers
with the blanks behind them, then what may follow them. -/
def modifierLengths (text : Text) : List Nat :=
  match _h : modifier? text with
  | some (n, blank, rest) =>
    (modifierLengths rest).map (n + blank + ·) ++ (countdown 1 (blank - 1)).map (n + ·) ++ [0]
  | none => starLengths text
termination_by text.length
decreasing_by exact length_lt_of_modifier? _h

/-- Whether a character may stand right behind a keyword of functions and methods. -/
def isBlankOrStar (c : Char) : Bool := Text.isBlank c || c = '*'

/-- Lengths of the anchors of a class name at a place, longest first. -/
def classAnchors (before : Option Char) (text : Text) : List Nat :=
  match Text.dropStart? classKeyword text with
  | some rest =>
    if Text.isWordBoundary before text.head? then
      (countdown 1 (runLength Text.isBlank rest)).map (classKeyword.length + ·)
    else
      []
  | none => []

/-- Lengths of the anchors of a function or method name at a place, longest first. -/
def memberAnchors (before : Option Char) (text : Text) : List Nat :=
  match leadingWord? memberKeywords text with
  | some (n, rest) =>
    if Text.isWordBoundary before text.head? && !(rest.head?.any Text.isWordChar) then
      let run := runLength isBlankOrStar rest
      (modifierLengths (rest.drop run)).map (n + run + ·) ++
        (List.range run).reverse.map (n + ·)
    else
      []
  | none => []

/-- Whether a variable name may stand behind a character. -/
def precedesVariable (c : Char) : Bool := !(Text.isIdentifierChar c || c = '.')

/-- Lengths of the anchors of a variable name at a place: none but the empty one at the start of
the text is tried before the one that takes a character. -/
def variableAnchors (before : Option Char) (text : Text) : List Nat :=
  (if before = none then [0] else []) ++
    (match text with
    | [] => []
    | c :: _ => if precedesVariable c then [1] else [])

/-- Lengths of the anchors of a role at a place, in the order in which they are tried.  The
character before the place is given, if there is one. -/
def anchors (role : Role) (before : Option Char) (text : Text) : List Nat :=
  match role with
  | className => classAnchors before text
  | functionName | methodName => memberAnchors before text
  | propertyName => [0]
  | variableName => variableAnchors before text

end Role

end SourceMask
