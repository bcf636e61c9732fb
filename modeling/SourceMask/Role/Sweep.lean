import SourceMask.Role.Anchor
import SourceMask.Text.Order

/-!
# Sweeps

A sweep goes once through a text from left to right and finds the places where one of several
names of a role stands behind an anchor.  At each place the anchors are tried in their order, and
for each of them the names, longer ones first.  What was found is skipped as a whole.  A finding
without any text does not count where the finding before it ended.

Main results:

- Theorem `source_sweepFrom`: the pieces that a sweep makes, put together again, are the text.
-/

namespace SourceMask

/-- The names of one role that a sweep looks for, in the order in which they are tried. -/
structure Lexicon where
  role : Role
  names : List Text
  deriving Repr

namespace Lexicon

/-! ## The names and their order -/

/-- Longer names are tried first, names of one length in the order of texts. -/
def triedBefore (first second : Text) : Bool :=
  Text.byteLength second < Text.byteLength first ||
    (Text.byteLength second = Text.byteLength first && Text.le first second)

/-- The lexicon of some names.  Without any name it looks for the empty one. -/
def ofNames (role : Role) (names : List Text) : Lexicon :=
  ⟨role, if names = [] then [[]] else names.mergeSort triedBefore⟩

/-- Whether a name may start behind a character: a property name that starts with a name character
must start a word. -/
def startsWell (role : Role) (before : Option Char) (name text : Text) : Bool :=
  if role = .propertyName && name.head?.any Text.isNameChar then
    Text.isWordBoundary before text.head?
  else
    true

/-- Whether a name may end in front of a text: one that ends with a name character must end a
word. -/
def endsWell (name after : Text) : Bool :=
  if name.getLast?.any Text.isNameChar then
    Text.isWordBoundary name.getLast? after.head?
  else
    true

/-- Whether a name stands at the start of a text, behind a given character. -/
def standsAt (role : Role) (before : Option Char) (text name : Text) : Bool :=
  match Text.dropStart? name text with
  | some after => startsWell role before name text && endsWell name after
  | none => false

/-! ## Findings -/

/-- An anchor and the name behind it. -/
structure Finding where
  anchor : Text
  name : Text
  deriving DecidableEq, Repr

/-- The text that a finding takes. -/
def Finding.source (finding : Finding) : Text := finding.anchor ++ finding.name

/-- The last character of a text, or the given one if there is none. -/
def lastOr (before : Option Char) (text : Text) : Option Char := text.getLast?.or before

/-- The finding with an anchor of the given length, if a name follows that anchor. -/
def findBehind? (lexicon : Lexicon) (before : Option Char) (text : Text) (length : Nat) :
    Option Finding :=
  let anchor := text.take length
  (lexicon.names.find? (standsAt lexicon.role (lastOr before anchor) (text.drop length))).map
    fun name => ⟨anchor, name⟩

/-- The finding that starts at the start of a text, behind a given character. -/
def findAt? (lexicon : Lexicon) (before : Option Char) (text : Text) : Option Finding :=
  (lexicon.role.anchors before text).findSome? (lexicon.findBehind? before text)

/-! ## The sweep -/

/-- What a sweep makes of a text: characters that it passes over, and findings. -/
inductive Piece where
  | passed (c : Char)
  | found (finding : Finding)
  deriving DecidableEq, Repr

/-- The text of a piece. -/
def Piece.source : Piece → Text
  | .passed c => [c]
  | .found finding => finding.source

/-- Sweep a text that stands behind a given character.  With `afresh` off the place is the end of
a finding, and a finding without text does not count there. -/
def sweepFrom (lexicon : Lexicon) (before : Option Char) (afresh : Bool) (text : Text) :
    List Piece :=
  match text with
  | [] => if afresh then (lexicon.findAt? before []).toList.map .found else []
  | c :: rest =>
    match lexicon.findAt? before (c :: rest) with
    | some finding =>
      if finding.source = [] then
        (if afresh then [.found finding] else []) ++
          .passed c :: sweepFrom lexicon (some c) true rest
      else
        .found finding ::
          sweepFrom lexicon (lastOr before finding.source) false
            ((c :: rest).drop finding.source.length)
    | none => .passed c :: sweepFrom lexicon (some c) true rest
termination_by text.length
decreasing_by
  · simp
  · rename_i hne
    have := List.length_pos_iff.2 hne
    simp only [List.length_drop, List.length_cons]
    omega
  · simp

/-- The pieces of a whole text. -/
def sweep (lexicon : Lexicon) (text : Text) : List Piece := lexicon.sweepFrom none true text

/-! ## Pieces make up the text -/

/-- A name that stands at the start of a text is followed by the rest of it. -/
theorem append_of_standsAt {role : Role} {before : Option Char} {text name : Text}
    (h : standsAt role before text name) : ∃ after, text = name ++ after := by
  unfold standsAt at h
  split at h
  · rename_i after hdrop
    exact ⟨after, (Text.dropStart?_eq_some_iff _ _ _).1 hdrop⟩
  · simp at h

/-- A finding is the beginning of the text that it is found in. -/
theorem append_of_findAt? {lexicon : Lexicon} {before : Option Char} {text : Text}
    {finding : Finding} (h : lexicon.findAt? before text = some finding) :
    ∃ after, text = finding.source ++ after := by
  obtain ⟨length, -, hlength⟩ := List.exists_of_findSome?_eq_some h
  simp only [findBehind?, Option.map_eq_some_iff] at hlength
  obtain ⟨name, hname, rfl⟩ := hlength
  obtain ⟨after, hafter⟩ := append_of_standsAt (List.find?_some hname)
  refine ⟨after, ?_⟩
  rw [Finding.source, List.append_assoc, ← hafter, List.take_append_drop]

/-- The pieces that a sweep makes, put together again, are the text. -/
theorem source_sweepFrom (lexicon : Lexicon) (before : Option Char) (afresh : Bool) (text : Text) :
    (lexicon.sweepFrom before afresh text).flatMap Piece.source = text := by
  fun_induction sweepFrom lexicon before afresh text with
  | case1 before =>
    cases hfind : lexicon.findAt? before [] with
    | none => simp
    | some finding =>
      obtain ⟨after, hafter⟩ := append_of_findAt? hfind
      simp [Piece.source, List.eq_nil_of_append_eq_nil hafter.symm]
  | case2 => rfl
  | case3 before afresh c rest finding hfind hempty ih =>
    cases afresh <;> simp [Piece.source, hempty, ih]
  | case4 before afresh c rest finding hfind hne ih =>
    obtain ⟨after, hafter⟩ := append_of_findAt? hfind
    simp only [List.flatMap_cons, ih, Piece.source]
    rw [hafter, List.drop_left]
  | case5 before afresh c rest hfind ih => simp [Piece.source, ih]

end Lexicon

end SourceMask
