import SourceMask.Text.Offset

/-!
# Edits

An edit exchanges a byte range of a text for another text.  A list of edits is made against one
text: all offsets refer to it, whatever the other edits do.  Edits are therefore carried out from
the right, so that none moves the range of one that is still to come, and ranges that overlap or
do not fit the text are refused before anything is changed.

Main results:

- Theorem `replaceRange?_append`: an edit exchanges the middle of a text and keeps both sides.
- Theorem `rightmostFirst_perm`: putting edits in order keeps each of them.
-/

namespace SourceMask

/-- A text to put in place of the bytes from `start` up to `stop`. -/
structure Edit where
  text : Text
  start : Nat
  stop : Nat
  deriving DecidableEq, Repr, Inhabited

namespace Edit

/-- Why a list of edits is refused. -/
inductive Fault where
  /-- The range ends before it starts, leaves the text, or cuts a character. -/
  | invalid (start stop length : Nat)
  /-- Two ranges have bytes in common; the one further left is named first. -/
  | overlap (firstStart firstStop secondStart secondStop : Nat)
  deriving DecidableEq, Repr

/-! ## Order -/

/-- Whether an edit may be carried out before another: ranges that end later go first, and of
those that end together the ones that start later. -/
def before (first second : Edit) : Bool :=
  second.stop < first.stop || (second.stop = first.stop && second.start ≤ first.start)

/-- The edits in the order in which they are carried out.  Edits of one range keep their order. -/
def rightmostFirst (edits : List Edit) : List Edit := edits.mergeSort before

/-- Putting edits in order keeps each of them. -/
theorem rightmostFirst_perm (edits : List Edit) : (rightmostFirst edits).Perm edits :=
  List.mergeSort_perm _ _

/-! ## Checks -/

/-- Whether the range of an edit lies in a text and cuts none of its characters. -/
def fits (source : Text) (edit : Edit) : Bool :=
  edit.start ≤ edit.stop && Text.isBoundary edit.start source && Text.isBoundary edit.stop source

/-- Check edits in the order of execution: each has to fit and to end where the one before it
starts or further left. -/
def check (source : Text) : Option Edit → List Edit → Except Fault Unit
  | _, [] => .ok ()
  | previous, edit :: rest =>
    if !edit.fits source then
      .error (.invalid edit.start edit.stop (Text.byteLength source))
    else
      match previous with
      | none => check source (some edit) rest
      | some earlier =>
        if earlier.start < edit.stop then
          .error (.overlap edit.start edit.stop earlier.start earlier.stop)
        else
          check source (some edit) rest

/-! ## Execution -/

/-- Carry out one edit. -/
def apply (edit : Edit) (source : Text) : Except Fault Text :=
  match Text.replaceRange? source edit.start edit.stop edit.text with
  | some result => .ok result
  | none => .error (.invalid edit.start edit.stop (Text.byteLength source))

/-- Carry out edits one after the other, each on the result of those before it. -/
def applyInOrder (source : Text) (edits : List Edit) : Except Fault Text :=
  edits.foldlM (fun text edit => edit.apply text) source

/-- Carry out a list of edits made against one text. -/
def applyAll (source : Text) (edits : List Edit) : Except Fault Text := do
  let ordered := rightmostFirst edits
  check source none ordered
  applyInOrder source ordered

/-- An edit exchanges the middle of a text and keeps both sides. -/
theorem replaceRange?_append (before middle after piece : Text) :
    Text.replaceRange? (before ++ middle ++ after) (Text.byteLength before)
      (Text.byteLength (before ++ middle)) piece = some (before ++ piece ++ after) := by
  simp only [Text.replaceRange?, Text.splitAtByte?_append, Option.bind_eq_bind, Option.bind_some,
    Option.pure_def]

end Edit

end SourceMask
