import SourceMask.Data
import SourceMask.Failure
import SourceMask.Path
import SourceMask.Token

/-!
# Outcomes

What became of one file of a batch: its token sequence, or the reason why it was left out.  An
outcome is recorded as a record whose fields tell the two apart; further fields do not matter.  The
path of the file is recorded as a text, so the outcome of a file whose path is none is not recorded.
-/

namespace SourceMask

/-- The tokens of one file. -/
structure ProcessedFile where
  path : Path
  dialect : Dialect
  tokens : List Token
  deriving DecidableEq, Repr

/-- What became of one file of a batch. -/
inductive Outcome where
  | processed (file : ProcessedFile)
  | failed (path : Path) (reason : Text)
  deriving DecidableEq, Repr

namespace Outcome

/-- The path of the file. -/
def path : Outcome → Path
  | processed file => file.path
  | failed path _ => path

/-- Whether the file was turned into tokens. -/
def isProcessed : Outcome → Bool
  | processed _ => true
  | failed .. => false

/-- The tokens of the file, if it was turned into tokens. -/
def tokens? : Outcome → Option (List Token)
  | processed file => some file.tokens
  | failed .. => none

/-- The outcome of an attempt on a file. -/
def ofAttempt (path : Path) : Except Failure ProcessedFile → Outcome
  | .ok file => processed file
  | .error failure => failed path failure.message.toList

/-! ## Outcomes as data -/

/-- A token sequence as data. -/
def tokensData (tokens : List Token) : Data := .list (tokens.map fun token => .text token.text)

/-- Why a path that is no text cannot be recorded. -/
def noTextReason : Text := "path contains invalid UTF-8 characters".toList

/-- A path as data, or why it cannot be recorded. -/
def pathData (path : Path) : Except Text Data :=
  match path.text? with
  | some text => .ok (.text text)
  | none => .error noTextReason

/-- An outcome as data, or why it cannot be recorded. -/
def toData : Outcome → Except Text Data
  | processed file => do
    let path ← pathData file.path
    pure (.record [("path".toList, path), ("dialect".toList, .word file.dialect.name),
      ("tokens".toList, tokensData file.tokens)])
  | failed path reason => do
    let path ← pathData path
    pure (.record [("path".toList, path), ("error".toList, .text reason)])

/-- The processed file that three values describe. -/
def processedOf? (path dialect tokens : Data) : Option ProcessedFile := do
  let path ← path.toText?
  let dialect ← Dialect.ofExactName? (← dialect.choice? Data.isNull)
  let tokens ← tokens.toTexts?
  pure ⟨.ofText path, dialect, tokens.map Token.mk⟩

/-- The processed file that data describes: a record with the three fields, or the list of the
three values. -/
def processed? : Data → Option ProcessedFile
  | .record fields => do
    processedOf? (← Data.field? fields "path") (← Data.field? fields "dialect")
      (← Data.field? fields "tokens")
  | .list [path, dialect, tokens] => processedOf? path dialect tokens
  | _ => none

/-- The path and the reason of a failed file that data describes. -/
def failed? : Data → Option (Path × Text)
  | .record fields => do
    let path ← (← Data.field? fields "path").toText?
    pure (.ofText path, ← (← Data.field? fields "error").toText?)
  | _ => none

/-- The outcome that data describes.  What can be read as a processed file is one. -/
def ofData? (data : Data) : Option Outcome :=
  (processed? data).map processed |>.or
    ((failed? data).map fun (path, reason) => failed path reason)

end Outcome

end SourceMask
