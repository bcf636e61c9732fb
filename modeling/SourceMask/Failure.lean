import SourceMask.Edit
import SourceMask.Pass
import SourceMask.Tree.Parse

/-!
# Failures

What can go wrong while source files are prepared, and how each cause is put into words.
-/

namespace SourceMask

/-- Why a file could not be read or written. -/
inductive AccessFault where
  | notFound
  | alreadyExists
  | notDirectory
  | isDirectory
  | noSpace
  | nameTooLong
  | nulInName
  | notText
  /-- Whatever else the place of a file may give as the reason, in its own words. -/
  | other (wording : String)
  deriving DecidableEq, Repr

/-- The wording of an access fault. -/
def AccessFault.message : AccessFault → String
  | notFound => "No such file or directory (os error 2)"
  | alreadyExists => "File exists (os error 17)"
  | notDirectory => "Not a directory (os error 20)"
  | isDirectory => "Is a directory (os error 21)"
  | noSpace => "No space left on device (os error 28)"
  | nameTooLong => "File name too long (os error 36)"
  | nulInName => "file name contained an unexpected NUL byte"
  | notText => "stream did not contain valid UTF-8"
  | other wording => wording

/-- The wording of an edit fault. -/
def Edit.Fault.message : Edit.Fault → String
  | .invalid start stop length =>
    "Invalid replacement range [" ++ toString start ++ ", " ++ toString stop ++
      ") for text of length " ++ toString length
  | .overlap firstStart firstStop secondStart secondStop =>
    "Overlapping replacements: [" ++ toString firstStart ++ ", " ++ toString firstStop ++
      ") and [" ++ toString secondStart ++ ", " ++ toString secondStop ++ ")"

/-- The wording of a parse fault. -/
def ParseFault.message : ParseFault → String
  | .noTree dialect => "Failed to parse " ++ dialect.name ++ " source"
  | .defect dialect line column =>
    "Syntax error in " ++ dialect.name ++ " source at line " ++ toString line ++ ", column " ++
      toString column

/-- Everything that can stop the preparation of a text or a file. -/
inductive Failure where
  /-- A text could not be parsed; the pass that asked for its tree is named, if one did. -/
  | parse (pass : Option Pass) (fault : ParseFault)
  /-- The planned edits do not fit the text. -/
  | edit (fault : Edit.Fault)
  /-- A file could not be read or written. -/
  | access (fault : AccessFault)
  /-- A file takes more bytes than allowed. -/
  | tooLarge (size limit : Nat)
  /-- A recorded outcome has neither of the two known forms. -/
  | unknownOutcome
  /-- A settings file is not well formed, or a value in it has the wrong type. -/
  | badSettings
  deriving DecidableEq, Repr

namespace Failure

/-- The wording of a failure. -/
def message : Failure → String
  | parse none fault => "Tree-sitter parsing error: " ++ fault.message
  | parse (some pass) fault =>
    "Tree-sitter parsing error: " ++ pass.name ++ " pass: " ++ fault.message
  | edit fault => fault.message
  | access fault => "IO error: " ++ fault.message
  | tooLarge size limit =>
    "File too large: " ++ toString size ++ " bytes (limit " ++ toString limit ++ ")"
  | unknownOutcome =>
    "Serialization error: data did not match any variant of untagged enum FileOutcome"
  | badSettings => "TOML parsing error"

end Failure

end SourceMask
