import SourceMask.Failure
import SourceMask.Masking.Plan
import SourceMask.Parser

/-!
# Masking

Names are masked by the passes that are switched on, one after the other.  Each pass parses the
text that the one before it left.
-/

namespace SourceMask

/-- How names are masked. -/
structure Masking where
  /-- The dialect of texts whose file name does not tell it. -/
  dialect : Dialect := .typescript
  /-- Whether names of classes and fields are masked. -/
  classScope : Bool := true
  /-- Whether names of functions, methods and variables are masked. -/
  functionScope : Bool := true
  /-- Whether texts with syntax errors are refused. -/
  rejectsDefects : Bool := true
  /-- The greatest number of bytes that a file may have. -/
  maxFileSize : Nat := 1048576
  deriving DecidableEq, Repr, Inhabited

namespace Masking

/-- Whether a pass is switched on. -/
def enables (masking : Masking) : Pass → Bool
  | .classScope => masking.classScope
  | .functionScope => masking.functionScope

/-- The passes that are switched on, in the order in which they run. -/
def passes (masking : Masking) : List Pass := Pass.all.filter masking.enables

/-- Run one pass: parse, plan, and carry out the edits. -/
def runPass (masking : Masking) (parser : Parser) (request : Request) : Except Failure Text := do
  let root ← (parser.tree masking.rejectsDefects request).mapError (.parse (some request.pass))
  (request.pass.maskText request.text root).mapError .edit

/-- Run the passes that are switched on, each on the text that the one before it left. -/
def run (masking : Masking) (parser : Parser) (origin : Option Path) (dialect : Dialect)
    (text : Text) : Except Failure Text :=
  masking.passes.foldlM (fun text pass => masking.runPass parser ⟨origin, pass, dialect, text⟩) text

end Masking

end SourceMask
