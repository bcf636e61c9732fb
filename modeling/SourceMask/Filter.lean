import SourceMask.Filter.Comment
import SourceMask.Filter.Import

/-!
# The filter

The first stage of the preparation: comments are taken out, then import lines, and the result is
trimmed.  Each of the two stages can be switched off; trimming cannot.
-/

namespace SourceMask

/-- Which stages of the filter are on. -/
structure Filter where
  dropsComments : Bool := true
  dropsImports : Bool := true
  deriving DecidableEq, Repr, Inhabited

namespace Filter

/-- The filter with every stage on. -/
def full : Filter := {}

/-- Run the stages that are on, then trim. -/
def apply (filter : Filter) (text : Text) : Text :=
  let text := if filter.dropsComments then stripComments text else text
  let text := if filter.dropsImports then stripImports text else text
  Text.trim text

end Filter

end SourceMask
