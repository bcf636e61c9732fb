import SourceMask.Pass
import SourceMask.Path
import SourceMask.Tree.Parse

/-!
# The parser

The preparation works with any parser.  A parser is a function from requests to trees, so that
one question always has one answer.  A request carries the text and the dialect, and also which
pass asks and which file the text comes from, for parsers that keep their answers on record.
-/

namespace SourceMask

/-- A question to a parser. -/
structure Request where
  origin : Option Path
  pass : Pass
  dialect : Dialect
  text : Text
  deriving DecidableEq, Repr

/-- A source of syntax trees. -/
abbrev Parser := Request → Option Node

namespace Parser

/-- Ask for a tree and check it for defects, if these are to be rejected. -/
def tree (parser : Parser) (reject : Bool) (request : Request) : Except ParseFault Node :=
  match parser request with
  | some root => root.check reject request.dialect request.text
  | none => .error (.noTree request.dialect)

end Parser

end SourceMask
