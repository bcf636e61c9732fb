import SourceMask.Json.Printer
import SourceMask.Outcome

/-!
# Reports

The outcomes of a batch are reported as text, with one token on each line, or as a JSON document.
In a text report a header line can stand before the tokens of each file; a file that failed always
has a line of its own.  If an outcome cannot be recorded, the JSON document tells why, and nothing
else.
-/

namespace SourceMask

/-- The form of a report. -/
inductive ReportFormat where
  | text
  | json
  deriving DecidableEq, Repr

namespace ReportFormat

instance : Inhabited ReportFormat := ⟨.text⟩

/-- The name of a format in settings. -/
def name : ReportFormat → String
  | .text => "text"
  | .json => "json"

/-- The format that goes by exactly this name. -/
def ofExactName? (name : Text) : Option ReportFormat :=
  if name = "text".toList then some .text
  else if name = "json".toList then some .json
  else none

end ReportFormat

namespace Report

/-- The header line of a file. -/
def header (file : ProcessedFile) : Text :=
  "==> ".toList ++ file.path.display ++ " (".toList ++ file.dialect.name.toList ++ ", ".toList ++
    Nat.toDigits 10 file.tokens.length ++ " tokens)\n".toList

/-- The tokens of a sequence, each with a line break behind it. -/
def tokenLines (tokens : List Token) : Text := tokens.flatMap fun token => token.text ++ ['\n']

/-- The line of a file that failed. -/
def failureLine (path : Path) (reason : Text) : Text :=
  "==> ".toList ++ path.display ++ " failed: ".toList ++ reason ++ ['\n']

/-- The part of a text report on one file. -/
def part (headers : Bool) : Outcome → Text
  | .processed file => (if headers then header file else []) ++ tokenLines file.tokens
  | .failed path reason => failureLine path reason

/-- The report as text, with or without header lines. -/
def plain (headers : Bool) (outcomes : List Outcome) : Text := outcomes.flatMap (part headers)

/-- The JSON document that stands for a report that could not be made. -/
def errorDocument (reason : Text) : Text := "\x7b\"error\": \"".toList ++ reason ++ "\"\x7d".toList

/-- The report as a JSON document: the list of the outcomes, or why there is none. -/
def json (outcomes : List Outcome) : Text :=
  match outcomes.mapM Outcome.toData with
  | .ok items => Json.pretty (.list items)
  | .error reason => errorDocument reason

/-- The report in a format; text reports have header lines. -/
def render (format : ReportFormat) (outcomes : List Outcome) : Text :=
  match format with
  | .text => plain true outcomes
  | .json => json outcomes

end Report

end SourceMask
