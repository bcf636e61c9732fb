import SourceMask.Filter
import SourceMask.Masking
import SourceMask.Report

/-!
# Settings

Everything about the preparation that can be chosen.  Settings start from their defaults, may be
read from a file, and are changed one by one.

Main results:

- Theorem `change_change_self`: the same change made twice is made once.
-/

namespace SourceMask

/-- How results are put out. -/
structure Output where
  format : ReportFormat := .text
  /-- The file to write; without one, results go to the standard output. -/
  path : Option Path := none
  deriving DecidableEq, Repr, Inhabited

/-- All choices about the preparation. -/
structure Settings where
  filter : Filter := {}
  masking : Masking := {}
  output : Output := {}
  /-- How many files are prepared at a time; zero leaves it to the machine. -/
  threads : Nat := 0
  deriving DecidableEq, Repr, Inhabited

namespace Settings

/-- The number of files prepared at a time, if it is settled. -/
def fixedThreads? (settings : Settings) : Option Nat :=
  if settings.threads = 0 then none else some settings.threads

/-! ## Changes -/

/-- A new value for one setting. -/
inductive Change where
  | dropsComments (on : Bool)
  | dropsImports (on : Bool)
  | dialect (dialect : Dialect)
  | classScope (on : Bool)
  | functionScope (on : Bool)
  | rejectsDefects (on : Bool)
  | maxFileSize (bytes : Nat)
  | format (format : ReportFormat)
  | outputPath (path : Path)
  | threads (count : Nat)
  deriving DecidableEq, Repr

/-- Settings with one of them changed. -/
def change (settings : Settings) : Change → Settings
  | .dropsComments on => { settings with filter.dropsComments := on }
  | .dropsImports on => { settings with filter.dropsImports := on }
  | .dialect dialect => { settings with masking.dialect := dialect }
  | .classScope on => { settings with masking.classScope := on }
  | .functionScope on => { settings with masking.functionScope := on }
  | .rejectsDefects on => { settings with masking.rejectsDefects := on }
  | .maxFileSize bytes => { settings with masking.maxFileSize := bytes }
  | .format format => { settings with output.format := format }
  | .outputPath path => { settings with output.path := some path }
  | .threads count => { settings with threads := count }

/-- Settings after several changes, made in order. -/
def changeAll (settings : Settings) (changes : List Change) : Settings :=
  changes.foldl change settings

/-- The same change made twice is made once. -/
@[simp] theorem change_change_self (settings : Settings) (c : Change) :
    (settings.change c).change c = settings.change c := by
  cases c <;> rfl

end Settings

end SourceMask
