import SourceMask.Outcome
import SourceMask.Settings
import SourceMask.SourceFile
import SourceMask.Token.Scan

/-!
# Preparation

The whole way from a source text to its tokens: the filter, masking, and the scan.  Files are read
from a store and prepared one by one; a file that fails does not stop the others.

Main results:

- Theorem `map_path_prepareFiles`: each file of a batch has one outcome, in the order of the files.
-/

namespace SourceMask

namespace Settings

/-- The text after the filter and masking. -/
def maskText (settings : Settings) (parser : Parser) (origin : Option Path) (dialect : Dialect)
    (text : Text) : Except Failure Text :=
  settings.masking.run parser origin dialect (settings.filter.apply text)

/-- The tokens of a text. -/
def prepareText (settings : Settings) (parser : Parser) (origin : Option Path) (dialect : Dialect)
    (text : Text) : Except Failure (List Token) :=
  (settings.maskText parser origin dialect text).map Token.scan

/-- Open a file that is not too large. -/
def openFile (settings : Settings) (store : Store) (path : Path) : Except Failure SourceFile := do
  let file ← (SourceFile.openIn store path settings.masking.dialect).mapError .access
  if settings.masking.maxFileSize < file.size then
    .error (.tooLarge file.size settings.masking.maxFileSize)
  else
    .ok file

/-- The tokens of a file. -/
def prepareFile (settings : Settings) (parser : Parser) (store : Store) (path : Path) :
    Except Failure ProcessedFile := do
  let file ← settings.openFile store path
  let text ← (file.load store).1.mapError .access
  let tokens ← settings.prepareText parser (some path) file.dialect text
  pure ⟨path, file.dialect, tokens⟩

/-- What becomes of the files of a batch, in their order. -/
def prepareFiles (settings : Settings) (parser : Parser) (store : Store) (paths : List Path) :
    List Outcome :=
  paths.map fun path => .ofAttempt path (settings.prepareFile parser store path)

/-- A file that was prepared goes by the path that it was found by. -/
theorem path_of_prepareFile {settings : Settings} {parser : Parser} {store : Store} {path : Path}
    {file : ProcessedFile} (h : settings.prepareFile parser store path = .ok file) :
    file.path = path := by
  unfold prepareFile at h
  cases hopen : settings.openFile store path with
  | error failure =>
    rw [hopen] at h
    cases h
  | ok opened =>
    simp only [hopen, bind, Except.bind] at h
    cases hload : (opened.load store).1.mapError Failure.access with
    | error failure =>
      rw [hload] at h
      cases h
    | ok text =>
      simp only [hload] at h
      cases htokens : settings.prepareText parser (some path) opened.dialect text with
      | error failure =>
        rw [htokens] at h
        cases h
      | ok tokens =>
        rw [htokens] at h
        cases h
        rfl

/-- Each file of a batch has one outcome, in the order of the files. -/
theorem map_path_prepareFiles (settings : Settings) (parser : Parser) (store : Store)
    (paths : List Path) : (settings.prepareFiles parser store paths).map Outcome.path = paths := by
  have hpath : ∀ path,
      (Outcome.ofAttempt path (settings.prepareFile parser store path)).path = path := by
    intro path
    cases hattempt : settings.prepareFile parser store path with
    | error failure => rfl
    | ok file => exact path_of_prepareFile hattempt
  rw [prepareFiles, List.map_map]
  exact List.map_id'' hpath paths

end Settings

end SourceMask
