import SourceMask.CommandLine.Arguments
import SourceMask.Preparation
import SourceMask.Settings.File

/-!
# Running a command

A run takes its arguments, a store and a parser, and leaves a status, what is to be printed, and
the store as it is afterwards.  The status is zero for success, two for arguments that make no
sense, 101 if the standard output fails, and one for every other failure.  The tokens of several
files are put out even if some of them failed.
-/

namespace SourceMask

namespace CommandLine

/-- The name and the version of the program. -/
def versionLine : Text := "token_prep 0.1.0\n".toList

/-- How the program is used. -/
def usage : Text :=
  ("Usage: token_prep [OPTIONS] <COMMAND>\n\n" ++
    "Commands:\n" ++
    "  tokenize <FILES>...  Print the tokens of files\n" ++
    "  anonymize <FILE>     Print the masked text of a file\n" ++
    "  filter <FILE>        Print a file without comments and imports\n\n" ++
    "Options:\n" ++
    "  -v, --verbose              More messages\n" ++
    "  -q, --quiet                Only error messages\n" ++
    "  -f, --format <FORMAT>      text or json\n" ++
    "  -o, --output <FILE>        Write to a file\n" ++
    "  -c, --config <FILE>        Read settings from a file\n" ++
    "      --dialect <DIALECT>    typescript or tsx\n" ++
    "      --keep-imports         Keep import lines\n" ++
    "      --keep-comments        Keep comments\n" ++
    "      --no-class-scope       Do not mask names of classes and fields\n" ++
    "      --no-function-scope    Do not mask names in functions\n" ++
    "  -j, --threads <COUNT>      Files prepared at a time\n" ++
    "  -h, --help                 Print this help\n" ++
    "  -V, --version              Print the version\n").toList

/-- What a run leaves. -/
structure Result where
  status : Nat
  stdout : Text
  store : Store
  /-- The file that was written, if one was. -/
  written : Option Path

/-! ## Settings -/

/-- The settings of an invocation: those of its file, or else the defaults, with its changes. -/
def settingsOf (store : Store) (invocation : Invocation) : Except Failure Settings := do
  let settings ← match invocation.config with
    | some path => Settings.ofFile store path
    | none => pure {}
  pure (settings.changeAll invocation.changes)

/-! ## Commands -/

/-- The report on several files: bare tokens for a single file in text form. -/
def reportOf (settings : Settings) (outcomes : List Outcome) : Text :=
  match outcomes, settings.output.format with
  | [outcome], .text => Report.plain false [outcome]
  | outcomes, format => Report.render format outcomes

/-- What a command puts out, and whether all went well. -/
def outputOf (settings : Settings) (parser : Parser) (store : Store) :
    Command → Except Failure (Text × Bool)
  | .tokenize files =>
    let outcomes := settings.prepareFiles parser store files
    .ok (reportOf settings outcomes, outcomes.all Outcome.isProcessed)
  | .anonymize file => do
    let text ← (store.text file).mapError .access
    let dialect := SourceFile.dialectOf file settings.masking.dialect
    let masked ← settings.maskText parser (some file) dialect text
    pure (masked ++ ['\n'], true)
  | .filter file => do
    let text ← (store.text file).mapError .access
    pure (settings.filter.apply text ++ ['\n'], true)

/-! ## Runs -/

/-- A run that fails without putting anything out. -/
def failed (store : Store) : Result := ⟨1, [], store, none⟩

/-- Put out a text, to a file if the settings name one. -/
def deliver (settings : Settings) (store : Store) (text : Text) (succeeded : Bool) : Result :=
  let status := if succeeded then 0 else 1
  match settings.output.path with
  | none =>
    match store.prints text with
    | (shown, true) => ⟨status, shown, store, none⟩
    | (shown, false) => ⟨101, shown, store, none⟩
  | some path =>
    match store.writeText path text with
    | (none, after) => ⟨status, store.shown path text, after, some path⟩
    | (some refusal, after) => ⟨1, store.shown path refusal.takenText, after, none⟩

/-- Run an invocation. -/
def runInvocation (parser : Parser) (store : Store) (invocation : Invocation) : Result :=
  match settingsOf store invocation with
  | .error _ => failed store
  | .ok settings =>
    match outputOf settings parser store invocation.command with
    | .error _ => failed store
    | .ok (text, succeeded) => deliver settings store text succeeded

/-- Run the program with its arguments. -/
def run (parser : Parser) (store : Store) (arguments : List Bytes) : Result :=
  match read arguments with
  | .ok invocation => runInvocation parser store invocation
  | .error .version => ⟨0, versionLine, store, none⟩
  | .error .help => ⟨0, usage, store, none⟩
  | .error .misuse => ⟨2, [], store, none⟩

end CommandLine

end SourceMask
