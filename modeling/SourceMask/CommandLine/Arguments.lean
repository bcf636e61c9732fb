import SourceMask.Settings

/-!
# Arguments of the command line

The arguments are options, then the name of a command, then the files that it works on.  An option
has a long name, written behind two dashes, and may have a letter, written behind one dash; several
letters can share a dash.  The value of an option is the rest of its argument or the next one.
Only the option for more messages may be given more than once.

An argument is given as bytes.  Names and values have to be those of texts, save that paths may be
any bytes.
-/

namespace SourceMask

namespace CommandLine

/-! ## Options -/

/-- An option. -/
inductive Flag where
  | verbose
  | quiet
  | format
  | output
  | config
  | dialect
  | keepImports
  | keepComments
  | noClassScope
  | noFunctionScope
  | threads
  | help
  | version
  deriving DecidableEq, Repr

/-- The options by their long names. -/
def longNames : List (String × Flag) :=
  [("verbose", .verbose), ("quiet", .quiet), ("format", .format), ("output", .output),
    ("config", .config), ("dialect", .dialect), ("keep-imports", .keepImports),
    ("keep-comments", .keepComments), ("no-class-scope", .noClassScope),
    ("no-function-scope", .noFunctionScope), ("threads", .threads), ("help", .help),
    ("version", .version)]

/-- The options by their letters. -/
def letters : List (Char × Flag) :=
  [('v', .verbose), ('q', .quiet), ('f', .format), ('o', .output), ('c', .config),
    ('j', .threads), ('h', .help), ('V', .version)]

/-- The byte in front of an option. -/
@[match_pattern]
abbrev dash : UInt8 := 0x2D

/-- The byte in front of a value that is attached to its option. -/
@[match_pattern]
abbrev equalsSign : UInt8 := 0x3D

/-- Whether an option has a value. -/
def Flag.wantsValue : Flag → Bool
  | format | output | config | dialect | threads => true
  | _ => false

/-- Why nothing is run. -/
inductive Stop where
  /-- The help text is asked for. -/
  | help
  /-- The version is asked for. -/
  | version
  /-- The arguments make no sense. -/
  | misuse
  deriving DecidableEq, Repr

/-- What an option does. -/
inductive Effect where
  | nothing
  | load (path : Path)
  | change (change : Settings.Change)
  deriving DecidableEq, Repr

/-- A path that is not empty. -/
def path? (value : Bytes) : Option Path := if value = [] then none else some value

/-- A number of at most 64 bits, a plus sign allowed. -/
def count? (value : Text) : Option Nat :=
  let digits := if value.head? = some '+' then value.drop 1 else value
  if digits ≠ [] && digits.all Char.isDigit then
    let count := digits.foldl (fun n c => 10 * n + (c.toNat - 48)) 0
    if count < 18446744073709551616 then some count else none
  else
    none

/-- What an option with a value does, if it takes that value.  Switches ignore it. -/
def Flag.effect? (value : Bytes) : Flag → Option Effect
  | format => ((Text.decode? value).bind ReportFormat.ofExactName?).map fun format =>
    .change (.format format)
  | output => (path? value).map fun path => .change (.outputPath path)
  | config => (path? value).map .load
  | dialect => ((Text.decode? value).bind Dialect.ofExactName?).map fun dialect =>
    .change (.dialect dialect)
  | threads => ((Text.decode? value).bind count?).map fun count => .change (.threads count)
  | keepImports => some (.change (.dropsImports false))
  | keepComments => some (.change (.dropsComments false))
  | noClassScope => some (.change (.classScope false))
  | noFunctionScope => some (.change (.functionScope false))
  | verbose | quiet | help | version => some .nothing

/-- The options given so far. -/
structure Options where
  used : List Flag := []
  config : Option Path := none
  changes : List Settings.Change := []
  deriving DecidableEq, Repr

namespace Options

/-- Take one more option. -/
def accept (options : Options) (flag : Flag) (value : Bytes) : Except Stop Options :=
  if flag = .help then .error .help
  else if flag = .version then .error .version
  else if flag ≠ .verbose && options.used.contains flag then .error .misuse
  else
    match flag.effect? value with
    | none => .error .misuse
    | some effect =>
      let options := { options with used := flag :: options.used }
      match effect with
      | .nothing => .ok options
      | .load path => .ok { options with config := some path }
      | .change change => .ok { options with changes := options.changes ++ [change] }

/-- Take an option by its long name, with the value attached to it, if any.  An option that still
wants its value is handed back. -/
def acceptLong (options : Options) (argument : Bytes) : Except Stop (Options × Option Flag) :=
  let name := argument.takeWhile (· ≠ equalsSign)
  let attached := (argument.dropWhile (· ≠ equalsSign)).tail?
  match longNames.find? fun entry => Bytes.ofWord entry.1 = name with
  | none => .error .misuse
  | some (_, flag) =>
    match attached with
    | some value =>
      if flag.wantsValue then (options.accept flag value).map (·, none) else .error .misuse
    | none =>
      if flag.wantsValue then .ok (options, some flag)
      else (options.accept flag []).map (·, none)

/-- Take the options whose letters share a dash.  The first one that wants a value takes the rest
of the argument, without an equals sign in front; if there is no rest, it is handed back. -/
def acceptLetters (options : Options) : Bytes → Except Stop (Options × Option Flag)
  | [] => .ok (options, none)
  | letter :: rest =>
    match letters.lookup (.ofUInt8 letter) with
    | none => .error .misuse
    | some flag =>
      if flag.wantsValue then
        match rest with
        | [] => .ok (options, some flag)
        | equalsSign :: value => (options.accept flag value).map (·, none)
        | value => (options.accept flag value).map (·, none)
      else
        match options.accept flag [] with
        | .ok options => acceptLetters options rest
        | .error stop => .error stop

/-- Take the options of one argument that starts with a dash. -/
def acceptArgument (options : Options) : Bytes → Except Stop (Options × Option Flag)
  | dash :: dash :: argument => options.acceptLong argument
  | dash :: argument => options.acceptLetters argument
  | _ => .error .misuse

end Options

/-- Whether an argument is read as an option: a dash on its own is not. -/
def isOption : Bytes → Bool
  | dash :: _ :: _ => true
  | _ => false

/-- Take the options in front of the command, and hand back the arguments from there on. -/
def readOptions (options : Options) : List Bytes → Except Stop (Options × List Bytes)
  | [] => .ok (options, [])
  | argument :: rest =>
    if isOption argument then
      match options.acceptArgument argument with
      | .error stop => .error stop
      | .ok (options, none) => readOptions options rest
      | .ok (options, some flag) =>
        match rest with
        | [] => .error .misuse
        | value :: rest =>
          if isOption value then .error .misuse
          else
            match options.accept flag value with
            | .error stop => .error stop
            | .ok options => readOptions options rest
    else
      .ok (options, argument :: rest)

/-! ## Commands -/

/-- What to do with which files. -/
inductive Command where
  /-- Report the tokens of files. -/
  | tokenize (files : List Path)
  /-- Put out the masked text of a file. -/
  | anonymize (file : Path)
  /-- Put out the filtered text of a file. -/
  | filter (file : Path)
  deriving DecidableEq, Repr

/-- Add a file to those of a command, which may take one only. -/
def addFile (single : Bool) (files : List Path) (file : Bytes) : Except Stop (List Path) :=
  if file = [] || (single && files ≠ []) then .error .misuse else .ok (files ++ [file])

/-- Take the files of a command.  Behind two dashes every argument is a file. -/
def readFiles (single : Bool) (files : List Path) : List Bytes → Except Stop (List Path)
  | [] => .ok files
  | argument :: rest =>
    if argument = [dash, dash] then
      rest.foldlM (addFile single) files
    else if isOption argument then
      .error (if argument = .ofWord "--help" || argument[1]?.map .ofUInt8 = some 'h' then .help
        else .misuse)
    else
      match addFile single files argument with
      | .ok files => readFiles single files rest
      | .error stop => .error stop

/-- The names of the commands. -/
def commandNames : List Bytes :=
  [.ofWord "tokenize", .ofWord "anonymize", .ofWord "filter", .ofWord "help"]

/-- Take the command with its files. -/
def readCommand : List Bytes → Except Stop Command
  | [] => .error .misuse
  | name :: rest =>
    if name = .ofWord "tokenize" then do
      match ← readFiles false [] rest with
      | [] => .error .misuse
      | files => .ok (.tokenize files)
    else if name = .ofWord "anonymize" then do
      match ← readFiles true [] rest with
      | [file] => .ok (.anonymize file)
      | _ => .error .misuse
    else if name = .ofWord "filter" then do
      match ← readFiles true [] rest with
      | [file] => .ok (.filter file)
      | _ => .error .misuse
    else if name = .ofWord "help" && rest.length ≤ 1 && rest.all commandNames.contains then
      .error .help
    else
      .error .misuse

/-! ## Invocations -/

/-- What is asked for by all arguments together. -/
structure Invocation where
  config : Option Path
  changes : List Settings.Change
  command : Command
  deriving DecidableEq, Repr

/-- The files of a command. -/
def Command.files : Command → List Path
  | tokenize files => files
  | anonymize file => [file]
  | filter file => [file]

/-- The files that are read: those of the command, and the settings file if there is one. -/
def Invocation.reads (invocation : Invocation) : List Path :=
  invocation.config.toList ++ invocation.command.files

/-- Read the arguments. -/
def read (arguments : List Bytes) : Except Stop Invocation := do
  let (options, rest) ← readOptions {} arguments
  let command ← readCommand rest
  pure ⟨options.config, options.changes, command⟩

end CommandLine

end SourceMask
