import SourceMask.CommandLine.Run
import SourceMask.Json.Reader
import SourceMask.Parser.Recorded

/-!
# The program

The outer layer reads the files that its arguments name into a store, runs the command on it, and
prints or writes what the run leaves.  Trees are read from beside the sources: those of a file stand
in a JSON document of the same name with `.trees.json` behind it, in the order in which the passes
ask for them.  Arguments reach this layer as texts, and so do the names that it hands to the system.
-/

namespace SourceMask

namespace Program

/-- What stands at a path on the disk. -/
def look (path : Path) : IO (Option Content) := do
  try
    let bytes ← IO.FS.readBinFile (String.ofList path.display)
    pure (some (.file bytes))
  catch fault =>
    match fault with
    | .noFileOrDirectory .. => pure none
    | _ => pure (some .directory)

/-- Take down what stands at a path and at its parents, as far as it is not known. -/
def survey (store : Store) (path : Path) : IO Store :=
  path.stages.foldlM
    (fun store stage => do
      match store.find stage with
      | .ok _ => pure store
      | .error _ =>
        match ← look stage with
        | some content => pure (store.note stage content)
        | none => pure store)
    store

/-- The store with the working directory of the program. -/
def home : IO Store := do
  let directory ← IO.currentDir
  pure (.startingAt (Path.parts (.ofText directory.toString.toList)))

/-- The trees on record for a file. -/
def treesBeside (path : Path) : IO (List Node) := do
  let some (.file bytes) ← look (path ++ .ofWord ".trees.json") | pure []
  let some text := String.fromUTF8? bytes | pure []
  match Json.read? text.toList with
  | some (.list trees) => pure ((trees.mapM Node.ofData?).getD [])
  | _ => pure []

/-- Bring what a run has written to the disk; the status is that of the run, if this succeeds. -/
def settle (result : CommandLine.Result) : IO UInt32 := do
  let status := UInt32.ofNat result.status
  IO.print (String.ofList result.stdout)
  match result.written with
  | none => pure status
  | some path =>
    match result.store.find path with
    | .ok (.file bytes) =>
      try
        IO.FS.writeBinFile (String.ofList path.display) bytes
        pure status
      catch _ =>
        pure 1
    | _ => pure status

/-- The part of the disk that an invocation deals with: what it reads, and where it writes. -/
def surveyAll (invocation : CommandLine.Invocation) : IO Store := do
  let store ← invocation.reads.foldlM survey (← home)
  match CommandLine.settingsOf store invocation with
  | .ok settings => settings.output.path.toList.foldlM survey store
  | .error _ => pure store

/-- Run the program. -/
def run (arguments : List String) : IO UInt32 := do
  let arguments := arguments.map fun argument => Text.encode argument.toList
  match CommandLine.read arguments with
  | .error _ => settle (CommandLine.run (.ofRecord []) (← home) arguments)
  | .ok invocation =>
    let store ← surveyAll invocation
    let record ← invocation.command.files.mapM fun path => do
      pure (path, ← treesBeside path)
    settle (CommandLine.run (.ofRecord record) store arguments)

end Program

end SourceMask

/-- The program takes its arguments from the command line and answers with a status. -/
def main (arguments : List String) : IO UInt32 := SourceMask.Program.run arguments
