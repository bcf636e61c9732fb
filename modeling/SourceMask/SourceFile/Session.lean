import SourceMask.SourceFile

/-!
# Sessions

During a session source files are opened, read and changed in turn, while the store that they come
from may change as well.  At most one file is open at a time; opening another one takes its place.

Main results:

- Theorem `length_run`: each action has one answer.
- Theorem `run_append`: a session can be interrupted and taken up again.
-/

namespace SourceMask

/-- A store and the file that has been opened last. -/
structure Session where
  store : Store
  file : Option SourceFile

namespace Session

/-- What can be done during a session. -/
inductive Action where
  /-- Open a file, whose dialect is the given one unless its name tells. -/
  | openFile (path : Path) (fallback : Dialect)
  /-- Ask for the text of the open file. -/
  | load
  /-- Forget the text of the open file. -/
  | unload
  /-- Give a text to the open file, leaving the store alone. -/
  | assign (text : Text)
  /-- Write a file of the store. -/
  | write (path : Path) (bytes : ByteArray)
  /-- Make a directory of the store. -/
  | makeDirectory (path : Path)
  /-- Remove a file from the store. -/
  | remove (path : Path)

/-- How an action ends. -/
inductive Answer where
  | done
  | text (text : Text)
  | fault (fault : AccessFault)
  /-- The action needs an open file. -/
  | noFile
  deriving DecidableEq, Repr

/-- The session that starts with a store and no open file. -/
def start (store : Store) : Session := ⟨store, none⟩

/-- Do something with the open file. -/
def useFile (session : Session) (use : SourceFile → Answer × SourceFile) : Answer × Session :=
  match session.file with
  | some file => ((use file).1, { session with file := some (use file).2 })
  | none => (.noFile, session)

/-- Go on with a store, if there is one. -/
def useStore (session : Session) : Except AccessFault Store → Answer × Session
  | .ok store => (.done, { session with store })
  | .error fault => (.fault fault, session)

/-- Go on with the store that a write has left. -/
def useWritten (session : Session) : Option Refusal × Store → Answer × Session
  | (none, store) => (.done, { session with store })
  | (some refusal, store) => (.fault refusal.fault, { session with store })

/-- Do one action. -/
def act (session : Session) : Action → Answer × Session
  | .openFile path fallback =>
    match SourceFile.openIn session.store path fallback with
    | .ok file => (.done, { session with file := some file })
    | .error fault => (.fault fault, session)
  | .load =>
    session.useFile fun file =>
      match file.load session.store with
      | (.ok text, file) => (.text text, file)
      | (.error fault, file) => (.fault fault, file)
  | .unload => session.useFile fun file => (.done, file.unload)
  | .assign text => session.useFile fun file => (.done, file.withContent text)
  | .write path bytes => session.useWritten (session.store.supply path bytes)
  | .makeDirectory path => session.useStore (session.store.makeDirectories path)
  | .remove path => session.useStore (session.store.remove path)

/-- Do actions in turn, and say how each of them ends and what the session is then. -/
def run (session : Session) : List Action → List (Answer × Session)
  | [] => []
  | action :: rest => session.act action :: (session.act action).2.run rest

/-- The session after actions done in turn. -/
def after (session : Session) (actions : List Action) : Session :=
  actions.foldl (fun session action => (session.act action).2) session

/-- Each action has one answer. -/
@[simp] theorem length_run (session : Session) (actions : List Action) :
    (session.run actions).length = actions.length := by
  induction actions generalizing session with
  | nil => rfl
  | cons action rest ih => simp [run, ih]

/-- A session can be interrupted and taken up again. -/
theorem run_append (session : Session) (first second : List Action) :
    session.run (first ++ second) = session.run first ++ (session.after first).run second := by
  induction first generalizing session with
  | nil => rfl
  | cons action rest ih => simp [run, after, ih]

end Session

end SourceMask
