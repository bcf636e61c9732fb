import SourceMask.Proofs.Store.Written
import SourceMask.SourceFile.Session

/-!
# What a session knows of its file

The open file can be told from what was done in the session and how it was answered, without a look
at the file.  Its path, its dialect and its size are those of the last opening that succeeded.  Its
text is the last one that was loaded or assigned since, unless the text was taken away after that,
or could not be read.  What becomes of the store makes no difference to either.

A load answers the text that is kept.  Only if there is none, the store is asked for the text that
it holds at that moment.

Main results:

- Theorems `details_act` and `content_act`: what one action makes of the open file.
- Theorems `details_after` and `content_after`: what the past tells of the open file.
- Theorem `file_after_of_isForStore`: what is done to the store leaves the open file alone.
- Theorem `keepsFile_after`: how files are opened and texts are loaded at each point of a session.
-/

namespace SourceMask

namespace SourceFile

/-- What stays the same as long as a file is open. -/
structure Details where
  path : Path
  dialect : Dialect
  size : Nat
  deriving DecidableEq, Repr

/-- What stays the same while this file is open. -/
def details (file : SourceFile) : Details := ⟨file.path, file.dialect, file.size⟩

end SourceFile

namespace Session

open SourceFile (Details)

/-! ## The past of a session -/

/-- Something that was done: the action, the store that it met, and its answer. -/
structure Event where
  store : Store
  action : Action
  answer : Answer

namespace Event

/-- What is known of a file that was opened. -/
def opened? : Event → Option Details
  | ⟨store, .openFile path fallback, .done⟩ =>
    match store.size path with
    | .ok size => some ⟨path, SourceFile.dialectOf path fallback, size⟩
    | .error _ => none
  | _ => none

/-- The text that an event left with the open file, or that it left none. -/
def left? : Event → Option (Option Text)
  | ⟨_, .assign text, .done⟩ => some (some text)
  | ⟨_, .load, .text text⟩ => some (some text)
  | ⟨_, .load, .fault _⟩ => some none
  | ⟨_, .unload, .done⟩ => some none
  | ⟨_, .openFile _ _, .done⟩ => some none
  | _ => none

end Event

/-- What is done by an action. -/
def event (session : Session) (action : Action) : Event :=
  ⟨session.store, action, (session.act action).1⟩

/-- What is done by actions done in turn. -/
def events (session : Session) : List Action → List Event
  | [] => []
  | action :: rest => session.event action :: (session.act action).2.events rest

/-- The answers on record are those of the run. -/
theorem map_answer_events (session : Session) (actions : List Action) :
    (session.events actions).map Event.answer = (session.run actions).map Prod.fst := by
  induction actions generalizing session with
  | nil => rfl
  | cons action rest ih =>
    rw [events, run, List.map_cons, List.map_cons, ih]
    rfl

/-- Path, dialect and size, as the past tells them: those of the last opening that succeeded, or
else those at the start. -/
def lastDetails (session : Session) (actions : List Action) : Option Details :=
  ((session.events actions).reverse.findSome? Event.opened?).or
    (session.file.map SourceFile.details)

/-- The text that is kept, as the past tells it: what was left last, or else what was kept at the
start. -/
def lastText (session : Session) (actions : List Action) : Option Text :=
  ((session.events actions).reverse.findSome? Event.left?).getD
    (session.file.bind SourceFile.content)

/-! ## One action -/

variable {session : Session} {file : SourceFile} {path : Path} {text : Text} {fault : AccessFault}

/-- What is found at a path is opened, and its text is not read yet. -/
theorem act_openFile_of_size {size : Nat} (h : session.store.size path = .ok size)
    (fallback : Dialect) :
    session.act (.openFile path fallback) =
      (.done, { session with
        file := some ⟨path, SourceFile.dialectOf path fallback, size, none⟩ }) := by
  simp only [act, SourceFile.openIn, h]
  rfl

/-- If nothing is found at a path, the session goes on as it is. -/
theorem act_openFile_of_error (h : session.store.size path = .error fault) (fallback : Dialect) :
    session.act (.openFile path fallback) = (.fault fault, session) := by
  simp only [act, SourceFile.openIn, h]
  rfl

/-- A text that is kept is the answer, and the session goes on as it is. -/
theorem act_load_of_content (hfile : session.file = some file) (h : file.content = some text) :
    session.act .load = (.text text, session) := by
  rcases session with ⟨store, _⟩
  cases hfile
  simp only [act, useFile, SourceFile.load_of_content h]

/-- A text that is read is the answer, and it is kept. -/
theorem act_load_of_text (hfile : session.file = some file) (hcontent : file.content = none)
    (h : session.store.text file.path = .ok text) :
    session.act .load = (.text text, { session with file := some (file.withContent text) }) := by
  simp only [act, useFile, hfile, SourceFile.load, hcontent, h, SourceFile.withContent]

/-- If there is no text to be read, the session goes on as it is. -/
theorem act_load_of_error (hfile : session.file = some file) (hcontent : file.content = none)
    (h : session.store.text file.path = .error fault) :
    session.act .load = (.fault fault, session) := by
  rcases session with ⟨store, _⟩
  cases hfile
  simp only [act, useFile, SourceFile.load, hcontent, h]

/-- Whether an action is done to the store and not to the open file. -/
def Action.isForStore : Action → Bool
  | .write .. | .makeDirectory _ | .remove _ => true
  | .openFile .. | .load | .unload | .assign _ => false

/-- What is done to the store leaves the open file alone. -/
theorem file_useStore (session : Session) (store : Except AccessFault Store) :
    (session.useStore store).2.file = session.file := by
  cases store <;> rfl

/-- A write leaves the open file alone, whether it is refused or not. -/
theorem file_useWritten (session : Session) (written : Option Refusal × Store) :
    (session.useWritten written).2.file = session.file := by
  rcases written with ⟨_ | refusal, store⟩ <;> rfl

theorem file_act_of_isForStore {action : Action} (h : action.isForStore = true) :
    (session.act action).2.file = session.file := by
  cases action with
  | write path bytes => exact file_useWritten session _
  | makeDirectory path => exact file_useStore session _
  | remove path => exact file_useStore session _
  | openFile path fallback => cases h
  | load => cases h
  | unload => cases h
  | assign text => cases h

/-- A load does not change path, dialect and size, and leaves the text that it answers. -/
theorem file_act_load (hfile : session.file = some file) :
    ∃ content, (session.act .load).2.file = some { file with content := content } ∧
      (session.event .load).left? = some content := by
  cases hcontent : file.content with
  | some text =>
    refine ⟨some text, ?_, ?_⟩
    · rw [act_load_of_content hfile hcontent, hfile, ← hcontent]
    · rw [event, act_load_of_content hfile hcontent]
      rfl
  | none =>
    cases htext : session.store.text file.path with
    | ok text =>
      refine ⟨some text, ?_, ?_⟩
      · rw [act_load_of_text hfile hcontent htext]
        rfl
      · rw [event, act_load_of_text hfile hcontent htext]
        rfl
    | error fault =>
      refine ⟨none, ?_, ?_⟩
      · rw [act_load_of_error hfile hcontent htext, hfile, ← hcontent]
      · rw [event, act_load_of_error hfile hcontent htext]
        rfl

/-- Path, dialect and size change only if a file is opened. -/
theorem details_act (session : Session) (action : Action) :
    (session.act action).2.file.map SourceFile.details =
      (session.event action).opened?.or (session.file.map SourceFile.details) := by
  cases action with
  | openFile path fallback =>
    cases hsize : session.store.size path with
    | ok size =>
      rw [event, act_openFile_of_size hsize]
      simp only [Event.opened?, hsize]
      rfl
    | error fault =>
      rw [event, act_openFile_of_error hsize]
      rfl
  | load =>
    rcases session with ⟨store, _ | file⟩
    · rfl
    · have hopen : (⟨store, some file⟩ : Session).file = some file := rfl
      rcases file_act_load hopen with ⟨content, hfile, -⟩
      rw [hfile]
      rfl
  | unload => rcases session with ⟨store, _ | file⟩ <;> rfl
  | assign text => rcases session with ⟨store, _ | file⟩ <;> rfl
  | write path bytes =>
    rw [file_act_of_isForStore rfl]
    rfl
  | makeDirectory path =>
    rw [file_act_of_isForStore rfl]
    rfl
  | remove path =>
    rw [file_act_of_isForStore rfl]
    rfl

/-- The text changes only if an event leaves another one, or none. -/
theorem content_act (session : Session) (action : Action) :
    (session.act action).2.file.bind SourceFile.content =
      (session.event action).left?.getD (session.file.bind SourceFile.content) := by
  cases action with
  | openFile path fallback =>
    cases hsize : session.store.size path with
    | ok size =>
      rw [event, act_openFile_of_size hsize]
      rfl
    | error fault =>
      rw [event, act_openFile_of_error hsize]
      rfl
  | load =>
    rcases session with ⟨store, _ | file⟩
    · rfl
    · have hopen : (⟨store, some file⟩ : Session).file = some file := rfl
      rcases file_act_load hopen with ⟨content, hfile, hleft⟩
      rw [hfile, hleft]
      rfl
  | unload => rcases session with ⟨store, _ | file⟩ <;> rfl
  | assign text => rcases session with ⟨store, _ | file⟩ <;> rfl
  | write path bytes =>
    rw [file_act_of_isForStore rfl]
    rfl
  | makeDirectory path =>
    rw [file_act_of_isForStore rfl]
    rfl
  | remove path =>
    rw [file_act_of_isForStore rfl]
    rfl

/-! ## All actions -/

/-- Path, dialect and size are those that the past tells. -/
theorem details_after (session : Session) (actions : List Action) :
    (session.after actions).file.map SourceFile.details = session.lastDetails actions := by
  induction actions generalizing session with
  | nil => rfl
  | cons action rest ih =>
    have hrest : (session.after (action :: rest)).file.map SourceFile.details =
        (session.act action).2.lastDetails rest := ih (session.act action).2
    rw [hrest, lastDetails, lastDetails, events, List.reverse_cons, List.findSome?_append,
      details_act, Option.or_assoc]
    simp

/-- The text is the one that the past tells. -/
theorem content_after (session : Session) (actions : List Action) :
    (session.after actions).file.bind SourceFile.content = session.lastText actions := by
  induction actions generalizing session with
  | nil => rfl
  | cons action rest ih =>
    have hrest : (session.after (action :: rest)).file.bind SourceFile.content =
        (session.act action).2.lastText rest := ih (session.act action).2
    rw [hrest, lastText, lastText, events, List.reverse_cons, List.findSome?_append, content_act]
    cases (((session.act action).2.events rest).reverse).findSome? Event.left? <;> simp

/-- What is done to the store leaves the open file alone. -/
theorem file_after_of_isForStore {changes : List Action}
    (h : ∀ action ∈ changes, action.isForStore = true) :
    (session.after changes).file = session.file := by
  induction changes generalizing session with
  | nil => rfl
  | cons action rest ih =>
    have hrest : (session.after (action :: rest)).file = (session.act action).2.file :=
      ih fun other hother => h other (List.mem_cons_of_mem action hother)
    rw [hrest, file_act_of_isForStore (h action List.mem_cons_self)]

theorem after_append (session : Session) (first second : List Action) :
    session.after (first ++ second) = (session.after first).after second :=
  List.foldl_append

/-! ## Each point of a session -/

/-- How files are opened and texts are loaded at the point of a session that some actions lead
to. -/
structure KeepsFile (session : Session) (actions : List Action) : Prop where
  /-- Path, dialect and size are those of the last opening that succeeded. -/
  details : (session.after actions).file.map SourceFile.details = session.lastDetails actions
  /-- The text is what was left last. -/
  content : (session.after actions).file.bind SourceFile.content = session.lastText actions
  /-- What stands at a path is opened.  Its size is taken at that moment, and its text is not
  read. -/
  opens : ∀ path fallback found, (session.after actions).store.find path = .ok found →
    ∃ size, (session.after actions).act (.openFile path fallback) =
        (.done, { session.after actions with
          file := some ⟨path, SourceFile.dialectOf path fallback, size, none⟩ }) ∧
      ∀ bytes, found = .file bytes → size = bytes.size
  /-- If nothing is found at a path, the file that is open stays as it is. -/
  failsToOpen : ∀ path fallback fault, (session.after actions).store.find path = .error fault →
    (session.after actions).act (.openFile path fallback) = (.fault fault, session.after actions)
  /-- A text that is kept is loaded, whatever has been done to the store meanwhile. -/
  loadsKept : ∀ text, session.lastText actions = some text →
    ∀ changes, (∀ action ∈ changes, action.isForStore = true) →
      (session.after (actions ++ changes)).act .load =
        (.text text, session.after (actions ++ changes))
  /-- If none is kept, the text is loaded that the store holds at that moment, and it is kept. -/
  loadsStored : ∀ details, session.lastDetails actions = some details →
    session.lastText actions = none →
      ∀ text, (session.after actions).store.text details.path = .ok text →
        ∃ file, (session.after actions).act .load =
            (.text text, { session.after actions with file := some file }) ∧
          file.details = details ∧ file.content = some text
  /-- A load fails exactly if no text is kept and the store holds none. -/
  failsToLoad : ∀ details fault, session.lastDetails actions = some details →
    (((session.after actions).act .load).1 = .fault fault ↔
      session.lastText actions = none ∧
        (session.after actions).store.Unreadable details.path fault)
  /-- A load that fails leaves all as it is. -/
  leaves : ∀ fault, ((session.after actions).act .load).1 = .fault fault →
    ((session.after actions).act .load).2 = session.after actions
  /-- After a load that failed, another one reads what the store holds by then. -/
  recovers : ∀ details fault, session.lastDetails actions = some details →
    ((session.after actions).act .load).1 = .fault fault →
      ∀ changes, (∀ action ∈ changes, action.isForStore = true) →
        ∀ text, (session.after (actions ++ .load :: changes)).store.text details.path = .ok text →
          ((session.after (actions ++ .load :: changes)).act .load).1 = .text text
  /-- What is written is found at its path from then on, unless a device took it. -/
  writes : ∀ path bytes, ((session.after actions).act (.write path bytes)).1 = .done →
    (session.after (actions ++ [.write path bytes])).store.find path = .ok (.file bytes) ∨
      ∃ device, (session.after (actions ++ [.write path bytes])).store.find path =
        .ok (.device device)
  /-- What is removed is not found any more. -/
  removes : ∀ path, ((session.after actions).act (.remove path)).1 = .done →
    (session.after (actions ++ [.remove path])).store.find path = .error .notFound

/-- The file that the past tells of. -/
theorem exists_file_of_lastDetails {actions : List Action} {details : Details}
    (h : session.lastDetails actions = some details) :
    ∃ file, (session.after actions).file = some file ∧ file.details = details ∧
      file.content = session.lastText actions := by
  rw [← details_after, Option.map_eq_some_iff] at h
  rcases h with ⟨file, hfile, hdetails⟩
  refine ⟨file, hfile, hdetails, ?_⟩
  rw [← content_after, hfile]
  rfl

/-- A text that is kept is loaded, whatever has been done to the store meanwhile. -/
theorem act_load_of_lastText {actions changes : List Action}
    (h : session.lastText actions = some text)
    (hchanges : ∀ action ∈ changes, action.isForStore = true) :
    (session.after (actions ++ changes)).act .load =
      (.text text, session.after (actions ++ changes)) := by
  rw [← content_after, Option.bind_eq_some_iff] at h
  rcases h with ⟨file, hfile, hcontent⟩
  refine act_load_of_content ?_ hcontent
  rw [after_append, file_after_of_isForStore hchanges, hfile]

/-- A load fails only if a file is open that has no text, and there is none to be read. -/
theorem exists_of_act_load_fault (h : (session.act .load).1 = .fault fault) :
    ∃ file, session.file = some file ∧ file.content = none ∧
      session.store.text file.path = .error fault := by
  cases hfile : session.file with
  | none => simp [act, useFile, hfile] at h
  | some file =>
    refine ⟨file, rfl, ?_⟩
    cases hcontent : file.content with
    | some text =>
      rw [act_load_of_content hfile hcontent] at h
      cases h
    | none =>
      cases htext : session.store.text file.path with
      | ok text =>
        rw [act_load_of_text hfile hcontent htext] at h
        cases h
      | error fault' =>
        rw [act_load_of_error hfile hcontent htext] at h
        cases h
        exact ⟨rfl, rfl⟩

/-- A load that fails leaves all as it is. -/
theorem act_load_of_fault (h : (session.act .load).1 = .fault fault) :
    session.act .load = (.fault fault, session) := by
  rcases exists_of_act_load_fault h with ⟨file, hfile, hcontent, htext⟩
  exact act_load_of_error hfile hcontent htext

/-- After a load that failed, another one reads what the store holds by then. -/
theorem act_load_after_fault (h : (session.act .load).1 = .fault fault)
    (hfile : session.file = some file) {changes : List Action}
    (hchanges : ∀ action ∈ changes, action.isForStore = true)
    (htext : (session.after (.load :: changes)).store.text file.path = .ok text) :
    ((session.after (.load :: changes)).act .load).1 = .text text := by
  have hafter : session.after (.load :: changes) = session.after changes :=
    congrArg (Session.after · changes) (congrArg Prod.snd (act_load_of_fault h))
  rcases exists_of_act_load_fault h with ⟨other, hother, hcontent, -⟩
  rw [hfile] at hother
  cases hother
  rw [hafter] at htext ⊢
  have hlater : (session.after changes).file = some file := by
    rw [file_after_of_isForStore hchanges, hfile]
  rw [act_load_of_text hlater hcontent htext]

/-- What is written is found at its path from then on, unless a device took it. -/
theorem find_of_act_write {bytes : ByteArray}
    (h : (session.act (.write path bytes)).1 = .done) :
    (session.act (.write path bytes)).2.store.find path = .ok (.file bytes) ∨
      ∃ device, (session.act (.write path bytes)).2.store.find path = .ok (.device device) := by
  cases hsupply : session.store.supply path bytes with
  | mk refusal store =>
    cases refusal with
    | some refusal => simp [act, useWritten, hsupply] at h
    | none =>
      simp only [act, useWritten, hsupply]
      exact Store.find_of_supply hsupply

/-- What is removed is not found any more. -/
theorem find_of_act_remove (h : (session.act (.remove path)).1 = .done) :
    (session.act (.remove path)).2.store.find path = .error .notFound := by
  cases hremove : session.store.remove path with
  | error fault => simp [act, useStore, hremove] at h
  | ok store =>
    simp only [act, useStore, hremove]
    exact Store.find_of_remove hremove

/-- A session knows its file at each point: which file was opened last, and which text of it is
kept. -/
theorem keepsFile_after (session : Session) (actions : List Action) :
    session.KeepsFile actions where
  details := details_after session actions
  content := content_after session actions
  opens := by
    intro path fallback found hfound
    rcases Store.exists_size_of_find hfound with ⟨size, hsize, hbytes⟩
    exact ⟨size, act_openFile_of_size hsize fallback, hbytes⟩
  failsToOpen := by
    intro path fallback fault hfault
    exact act_openFile_of_error (Store.size_of_find_error hfault) fallback
  loadsKept := by
    intro text htext changes hchanges
    exact act_load_of_lastText htext hchanges
  loadsStored := by
    intro details hdetails hnone text htext
    rcases exists_file_of_lastDetails hdetails with ⟨file, hfile, rfl, hcontent⟩
    exact ⟨file.withContent text, act_load_of_text hfile (hcontent.trans hnone) htext, rfl, rfl⟩
  failsToLoad := by
    intro details fault hdetails
    rcases exists_file_of_lastDetails hdetails with ⟨file, hfile, rfl, hcontent⟩
    rw [← hcontent, ← Store.text_eq_error_iff]
    constructor
    · intro hfault
      rcases exists_of_act_load_fault hfault with ⟨other, hother, hnone, htext⟩
      rw [hfile] at hother
      cases hother
      exact ⟨hnone, htext⟩
    · rintro ⟨hnone, htext⟩
      rw [act_load_of_error hfile hnone htext]
  leaves := by
    intro fault hfault
    rw [act_load_of_fault hfault]
  recovers := by
    intro details fault hdetails hfault changes hchanges text htext
    rcases exists_file_of_lastDetails hdetails with ⟨file, hfile, rfl, -⟩
    rw [after_append] at htext ⊢
    exact act_load_after_fault hfault hfile hchanges htext
  writes := by
    intro path bytes hdone
    rw [after_append]
    exact find_of_act_write hdone
  removes := by
    intro path hdone
    rw [after_append]
    exact find_of_act_remove hdone

/-- A text that could not be read is asked for again, and one that was read outlives its file. -/
example :
    ((start (.startingAt [.ofWord "w"])).run
      [.write (.ofWord "a") "x".toUTF8, .openFile (.ofWord "a") .tsx, .remove (.ofWord "a"), .load,
        .write (.ofWord "a") "let".toUTF8, .load, .remove (.ofWord "a"), .load, .unload,
        .load]).map Prod.fst =
      [.done, .done, .done, .fault .notFound, .done, .text "let".toList, .done,
        .text "let".toList, .done, .fault .notFound] := by
  cbv

end Session

end SourceMask
