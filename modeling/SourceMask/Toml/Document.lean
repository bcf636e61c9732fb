import SourceMask.Toml.Table

/-!
# TOML documents

A document is a sequence of lines: blank ones, headers in single or double brackets, and keys with
values, which may run over several lines.  Keys go into the table of the header above them.
-/

namespace SourceMask

namespace Toml

/-- A document as far as it has been read: all tables, and the path of the one at hand. -/
structure State where
  root : Entries
  current : List Text

namespace State

/-- The state in front of a document. -/
def start : State := ⟨[], []⟩

/-- Open the table of a header. -/
def enter? (state : State) (key : List Text) (openIn : Text → Entries → Option Entries) :
    Option State := do
  let name ← key.getLast?
  let root ← Entries.within? (openIn name) key.dropLast state.root
  pure ⟨root, key⟩

/-- Give a key of the table at hand its value. -/
def assign? (state : State) (key : List Text) (value : Data) : Option State := do
  let root ← Entries.within? (Entries.put? value none key) state.current state.root
  pure { state with root }

end State

/-! ## Lines -/

/-- Read a header and the rest of its line. -/
def header? (state : State) (text : Text) : Option (State × Text) :=
  match text with
  | '[' :: '[' :: rest => do
    let (key, rest) ← key? rest
    let rest ← lineEnd? (← mark? ']' (← mark? ']' rest))
    pure (← state.enter? key Entries.openNext?, rest)
  | '[' :: rest => do
    let (key, rest) ← key? rest
    let rest ← lineEnd? (← mark? ']' rest)
    pure (← state.enter? key Entries.openTable?, rest)
  | _ => none

/-- Read a key with its value and the rest of their line. -/
def assignment? (state : State) (text : Text) : Option (State × Text) := do
  let (key, rest) ← key? text
  let (value, rest) ← value? (skipBlanks (← mark? '=' rest))
  let rest ← lineEnd? rest
  pure (← state.assign? key value, rest)

/-- Read lines up to the end of a document.  The number bounds how many are read. -/
def lines? : Nat → State → Text → Option State
  | 0, _, _ => none
  | n + 1, state, text =>
    match skipLines text with
    | [] => some state
    | c :: rest => do
      let (state, rest) ←
        if c = '[' then header? state (c :: rest) else assignment? state (c :: rest)
      lines? n state rest

/-- The text without the mark of byte order that may stand at its start. -/
def skipOrderMark : Text → Text
  | '\uFEFF' :: rest => rest
  | text => text

/-- The data of a TOML document. -/
def read? (text : Text) : Option Data :=
  (lines? (text.length + 1) .start (skipOrderMark text)).map fun state =>
    .record (Item.entriesToData state.root)

end Toml

end SourceMask
