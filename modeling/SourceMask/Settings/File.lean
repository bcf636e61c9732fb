import SourceMask.Settings.Decode
import SourceMask.Store.Access
import SourceMask.Toml.Document

/-!
# Settings files

Settings are kept in TOML documents.
-/

namespace SourceMask

namespace Settings

/-- The settings that a TOML document describes. -/
def ofToml (text : Text) : Except Failure Settings :=
  match (Toml.read? text).bind (ofData? .toml) with
  | some settings => .ok settings
  | none => .error .badSettings

/-- The settings in the file that a path leads to. -/
def ofFile (store : Store) (path : Path) : Except Failure Settings := do
  ofToml (← (store.text path).mapError .access)

end Settings

end SourceMask
