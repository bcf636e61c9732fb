import SourceMask.Failure
import SourceMask.Path

/-!
# Stores

A store holds files and directories by the names that lead to them from the root.  One of its
places is the working directory; it and everything above it are directories for good.

All that stands in a store can be read.  What can be written is not for the store to say: a place
may take one text and refuse another, for lack of room or for reasons of its own, and so may the
standard output.  Both are given with the store, as functions that nothing is assumed of.

Main results:

- Theorem `content?_put_self`: what was put at a place stands there.
- Theorem `content?_put_of_ne`: putting something at one place leaves every other place alone.
-/

namespace SourceMask

/-- A device stands where a file could stand, and does something of its own with what is written
to it.  Nothing can be read from it. -/
inductive Device where
  /-- Forgets what is written to it. -/
  | sink
  /-- Shows what is written to it on the standard output. -/
  | display
  /-- Has room for nothing. -/
  | full
  deriving DecidableEq, Repr

/-- What stands at a place of a store. -/
inductive Content where
  | file (bytes : ByteArray)
  | directory
  | device (device : Device)

/-- A place, as the names that lead to it from the root. -/
abbrev Location := List Bytes

/-- Why bytes were not written as a whole. -/
structure Refusal where
  fault : AccessFault
  /-- The bytes that were written all the same, in place of what stood there before; `none` if what
  stood there was not touched. -/
  taken : Option ByteArray := none

/-- What was written all the same, as it is shown. -/
def Refusal.takenText (refusal : Refusal) : Text :=
  refusal.taken.elim [] fun bytes => Text.decodeLossy bytes.data.toList

/-- Files, directories and devices by their places, the working directory, and what is refused when
something is to be put out. -/
structure Store where
  home : Location
  entries : List (Location × Content)
  /-- Whether bytes are refused at a place, when the store holds some entries. -/
  refuses : List (Location × Content) → Location → ByteArray → Option Refusal :=
    fun _ _ _ => none
  /-- What the standard output shows of a text, and whether it takes the text without a fault.  Even
  then the part behind the last line break, which is held back until the end, can get lost. -/
  prints : Text → Text × Bool := fun text => (text, true)

namespace Store

/-- The devices by their places. -/
def devices : List (Location × Content) :=
  [([.ofWord "dev"], .directory),
    ([.ofWord "dev", .ofWord "null"], .device .sink),
    ([.ofWord "dev", .ofWord "stdout"], .device .display),
    ([.ofWord "dev", .ofWord "full"], .device .full)]

/-- The store with an empty working directory, what leads to it, and the devices.  Everything else
takes what is written to it. -/
def startingAt (home : Location) : Store := { home, entries := devices }

/-- What stands at a place.  The working directory and what leads to it are always there. -/
def content? (store : Store) (location : Location) : Option Content :=
  if location.isPrefixOf store.home then some .directory else store.entries.lookup location

/-- Put something at a place. -/
def put (store : Store) (location : Location) (content : Content) : Store :=
  { store with
    entries := (location, content) :: store.entries.filter fun entry => entry.1 ≠ location }

/-- Take away what stands at a place. -/
def erase (store : Store) (location : Location) : Store :=
  { store with entries := store.entries.filter fun entry => entry.1 ≠ location }

/-- What was put at a place stands there. -/
theorem content?_put_self (store : Store) {location : Location}
    (h : location.isPrefixOf store.home = false) (content : Content) :
    (store.put location content).content? location = some content := by
  simp [content?, put, h]

/-- Looking up a place among entries at other places. -/
theorem lookup_filter_ne {location other : Location} (h : other ≠ location)
    (entries : List (Location × Content)) :
    (entries.filter fun entry => entry.1 ≠ location).lookup other = entries.lookup other := by
  induction entries with
  | nil => rfl
  | cons entry rest ih =>
    obtain ⟨place, content⟩ := entry
    by_cases hplace : place = location
    · subst hplace
      have hne : (other == place) = false := by simpa using h
      simp [List.lookup_cons, hne, ← ih]
    · rw [List.filter_cons_of_pos (by simpa using hplace), List.lookup_cons, List.lookup_cons, ih]

/-- Putting something at one place leaves every other place alone. -/
theorem content?_put_of_ne (store : Store) {location other : Location} (h : other ≠ location)
    (content : Content) : (store.put location content).content? other = store.content? other := by
  have hne : (other == location) = false := by simpa using h
  simp only [content?, put, List.lookup_cons, hne]
  rw [lookup_filter_ne h]

end Store

end SourceMask
