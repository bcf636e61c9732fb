import SourceMask.Role.Sweep

/-!
# Tables of declared names

While a declaration is read, each name that it declares is recorded together with its role and the
placeholder for it.  A name that is seen again in the same role keeps its first placeholder.  The
numbered roles are numbered on their own, each by a counter that the table keeps beside its
entries, in the order in which names are first seen.  Afterwards the text of the declaration is
masked: every role is swept once, declaration names first.

Main results:

- Theorem `next_increment`: only the counter of the role itself goes on.
- Theorem `get?_insert_self`: what an insertion answers is found from then on.
- Theorem `insert_of_get?`: inserting a recorded name changes nothing.
-/

namespace SourceMask

/-- A declared name, its role, and what is written instead of it. -/
structure NameEntry where
  role : Role
  name : Text
  placeholder : Text
  deriving DecidableEq, Repr

/-! ## Counters -/

/-- The next number of each numbered role. -/
structure RoleCounters where
  nextProperty : Nat := 0
  nextVariable : Nat := 0
  deriving DecidableEq, Repr

namespace RoleCounters

/-- The next number of a role; the roles that are not numbered stay at zero. -/
def next (counters : RoleCounters) : Role → Nat
  | .propertyName => counters.nextProperty
  | .variableName => counters.nextVariable
  | .className | .functionName | .methodName => 0

/-- The counters once the next number of a role is taken. -/
def increment (counters : RoleCounters) : Role → RoleCounters
  | .propertyName => { counters with nextProperty := counters.nextProperty + 1 }
  | .variableName => { counters with nextVariable := counters.nextVariable + 1 }
  | .className | .functionName | .methodName => counters

/-- Only the counter of the role itself goes on, and only if the role is numbered. -/
theorem next_increment (counters : RoleCounters) (role other : Role) :
    (counters.increment role).next other =
      if role.isNumbered = true ∧ role = other then counters.next other + 1
      else counters.next other := by
  cases role <;> cases other <;> rfl

end RoleCounters

/-- The declared names of one declaration, in the order in which they were first seen. -/
structure NameTable where
  entries : List NameEntry
  counters : RoleCounters
  deriving DecidableEq, Repr

namespace NameTable

/-! ## Recording names -/

/-- The table without any name. -/
def empty : NameTable := ⟨[], {}⟩

/-- Whether no name is recorded. -/
def isEmpty (table : NameTable) : Bool := table.entries.isEmpty

/-- How many names are recorded. -/
def size (table : NameTable) : Nat := table.entries.length

/-- The entries of one role. -/
def ofRole (table : NameTable) (role : Role) : List NameEntry :=
  table.entries.filter fun entry => entry.role = role

/-- The placeholder of a name in a role. -/
def get? (table : NameTable) (role : Role) (name : Text) : Option Text :=
  (table.entries.find? fun entry => entry.role = role && entry.name = name).map (·.placeholder)

/-- Record a name in a role, and answer its placeholder.  A name that is recorded already keeps the
placeholder that it has; the empty name is not recorded, and there is no placeholder for it. -/
def insert (table : NameTable) (role : Role) (name : Text) : Option Text × NameTable :=
  if name = [] then
    (none, table)
  else
    match table.get? role name with
    | some placeholder => (some placeholder, table)
    | none =>
      let placeholder := role.placeholder (table.counters.next role)
      (some placeholder,
        ⟨table.entries ++ [⟨role, name, placeholder⟩], table.counters.increment role⟩)

/-- The empty name is not recorded. -/
@[simp] theorem insert_nil (table : NameTable) (role : Role) :
    table.insert role [] = (none, table) := by
  simp [insert]

/-- Inserting a recorded name answers its placeholder and changes nothing. -/
theorem insert_of_get? {table : NameTable} {role : Role} {name placeholder : Text}
    (hname : name ≠ []) (h : table.get? role name = some placeholder) :
    table.insert role name = (some placeholder, table) := by
  simp [insert, hname, h]

/-- A new name takes the next number of its role. -/
theorem insert_of_get?_eq_none {table : NameTable} {role : Role} {name : Text} (hname : name ≠ [])
    (h : table.get? role name = none) :
    table.insert role name = (some (role.placeholder (table.counters.next role)),
      ⟨table.entries ++ [⟨role, name, role.placeholder (table.counters.next role)⟩],
        table.counters.increment role⟩) := by
  simp [insert, hname, h]

/-- What the insertion of a name answers is found for the name from then on. -/
theorem get?_insert_self {table : NameTable} {role : Role} {name : Text} (hname : name ≠ []) :
    (table.insert role name).2.get? role name = (table.insert role name).1 := by
  cases hget : table.get? role name with
  | some placeholder => rw [insert_of_get? hname hget, hget]
  | none =>
    have hfind : (table.entries.find? fun entry => entry.role = role && entry.name = name) =
        none := by
      simpa [get?] using hget
    rw [insert_of_get?_eq_none hname hget]
    simp [get?, List.find?_append, hfind]

/-! ## Masking -/

/-- What is written for a piece of a sweep: a found name gives way to its placeholder, and the
anchor in front of it stays. -/
def render (table : NameTable) (role : Role) : Lexicon.Piece → Text
  | .passed c => [c]
  | .found finding => finding.anchor ++ (table.get? role finding.name).getD finding.name

/-- Mask the names of one role in a text. -/
def maskRole (table : NameTable) (role : Role) (text : Text) : Text :=
  let entries := table.ofRole role
  if entries = [] then
    text
  else
    ((Lexicon.ofNames role (entries.map (·.name))).sweep text).flatMap (table.render role)

/-- Mask every recorded name in a text, one role after the other. -/
def mask (table : NameTable) (text : Text) : Text :=
  Role.maskingOrder.foldl (fun text role => table.maskRole role text) text

end NameTable

end SourceMask
