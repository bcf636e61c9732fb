import SourceMask.Masking.Plan

/-!
# Names that are recorded

Tables of names grow by insertion only.  What holds of the empty table and is kept by every
insertion therefore holds of the names of every declaration.  In this way each recorded name is
seen to have some text and a placeholder of its role.

A sweep finds recorded names only, so it finds nothing in an empty text, and for every name that it
finds there is a placeholder.

Main results:

- Theorem `exists_placeholder_eq`: what placeholders are made of.
- Theorem `declaredNames_induction`: what insertions keep holds of the names of a declaration.
- Theorem `isRecorded_declaredNames`: the names of a declaration are not empty and have
  placeholders of their roles.
- Theorem `mask_nil`: masking makes nothing of the empty text.
-/

namespace SourceMask

/-! ## Names that a sweep finds -/

namespace Lexicon

/-- The name of a finding is one of those that are looked for. -/
theorem name_mem_of_findAt? {lexicon : Lexicon} {before : Option Char} {text : Text}
    {finding : Finding} (h : lexicon.findAt? before text = some finding) :
    finding.name ∈ lexicon.names := by
  rcases List.exists_of_findSome?_eq_some h with ⟨length, -, hlength⟩
  simp only [findBehind?, Option.map_eq_some_iff] at hlength
  rcases hlength with ⟨name, hname, rfl⟩
  exact List.mem_of_find?_eq_some hname

/-- The names that a sweep finds are among those that are looked for. -/
theorem name_mem_of_mem_sweepFrom {lexicon : Lexicon} {before : Option Char} {afresh : Bool}
    {text : Text} {finding : Finding}
    (h : .found finding ∈ lexicon.sweepFrom before afresh text) :
    finding.name ∈ lexicon.names := by
  fun_induction sweepFrom lexicon before afresh text with
  | case1 before =>
    rw [List.mem_map] at h
    rcases h with ⟨other, hother, heq⟩
    rw [Option.mem_toList] at hother
    cases heq
    exact name_mem_of_findAt? hother
  | case2 => simp at h
  | case3 before afresh c rest other hfind hempty ih =>
    rcases List.mem_append.mp h with h | h
    · cases afresh with
      | false => simp at h
      | true =>
        rw [if_pos rfl, List.mem_singleton] at h
        cases h
        exact name_mem_of_findAt? hfind
    · rcases List.mem_cons.mp h with heq | h
      · cases heq
      · exact ih h
  | case4 before afresh c rest other hfind hne ih =>
    rcases List.mem_cons.mp h with heq | h
    · cases heq
      exact name_mem_of_findAt? hfind
    · exact ih h
  | case5 before afresh c rest hfind ih =>
    rcases List.mem_cons.mp h with heq | h
    · cases heq
    · exact ih h

/-- A lexicon made of some names looks for these names. -/
theorem mem_names_ofNames {role : Role} {names : List Text} (hne : names ≠ []) {name : Text} :
    name ∈ (ofNames role names).names ↔ name ∈ names := by
  simp [ofNames, hne]

end Lexicon

/-! ## Placeholders -/

/-- A placeholder is a low line with ASCII name characters behind it. -/
theorem Role.exists_placeholder_eq (role : Role) (index : Nat) :
    ∃ rest, role.placeholder index = '_' :: rest ∧ rest.all Text.isAsciiName = true := by
  have hstem : ∃ word, role.stem = '_' :: word ∧ word.all Text.isAsciiName = true := by
    cases role <;> exact ⟨_, rfl, rfl⟩
  have hdigits : (Nat.toDigits 10 index).all Text.isAsciiName = true := by
    rw [List.all_eq_true]
    intro c hc
    have hdigit : c.isDigit = true := Nat.isDigit_of_mem_toDigits (by decide) (by decide) hc
    rw [Text.isAsciiName, hdigit, Bool.or_true]
    rfl
  rcases hstem with ⟨word, hstem, hword⟩
  refine ⟨word ++ (if role.isNumbered then Nat.toDigits 10 index else []) ++ ['_'], ?_, ?_⟩
  · rw [placeholder, hstem]
    rfl
  · rw [List.all_append, List.all_append, hword]
    split
    · rw [hdigits]
      rfl
    · rfl

/-! ## What insertions keep -/

namespace NameTable

/-- Every recorded name has some text, and its placeholder is one of its role. -/
def IsRecorded (table : NameTable) : Prop :=
  ∀ entry ∈ table.entries,
    entry.name ≠ [] ∧ ∃ index, entry.placeholder = entry.role.placeholder index

theorem isRecorded_empty : IsRecorded .empty := by
  intro entry hentry
  cases hentry

/-- An insertion records a name with some text and a placeholder of its role. -/
theorem isRecorded_insert {table : NameTable} (h : table.IsRecorded) (role : Role) (name : Text) :
    (table.insert role name).2.IsRecorded := by
  by_cases hname : name = []
  · rw [hname, insert_nil]
    exact h
  · cases hget : table.get? role name with
    | some placeholder =>
      rw [insert_of_get? hname hget]
      exact h
    | none =>
      rw [insert_of_get?_eq_none hname hget]
      intro entry hentry
      rcases List.mem_append.mp hentry with hentry | hentry
      · exact h entry hentry
      · rw [List.mem_singleton] at hentry
        subst hentry
        exact ⟨hname, table.counters.next role, rfl⟩

end NameTable

namespace Pass

variable {pass : Pass} {source : Text} {P : NameTable → Prop}

/-- What insertions keep is kept while the names of children are recorded. -/
theorem recordChildren_induction
    (hinsert : ∀ table role name, P table → P (table.insert role name).2)
    {table names : NameTable} {parent : Node} (h : P table)
    (hnames : pass.recordChildren source table parent = .ok names) : P names := by
  unfold recordChildren at hnames
  generalize parent.children = nodes at hnames
  induction nodes generalizing table with
  | nil =>
    cases hnames
    exact h
  | cons child rest ih =>
    rw [List.foldlM_cons] at hnames
    cases hchild : pass.recordName source parent.kind table child with
    | error fault =>
      rw [hchild] at hnames
      cases hnames
    | ok next =>
      rw [hchild] at hnames
      refine ih ?_ hnames
      unfold recordName at hchild
      cases hrole : pass.classify child.kind parent.kind child.field with
      | none =>
        rw [hrole] at hchild
        cases hchild
        exact h
      | some role =>
        rw [hrole] at hchild
        cases htext : textOf source child with
        | error fault =>
          rw [htext] at hchild
          cases hchild
        | ok name =>
          rw [htext] at hchild
          cases hchild
          exact hinsert table role name h

/-- What insertions keep is kept while names below open nodes are recorded. -/
theorem recordBelow_induction
    (hinsert : ∀ table role name, P table → P (table.insert role name).2)
    {table names : NameTable} {stack : List Node} (h : P table)
    (hnames : pass.recordBelow source table stack = .ok names) : P names := by
  fun_induction recordBelow pass source table stack with
  | case1 table =>
    cases hnames
    exact h
  | case2 => cases hnames
  | case3 table node others next hnext ih =>
    have hnextP : P next := recordChildren_induction hinsert h hnext
    exact ih hnextP hnames

/-- What holds of the empty table and is kept by insertions holds of the names of a declaration. -/
theorem declaredNames_induction (hempty : P .empty)
    (hinsert : ∀ table role name, P table → P (table.insert role name).2) {declaration : Node}
    {names : NameTable} (hnames : pass.declaredNames source declaration = .ok names) : P names :=
  recordBelow_induction hinsert hempty hnames

/-- The names of a declaration are not empty and have placeholders of their roles. -/
theorem isRecorded_declaredNames {declaration : Node} {names : NameTable}
    (hnames : pass.declaredNames source declaration = .ok names) : names.IsRecorded :=
  declaredNames_induction NameTable.isRecorded_empty
    (fun _ role name h => NameTable.isRecorded_insert h role name) hnames

end Pass

/-! ## Masking without effect -/

namespace NameTable

/-- The lexicon of the names that a table records in a role. -/
def lexicon (table : NameTable) (role : Role) : Lexicon :=
  .ofNames role ((table.ofRole role).map (·.name))

/-- A role without names is not swept. -/
theorem maskRole_of_nil {table : NameTable} {role : Role} (h : table.ofRole role = [])
    (text : Text) : table.maskRole role text = text := by
  simp only [maskRole, h, if_true]

/-- A role with names is swept for them. -/
theorem maskRole_of_ne {table : NameTable} {role : Role} (h : table.ofRole role ≠ [])
    (text : Text) :
    table.maskRole role text = ((table.lexicon role).sweep text).flatMap (table.render role) := by
  simp only [maskRole, h, if_false, lexicon]

/-- The lexicon of a role with names looks for recorded names. -/
theorem exists_entry_of_mem_lexicon {table : NameTable} {role : Role} (h : table.ofRole role ≠ [])
    {name : Text} (hname : name ∈ (table.lexicon role).names) :
    ∃ entry ∈ table.entries, entry.role = role ∧ entry.name = name := by
  rw [lexicon, Lexicon.mem_names_ofNames (by simpa using h), List.mem_map] at hname
  rcases hname with ⟨entry, hentry, rfl⟩
  rw [ofRole, List.mem_filter] at hentry
  exact ⟨entry, hentry.1, by simpa using hentry.2, rfl⟩

/-- What is looked up for a name is the placeholder of an entry with this name. -/
theorem exists_entry_of_get? {table : NameTable} {role : Role} {name placeholder : Text}
    (h : table.get? role name = some placeholder) :
    ∃ entry ∈ table.entries, entry.role = role ∧ entry.name = name ∧
      entry.placeholder = placeholder := by
  rw [get?, Option.map_eq_some_iff] at h
  rcases h with ⟨entry, hfind, hentry⟩
  have hfound := List.find?_some hfind
  rw [Bool.and_eq_true, decide_eq_true_eq, decide_eq_true_eq] at hfound
  exact ⟨entry, List.mem_of_find?_eq_some hfind, hfound.1, hfound.2, hentry⟩

/-- What every sweep keeps is kept by masking. -/
theorem mask_induction {table : NameTable} {text : Text} {P : Text → Prop} (h : P text)
    (hrole : ∀ role text, P text → P (table.maskRole role text)) : P (table.mask text) := by
  unfold mask
  generalize Role.maskingOrder = roles
  induction roles generalizing text with
  | nil => exact h
  | cons role rest ih => exact ih (hrole role text h)

/-- Without any name a text stays as it is. -/
theorem mask_of_isEmpty {table : NameTable} (h : table.isEmpty = true) (text : Text) :
    table.mask text = text := by
  refine mask_induction (P := fun result => result = text) rfl ?_
  rintro role _ rfl
  have hentries : table.ofRole role = [] := by
    rw [ofRole, List.isEmpty_iff.mp h, List.filter_nil]
  exact maskRole_of_nil hentries _

/-- Masking makes nothing of the empty text. -/
theorem mask_nil {table : NameTable} (h : table.IsRecorded) : table.mask [] = [] := by
  refine mask_induction (P := fun result => result = []) rfl ?_
  rintro role _ rfl
  by_cases hrole : table.ofRole role = []
  · exact maskRole_of_nil hrole []
  · have hnone : (table.lexicon role).findAt? none [] = none := by
      cases hfind : (table.lexicon role).findAt? none [] with
      | none => rfl
      | some finding =>
        rcases Lexicon.append_of_findAt? hfind with ⟨after, hafter⟩
        have hname : finding.name = [] := by
          simp only [Lexicon.Finding.source, List.append_assoc] at hafter
          exact (List.append_eq_nil_iff.mp (List.append_eq_nil_iff.mp hafter.symm).2).1
        rcases exists_entry_of_mem_lexicon hrole (Lexicon.name_mem_of_findAt? hfind) with
          ⟨entry, hentry, -, hentryName⟩
        exact absurd (hentryName.trans hname) (h entry hentry).1
    simp [maskRole_of_ne hrole, Lexicon.sweep, Lexicon.sweepFrom, hnone]

end NameTable

end SourceMask
