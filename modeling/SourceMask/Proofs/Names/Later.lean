import SourceMask.Proofs.Names.Register
import SourceMask.Proofs.Role.Place

/-!
# Placeholders in later sweeps

The roles are swept one after the other, and each sweep goes over the text that the one before it
left.  So what is written for a name in one sweep is looked at in all later ones.  It is a word that
starts with a low line.  No anchor has a low line in it, and neither an anchor nor a name of a
member starts in the middle of a word.  Hence only a name that starts at or in front of the
placeholder could be found there, and if this name ended in the middle of the placeholder, it would
not end well.  A finding could therefore take nothing less than the whole placeholder, as a part of
a name.

Main results:

- Theorem `hasPart_word`: a sweep passes over a placeholder that is in none of the names.
- Theorem `exists_keeps`: any number of sweeps pass over it.
- Theorem `keeps_of_found`: what one sweep writes is kept in all later ones.
-/

namespace SourceMask

/-! ## Placeholders in one sweep -/

namespace Lexicon

variable {lexicon : Lexicon}

/-- Where a word starts with a low line there is no anchor, and a name would have to end in the word
or have it as a part. -/
theorem findAt?_eq_none_of_lowLine (hnamed : lexicon.IsNamed) {letters : Text}
    (hword : ('_' :: letters).all Text.isAsciiName = true)
    (hnames : ∀ name ∈ lexicon.names, ¬('_' :: letters) <:+: name) (before : Option Char)
    (back : Text) : lexicon.findAt? before ('_' :: letters ++ back) = none := by
  cases hfind : lexicon.findAt? before ('_' :: letters ++ back) with
  | none => rfl
  | some finding =>
    exfalso
    rcases append_of_findAt? hfind with ⟨after, hafter⟩
    have hmem := name_mem_of_findAt? hfind
    rw [hafter] at hfind
    rcases isAnchor_of_findAt? hfind with ⟨hanchor, -, hends⟩
    rw [Finding.source, List.append_assoc] at hafter
    have hnil : finding.anchor = [] := Decidable.byContradiction fun hne =>
      Role.lowLine_notMem_of_isAnchor hanchor (mem_of_cons_eq_append hafter hne)
    rw [hnil, List.nil_append] at hafter
    have hfalse : endsWell ([] ++ finding.name) after = false :=
      endsWell_of_not_infix hword hafter (hnamed _ hmem) (hnames _ hmem)
    rw [List.nil_append, hends] at hfalse
    cases hfalse

/-- A sweep passes over every word that starts with a low line and is in none of the names. -/
theorem hasPart_word (hnamed : lexicon.IsNamed) {letters : Text}
    (hword : ('_' :: letters).all Text.isAsciiName = true)
    (hnames : ∀ name ∈ lexicon.names, ¬('_' :: letters) <:+: name) (front back : Text) :
    HasPart (lexicon.sweep (front ++ ('_' :: letters ++ back))) front
      (('_' :: letters).map .passed) back := by
  refine hasPart_passed hnamed (endsWithin_of_not_cut ?_ ?_) ?_
  · intro start first second name after _ _ hsecond hrest hanchor
    exact Role.lowLine_notMem_of_isAnchor hanchor
      (List.mem_append_right first (mem_of_cons_eq_append hrest hsecond))
  · intro start anchor first second after _ _ hsecond hrest hmem _
    exact endsWell_of_not_infix hword hrest hsecond (hnames _ hmem)
  · intro start c rest hsplit
    by_cases hstart : start = []
    · rw [hstart, List.nil_append] at hsplit
      rw [← hsplit]
      exact findAt?_eq_none_of_lowLine hnamed hword hnames _ back
    · rw [hsplit, List.all_append, List.all_cons, Bool.and_eq_true, Bool.and_eq_true] at hword
      have hstartWord : start.all Text.isWordChar = true := by
        rw [List.all_eq_true] at hword ⊢
        exact fun d hd => Text.isWordChar_of_isAsciiName (hword.1 d hd)
      exact findAt?_eq_none_of_word hnamed
        (Role.any_getLast?_append (Role.any_getLast?_of_all hstart hstartWord) front) hword.2.1

end Lexicon

/-! ## Placeholders in all later sweeps -/

namespace NameTable

open Lexicon

variable {table : NameTable} {role : Role}

/-- Mask the names of some roles, one role after the other. -/
def maskRoles (table : NameTable) (roles : List Role) (text : Text) : Text :=
  roles.foldl (fun text role => table.maskRole role text) text

/-- Whether the sweeps of some roles, one after the other, all pass over a text at its place.  What
stands in front of it and behind it is given for the start and for the end. -/
inductive Keeps (table : NameTable) (kept : Text) : List Role → Text → Text → Text → Text → Prop
  /-- Without any sweep everything is kept. -/
  | done (front back : Text) : Keeps table kept [] front back front back
  /-- The next sweep goes on with what this one writes on both sides. -/
  | sweep {role : Role} {roles : List Role} {front back front' back' : Text}
      {earlier later : List Piece}
      (hpieces : table.pieces role (front ++ (kept ++ back)) =
        earlier ++ (kept.map .passed ++ later))
      (hfront : earlier.flatMap Piece.source = front)
      (hback : later.flatMap Piece.source = back)
      (hrest : Keeps table kept roles (earlier.flatMap (table.render role))
        (later.flatMap (table.render role)) front' back') :
      Keeps table kept (role :: roles) front back front' back'

/-- What is passed over is written as it is. -/
theorem render_passed (table : NameTable) (role : Role) (kept : Text) :
    (kept.map .passed).flatMap (table.render role) = kept := by
  rw [List.flatMap_map]
  exact List.flatMap_singleton' kept

/-- Recorded names make a lexicon without the empty name. -/
theorem isNamed_lexicon (h : table.IsRecorded) (hne : table.ofRole role ≠ []) :
    (table.lexicon role).IsNamed := by
  intro name hname
  rcases exists_entry_of_mem_lexicon hne hname with ⟨entry, hentry, -, rfl⟩
  exact (h entry hentry).1

/-- The sweep of any role passes over a placeholder that is in none of the names. -/
theorem hasPart_placeholder (h : table.IsRecorded) {entry : NameEntry}
    (hentry : entry ∈ table.entries)
    (hnames : ∀ other ∈ table.entries, ¬entry.placeholder <:+: other.name) (role : Role)
    (front back : Text) :
    HasPart (table.pieces role (front ++ (entry.placeholder ++ back))) front
      (entry.placeholder.map .passed) back := by
  by_cases hne : table.ofRole role = []
  · rw [pieces, if_pos hne, List.map_append, List.map_append]
    refine ⟨front.map .passed, back.map .passed, rfl, ?_, ?_⟩
    · rw [List.flatMap_map]
      exact List.flatMap_singleton' front
    · rw [List.flatMap_map]
      exact List.flatMap_singleton' back
  · rw [pieces, if_neg hne]
    rcases h entry hentry with ⟨-, index, hindex⟩
    rcases entry.role.exists_placeholder_eq index with ⟨letters, hplaceholder, hletters⟩
    have hword : ('_' :: letters).all Text.isAsciiName = true := by
      rw [List.all_cons, hletters]
      rfl
    rw [hindex, hplaceholder] at hnames ⊢
    refine hasPart_word (isNamed_lexicon h hne) hword ?_ front back
    intro name hname
    rcases exists_entry_of_mem_lexicon hne hname with ⟨other, hother, -, rfl⟩
    exact hnames other hother

/-- Any number of sweeps pass over a placeholder that is in none of the names. -/
theorem exists_keeps (h : table.IsRecorded) {entry : NameEntry} (hentry : entry ∈ table.entries)
    (hnames : ∀ other ∈ table.entries, ¬entry.placeholder <:+: other.name) (roles : List Role)
    (front back : Text) :
    ∃ front' back', table.Keeps entry.placeholder roles front back front' back' ∧
      table.maskRoles roles (front ++ (entry.placeholder ++ back)) =
        front' ++ (entry.placeholder ++ back') := by
  induction roles generalizing front back with
  | nil => exact ⟨front, back, .done front back, rfl⟩
  | cons role roles ih =>
    rcases hasPart_placeholder h hentry hnames role front back with
      ⟨earlier, later, hpieces, hfront, hback⟩
    have hmask : table.maskRole role (front ++ (entry.placeholder ++ back)) =
        earlier.flatMap (table.render role) ++
          (entry.placeholder ++ later.flatMap (table.render role)) := by
      rw [maskRole_eq_render, hpieces, List.flatMap_append, List.flatMap_append, render_passed]
    rcases ih (earlier.flatMap (table.render role)) (later.flatMap (table.render role)) with
      ⟨front', back', hkeeps, hrest⟩
    refine ⟨front', back', .sweep hpieces hfront hback hkeeps, ?_⟩
    rw [maskRoles, List.foldl_cons, hmask]
    exact hrest

/-- A finding is written with the placeholder of an entry of its name. -/
theorem exists_entry_of_found {text : Text} {front back : List Piece} {finding : Finding}
    (h : table.pieces role text = front ++ .found finding :: back) :
    ∃ entry ∈ table.ofRole role, entry.name = finding.name ∧
      table.render role (.found finding) = finding.anchor ++ entry.placeholder := by
  have hfound : .found finding ∈ table.pieces role text := by
    rw [h]
    exact List.mem_append_right front List.mem_cons_self
  have hne : table.ofRole role ≠ [] := fun hnil => not_found_of_nil hnil hfound
  rw [pieces, if_neg hne] at hfound
  exact render_found (exists_entry_of_mem_lexicon hne (name_mem_of_mem_sweepFrom hfound))

/-- If no placeholder is a part of a name, then every placeholder that the sweep of one role writes
is kept at its place by the sweeps of all later roles. -/
theorem keeps_of_found {calls : List (Role × Text)}
    (hnames : ∀ entry ∈ (empty.insertAll calls).entries,
      ∀ other ∈ (empty.insertAll calls).entries, ¬entry.placeholder <:+: other.name)
    {earlierRoles laterRoles : List Role}
    (horder : Role.maskingOrder = earlierRoles ++ role :: laterRoles) {text : Text}
    {front back : List Piece} {finding : Finding}
    (hpieces : (empty.insertAll calls).pieces role
      ((empty.insertAll calls).maskRoles earlierRoles text) = front ++ .found finding :: back) :
    ∃ entry ∈ (empty.insertAll calls).ofRole role, entry.name = finding.name ∧
      (empty.insertAll calls).render role (.found finding) = finding.anchor ++ entry.placeholder ∧
      ∃ front' back', (empty.insertAll calls).Keeps entry.placeholder laterRoles
          (front.flatMap ((empty.insertAll calls).render role) ++ finding.anchor)
          (back.flatMap ((empty.insertAll calls).render role)) front' back' ∧
        (empty.insertAll calls).mask text = front' ++ (entry.placeholder ++ back') := by
  have hrecorded : (empty.insertAll calls).IsRecorded :=
    insertAll_induction isRecorded_empty (fun _ role name h => isRecorded_insert h role name) calls
  rcases exists_entry_of_found hpieces with ⟨entry, hentry, hname, hrender⟩
  have hmem := (List.mem_filter.mp hentry).1
  rcases exists_keeps hrecorded hmem (hnames entry hmem) laterRoles
    (front.flatMap ((empty.insertAll calls).render role) ++ finding.anchor)
    (back.flatMap ((empty.insertAll calls).render role)) with ⟨front', back', hkeeps, hlater⟩
  refine ⟨entry, hentry, hname, hrender, front', back', hkeeps, ?_⟩
  rw [mask, horder, List.foldl_append, List.foldl_cons, ← maskRoles, ← maskRoles,
    maskRole_eq_render, hpieces, List.flatMap_append, List.flatMap_cons, hrender, ← hlater,
    List.append_assoc, List.append_assoc]

/-- A function and a variable of one name, and a property that is spelled like a part of a
placeholder. -/
def sharedNames : List (Role × Text) :=
  [(.functionName, ['f']), (.propertyName, "function".toList), (.variableName, ['f'])]

/-- What is written for the function stays at its place, although what stands in front of it and
behind it is exchanged later. -/
theorem keeps_of_found_sharedNames :
    (∀ entry ∈ (empty.insertAll sharedNames).entries,
        ∀ other ∈ (empty.insertAll sharedNames).entries, ¬entry.placeholder <:+: other.name) ∧
      (empty.insertAll sharedNames).pieces .functionName
          ((empty.insertAll sharedNames).maskRoles [.className]
            "function f(f) {f.function}".toList) =
        [] ++ .found ⟨"function ".toList, ['f']⟩ :: "(f) {f.function}".toList.map .passed ∧
      (∃ front' back', (empty.insertAll sharedNames).Keeps "_function_".toList
          [.methodName, .propertyName, .variableName] "function ".toList "(f) {f.function}".toList
          front' back' ∧
        (empty.insertAll sharedNames).mask "function f(f) {f.function}".toList =
          front' ++ ("_function_".toList ++ back')) ∧
      (empty.insertAll sharedNames).mask "function f(f) {f.function}".toList =
        "_property0_ _function_(_variable0_) {_variable0_._property0_}".toList := by
  have hnames : ∀ entry ∈ (empty.insertAll sharedNames).entries,
      ∀ other ∈ (empty.insertAll sharedNames).entries, ¬entry.placeholder <:+: other.name := by
    decide +kernel
  have hpieces : (empty.insertAll sharedNames).pieces .functionName
        ((empty.insertAll sharedNames).maskRoles [.className]
          "function f(f) {f.function}".toList) =
      [] ++ .found ⟨"function ".toList, ['f']⟩ :: "(f) {f.function}".toList.map .passed := by
    decide +kernel
  have hplaceholder : ∀ entry ∈ (empty.insertAll sharedNames).ofRole .functionName,
      entry.placeholder = "_function_".toList := by
    decide +kernel
  rcases keeps_of_found hnames rfl hpieces with ⟨entry, hentry, -, -, hkeeps⟩
  rw [hplaceholder entry hentry] at hkeeps
  exact ⟨hnames, hpieces, hkeeps, by decide +kernel⟩

end NameTable

end SourceMask
