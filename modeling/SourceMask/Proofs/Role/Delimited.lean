import SourceMask.Proofs.Names.Recorded
import SourceMask.Proofs.Role.Anchor

/-!
# Names that a sweep finds between their neighbours

A sweep looks at the characters before and behind a name before it takes it for a finding.  Word
boundaries are drawn by word characters, and the dollar sign is none although it belongs to
identifiers.  So a name that is found is a whole identifier, except that a dollar sign next to it or
at its ends may join it to more of one.  In front of a class name or a variable name not even that
can happen.

Main results:

- Theorem `findAt?_of_sweepFrom`: a finding of a sweep is what is found at its place.
- Theorem `isDelimited_of_findAt?`: a name that is found at a place is delimited.
- Theorem `isDelimited_of_pieces`: masking exchanges delimited names only.
-/

namespace SourceMask

/-! ## Names with dollar signs -/

namespace Text

/-- Whether a text has some characters, all of them ASCII letters, ASCII digits, low lines or dollar
signs. -/
def isAsciiIdentifier (text : Text) : Bool :=
  text ≠ [] && text.all fun c => isAsciiName c || c = '$'

variable {name : Text} {c : Char}

/-- Such a name has a first character. -/
theorem exists_cons_of_isAsciiIdentifier (h : isAsciiIdentifier name = true) :
    ∃ first rest, name = first :: rest := by
  cases name with
  | nil => cases h
  | cons first rest => exact ⟨first, rest, rfl⟩

theorem isAsciiIdentifier_ne_nil (h : isAsciiIdentifier name = true) : name ≠ [] := by
  rintro rfl
  cases h

/-- A character of such a name is a dollar sign, or a word character that may stand in names. -/
theorem eq_dollar_or_of_mem (h : isAsciiIdentifier name = true) (hmem : c ∈ name) :
    c = '$' ∨ isWordChar c = true ∧ isNameChar c = true := by
  rw [isAsciiIdentifier, Bool.and_eq_true, List.all_eq_true] at h
  have hc := h.2 c hmem
  rw [Bool.or_eq_true, decide_eq_true_eq] at hc
  rcases hc with hc | hc
  · exact .inr ⟨isWordChar_of_isAsciiName hc, isNameChar_of_isAsciiName hc⟩
  · exact .inl hc

/-- Such a name is made of identifier characters. -/
theorem isIdentifierChar_of_mem (h : isAsciiIdentifier name = true) (hmem : c ∈ name) :
    isIdentifierChar c = true := by
  rw [isIdentifierChar, Bool.or_eq_true, decide_eq_true_eq]
  exact (eq_dollar_or_of_mem h hmem).symm.imp_left And.left

theorem all_isIdentifierChar (h : isAsciiIdentifier name = true) :
    name.all isIdentifierChar = true := by
  rw [List.all_eq_true]
  exact fun c hc => isIdentifierChar_of_mem h hc

/-- A name character in such a name is a word character. -/
theorem isWordChar_of_isNameChar (h : isAsciiIdentifier name = true) (hmem : c ∈ name)
    (hc : isNameChar c = true) : isWordChar c = true := by
  rcases eq_dollar_or_of_mem h hmem with rfl | hword
  · exact absurd hc (by decide)
  · exact hword.1

/-- What is no identifier character is no word character. -/
theorem any_isWordChar_eq_false {neighbour : Option Char}
    (h : neighbour.any isIdentifierChar = false) : neighbour.any isWordChar = false := by
  cases neighbour with
  | none => rfl
  | some c =>
    rw [Option.any_some, isIdentifierChar, Bool.or_eq_false_iff] at h
    exact h.1

/-- An identifier character that is no word character is the dollar sign. -/
theorem eq_dollar_of_any {neighbour : Option Char} (h : neighbour.any isIdentifierChar = true)
    (hword : neighbour.any isWordChar = false) : neighbour = some '$' := by
  cases neighbour with
  | none => cases h
  | some c =>
    rw [Option.any_some] at h hword
    rw [isIdentifierChar, hword, Bool.false_or, decide_eq_true_eq] at h
    rw [h]

/-- Where a word starts, no word character stands in front. -/
theorem any_isWordChar_of_isWordBoundary {neighbour : Option Char}
    (h : isWordBoundary neighbour (some c) = true) (hword : isWordChar c = true) :
    neighbour.any isWordChar = false := by
  rw [isWordBoundary, Option.any_some, hword] at h
  simpa using h

end Text

/-! ## What is found at a place -/

namespace Lexicon

/-- The last character of two parts is that of the second, as far as it has one. -/
theorem lastOr_append (before : Option Char) (first second : Text) :
    lastOr before (first ++ second) = lastOr (lastOr before first) second := by
  rw [lastOr, lastOr, lastOr, List.getLast?_append, Option.or_assoc]

/-- What is found behind an anchor of a listed length is one of the names.  In front of it stands an
anchor of the role, and the name starts well and ends well. -/
theorem isAnchor_of_findBehind? {lexicon : Lexicon} {before : Option Char} {text after : Text}
    {finding : Finding} {length : Nat} (hmem : length ∈ lexicon.role.anchors before text)
    (h : lexicon.findBehind? before text length = some finding)
    (htext : text = finding.source ++ after) :
    lexicon.role.IsAnchor before finding.anchor (finding.name ++ after).head? ∧
      startsWell lexicon.role (lastOr before finding.anchor) finding.name
        (finding.name ++ after) = true ∧
      endsWell finding.name after = true := by
  rw [findBehind?, Option.map_eq_some_iff] at h
  rcases h with ⟨name, hname, rfl⟩
  have hanchor := Role.isAnchor_take_of_mem hmem
  have hstands := List.find?_some hname
  have hdrop : text.drop length = name ++ after := by
    rw [Finding.source, List.append_assoc] at htext
    exact List.append_cancel_left ((List.take_append_drop length text).trans htext)
  rw [hdrop] at hanchor hstands
  rw [standsAt, (Text.dropStart?_eq_some_iff _ _ _).mpr rfl, Bool.and_eq_true] at hstands
  exact ⟨hanchor, hstands⟩

/-- What is found at a place has an anchor of the role there and the name behind it, and the name
starts well and ends well. -/
theorem isAnchor_of_findAt? {lexicon : Lexicon} {before : Option Char} {after : Text}
    {finding : Finding} (h : lexicon.findAt? before (finding.source ++ after) = some finding) :
    lexicon.role.IsAnchor before finding.anchor (finding.name ++ after).head? ∧
      startsWell lexicon.role (lastOr before finding.anchor) finding.name
        (finding.name ++ after) = true ∧
      endsWell finding.name after = true := by
  rcases List.exists_of_findSome?_eq_some h with ⟨length, hmem, hlength⟩
  exact isAnchor_of_findBehind? hmem hlength rfl

/-- A finding of a sweep is what is found at its place, between the pieces before and after it. -/
theorem findAt?_of_sweepFrom {lexicon : Lexicon} {before : Option Char} {afresh : Bool}
    {text : Text} {front back : List Piece} {finding : Finding}
    (h : lexicon.sweepFrom before afresh text = front ++ .found finding :: back) :
    lexicon.findAt? (lastOr before (front.flatMap Piece.source))
      (finding.source ++ back.flatMap Piece.source) = some finding := by
  fun_induction sweepFrom lexicon before afresh text generalizing front with
  | case1 before =>
    cases hfind : lexicon.findAt? before [] with
    | none => simp [hfind] at h
    | some other =>
      rw [hfind, Option.toList_some, List.map_singleton] at h
      rcases List.append_eq_singleton_iff.mp h.symm with ⟨rfl, hsame⟩ | ⟨-, hnil⟩
      · cases hsame
        rcases append_of_findAt? hfind with ⟨after, hafter⟩
        rw [List.append_eq_nil_iff.mp hafter.symm |>.1]
        exact hfind
      · cases hnil
  | case2 => simp at h
  | case3 before afresh c rest other hfind hempty ih =>
    -- A finding without text may stand in front of the character that is passed over.
    have hpassed : ∀ front : List Piece,
        .passed c :: lexicon.sweepFrom (some c) true rest = front ++ .found finding :: back →
        lexicon.findAt? (lastOr before (front.flatMap Piece.source))
          (finding.source ++ back.flatMap Piece.source) = some finding := by
      intro front h
      rcases List.cons_eq_append_iff.mp h with ⟨rfl, hsame⟩ | ⟨front, rfl, hrest⟩
      · cases hsame
      · rw [List.flatMap_cons, lastOr_append]
        exact ih hrest
    cases afresh with
    | false => exact hpassed front h
    | true =>
      have h : .found other :: .passed c :: lexicon.sweepFrom (some c) true rest =
          front ++ .found finding :: back := h
      rcases List.cons_eq_append_iff.mp h with ⟨rfl, hsame⟩ | ⟨front, rfl, hrest⟩
      · cases hsame
        rw [List.flatMap_cons, source_sweepFrom, hempty]
        exact hfind
      · rw [List.flatMap_cons, Piece.source, hempty, List.nil_append]
        exact hpassed front hrest
  | case4 before afresh c rest other hfind hne ih =>
    rcases List.cons_eq_append_iff.mp h with ⟨rfl, hsame⟩ | ⟨front, rfl, hrest⟩
    · cases hsame
      rcases append_of_findAt? hfind with ⟨after, hafter⟩
      rw [source_sweepFrom, hafter, List.drop_left, ← hafter]
      exact hfind
    · rw [List.flatMap_cons, lastOr_append]
      exact ih hrest
  | case5 before afresh c rest hfind ih =>
    rcases List.cons_eq_append_iff.mp h with ⟨rfl, hsame⟩ | ⟨front, rfl, hrest⟩
    · cases hsame
    · rw [List.flatMap_cons, lastOr_append]
      exact ih hrest

/-! ## Names between their neighbours -/

/-- Whether a name is a whole identifier: a run of identifier characters that neither neighbour
continues. -/
def IsWhole (before : Option Char) (name : Text) (after : Option Char) : Prop :=
  (∀ c ∈ name, Text.isIdentifierChar c = true) ∧
    before.any Text.isIdentifierChar = false ∧ after.any Text.isIdentifierChar = false

/-- Whether the name of a finding is a whole identifier as far as dollar signs allow.  The
characters right before and right behind the name are given. -/
structure IsDelimited (role : Role) (before : Option Char) (finding : Finding)
    (after : Option Char) : Prop where
  /-- The name is a run of identifier characters. -/
  run : ∀ c ∈ finding.name, Text.isIdentifierChar c = true
  /-- In front of a property name the run goes on at most with a dollar sign, or before one at the
  start of the name.  In front of the name of a function or a method it goes on at most with the
  bare keyword, if the name starts with a dollar sign.  In front of other names it never goes on. -/
  left : before.any Text.isIdentifierChar = true →
    (role = .propertyName ∧ (before = some '$' ∨ finding.name.head? = some '$')) ∨
      (role = .functionName ∨ role = .methodName) ∧ finding.anchor ∈ Role.memberKeywords ∧
        finding.name.head? = some '$'
  /-- Behind the name the run goes on at most with a dollar sign, or after one at the end of the
  name. -/
  right : after.any Text.isIdentifierChar = true →
    after = some '$' ∨ finding.name.getLast? = some '$'

/-- A delimited name is a whole identifier if no dollar sign stands next to it or at its ends. -/
theorem IsDelimited.isWhole {role : Role} {before after : Option Char} {finding : Finding}
    (h : IsDelimited role before finding after) (hbefore : before ≠ some '$')
    (hhead : finding.name.head? ≠ some '$') (hlast : finding.name.getLast? ≠ some '$')
    (hafter : after ≠ some '$') : IsWhole before finding.name after := by
  refine ⟨h.run, ?_, ?_⟩
  · rw [← Bool.not_eq_true]
    intro hany
    rcases h.left hany with ⟨-, hdollar | hdollar⟩ | ⟨-, -, hdollar⟩
    · exact hbefore hdollar
    · exact hhead hdollar
    · exact hhead hdollar
  · rw [← Bool.not_eq_true]
    intro hany
    rcases h.right hany with hdollar | hdollar
    · exact hafter hdollar
    · exact hlast hdollar

/-- No identifier character stands behind an anchor that ends with none. -/
theorem any_lastOr_eq_false {p : Char → Bool} {anchor : Text}
    (hp : ∀ c, p c = true → Text.isIdentifierChar c = false)
    (h : anchor.getLast?.any p = true) (before : Option Char) :
    (lastOr before anchor).any Text.isIdentifierChar = false := by
  rw [lastOr]
  cases hlast : anchor.getLast? with
  | none =>
    rw [hlast] at h
    cases h
  | some c =>
    rw [hlast] at h
    exact hp c h

/-- Behind an anchor of its role, a name that starts well follows an identifier character only in
the ways that are told for delimited names. -/
theorem left_of_isAnchor {role : Role} {before : Option Char} {anchor name after : Text}
    (hname : Text.isAsciiIdentifier name = true)
    (hanchor : role.IsAnchor before anchor (name ++ after).head?)
    (hstarts : startsWell role (lastOr before anchor) name (name ++ after) = true)
    (hany : (lastOr before anchor).any Text.isIdentifierChar = true) :
    (role = .propertyName ∧ (lastOr before anchor = some '$' ∨ name.head? = some '$')) ∨
      (role = .functionName ∨ role = .methodName) ∧ anchor ∈ Role.memberKeywords ∧
        name.head? = some '$' := by
  rcases Text.exists_cons_of_isAsciiIdentifier hname with ⟨c, rest, rfl⟩
  have hc := Text.eq_dollar_or_of_mem hname List.mem_cons_self
  have hmember : Role.IsMemberAnchor before anchor ((c :: rest) ++ after).head? →
      anchor ∈ Role.memberKeywords ∧ (c :: rest).head? = some '$' := by
    intro hanchor
    rcases Role.getLast?_of_isMemberAnchor hanchor with hlast | ⟨hkeyword, hhead⟩
    · rw [any_lastOr_eq_false (fun _ => Role.isIdentifierChar_of_isBlankOrStar) hlast] at hany
      cases hany
    · refine ⟨hkeyword, ?_⟩
      rcases hc with rfl | ⟨hword, -⟩
      · rfl
      · rw [List.cons_append, List.head?_cons, Option.any_some, hword] at hhead
        cases hhead
  cases role with
  | className =>
    rw [any_lastOr_eq_false (fun _ => Role.isIdentifierChar_of_isBlank)
      (Role.getLast?_of_isClassAnchor hanchor)] at hany
    cases hany
  | functionName => exact .inr ⟨.inl rfl, hmember hanchor⟩
  | methodName => exact .inr ⟨.inr rfl, hmember hanchor⟩
  | propertyName =>
    refine .inl ⟨rfl, ?_⟩
    rcases hc with rfl | ⟨hword, hchar⟩
    · exact .inr rfl
    · have hboundary : Text.isWordBoundary (lastOr before anchor) (some c) = true := by
        simpa [startsWell, hchar] using hstarts
      exact .inl (Text.eq_dollar_of_any hany
        (Text.any_isWordChar_of_isWordBoundary hboundary hword))
  | variableName =>
    rcases Role.getLast?_of_isVariableAnchor hanchor with hlast | ⟨rfl, rfl⟩
    · rw [any_lastOr_eq_false (fun _ => Role.isIdentifierChar_of_precedesVariable) hlast] at hany
      cases hany
    · cases hany

/-- A name that ends well is followed by an identifier character only in the ways that are told for
delimited names. -/
theorem right_of_endsWell {name after : Text} (hname : Text.isAsciiIdentifier name = true)
    (hends : endsWell name after = true) (hany : after.head?.any Text.isIdentifierChar = true) :
    after.head? = some '$' ∨ name.getLast? = some '$' := by
  rcases Text.exists_cons_of_isAsciiIdentifier hname with ⟨c, rest, rfl⟩
  have hlast := List.getLast?_eq_some_getLast (List.cons_ne_nil c rest)
  rcases Text.eq_dollar_or_of_mem hname (List.getLast_mem (List.cons_ne_nil c rest)) with
    hdollar | ⟨hword, hchar⟩
  · exact .inr (hlast.trans (congrArg some hdollar))
  · rw [endsWell, hlast, Option.any_some, if_pos hchar, Text.isWordBoundary_comm] at hends
    exact .inl (Text.eq_dollar_of_any hany
      (Text.any_isWordChar_of_isWordBoundary hends hword))

/-- A finding of a name of ASCII characters is delimited. -/
theorem isDelimited_of_findAt? {lexicon : Lexicon} {before : Option Char} {after : Text}
    {finding : Finding} (h : lexicon.findAt? before (finding.source ++ after) = some finding)
    (hname : Text.isAsciiIdentifier finding.name = true) :
    IsDelimited lexicon.role (lastOr before finding.anchor) finding after.head? := by
  rcases isAnchor_of_findAt? h with ⟨hanchor, hstarts, hends⟩
  exact ⟨fun c => Text.isIdentifierChar_of_mem hname, left_of_isAnchor hname hanchor hstarts,
    right_of_endsWell hname hends⟩

end Lexicon

/-! ## What masking exchanges -/

namespace NameTable

open Lexicon

/-- The pieces that the sweep of a role makes of a text; without names of the role every character
is passed over. -/
def pieces (table : NameTable) (role : Role) (text : Text) : List Piece :=
  if table.ofRole role = [] then text.map .passed else (table.lexicon role).sweep text

variable {table : NameTable} {role : Role}

/-- The pieces of a text make up the text. -/
theorem source_pieces (table : NameTable) (role : Role) (text : Text) :
    (table.pieces role text).flatMap Piece.source = text := by
  unfold pieces
  split
  · rw [List.flatMap_map]
    exact List.flatMap_singleton' text
  · exact source_sweepFrom _ none true text

/-- Masking the names of a role renders the pieces. -/
theorem maskRole_eq_render (table : NameTable) (role : Role) (text : Text) :
    table.maskRole role text = (table.pieces role text).flatMap (table.render role) := by
  unfold pieces
  split
  · rename_i hrole
    rw [maskRole_of_nil hrole, List.flatMap_map]
    exact (List.flatMap_singleton' text).symm
  · rename_i hrole
    exact maskRole_of_ne hrole text

/-- Without names of the role nothing is found. -/
theorem not_found_of_nil {text : Text} {finding : Finding} (hrole : table.ofRole role = []) :
    .found finding ∉ table.pieces role text := by
  rw [pieces, if_pos hrole, List.mem_map]
  rintro ⟨c, -, hpassed⟩
  cases hpassed

/-- A recorded name gives way to the placeholder of an entry with this name. -/
theorem render_found {finding : Finding}
    (h : ∃ entry ∈ table.entries, entry.role = role ∧ entry.name = finding.name) :
    ∃ entry ∈ table.ofRole role, entry.name = finding.name ∧
      table.render role (.found finding) = finding.anchor ++ entry.placeholder := by
  cases hfind : table.entries.find? fun entry =>
      entry.role = role && entry.name = finding.name with
  | none =>
    rcases h with ⟨entry, hentry, hrole, hname⟩
    have hfalse := List.find?_eq_none.mp hfind entry hentry
    simp [hrole, hname] at hfalse
  | some entry =>
    have hentry := List.find?_some hfind
    rw [Bool.and_eq_true, decide_eq_true_eq, decide_eq_true_eq] at hentry
    refine ⟨entry, ?_, hentry.2, ?_⟩
    · rw [ofRole, List.mem_filter, decide_eq_true_eq]
      exact ⟨List.mem_of_find?_eq_some hfind, hentry.1⟩
    · rw [render, get?, hfind, Option.map_some, Option.getD_some]

/-- Masking is made of the sweeps of the roles, each on the text that the one before it left.  If
the names of a role are made of ASCII letters, ASCII digits, low lines and dollar signs, then its
sweep exchanges delimited names only: every finding is a recorded name that stands in the swept text
as a whole identifier, as far as dollar signs allow. -/
theorem isDelimited_of_pieces
    (hnames : ∀ entry ∈ table.ofRole role, Text.isAsciiIdentifier entry.name = true)
    (text : Text) :
    table.mask text = Role.maskingOrder.foldl
        (fun text role => (table.pieces role text).flatMap (table.render role)) text ∧
      (table.pieces role text).flatMap Piece.source = text ∧
      ∀ front finding back, table.pieces role text = front ++ .found finding :: back →
        (∃ entry ∈ table.ofRole role, entry.name = finding.name ∧
          table.render role (.found finding) = finding.anchor ++ entry.placeholder) ∧
        IsDelimited role (front.flatMap Piece.source ++ finding.anchor).getLast? finding
          (back.flatMap Piece.source).head? := by
  refine ⟨?_, source_pieces table role text, ?_⟩
  · simp only [mask, maskRole_eq_render]
  · intro front finding back hpieces
    by_cases hrole : table.ofRole role = []
    · have hmem : .found finding ∈ table.pieces role text := by
        rw [hpieces]
        exact List.mem_append_right front List.mem_cons_self
      exact absurd hmem (not_found_of_nil hrole)
    · rw [pieces, if_neg hrole] at hpieces
      have hfind := findAt?_of_sweepFrom hpieces
      have hentry := exists_entry_of_mem_lexicon hrole (name_mem_of_findAt? hfind)
      rcases render_found hentry with ⟨entry, hmem, hname, hrender⟩
      have hdelimited := isDelimited_of_findAt? hfind (hname ▸ hnames entry hmem)
      rw [← lastOr_append, lastOr, Option.or_none] at hdelimited
      exact ⟨⟨entry, hmem, hname, hrender⟩, hdelimited⟩

/-- A name is found where it is a whole identifier, and not behind a dollar sign. -/
theorem isDelimited_of_pieces_variable :
    (∀ entry ∈ (empty.insert .variableName ['x']).2.ofRole .variableName,
        Text.isAsciiIdentifier entry.name = true) ∧
      (empty.insert .variableName ['x']).2.mask "user$x + x".toList =
        "user$x + _variable0_".toList ∧
      IsWhole (some ' ') ['x'] none := by
  have hnames : ∀ entry ∈ (empty.insert .variableName ['x']).2.ofRole .variableName,
      Text.isAsciiIdentifier entry.name = true := by decide
  have hpieces : (empty.insert .variableName ['x']).2.pieces .variableName "user$x + x".toList =
      "user$x +".toList.map .passed ++ [.found ⟨[' '], ['x']⟩] := by decide +kernel
  have hdelimited := (isDelimited_of_pieces hnames "user$x + x".toList).2.2 _ _ _ hpieces
  exact ⟨hnames, by decide +kernel,
    hdelimited.2.isWhole (by decide) (by decide) (by decide) (by decide)⟩

/-- Behind a name a dollar sign is not looked at, and in front of a property name neither: parts of
longer identifiers are exchanged there. -/
theorem not_isWhole_of_pieces_dollar :
    (∀ entry ∈ (empty.insert .variableName ['x']).2.ofRole .variableName,
        Text.isAsciiIdentifier entry.name = true) ∧
      (empty.insert .variableName ['x']).2.mask "x$y".toList = "_variable0_$y".toList ∧
      (empty.insert .propertyName "$el".toList).2.mask "a$el".toList = "a_property0_".toList ∧
      ¬ ∀ front finding back,
        (empty.insert .variableName ['x']).2.pieces .variableName "x$y".toList =
            front ++ .found finding :: back →
          IsWhole (front.flatMap Piece.source ++ finding.anchor).getLast? finding.name
            (back.flatMap Piece.source).head? := by
  refine ⟨by decide, by decide +kernel, by decide +kernel, ?_⟩
  intro h
  have hwhole := h [] ⟨[], ['x']⟩ [.passed '$', .passed 'y'] (by decide +kernel)
  cases hwhole.2.2

end NameTable

end SourceMask
