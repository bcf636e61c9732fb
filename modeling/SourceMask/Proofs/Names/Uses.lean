import SourceMask.Proofs.Role.Place

/-!
# Uses of members and bindings

The names of members and of bindings are masked wherever they are used, without any keyword.  A
property name is found by itself.  In front of a variable name the sweep takes one character more,
and that character may as well stand behind the use before it.  No finding goes beyond such a
character, as no name goes on there, and so no use hides another.

A sweep divides the text into pieces once and then writes each piece.  What is written is not looked
at again, so a name may well be spelled like the placeholder of another one.

Main results:

- Theorems `hasPart_property` and `hasPart_variable`: whole identifiers are found.
- Theorem `hasPart_of_isWhole`: every whole use of a recorded name gives way to its placeholder.
-/

namespace SourceMask

/-! ## Whole identifiers in a sweep -/

namespace Lexicon

variable {lexicon : Lexicon} {front name back : Text}

/-- No name goes on behind a place where no identifier goes on. -/
theorem eq_nil_of_cut {start first second : Text}
    (hname : Text.isAsciiIdentifier (first ++ second) = true)
    (hlast : (start ++ first).getLast?.any Text.isIdentifierChar = false) : first = [] := by
  refine Classical.byContradiction fun hne => ?_
  have hall := Text.all_isIdentifierChar hname
  rw [List.all_append, Bool.and_eq_true] at hall
  rw [Role.any_getLast?_append (Role.any_getLast?_of_all hne hall.1) start] at hlast
  cases hlast

/-- A sweep for property names finds every whole identifier that is one of them. -/
theorem hasPart_property (hrole : lexicon.role = .propertyName) (h : lexicon.IsAscii)
    (hmem : name ∈ lexicon.names) (hwhole : IsWhole front.getLast? name back.head?) :
    HasPart (lexicon.sweep (front ++ (name ++ back))) front [.found ⟨[], name⟩] back := by
  have hnil : ∀ {before after : Option Char} {anchor : Text},
      lexicon.role.IsAnchor before anchor after → anchor = [] := by
    intro before after anchor hanchor
    rw [hrole] at hanchor
    exact hanchor
  have hwithin : lexicon.EndsWithin none front (name ++ back) := by
    refine endsWithin_of_not_cut ?_ ?_
    · intro start first second _ _ _ hfirst _ _ hanchor
      exact hfirst (List.append_eq_nil_iff.mp (hnil hanchor)).1
    · intro start anchor first second after hfront hne _ _ hcut hanchor
      have hlast := hwhole.2.1
      rw [hnil hanchor, List.nil_append] at hfront hne
      rw [hfront] at hlast
      exact absurd (eq_nil_of_cut (h.identifiers _ hcut) hlast) hne
  have hfind : lexicon.findAt? front.getLast? (name ++ back) = some ⟨[], name⟩ := by
    have hanchor : lexicon.role.IsAnchor front.getLast? [] (name ++ back).head? := by
      rw [hrole]
      rfl
    have hfirst : lexicon.names.find?
        (standsAt lexicon.role (lastOr front.getLast? []) (name ++ back)) = some name :=
      find?_of_isWhole h hmem hwhole
    exact findAt?_of_only ⟨[], name⟩ hanchor hfirst fun _ _ _ _ hother _ => hnil hother
  exact hasPart_found h.isNamed ⟨[], name⟩ hwithin hfind

/-- No name starts with a character that may stand in front of a variable name. -/
theorem ne_cons_of_precedesVariable {c : Char} (hc : Role.precedesVariable c = true)
    (hname : Text.isAsciiIdentifier name = true) (text after : Text) :
    name ++ after ≠ c :: text := by
  intro htext
  have hidentifier := Text.isIdentifierChar_of_mem hname
    (mem_of_cons_eq_append htext.symm (Text.isAsciiIdentifier_ne_nil hname))
  rw [Role.isIdentifierChar_of_precedesVariable hc] at hidentifier
  cases hidentifier

/-- A variable name may stand at the start of a text, and behind every character that continues no
identifier and is no dot. -/
theorem exists_isAnchor_variable (hlast : front.getLast?.any Text.isIdentifierChar = false)
    (hdot : front.getLast? ≠ some '.') (after : Option Char) :
    ∃ start anchor, front = start ++ anchor ∧
      Role.variableName.IsAnchor start.getLast? anchor after := by
  by_cases hnil : front = []
  · exact ⟨[], [], hnil, .inl ⟨rfl, rfl⟩⟩
  · rw [List.getLast?_eq_some_getLast hnil] at hlast hdot
    refine ⟨front.dropLast, [front.getLast hnil], (List.dropLast_concat_getLast hnil).symm,
      .inr ⟨front.getLast hnil, rfl, ?_⟩⟩
    have hne : front.getLast hnil ≠ '.' := fun h => hdot (congrArg some h)
    rw [Option.any_some] at hlast
    rw [Role.precedesVariable, hlast, Bool.false_or, decide_eq_false hne]
    rfl

/-- An anchor of a single character is not cut. -/
theorem not_isAnchor_variable_append {before after : Option Char} {first second : Text}
    (hfirst : first ≠ []) (hsecond : second ≠ []) :
    ¬Role.variableName.IsAnchor before (first ++ second) after := by
  rintro (⟨hnil, -⟩ | ⟨c, hc, -⟩)
  · exact hfirst (List.append_eq_nil_iff.mp hnil).1
  · rcases List.append_eq_singleton_iff.mp hc with ⟨hnil, -⟩ | ⟨-, hnil⟩
    · exact hfirst hnil
    · exact hsecond hnil

/-- No finding goes beyond the start of an anchor in front of a variable name. -/
theorem endsWithin_of_isAnchor_variable (hrole : lexicon.role = .variableName)
    (h : lexicon.IsAscii) {start anchor rest : Text} {after : Option Char}
    (hanchor : Role.variableName.IsAnchor start.getLast? anchor after) :
    lexicon.EndsWithin none start (anchor ++ rest) := by
  refine endsWithin_of_not_cut ?_ ?_
  · intro before first second _ _ _ hfirst hsecond _
    rw [hrole]
    exact not_isAnchor_variable_append hfirst hsecond
  · -- No name goes on with the character in front of another one.
    intro before other first second behind hstart hne hsecond hrest hcut _
    exfalso
    rcases hanchor with ⟨rfl, hnone⟩ | ⟨c, rfl, hprecedes⟩
    · rw [List.getLast?_eq_none_iff.mp hnone] at hstart
      exact hne (List.append_eq_nil_iff.mp hstart.symm).2
    · have hidentifier := Text.isIdentifierChar_of_mem (h.identifiers _ hcut)
        (List.mem_append_right first (mem_of_cons_eq_append hrest hsecond))
      rw [Role.isIdentifierChar_of_precedesVariable hprecedes] at hidentifier
      cases hidentifier

/-- In front of an identifier no other anchor of variable names has an identifier behind it. -/
theorem anchor_eq_of_variable {before after after' : Option Char}
    {anchor anchor' name' text text' : Text}
    (hname : Text.isAsciiIdentifier name = true) (hname' : Text.isAsciiIdentifier name' = true)
    (hanchor : Role.variableName.IsAnchor before anchor after)
    (hanchor' : Role.variableName.IsAnchor before anchor' after')
    (htext : anchor ++ (name ++ text) = anchor' ++ (name' ++ text')) : anchor' = anchor := by
  rcases hanchor with ⟨rfl, -⟩ | ⟨c, rfl, hprecedes⟩ <;>
    rcases hanchor' with ⟨rfl, -⟩ | ⟨d, rfl, hprecedes'⟩
  · rfl
  · exact absurd htext (ne_cons_of_precedesVariable hprecedes' hname _ _)
  · exact absurd htext.symm (ne_cons_of_precedesVariable hprecedes hname' _ _)
  · have hsame : c = d := (List.cons.inj htext).1
    rw [hsame]

/-- A sweep for variable names finds every whole identifier that is one of them and stands behind an
anchor. -/
theorem hasPart_variable (hrole : lexicon.role = .variableName) (h : lexicon.IsAscii)
    (hmem : name ∈ lexicon.names) {start anchor : Text}
    (hanchor : Role.variableName.IsAnchor start.getLast? anchor (name ++ back).head?)
    (hback : back.head?.any Text.isIdentifierChar = false) :
    HasPart (lexicon.sweep (start ++ (anchor ++ (name ++ back)))) start [.found ⟨anchor, name⟩]
      back := by
  have hname := h.identifiers name hmem
  have hwhole : IsWhole (lastOr start.getLast? anchor) name back.head? := by
    refine ⟨fun c => Text.isIdentifierChar_of_mem hname, ?_, hback⟩
    rcases hanchor with ⟨rfl, hnone⟩ | ⟨c, rfl, hprecedes⟩
    · rw [hnone]
      rfl
    · exact Role.isIdentifierChar_of_precedesVariable hprecedes
  have hfind : lexicon.findAt? start.getLast? (anchor ++ (name ++ back)) = some ⟨anchor, name⟩ := by
    refine findAt?_of_only ⟨anchor, name⟩ (hrole ▸ hanchor) (find?_of_isWhole h hmem hwhole) ?_
    intro other after htext hother hotherAnchor _
    rw [hrole] at hotherAnchor
    exact anchor_eq_of_variable hname (h.identifiers other.name hother) hanchor hotherAnchor htext
  exact hasPart_found h.isNamed ⟨anchor, name⟩ (endsWithin_of_isAnchor_variable hrole h hanchor)
    hfind

end Lexicon

/-! ## Uses in a text -/

namespace NameTable

open Lexicon

variable {table : NameTable} {role : Role}

/-- If all names have one role, masking is the sweep of this role. -/
theorem mask_of_role (h : ∀ entry ∈ table.entries, entry.role = role) (text : Text) :
    table.mask text = (table.pieces role text).flatMap (table.render role) := by
  have hother : ∀ other, other ≠ role → ∀ text, table.maskRole other text = text := by
    intro other hne text
    refine maskRole_of_nil (List.filter_eq_nil_iff.mpr ?_) text
    intro entry hentry hrole
    exact hne ((of_decide_eq_true hrole).symm.trans (h entry hentry))
  rw [← maskRole_eq_render]
  cases role <;> simp [mask, Role.maskingOrder, hother]

/-- The names of a role that are ASCII identifiers make a lexicon of such. -/
theorem isAscii_lexicon (hrole : table.ofRole role ≠ [])
    (hnames : ∀ entry ∈ table.ofRole role, Text.isAsciiIdentifier entry.name = true) :
    (table.lexicon role).IsAscii := by
  refine isAscii_ofNames (fun hnil => hrole (List.map_eq_nil_iff.mp hnil)) ?_
  intro name hname
  rcases List.mem_map.mp hname with ⟨entry, hentry, rfl⟩
  exact hnames entry hentry

/-- The sweep of a role looks for the names of the role. -/
theorem name_mem_lexicon {entry : NameEntry} (h : entry ∈ table.ofRole role) :
    entry.name ∈ (table.lexicon role).names := by
  have hmem : entry.name ∈ (table.ofRole role).map (·.name) := List.mem_map_of_mem h
  exact (mem_names_ofNames (List.ne_nil_of_mem hmem)).mpr hmem

/-- If all names have one numbered role, and are made of ASCII letters, ASCII digits, low lines and
dollar signs, then masking is a single sweep that exchanges every whole use of every name for the
placeholder of exactly this name, except where a dot stands in front of a variable name. -/
theorem hasPart_of_isWhole (hrole : role.isNumbered = true)
    (hnames : ∀ entry ∈ table.entries,
      entry.role = role ∧ Text.isAsciiIdentifier entry.name = true) (text : Text) :
    table.mask text = (table.pieces role text).flatMap (table.render role) ∧
      (table.pieces role text).flatMap Piece.source = text ∧
      ∀ front name back placeholder, text = front ++ (name ++ back) →
        table.get? role name = some placeholder → IsWhole front.getLast? name back.head? →
        (role = .variableName → front.getLast? ≠ some '.') →
        ∃ start anchor, front = start ++ anchor ∧
          HasPart (table.pieces role text) start [.found ⟨anchor, name⟩] back ∧
          table.render role (.found ⟨anchor, name⟩) = anchor ++ placeholder := by
  refine ⟨mask_of_role (fun entry hentry => (hnames entry hentry).1) text,
    source_pieces table role text, ?_⟩
  rintro front name back placeholder rfl hget hwhole hdot
  have hrender : ∀ anchor, table.render role (.found ⟨anchor, name⟩) = anchor ++ placeholder := by
    intro anchor
    rw [render, hget, Option.getD_some]
  rcases exists_entry_of_get? hget with ⟨entry, hentry, hentryRole, rfl, -⟩
  have hmem : entry ∈ table.ofRole role := List.mem_filter.mpr ⟨hentry, decide_eq_true hentryRole⟩
  have hne : table.ofRole role ≠ [] := List.ne_nil_of_mem hmem
  have hascii := isAscii_lexicon hne fun other hother =>
    (hnames other (List.mem_filter.mp hother).1).2
  rw [pieces, if_neg hne]
  cases role with
  | propertyName =>
    have hpart := hasPart_property rfl hascii (name_mem_lexicon hmem) hwhole
    exact ⟨front, [], (List.append_nil front).symm, hpart, hrender []⟩
  | variableName =>
    rcases exists_isAnchor_variable hwhole.2.1 (hdot rfl) (entry.name ++ back).head? with
      ⟨start, anchor, rfl, hanchor⟩
    have hpart := hasPart_variable rfl hascii (name_mem_lexicon hmem) hanchor hwhole.2.2
    rw [← List.append_assoc] at hpart
    exact ⟨start, anchor, rfl, hpart, hrender anchor⟩
  | _ => cases hrole

/-- Three variables: one of them is spelled like the placeholder of the next one, and the last one
is the beginning of that. -/
def lookalikes : NameTable :=
  (((empty.insert .variableName "_variable1_".toList).2.insert .variableName ['a', 'b']).2.insert
    .variableName ['a']).2

theorem lexicon_lookalikes :
    lookalikes.lexicon .variableName =
      ⟨.variableName, ["_variable1_".toList, ['a', 'b'], ['a']]⟩ := by
  have hsorted : ["_variable1_".toList, ['a', 'b'], ['a']].mergeSort triedBefore =
      ["_variable1_".toList, ['a', 'b'], ['a']] :=
    List.mergeSort_of_pairwise (by decide +kernel)
  exact congrArg (Lexicon.mk .variableName) hsorted

/-- Uses that share the character between them are all found, and what is written for one of them
is not taken for another. -/
theorem hasPart_of_isWhole_lookalikes :
    (∀ entry ∈ lookalikes.entries,
        entry.role = .variableName ∧ Text.isAsciiIdentifier entry.name = true) ∧
      lookalikes.mask "a+a*ab*_variable1_".toList =
        "_variable2_+_variable2_*_variable1_*_variable0_".toList ∧
      IsWhole (some '+') ['a'] (some '*') ∧
      ∃ start anchor, ['a', '+'] = start ++ anchor ∧
        HasPart (lookalikes.pieces .variableName "a+a*ab*_variable1_".toList) start
          [.found ⟨anchor, ['a']⟩] ('*' :: "ab*_variable1_".toList) ∧
        lookalikes.render .variableName (.found ⟨anchor, ['a']⟩) =
          anchor ++ "_variable2_".toList := by
  have hnames : ∀ entry ∈ lookalikes.entries,
      entry.role = .variableName ∧ Text.isAsciiIdentifier entry.name = true := by decide +kernel
  have hwhole : IsWhole (some '+') ['a'] (some '*') :=
    ⟨fun c => Text.isIdentifierChar_of_mem (by decide +kernel), by decide +kernel,
      by decide +kernel⟩
  rcases hasPart_of_isWhole rfl hnames "a+a*ab*_variable1_".toList with ⟨hmask, -, huses⟩
  refine ⟨hnames, ?_, hwhole, huses ['a', '+'] ['a'] ('*' :: "ab*_variable1_".toList) _
    (by decide +kernel) (by decide +kernel) hwhole (by decide +kernel)⟩
  rw [hmask, pieces, if_neg (by decide +kernel), lexicon_lookalikes]
  decide +kernel

end NameTable

end SourceMask
