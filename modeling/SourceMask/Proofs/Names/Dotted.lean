import SourceMask.Proofs.Names.Uses

/-!
# Variables behind dots

A sweep for variable names takes the character in front of a name along, and a dot is never taken.
So nothing is found in a run of identifier characters that stands behind a dot: the name of a member
keeps its spelling, even if a variable is called the same.

Only the one character in front of the name is looked at.  Behind the three dots that spread a value
a variable is not told from a member, and it keeps its spelling there too.

Main results:

- Theorem `endsWithin_of_dot`: no finding goes beyond a dot.
- Theorem `hasPart_behind_dot`: what stands behind a dot is passed over.
- Theorem `hasPart_iff_not_behind_dot`: a whole use of a variable is masked exactly if no dot stands
  in front of it.
-/

namespace SourceMask

namespace Lexicon

variable {lexicon : Lexicon} {front name back : Text}

/-- Where something stands in front, a variable name is only found behind a character that may
precede it. -/
theorem findAt?_eq_none_of_not_precedes (hrole : lexicon.role = .variableName) {before c : Char}
    (hc : Role.precedesVariable c = false) (rest : Text) :
    lexicon.findAt? (some before) (c :: rest) = none := by
  simp [findAt?, hrole, Role.anchors, Role.variableAnchors, hc]

/-- No finding of a variable name goes beyond a dot. -/
theorem endsWithin_of_dot (hrole : lexicon.role = .variableName) (h : lexicon.IsAscii)
    (hdot : front.getLast? = some '.') (rest : Text) : lexicon.EndsWithin none front rest := by
  refine endsWithin_of_not_cut ?_ ?_
  · intro start first second _ _ _ hfirst hsecond _
    rw [hrole]
    exact not_isAnchor_variable_append hfirst hsecond
  · -- A dot is no part of a name, and it is no anchor of one.
    intro start anchor first second after hfront hne _ _ hcut hanchor
    exfalso
    have hlast : ((start ++ anchor) ++ first).getLast?.any Text.isIdentifierChar = false := by
      rw [List.append_assoc, ← hfront, hdot]
      decide
    have hnil := eq_nil_of_cut (h.identifiers _ hcut) hlast
    rw [hnil, List.append_nil] at hfront hne
    rw [hrole] at hanchor
    rcases hanchor with ⟨rfl, -⟩ | ⟨c, rfl, hprecedes⟩
    · exact hne rfl
    · rw [hfront, List.getLast?_concat, Option.some.injEq] at hdot
      rw [hdot] at hprecedes
      exact absurd hprecedes (by decide)

/-- A sweep for variable names passes over identifier characters behind a dot. -/
theorem hasPart_behind_dot (hrole : lexicon.role = .variableName) (h : lexicon.IsAscii)
    (hdot : front.getLast? = some '.') (hrun : ∀ c ∈ name, Text.isIdentifierChar c = true)
    (back : Text) :
    HasPart (lexicon.sweep (front ++ (name ++ back))) front (name.map .passed) back := by
  refine hasPart_passed h.isNamed (endsWithin_of_dot hrole h hdot _) ?_
  intro start c rest hname
  have hc : Role.precedesVariable c = false := by
    have hidentifier := hrun c (by rw [hname]; exact List.mem_append_right start List.mem_cons_self)
    rw [Role.precedesVariable, hidentifier]
    rfl
  rcases Option.isSome_iff_exists.mp (show (front ++ start).getLast?.isSome = true by
    rw [List.getLast?_append, hdot, Option.isSome_or, Option.isSome_some, Bool.or_true]) with
    ⟨before, hbefore⟩
  rw [hbefore, List.cons_append]
  exact findAt?_eq_none_of_not_precedes hrole hc _

end Lexicon

namespace NameTable

open Lexicon

variable {table : NameTable}

/-- Masking is made of the sweeps of the roles, each on the text that the one before it left.  If
the names of variables are made of ASCII letters, ASCII digits, low lines and dollar signs, then the
sweep for them exchanges a whole use of a name for its placeholder exactly if no dot stands right in
front of it, and passes over the use otherwise. -/
theorem hasPart_iff_not_behind_dot
    (hnames : ∀ entry ∈ table.ofRole .variableName, Text.isAsciiIdentifier entry.name = true) :
    (∀ text, table.mask text = Role.maskingOrder.foldl
        (fun text role => (table.pieces role text).flatMap (table.render role)) text) ∧
      ∀ front name back placeholder, table.get? .variableName name = some placeholder →
        IsWhole front.getLast? name back.head? →
        ((∃ start anchor, front = start ++ anchor ∧
            HasPart (table.pieces .variableName (front ++ (name ++ back))) start
              [.found ⟨anchor, name⟩] back ∧
            table.render .variableName (.found ⟨anchor, name⟩) = anchor ++ placeholder) ↔
          front.getLast? ≠ some '.') ∧
        (front.getLast? = some '.' →
          HasPart (table.pieces .variableName (front ++ (name ++ back))) front
            (name.map .passed) back) := by
  refine ⟨fun text => by simp only [mask, maskRole_eq_render], ?_⟩
  intro front name back placeholder hget hwhole
  rcases exists_entry_of_get? hget with ⟨entry, hentry, hentryRole, rfl, -⟩
  have hmem : entry ∈ table.ofRole .variableName :=
    List.mem_filter.mpr ⟨hentry, decide_eq_true hentryRole⟩
  have hne : table.ofRole .variableName ≠ [] := List.ne_nil_of_mem hmem
  have hascii := isAscii_lexicon hne hnames
  rw [pieces, if_neg hne]
  refine ⟨⟨?_, ?_⟩, fun hdot => hasPart_behind_dot rfl hascii hdot hwhole.1 back⟩
  · rintro ⟨start, anchor, rfl, ⟨earlier, later, hsweep, rfl, rfl⟩, -⟩ hdot
    have hanchor := (isAnchor_of_findAt? (findAt?_of_sweepFrom hsweep)).1
    rcases hanchor with ⟨rfl, hnone⟩ | ⟨c, rfl, hprecedes⟩
    · rw [lastOr, Option.or_none] at hnone
      rw [List.append_nil, hnone] at hdot
      cases hdot
    · rw [List.getLast?_concat, Option.some.injEq] at hdot
      rw [hdot] at hprecedes
      exact absurd hprecedes (by decide)
  · intro hdot
    rcases exists_isAnchor_variable hwhole.2.1 hdot (entry.name ++ back).head? with
      ⟨start, anchor, rfl, hanchor⟩
    have hpart := hasPart_variable rfl hascii (name_mem_lexicon hmem) hanchor hwhole.2.2
    rw [← List.append_assoc] at hpart
    exact ⟨start, anchor, rfl, hpart, by rw [render, hget, Option.getD_some]⟩

/-- In `f(xs, ...xs)` the first use of a variable is found, and the one behind the dots is passed
over. -/
theorem hasPart_iff_not_behind_dot_spread :
    (∀ entry ∈ (empty.insert .variableName "xs".toList).2.ofRole .variableName,
        Text.isAsciiIdentifier entry.name = true) ∧
      IsWhole "f(".toList.getLast? "xs".toList ", ...xs)".toList.head? ∧
      IsWhole "f(xs, ...".toList.getLast? "xs".toList ")".toList.head? ∧
      (∃ start anchor, "f(".toList = start ++ anchor ∧
        HasPart ((empty.insert .variableName "xs".toList).2.pieces .variableName
          "f(xs, ...xs)".toList) start [.found ⟨anchor, "xs".toList⟩] ", ...xs)".toList ∧
        (empty.insert .variableName "xs".toList).2.render .variableName
          (.found ⟨anchor, "xs".toList⟩) = anchor ++ "_variable0_".toList) ∧
      HasPart ((empty.insert .variableName "xs".toList).2.pieces .variableName
        "f(xs, ...xs)".toList) "f(xs, ...".toList ("xs".toList.map .passed) ")".toList := by
  have hnames : ∀ entry ∈ (empty.insert .variableName "xs".toList).2.ofRole .variableName,
      Text.isAsciiIdentifier entry.name = true := by decide +kernel
  have hget : (empty.insert .variableName "xs".toList).2.get? .variableName "xs".toList =
      some "_variable0_".toList := by decide +kernel
  have hfirst : IsWhole "f(".toList.getLast? "xs".toList ", ...xs)".toList.head? :=
    ⟨fun c => Text.isIdentifierChar_of_mem (by decide +kernel), by decide +kernel,
      by decide +kernel⟩
  have hsecond : IsWhole "f(xs, ...".toList.getLast? "xs".toList ")".toList.head? :=
    ⟨hfirst.1, by decide +kernel, by decide +kernel⟩
  have huses := (hasPart_iff_not_behind_dot hnames).2
  exact ⟨hnames, hfirst, hsecond,
    (huses _ _ _ _ hget hfirst).1.mpr (by decide), (huses _ _ _ _ hget hsecond).2 (by decide)⟩

/-- A variable keeps its name where it is spread into a call or an array. -/
theorem not_mask_spread :
    (empty.insert .variableName "xs".toList).2.get? .variableName "xs".toList =
        some "_variable0_".toList ∧
      IsWhole "f(...".toList.getLast? "xs".toList ")".toList.head? ∧
      (empty.insert .variableName "xs".toList).2.mask "f(...xs)".toList ≠
        "f(..._variable0_)".toList ∧
      (empty.insert .variableName "xs".toList).2.mask "f(...xs)".toList = "f(...xs)".toList ∧
      (empty.insert .variableName "xs".toList).2.mask "[...xs, 1]".toList =
        "[...xs, 1]".toList := by
  refine ⟨by decide +kernel, ⟨fun c => Text.isIdentifierChar_of_mem (by decide +kernel), ?_, ?_⟩,
    by decide +kernel, by decide +kernel, by decide +kernel⟩
  · decide +kernel
  · decide +kernel

end NameTable

end SourceMask
