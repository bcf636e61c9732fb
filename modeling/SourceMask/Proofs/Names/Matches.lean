import SourceMask.Proofs.Names.Register
import SourceMask.Proofs.Role.Matches
import SourceMask.Proofs.Text.Exchange

/-!
# Matches of names

The matches of the pattern of a role for some names are the findings of its sweep.  Whatever the
names are, every match is an anchor with one of them right behind it.  So every match has a
placeholder if the names are the recorded ones, and masking exchanges the names in the matches and
keeps the rest of the text.

Main results:

- Theorem `exchanges_flatMap_render`: the pieces of a sweep are rendered by exchanging the names in
  the matches.
- Theorem `hasMatches_matchesIn`: the structure of the matches of any names of a role in any text.
-/

namespace SourceMask

open Lexicon

/-! ## Masking as an exchange of names -/

namespace NameTable

variable {table : NameTable} {role : Role}

/-- What may be written for the name of a match: the placeholder that is recorded for it. -/
def Writes (table : NameTable) (role : Role) (found : Match) (slice piece : Text) : Prop :=
  slice = found.finding.name ∧ table.get? role slice = some piece

/-- The pieces of a sweep are rendered by exchanging the names in the matches, if all of these have
placeholders. -/
theorem exchanges_flatMap_render {pieces : List Piece}
    (h : ∀ finding, .found finding ∈ pieces → (table.get? role finding.name).isSome = true)
    (offset : Nat) :
    Text.Exchanges Match.middle Match.stop (table.Writes role) offset
      (pieces.flatMap Piece.source) (matchesFrom offset pieces)
      (pieces.flatMap (table.render role)) := by
  induction pieces generalizing offset with
  | nil => exact .done offset []
  | cons piece others ih =>
    have hothers := ih fun finding hfinding => h finding (List.mem_cons_of_mem piece hfinding)
    rw [List.flatMap_cons, List.flatMap_cons]
    cases piece with
    | passed c => exact .extend [c] (hothers (offset + Text.byteLength [c]))
    | found finding =>
      rcases Option.isSome_iff_exists.mp (h finding List.mem_cons_self) with
        ⟨placeholder, hplaceholder⟩
      have hstop : Match.stop ⟨offset, finding⟩ =
          Match.middle ⟨offset, finding⟩ + Text.byteLength finding.name := by
        rw [Match.stop, Match.middle, Finding.source, Text.byteLength_append, Nat.add_assoc]
      rw [render, hplaceholder, Option.getD_some]
      exact .step rfl hstop ⟨rfl, hplaceholder⟩ (hothers _)

/-- A name that is recorded in a role has a placeholder. -/
theorem isSome_get?_of_mem {name : Text} (h : name ∈ (table.ofRole role).map (·.name)) :
    (table.get? role name).isSome = true := by
  rcases List.mem_map.mp h with ⟨entry, hentry, rfl⟩
  rw [ofRole, List.mem_filter, decide_eq_true_eq] at hentry
  rcases hentry with ⟨hentry, rfl⟩
  exact isSome_get?_iff.mpr (List.mem_map_of_mem hentry)

/-- Masking the names of a role exchanges the names in the matches for their placeholders. -/
theorem exchanges_maskRole (hne : table.ofRole role ≠ []) (text : Text) :
    Text.Exchanges Match.middle Match.stop (table.Writes role) 0 text
      ((table.lexicon role).matchesIn text) (table.maskRole role text) := by
  have hnames : (table.ofRole role).map (·.name) ≠ [] := by simpa using hne
  have hplaceholders : ∀ finding, .found finding ∈ (table.lexicon role).sweep text →
      (table.get? role finding.name).isSome = true := by
    intro finding hfinding
    have hname := name_mem_of_mem_sweepFrom hfinding
    rw [lexicon, mem_names_ofNames hnames] at hname
    exact isSome_get?_of_mem hname
  have hexchanges := exchanges_flatMap_render hplaceholders 0
  rwa [sweep, source_sweepFrom, ← sweep, ← maskRole_of_ne hne] at hexchanges

end NameTable

/-! ## The structure of matches -/

/-- How a list of matches belongs to a role, some names and a text. -/
structure HasMatches (role : Role) (names : List Text) (text : Text) (list : List Match) :
    Prop where
  /-- The list holds the matches of the pattern for the names, and no other list does. -/
  matched : ∀ others, AreMatches (role.pattern names).findAt? [] text true others ↔ others = list
  /-- The matches are ascending and do not overlap. -/
  ascending : list.Pairwise fun first second =>
    first.start < second.start ∧ first.stop ≤ second.start
  /-- At the start of a match the whole pattern takes the anchor and the name right behind it. -/
  whole : ∀ found ∈ list, ∃ before after,
    text = before ++ (found.finding.anchor ++ found.finding.name ++ after) ∧
    found.start = Text.byteLength before ∧
    (role.pattern names).whole.takes? before.getLast?
      (found.finding.anchor ++ found.finding.name ++ after) =
        some (found.finding.anchor ++ found.finding.name)
  /-- The anchor and the name stand next to each other in the text. -/
  slices : ∀ found ∈ list,
    Text.slice? text found.start found.middle = some found.finding.anchor ∧
    Text.slice? text found.middle found.stop = some found.finding.name
  /-- The name is one of the given ones.  Without any of them it is empty. -/
  listed : ∀ found ∈ list,
    found.finding.name ∈ names ∨ names = [] ∧ found.finding.name = []
  /-- The order of the names and their repetitions make no difference. -/
  congr : ∀ others, (∀ name, name ∈ others ↔ name ∈ names) →
    (ofNames role others).matchesIn text = list
  /-- If the names are the recorded ones, then each match has a placeholder, and masking exchanges
  the names in the matches and keeps all the rest. -/
  masked : ∀ table : NameTable, (table.ofRole role).map (·.name) = names →
    table.ofRole role ≠ [] →
    Text.Exchanges Match.middle Match.stop (table.Writes role) 0 text list
      (table.maskRole role text)

namespace Lexicon

/-- The names in the matches of a lexicon are those that are looked for. -/
theorem name_mem_of_mem_matchesIn {lexicon : Lexicon} {text : Text} {found : Match}
    (h : found ∈ lexicon.matchesIn text) : found.finding.name ∈ lexicon.names := by
  rcases (areMatches_matchesIn lexicon text).exists_place found h with ⟨_, _, -, -, hfind⟩
  exact name_mem_of_findAt? hfind

/-- For every role, all names and every text, the findings of the sweep are the matches of the
pattern, with the structure of matches. -/
theorem hasMatches_matchesIn (role : Role) (names : List Text) (text : Text) :
    HasMatches role names text ((ofNames role names).matchesIn text) := by
  have hfind : (ofNames role names).findAt? = (role.pattern names).findAt? := by
    funext before after
    exact Role.findAt?_ofNames role names before after
  have hmatches := areMatches_matchesIn (ofNames role names) text
  refine ⟨?_, hmatches.pairwise, ?_, ?_, ?_, ?_, ?_⟩
  · intro others
    rw [hfind] at hmatches
    exact ⟨fun h => h.unique hmatches, fun h => h ▸ hmatches⟩
  · intro found hfound
    rcases hmatches.exists_place found hfound with ⟨before, after, htext, hstart, hplace⟩
    rw [hfind] at hplace
    refine ⟨before, after, htext, hstart, ?_⟩
    rw [Pattern.takes?_whole, ← Finding.source, hplace]
    rfl
  · intro found hfound
    rcases hmatches.exists_place found hfound with ⟨before, after, htext, hstart, -⟩
    rw [List.nil_append, Finding.source] at htext
    rw [Match.middle, Match.stop, Finding.source, hstart, ← Text.byteLength_append,
      ← Text.byteLength_append, Text.slice?_eq_some_iff, Text.slice?_eq_some_iff]
    refine ⟨⟨before, found.finding.name ++ after, ?_, rfl, rfl⟩,
      ⟨before ++ found.finding.anchor, after, ?_, rfl, ?_⟩⟩
    · rw [htext]
      simp only [List.append_assoc]
    · rw [htext]
      simp only [List.append_assoc]
    · rw [List.append_assoc]
  · intro found hfound
    have hname := name_mem_of_mem_matchesIn hfound
    by_cases hnames : names = []
    · rw [ofNames, if_pos hnames] at hname
      exact .inr ⟨hnames, List.mem_singleton.mp hname⟩
    · exact .inl ((mem_names_ofNames hnames).mp hname)
  · intro others hothers
    exact matchesIn_congr hothers text
  · rintro table rfl hne
    exact NameTable.exchanges_maskRole hne text

/-- Without any name the empty text is found everywhere, and a step takes a whole character. -/
example : (ofNames .propertyName []).matchesIn ['a', 'é', 'b'] =
    [⟨0, ⟨[], []⟩⟩, ⟨1, ⟨[], []⟩⟩, ⟨3, ⟨[], []⟩⟩, ⟨4, ⟨[], []⟩⟩] := by
  cbv

end Lexicon

end SourceMask
