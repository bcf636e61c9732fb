import SourceMask.Proofs.Role.Pattern
import SourceMask.Proofs.Role.Place
import SourceMask.Proofs.Text.Cut

/-!
# Matches

The matches of a pattern in a text are found from left to right.  The next match is at the first
place where something is found behind the match before it.  Only an empty text does not count right
where a match has ended.  This determines the matches, whatever it is that is found at the places.

A sweep goes on by characters instead and keeps what it passes over.  Its findings are the matches.

Main results:

- Theorem `AreMatches.unique`: a text has one list of matches.
- Theorem `AreMatches.pairwise`: matches are ascending and do not overlap.
- Theorem `areMatches_sweepFrom`: the findings of a sweep are the matches of what is found at each
  place.
- Theorem `findAt?_congr`: what is found at a place depends on the set of the names only.
-/

namespace SourceMask

open Lexicon

/-! ## Matches and their places -/

/-- A finding at a byte offset of a text. -/
structure Match where
  start : Nat
  finding : Finding
  deriving DecidableEq, Repr

namespace Match

/-- Where the anchor ends and the name starts. -/
def middle (found : Match) : Nat := found.start + Text.byteLength found.finding.anchor

/-- Where the name ends. -/
def stop (found : Match) : Nat := found.start + Text.byteLength found.finding.source

end Match

/-- Whether what is found behind a gap counts.  Where a match has just ended, the empty text does
not. -/
def Counts (afresh : Bool) (gap : Text) (finding : Finding) : Prop :=
  finding.source = [] → gap = [] → afresh = true

/-- Nothing that counts is found behind a text and a gap. -/
def Idle (find : Option Char → Text → Option Finding) (front gap after : Text) (afresh : Bool) :
    Prop :=
  ∀ finding, find (front ++ gap).getLast? after = some finding → ¬Counts afresh gap finding

/-- The matches in the rest of a text behind its front, where a match has just ended unless the
place is fresh.  What is found at a place depends on the character before it and on what follows. -/
inductive AreMatches (find : Option Char → Text → Option Finding) :
    Text → Text → Bool → List Match → Prop
  /-- Nothing is found at any place. -/
  | done {front rest : Text} {afresh : Bool}
      (hnone : ∀ gap after, rest = gap ++ after → Idle find front gap after afresh) :
      AreMatches find front rest afresh []
  /-- Something is found behind a gap and nothing before, and the matches go on behind it. -/
  | next {front gap after : Text} {afresh : Bool} {finding : Finding} {others : List Match}
      (hfirst : ∀ gap' after', gap ++ (finding.source ++ after) = gap' ++ after' →
        gap'.length < gap.length → Idle find front gap' after' afresh)
      (hfind : find (front ++ gap).getLast? (finding.source ++ after) = some finding)
      (hcounts : Counts afresh gap finding)
      (hrest : AreMatches find (front ++ gap ++ finding.source) after false others) :
      AreMatches find front (gap ++ (finding.source ++ after)) afresh
        (⟨Text.byteLength (front ++ gap), finding⟩ :: others)

variable {find : Option Char → Text → Option Finding} {front rest : Text} {afresh : Bool}
  {list : List Match}

/-! ## Places where nothing counts -/

theorem idle_of_none (h : find front.getLast? rest = none) : Idle find front [] rest afresh := by
  intro finding hfind
  rw [List.append_nil, h] at hfind
  cases hfind

/-- Where the empty text is found and a match has just ended, nothing counts. -/
theorem idle_of_empty {finding : Finding} (h : find front.getLast? rest = some finding)
    (hempty : finding.source = []) : Idle find front [] rest false := by
  intro other hother hcounts
  rw [List.append_nil, h, Option.some.injEq] at hother
  cases hcounts (hother ▸ hempty) rfl

/-- Behind a character every place is fresh. -/
theorem idle_cons {c : Char} {gap after : Text} (h : Idle find (front ++ [c]) gap after true) :
    Idle find front (c :: gap) after afresh := by
  intro finding hfind
  rw [List.append_cons] at hfind
  exact absurd (fun _ _ => rfl) (h finding hfind)

namespace AreMatches

/-! ## One list of matches -/

/-- A text has one list of matches. -/
theorem unique (h : AreMatches find front rest afresh list) {list' : List Match}
    (h' : AreMatches find front rest afresh list') : list = list' := by
  induction h generalizing list' with
  | done hnone =>
    cases h' with
    | done => rfl
    | next hfirst hfind hcounts hrest => exact absurd hcounts (hnone _ _ rfl _ hfind)
  | @next front gap after afresh finding others hfirst hfind hcounts hrest ih =>
    generalize htext : gap ++ (finding.source ++ after) = text at h'
    cases h' with
    | done hnone => exact absurd hcounts (hnone _ _ htext.symm _ hfind)
    | @next _ gap' after' _ finding' others' hfirst' hfind' hcounts' hrest' =>
      rcases Nat.lt_trichotomy gap'.length gap.length with hlt | heq | hlt
      · exact absurd hcounts' (hfirst _ _ htext hlt _ hfind')
      · rcases List.append_inj htext heq.symm with ⟨rfl, hafter⟩
        rw [hafter, hfind', Option.some.injEq] at hfind
        subst hfind
        rw [List.append_cancel_left hafter] at ih
        rw [ih hrest']
      · exact absurd hcounts (hfirst' _ _ htext.symm hlt _ hfind)

/-! ## Places of matches -/

/-- Each match is what is found at its place. -/
theorem exists_place (h : AreMatches find front rest afresh list) :
    ∀ found ∈ list, ∃ before after, front ++ rest = before ++ (found.finding.source ++ after) ∧
      found.start = Text.byteLength before ∧
      find before.getLast? (found.finding.source ++ after) = some found.finding := by
  induction h with
  | done =>
    intro found hfound
    cases hfound
  | @next front gap after afresh finding others hfirst hfind hcounts hrest ih =>
    intro found hfound
    rcases List.mem_cons.mp hfound with rfl | hfound
    · exact ⟨front ++ gap, after, (List.append_assoc front gap _).symm, rfl, hfind⟩
    · simpa only [List.append_assoc] using ih found hfound

/-- Matches start behind the front. -/
theorem le_start (h : AreMatches find front rest afresh list) :
    ∀ found ∈ list, Text.byteLength front ≤ found.start := by
  induction h with
  | done =>
    intro found hfound
    cases hfound
  | @next front gap after afresh finding others hfirst hfind hcounts hrest ih =>
    intro found hfound
    rcases List.mem_cons.mp hfound with rfl | hfound
    · rw [Text.byteLength_append]
      exact Nat.le_add_right _ _
    · have hle := ih found hfound
      rw [Text.byteLength_append, Text.byteLength_append] at hle
      omega

/-- Where nothing counts right behind the front, matches start further on. -/
theorem lt_start (h : AreMatches find front rest afresh list)
    (hidle : Idle find front [] rest afresh) :
    ∀ found ∈ list, Text.byteLength front < found.start := by
  cases h with
  | done =>
    intro found hfound
    cases hfound
  | @next _ gap after _ finding others hfirst hfind hcounts hrest =>
    have hgap : 0 < Text.byteLength gap := by
      rw [Nat.pos_iff_ne_zero, Ne, Text.byteLength_eq_zero_iff]
      rintro rfl
      exact hidle finding hfind hcounts
    intro found hfound
    rcases List.mem_cons.mp hfound with rfl | hfound
    · rw [Text.byteLength_append]
      exact Nat.lt_add_of_pos_right hgap
    · have hle := le_start hrest found hfound
      rw [Text.byteLength_append, Text.byteLength_append] at hle
      omega

/-- Matches are ascending and do not overlap. -/
theorem pairwise (h : AreMatches find front rest afresh list) :
    list.Pairwise fun first second => first.start < second.start ∧ first.stop ≤ second.start := by
  induction h with
  | done => exact .nil
  | @next front gap after afresh finding others hfirst hfind hcounts hrest ih =>
    refine List.pairwise_cons.mpr ⟨fun second hsecond => ?_, ih⟩
    have hstop : Match.stop ⟨Text.byteLength (front ++ gap), finding⟩ ≤ second.start := by
      have hle := le_start hrest second hsecond
      rwa [Text.byteLength_append] at hle
    refine ⟨?_, hstop⟩
    by_cases hempty : finding.source = []
    · -- The same empty text is found behind the match and does not count there.
      rw [hempty, List.append_nil] at hrest
      rw [hempty, List.nil_append] at hfind
      exact lt_start hrest (idle_of_empty hfind hempty) second hsecond
    · have hpos : 0 < Text.byteLength finding.source := by
        rwa [Nat.pos_iff_ne_zero, Ne, Text.byteLength_eq_zero_iff]
      exact Nat.lt_of_lt_of_le (Nat.lt_add_of_pos_right hpos) hstop

/-! ## Steps of a sweep -/

/-- At the end of the text nothing is left. -/
theorem nil (hidle : Idle find front [] [] afresh) : AreMatches find front [] afresh [] := by
  refine done fun gap after htext => ?_
  rcases List.append_eq_nil_iff.mp htext.symm with ⟨rfl, rfl⟩
  exact hidle

/-- A match right behind the front. -/
theorem here {finding : Finding} {after : Text}
    (hfind : find front.getLast? (finding.source ++ after) = some finding)
    (hcounts : finding.source ≠ [] ∨ afresh = true)
    (hrest : AreMatches find (front ++ finding.source) after false list) :
    AreMatches find front (finding.source ++ after) afresh
      (⟨Text.byteLength front, finding⟩ :: list) := by
  rw [← List.append_nil front] at hfind hrest
  have hnext : AreMatches find front ([] ++ (finding.source ++ after)) afresh
      (⟨Text.byteLength (front ++ []), finding⟩ :: list) :=
    next (fun gap' _ _ hlt => absurd hlt (Nat.not_lt_zero gap'.length)) hfind
      (fun hempty _ => hcounts.resolve_left (fun hne => hne hempty)) hrest
  rwa [List.append_nil] at hnext

/-- A match without text at a fresh place. -/
theorem here_of_empty {finding : Finding} (hfind : find front.getLast? rest = some finding)
    (hempty : finding.source = []) (hrest : AreMatches find front rest false list) :
    AreMatches find front rest true (⟨Text.byteLength front, finding⟩ :: list) := by
  have hhere : AreMatches find front (finding.source ++ rest) true
      (⟨Text.byteLength front, finding⟩ :: list) := by
    refine here ?_ (.inr rfl) ?_
    · rwa [hempty]
    · rwa [hempty, List.append_nil]
  rwa [hempty] at hhere

/-- A character is passed over where nothing counts. -/
theorem pass {c : Char} (hidle : Idle find front [] (c :: rest) afresh)
    (h : AreMatches find (front ++ [c]) rest true list) :
    AreMatches find front (c :: rest) afresh list := by
  have hstep : ∀ {gap after : Text}, c :: rest = gap ++ after →
      (∀ others, gap = c :: others → rest = others ++ after →
        Idle find (front ++ [c]) others after true) → Idle find front gap after afresh := by
    intro gap after htext hlater
    rcases List.cons_eq_append_iff.mp htext with ⟨rfl, rfl⟩ | ⟨others, rfl, hrest⟩
    · exact hidle
    · exact idle_cons (hlater others rfl hrest)
  cases h with
  | done hnone =>
    exact done fun gap after htext => hstep htext fun others _ hrest => hnone others after hrest
  | @next _ gap after _ finding others hfirst hfind hcounts hrest =>
    rw [← List.append_cons] at hfind hrest ⊢
    change AreMatches find front ((c :: gap) ++ (finding.source ++ after)) afresh _
    refine next (fun gap' after' htext hlt => ?_) hfind (fun _ hnil => nomatch hnil) hrest
    refine hstep htext fun others hgap hothers => hfirst others after' hothers ?_
    rw [hgap] at hlt
    exact Nat.lt_of_succ_lt_succ hlt

end AreMatches

/-! ## The findings of a sweep -/

namespace Lexicon

/-- The matches among the pieces of a text that starts at a byte offset. -/
def matchesFrom : Nat → List Piece → List Match
  | _, [] => []
  | offset, .passed c :: others => matchesFrom (offset + c.utf8Size) others
  | offset, .found finding :: others =>
    ⟨offset, finding⟩ :: matchesFrom (offset + Text.byteLength finding.source) others

/-- The findings of a sweep, each at its place. -/
def matchesIn (lexicon : Lexicon) (text : Text) : List Match :=
  matchesFrom 0 (lexicon.sweep text)

variable {lexicon : Lexicon} {text : Text}

/-- At the end of the text only the empty text is found. -/
theorem source_eq_nil_of_findAt? {before : Option Char} {finding : Finding}
    (h : lexicon.findAt? before [] = some finding) : finding.source = [] := by
  rcases append_of_findAt? h with ⟨after, hafter⟩
  exact (List.append_eq_nil_iff.mp hafter.symm).1

/-- A character that is passed over moves the others. -/
theorem matchesFrom_passed (front : Text) (c : Char) (others : List Piece) :
    matchesFrom (Text.byteLength front) (.passed c :: others) =
      matchesFrom (Text.byteLength (front ++ [c])) others := by
  rw [matchesFrom, Text.byteLength_append]
  rfl

/-- A finding is a match and moves the others. -/
theorem matchesFrom_found (front : Text) (finding : Finding) (others : List Piece) :
    matchesFrom (Text.byteLength front) (.found finding :: others) =
      ⟨Text.byteLength front, finding⟩ ::
        matchesFrom (Text.byteLength (front ++ finding.source)) others := by
  rw [matchesFrom, Text.byteLength_append]

/-- The findings of a sweep are the matches of what is found at each place. -/
theorem areMatches_sweepFrom (lexicon : Lexicon) (front : Text) (afresh : Bool) (text : Text) :
    AreMatches lexicon.findAt? front text afresh
      (matchesFrom (Text.byteLength front) (lexicon.sweepFrom front.getLast? afresh text)) := by
  generalize hbefore : front.getLast? = before
  fun_induction sweepFrom lexicon before afresh text generalizing front with
  | case1 before =>
    subst hbefore
    cases hfind : lexicon.findAt? front.getLast? [] with
    | none => exact .nil (idle_of_none hfind)
    | some finding =>
      have hempty := source_eq_nil_of_findAt? hfind
      exact .here_of_empty hfind hempty (.nil (idle_of_empty hfind hempty))
  | case2 before afresh hafresh =>
    rw [Bool.not_eq_true] at hafresh
    subst hafresh hbefore
    cases hfind : lexicon.findAt? front.getLast? [] with
    | none => exact .nil (idle_of_none hfind)
    | some finding => exact .nil (idle_of_empty hfind (source_eq_nil_of_findAt? hfind))
  | case3 before afresh c rest finding hfind hempty ih =>
    subst hbefore
    have hpassed : AreMatches lexicon.findAt? front (c :: rest) false
        (matchesFrom (Text.byteLength front)
          (.passed c :: lexicon.sweepFrom (some c) true rest)) := by
      rw [matchesFrom_passed]
      exact .pass (idle_of_empty hfind hempty) (ih (front ++ [c]) List.getLast?_concat)
    cases afresh with
    | false => exact hpassed
    | true =>
      have hoffset := matchesFrom_found front finding
        (.passed c :: lexicon.sweepFrom (some c) true rest)
      rw [hempty, List.append_nil] at hoffset
      exact hoffset ▸ .here_of_empty hfind hempty hpassed
  | case4 before afresh c rest finding hfind hne ih =>
    subst hbefore
    rcases append_of_findAt? hfind with ⟨after, hafter⟩
    rw [hafter] at hfind ih ⊢
    rw [List.drop_left] at ih ⊢
    rw [matchesFrom_found]
    refine .here hfind (.inl hne) (ih (front ++ finding.source) ?_)
    rw [lastOr, List.getLast?_append]
  | case5 before afresh c rest hfind ih =>
    subst hbefore
    rw [matchesFrom_passed]
    exact .pass (idle_of_none hfind) (ih (front ++ [c]) List.getLast?_concat)

/-- The matches in a whole text. -/
theorem areMatches_matchesIn (lexicon : Lexicon) (text : Text) :
    AreMatches lexicon.findAt? [] text true (lexicon.matchesIn text) :=
  areMatches_sweepFrom lexicon [] true text

/-! ## The set of the names -/

/-- In an order, nothing with a property stands before the first element that has it. -/
theorem eq_or_before_of_find? {α : Type} {before : α → α → Bool} {list : List α} {p : α → Bool}
    {a b : α} (h : list.Pairwise fun a b => before a b = true) (ha : list.find? p = some a)
    (hb : b ∈ list) (hp : p b = true) : a = b ∨ before a b = true := by
  rcases List.find?_eq_some_iff_append.mp ha with ⟨-, front, back, rfl, hfront⟩
  rcases List.mem_append.mp hb with hb | hb
  · have hfalse := hfront b hb
    rw [hp] at hfalse
    cases hfalse
  · rcases List.mem_cons.mp hb with rfl | hb
    · exact .inl rfl
    · exact .inr ((List.pairwise_cons.mp (List.pairwise_append.mp h).2.1).1 b hb)

/-- In an order, the first element with a property depends on the set of the elements only. -/
theorem find?_eq_of_mem_iff {α : Type} {before : α → α → Bool}
    (hanti : ∀ a b, before a b = true → before b a = true → a = b) {list list' : List α}
    (h : list.Pairwise fun a b => before a b = true)
    (h' : list'.Pairwise fun a b => before a b = true) (hmem : ∀ a, a ∈ list ↔ a ∈ list')
    (p : α → Bool) : list.find? p = list'.find? p := by
  cases hfind : list.find? p with
  | none =>
    refine (List.find?_eq_none.mpr fun b hb => ?_).symm
    exact List.find?_eq_none.mp hfind b ((hmem b).mpr hb)
  | some a =>
    have ha := (hmem a).mp (List.mem_of_find?_eq_some hfind)
    cases hfind' : list'.find? p with
    | none => exact absurd (List.find?_some hfind) (List.find?_eq_none.mp hfind' a ha)
    | some b =>
      have hb := (hmem b).mpr (List.mem_of_find?_eq_some hfind')
      rcases eq_or_before_of_find? h hfind hb (List.find?_some hfind') with rfl | hab
      · rfl
      · rcases eq_or_before_of_find? h' hfind' ha (List.find?_some hfind) with rfl | hba
        · rfl
        · rw [hanti a b hab hba]

/-- The names of a lexicon are the given ones, however often and in which order they are given. -/
theorem mem_names_congr {role : Role} {names others : List Text}
    (h : ∀ name, name ∈ others ↔ name ∈ names) (name : Text) :
    name ∈ (ofNames role others).names ↔ name ∈ (ofNames role names).names := by
  by_cases hnames : names = []
  · subst hnames
    rw [List.eq_nil_iff_forall_not_mem.mpr fun name hname => List.not_mem_nil ((h name).mp hname)]
  · have hothers : others ≠ [] := by
      rcases List.exists_mem_of_ne_nil names hnames with ⟨name, hname⟩
      exact List.ne_nil_of_mem ((h name).mpr hname)
    rw [mem_names_ofNames hothers, mem_names_ofNames hnames, h]

/-- What is found at a place depends on the set of the names only. -/
theorem findAt?_congr {role : Role} {names others : List Text}
    (h : ∀ name, name ∈ others ↔ name ∈ names) :
    (ofNames role others).findAt? = (ofNames role names).findAt? := by
  have hrole : ∀ names, (ofNames role names).role = role := fun _ => rfl
  funext before text
  rw [findAt?, findAt?, hrole, hrole]
  congr 1
  funext length
  rw [findBehind?, findBehind?, hrole, hrole, find?_eq_of_mem_iff triedBefore_antisymm
    (pairwise_names_ofNames role others) (pairwise_names_ofNames role names) (mem_names_congr h)]

/-- The matches depend on the set of the names only. -/
theorem matchesIn_congr {role : Role} {names others : List Text}
    (h : ∀ name, name ∈ others ↔ name ∈ names) (text : Text) :
    (ofNames role others).matchesIn text = (ofNames role names).matchesIn text := by
  have hothers := areMatches_matchesIn (ofNames role others) text
  rw [findAt?_congr h] at hothers
  exact hothers.unique (areMatches_matchesIn (ofNames role names) text)

end Lexicon

end SourceMask
