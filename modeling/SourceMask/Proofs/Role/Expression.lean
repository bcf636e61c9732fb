import Mathlib.Data.List.Basic
import SourceMask.Proofs.Role.Delimited

/-!
# Regular expressions

A regular expression can take texts of several lengths at one place.  They are listed in the order
in which they are tried: of two alternatives the first one goes first, and repeating once more goes
before stopping.  A length may be listed more than once, and only its first entry counts.

Main results:

- Theorem `lengths_both_many`: a repetition in front of an expression is tried once more, and then
  the expression.
- Theorem `findsAlike_flatMap`: lengths that are listed again change nothing.
-/

namespace SourceMask

open Lexicon (lastOr lastOr_append)

/-- Regular expressions. -/
inductive Expression where
  /-- The empty text. -/
  | empty
  /-- One character of a class. -/
  | one (among : Char → Bool)
  /-- No text, but the start of the text has to be there. -/
  | start
  /-- No text, but a word has to start or end there. -/
  | boundary
  /-- One expression behind another. -/
  | both (first second : Expression)
  /-- One of two expressions, the first one if possible. -/
  | either (first second : Expression)
  /-- An expression any number of times, as often as possible. -/
  | many (inner : Expression)

namespace Expression

/-! ## What an expression takes -/

/-- The lengths that repeated steps take in the order in which they are tried.  A step that takes
nothing is the last one. -/
def repeated (step : Option Char → Text → List Nat) (before : Option Char) (text : Text) :
    List Nat :=
  (step before text).flatMap (fun n =>
    if n = 0 ∨ text = [] then [n]
    else (repeated step (lastOr before (text.take n)) (text.drop n)).map (n + ·)) ++ [0]
termination_by text.length
decreasing_by
  rename_i h
  rw [not_or] at h
  have hpos := List.length_pos_iff.mpr h.2
  rw [List.length_drop]
  omega

/-- The lengths of the texts that an expression takes at the start of a text, behind a given
character, in the order in which they are tried. -/
def lengths : Expression → Option Char → Text → List Nat
  | empty, _, _ => [0]
  | one among, _, text => if text.head?.any among then [1] else []
  | start, before, _ => if before = none then [0] else []
  | boundary, before, text => if Text.isWordBoundary before text.head? then [0] else []
  | both first second, before, text =>
    (first.lengths before text).flatMap fun n =>
      (second.lengths (lastOr before (text.take n)) (text.drop n)).map (n + ·)
  | either first second, before, text => first.lengths before text ++ second.lengths before text
  | many inner, before, text => repeated inner.lengths before text

/-- A given text. -/
def word : Text → Expression
  | [] => empty
  | c :: rest => both (one (· = c)) (word rest)

/-- One of several expressions, the first possible one; without any of them the empty text. -/
def oneOf : List Expression → Expression
  | [] => empty
  | [only] => only
  | first :: second :: others => either first (oneOf (second :: others))

/-- An expression at least once. -/
def oneOrMore (inner : Expression) : Expression := both inner (many inner)

/-- An expression or nothing. -/
def perhaps (inner : Expression) : Expression := either inner empty

end Expression

namespace Role

/-- A character that has the property makes a run longer. -/
theorem runLength_cons_of_pos {p : Char → Bool} {c : Char} {rest : Text} (h : p c = true) :
    runLength p (c :: rest) = runLength p rest + 1 := by
  rw [runLength, List.takeWhile_cons_of_pos h, List.length_cons, runLength]

/-! ## Numbers downwards -/

/-- Counting down to zero goes one further than counting down to one. -/
theorem countdown_zero_succ (n : Nat) :
    countdown 0 (n + 1) = (countdown 0 n).map (1 + ·) ++ [0] := by
  rw [countdown, Nat.sub_zero, List.range_succ, List.map_append, List.map_singleton, Nat.sub_self,
    countdown, List.map_map]
  congr 1
  refine List.map_congr_left fun k hk => ?_
  rw [List.mem_range] at hk
  change n + 1 - k = 1 + (n - k)
  omega

theorem countdown_one_succ (n : Nat) : countdown 1 (n + 1) = (countdown 0 n).map (1 + ·) := by
  rw [countdown, countdown, List.map_map]
  refine List.map_congr_left fun k hk => ?_
  rw [List.mem_range] at hk
  change n + 1 - k = 1 + (n - k)
  omega

/-- The greatest number comes first. -/
theorem countdown_succ {low high : Nat} (h : low ≤ high + 1) :
    countdown low (high + 1) = (high + 1) :: countdown low high := by
  have hlength : high + 1 + 1 - low = (high + 1 - low) + 1 := by omega
  rw [countdown, hlength, List.range_succ_eq_map, List.map_cons, List.map_map, Nat.sub_zero,
    countdown]
  congr 1
  refine List.map_congr_left fun k _ => ?_
  change high + 1 - (k + 1) = high - k
  omega

theorem countdown_zero_eq (n : Nat) : countdown 0 n = n :: (List.range n).reverse := by
  induction n with
  | zero => rfl
  | succ n ih =>
    rw [countdown_succ (Nat.zero_le _), ih, List.range_succ, List.reverse_append]
    rfl

/-- Numbers downwards are descending. -/
theorem pairwise_countdown (low high : Nat) : (countdown low high).Pairwise (· > ·) := by
  rw [countdown, List.pairwise_map]
  refine List.pairwise_lt_range.imp_of_mem ?_
  intro first second _ hsecond hlt
  rw [List.mem_range] at hsecond
  change high - second < high - first
  omega

end Role

namespace Expression

variable {before : Option Char} {text : Text}

/-! ## Lists of lengths -/

/-- Whether two lists of lengths lead to the same first success, whatever is tried. -/
def FindsAlike (first second : List Nat) : Prop :=
  ∀ (α : Type) (f : Nat → Option α), first.findSome? f = second.findSome? f

namespace FindsAlike

variable {first second first' second' third : List Nat}

theorem refl (list : List Nat) : FindsAlike list list := fun _ _ => rfl

theorem trans (h : FindsAlike first second) (h' : FindsAlike second third) :
    FindsAlike first third :=
  fun α f => (h α f).trans (h' α f)

theorem append (h : FindsAlike first second) (h' : FindsAlike first' second') :
    FindsAlike (first ++ first') (second ++ second') := by
  intro α f
  rw [List.findSome?_append, List.findSome?_append, h α f, h' α f]

theorem map (g : Nat → Nat) (h : FindsAlike first second) :
    FindsAlike (first.map g) (second.map g) := by
  intro α f
  rw [List.findSome?_map, List.findSome?_map]
  exact h α (f ∘ g)

end FindsAlike

/-- If one length is new and all others of a list have been tried before, only that one counts. -/
theorem findsAlike_append_singleton {seen list : List Nat} {n : Nat} (hmem : n ∈ list)
    (h : ∀ k ∈ list, k = n ∨ k ∈ seen) : FindsAlike (seen ++ list) (seen ++ [n]) := by
  intro α f
  rw [List.findSome?_append, List.findSome?_append]
  cases hseen : seen.findSome? f with
  | some found => rfl
  | none =>
    have hnone := List.findSome?_eq_none_iff.mp hseen
    have honly : list.findSome? f = f n := by
      cases hlist : list.findSome? f with
      | none => exact (List.findSome?_eq_none_iff.mp hlist n hmem).symm
      | some found =>
        rcases List.exists_of_findSome?_eq_some hlist with ⟨k, hk, hfound⟩
        rcases h k hk with rfl | hk
        · exact hfound.symm
        · rw [hnone k hk] at hfound
          cases hfound
    rw [honly, List.findSome?_singleton]

/-- Lengths that are tried again change nothing: of the lists for descending lengths, each adds
its own length to those that have been tried. -/
theorem findsAlike_flatMap {seen list : List Nat} {tries : Nat → List Nat}
    (hsorted : list.Pairwise (· > ·)) (hself : ∀ n ∈ list, n ∈ tries n)
    (h : ∀ n ∈ list, ∀ k ∈ tries n, n ≤ k ∧ (k ∈ seen ∨ k ∈ list)) :
    FindsAlike (seen ++ list.flatMap tries) (seen ++ list) := by
  induction list generalizing seen with
  | nil =>
    rw [List.flatMap_nil]
    exact .refl _
  | cons n rest ih =>
    rcases List.pairwise_cons.mp hsorted with ⟨hfirst, hrest⟩
    have hn : FindsAlike (seen ++ tries n) (seen ++ [n]) := by
      refine findsAlike_append_singleton (hself n List.mem_cons_self) fun k hk => ?_
      rcases h n List.mem_cons_self k hk with ⟨hle, hseen | hmem⟩
      · exact .inr hseen
      · rcases List.mem_cons.mp hmem with rfl | hmem
        · exact .inl rfl
        · exact absurd (hfirst k hmem) (Nat.not_lt.mpr hle)
    have hothers : FindsAlike (seen ++ [n] ++ rest.flatMap tries) (seen ++ [n] ++ rest) := by
      refine ih hrest (fun k hk => hself k (List.mem_cons_of_mem n hk)) fun m hm k hk => ?_
      rcases h m (List.mem_cons_of_mem n hm) k hk with ⟨hle, hseen | hmem⟩
      · exact ⟨hle, .inl (List.mem_append_left _ hseen)⟩
      · rcases List.mem_cons.mp hmem with rfl | hmem
        · exact ⟨hle, .inl (List.mem_append_right _ List.mem_cons_self)⟩
        · exact ⟨hle, .inr hmem⟩
    rw [List.flatMap_cons, ← List.append_assoc]
    refine (hn.append (.refl _)).trans ?_
    rw [List.append_assoc] at hothers
    simpa using hothers

/-! ## Repetitions -/

/-- A repetition in front of an expression is tried once more, and then the expression. -/
theorem lengths_both_many {inner second : Expression}
    (h : ∀ n ∈ inner.lengths before text, n ≠ 0 ∧ text ≠ []) :
    (both (many inner) second).lengths before text =
      ((inner.lengths before text).flatMap fun n =>
        ((both (many inner) second).lengths (lastOr before (text.take n)) (text.drop n)).map
          (n + ·)) ++ second.lengths before text := by
  have hone : ∀ n ∈ inner.lengths before text,
      ((if n = 0 ∨ text = [] then [n] else
        (repeated inner.lengths (lastOr before (text.take n)) (text.drop n)).map (n + ·)).flatMap
          fun k => (second.lengths (lastOr before (text.take k)) (text.drop k)).map (k + ·)) =
      ((both (many inner) second).lengths (lastOr before (text.take n)) (text.drop n)).map
        (n + ·) := by
    intro n hn
    rw [if_neg (by simp [h n hn]), lengths.eq_5, lengths, List.flatMap_map, List.map_flatMap]
    congr 1
    funext k
    rw [List.map_map, List.drop_drop, ← lastOr_append, ← List.take_add]
    congr 1
    funext m
    exact Nat.add_assoc n k m
  calc (both (many inner) second).lengths before text
      = (repeated inner.lengths before text).flatMap fun k =>
          (second.lengths (lastOr before (text.take k)) (text.drop k)).map (k + ·) := rfl
    _ = _ := by
      rw [repeated, List.flatMap_append, List.flatMap_assoc]
      congr 1
      · exact List.flatMap_congr hone
      · simp [lastOr]

/-- Behind a boundary goes on what would start there. -/
theorem lengths_both_boundary (inner : Expression) (before : Option Char) (text : Text) :
    (both boundary inner).lengths before text =
      if Text.isWordBoundary before text.head? then inner.lengths before text else [] := by
  rw [lengths, lengths]
  split <;> simp [lastOr]

/-- Behind nothing goes on what would start there. -/
theorem lengths_both_empty (inner : Expression) (before : Option Char) (text : Text) :
    (both empty inner).lengths before text = inner.lengths before text := by
  rw [lengths, lengths]
  simp [lastOr]

/-- Repeating one character of a class takes runs of the class, the longest first. -/
theorem lengths_many_one (among : Char → Bool) (before : Option Char) (text : Text) :
    (many (one among)).lengths before text = Role.countdown 0 (Role.runLength among text) := by
  induction text generalizing before with
  | nil =>
    rw [lengths, repeated, lengths]
    rfl
  | cons c rest ih =>
    rw [lengths, repeated, lengths, List.head?_cons, Option.any_some]
    by_cases hc : among c = true
    · have hrest := ih (lastOr before [c])
      rw [lengths] at hrest
      rw [if_pos hc, Role.runLength_cons_of_pos hc, Role.countdown_zero_succ, ← hrest]
      simp
    · rw [if_neg hc, Role.runLength_eq_zero (by simpa using hc)]
      rfl

/-- A character of a class once or more takes runs of the class, the longest first. -/
theorem lengths_oneOrMore_one (among : Char → Bool) (before : Option Char) (text : Text) :
    (oneOrMore (one among)).lengths before text =
      Role.countdown 1 (Role.runLength among text) := by
  cases text with
  | nil => rfl
  | cons c rest =>
    rw [oneOrMore, lengths, lengths, List.head?_cons, Option.any_some]
    by_cases hc : among c = true
    · rw [if_pos hc, Role.runLength_cons_of_pos hc, Role.countdown_one_succ,
        List.flatMap_singleton, lengths_many_one]
      rfl
    · rw [if_neg hc, Role.runLength_eq_zero (by simpa using hc)]
      rfl

/-! ## Words -/

/-- A word is taken where the text starts with it. -/
theorem lengths_word (given : Text) (before : Option Char) (text : Text) :
    (word given).lengths before text =
      (Text.dropStart? given text).toList.map fun _ => given.length := by
  induction given generalizing before text with
  | nil => rfl
  | cons c rest ih =>
    rw [word, lengths, lengths]
    cases text with
    | nil => rfl
    | cons d text =>
      rw [List.head?_cons, Option.any_some, Text.dropStart?]
      by_cases hc : c = d
      · subst hc
        rw [if_pos (decide_eq_true rfl), if_pos rfl, List.flatMap_singleton, List.drop_one,
          List.tail_cons, ih, List.map_map, List.length_cons, Nat.add_comm rest.length]
        rfl
      · rw [decide_eq_false (Ne.symm hc), if_neg hc]
        rfl

/-- Behind a word goes on what starts there. -/
theorem lengths_both_word (given : Text) (inner : Expression) (before : Option Char)
    (text : Text) :
    (both (word given) inner).lengths before text =
      match Text.dropStart? given text with
      | some rest => (inner.lengths (lastOr before given) rest).map (given.length + ·)
      | none => [] := by
  rw [lengths, lengths_word]
  cases hdrop : Text.dropStart? given text with
  | none => rfl
  | some rest =>
    rw [(Text.dropStart?_eq_some_iff _ _ _).mp hdrop, Option.toList_some, List.map_singleton,
      List.flatMap_singleton, List.take_left, List.drop_left]

/-- Of several expressions each is tried in turn. -/
theorem lengths_oneOf {list : List Expression} (hne : list ≠ []) (before : Option Char)
    (text : Text) :
    (oneOf list).lengths before text = list.flatMap fun inner => inner.lengths before text := by
  induction list with
  | nil => exact absurd rfl hne
  | cons first others ih =>
    cases others with
    | nil => rw [oneOf, List.flatMap_singleton]
    | cons second others =>
      rw [oneOf, lengths, ih (List.cons_ne_nil _ _)]
      rfl

/-- Of several words, none of which is the beginning of another one, at most one is taken. -/
theorem lengths_oneOf_words {words : List Text} (hne : words ≠ []) (hfree : Role.PrefixFree words)
    (before : Option Char) (text : Text) :
    (oneOf (words.map word)).lengths before text =
      (Role.leadingWord? words text).toList.map Prod.fst := by
  rw [lengths_oneOf (by simpa using hne), List.flatMap_map]
  simp only [lengths_word]
  clear hne
  induction words with
  | nil => rfl
  | cons first others ih =>
    rcases List.pairwise_cons.mp hfree with ⟨hfirst, hothers⟩
    have hleading : Role.leadingWord? (first :: others) text =
        ((Text.dropStart? first text).map fun rest => (first.length, rest)).or
          (Role.leadingWord? others text) := by
      rw [Role.leadingWord?, List.findSome?_cons]
      cases Text.dropStart? first text <;> rfl
    rw [List.flatMap_cons, ih hothers, hleading]
    cases hdrop : Text.dropStart? first text with
    | none => rfl
    | some rest =>
      have hnone : Role.leadingWord? others text = none := by
        cases hleading : Role.leadingWord? others text with
        | none => rfl
        | some found =>
          rcases found with ⟨n, after⟩
          rcases Role.exists_of_leadingWord? hleading with ⟨other, hmem, htext, -⟩
          rw [(Text.dropStart?_eq_some_iff _ _ _).mp hdrop] at htext
          rcases List.append_eq_append_iff.mp htext with ⟨more, h, -⟩ | ⟨more, h, -⟩
          · exact absurd ⟨more, h.symm⟩ (hfirst other hmem).1
          · exact absurd ⟨more, h.symm⟩ (hfirst other hmem).2
      rw [hnone]
      rfl

end Expression

end SourceMask
