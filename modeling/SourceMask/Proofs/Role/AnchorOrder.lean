import SourceMask.Proofs.Role.Expression

/-!
# The order of anchors

The anchor of each role is a regular expression.  The lengths of the anchors at a place are what the
expression takes there, and they are listed in the order in which it tries them.  Only where the
parts of an anchor can divide blanks and asterisks in several ways does the expression try a length
again, and that finds nothing new.

Main results:

- Theorem `lengths_modifiedExpression`: modifiers are taken one after the other.
- Theorem `findsAlike_modified`: modifiers and what may follow them are tried in the listed order.
- Theorem `findsAlike_anchors`: the anchors of a role are tried in the listed order.
-/

namespace SourceMask

namespace Role

open Lexicon (lastOr)
open Expression

variable {before : Option Char} {text : Text}

/-! ## Expressions of anchors -/

/-- One modifier with blanks behind it. -/
def modifierExpression : Expression :=
  both (oneOf (modifiers.map word)) (oneOrMore (one Text.isBlank))

/-- What may follow the modifiers. -/
def tailExpression : Expression := both (perhaps (one (· = '*'))) (many (one Text.isBlank))

/-- Modifiers and what may follow them. -/
def modifiedExpression : Expression := both (many modifierExpression) tailExpression

/-- The anchor of a role. -/
def anchorExpression : Role → Expression
  | className => both boundary (both (word classKeyword) (oneOrMore (one Text.isBlank)))
  | functionName | methodName =>
    both boundary (both (oneOf (memberKeywords.map word)) (both boundary
      (both (many (one isBlankOrStar)) modifiedExpression)))
  | propertyName => empty
  | variableName => either start (one precedesVariable)

/-! ## Runs -/

/-- A run of fewer characters is no longer. -/
theorem runLength_le_runLength {p q : Char → Bool} (h : ∀ c, p c = true → q c = true)
    (text : Text) : runLength p text ≤ runLength q text := by
  induction text with
  | nil => exact Nat.le_refl _
  | cons c rest ih =>
    by_cases hc : p c = true
    · rw [runLength_cons_of_pos hc, runLength_cons_of_pos (h c hc)]
      exact Nat.succ_le_succ ih
    · rw [runLength_eq_zero (by simpa using hc)]
      exact Nat.zero_le _

/-- A run goes on behind a part of it. -/
theorem runLength_drop {p : Char → Bool} {n : Nat} (h : n ≤ runLength p text) :
    runLength p (text.drop n) = runLength p text - n := by
  have hrun := runLength_append (all_take_of_le_runLength h) (text.drop n)
  have hlength : (text.take n).length = n := by
    have hle : runLength p text ≤ text.length := (List.takeWhile_sublist _).length_le
    rw [List.length_take]
    omega
  rw [List.take_append_drop, hlength] at hrun
  omega

/-- Inside of a run its property holds. -/
theorem head?_drop_of_lt_runLength {p : Char → Bool} {n : Nat} (h : n < runLength p text) :
    (text.drop n).head?.any p = true := by
  have hrun := runLength_drop (Nat.le_of_lt h)
  cases hhead : (text.drop n).head?.any p with
  | true => rfl
  | false =>
    rw [runLength_eq_zero hhead] at hrun
    omega

/-- Behind a run its property does not hold. -/
theorem head?_drop_runLength (p : Char → Bool) (text : Text) :
    (text.drop (runLength p text)).head?.any p = false := by
  induction text with
  | nil => rfl
  | cons c rest ih =>
    by_cases hc : p c = true
    · rw [runLength_cons_of_pos hc, List.drop_succ_cons]
      exact ih
    · have hhead : (c :: rest).head?.any p = false := by simpa using hc
      rw [runLength_eq_zero hhead, List.drop_zero, hhead]

/-! ## What may follow the modifiers -/

/-- The greatest length of what may follow the modifiers. -/
def tailLength : Text → Nat
  | '*' :: rest => runLength Text.isBlank rest + 1
  | text => runLength Text.isBlank text

/-- What does not start with an asterisk is blank. -/
theorem tailLength_of_head? (h : text.head? ≠ some '*') :
    tailLength text = runLength Text.isBlank text := by
  unfold tailLength
  split
  · exact absurd rfl h
  · rfl

/-- What may follow the modifiers takes each length up to the greatest one. -/
theorem lengths_tailExpression (before : Option Char) (text : Text) :
    tailExpression.lengths before text = countdown 0 (tailLength text) := by
  by_cases hhead : text.head? = some '*'
  · rcases List.head?_eq_some_iff.mp hhead with ⟨rest, rfl⟩
    have hstar : (perhaps (one (· = '*'))).lengths before ('*' :: rest) = [1, 0] := rfl
    have hblank : runLength Text.isBlank ('*' :: rest) = 0 := runLength_eq_zero rfl
    rw [tailExpression, lengths, hstar, List.flatMap_cons, List.flatMap_singleton,
      lengths_many_one, lengths_many_one, List.drop_zero, hblank, tailLength, countdown_zero_succ]
    rfl
  · have hnone : (perhaps (one (· = '*'))).lengths before text = [0] := by
      rw [perhaps, lengths, lengths, lengths, if_neg]
      · rfl
      · cases text with
        | nil => exact Bool.false_ne_true
        | cons c rest => simpa using hhead
    rw [tailExpression, lengths, hnone, List.flatMap_singleton, lengths_many_one, List.drop_zero,
      tailLength_of_head? hhead]
    simp

/-- What may follow the modifiers is blanks and an asterisk. -/
theorem tailLength_le (text : Text) : tailLength text ≤ runLength isBlankOrStar text := by
  have hblank : ∀ c, Text.isBlank c = true → isBlankOrStar c = true := by
    intro c hc
    rw [isBlankOrStar, hc, Bool.true_or]
  unfold tailLength
  split
  · rw [runLength_cons_of_pos rfl]
    exact Nat.succ_le_succ (runLength_le_runLength hblank _)
  · exact runLength_le_runLength hblank _

/-- Where no blank stands, what may follow the modifiers is what is listed for it. -/
theorem starLengths_eq (h : text.head?.any Text.isBlank = false) :
    starLengths text = countdown 0 (tailLength text) := by
  unfold starLengths
  split
  · rw [tailLength, Nat.add_comm]
  · rename_i hne
    have hhead : text.head? ≠ some '*' := by
      intro hhead
      rcases List.head?_eq_some_iff.mp hhead with ⟨rest, htext⟩
      exact hne rest htext
    rw [tailLength_of_head? hhead, runLength_eq_zero h]
    rfl

/-! ## Modifiers -/

/-- A modifier takes one or more of the blanks behind it, all of them if possible. -/
theorem lengths_modifierExpression (before : Option Char) (text : Text) :
    modifierExpression.lengths before text =
      match modifier? text with
      | some (n, blank, _) => (countdown 1 blank).map (n + ·)
      | none => [] := by
  have hfree : PrefixFree modifiers := by decide
  rw [modifierExpression, lengths, lengths_oneOf_words (by decide) hfree, modifier?]
  cases hword : leadingWord? modifiers text with
  | none => rfl
  | some found =>
    rcases found with ⟨n, rest⟩
    rcases exists_of_leadingWord? hword with ⟨word, -, rfl, rfl⟩
    dsimp only
    rw [Option.toList_some, List.map_singleton, List.flatMap_singleton, lengths_oneOrMore_one,
      List.drop_left]
    by_cases hzero : runLength Text.isBlank rest = 0
    · rw [if_pos hzero, hzero]
      rfl
    · rw [if_neg hzero]

/-- Modifiers are taken one after the other. -/
theorem lengths_modifiedExpression (before : Option Char) (text : Text) :
    modifiedExpression.lengths before text =
      ((modifierExpression.lengths before text).flatMap fun n =>
        (modifiedExpression.lengths (lastOr before (text.take n)) (text.drop n)).map (n + ·)) ++
        countdown 0 (tailLength text) := by
  rw [← lengths_tailExpression before text]
  refine lengths_both_many fun n hn => ?_
  rw [lengths_modifierExpression] at hn
  split at hn
  · rename_i length blank rest hmodifier
    rcases exists_of_modifier? hmodifier with ⟨word, hword, after, rfl, rfl, hpos, hblank, -⟩
    rcases List.mem_map.mp hn with ⟨k, hk, rfl⟩
    rw [mem_countdown] at hk
    refine ⟨by omega, fun hnil => ?_⟩
    rw [(List.append_eq_nil_iff.mp hnil).2] at hblank
    exact absurd hblank (Nat.ne_of_gt hpos)
  · cases hn

/-- Without a modifier only what may follow modifiers is taken. -/
theorem lengths_modifiedExpression_of_none (h : modifier? text = none) (before : Option Char) :
    modifiedExpression.lengths before text = countdown 0 (tailLength text) := by
  rw [lengths_modifiedExpression, lengths_modifierExpression, h]
  rfl

/-- Lengths below one that has been tried need not reach further than to it. -/
theorem findsAlike_of_reach {seen list : List Nat} {top : Nat} {tries : Nat → List Nat}
    (htop : top ∈ seen) (hsorted : list.Pairwise (· > ·))
    (hlist : ∀ n ∈ list, ∀ k, n ≤ k → k < top → k ∈ list)
    (htries : ∀ n ∈ list,
      ∃ reach, n + reach ≤ top ∧ tries n = (countdown 0 reach).map (n + ·)) :
    FindsAlike (seen ++ list.flatMap tries) (seen ++ list) := by
  refine findsAlike_flatMap hsorted (fun n hn => ?_) fun n hn k hk => ?_
  · rcases htries n hn with ⟨reach, -, heq⟩
    rw [heq]
    exact List.mem_map.mpr ⟨0, mem_countdown.mpr ⟨Nat.le_refl 0, Nat.zero_le reach⟩, rfl⟩
  · rcases htries n hn with ⟨reach, hle, heq⟩
    rw [heq] at hk
    rcases List.mem_map.mp hk with ⟨j, hj, rfl⟩
    rw [mem_countdown] at hj
    refine ⟨Nat.le_add_right n j, ?_⟩
    rcases Nat.lt_or_eq_of_le (show n + j ≤ top by omega) with hlt | rfl
    · exact .inr (hlist n hn (n + j) (Nat.le_add_right n j) hlt)
    · exact .inl htop

/-- Behind a modifier and some blanks, where more blanks follow, only blanks are taken. -/
theorem lengths_modifiedExpression_drop {after : Text} {n : Nat}
    (h : n < runLength Text.isBlank after) (before : Option Char) :
    modifiedExpression.lengths before (after.drop n) =
      countdown 0 (runLength Text.isBlank after - n) := by
  have hblank := head?_drop_of_lt_runLength h
  have hstar : (after.drop n).head? ≠ some '*' := by
    intro hstar
    rw [hstar] at hblank
    exact absurd hblank (by decide)
  rw [lengths_modifiedExpression_of_none
    (modifier?_eq_none (any_isBlankOrStar_of_any_isBlank hblank)), tailLength_of_head? hstar,
    runLength_drop (Nat.le_of_lt h)]

/-- Where no blank stands, modifiers and what may follow them are tried in the listed order. -/
theorem findsAlike_modified (h : text.head?.any Text.isBlank = false) (before : Option Char) :
    FindsAlike (modifiedExpression.lengths before text) (modifierLengths text) := by
  fun_induction modifierLengths text generalizing before with
  | case1 text length blank rest hmodifier ih =>
    rcases exists_of_modifier? hmodifier with ⟨word, hword, after, rfl, rfl, hpos, hblank, rfl⟩
    have htail : tailLength (word ++ after) = 0 := by
      have hle := tailLength_le (word ++ after)
      rwa [runLength_eq_zero (head?_modifier hword after), Nat.le_zero] at hle
    have hcount : countdown 1 blank = blank :: countdown 1 (blank - 1) := by
      rcases Nat.exists_eq_add_one.mpr hpos with ⟨others, hothers⟩
      rw [hothers, countdown_succ (Nat.le_add_left 1 others), Nat.add_sub_cancel]
    rw [lengths_modifiedExpression, lengths_modifierExpression, hmodifier, htail]
    dsimp only
    rw [hcount, List.map_cons, List.flatMap_cons, List.drop_length_add_append]
    have hfirst : FindsAlike _
        ((modifierLengths (after.drop blank)).map (word.length + blank + ·)) :=
      (ih (hblank ▸ head?_drop_runLength Text.isBlank after)
        (lastOr before ((word ++ after).take (word.length + blank)))).map _
    -- With fewer blanks only blanks follow, up to a place that has been tried with all of them.
    have htop : word.length + blank ∈
        (modifierLengths (after.drop blank)).map (word.length + blank + ·) :=
      List.mem_map.mpr ⟨0, zero_mem_modifierLengths _, rfl⟩
    refine .append ((hfirst.append (.refl _)).trans ?_) (.refl [0])
    refine findsAlike_of_reach htop ?_ ?_ ?_
    · rw [List.pairwise_map]
      exact (pairwise_countdown 1 _).imp fun hlt => Nat.add_lt_add_left hlt _
    · intro n hn k hle hlt
      rcases List.mem_map.mp hn with ⟨i, hi, rfl⟩
      rw [mem_countdown] at hi
      exact List.mem_map.mpr ⟨k - word.length, mem_countdown.mpr (by omega), by omega⟩
    · intro n hn
      rcases List.mem_map.mp hn with ⟨i, hi, rfl⟩
      rw [mem_countdown] at hi
      refine ⟨blank - i, by omega, ?_⟩
      rw [List.drop_length_add_append, lengths_modifiedExpression_drop (by omega), ← hblank]
  | case2 text hnone =>
    rw [lengths_modifiedExpression_of_none hnone, starLengths_eq h]
    exact .refl _

/-! ## Anchors -/

/-- Blanks and asterisks, and what follows them, are tried in the listed order. -/
theorem findsAlike_gap (before : Option Char) (text : Text) :
    FindsAlike ((both (many (one isBlankOrStar)) modifiedExpression).lengths before text)
      ((modifierLengths (text.drop (runLength isBlankOrStar text))).map
          (runLength isBlankOrStar text + ·) ++
        (List.range (runLength isBlankOrStar text)).reverse) := by
  generalize hrun : runLength isBlankOrStar text = run
  have hstop := head?_drop_runLength isBlankOrStar text
  rw [hrun] at hstop
  have hblank : (text.drop run).head?.any Text.isBlank = false := by
    rw [← Bool.not_eq_true] at hstop ⊢
    exact fun hblank => hstop (any_isBlankOrStar_of_any_isBlank hblank)
  have hfirst := (findsAlike_modified hblank (lastOr before (text.take run))).map (run + ·)
  rw [lengths, lengths_many_one, hrun, countdown_zero_eq, List.flatMap_cons]
  -- Inside of the gap no modifier starts, and nothing reaches beyond the gap.
  have htop : run ∈ (modifierLengths (text.drop run)).map (run + ·) :=
    List.mem_map.mpr ⟨0, zero_mem_modifierLengths _, rfl⟩
  refine (hfirst.append (.refl _)).trans (findsAlike_of_reach htop ?_ ?_ ?_)
  · exact List.pairwise_reverse.mpr List.pairwise_lt_range
  · intro n _ k _ hlt
    exact List.mem_reverse.mpr (List.mem_range.mpr hlt)
  · intro n hn
    rw [List.mem_reverse, List.mem_range, ← hrun] at hn
    refine ⟨tailLength (text.drop n), ?_, ?_⟩
    · have hle := tailLength_le (text.drop n)
      rw [runLength_drop (Nat.le_of_lt hn)] at hle
      omega
    · rw [lengths_modifiedExpression_of_none (modifier?_eq_none (head?_drop_of_lt_runLength hn))]

/-- The anchors of class names are tried in the listed order. -/
theorem lengths_classAnchor (before : Option Char) (text : Text) :
    (anchorExpression className).lengths before text = classAnchors before text := by
  rw [anchorExpression, lengths_both_boundary, lengths_both_word, classAnchors]
  cases Text.dropStart? classKeyword text with
  | none => exact ite_self []
  | some rest =>
    dsimp only
    rw [lengths_oneOrMore_one]

/-- The anchors of the names of functions and methods are tried in the listed order. -/
theorem findsAlike_memberAnchors (before : Option Char) (text : Text) :
    FindsAlike ((anchorExpression methodName).lengths before text)
      (memberAnchors before text) := by
  have hfree : PrefixFree memberKeywords := by decide
  rw [anchorExpression, lengths_both_boundary, lengths, lengths_oneOf_words (by decide) hfree,
    memberAnchors]
  cases hword : leadingWord? memberKeywords text with
  | none =>
    rw [Option.toList_none, List.map_nil, List.flatMap_nil, ite_self]
    exact .refl _
  | some found =>
    rcases found with ⟨n, rest⟩
    rcases exists_of_leadingWord? hword with ⟨keyword, hmem, rfl, rfl⟩
    have hlast : lastOr before keyword = keyword.getLast? := by
      rw [lastOr]
      cases hlast : keyword.getLast? with
      | none =>
        have hends := (isWordChar_ends_keyword hmem).1
        rw [hlast] at hends
        cases hends
      | some c => rfl
    rw [Option.toList_some, List.map_singleton, List.flatMap_singleton, List.take_left,
      List.drop_left, lengths_both_boundary, hlast, isWordBoundary_keyword hmem]
    dsimp only
    cases Text.isWordBoundary before (keyword ++ rest).head? with
    | false => exact .refl _
    | true =>
      cases !rest.head?.any Text.isWordChar with
      | false => exact .refl _
      | true =>
        have hgap := (findsAlike_gap keyword.getLast? rest).map (keyword.length + ·)
        rw [List.map_append, List.map_map] at hgap
        simpa [Function.comp_def, Nat.add_assoc] using hgap

/-- The anchors of a role are tried in the listed order. -/
theorem findsAlike_anchors (role : Role) (before : Option Char) (text : Text) :
    FindsAlike (role.anchorExpression.lengths before text) (role.anchors before text) := by
  cases role with
  | className =>
    rw [lengths_classAnchor]
    exact .refl _
  | functionName => exact findsAlike_memberAnchors before text
  | methodName => exact findsAlike_memberAnchors before text
  | propertyName => exact .refl _
  | variableName =>
    cases text with
    | nil => exact .refl _
    | cons c rest => exact .refl _

end Role

end SourceMask
