import SourceMask.Role.Anchor

/-!
# The grammar of anchors

The lengths of the anchors at a place are listed in the order in which they are tried, and that is
how modifiers, asterisks and blanks are divided among the parts of an anchor.  Which lengths are
listed does not depend on the order.  They are those of the texts that the grammar of anchors
describes: a keyword, blanks and asterisks, modifiers each with blanks behind it, perhaps an
asterisk, and blanks again.

Main results:

- Theorem `isModified_take_of_mem`: what is listed for modifiers and what may follow them is in the
  grammar.
- Theorem `length_mem_modifierLengths`: what is in the grammar is listed.
- Theorem `length_mem_anchors_iff`: a length is listed for a role exactly when the grammar describes
  the text of that length.
-/

namespace SourceMask

namespace Role

/-! ## The grammar -/

/-- What may stand behind the keyword of a function or a method and the first blanks and asterisks:
modifiers, each with blanks behind it, then perhaps an asterisk, then blanks. -/
inductive IsModified : Text → Prop where
  /-- Perhaps an asterisk, and blanks. -/
  | plain {star blanks : Text} (hstar : star = [] ∨ star = ['*'])
      (hblanks : blanks.all Text.isBlank = true) : IsModified (star ++ blanks)
  /-- A modifier, blanks behind it, and more. -/
  | modifier {word blanks rest : Text} (hword : word ∈ modifiers) (hne : blanks ≠ [])
      (hblanks : blanks.all Text.isBlank = true) (hrest : IsModified rest) :
      IsModified (word ++ blanks ++ rest)

/-- Whether a text is the anchor of a class name, behind a given character. -/
def IsClassAnchor (before : Option Char) (anchor : Text) : Prop :=
  ∃ blanks, anchor = classKeyword ++ blanks ∧ blanks ≠ [] ∧ blanks.all Text.isBlank = true ∧
    Text.isWordBoundary before classKeyword.head? = true

/-- Whether a text is the anchor of the name of a function or a method, between given characters:
a keyword that neither neighbour continues, blanks and asterisks, modifiers and what may follow
them. -/
def IsMemberAnchor (before : Option Char) (anchor : Text) (after : Option Char) : Prop :=
  ∃ keyword gap rest, anchor = keyword ++ gap ++ rest ∧ keyword ∈ memberKeywords ∧
    gap.all isBlankOrStar = true ∧ IsModified rest ∧
    Text.isWordBoundary before keyword.head? = true ∧
    Text.isWordBoundary keyword.getLast? ((gap ++ rest).head?.or after) = true

/-- Whether a text between given characters is an anchor of a role. -/
def IsAnchor (role : Role) (before : Option Char) (anchor : Text) (after : Option Char) : Prop :=
  match role with
  | className => IsClassAnchor before anchor
  | functionName | methodName => IsMemberAnchor before anchor after
  | propertyName => anchor = []
  | variableName =>
    anchor = [] ∧ before = none ∨ ∃ c, anchor = [c] ∧ precedesVariable c = true

/-! ## Words and runs -/

/-- No word of a list is the beginning of another one. -/
def PrefixFree (words : List Text) : Prop :=
  words.Pairwise fun first second => ¬first <+: second ∧ ¬second <+: first

instance (words : List Text) : Decidable (PrefixFree words) :=
  inferInstanceAs (Decidable (words.Pairwise _))

/-- If no word is the beginning of another one, a text that starts with a word starts with no
other. -/
theorem leadingWord?_append {words : List Text} {word : Text} (hfree : PrefixFree words)
    (hword : word ∈ words) (rest : Text) :
    leadingWord? words (word ++ rest) = some (word.length, rest) := by
  induction words with
  | nil => cases hword
  | cons first others ih =>
    rcases List.pairwise_cons.mp hfree with ⟨hfirst, hothers⟩
    rw [leadingWord?, List.findSome?_cons]
    rcases List.mem_cons.mp hword with rfl | hword
    · rw [(Text.dropStart?_eq_some_iff _ _ _).mpr rfl]
      rfl
    · have hnone : Text.dropStart? first (word ++ rest) = none := by
        cases hdrop : Text.dropStart? first (word ++ rest) with
        | none => rfl
        | some after =>
          have hprefix : first <+: word ++ rest :=
            ⟨after, ((Text.dropStart?_eq_some_iff _ _ _).mp hdrop).symm⟩
          rcases List.prefix_or_prefix_of_prefix hprefix (List.prefix_append word rest) with h | h
          · exact absurd h (hfirst word hword).1
          · exact absurd h (hfirst word hword).2
      rw [hnone]
      exact ih hothers hword

/-- A run goes on behind characters that have the property. -/
theorem runLength_append {p : Char → Bool} {front : Text} (h : front.all p = true) (text : Text) :
    runLength p (front ++ text) = front.length + runLength p text := by
  rw [runLength, List.takeWhile_append_of_pos (List.all_eq_true.mp h), List.length_append,
    runLength]

/-- A run ends in front of a character that does not have the property. -/
theorem runLength_eq_zero {p : Char → Bool} {text : Text} (h : text.head?.any p = false) :
    runLength p text = 0 := by
  cases text with
  | nil => rfl
  | cons c rest =>
    rw [List.head?_cons, Option.any_some] at h
    rw [runLength, List.takeWhile_cons_of_neg (by simp [h]), List.length_nil]

/-- The characters of a run have the property. -/
theorem all_take_of_le_runLength {p : Char → Bool} {text : Text} {n : Nat}
    (h : n ≤ runLength p text) : (text.take n).all p = true := by
  have htake : text.take n = (text.takeWhile p).take n := by
    calc text.take n = (text.takeWhile p ++ text.dropWhile p).take n := by
          rw [List.takeWhile_append_dropWhile]
      _ = (text.takeWhile p).take n := List.take_append_of_le_length h
  rw [htake, List.all_eq_true]
  intro c hc
  exact List.all_eq_true.mp List.all_takeWhile c (List.mem_of_mem_take hc)

/-- A leading word is one of the words, and the rest follows it. -/
theorem exists_of_leadingWord? {words : List Text} {text rest : Text} {n : Nat}
    (h : leadingWord? words text = some (n, rest)) :
    ∃ word ∈ words, text = word ++ rest ∧ n = word.length := by
  rcases List.exists_of_findSome?_eq_some h with ⟨word, hmem, hword⟩
  simp only [Option.map_eq_some_iff, Prod.mk.injEq] at hword
  rcases hword with ⟨after, hafter, rfl, rfl⟩
  exact ⟨word, hmem, (Text.dropStart?_eq_some_iff _ _ _).mp hafter, rfl⟩

/-- A blank may stand right behind a keyword. -/
theorem any_isBlankOrStar_of_any_isBlank {c : Option Char} (h : c.any Text.isBlank = true) :
    c.any isBlankOrStar = true := by
  cases c with
  | none => cases h
  | some c =>
    rw [Option.any_some] at h ⊢
    rw [isBlankOrStar, h, Bool.true_or]

theorem all_isBlankOrStar {blanks : Text} (h : blanks.all Text.isBlank = true) :
    blanks.all isBlankOrStar = true := by
  rw [List.all_eq_true] at h ⊢
  intro c hc
  rw [isBlankOrStar, h c hc, Bool.true_or]

/-- Modifiers start with a character that is neither blank nor an asterisk. -/
theorem head?_modifier {word : Text} (h : word ∈ modifiers) (rest : Text) :
    (word ++ rest).head?.any isBlankOrStar = false := by
  have hwords : ∀ word ∈ modifiers, word ≠ [] ∧ word.head?.any isBlankOrStar = false := by
    decide
  rcases hwords word h with ⟨hne, hhead⟩
  rcases List.exists_cons_of_ne_nil hne with ⟨c, others, rfl⟩
  exact hhead

/-- A text that starts with a modifier and blanks is split there. -/
theorem modifier?_append {word blanks : Text} (hword : word ∈ modifiers) (hne : blanks ≠ [])
    (hblanks : blanks.all Text.isBlank = true) (rest : Text) :
    modifier? (word ++ (blanks ++ rest)) =
      some (word.length, blanks.length + runLength Text.isBlank rest,
        rest.drop (runLength Text.isBlank rest)) := by
  have hfree : PrefixFree modifiers := by decide
  have hpos := List.length_pos_iff.mpr hne
  rw [modifier?, leadingWord?_append hfree hword]
  simp only [runLength_append hblanks]
  rw [if_neg (by omega), List.drop_length_add_append]

/-- A text that does not start with a modifier and blanks is not split. -/
theorem modifier?_eq_none {text : Text} (h : text.head?.any isBlankOrStar = true) :
    modifier? text = none := by
  cases hmodifier : modifier? text with
  | none => rfl
  | some found =>
    rcases found with ⟨n, blank, rest⟩
    unfold modifier? at hmodifier
    split at hmodifier
    · rename_i hword
      rcases List.exists_of_findSome?_eq_some hword with ⟨word, hmem, hdrop⟩
      simp only [Option.map_eq_some_iff, Prod.mk.injEq] at hdrop
      rcases hdrop with ⟨after, hafter, -, -⟩
      rw [(Text.dropStart?_eq_some_iff _ _ _).mp hafter, head?_modifier hmem] at h
      cases h
    · cases hmodifier

/-- A modifier that is split off is one of the modifiers, and all the blanks behind it go with
it. -/
theorem exists_of_modifier? {text rest : Text} {n blank : Nat}
    (h : modifier? text = some (n, blank, rest)) :
    ∃ word ∈ modifiers, ∃ after, text = word ++ after ∧ n = word.length ∧ 0 < blank ∧
      blank = runLength Text.isBlank after ∧ rest = after.drop blank := by
  unfold modifier? at h
  split at h
  · rename_i n' after hword
    rcases exists_of_leadingWord? hword with ⟨word, hmem, htext, hlength⟩
    simp only [Option.ite_none_left_eq_some, Option.some.injEq, Prod.mk.injEq] at h
    rcases h with ⟨hne, rfl, rfl, rfl⟩
    exact ⟨word, hmem, after, htext, hlength, Nat.pos_of_ne_zero hne, rfl, rfl⟩
  · cases h

/-! ## Modified parts -/

theorem isModified_nil : IsModified [] :=
  IsModified.plain (.inl rfl) rfl

/-- A modifier with blanks behind it and nothing more is in the grammar. -/
theorem isModified_of_modifier {word blanks : Text} (hword : word ∈ modifiers) (hne : blanks ≠ [])
    (hblanks : blanks.all Text.isBlank = true) : IsModified (word ++ blanks) := by
  simpa using IsModified.modifier hword hne hblanks isModified_nil

/-- What starts with a blank or an asterisk holds no modifier. -/
theorem all_isBlankOrStar_of_isModified {rest after : Text} (h : IsModified rest)
    (hhead : (rest ++ after).head?.any isBlankOrStar = true) :
    rest.all isBlankOrStar = true := by
  cases h with
  | @plain star blanks hstar hblanks =>
    rw [List.all_append, all_isBlankOrStar hblanks, Bool.and_true]
    rcases hstar with rfl | rfl <;> rfl
  | modifier hword hne hblanks hrest =>
    rw [List.append_assoc, List.append_assoc, head?_modifier hword] at hhead
    cases hhead

/-- What starts with a blank is all blank. -/
theorem all_isBlank_of_isModified {rest after : Text} (h : IsModified rest)
    (hhead : (rest ++ after).head?.any Text.isBlank = true) :
    rest.all Text.isBlank = true := by
  cases h with
  | plain hstar hblanks =>
    rcases hstar with rfl | rfl
    · exact hblanks
    · have hstar : Text.isBlank '*' = false := by decide
      rw [List.append_assoc, List.singleton_append, List.head?_cons, Option.any_some, hstar]
        at hhead
      cases hhead
  | modifier hword hne hblanks hrest =>
    have hstart := any_isBlankOrStar_of_any_isBlank hhead
    rw [List.append_assoc, List.append_assoc, head?_modifier hword] at hstart
    cases hstart

/-! ## Listed lengths of modified parts -/

/-- What is listed for what may follow the modifiers is in the grammar. -/
theorem isModified_take_of_mem_starLengths {text : Text} {n : Nat} (h : n ∈ starLengths text) :
    IsModified (text.take n) := by
  unfold starLengths at h
  split at h
  · rename_i rest
    rw [mem_countdown] at h
    cases n with
    | zero => exact isModified_nil
    | succ n =>
      have hblanks : (rest.take n).all Text.isBlank = true :=
        all_take_of_le_runLength (by omega)
      exact IsModified.plain (.inr rfl) hblanks
  · rw [List.mem_singleton.mp h]
    exact isModified_nil

/-- What is listed for modifiers and what may follow them is in the grammar. -/
theorem isModified_take_of_mem {text : Text} {n : Nat} (h : n ∈ modifierLengths text) :
    IsModified (text.take n) := by
  fun_induction modifierLengths text generalizing n with
  | case1 text length blank rest hmodifier ih =>
    rcases exists_of_modifier? hmodifier with ⟨word, hword, after, rfl, rfl, hpos, hblank, rfl⟩
    have hblanks : ∀ k, 0 < k → k ≤ blank →
        after.take k ≠ [] ∧ (after.take k).all Text.isBlank = true := by
      intro k hk hle
      have hrun : runLength Text.isBlank after ≤ after.length :=
        (List.takeWhile_sublist _).length_le
      refine ⟨?_, all_take_of_le_runLength (hblank ▸ hle)⟩
      rw [← List.length_pos_iff, List.length_take]
      omega
    rw [List.mem_append, List.mem_append, List.mem_map, List.mem_map, List.mem_singleton] at h
    rcases h with (⟨k, hk, rfl⟩ | ⟨k, hk, rfl⟩) | rfl
    · -- All the blanks, and perhaps more modifiers behind them.
      rcases hblanks blank hpos (Nat.le_refl blank) with ⟨hne, hall⟩
      rw [Nat.add_assoc, List.take_length_add_append, List.take_add, ← List.append_assoc]
      exact IsModified.modifier hword hne hall (ih hk)
    · -- Some of the blanks only.
      rw [mem_countdown] at hk
      rcases hblanks k (by omega) (by omega) with ⟨hne, hall⟩
      rw [List.take_length_add_append]
      exact isModified_of_modifier hword hne hall
    · exact isModified_nil
  | case2 text hnone => exact isModified_take_of_mem_starLengths h

theorem zero_mem_modifierLengths (text : Text) : 0 ∈ modifierLengths text := by
  unfold modifierLengths
  split
  · exact List.mem_append_right _ (List.mem_singleton.mpr rfl)
  · unfold starLengths
    split
    · exact mem_countdown.mpr ⟨Nat.le_refl 0, Nat.zero_le _⟩
    · exact List.mem_singleton.mpr rfl

/-- Behind a modifier every number of blanks is listed, and behind all the blanks what is listed
there. -/
theorem mem_modifierLengths_of_modifier {word blanks : Text} (hword : word ∈ modifiers)
    (hne : blanks ≠ []) (hblanks : blanks.all Text.isBlank = true) {rest : Text} {n : Nat}
    (h : n < runLength Text.isBlank rest ∨ ∃ k ∈ modifierLengths
      (rest.drop (runLength Text.isBlank rest)), n = runLength Text.isBlank rest + k) :
    word.length + blanks.length + n ∈ modifierLengths (word ++ (blanks ++ rest)) := by
  have hsplit := modifier?_append hword hne hblanks rest
  have hpos := List.length_pos_iff.mpr hne
  rw [modifierLengths]
  split
  · rename_i length blank others hmodifier
    rw [hsplit] at hmodifier
    cases hmodifier
    refine List.mem_append_left _ (List.mem_append.mpr ?_)
    rw [List.mem_map, List.mem_map]
    rcases h with hlt | ⟨k, hk, rfl⟩
    · refine .inr ⟨blanks.length + n, mem_countdown.mpr ?_, (Nat.add_assoc _ _ _).symm⟩
      omega
    · exact .inl ⟨k, hk, by omega⟩
  · rename_i hmodifier
    rw [hsplit] at hmodifier
    cases hmodifier

/-- What is in the grammar is listed, unless it starts with a blank. -/
theorem length_mem_modifierLengths {rest : Text} (h : IsModified rest) (after : Text)
    (hhead : (rest ++ after).head?.any Text.isBlank = false) :
    rest.length ∈ modifierLengths (rest ++ after) := by
  induction h with
  | @plain star blanks hstar hblanks =>
    rcases hstar with rfl | rfl
    · cases blanks with
      | nil => exact zero_mem_modifierLengths after
      | cons c blanks =>
        rw [List.all_cons, Bool.and_eq_true] at hblanks
        rw [List.nil_append, List.cons_append, List.head?_cons, Option.any_some, hblanks.1] at hhead
        cases hhead
    · have hnone : modifier? ('*' :: (blanks ++ after)) = none := modifier?_eq_none rfl
      rw [List.singleton_append, List.cons_append, modifierLengths]
      split
      · rename_i hsome
        rw [hnone] at hsome
        cases hsome
      · rw [starLengths, mem_countdown, runLength_append hblanks, List.length_cons]
        omega
  | @modifier word blanks rest hword hne hblanks hrest ih =>
    rw [List.append_assoc, List.append_assoc, List.length_append, List.length_append]
    apply mem_modifierLengths_of_modifier hword hne hblanks
    cases hblank : (rest ++ after).head?.any Text.isBlank with
    | false =>
      refine .inr ⟨rest.length, ?_, ?_⟩ <;> rw [runLength_eq_zero hblank]
      · exact ih hblank
      · exact (Nat.zero_add _).symm
    | true =>
      -- Nothing but blanks follows, and all of them are divided in one way or the other.
      have hall := all_isBlank_of_isModified hrest hblank
      rw [runLength_append hall]
      rcases Nat.eq_zero_or_pos (runLength Text.isBlank after) with hzero | hpos
      · exact .inr ⟨0, zero_mem_modifierLengths _, by omega⟩
      · exact .inl (by omega)

/-! ## Listed lengths of anchors -/

/-- What is listed for a class name is an anchor of a class name. -/
theorem isClassAnchor_take_of_mem {before : Option Char} {text : Text} {n : Nat}
    (h : n ∈ classAnchors before text) : IsClassAnchor before (text.take n) := by
  unfold classAnchors at h
  split at h
  · rename_i rest hdrop
    rw [(Text.dropStart?_eq_some_iff _ _ _).mp hdrop] at h ⊢
    split at h
    · rename_i hboundary
      rcases List.mem_map.mp h with ⟨k, hk, rfl⟩
      rw [mem_countdown] at hk
      have hrun : runLength Text.isBlank rest ≤ rest.length :=
        (List.takeWhile_sublist _).length_le
      refine ⟨rest.take k, List.take_length_add_append k, ?_, all_take_of_le_runLength hk.2,
        hboundary⟩
      rw [← List.length_pos_iff, List.length_take]
      omega
    · cases h
  · cases h

/-- Anchors of class names are listed. -/
theorem length_mem_classAnchors {before : Option Char} {anchor : Text}
    (h : IsClassAnchor before anchor) (after : Text) :
    anchor.length ∈ classAnchors before (anchor ++ after) := by
  rcases h with ⟨blanks, rfl, hne, hblanks, hboundary⟩
  have hpos := List.length_pos_iff.mpr hne
  have hdrop : Text.dropStart? classKeyword (classKeyword ++ (blanks ++ after)) =
      some (blanks ++ after) := (Text.dropStart?_eq_some_iff _ _ _).mpr rfl
  rw [List.append_assoc, classAnchors, hdrop]
  change (classKeyword ++ blanks).length ∈
    if Text.isWordBoundary before classKeyword.head? = true then _ else _
  rw [if_pos hboundary, runLength_append hblanks, List.length_append]
  exact List.mem_map_of_mem (mem_countdown.mpr (by omega))

/-- The last character of a keyword belongs to a word, and so does the first. -/
theorem isWordChar_ends_keyword {keyword : Text} (h : keyword ∈ memberKeywords) :
    keyword.getLast?.any Text.isWordChar = true ∧ keyword.head?.any Text.isWordChar = true := by
  have hkeywords : ∀ keyword ∈ memberKeywords, keyword.getLast?.any Text.isWordChar = true ∧
      keyword.head?.any Text.isWordChar = true := by
    decide
  exact hkeywords keyword h

theorem head?_keyword {keyword : Text} (h : keyword ∈ memberKeywords) (rest : Text) :
    (keyword ++ rest).head? = keyword.head? := by
  cases keyword with
  | nil => cases (isWordChar_ends_keyword h).1
  | cons c others => rfl

/-- A word ends behind a keyword unless a word character follows. -/
theorem isWordBoundary_keyword {keyword : Text} (h : keyword ∈ memberKeywords)
    (after : Option Char) :
    Text.isWordBoundary keyword.getLast? after = !after.any Text.isWordChar := by
  rw [Text.isWordBoundary, (isWordChar_ends_keyword h).1]
  cases after.any Text.isWordChar <;> rfl

/-- What is listed for the name of a function or a method is an anchor of such a name. -/
theorem isMemberAnchor_take_of_mem {before : Option Char} {text : Text} {n : Nat}
    (h : n ∈ memberAnchors before text) :
    IsMemberAnchor before (text.take n) (text.drop n).head? := by
  unfold memberAnchors at h
  split at h
  · rename_i length rest hkeyword
    rcases exists_of_leadingWord? hkeyword with ⟨keyword, hmem, rfl, rfl⟩
    split at h
    · rename_i hboundary
      rw [Bool.and_eq_true, ← isWordBoundary_keyword hmem, head?_keyword hmem] at hboundary
      -- Any two parts behind the keyword will do.
      have hparts : ∀ first second, (rest.take first).all isBlankOrStar = true →
          IsModified ((rest.drop first).take second) →
          IsMemberAnchor before ((keyword ++ rest).take (keyword.length + (first + second)))
            ((keyword ++ rest).drop (keyword.length + (first + second))).head? := by
        intro first second hgap hmodified
        refine ⟨keyword, rest.take first, (rest.drop first).take second, ?_, hmem, hgap, hmodified,
          hboundary.1, ?_⟩
        · rw [List.take_length_add_append, List.take_add, List.append_assoc]
        · rw [List.drop_length_add_append, ← List.take_add, ← List.head?_append,
            List.take_append_drop]
          exact hboundary.2
      rcases List.mem_append.mp h with h | h
      · rcases List.mem_map.mp h with ⟨m, hm, rfl⟩
        rw [Nat.add_assoc]
        exact hparts _ m (all_take_of_le_runLength (Nat.le_refl _)) (isModified_take_of_mem hm)
      · rcases List.mem_map.mp h with ⟨k, hk, rfl⟩
        rw [List.mem_reverse, List.mem_range] at hk
        exact hparts k 0 (all_take_of_le_runLength (Nat.le_of_lt hk)) isModified_nil
    · cases h
  · cases h

/-- Anchors of the names of functions and methods are listed. -/
theorem length_mem_memberAnchors {before : Option Char} {anchor after : Text}
    (h : IsMemberAnchor before anchor after.head?) :
    anchor.length ∈ memberAnchors before (anchor ++ after) := by
  rcases h with ⟨keyword, gap, rest, rfl, hmem, hgap, hmodified, hstart, hstop⟩
  have hfree : PrefixFree memberKeywords := by decide
  rw [← List.head?_append, isWordBoundary_keyword hmem] at hstop
  rw [List.append_assoc, List.append_assoc, memberAnchors, leadingWord?_append hfree hmem]
  dsimp only
  rw [head?_keyword hmem, ← List.append_assoc gap, hstart, hstop, Bool.and_self, if_pos rfl,
    List.append_assoc gap, runLength_append hgap]
  refine List.mem_append.mpr ?_
  rw [List.mem_map, List.mem_map]
  cases hhead : (rest ++ after).head?.any isBlankOrStar with
  | false =>
    have hblank : (rest ++ after).head?.any Text.isBlank = false := by
      rw [← Bool.not_eq_true] at hhead ⊢
      exact fun h => hhead (any_isBlankOrStar_of_any_isBlank h)
    rw [runLength_eq_zero hhead, Nat.add_zero, List.drop_left]
    refine .inl ⟨rest.length, length_mem_modifierLengths hmodified after hblank, ?_⟩
    rw [List.length_append, List.length_append]
  | true =>
    -- The rest is divided in one way or the other, and no modifier stands in it.
    have hall := all_isBlankOrStar_of_isModified hmodified hhead
    rw [runLength_append hall, List.length_append, List.length_append]
    rcases Nat.eq_zero_or_pos (runLength isBlankOrStar after) with hzero | hpos
    · exact .inl ⟨0, zero_mem_modifierLengths _, by omega⟩
    · refine .inr ⟨gap.length + rest.length, ?_, by omega⟩
      exact List.mem_reverse.mpr (List.mem_range.mpr (by omega))

/-- For a variable name the empty anchor is listed at the start of the text, and one character that
may stand in front of the name. -/
theorem mem_variableAnchors {before : Option Char} {text : Text} {n : Nat} :
    n ∈ variableAnchors before text ↔
      n = 0 ∧ before = none ∨ n = 1 ∧ text.head?.any precedesVariable = true := by
  rw [variableAnchors.eq_def, List.mem_append]
  refine or_congr ?_ ?_
  · by_cases hbefore : before = none <;> simp [hbefore]
  · cases text with
    | nil => simp
    | cons c rest => cases hprecedes : precedesVariable c <;> simp [hprecedes]

/-- What is listed for a role at a place is an anchor of the role. -/
theorem isAnchor_take_of_mem {role : Role} {before : Option Char} {text : Text} {n : Nat}
    (h : n ∈ role.anchors before text) :
    role.IsAnchor before (text.take n) (text.drop n).head? := by
  cases role with
  | className => exact isClassAnchor_take_of_mem h
  | functionName => exact isMemberAnchor_take_of_mem h
  | methodName => exact isMemberAnchor_take_of_mem h
  | propertyName =>
    rw [List.mem_singleton.mp h]
    exact List.take_zero
  | variableName =>
    rcases mem_variableAnchors.mp h with ⟨rfl, hbefore⟩ | ⟨rfl, hhead⟩
    · exact .inl ⟨List.take_zero, hbefore⟩
    · cases text with
      | nil => cases hhead
      | cons c rest => exact .inr ⟨c, rfl, hhead⟩

/-- Anchors of a role are listed for it. -/
theorem length_mem_anchors {role : Role} {before : Option Char} {anchor after : Text}
    (h : role.IsAnchor before anchor after.head?) :
    anchor.length ∈ role.anchors before (anchor ++ after) := by
  cases role with
  | className => exact length_mem_classAnchors h after
  | functionName => exact length_mem_memberAnchors h
  | methodName => exact length_mem_memberAnchors h
  | propertyName =>
    cases h
    exact List.mem_singleton.mpr rfl
  | variableName =>
    refine mem_variableAnchors.mpr ?_
    rcases h with ⟨rfl, hbefore⟩ | ⟨c, rfl, hprecedes⟩
    · exact .inl ⟨rfl, hbefore⟩
    · exact .inr ⟨rfl, hprecedes⟩

/-- A length is listed for a role at a place exactly when the grammar describes the text of that
length as an anchor of the role. -/
theorem length_mem_anchors_iff (role : Role) (before : Option Char) (anchor after : Text) :
    anchor.length ∈ role.anchors before (anchor ++ after) ↔
      role.IsAnchor before anchor after.head? := by
  constructor
  · intro h
    have hanchor := isAnchor_take_of_mem h
    rwa [List.take_left, List.drop_left] at hanchor
  · exact length_mem_anchors

end Role

end SourceMask
