import SourceMask.Proofs.Role.Grammar

/-!
# What anchors are made of

The last character of an anchor separates it from the name behind it.  For a class name it is blank,
and for the name of a function or a method it is blank or an asterisk.  Such an anchor can also be
the bare keyword, and then no word character follows.  In front of a variable name stands a
character that belongs to no identifier, or the text starts there.

Inside of an anchor only lower-case letters belong to words, and every word behind the keyword is a
modifier with a blank behind it.  So an anchor starts with a word only where the text before it ends
one, and no anchor has a low line in it.

Main results:

- Theorems `getLast?_of_isClassAnchor`, `getLast?_of_isMemberAnchor` and
  `getLast?_of_isVariableAnchor`: what the anchors of each role end with.
- Theorem `lowLine_notMem_of_isAnchor`: no anchor has a low line in it.
- Theorem `head?_of_isAnchor`: no anchor starts in the middle of a word.
- Theorem `exists_modifier_of_isAnchor`: a word that starts inside of an anchor is a modifier.
-/

namespace SourceMask

namespace Role

/-! ## Characters that end anchors -/

/-- A blank is no identifier character. -/
theorem isIdentifierChar_of_isBlank {c : Char} (h : Text.isBlank c = true) :
    Text.isIdentifierChar c = false := by
  -- Stated for the list itself, so that the blanks are gone through and not all characters.
  have hblanks : (Text.blanks.all fun d => !Text.isIdentifierChar d) = true := by
    decide +kernel
  have hc := List.all_eq_true.mp hblanks c (List.contains_iff_mem.mp h)
  rwa [Bool.not_eq_true'] at hc

/-- A character that may stand right behind a keyword is no identifier character. -/
theorem isIdentifierChar_of_isBlankOrStar {c : Char} (h : isBlankOrStar c = true) :
    Text.isIdentifierChar c = false := by
  rw [isBlankOrStar, Bool.or_eq_true, decide_eq_true_eq] at h
  rcases h with h | rfl
  · exact isIdentifierChar_of_isBlank h
  · decide

/-- A character in front of a variable name is no identifier character. -/
theorem isIdentifierChar_of_precedesVariable {c : Char} (h : precedesVariable c = true) :
    Text.isIdentifierChar c = false := by
  rw [precedesVariable, Bool.not_eq_true', Bool.or_eq_false_iff] at h
  exact h.1

/-! ## Last characters -/

/-- The last character of a text is that of any part at its end. -/
theorem any_getLast?_append {p : Char → Bool} {second : Text}
    (h : second.getLast?.any p = true) (first : Text) :
    (first ++ second).getLast?.any p = true := by
  rw [List.getLast?_append]
  cases hlast : second.getLast? with
  | none =>
    rw [hlast] at h
    cases h
  | some c =>
    rw [hlast] at h
    exact h

/-- The last character of a text has a property that all its characters have. -/
theorem any_getLast?_of_all {p : Char → Bool} {text : Text} (hne : text ≠ [])
    (h : text.all p = true) : text.getLast?.any p = true := by
  rw [List.getLast?_eq_some_getLast hne, Option.any_some]
  exact List.all_eq_true.mp h _ (List.getLast_mem hne)

/-- Modifiers and what may follow them end in a blank or an asterisk, unless nothing is there. -/
theorem getLast?_of_isModified {rest : Text} (h : IsModified rest) :
    rest = [] ∨ rest.getLast?.any isBlankOrStar = true := by
  induction h with
  | @plain star blanks hstar hblanks =>
    by_cases hne : blanks = []
    · subst hne
      rcases hstar with rfl | rfl
      · exact .inl rfl
      · exact .inr rfl
    · exact .inr (any_getLast?_append (any_getLast?_of_all hne (all_isBlankOrStar hblanks)) star)
  | @modifier word blanks rest hword hne hblanks hrest ih =>
    refine .inr ?_
    rcases ih with rfl | hlast
    · rw [List.append_nil]
      exact any_getLast?_append (any_getLast?_of_all hne (all_isBlankOrStar hblanks)) word
    · exact any_getLast?_append hlast (word ++ blanks)

/-- The anchor of a class name ends in a blank. -/
theorem getLast?_of_isClassAnchor {before : Option Char} {anchor : Text}
    (h : IsClassAnchor before anchor) : anchor.getLast?.any Text.isBlank = true := by
  rcases h with ⟨blanks, rfl, hne, hblanks, -⟩
  exact any_getLast?_append (any_getLast?_of_all hne hblanks) classKeyword

/-- The anchor of the name of a function or a method ends in a blank or an asterisk, or it is the
bare keyword and no word character follows it. -/
theorem getLast?_of_isMemberAnchor {before after : Option Char} {anchor : Text}
    (h : IsMemberAnchor before anchor after) :
    anchor.getLast?.any isBlankOrStar = true ∨
      anchor ∈ memberKeywords ∧ after.any Text.isWordChar = false := by
  rcases h with ⟨keyword, gap, rest, rfl, hmem, hgap, hmodified, -, hstop⟩
  rcases getLast?_of_isModified hmodified with rfl | hlast
  · rw [List.append_nil] at hstop ⊢
    by_cases hne : gap = []
    · subst hne
      rw [isWordBoundary_keyword hmem, Bool.not_eq_true'] at hstop
      rw [List.append_nil]
      exact .inr ⟨hmem, hstop⟩
    · exact .inl (any_getLast?_append (any_getLast?_of_all hne hgap) keyword)
  · exact .inl (any_getLast?_append hlast (keyword ++ gap))

/-- The anchor of a variable name is empty at the start of the text, or one character that may stand
in front of a variable name. -/
theorem getLast?_of_isVariableAnchor {before after : Option Char} {anchor : Text}
    (h : variableName.IsAnchor before anchor after) :
    anchor.getLast?.any precedesVariable = true ∨ before = none ∧ anchor = [] := by
  rcases h with ⟨hanchor, hbefore⟩ | ⟨c, rfl, hprecedes⟩
  · exact .inr ⟨hbefore, hanchor⟩
  · exact .inl hprecedes

/-! ## Parts of anchors -/

/-- The keywords in front of the names of a role that are masked only there. -/
def keywords : Role → List Text
  | className => [classKeyword]
  | functionName | methodName => memberKeywords
  | propertyName | variableName => []

variable {role : Role} {before after : Option Char} {anchor : Text}

/-- The anchor of a declared name is a keyword at the start of a word, blanks and asterisks, and
modifiers with what may follow them. -/
theorem exists_parts_of_isAnchor (hrole : role.isNumbered = false)
    (h : role.IsAnchor before anchor after) :
    ∃ keyword ∈ role.keywords, ∃ gap rest, anchor = keyword ++ gap ++ rest ∧
      gap.all isBlankOrStar = true ∧ IsModified rest ∧
      Text.isWordBoundary before keyword.head? = true := by
  have hmember : IsMemberAnchor before anchor after →
      ∃ keyword ∈ memberKeywords, ∃ gap rest, anchor = keyword ++ gap ++ rest ∧
        gap.all isBlankOrStar = true ∧ IsModified rest ∧
        Text.isWordBoundary before keyword.head? = true := by
    rintro ⟨keyword, gap, rest, hanchor, hmem, hgap, hrest, hboundary, -⟩
    exact ⟨keyword, hmem, gap, rest, hanchor, hgap, hrest, hboundary⟩
  cases role with
  | className =>
    rcases h with ⟨blanks, rfl, -, hblanks, hboundary⟩
    exact ⟨classKeyword, List.mem_singleton.mpr rfl, blanks, [], (List.append_nil _).symm,
      all_isBlankOrStar hblanks, isModified_nil, hboundary⟩
  | functionName => exact hmember h
  | methodName => exact hmember h
  | propertyName => cases hrole
  | variableName => cases hrole

theorem isAsciiName_of_isLower {c : Char} (h : c.isLower = true) : Text.isAsciiName c = true := by
  have halpha : c.isAlpha = true := by
    change (c.isUpper || c.isLower) = true
    rw [h, Bool.or_true]
  rw [Text.isAsciiName, halpha]
  rfl

/-- Keywords are made of lower-case letters, of which there is at least one. -/
theorem all_isLower_keyword {keyword : Text} (h : keyword ∈ role.keywords) :
    keyword ≠ [] ∧ keyword.all Char.isLower = true := by
  have hkeywords : ∀ role : Role, ∀ keyword ∈ role.keywords,
      keyword ≠ [] ∧ keyword.all Char.isLower = true := by
    intro role
    cases role <;> decide
  exact hkeywords role keyword h

/-- No keyword is the beginning of a modifier, and no modifier that of a keyword. -/
theorem not_prefix_modifier {keyword modifier : Text} (h : keyword ∈ role.keywords)
    (hmodifier : modifier ∈ modifiers) : ¬keyword <+: modifier ∧ ¬modifier <+: keyword := by
  have hwords : ∀ role : Role, ∀ keyword ∈ role.keywords, ∀ modifier ∈ modifiers,
      ¬keyword <+: modifier ∧ ¬modifier <+: keyword := by
    intro role
    cases role <;> decide
  exact hwords role keyword h modifier hmodifier

theorem all_isLower_modifier {modifier : Text} (h : modifier ∈ modifiers) :
    modifier.all Char.isLower = true := by
  have hmodifiers : ∀ modifier ∈ modifiers, modifier.all Char.isLower = true := by
    decide
  exact hmodifiers modifier h

/-- The identifier characters in modified parts are lower-case letters. -/
theorem isLower_of_mem_isModified {rest : Text} (h : IsModified rest) {c : Char} (hc : c ∈ rest)
    (hidentifier : Text.isIdentifierChar c = true) : c.isLower = true := by
  have hblank : ∀ blanks : Text, blanks.all Text.isBlank = true → c ∉ blanks := by
    intro blanks hblanks hmem
    rw [isIdentifierChar_of_isBlank (List.all_eq_true.mp hblanks c hmem)] at hidentifier
    cases hidentifier
  induction h with
  | plain hstar hblanks =>
    rcases List.mem_append.mp hc with hc | hc
    · rcases hstar with rfl | rfl
      · cases hc
      · rw [List.mem_singleton.mp hc] at hidentifier
        exact absurd hidentifier (by decide)
    · exact absurd hc (hblank _ hblanks)
  | modifier hword _ hblanks _ ih =>
    rw [List.mem_append, List.mem_append] at hc
    rcases hc with (hc | hc) | hc
    · exact List.all_eq_true.mp (all_isLower_modifier hword) c hc
    · exact absurd hc (hblank _ hblanks)
    · exact ih hc

/-- The identifier characters in the anchor of a declared name are lower-case letters. -/
theorem isLower_of_mem_isAnchor (hrole : role.isNumbered = false)
    (h : role.IsAnchor before anchor after) {c : Char} (hc : c ∈ anchor)
    (hidentifier : Text.isIdentifierChar c = true) : c.isLower = true := by
  rcases exists_parts_of_isAnchor hrole h with ⟨keyword, hmem, gap, rest, rfl, hgap, hrest, -⟩
  rw [List.mem_append, List.mem_append] at hc
  rcases hc with (hc | hc) | hc
  · exact List.all_eq_true.mp (all_isLower_keyword hmem).2 c hc
  · rw [isIdentifierChar_of_isBlankOrStar (List.all_eq_true.mp hgap c hc)] at hidentifier
    cases hidentifier
  · exact isLower_of_mem_isModified hrest hc hidentifier

/-- No anchor has a low line in it. -/
theorem lowLine_notMem_of_isAnchor (h : role.IsAnchor before anchor after) : '_' ∉ anchor := by
  intro hmem
  cases hrole : role.isNumbered with
  | false =>
    have hlower := isLower_of_mem_isAnchor hrole h hmem (by decide)
    exact absurd hlower (by decide)
  | true =>
    cases role with
    | propertyName =>
      cases h
      cases hmem
    | variableName =>
      rcases h with ⟨rfl, -⟩ | ⟨c, rfl, hprecedes⟩
      · cases hmem
      · rw [← List.mem_singleton.mp hmem] at hprecedes
        exact absurd hprecedes (by decide)
    | _ => cases hrole

/-! ## Words in anchors -/

/-- Inside of a word there is no boundary. -/
theorem isWordBoundary_eq_false {second : Option Char} (h : before.any Text.isWordChar = true)
    (h' : second.any Text.isWordChar = true) : Text.isWordBoundary before second = false := by
  rw [Text.isWordBoundary, h, h']
  rfl

/-- The anchor of a declared name starts with a keyword, and in front of it a word ends. -/
theorem exists_keyword_of_isAnchor (hrole : role.isNumbered = false)
    (h : role.IsAnchor before anchor after) :
    ∃ keyword ∈ role.keywords, ∃ rest, anchor = keyword ++ rest ∧
      before.any Text.isWordChar = false := by
  rcases exists_parts_of_isAnchor hrole h with ⟨keyword, hmem, gap, rest, rfl, -, -, hboundary⟩
  refine ⟨keyword, hmem, gap ++ rest, List.append_assoc _ _ _, ?_⟩
  cases hbefore : before.any Text.isWordChar with
  | false => rfl
  | true =>
    rcases all_isLower_keyword hmem with ⟨hne, hlower⟩
    rcases List.exists_cons_of_ne_nil hne with ⟨c, others, rfl⟩
    rw [List.all_cons, Bool.and_eq_true] at hlower
    have hc : (some c).any Text.isWordChar = true :=
      Text.isWordChar_of_isAsciiName (isAsciiName_of_isLower hlower.1)
    rw [List.head?_cons, isWordBoundary_eq_false hbefore hc] at hboundary
    cases hboundary

/-- No anchor starts in the middle of a word. -/
theorem head?_of_isAnchor (h : role.IsAnchor before anchor after)
    (hbefore : before.any Text.isWordChar = true) :
    anchor.head?.any Text.isWordChar = false := by
  cases hrole : role.isNumbered with
  | false =>
    rcases exists_keyword_of_isAnchor hrole h with ⟨-, -, -, -, hnone⟩
    rw [hbefore] at hnone
    cases hnone
  | true =>
    cases role with
    | propertyName =>
      cases h
      rfl
    | variableName =>
      rcases h with ⟨rfl, -⟩ | ⟨c, rfl, hprecedes⟩
      · rfl
      · have hidentifier := isIdentifierChar_of_precedesVariable hprecedes
        rw [Text.isIdentifierChar, Bool.or_eq_false_iff] at hidentifier
        exact hidentifier.1
    | _ => cases hrole

/-- The anchor of a declared name has some text. -/
theorem isAnchor_ne_nil (hrole : role.isNumbered = false) (h : role.IsAnchor before anchor after) :
    anchor ≠ [] := by
  rcases exists_keyword_of_isAnchor hrole h with ⟨keyword, hmem, rest, rfl, -⟩
  intro hnil
  exact (all_isLower_keyword hmem).1 (List.append_eq_nil_iff.mp hnil).1

/-- Only names of members can do without an anchor, and names of variables at the start of the
text. -/
theorem role_of_isAnchor_nil (h : role.IsAnchor before [] after) :
    role = propertyName ∨ role = variableName ∧ before = none := by
  cases hrole : role.isNumbered with
  | false => exact absurd rfl (isAnchor_ne_nil hrole h)
  | true =>
    cases role with
    | propertyName => exact .inl rfl
    | variableName =>
      rcases h with ⟨-, hbefore⟩ | ⟨c, hc, -⟩
      · exact .inr ⟨rfl, hbefore⟩
      · cases hc
    | _ => cases hrole

/-- A cut behind a character without a property lies behind a beginning with the property. -/
theorem exists_append_of_all {p : Char → Bool} {run rest first second : Text}
    (htext : run ++ rest = first ++ second) (hrun : run.all p = true) (hne : first ≠ [])
    (hlast : first.getLast?.any p = false) :
    ∃ others, first = run ++ others ∧ rest = others ++ second := by
  rcases List.append_eq_append_iff.mp htext with h | ⟨others, hothers, -⟩
  · exact h
  · rw [hothers, List.all_append, Bool.and_eq_true] at hrun
    rw [any_getLast?_of_all hne hrun.1] at hlast
    cases hlast

/-- A cut in front of a character with a property lies behind a beginning without the property. -/
theorem exists_append_of_none {p : Char → Bool} {run rest first second : Text}
    (htext : run ++ rest = first ++ second) (hrun : ∀ c ∈ run, p c = false)
    (hhead : second.head?.any p = true) :
    ∃ others, first = run ++ others ∧ rest = others ++ second := by
  rcases List.append_eq_append_iff.mp htext with h | ⟨others, hothers, hsecond⟩
  · exact h
  · cases others with
    | nil => exact ⟨[], by rw [hothers, List.append_nil, List.append_nil], hsecond.symm⟩
    | cons c others =>
      have hc := hrun c (by rw [hothers]; exact List.mem_append_right first List.mem_cons_self)
      rw [hsecond, List.cons_append, List.head?_cons, Option.any_some, hc] at hhead
      cases hhead

/-- Blanks and asterisks are no word characters. -/
theorem isWordChar_of_isBlankOrStar {c : Char} (h : isBlankOrStar c = true) :
    Text.isWordChar c = false := by
  have hidentifier := isIdentifierChar_of_isBlankOrStar h
  rw [Text.isIdentifierChar, Bool.or_eq_false_iff] at hidentifier
  exact hidentifier.1

theorem all_isAsciiName_of_isLower {word : Text} (h : word.all Char.isLower = true) :
    word.all Text.isAsciiName = true := by
  rw [List.all_eq_true] at h ⊢
  exact fun c hc => isAsciiName_of_isLower (h c hc)

theorem all_isWordChar_of_isLower {word : Text} (h : word.all Char.isLower = true) :
    word.all Text.isWordChar = true := by
  rw [List.all_eq_true]
  intro c hc
  exact Text.isWordChar_of_isAsciiName
    (List.all_eq_true.mp (all_isAsciiName_of_isLower h) c hc)

/-- The last character of a text is that of any part at its end that is not empty. -/
theorem any_getLast?_eq_false {p : Char → Bool} {first second : Text}
    (h : (first ++ second).getLast?.any p = false) : second.getLast?.any p = false := by
  rw [← Bool.not_eq_true] at h ⊢
  exact fun hsecond => h (any_getLast?_append hsecond first)

/-- A word that starts in a modified part is a modifier with a blank behind it. -/
theorem exists_modifier_of_isModified {rest first second : Text} (h : IsModified rest)
    (htext : rest = first ++ second) (hlast : first.getLast?.any Text.isWordChar = false)
    (hhead : second.head?.any Text.isWordChar = true) :
    ∃ modifier ∈ modifiers, ∃ c others, second = modifier ++ c :: others ∧
      Text.isBlank c = true := by
  induction h generalizing first with
  | @plain star blanks hstar hblanks =>
    have hnone : ∀ c ∈ star ++ blanks, Text.isWordChar c = false := by
      intro c hc
      apply isWordChar_of_isBlankOrStar
      rcases List.mem_append.mp hc with hc | hc
      · rcases hstar with rfl | rfl
        · cases hc
        · rw [List.mem_singleton.mp hc]
          rfl
      · exact List.all_eq_true.mp (all_isBlankOrStar hblanks) c hc
    have hsplit : star ++ blanks ++ [] = first ++ second := by rw [List.append_nil, htext]
    rcases exists_append_of_none hsplit hnone hhead with ⟨others, -, hothers⟩
    rw [(List.append_eq_nil_iff.mp hothers.symm).2] at hhead
    cases hhead
  | @modifier word blanks rest hword hne hblanks _ ih =>
    have hnone : ∀ c ∈ blanks, Text.isWordChar c = false := fun c hc =>
      isWordChar_of_isBlankOrStar (List.all_eq_true.mp (all_isBlankOrStar hblanks) c hc)
    rw [List.append_assoc] at htext
    by_cases hfirst : first = []
    · subst hfirst
      rcases List.exists_cons_of_ne_nil hne with ⟨c, others, rfl⟩
      rw [List.all_cons, Bool.and_eq_true] at hblanks
      exact ⟨word, hword, c, others ++ rest, htext.symm, hblanks.1⟩
    · -- The cut lies behind the modifier and the blanks.
      have hall := all_isWordChar_of_isLower (all_isLower_modifier hword)
      rcases exists_append_of_all htext hall hfirst hlast with ⟨behind, rfl, hbehind⟩
      rcases exists_append_of_none hbehind hnone hhead with ⟨others, rfl, hothers⟩
      exact ih hothers (any_getLast?_eq_false (any_getLast?_eq_false hlast))

/-- A word that starts inside of the anchor of a declared name is a modifier with a blank behind
it. -/
theorem exists_modifier_of_isAnchor (hrole : role.isNumbered = false)
    (h : role.IsAnchor before anchor after) {first second : Text}
    (hanchor : anchor = first ++ second) (hne : first ≠ [])
    (hlast : first.getLast?.any Text.isWordChar = false)
    (hhead : second.head?.any Text.isWordChar = true) :
    ∃ modifier ∈ modifiers, ∃ c others, second = modifier ++ c :: others ∧
      Text.isBlank c = true := by
  rcases exists_parts_of_isAnchor hrole h with ⟨keyword, hmem, gap, rest, rfl, hgap, hrest, -⟩
  have hnone : ∀ c ∈ gap, Text.isWordChar c = false := fun c hc =>
    isWordChar_of_isBlankOrStar (List.all_eq_true.mp hgap c hc)
  have hall := all_isWordChar_of_isLower (all_isLower_keyword hmem).2
  rw [List.append_assoc] at hanchor
  rcases exists_append_of_all hanchor hall hne hlast with ⟨behind, rfl, hbehind⟩
  rcases exists_append_of_none hbehind hnone hhead with ⟨others, rfl, hothers⟩
  exact exists_modifier_of_isModified hrest hothers
    (any_getLast?_eq_false (any_getLast?_eq_false hlast)) hhead

/-- The anchor of a declared name ends with a word only if no word character follows it. -/
theorem getLast?_of_isAnchor (hrole : role.isNumbered = false)
    (h : role.IsAnchor before anchor after) (hafter : after.any Text.isWordChar = true) :
    anchor.getLast?.any Text.isWordChar = false := by
  have hmember : IsMemberAnchor before anchor after →
      anchor.getLast?.any isBlankOrStar = true := by
    intro h
    rcases getLast?_of_isMemberAnchor h with hlast | ⟨-, hnone⟩
    · exact hlast
    · rw [hafter] at hnone
      cases hnone
  have hlast : anchor.getLast?.any isBlankOrStar = true := by
    cases role with
    | className => exact any_isBlankOrStar_of_any_isBlank (getLast?_of_isClassAnchor h)
    | functionName => exact hmember h
    | methodName => exact hmember h
    | propertyName => cases hrole
    | variableName => cases hrole
  cases hchar : anchor.getLast? with
  | none => rfl
  | some c =>
    rw [hchar] at hlast
    exact isWordChar_of_isBlankOrStar hlast

end Role

end SourceMask
