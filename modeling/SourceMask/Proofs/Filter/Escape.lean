import SourceMask.Proofs.Filter.Comment

/-!
# Comments and escaped slashes

A slash behind an odd number of backslashes is escaped, as in a regular expression that matches
slashes.  The comment stage does not look at backslashes: a line is cut at its first two slashes,
escaped or not.  So a line keeps what stands in front of the first slashes that are not escaped,
blanks at its end apart, exactly if no escaped ones come before.

Main results:

- Theorem `unescapedPart_append`: where no two slashes start, nothing stands behind unescaped ones.
- Theorem `trimEnd_kept`: a part of a line without two slashes loses at most the blanks at its end.
- Theorem `trimEnd_kept_of_first_slashes`: a line is cut at its first two slashes.
- Theorem `trimEnd_kept_eq_iff`: which lines keep all in front of their first unescaped slashes.
-/

namespace SourceMask

namespace Filter

/-! ## Escaped slashes -/

/-- Whether a text ends with an odd number of backslashes, which escape what comes next. -/
def endsEscaping (front : Text) : Bool := (front.rtakeWhile (· = '\\')).length % 2 = 1

/-- What stands on the rest of a line in front of the first two slashes that are not escaped, given
what stands in front of the rest. -/
def unescapedPart (front : Text) : Text → Text
  | [] => []
  | c :: rest =>
    if slashes.isPrefixOf (c :: rest) && !endsEscaping front then []
    else c :: unescapedPart (front ++ [c]) rest

/-- The first two slashes of a line are escaped. -/
def StartsEscaped (line : Text) : Prop :=
  ∃ code rest, line = code ++ '/' :: '/' :: rest ∧ ¬ slashes <:+: code ++ ['/'] ∧
    endsEscaping code = true

/-- The first two slashes of a line do not stand behind others. -/
theorem length_le_of_first_slashes {line code code' rest rest' : Text}
    (hline : line = code ++ '/' :: '/' :: rest) (hline' : line = code' ++ '/' :: '/' :: rest')
    (hfirst : ¬ slashes <:+: code ++ ['/']) : code.length ≤ code'.length := by
  by_contra hlength
  apply hfirst
  have hshort : code' ++ slashes <+: line := ⟨rest', by simp [hline', slashes]⟩
  have hlong : code ++ ['/'] <+: line := ⟨'/' :: rest, by simp [hline]⟩
  have hprefix : code' ++ slashes <+: code ++ ['/'] := by
    apply List.prefix_of_prefix_length_le hshort hlong
    simp [slashes]
    omega
  exact (List.suffix_append code' slashes).isInfix.trans hprefix.isInfix

/-- A line has its first two slashes at one place. -/
theorem first_slashes_unique {line code code' rest rest' : Text}
    (hline : line = code ++ '/' :: '/' :: rest) (hline' : line = code' ++ '/' :: '/' :: rest')
    (hfirst : ¬ slashes <:+: code ++ ['/']) (hfirst' : ¬ slashes <:+: code' ++ ['/']) :
    code = code' := by
  have hlength : code.length = code'.length :=
    Nat.le_antisymm (length_le_of_first_slashes hline hline' hfirst)
      (length_le_of_first_slashes hline' hline hfirst')
  exact (List.append_inj (hline.symm.trans hline') hlength).1

/-- Where no two slashes start, nothing stands behind unescaped ones. -/
theorem unescapedPart_append {code rest : Text} (h : ¬ slashes <:+: code ++ rest.take 1)
    (front : Text) :
    unescapedPart front (code ++ rest) = code ++ unescapedPart (front ++ code) rest := by
  induction code generalizing front with
  | nil => simp
  | cons c code ih =>
    have hhere : slashes.isPrefixOf (c :: (code ++ rest)) = false := by
      rw [Bool.eq_false_iff, Ne, List.isPrefixOf_iff_prefix, ← List.cons_append]
      exact fun hslashes => h (slashes_prefix_append_take (List.cons_ne_nil c code) hslashes).isInfix
    rw [List.cons_append, slashes_infix_cons, not_or] at h
    rw [List.cons_append, unescapedPart, hhere, Bool.false_and, if_neg Bool.false_ne_true, ih h.2]
    simp

/-- In front of its first two slashes a line has no unescaped ones, and behind them it goes on
exactly if they are escaped. -/
theorem unescapedPart_of_first_slashes {code : Text} (hfirst : ¬ slashes <:+: code ++ ['/'])
    (rest : Text) :
    unescapedPart [] (code ++ '/' :: '/' :: rest) =
      if endsEscaping code then code ++ '/' :: unescapedPart (code ++ ['/']) ('/' :: rest)
      else code := by
  rw [unescapedPart_append hfirst, List.nil_append, unescapedPart]
  cases endsEscaping code with
  | false => simp [slashes]
  | true => simp

/-! ## What is kept of a line -/

section

variable {front part back : Text}

/-- In a text trimmed at its end something that is not blank comes behind every blank. -/
theorem trimStart_ne_nil_of_trimEnd {start rest : Text} {c : Char}
    (htrim : Text.trimEnd part = start ++ c :: rest) (hc : Text.isBlank c = true) :
    Text.trimStart rest ≠ [] := by
  intro hnil
  have hblank : (c :: rest).all Text.isBlank = true := by
    simpa [hc, Text.trimStart, List.dropWhile_eq_nil_iff] using hnil
  have htwice := Text.trimEnd_trimEnd part
  rw [htrim, Text.trimEnd_append_of_blank hblank] at htwice
  have hlength := Text.length_trimEnd_le start
  rw [htwice, List.length_append, List.length_cons] at hlength
  omega

/-- Two slashes around a character of a part are seen from the part and one more character. -/
theorem not_slashes_infix_of_cut (hnone : ¬ slashes <:+: part ++ back.take 1)
    {start others : Text} {c : Char} (hpart : part = start ++ c :: others) :
    ¬ slashes <:+: start ++ c :: (others ++ back).take 1 := by
  have hnext : (others ++ back).take 1 <+: others ++ back.take 1 := by
    cases others with
    | nil => exact List.prefix_refl _
    | cons d others => simp
  have hprefix : start ++ c :: (others ++ back).take 1 <+: part ++ back.take 1 := by
    rw [hpart, List.append_assoc, List.cons_append, List.prefix_append_right_inj,
      List.cons_prefix_cons]
    exact ⟨rfl, hnext⟩
  exact fun hslashes => hnone (hslashes.trans hprefix.isInfix)

/-- In front of the blanks at the end of a part without two slashes no blank stands before slashes. -/
theorem not_slashes_prefix_of_trimEnd (hnone : ¬ slashes <:+: part ++ back.take 1)
    {start rest right : Text} {c : Char} (hpart : part = start ++ c :: rest ++ right)
    (htrim : Text.trimEnd part = start ++ c :: rest) (hc : Text.isBlank c = true) :
    ¬ slashes <+: Text.trimStart (rest ++ (right ++ back)) := by
  have hne := trimStart_ne_nil_of_trimEnd htrim hc
  have hsuffix : Text.trimStart rest <:+ rest := List.dropWhile_suffix Text.isBlank
  have hbehind : Text.trimStart (rest ++ (right ++ back)) =
      (Text.trimStart rest ++ right) ++ back := by
    rw [Text.trimStart, List.dropWhile_append, if_neg (by simpa [Text.trimStart] using hne),
      List.append_assoc]
    rfl
  rcases hsuffix with ⟨gap, hgap⟩
  have hcut : part ++ back.take 1 =
      (start ++ c :: gap) ++ ((Text.trimStart rest ++ right) ++ back.take 1) := by
    calc
      part ++ back.take 1 = start ++ c :: (gap ++ Text.trimStart rest) ++ right ++ back.take 1 := by
        rw [hgap, hpart]
      _ = (start ++ c :: gap) ++ ((Text.trimStart rest ++ right) ++ back.take 1) := by simp
  rw [hbehind]
  intro hslashes
  have hnear := slashes_prefix_append_take (List.append_ne_nil_of_left_ne_nil hne right) hslashes
  rw [hcut] at hnone
  exact hnone (hnear.isInfix.trans (List.suffix_append _ _).isInfix)

/-- In front of the blanks at the end of a part of a line without two slashes nothing is taken out. -/
theorem not_isDeleted_of_trimEnd (hfront : Text.EndsLine front) (hline : '\n' ∉ part)
    (hnone : ¬ slashes <:+: part ++ back.take 1) {start rest right : Text} {c : Char}
    (hpart : part = start ++ c :: rest ++ right) (htrim : Text.trimEnd part = start ++ c :: rest) :
    ¬ Place.IsDeleted ⟨front ++ start, c, rest ++ (right ++ back)⟩ := by
  have hstart : '\n' ∉ start := fun hmem => hline (by simp [hpart, hmem])
  rw [Place.isDeleted_iff]
  rintro (⟨-, hslashes⟩ | ⟨hblank, hslashes⟩)
  · rw [Text.lastLine_append hstart, Text.lastLine_of_endsLine hfront, List.nil_append,
      ← List.append_assoc] at hslashes
    exact not_slashes_infix_of_cut hnone (by simpa using hpart) hslashes
  · exact not_slashes_prefix_of_trimEnd hnone hpart htrim hblank hslashes

/-- A part of a line without two slashes loses at most the blanks at its end. -/
theorem trimEnd_kept (hfront : Text.EndsLine front) (hline : '\n' ∉ part)
    (hnone : ¬ slashes <:+: part ++ back.take 1) :
    Text.trimEnd (kept front part back) = Text.trimEnd part := by
  rcases Text.exists_trimEnd part with ⟨right, hpart, hright⟩
  have hself : kept front (Text.trimEnd part) (right ++ back) = Text.trimEnd part := by
    apply kept_eq_self
    intro start c rest htrim
    exact not_isDeleted_of_trimEnd hfront hline hnone (htrim ▸ hpart) htrim
  have hblank : (kept (front ++ Text.trimEnd part) right back).all Text.isBlank = true := by
    rw [List.all_eq_true] at hright ⊢
    exact fun c hc => hright c ((kept_sublist _ _ _).subset hc)
  calc
    Text.trimEnd (kept front part back) =
        Text.trimEnd (kept front (Text.trimEnd part ++ right) back) := by rw [← hpart]
    _ = Text.trimEnd (Text.trimEnd part ++ kept (front ++ Text.trimEnd part) right back) := by
      rw [kept_append, hself]
    _ = Text.trimEnd (Text.trimEnd part) := Text.trimEnd_append_of_blank hblank _
    _ = Text.trimEnd part := Text.trimEnd_trimEnd part

/-- From two slashes on nothing is kept of a line. -/
theorem kept_of_slashes {rest : Text} (hline : '\n' ∉ rest) :
    kept front ('/' :: '/' :: rest) back = [] := by
  apply kept_eq_nil
  intro start c others hpart
  have hcomment : [] ++ '/' :: '/' :: rest = start ++ c :: others := hpart
  exact isDeleted_of_comment rfl hline hcomment

/-- A line is cut at its first two slashes. -/
theorem trimEnd_kept_of_first_slashes {code rest : Text} (hfront : Text.EndsLine front)
    (hline : '\n' ∉ code ++ '/' :: '/' :: rest) (hfirst : ¬ slashes <:+: code ++ ['/']) :
    Text.trimEnd (kept front (code ++ '/' :: '/' :: rest) back) = Text.trimEnd code := by
  have hparts : '\n' ∉ code ∧ '\n' ∉ rest := by simpa using hline
  rw [kept_append, kept_of_slashes hparts.2, List.append_nil]
  exact trimEnd_kept hfront hparts.1 hfirst

/-- Without two slashes on it, a line is kept and has no unescaped ones. -/
theorem trimEnd_kept_of_not_slashes (hfront : Text.EndsLine front) (hline : '\n' ∉ part)
    (hback : ∀ c ∈ back.head?, c = '\n') (hnone : ¬ slashes <:+: part) :
    Text.trimEnd (kept front part back) = Text.trimEnd (unescapedPart [] part) := by
  have hnext : ¬ slashes <:+: part ++ back.take 1 := by
    cases back with
    | nil => simpa using hnone
    | cons c rest =>
      rw [hback c rfl, List.take_succ_cons, slashes_infix_append_cons (by decide)]
      simpa [slashes] using hnone
  have hpart : unescapedPart [] (part ++ []) = part ++ unescapedPart ([] ++ part) [] :=
    unescapedPart_append (by simpa using hnone) []
  rw [List.append_nil, unescapedPart, List.append_nil] at hpart
  rw [trimEnd_kept hfront hline hnext, hpart]

/-- With two slashes on it, a line keeps all in front of unescaped ones exactly if the first two are
not escaped. -/
theorem trimEnd_kept_eq_iff_of_first_slashes {code rest : Text} (hfront : Text.EndsLine front)
    (hline : '\n' ∉ code ++ '/' :: '/' :: rest) (hfirst : ¬ slashes <:+: code ++ ['/']) :
    Text.trimEnd (kept front (code ++ '/' :: '/' :: rest) back) =
        Text.trimEnd (unescapedPart [] (code ++ '/' :: '/' :: rest)) ↔
      endsEscaping code = false := by
  rw [trimEnd_kept_of_first_slashes hfront hline hfirst, unescapedPart_of_first_slashes hfirst]
  cases endsEscaping code with
  | false => simp
  | true =>
    -- The first slash is no blank, so it would be kept.
    rw [if_pos rfl, Text.trimEnd_append_of_not (by decide)]
    constructor
    · intro heq
      have hlength := Text.length_trimEnd_le code
      rw [heq, List.length_append, List.length_cons] at hlength
      omega
    · intro hfalse
      cases hfalse

end

/-! ## The filter -/

/-- Of each line the comment stage keeps what stands in front of the first slashes that are not
escaped, blanks at the end apart, exactly if the first two slashes of the line are not escaped.  If
they are, then it keeps what stands in front of these. -/
theorem trimEnd_kept_eq_iff {front line back : Text} (hfront : Text.EndsLine front)
    (hline : '\n' ∉ line) (hback : ∀ c ∈ back.head?, c = '\n') :
    (⟨true, false⟩ : Filter).apply (front ++ (line ++ back)) =
        Text.trim (kept [] front (line ++ back) ++
          (kept front line back ++ kept (front ++ line) back [])) ∧
      (Text.trimEnd (kept front line back) = Text.trimEnd (unescapedPart [] line) ↔
        ¬ StartsEscaped line) ∧
      ∀ code rest, line = code ++ '/' :: '/' :: rest → ¬ slashes <:+: code ++ ['/'] →
        Text.trimEnd (kept front line back) = Text.trimEnd code := by
  refine ⟨?_, ?_, ?_⟩
  · have hparts : kept [] (front ++ (line ++ back)) [] = kept [] front (line ++ back) ++
        (kept front line back ++ kept (front ++ line) back []) := by
      simp only [kept_append, List.nil_append, List.append_nil]
    rw [← hparts]
    exact congrArg Text.trim (stripComments_eq _)
  · by_cases hslashes : slashes <:+: line
    · rcases exists_first_slashes hslashes with ⟨code, rest, rfl, hfirst⟩
      rw [trimEnd_kept_eq_iff_of_first_slashes hfront hline hfirst, ← Bool.not_eq_true, not_iff_not]
      constructor
      · exact fun hescaped => ⟨code, rest, rfl, hfirst, hescaped⟩
      · rintro ⟨code', rest', hcut, hfirst', hescaped⟩
        rw [first_slashes_unique rfl hcut hfirst hfirst']
        exact hescaped
    · have hstarts : ¬ StartsEscaped line := by
        rintro ⟨code, rest, rfl, -⟩
        exact hslashes ⟨code, rest, by simp [slashes]⟩
      exact iff_of_true (trimEnd_kept_of_not_slashes hfront hline hback hslashes) hstarts
  · rintro code rest rfl hfirst
    exact trimEnd_kept_of_first_slashes hfront hline hfirst

/-- Slashes in a regular expression come before a comment: the line is cut at the slashes of the
expression, though the first unescaped ones are those of the comment. -/
theorem trimEnd_kept_eq_iff_expression :
    Text.EndsLine "f();\n".toList ∧ '\n' ∉ "let r = /\\//; // b".toList ∧
      (∀ c ∈ "\ng();".toList.head?, c = '\n') ∧ StartsEscaped "let r = /\\//; // b".toList ∧
      Text.trimEnd (kept "f();\n".toList "let r = /\\//; // b".toList "\ng();".toList) =
        "let r = /\\".toList ∧
      Text.trimEnd (kept "f();\n".toList "let r = /\\//; // b".toList "\ng();".toList) ≠
        Text.trimEnd (unescapedPart [] "let r = /\\//; // b".toList) ∧
      unescapedPart [] "let r = /\\//; // b".toList = "let r = /\\//; ".toList := by
  have hfront : Text.EndsLine "f();\n".toList := Text.endsLine_concat "f();".toList
  have hline : '\n' ∉ "let r = /\\//; // b".toList := by decide
  have hback : ∀ c ∈ "\ng();".toList.head?, c = '\n' := fun c hc => (Option.some.inj hc).symm
  have hfirst : ¬ slashes <:+: "let r = /\\".toList ++ ['/'] := by decide +kernel
  have hstarts : StartsEscaped "let r = /\\//; // b".toList :=
    ⟨"let r = /\\".toList, "; // b".toList, rfl, hfirst, by decide⟩
  have hlines := trimEnd_kept_eq_iff hfront hline hback
  refine ⟨hfront, hline, hback, hstarts, ?_, fun heq => hlines.2.1.mp heq hstarts, by decide⟩
  exact (hlines.2.2 _ "; // b".toList rfl hfirst).trans (by decide)

/-- A regular expression that matches a slash is truncated behind its backslash, though no slashes
on the line are unescaped. -/
theorem apply_ne_of_escaped_slashes :
    unescapedPart [] "let r = /\\//;".toList = "let r = /\\//;".toList ∧
      (⟨true, false⟩ : Filter).apply "let r = /\\//;".toList = "let r = /\\".toList ∧
      (⟨true, false⟩ : Filter).apply "let r = /\\//;".toList ≠ "let r = /\\//;".toList := by
  decide +kernel

end Filter

end SourceMask
