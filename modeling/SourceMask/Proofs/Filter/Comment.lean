import Mathlib.Data.List.Infix
import SourceMask.Filter
import SourceMask.Proofs.Text.Lines
import SourceMask.Proofs.Text.Trim

/-!
# What the comment stage takes out

The comment stage reads a text from left to right and skips a comment together with the blanks in
front of it, over as many lines as these take.  What it takes out can also be told character by
character, from what stands in front of a character and behind it.  A character is *commented* if it
stands on its line at the first two slashes or behind them; a blank stands *before a comment* if
only blanks come between it and the first two slashes of a line.  These two are taken out and
nothing else.

A comment leaves its line break in place, so code never moves up to the line of other code, and no
two slashes come together that were apart.

Main results:

- Theorem `isDeleted_iff`: whether a character is taken out can be computed.
- Theorem `stripComments_eq_kept`: the comment stage keeps the other characters, in order.
- Theorem `lineBreak_mem_kept`: between code on two lines a line break is kept.
- Theorem `apply_eq_trim_kept`: the filter with the comment stage alone.
- Theorem `not_slashes_infix_stripComments`: no comment is left.
-/

namespace SourceMask

namespace Filter

/-! ## Two slashes -/

/-- The two slashes that start a comment. -/
def slashes : Text := ['/', '/']

/-- Two slashes stand behind a character, or it is the first of two itself. -/
theorem slashes_infix_cons {c : Char} {text : Text} :
    slashes <:+: c :: text ↔ (c = '/' ∧ text.head? = some '/') ∨ slashes <:+: text := by
  rw [List.infix_cons_iff, slashes, List.cons_prefix_cons]
  cases text with
  | nil => simp
  | cons d rest => simp [List.cons_prefix_cons, eq_comm]

/-- Two slashes do not stand around another character. -/
theorem slashes_infix_append_cons {c : Char} (hc : c ≠ '/') (front back : Text) :
    slashes <:+: front ++ c :: back ↔ slashes <:+: front ∨ slashes <:+: back := by
  induction front with
  | nil =>
    rw [List.nil_append, slashes_infix_cons]
    simp [hc, slashes]
  | cons d front ih =>
    rw [List.cons_append, slashes_infix_cons, slashes_infix_cons, ih]
    cases front with
    | nil => simp [hc]
    | cons e front => simp [or_assoc]

/-- Behind a text without slashes one slash does not make two. -/
theorem not_slashes_infix_concat {text : Text} (h : '/' ∉ text) :
    ¬ slashes <:+: text ++ ['/'] := by
  intro hslashes
  have hcount := hslashes.sublist.count_le '/'
  rw [List.count_append, List.count_eq_zero.mpr h] at hcount
  exact absurd hcount (by decide)

/-- Two slashes that come with the last character are the last two. -/
theorem slashes_infix_concat {front : Text} {c d : Char}
    (h : slashes <:+: front ++ [c, d]) (hfront : ¬ slashes <:+: front ++ [c]) :
    c = '/' ∧ d = '/' := by
  rw [List.append_cons, List.infix_concat_iff] at h
  rcases h.resolve_right hfront with ⟨start, hstart⟩
  rw [slashes, List.append_assoc, List.singleton_append] at hstart
  have hends := (List.append_inj' hstart rfl).2
  simp only [List.cons.injEq, and_true] at hends
  exact ⟨hends.1.symm, hends.2.symm⟩

/-- Where there are two slashes, there are the first two. -/
theorem exists_first_slashes {text : Text} (h : slashes <:+: text) :
    ∃ front back, text = front ++ '/' :: '/' :: back ∧ ¬ slashes <:+: front ++ ['/'] := by
  induction text with
  | nil => simp [slashes] at h
  | cons c rest ih =>
    by_cases hhere : c = '/' ∧ rest.head? = some '/'
    · rcases hhere with ⟨rfl, hhead⟩
      refine ⟨[], rest.tail, ?_, not_slashes_infix_concat List.not_mem_nil⟩
      rw [← List.cons_head?_tail hhead]
      rfl
    · rcases ih ((slashes_infix_cons.mp h).resolve_left hhere) with ⟨front, back, rfl, hfirst⟩
      refine ⟨c :: front, back, rfl, ?_⟩
      rw [List.cons_append, slashes_infix_cons]
      rintro (hslash | hinfix)
      · apply hhere
        cases front with
        | nil => exact hslash
        | cons d front => exact hslash
      · exact hfirst hinfix

/-- Two slashes at the start of a part and a text behind it are seen from the part and one more
character, if the part is not empty. -/
theorem slashes_prefix_append_take {part back : Text} (hne : part ≠ [])
    (h : slashes <+: part ++ back) : slashes <+: part ++ back.take 1 := by
  have hlength := List.length_pos_of_ne_nil hne
  have htake : part ++ back.take 1 = (part ++ back).take (part.length + 1) := by
    simp [List.take_append]
  rw [htake, List.prefix_take_iff]
  refine ⟨h, ?_⟩
  simp [slashes]
  omega

/-- The same for a part that ends with a given character. -/
theorem slashes_prefix_take {run back : Text} {c : Char} (h : slashes <+: run ++ c :: back) :
    slashes <+: run ++ c :: back.take 1 := by
  rw [List.append_cons] at h ⊢
  exact slashes_prefix_append_take (by simp) h

/-! ## Characters that are taken out -/

/-- A character of a text, with what stands in front of it and behind it. -/
structure Place where
  front : Text
  char : Char
  back : Text
  deriving DecidableEq, Repr

/-- The first two slashes of a line stand between two parts of a text. -/
def StartsComment (front back : Text) : Prop :=
  slashes <+: back ∧ ¬ slashes <:+: Text.lastLine front ++ ['/']

namespace Place

/-- A character on the line of a comment, at its two slashes or behind them, but not the line
break. -/
def IsCommented (place : Place) : Prop :=
  place.char ≠ '\n' ∧ ∃ start run, place.front = start ++ run ∧ '\n' ∉ run ∧
    StartsComment start (run ++ place.char :: place.back)

/-- A blank from which only blanks separate the two slashes of a comment. -/
def IsBeforeComment (place : Place) : Prop :=
  Text.isBlank place.char = true ∧ ∃ gap rest, place.back = gap ++ rest ∧
    gap.all Text.isBlank = true ∧ StartsComment (place.front ++ place.char :: gap) rest

/-- A character that the comment stage takes out. -/
def IsDeleted (place : Place) : Prop := place.IsCommented ∨ place.IsBeforeComment

/-- Whether a character is commented shows on its line up to the next character. -/
theorem isCommented_iff {place : Place} :
    place.IsCommented ↔ place.char ≠ '\n' ∧
      slashes <:+: Text.lastLine place.front ++ place.char :: place.back.take 1 := by
  constructor
  · rintro ⟨hne, start, run, hfront, hrun, hslashes, -⟩
    refine ⟨hne, ?_⟩
    rw [hfront, Text.lastLine_append hrun, List.append_assoc]
    exact (slashes_prefix_take hslashes).isInfix.trans (List.suffix_append _ _).isInfix
  · rintro ⟨hne, hslashes⟩
    refine ⟨hne, ?_⟩
    rcases Text.exists_lastLine place.front with ⟨start, hfront, hstart⟩
    rcases exists_first_slashes hslashes with ⟨before, back, htext, hfirst⟩
    -- The first slash stands at this character at the latest.
    have hlength := congrArg List.length htext
    simp only [List.length_append, List.length_cons, List.length_take] at hlength
    have hbefore : before <+: Text.lastLine place.front :=
      List.prefix_of_prefix_length_le (htext ▸ List.prefix_append before _)
        (List.prefix_append _ _) (by omega)
    rcases hbefore with ⟨run, hrun⟩
    have hnot : '\n' ∉ before ∧ '\n' ∉ run := by
      have hline := Text.notMem_lastLine place.front
      rw [← hrun, List.mem_append, not_or] at hline
      exact hline
    refine ⟨start ++ before, run, ?_, hnot.2, ?_, ?_⟩
    · rw [List.append_assoc, hrun]
      exact hfront
    · rw [← hrun, List.append_assoc] at htext
      have hcut := List.append_cancel_left htext
      have hprefix : slashes <+: run ++ place.char :: place.back.take 1 := ⟨back, hcut.symm⟩
      refine hprefix.trans ?_
      rw [List.prefix_append_right_inj, List.cons_prefix_cons]
      exact ⟨rfl, List.take_prefix 1 place.back⟩
    · rw [Text.lastLine_append hnot.1, Text.lastLine_of_endsLine hstart]
      exact hfirst

/-- A blank from which only blanks separate two slashes is taken out: if they are not the first two
of their line, then it stands behind the first two. -/
theorem isDeleted_of_slashes_prefix {place : Place} (hblank : Text.isBlank place.char = true)
    (hslashes : slashes <+: Text.trimStart place.back) : place.IsDeleted := by
  have hback : place.back = place.back.takeWhile Text.isBlank ++ Text.trimStart place.back :=
    List.takeWhile_append_dropWhile.symm
  have hgap : (place.back.takeWhile Text.isBlank).all Text.isBlank = true := List.all_takeWhile
  generalize place.back.takeWhile Text.isBlank = gap at hback hgap
  have hslash : '/' ∉ place.char :: gap := by
    intro hmem
    have hall : (place.char :: gap).all Text.isBlank = true := by simp [hblank, hgap]
    exact absurd (List.all_eq_true.mp hall _ hmem) (by decide)
  by_cases hfirst : slashes <:+: Text.lastLine (place.front ++ place.char :: gap) ++ ['/']
  · left
    by_cases hbreak : '\n' ∈ place.char :: gap
    · -- The line of the slashes starts with blanks, so no others come first.
      rw [Text.lastLine_append_of_mem hbreak] at hfirst
      refine absurd hfirst (not_slashes_infix_concat fun hmem => hslash ?_)
      exact (List.rtakeWhile_suffix _ _).subset hmem
    · rw [List.mem_cons, not_or] at hslash hbreak
      rw [Text.lastLine_append (by simp [hbreak]), List.append_assoc, List.cons_append,
        slashes_infix_append_cons (Ne.symm hslash.1)] at hfirst
      have hline := hfirst.resolve_right (not_slashes_infix_concat hslash.2)
      exact isCommented_iff.mpr ⟨Ne.symm hbreak.1, hline.trans (List.prefix_append _ _).isInfix⟩
  · right
    exact ⟨hblank, gap, _, hback, hgap, hslashes, hfirst⟩

/-- Whether a character is taken out shows on its line up to the next character, or in front of the
next character that is not blank. -/
theorem isDeleted_iff {place : Place} :
    place.IsDeleted ↔
      (place.char ≠ '\n' ∧
        slashes <:+: Text.lastLine place.front ++ place.char :: place.back.take 1) ∨
      (Text.isBlank place.char = true ∧ slashes <+: Text.trimStart place.back) := by
  constructor
  · rintro (h | ⟨hblank, gap, rest, hback, hgap, hslashes, -⟩)
    · exact .inl (isCommented_iff.mp h)
    · right
      refine ⟨hblank, ?_⟩
      rcases hslashes with ⟨more, rfl⟩
      rw [hback, Text.trimStart_append_of_blank hgap, slashes, List.cons_append,
        Text.trimStart_cons_of_not (by decide)]
      exact ⟨more, rfl⟩
  · rintro (h | ⟨hblank, hslashes⟩)
    · exact .inl (isCommented_iff.mpr h)
    · exact isDeleted_of_slashes_prefix hblank hslashes

instance (place : Place) : Decidable place.IsDeleted := decidable_of_iff _ isDeleted_iff.symm

end Place

/-! ## Characters that are kept -/

/-- The places of the characters of a part of a text, given what stands in front of that part and
behind it. -/
def placesBetween (front : Text) : (part back : Text) → List Place
  | [], _ => []
  | c :: rest, back => ⟨front, c, rest ++ back⟩ :: placesBetween (front ++ [c]) rest back

/-- The characters of a part of a text that are not taken out. -/
def kept (front part back : Text) : Text :=
  ((placesBetween front part back).filter fun place => ¬ place.IsDeleted).map Place.char

section

variable {front part back : Text} {c : Char}

@[simp] theorem kept_nil (front back : Text) : kept front [] back = [] := rfl

/-- A character that is taken out is left out. -/
theorem kept_cons_of_isDeleted {rest : Text} (h : Place.IsDeleted ⟨front, c, rest ++ back⟩) :
    kept front (c :: rest) back = kept (front ++ [c]) rest back := by
  rw [kept, placesBetween, List.filter_cons_of_neg (by simp [h]), kept]

/-- A character that is not taken out is kept. -/
theorem kept_cons_of_not {rest : Text} (h : ¬ Place.IsDeleted ⟨front, c, rest ++ back⟩) :
    kept front (c :: rest) back = c :: kept (front ++ [c]) rest back := by
  rw [kept, placesBetween, List.filter_cons_of_pos (by simp [h]), List.map_cons, kept]

/-- The characters of two parts are kept one part after the other. -/
theorem kept_append (front first second back : Text) :
    kept front (first ++ second) back =
      kept front first (second ++ back) ++ kept (front ++ first) second back := by
  induction first generalizing front with
  | nil => simp
  | cons c rest ih =>
    have hfront : front ++ c :: rest = (front ++ [c]) ++ rest := by simp
    by_cases h : Place.IsDeleted ⟨front, c, (rest ++ second) ++ back⟩
    · have h' : Place.IsDeleted ⟨front, c, rest ++ (second ++ back)⟩ := by
        rwa [← List.append_assoc]
      rw [List.cons_append, kept_cons_of_isDeleted h, kept_cons_of_isDeleted h', ih, hfront]
    · have h' : ¬ Place.IsDeleted ⟨front, c, rest ++ (second ++ back)⟩ := by
        rwa [← List.append_assoc]
      rw [List.cons_append, kept_cons_of_not h, kept_cons_of_not h', ih, hfront]
      rfl

/-- The places of a part are those of its characters. -/
theorem map_char_placesBetween (front part back : Text) :
    (placesBetween front part back).map Place.char = part := by
  induction part generalizing front with
  | nil => rfl
  | cons c rest ih => exact congrArg (c :: ·) (ih (front ++ [c]))

/-- A place of a part cuts the part at a character. -/
theorem exists_of_mem_placesBetween {place : Place} (h : place ∈ placesBetween front part back) :
    ∃ start c rest, part = start ++ c :: rest ∧ place = ⟨front ++ start, c, rest ++ back⟩ := by
  induction part generalizing front with
  | nil => cases h
  | cons c rest ih =>
    rcases List.mem_cons.mp h with rfl | h
    · exact ⟨[], c, rest, rfl, by rw [List.append_nil]⟩
    · rcases ih h with ⟨start, d, others, rfl, rfl⟩
      exact ⟨c :: start, d, others, rfl, by simp⟩

/-- The characters that are kept are some of the part, in order. -/
theorem kept_sublist (front part back : Text) : (kept front part back).Sublist part := by
  have hsublist := (List.filter_sublist
    (l := placesBetween front part back) (p := fun place => ¬ place.IsDeleted)).map Place.char
  rwa [map_char_placesBetween] at hsublist

/-- Of a part from which nothing is taken out everything is kept. -/
theorem kept_eq_self (h : ∀ start c rest, part = start ++ c :: rest →
    ¬ Place.IsDeleted ⟨front ++ start, c, rest ++ back⟩) : kept front part back = part := by
  have hall : ((placesBetween front part back).filter fun place => ¬ place.IsDeleted) =
      placesBetween front part back := by
    rw [List.filter_eq_self]
    intro place hplace
    rcases exists_of_mem_placesBetween hplace with ⟨start, c, rest, hpart, rfl⟩
    exact decide_eq_true (h start c rest hpart)
  rw [kept, hall, map_char_placesBetween]

/-- Of a part whose characters are all taken out nothing is kept. -/
theorem kept_eq_nil (h : ∀ start c rest, part = start ++ c :: rest →
    Place.IsDeleted ⟨front ++ start, c, rest ++ back⟩) : kept front part back = [] := by
  rw [kept, List.map_eq_nil_iff, List.filter_eq_nil_iff]
  intro place hplace
  rcases exists_of_mem_placesBetween hplace with ⟨start, c, rest, hpart, rfl⟩
  simpa using h start c rest hpart

end

/-! ## The comment stage -/

/-- A comment is two slashes, up to the end of their line, with the blanks in front of them. -/
theorem exists_of_afterComment? {text after : Text} (h : afterComment? text = some after) :
    ∃ gap body, text = gap ++ ('/' :: '/' :: body) ++ after ∧ gap.all Text.isBlank = true ∧
      '\n' ∉ body ∧ ∀ c ∈ after.head?, c = '\n' := by
  unfold afterComment? at h
  split at h
  · rename_i rest htrim
    rw [Option.some.injEq] at h
    refine ⟨text.takeWhile Text.isBlank, rest.takeWhile (· ≠ '\n'), ?_, List.all_takeWhile, ?_, ?_⟩
    · have htext : text.takeWhile Text.isBlank ++ Text.trimStart text = text :=
        List.takeWhile_append_dropWhile
      rw [← h, List.append_assoc, List.cons_append, List.cons_append,
        List.takeWhile_append_dropWhile, ← htrim, htext]
    · intro hmem
      have hne := List.mem_takeWhile_imp hmem
      simp at hne
    · intro c hc
      have hnot := List.head?_dropWhile_not (· ≠ '\n') rest
      rw [h, Option.mem_def.mp hc] at hnot
      simpa using hnot
  · cases h

/-- No comment starts a text exactly if no two slashes come first behind its blanks. -/
theorem afterComment?_eq_none_iff {text : Text} :
    afterComment? text = none ↔ ¬ slashes <+: Text.trimStart text := by
  unfold afterComment?
  split
  · rename_i rest htrim
    simp [htrim, slashes, List.cons_prefix_cons]
  · rename_i hne
    simp only [true_iff]
    rintro ⟨rest, hrest⟩
    exact hne rest hrest.symm

/-- Every character of a comment is taken out, and so are the blanks in front of it. -/
theorem isDeleted_of_comment {front gap body after start rest : Text} {c : Char}
    (hgap : gap.all Text.isBlank = true) (hbody : '\n' ∉ body)
    (h : gap ++ '/' :: '/' :: body = start ++ c :: rest) :
    Place.IsDeleted ⟨front ++ start, c, rest ++ after⟩ := by
  rw [Place.isDeleted_iff]
  have hline : '\n' ∉ '/' :: '/' :: body := by simp [hbody]
  rcases List.append_eq_append_iff.mp h with ⟨run, rfl, hrun⟩ | ⟨run, rfl, hrun⟩
  · left
    rw [hrun, List.mem_append, List.mem_cons, not_or, not_or] at hline
    refine ⟨Ne.symm hline.2.1, ?_⟩
    have hslashes : slashes <+: run ++ c :: (rest ++ after) := by
      rw [← List.cons_append, ← List.append_assoc, ← hrun]
      exact ⟨body ++ after, rfl⟩
    rw [← List.append_assoc, Text.lastLine_append hline.1, List.append_assoc]
    exact (slashes_prefix_take hslashes).isInfix.trans (List.suffix_append _ _).isInfix
  · cases run with
    | nil =>
      -- The character is the first slash.
      simp only [List.nil_append, List.cons.injEq] at hrun
      rcases hrun with ⟨rfl, rfl⟩
      left
      refine ⟨by simp, ?_⟩
      exact (List.prefix_append slashes []).isInfix.trans (List.suffix_append _ _).isInfix
    | cons d run =>
      rw [List.cons_append, List.cons.injEq] at hrun
      rcases hrun with ⟨rfl, rfl⟩
      right
      simp only [List.all_append, List.all_cons, Bool.and_eq_true] at hgap
      refine ⟨hgap.2.1, ?_⟩
      rw [List.append_assoc, Text.trimStart_append_of_blank hgap.2.2, List.cons_append,
        Text.trimStart_cons_of_not (by decide)]
      exact ⟨body ++ after, rfl⟩

/-- A character that starts no comment and stands behind none is not taken out. -/
theorem not_isDeleted_of_afterComment? {front rest : Text} {c : Char}
    (h : afterComment? (c :: rest) = none)
    (hfront : c = '\n' ∨ ¬ slashes <:+: Text.lastLine front ++ [c]) :
    ¬ Place.IsDeleted ⟨front, c, rest⟩ := by
  rw [afterComment?_eq_none_iff] at h
  rw [Place.isDeleted_iff]
  rintro (⟨hne, hslashes⟩ | ⟨hblank, hslashes⟩)
  · apply h
    cases rest with
    | nil => exact absurd hslashes (hfront.resolve_left hne)
    | cons d rest =>
      rcases slashes_infix_concat hslashes (hfront.resolve_left hne) with ⟨rfl, rfl⟩
      rw [Text.trimStart_cons_of_not (by decide)]
      exact ⟨rest, rfl⟩
  · rw [Text.trimStart, List.dropWhile_cons_of_pos hblank] at h
    exact h hslashes

/-- The comment stage keeps the characters that are not taken out.  It has read `front`, and what
comes next is a line break or does not belong to a comment of `front`. -/
theorem stripComments_eq_kept (front text : Text)
    (h : ∀ c ∈ text.head?, c = '\n' ∨ ¬ slashes <:+: Text.lastLine front ++ [c]) :
    stripComments text = kept front text [] := by
  fun_induction stripComments text generalizing front with
  | case1 => rfl
  | case2 c rest after hafter ih =>
    rcases exists_of_afterComment? hafter with ⟨gap, body, htext, hgap, hbody, hbreak⟩
    have hnil : kept front (gap ++ '/' :: '/' :: body) (after ++ []) = [] := by
      apply kept_eq_nil
      intro start d others hpart
      exact isDeleted_of_comment hgap hbody hpart
    rw [ih (front ++ (gap ++ '/' :: '/' :: body)) fun d hd => .inl (hbreak d hd), htext,
      kept_append, hnil]
    rfl
  | case3 c rest hafter ih =>
    have hhere := h c rfl
    have hkept := not_isDeleted_of_afterComment? hafter hhere
    rw [kept_cons_of_not (by rwa [List.append_nil])]
    congr 1
    apply ih
    intro d hd
    rw [Option.mem_def, List.head?_eq_some_iff] at hd
    rcases hd with ⟨others, rfl⟩
    right
    by_cases hbreak : c = '\n'
    · rw [hbreak, Text.lastLine_of_endsLine (Text.endsLine_concat front)]
      exact fun hslashes => absurd hslashes.length_le (by simp [slashes])
    · have hline : '\n' ∉ [c] := by simpa using Ne.symm hbreak
      rw [Text.lastLine_append hline, List.append_assoc]
      exact fun hslashes => hkept (Place.isDeleted_iff.mpr (.inl ⟨hbreak, hslashes⟩))

/-- The comment stage keeps the characters of a text that are not taken out. -/
theorem stripComments_eq (text : Text) : stripComments text = kept [] text [] := by
  apply stripComments_eq_kept
  exact fun c _ => .inr fun hslashes => absurd hslashes.length_le (by simp [slashes, Text.lastLine])

/-! ## No comment is left -/

/-- What the comment stage leaves starts with a line break or as the text does. -/
theorem head?_stripComments {text : Text} {c : Char} (h : (stripComments text).head? = some c) :
    c = '\n' ∨ text.head? = some c := by
  fun_induction stripComments text with
  | case1 => cases h
  | case2 d rest after hafter ih =>
    rcases exists_of_afterComment? hafter with ⟨_, _, -, -, -, hbreak⟩
    exact .inl ((ih h).elim id (hbreak c))
  | case3 d rest hafter ih => exact .inr h

/-- No two slashes are left by the comment stage. -/
theorem not_slashes_infix_stripComments (text : Text) : ¬ slashes <:+: stripComments text := by
  fun_induction stripComments text with
  | case1 => simp [slashes]
  | case2 c rest after hafter ih => exact ih
  | case3 c rest hafter ih =>
    rw [slashes_infix_cons]
    rintro (⟨rfl, hhead⟩ | hslashes)
    · -- The second slash stood behind the first one before.
      have hrest := (head?_stripComments hhead).resolve_left (by decide)
      rw [List.head?_eq_some_iff] at hrest
      rcases hrest with ⟨others, rfl⟩
      rw [afterComment?_eq_none_iff, Text.trimStart_cons_of_not (by decide)] at hafter
      exact hafter ⟨others, rfl⟩
    · exact ih hslashes

/-- The comment stage leaves a text without two slashes as it is. -/
theorem stripComments_eq_self {text : Text} (h : ¬ slashes <:+: text) :
    stripComments text = text := by
  induction text with
  | nil => exact stripComments_nil
  | cons c rest ih =>
    have hnone : afterComment? (c :: rest) = none := by
      rw [afterComment?_eq_none_iff]
      exact fun hslashes => h (hslashes.isInfix.trans (List.dropWhile_suffix _).isInfix)
    rw [stripComments_of_none hnone, ih fun hslashes => h (slashes_infix_cons.mpr (.inr hslashes))]

/-! ## Code on two lines -/

/-- Between two characters that are kept, are not blank and stand on two lines, a line break is
kept. -/
theorem lineBreak_mem_kept {front between back : Text} {b : Char} (hbreak : '\n' ∈ between)
    (hb : Text.isBlank b = false) (hkept : ¬ Place.IsDeleted ⟨front ++ between, b, back⟩) :
    '\n' ∈ kept front between (b :: back) := by
  -- The last line break is kept: a comment in front of which it stood would go over to `b`.
  rcases List.eq_append_cons_of_mem (List.mem_reverse.mpr hbreak) with ⟨behind, before, hcut, hnot⟩
  have hbetween : between = before.reverse ++ '\n' :: behind.reverse := by
    rw [← List.reverse_reverse between, hcut, List.reverse_append, List.reverse_cons]
    simp
  have hbehind : '\n' ∉ behind.reverse := by simpa using hnot
  generalize before.reverse = before at hbetween
  generalize behind.reverse = behind at hbetween hbehind
  subst hbetween
  have hlineBreak : ¬ Place.IsDeleted ⟨front ++ before, '\n', behind ++ b :: back⟩ := by
    rintro (⟨hne, -⟩ | ⟨-, gap, rest, hback, hgap, hstarts⟩)
    · exact hne rfl
    · have hb' : b ∉ gap := by
        intro hmem
        rw [List.all_eq_true.mp hgap b hmem] at hb
        cases hb
      have hcover : ∃ run, behind = gap ++ run ∧ rest = run ++ b :: back := by
        rcases List.append_eq_append_iff.mp hback with ⟨run, hrun, hrest⟩ | ⟨run, hrun, hrest⟩
        · cases run with
          | nil => exact ⟨[], by simpa using hrun.symm, by simpa using hrest.symm⟩
          | cons c run =>
            rw [List.cons_append, List.cons.injEq] at hrest
            exact absurd (by rw [hrun, hrest.1]; simp) hb'
        · exact ⟨run, hrun, hrest⟩
      rcases hcover with ⟨run, rfl, rfl⟩
      rw [List.mem_append, not_or] at hbehind
      refine hkept (.inl ⟨?_, front ++ before ++ '\n' :: gap, run, by simp, hbehind.2, hstarts⟩)
      rintro rfl
      cases hb
  rw [kept_append, kept_cons_of_not hlineBreak]
  simp

/-- The filter with the comment stage alone gives the text without its comments and the blanks in
front of them, trimmed.  Code that stands on two lines is still separated by a line break. -/
theorem apply_eq_trim_kept (text : Text) :
    (⟨true, false⟩ : Filter).apply text = Text.trim (kept [] text []) ∧
      ∀ front a between b back, text = front ++ a :: (between ++ b :: back) →
        Text.isBlank a = false → Text.isBlank b = false → '\n' ∈ between →
        ¬ Place.IsDeleted ⟨front, a, between ++ b :: back⟩ →
        ¬ Place.IsDeleted ⟨front ++ a :: between, b, back⟩ →
        '\n' ∈ kept (front ++ [a]) between (b :: back) ∧
          ∃ first last, (⟨true, false⟩ : Filter).apply text =
            first ++ a :: (kept (front ++ [a]) between (b :: back) ++ b :: last) := by
  have happly : (⟨true, false⟩ : Filter).apply text = Text.trim (kept [] text []) :=
    congrArg Text.trim (stripComments_eq text)
  refine ⟨happly, ?_⟩
  intro front a between b back htext ha hb hbreak hkeptA hkeptB
  have hcut : front ++ a :: between = (front ++ [a]) ++ between := by simp
  have hkeptA' : ¬ Place.IsDeleted ⟨front, a, (between ++ b :: back) ++ []⟩ := by simpa using hkeptA
  have hkeptB' : ¬ Place.IsDeleted ⟨(front ++ [a]) ++ between, b, back ++ []⟩ := by
    simpa using hkeptB
  have hparts : kept [] text [] = kept [] front ((a :: (between ++ b :: back)) ++ []) ++
      a :: (kept (front ++ [a]) between (b :: back) ++
        b :: kept (front ++ [a] ++ between ++ [b]) back []) := by
    rw [htext, kept_append, List.nil_append, kept_cons_of_not hkeptA', kept_append,
      kept_cons_of_not hkeptB', List.append_nil, List.append_nil]
  have htrim := Text.trim_between ha hb (kept [] front ((a :: (between ++ b :: back)) ++ []))
    (kept (front ++ [a]) between (b :: back)) (kept (front ++ [a] ++ between ++ [b]) back [])
  rw [← hparts, ← happly] at htrim
  exact ⟨lineBreak_mem_kept hbreak hb (hcut ▸ hkeptB), _, _, htrim⟩

/-- A comment behind code, an empty line and a line that is a comment: of the line breaks between
the two statements the last one is kept. -/
theorem apply_eq_trim_kept_statements :
    (¬ Place.IsDeleted ⟨"let x = 1".toList, ';', " // a\n\n \t/// b\r\nf(x) // c".toList⟩ ∧
      ¬ Place.IsDeleted ⟨"let x = 1; // a\n\n \t/// b\r\n".toList, 'f', "(x) // c".toList⟩) ∧
    '\n' ∈ kept "let x = 1;".toList " // a\n\n \t/// b\r\n".toList "f(x) // c".toList ∧
    (⟨true, false⟩ : Filter).apply "let x = 1; // a\n\n \t/// b\r\nf(x) // c".toList =
      "let x = 1;\nf(x)".toList := by
  have hfirst : ¬ Place.IsDeleted
      ⟨"let x = 1".toList, ';', " // a\n\n \t/// b\r\nf(x) // c".toList⟩ := by
    decide +kernel
  have hsecond : ¬ Place.IsDeleted
      ⟨"let x = 1; // a\n\n \t/// b\r\n".toList, 'f', "(x) // c".toList⟩ := by
    decide +kernel
  have happly := apply_eq_trim_kept "let x = 1; // a\n\n \t/// b\r\nf(x) // c".toList
  have hlines := happly.2 "let x = 1".toList ';' " // a\n\n \t/// b\r\n".toList 'f'
    "(x) // c".toList rfl (by decide) (by decide) (by decide) hfirst hsecond
  refine ⟨⟨hfirst, hsecond⟩, hlines.1, happly.1.trans ?_⟩
  decide +kernel

end Filter

end SourceMask
