import Mathlib.Data.List.SplitBy
import Mathlib.Data.List.Perm.Basic
import SourceMask.Proofs.Token.Shape

/-!
# What a scan keeps of a text

A scan neither loses nor adds nor doubles a character, apart from the blanks outside of strings that
it leaves out.  It may change their order, though: between two breaks the characters of strings come
before those of names.

That is told by the text alone.  A character belongs to a string if it is a delimiter or an odd
number of delimiters stands in front of it.  Any other character belongs to a name or is a break.
Marked so, the characters of a text are cut into stretches at the breaks, and each stretch puts its
string characters first.

Main results:

- Theorems `map_char_marks` and `flatten_splitAtBreaks`: each character of a text is marked once,
  and belongs to one stretch.
- Theorem `spells_scanFrom`: a scan spells the marked characters of its text.
- Theorem `flatMap_text_scan`: the tokens of a text are its characters without the blanks outside of
  strings, stretch for stretch with the string characters first.
-/

namespace SourceMask

namespace Token

/-! ## The parts that characters play -/

/-- What a character is to a text: a part of a string, a part of a name, or a break. -/
inductive Part where
  | quoted
  | name
  | pause
  deriving DecidableEq, Repr

/-- Whether a text ends inside of a string: the number of its delimiters is odd. -/
def endsInside (front : Text) : Bool := front.countP isDelimiter % 2 = 1

/-- The part of a character that stands between two parts of a text. -/
def partBetween (front : Text) (c : Char) (back : Text) : Part :=
  if isDelimiter c || endsInside front then .quoted
  else if continuesName c back then .name
  else .pause

/-- A character of a text with the part that it plays there. -/
structure Mark where
  char : Char
  part : Part
  deriving DecidableEq, Repr

/-- Whether a scan keeps a character: it leaves out the blanks outside of strings. -/
def Mark.isKept (mark : Mark) : Bool := mark.part = .quoted || !Text.isBlank mark.char

/-- The characters of a text that stands behind another one, each with its part. -/
def marksBehind (front : Text) : Text → List Mark
  | [] => []
  | c :: back => ⟨c, partBetween front c back⟩ :: marksBehind (front ++ [c]) back

/-- The characters of a text, each with its part. -/
def marks (text : Text) : List Mark := marksBehind [] text

/-- Whether a character is no break, so that its neighbours may share its stretch. -/
def Mark.isWithin (mark : Mark) : Bool := mark.part ≠ .pause

/-- The stretches of marked characters: a break shares its stretch with no neighbour. -/
def splitAtBreaks (marks : List Mark) : List (List Mark) :=
  marks.splitBy fun first second => first.isWithin && second.isWithin

/-- The string characters of a stretch, and behind them the others, both in their order. -/
def quotedFirst (stretch : List Mark) : List Mark :=
  stretch.filter (fun mark => mark.part = .quoted) ++
    stretch.filter (fun mark => !decide (mark.part = .quoted))

/-- The characters that a scan keeps, stretch for stretch with the string characters first. -/
def settle (marks : List Mark) : List Mark :=
  ((splitAtBreaks marks).flatMap quotedFirst).filter Mark.isKept

/-! ## Marks -/

theorem map_char_marksBehind (front text : Text) :
    (marksBehind front text).map Mark.char = text := by
  induction text generalizing front with
  | nil => rfl
  | cons c back ih => rw [marksBehind, List.map_cons, ih]

/-- Every character of a text is marked once. -/
theorem map_char_marks (text : Text) : (marks text).map Mark.char = text :=
  map_char_marksBehind [] text

/-- A delimiter turns over whether a text ends inside of a string. -/
theorem endsInside_delimiter {c : Char} (h : isDelimiter c = true) (front : Text) :
    endsInside (front ++ [c]) = !endsInside front := by
  have hcount : (front ++ [c]).countP isDelimiter = front.countP isDelimiter + 1 := by
    rw [List.countP_append, List.countP_singleton, if_pos h]
  rw [endsInside, endsInside, hcount, ← decide_not, decide_eq_decide]
  omega

/-- Any other character leaves it. -/
theorem endsInside_other {c : Char} (h : isDelimiter c = false) (front : Text) :
    endsInside (front ++ [c]) = endsInside front := by
  rw [endsInside, endsInside, List.countP_append, List.countP_singleton, h,
    if_neg Bool.false_ne_true, Nat.add_zero]

/-! ## Stretches -/

section

variable {mark : Mark} {marks stretch run rest : List Mark}

/-- What is no break and belongs to no name belongs to a string. -/
theorem part_eq_quoted (hwithin : mark.isWithin = true) (hname : mark.part ≠ .name) :
    mark.part = .quoted := by
  rw [Mark.isWithin, decide_eq_true_eq] at hwithin
  cases hpart : mark.part with
  | quoted => rfl
  | name => exact absurd hpart hname
  | pause => exact absurd hpart hwithin

/-- Every mark belongs to one stretch. -/
theorem flatten_splitAtBreaks (marks : List Mark) : (splitAtBreaks marks).flatten = marks :=
  List.flatten_splitBy _ marks

/-- Neighbours that share their stretch, up to one that does not, are the first stretch. -/
theorem splitAtBreaks_eq_cons (hne : stretch ≠ [])
    (hchain : stretch.IsChain fun first second => first.isWithin && second.isWithin)
    (hcut : ∀ last ∈ stretch.getLast?, ∀ next ∈ rest.head?,
      (last.isWithin && next.isWithin) = false) :
    splitAtBreaks (stretch ++ rest) = stretch :: splitAtBreaks rest := by
  rw [splitAtBreaks, List.splitBy_append hcut, List.splitBy_of_isChain hne hchain]
  rfl

/-- A break is a stretch of its own. -/
theorem splitAtBreaks_pause (h : mark.isWithin = false) (marks : List Mark) :
    splitAtBreaks (mark :: marks) = [mark] :: splitAtBreaks marks := by
  refine splitAtBreaks_eq_cons (List.cons_ne_nil mark []) (List.isChain_singleton mark) ?_
  intro last hlast _ _
  rw [List.getLast?_singleton, Option.mem_some_iff] at hlast
  rw [← hlast, h, Bool.false_and]

/-- Characters without a break, up to the first break, are a stretch. -/
theorem splitAtBreaks_append (hne : run ≠ []) (hrun : ∀ mark ∈ run, mark.isWithin = true)
    (hrest : ∀ mark ∈ rest.head?, mark.isWithin = false) :
    splitAtBreaks (run ++ rest) = run :: splitAtBreaks rest := by
  refine splitAtBreaks_eq_cons hne (List.Pairwise.isChain ?_) ?_
  · apply List.pairwise_of_forall_mem_list
    intro first hfirst second hsecond
    rw [hrun first hfirst, hrun second hsecond]
    rfl
  · intro last _ next hnext
    rw [hrest next hnext, Bool.and_false]

/-- Neighbours that all share their stretch are no breaks. -/
theorem isWithin_of_isChain {first second : Mark} {rest : List Mark}
    (h : (first :: second :: rest).IsChain fun first second => first.isWithin && second.isWithin) :
    ∀ mark ∈ first :: second :: rest, mark.isWithin = true := by
  induction rest generalizing first second with
  | nil =>
    have hboth := Bool.and_eq_true_iff.mp (List.isChain_cons_cons.mp h).1
    simpa using hboth
  | cons third rest ih =>
    rcases List.isChain_cons_cons.mp h with ⟨hboth, hrest⟩
    exact List.forall_mem_cons.mpr ⟨(Bool.and_eq_true_iff.mp hboth).1, ih hrest⟩

/-- A stretch is a single character or has no break in it. -/
theorem isWithin_of_mem_splitAtBreaks (h : stretch ∈ splitAtBreaks marks) :
    (∃ mark, stretch = [mark]) ∨ ∀ mark ∈ stretch, mark.isWithin = true := by
  have hchain := List.isChain_of_mem_splitBy h
  match stretch, hchain with
  | [], _ => exact .inr fun _ hmem => absurd hmem List.not_mem_nil
  | [mark], _ => exact .inl ⟨mark, rfl⟩
  | _ :: _ :: _, hchain => exact .inr (isWithin_of_isChain hchain)

/-! ## String characters first -/

/-- Putting string characters first keeps each character. -/
theorem quotedFirst_perm (stretch : List Mark) : (quotedFirst stretch).Perm stretch :=
  List.filter_append_perm _ stretch

/-- A stretch of string characters only, or without string characters, keeps its order. -/
theorem quotedFirst_eq_self
    (h : (∀ mark ∈ stretch, mark.part = .quoted) ∨ ∀ mark ∈ stretch, mark.part ≠ .quoted) :
    quotedFirst stretch = stretch := by
  unfold quotedFirst
  rcases h with h | h
  · rw [List.filter_eq_self.mpr (by simpa using h), List.filter_eq_nil_iff.mpr (by simpa using h),
      List.append_nil]
  · rw [List.filter_eq_nil_iff.mpr (by simpa using h), List.filter_eq_self.mpr (by simpa using h),
      List.nil_append]

/-- Settling keeps each character that is kept. -/
theorem settle_perm (marks : List Mark) : (settle marks).Perm (marks.filter Mark.isKept) := by
  have hperm := List.Perm.flatMap_left (splitAtBreaks marks) fun stretch _ =>
    quotedFirst_perm stretch
  rw [List.flatMap_id', flatten_splitAtBreaks] at hperm
  exact hperm.filter _

/-- Where no stretch has both string characters and name characters, settling keeps the order. -/
theorem settle_eq_filter
    (h : ∀ stretch ∈ splitAtBreaks marks,
      (∀ mark ∈ stretch, mark.part ≠ .quoted) ∨ ∀ mark ∈ stretch, mark.part ≠ .name) :
    settle marks = marks.filter Mark.isKept := by
  have hsame : ∀ stretch ∈ splitAtBreaks marks, quotedFirst stretch = stretch := by
    intro stretch hstretch
    apply quotedFirst_eq_self
    rcases h stretch hstretch with hquoted | hname
    · exact .inr hquoted
    · rcases isWithin_of_mem_splitAtBreaks hstretch with ⟨mark, rfl⟩ | hwithin
      · simp only [List.mem_singleton, forall_eq]
        exact Decidable.em _
      · exact .inl fun mark hmem => part_eq_quoted (hwithin mark hmem) (hname mark hmem)
  rw [settle, List.flatMap_congr hsame, List.flatMap_id', flatten_splitAtBreaks]

/-- A break is settled on its own. -/
theorem settle_pause (h : mark.isWithin = false) (marks : List Mark) :
    settle (mark :: marks) = [mark].filter Mark.isKept ++ settle marks := by
  rw [settle, splitAtBreaks_pause h, List.flatMap_cons, List.filter_append,
    (quotedFirst_perm [mark]).eq_singleton]
  rfl

/-- The characters in front of the first break are settled on their own. -/
theorem settle_append (hrun : ∀ mark ∈ run, mark.isWithin = true)
    (hrest : ∀ mark ∈ rest.head?, mark.isWithin = false) :
    settle (run ++ rest) = (quotedFirst run).filter Mark.isKept ++ settle rest := by
  by_cases hne : run = []
  · rw [hne]
    rfl
  · rw [settle, splitAtBreaks_append hne hrun hrest, List.flatMap_cons, List.filter_append]
    rfl

end

/-! ## Scans -/

/-- Whether a stretch of a scan spells the marked characters up to the first break, and its later
tokens the ones from there on. -/
structure Spells (stretch : Stretch) (run rest : List Mark) : Prop where
  /-- No break comes first. -/
  within : ∀ mark ∈ run, mark.isWithin = true
  /-- A break comes next, if there is one. -/
  stops : ∀ mark ∈ rest.head?, mark.isWithin = false
  /-- No character up to the first break is left out. -/
  kept : ∀ mark ∈ run, mark.isKept = true
  /-- The string of the stretch is made of the string characters. -/
  quoted : stretch.quoted = (run.filter fun mark => mark.part = .quoted).map Mark.char
  /-- The name of the stretch is made of the others. -/
  name : stretch.name = (run.filter fun mark => !decide (mark.part = .quoted)).map Mark.char
  /-- The later tokens are made of the settled rest. -/
  later : stretch.later.flatMap text = (settle rest).map Mark.char

/-- The tokens of a stretch are its string, its name, and the later ones. -/
theorem flatMap_text_tokens (stretch : Stretch) :
    stretch.tokens.flatMap text = stretch.quoted ++ stretch.name ++ stretch.later.flatMap text := by
  have hpiece : ∀ piece : Text,
      (if piece = [] then [] else [(⟨piece⟩ : Token)]).flatMap text = piece := by
    intro piece
    split
    · rename_i hnil
      rw [hnil]
      rfl
    · exact List.flatMap_singleton text _
  rw [Stretch.tokens, Stretch.pending, List.flatMap_append, List.flatMap_append, hpiece, hpiece]

/-- A break makes a token of itself, unless it is blank. -/
theorem flatMap_text_ofBreak (c : Char) :
    (ofBreak c).flatMap text = ([⟨c, .pause⟩].filter Mark.isKept).map Mark.char := by
  cases hblank : Text.isBlank c with
  | true =>
    rw [ofBreak, if_pos hblank, List.filter_cons_of_neg (by simp [Mark.isKept, hblank])]
    rfl
  | false =>
    rw [ofBreak, if_neg (by simp [hblank]), List.filter_cons_of_pos (by simp [Mark.isKept, hblank])]
    rfl

namespace Spells

variable {stretch : Stretch} {run rest : List Mark}

/-- At the end of a text nothing is left to spell. -/
theorem empty : Spells .empty [] [] where
  within := fun _ hmem => absurd hmem List.not_mem_nil
  stops := fun _ hmem => absurd hmem (Option.not_mem_none _)
  kept := fun _ hmem => absurd hmem List.not_mem_nil
  quoted := rfl
  name := rfl
  later := rfl

/-- The tokens of a stretch that spells marked characters are made of the settled characters. -/
theorem flatMap_text (h : Spells stretch run rest) :
    stretch.tokens.flatMap text = (settle (run ++ rest)).map Mark.char := by
  have hkept : (quotedFirst run).filter Mark.isKept = quotedFirst run :=
    List.filter_eq_self.mpr fun mark hmem => h.kept mark ((quotedFirst_perm run).mem_iff.mp hmem)
  rw [flatMap_text_tokens, h.quoted, h.name, h.later, settle_append h.within h.stops, hkept,
    quotedFirst, List.map_append, List.map_append]

/-- A string character goes in front. -/
theorem quote (h : Spells stretch run rest) (c : Char) :
    Spells (stretch.quote c) (⟨c, .quoted⟩ :: run) rest where
  within := List.forall_mem_cons.mpr ⟨rfl, h.within⟩
  stops := h.stops
  kept := List.forall_mem_cons.mpr ⟨rfl, h.kept⟩
  quoted := by
    rw [List.filter_cons_of_pos rfl, List.map_cons, ← h.quoted]
    rfl
  name := h.name
  later := h.later

/-- A name character goes in front. -/
theorem extend (h : Spells stretch run rest) {c : Char} (hblank : Text.isBlank c = false) :
    Spells (stretch.extend c) (⟨c, .name⟩ :: run) rest where
  within := List.forall_mem_cons.mpr ⟨rfl, h.within⟩
  stops := h.stops
  kept := List.forall_mem_cons.mpr ⟨by rw [Mark.isKept, hblank]; rfl, h.kept⟩
  quoted := h.quoted
  name := by
    rw [List.filter_cons_of_pos rfl, List.map_cons, ← h.name]
    rfl
  later := h.later

/-- A break goes in front. -/
theorem pause (h : Spells stretch run rest) (c : Char) :
    Spells ⟨[], [], ofBreak c ++ stretch.tokens⟩ [] (⟨c, .pause⟩ :: (run ++ rest)) where
  within := fun _ hmem => absurd hmem List.not_mem_nil
  stops := by
    intro mark hmem
    rw [List.head?_cons, Option.mem_some_iff] at hmem
    rw [← hmem]
    rfl
  kept := fun _ hmem => absurd hmem List.not_mem_nil
  quoted := rfl
  name := rfl
  later := by
    rw [List.flatMap_append, h.flatMap_text, settle_pause rfl, List.map_append,
      flatMap_text_ofBreak]

end Spells

/-- A scan spells the marked characters of its text. -/
theorem spells_scanFrom {inString : Bool} {front : Text} (text : Text)
    (h : endsInside front = inString) :
    ∃ run rest, marksBehind front text = run ++ rest ∧
      Spells (scanFrom inString text) run rest := by
  induction inString, text using scan_induction generalizing front with
  | stop inString => exact ⟨[], [], rfl, .empty⟩
  | delimiter inString c back hdelimiter ih =>
    have hpart : partBetween front c back = .quoted := by
      rw [partBetween, hdelimiter]
      rfl
    have hfront : endsInside (front ++ [c]) = !inString := by
      rw [endsInside_delimiter hdelimiter, h]
    rcases ih hfront with ⟨run, rest, hmarks, hspells⟩
    rw [scanFrom_delimiter hdelimiter, marksBehind, hpart, hmarks]
    exact ⟨_, rest, rfl, hspells.quote c⟩
  | quoted c back hdelimiter ih =>
    have hpart : partBetween front c back = .quoted := by
      rw [partBetween, h, Bool.or_true]
      rfl
    rcases ih ((endsInside_other hdelimiter front).trans h) with ⟨run, rest, hmarks, hspells⟩
    rw [scanFrom_quoted hdelimiter, marksBehind, hpart, hmarks]
    exact ⟨_, rest, rfl, hspells.quote c⟩
  | name c back hdelimiter hname ih =>
    have hpart : partBetween front c back = .name := by
      rw [partBetween, hdelimiter, h, hname]
      rfl
    rcases ih ((endsInside_other hdelimiter front).trans h) with ⟨run, rest, hmarks, hspells⟩
    rw [scanFrom_name hdelimiter hname, marksBehind, hpart, hmarks]
    exact ⟨_, rest, rfl, hspells.extend (isBlank_of_continuesName hname)⟩
  | pause c back hdelimiter hname ih =>
    have hpart : partBetween front c back = .pause := by
      rw [partBetween, hdelimiter, h, hname]
      rfl
    rcases ih ((endsInside_other hdelimiter front).trans h) with ⟨run, rest, hmarks, hspells⟩
    rw [scanFrom_break hdelimiter hname, marksBehind, hpart, hmarks]
    exact ⟨[], _, rfl, hspells.pause c⟩

/-- The tokens of a text, put together, are the characters of the text without the blanks outside
of strings, and between two breaks the string characters come first.  So every other character
comes out once, and all come out in their order if no stretch between two breaks has both string
characters and name characters. -/
theorem flatMap_text_scan (text : Text) :
    (marks text).map Mark.char = text ∧
      (scan text).flatMap Token.text = (settle (marks text)).map Mark.char ∧
      ((scan text).flatMap Token.text).Perm (((marks text).filter Mark.isKept).map Mark.char) ∧
      ((∀ stretch ∈ splitAtBreaks (marks text),
          (∀ mark ∈ stretch, mark.part ≠ .quoted) ∨ ∀ mark ∈ stretch, mark.part ≠ .name) →
        (scan text).flatMap Token.text = ((marks text).filter Mark.isKept).map Mark.char) := by
  have hscan : (scan text).flatMap Token.text = (settle (marks text)).map Mark.char := by
    have hfront : endsInside [] = false := rfl
    rcases spells_scanFrom text hfront with ⟨run, rest, hmarks, hspells⟩
    rw [scan, hspells.flatMap_text, marks, hmarks]
  refine ⟨map_char_marks text, hscan, ?_, ?_⟩
  · rw [hscan]
    exact (settle_perm (marks text)).map Mark.char
  · intro hunmixed
    rw [hscan, settle_eq_filter hunmixed]

/-- The tokens of a call give the text of the call back, without its unquoted blanks. -/
theorem flatMap_text_scan_call :
    (∀ stretch ∈ splitAtBreaks (marks "f( 'a b', 3.14) ".toList),
        (∀ mark ∈ stretch, mark.part ≠ .quoted) ∨ ∀ mark ∈ stretch, mark.part ≠ .name) ∧
      (scan "f( 'a b', 3.14) ".toList).flatMap Token.text = "f('a b',3.14)".toList := by
  have hunmixed : ∀ stretch ∈ splitAtBreaks (marks "f( 'a b', 3.14) ".toList),
      (∀ mark ∈ stretch, mark.part ≠ .quoted) ∨ ∀ mark ∈ stretch, mark.part ≠ .name := by
    decide +kernel
  refine ⟨hunmixed, ((flatMap_text_scan _).2.2.2 hunmixed).trans ?_⟩
  decide +kernel

/-- A name in front of a string comes out behind it. -/
example : (scan "b'a c'd; e".toList).flatMap Token.text = "'a c'bd;e".toList := by
  decide +kernel

end Token

end SourceMask
