import Mathlib.Data.List.Forall2
import SourceMask.Proofs.Text.Exchange
import SourceMask.Proofs.Token.Shape

/-!
# Texts that are scanned alike

When identifiers of a text give way to other identifiers, the scan reads the new text in step with
the old one.  Both identifiers are made of name characters and neither starts with a digit, so a
character in front of them is read as before, and the buffer that takes them is filled in both
texts.  It does not matter whether the identifiers stand inside or outside of a string, or whether
they are parts of longer names.

Tokens that differ after this are names in both texts or strings in both texts.  That two texts are
scanned alike is stated for every context, so that it can be applied to parts of a text and
repeated.

Main results:

- Theorem `isAligned_scanFrom`: the stretches of two texts that differ in identifiers are aligned.
- Theorem `scansAlike_of_renames`: such texts are scanned alike in every context.
- Theorems `ScansAlike.trans` and `ScansAlike.append`: texts stay alike under repeated changes and
  when parts are put together.
-/

namespace SourceMask

namespace Text

/-- Whether a text is an ASCII identifier: it is not empty, made of letters, digits and low lines,
and does not start with a digit. -/
def isIdentifier : Text → Bool
  | [] => false
  | c :: rest => isAsciiName c && !c.isDigit && rest.all isAsciiName

end Text

namespace Token

/-! ## Alike tokens -/

/-- Two tokens are equal, or both are names, or both are strings. -/
def Alike (first second : Token) : Prop :=
  first = second ∨ (first.IsName ∧ second.IsName) ∨ (first.IsString ∧ second.IsString)

theorem Alike.refl (token : Token) : Alike token token := .inl rfl

theorem Alike.trans {first second third : Token} (h : Alike first second)
    (h' : Alike second third) : Alike first third := by
  rcases h with rfl | ⟨hfirst, hsecond⟩ | ⟨hfirst, hsecond⟩
  · exact h'
  · rcases h' with rfl | ⟨_, hthird⟩ | ⟨hstring, _⟩
    · exact .inr (.inl ⟨hfirst, hsecond⟩)
    · exact .inr (.inl ⟨hfirst, hthird⟩)
    · exact absurd hstring (not_isString_of_isName hsecond)
  · rcases h' with rfl | ⟨hname, _⟩ | ⟨_, hthird⟩
    · exact .inr (.inr ⟨hfirst, hsecond⟩)
    · exact absurd hsecond (not_isString_of_isName hname)
    · exact .inr (.inr ⟨hfirst, hthird⟩)

/-- Two token sequences are of one length and alike at every place. -/
def AllAlike (first second : List Token) : Prop := List.Forall₂ Alike first second

theorem AllAlike.refl (tokens : List Token) : AllAlike tokens tokens :=
  List.forall₂_same.mpr fun token _ => Alike.refl token

theorem AllAlike.trans {first second third : List Token} (h : AllAlike first second)
    (h' : AllAlike second third) : AllAlike first third := by
  induction h generalizing third with
  | nil => exact h'
  | cons halike _ ih =>
    cases h' with
    | cons halike' hrest' => exact .cons (halike.trans halike') (ih hrest')

theorem AllAlike.append {first second first' second' : List Token} (h : AllAlike first second)
    (h' : AllAlike first' second') : AllAlike (first ++ first') (second ++ second') :=
  List.rel_append h h'

/-! ## Renamed texts -/

/-- Some identifiers of a text give way to others, and all else is kept. -/
inductive Renames : Text → Text → Prop
  | done : Renames [] []
  | keep (c : Char) {text text' : Text} (h : Renames text text') : Renames (c :: text) (c :: text')
  | rename {name name' text text' : Text} (hname : Text.isIdentifier name = true)
      (hname' : Text.isIdentifier name' = true) (h : Renames text text') :
      Renames (name ++ text) (name' ++ text')

namespace Renames

theorem refl (text : Text) : Renames text text := by
  induction text with
  | nil => exact done
  | cons c rest ih => exact keep c ih

theorem append {first first' second second' : Text} (h : Renames first first')
    (h' : Renames second second') : Renames (first ++ second) (first' ++ second') := by
  induction h with
  | done => exact h'
  | keep c _ ih => exact keep c ih
  | rename hname hname' _ ih =>
    rw [List.append_assoc, List.append_assoc]
    exact rename hname hname' ih

/-- An identifier starts with no digit. -/
theorem startsWithDigit_identifier {name : Text} (h : Text.isIdentifier name = true) (text : Text) :
    startsWithDigit (name ++ text) = false := by
  cases name with
  | nil => cases h
  | cons c rest =>
    simp only [Text.isIdentifier, Bool.and_eq_true, Bool.not_eq_true'] at h
    exact h.1.2

/-- Renamed texts agree on whether they start with a digit. -/
theorem startsWithDigit_eq {text text' : Text} (h : Renames text text') :
    startsWithDigit text = startsWithDigit text' := by
  cases h with
  | done => rfl
  | keep c _ => rfl
  | rename hname hname' _ =>
    rw [startsWithDigit_identifier hname, startsWithDigit_identifier hname']

/-- In front of renamed texts a character is read in one way. -/
theorem continuesName_eq {text text' : Text} (h : Renames text text') (c : Char) :
    continuesName c text = continuesName c text' := by
  rw [continuesName, continuesName, h.startsWithDigit_eq]

end Renames

/-! ## Scanning identifiers -/

theorem continuesName_of_isAsciiName {c : Char} (h : Text.isAsciiName c = true) (rest : Text) :
    continuesName c rest = true := by
  rw [continuesName, Text.isNameChar_of_isAsciiName h]
  rfl

/-- Inside of a string, ASCII name characters are string characters. -/
theorem scanFrom_true_asciiNames {name : Text} (h : name.all Text.isAsciiName = true)
    (rest : Text) :
    scanFrom true (name ++ rest) =
      { scanFrom true rest with quoted := name ++ (scanFrom true rest).quoted } := by
  induction name with
  | nil => rfl
  | cons c name ih =>
    rw [List.all_cons, Bool.and_eq_true] at h
    have hcontinues := continuesName_of_isAsciiName h.1 (name ++ rest)
    rw [List.cons_append, scanFrom_quoted (isDelimiter_of_continuesName hcontinues), ih h.2]
    rfl

/-- Outside of strings, ASCII name characters are name characters. -/
theorem scanFrom_false_asciiNames {name : Text} (h : name.all Text.isAsciiName = true)
    (rest : Text) :
    scanFrom false (name ++ rest) =
      { scanFrom false rest with name := name ++ (scanFrom false rest).name } := by
  induction name with
  | nil => rfl
  | cons c name ih =>
    rw [List.all_cons, Bool.and_eq_true] at h
    have hcontinues := continuesName_of_isAsciiName h.1 (name ++ rest)
    rw [List.cons_append, scanFrom_name (isDelimiter_of_continuesName hcontinues) hcontinues,
      ih h.2]
    rfl

/-- An identifier is not empty and made of ASCII name characters. -/
theorem all_of_isIdentifier {name : Text} (h : Text.isIdentifier name = true) :
    name ≠ [] ∧ name.all Text.isAsciiName = true := by
  cases name with
  | nil => cases h
  | cons c rest =>
    simp only [Text.isIdentifier, Bool.and_eq_true] at h
    exact ⟨List.cons_ne_nil c rest, by rw [List.all_cons, h.1.1, h.2]; rfl⟩

/-! ## Aligned stretches -/

/-- Two stretches have string characters, have name characters, or have none, at the same time, and
the tokens behind them are alike. -/
structure Stretch.IsAligned (first second : Stretch) : Prop where
  quoted : first.quoted = [] ↔ second.quoted = []
  name : first.name = [] ↔ second.name = []
  later : AllAlike first.later second.later

/-- Outside of strings, aligned stretches have alike tokens: their strings start with delimiters and
their names are names. -/
theorem allAlike_tokens {text text' : Text}
    (h : (scanFrom false text).IsAligned (scanFrom false text')) :
    AllAlike (scanFrom false text).tokens (scanFrom false text').tokens := by
  refine AllAlike.append (AllAlike.append ?_ ?_) h.later
  · by_cases hquoted : (scanFrom false text).quoted = []
    · rw [if_pos hquoted, if_pos (h.quoted.mp hquoted)]
      exact AllAlike.refl []
    · have hquoted' := mt h.quoted.mpr hquoted
      rw [if_neg hquoted, if_neg hquoted']
      have hstrings : Alike ⟨(scanFrom false text).quoted⟩ ⟨(scanFrom false text').quoted⟩ :=
        .inr (.inr ⟨startsQuoted_scanFrom hquoted, startsQuoted_scanFrom hquoted'⟩)
      exact .cons hstrings .nil
  · by_cases hname : (scanFrom false text).name = []
    · rw [if_pos hname, if_pos (h.name.mp hname)]
      exact AllAlike.refl []
    · have hname' := mt h.name.mpr hname
      rw [if_neg hname, if_neg hname']
      have hnames : Alike ⟨(scanFrom false text).name⟩ ⟨(scanFrom false text').name⟩ :=
        .inr (.inl ⟨⟨hname, isNameRun_scanFrom false text⟩,
          ⟨hname', isNameRun_scanFrom false text'⟩⟩)
      exact .cons hnames .nil

/-- The stretches of renamed texts are aligned. -/
theorem isAligned_scanFrom {text text' : Text} (h : Renames text text') (inString : Bool) :
    (scanFrom inString text).IsAligned (scanFrom inString text') := by
  induction h generalizing inString with
  | done => exact ⟨Iff.rfl, Iff.rfl, AllAlike.refl []⟩
  | @keep c text text' hrest ih =>
    cases hdelimiter : isDelimiter c with
    | true =>
      have halign := ih (!inString)
      rw [scanFrom_delimiter hdelimiter, scanFrom_delimiter hdelimiter]
      exact ⟨by simp [Stretch.quote], halign.name, halign.later⟩
    | false =>
      cases inString with
      | true =>
        have halign := ih true
        rw [scanFrom_quoted hdelimiter, scanFrom_quoted hdelimiter]
        exact ⟨by simp [Stretch.quote], halign.name, halign.later⟩
      | false =>
        have halign := ih false
        have hsame := hrest.continuesName_eq c
        cases hname : continuesName c text with
        | true =>
          rw [scanFrom_name hdelimiter hname, scanFrom_name hdelimiter (hsame ▸ hname)]
          exact ⟨halign.quoted, by simp [Stretch.extend], halign.later⟩
        | false =>
          rw [scanFrom_break hdelimiter hname, scanFrom_break hdelimiter (hsame ▸ hname)]
          exact ⟨Iff.rfl, Iff.rfl, (AllAlike.refl (ofBreak c)).append (allAlike_tokens halign)⟩
  | rename hname hname' _ ih =>
    have halign := ih inString
    rcases all_of_isIdentifier hname with ⟨hne, hall⟩
    rcases all_of_isIdentifier hname' with ⟨hne', hall'⟩
    cases inString with
    | true =>
      rw [scanFrom_true_asciiNames hall, scanFrom_true_asciiNames hall']
      exact ⟨by simp [hne, hne'], halign.name, halign.later⟩
    | false =>
      rw [scanFrom_false_asciiNames hall, scanFrom_false_asciiNames hall']
      exact ⟨halign.quoted, by simp [hne, hne'], halign.later⟩

/-! ## Alike in every context -/

/-- Two texts are scanned alike wherever they stand. -/
def ScansAlike (text text' : Text) : Prop :=
  ∀ before after, AllAlike (scan (before ++ text ++ after)) (scan (before ++ text' ++ after))

/-- Renamed texts are scanned alike. -/
theorem scansAlike_of_renames {text text' : Text} (h : Renames text text') :
    ScansAlike text text' := by
  intro before after
  have hwhole := ((Renames.refl before).append h).append (Renames.refl after)
  exact allAlike_tokens (isAligned_scanFrom hwhole false)

namespace ScansAlike

theorem refl (text : Text) : ScansAlike text text := fun _ _ => AllAlike.refl _

theorem trans {first second third : Text} (h : ScansAlike first second)
    (h' : ScansAlike second third) : ScansAlike first third :=
  fun before after => (h before after).trans (h' before after)

/-- Texts that are put together of alike parts are alike. -/
theorem append {first first' second second' : Text} (h : ScansAlike first first')
    (h' : ScansAlike second second') : ScansAlike (first ++ second) (first' ++ second') := by
  intro before after
  have hfirst := h before (second ++ after)
  have hsecond := h' (before ++ first') after
  simp only [List.append_assoc] at hfirst hsecond ⊢
  exact hfirst.trans hsecond

/-- A text in which parts are exchanged for alike ones is alike. -/
theorem of_exchanges {α : Type} {start stop : α → Nat} {writes : α → Text → Text → Prop}
    {offset : Nat} {text result : Text} {items : List α}
    (hwrites : ∀ item ∈ items, ∀ slice piece, writes item slice piece → ScansAlike slice piece)
    (h : Text.Exchanges start stop writes offset text items result) : ScansAlike text result := by
  induction h with
  | done offset text => exact refl text
  | @step offset gap slice rest piece result item items _ _ hitem _ ih =>
    have hpiece := hwrites item List.mem_cons_self slice piece hitem
    have hrest := ih fun other hother => hwrites other (List.mem_cons_of_mem item hother)
    exact ((refl gap).append hpiece).append hrest

end ScansAlike

end Token

end SourceMask
