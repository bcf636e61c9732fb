import SourceMask.Proofs.Role.AnchorOrder

/-!
# Patterns

The pattern of a role and some names is a regular expression with two groups.  The first group is
the anchor of the role.  The second group is one of the names, longer names first, with a boundary
in front of the name or behind it where the name has to start or end a word.

At each place the pattern takes the first text that both groups together allow.  A sweep finds the
same there, although it lists the anchors and looks for the names without any expression.

Main results:

- Theorem `takes?_whole`: the two groups are the parts of what the whole expression takes.
- Theorem `lengths_nameExpression`: the expression of a name takes the name where it stands.
- Theorem `findAt?_ofNames`: a sweep finds at each place what the pattern takes there.
-/

namespace SourceMask

namespace Expression

/-! ## The text that is taken -/

/-- The text that an expression takes at the start of a text in the first possible way. -/
def takes? (expression : Expression) (before : Option Char) (text : Text) : Option Text :=
  ((expression.lengths before text).head?).map text.take

/-- Of choices that each give one value or none, the first value is that of the first choice that
gives one. -/
theorem head?_flatMap_ite {α β : Type} (list : List α) (p : α → Bool) (f : α → β) :
    (list.flatMap fun a => if p a then [f a] else []).head? = (list.find? p).map f := by
  induction list with
  | nil => rfl
  | cons a rest ih =>
    rw [List.flatMap_cons, List.find?_cons]
    cases p a with
    | true => rfl
    | false => exact ih

end Expression

open Expression Lexicon

/-! ## Patterns and what they take -/

/-- A regular expression with two groups, one behind the other. -/
structure Pattern where
  anchor : Expression
  name : Expression

namespace Pattern

/-- The two groups together. -/
def whole (pattern : Pattern) : Expression := both pattern.anchor pattern.name

/-- What the two groups take in the first possible way. -/
def findAt? (pattern : Pattern) (before : Option Char) (text : Text) : Option Finding :=
  (pattern.anchor.lengths before text).findSome? fun n =>
    (pattern.name.takes? (lastOr before (text.take n)) (text.drop n)).map fun name =>
      ⟨text.take n, name⟩

/-- The two groups are the parts of what the whole expression takes. -/
theorem takes?_whole (pattern : Pattern) (before : Option Char) (text : Text) :
    pattern.whole.takes? before text = (pattern.findAt? before text).map Finding.source := by
  rw [takes?, whole, lengths, List.head?_flatMap, findAt?, List.map_findSome?, List.map_findSome?]
  congr 1
  funext n
  rw [Function.comp_apply, Function.comp_apply, List.head?_map, takes?]
  cases ((pattern.name.lengths (lastOr before (text.take n)) (text.drop n)).head?) with
  | none => rfl
  | some m => exact congrArg some List.take_add

end Pattern

namespace Role

/-! ## Names -/

/-- A name in a given role.  The name of a property has to start a word if it starts with a name
character.  Every name has to end a word if it ends with a name character. -/
def nameExpression (role : Role) (name : Text) : Expression :=
  both (if role = propertyName && name.head?.any Text.isNameChar then boundary else empty)
    (both (word name) (if name.getLast?.any Text.isNameChar then boundary else empty))

/-- The pattern of a role for some names. -/
def pattern (role : Role) (names : List Text) : Pattern :=
  ⟨role.anchorExpression, oneOf ((names.mergeSort triedBefore).map role.nameExpression)⟩

/-- The expression of a name takes the name where it stands. -/
theorem lengths_nameExpression (role : Role) (name : Text) (before : Option Char) (text : Text) :
    (role.nameExpression name).lengths before text =
      if standsAt role before text name then [name.length] else [] := by
  have hends : ∀ after, (if name.getLast?.any Text.isNameChar then boundary else empty).lengths
      (lastOr before name) after = if endsWell name after then [0] else [] := by
    intro after
    rw [endsWell]
    cases hlast : name.getLast? with
    | none => rfl
    | some c =>
      cases hchar : (some c).any Text.isNameChar with
      | false => rfl
      | true =>
        rw [if_pos rfl, if_pos rfl, lengths, lastOr, hlast]
        rfl
  have hname : (both (word name)
      (if name.getLast?.any Text.isNameChar then boundary else empty)).lengths before text =
      if (Text.dropStart? name text).any (endsWell name) then [name.length] else [] := by
    rw [lengths_both_word]
    cases Text.dropStart? name text with
    | none => rfl
    | some after =>
      dsimp only
      rw [hends, Option.any_some]
      cases endsWell name after <;> rfl
  have hstands : standsAt role before text name =
      (startsWell role before name text && (Text.dropStart? name text).any (endsWell name)) := by
    rw [standsAt]
    cases Text.dropStart? name text with
    | none => exact (Bool.and_false _).symm
    | some after => rfl
  rw [nameExpression, hstands, startsWell]
  cases role = propertyName && name.head?.any Text.isNameChar with
  | false => exact (lengths_both_empty _ before text).trans hname
  | true =>
    rw [if_pos rfl, if_pos rfl, lengths_both_boundary, hname]
    cases Text.isWordBoundary before text.head? <;> rfl

/-- Of the names in the order in which they are tried, the first one that stands is taken. -/
theorem takes?_name (role : Role) (names : List Text) (before : Option Char) (text : Text) :
    (role.pattern names).name.takes? before text =
      (ofNames role names).names.find? (standsAt role before text) := by
  have htake : ∀ list : List Text,
      ((list.find? (standsAt role before text)).map List.length).map text.take =
        list.find? (standsAt role before text) := by
    intro list
    cases hfind : list.find? (standsAt role before text) with
    | none => rfl
    | some name =>
      rcases append_of_standsAt (List.find?_some hfind) with ⟨after, rfl⟩
      exact congrArg some List.take_left
  by_cases hnames : names = []
  · subst hnames
    have hstands : standsAt role before text [] = true := by
      simp [standsAt, startsWell, endsWell]
    rw [pattern, List.mergeSort_nil, ofNames, if_pos rfl, List.find?_cons, hstands]
    rfl
  · have hsorted : (names.mergeSort triedBefore).map role.nameExpression ≠ [] := by
      intro hnil
      have hlength := congrArg List.length hnil
      rw [List.length_map, List.length_mergeSort] at hlength
      exact hnames (List.eq_nil_of_length_eq_zero hlength)
    rw [pattern, takes?, lengths_oneOf hsorted, List.flatMap_map]
    simp only [lengths_nameExpression]
    rw [head?_flatMap_ite, htake, ofNames, if_neg hnames]

/-- A sweep finds at each place what the pattern takes there. -/
theorem findAt?_ofNames (role : Role) (names : List Text) (before : Option Char) (text : Text) :
    (ofNames role names).findAt? before text = (role.pattern names).findAt? before text := by
  have hrole : (ofNames role names).role = role := rfl
  rw [Lexicon.findAt?, Pattern.findAt?, hrole]
  refine Eq.trans ?_ (findsAlike_anchors role before text _ _).symm
  congr 1
  funext n
  rw [findBehind?, takes?_name, hrole]

end Role

end SourceMask
