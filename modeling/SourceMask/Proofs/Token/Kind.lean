import Mathlib.Logic.ExistsUnique
import SourceMask.Proofs.Token.Shape

/-!
# Kinds of tokens

The tokens of a text are of three kinds, and each of them is of one kind only.  A *string* consists
of literals, one directly behind the other, and a literal of two delimiters with characters between
them that are none.  A *name* is a run of characters that each continue a name.  Anything else is a
*single* character.

Strings close where the next delimiter comes.  So a text with an odd number of delimiters leaves its
last string open.  That string takes the rest of the text: of its stretch only a name can come
behind it, and no stretch follows.

Main results:

- Theorem `isLiteralRun_of_closesStrings`: a text that closes its strings consists of literals.
- Theorem `endsOpen_scanFrom`: a string that is not closed comes last but for a name.
- Theorem `existsUnique_kind_scan`: every token is of exactly one kind, except for one open string
  if the number of delimiters is odd.
-/

namespace SourceMask

namespace Token

/-! ## Kinds -/

/-- A quoted piece: two delimiters, and between them characters that are none. -/
def IsLiteral (text : Text) : Prop :=
  ∃ opening body closing, text = opening :: (body ++ [closing]) ∧ isDelimiter opening = true ∧
    isDelimiter closing = true ∧ ∀ c ∈ body, ¬ isDelimiter c = true

/-- A quoted piece that is not closed: a delimiter, and behind it characters that are none. -/
def IsOpenLiteral (text : Text) : Prop :=
  ∃ opening body, text = opening :: body ∧ isDelimiter opening = true ∧
    ∀ c ∈ body, ¬ isDelimiter c = true

/-- A string of literals that follow one another directly.  It starts and ends with a delimiter, and
has an even number of them. -/
structure IsLiteralString (token : Token) : Prop where
  starts : startsQuoted token.text = true
  ends : ∃ front closing, token.text = front ++ [closing] ∧ isDelimiter closing = true
  even : token.text.countP isDelimiter % 2 = 0
  literals : ∃ literals : List Text, (∀ literal ∈ literals, IsLiteral literal) ∧
    token.text = literals.flatten

/-- A string of literals of which the last one is not closed.  It has an odd number of
delimiters. -/
structure IsOpenString (token : Token) : Prop where
  starts : startsQuoted token.text = true
  odd : token.text.countP isDelimiter % 2 = 1
  literals : ∃ (literals : List Text) (last : Text), (∀ literal ∈ literals, IsLiteral literal) ∧
    IsOpenLiteral last ∧ token.text = literals.flatten ++ last

/-- The kinds of tokens. -/
inductive Kind where
  | string
  | name
  | single
  deriving DecidableEq, Repr

/-- Whether a token is of a kind. -/
def IsOf (token : Token) : Kind → Prop
  | .string => token.IsLiteralString
  | .name => token.IsName
  | .single => token.IsSingle

/-! ## One kind for each token -/

section

variable {token : Token}

/-- A single character is no delimiter. -/
theorem not_isString_of_isSingle (h : token.IsSingle) : ¬ token.IsString := by
  rcases h with ⟨c, htext, -, hdelimiter, -⟩
  rw [IsString, htext, startsQuoted, hdelimiter]
  exact Bool.false_ne_true

/-- A single character is no name: a dot has no digit behind it. -/
theorem not_isName_of_isSingle (h : token.IsSingle) : ¬ token.IsName := by
  rcases h with ⟨c, htext, -, -, hname⟩
  rintro ⟨-, hrun⟩
  rw [htext] at hrun
  simp [isNameRun, continuesName, startsWithDigit, hname] at hrun

/-- A token is of one kind at most. -/
theorem IsOf.unique {first second : Kind} (h : token.IsOf first) (h' : token.IsOf second) :
    first = second := by
  cases first with
  | string =>
    cases second with
    | string => rfl
    | name => exact absurd h.starts (not_isString_of_isName h')
    | single => exact absurd h.starts (not_isString_of_isSingle h')
  | name =>
    cases second with
    | string => exact absurd h'.starts (not_isString_of_isName h)
    | name => rfl
    | single => exact absurd h (not_isName_of_isSingle h')
  | single =>
    cases second with
    | string => exact absurd h'.starts (not_isString_of_isSingle h)
    | name => exact absurd h' (not_isName_of_isSingle h)
    | single => rfl

/-- No character of a name is a delimiter. -/
theorem countP_of_isNameRun {text : Text} (h : isNameRun text = true) :
    text.countP isDelimiter = 0 := by
  induction text with
  | nil => rfl
  | cons c rest ih =>
    rw [isNameRun, Bool.and_eq_true] at h
    rw [List.countP_cons_of_neg (by simp [isDelimiter_of_continuesName h.1]), ih h.2]

/-- A token of a kind is not empty. -/
theorem IsOf.text_ne_nil {kind : Kind} (h : token.IsOf kind) : token.text ≠ [] := by
  cases kind with
  | string =>
    intro hnil
    have hstarts := h.starts
    rw [hnil] at hstarts
    cases hstarts
  | name => exact h.1
  | single =>
    rcases h with ⟨c, htext, -⟩
    rw [htext]
    exact List.cons_ne_nil c []

/-- A token of a kind has an even number of delimiters. -/
theorem IsOf.even {kind : Kind} (h : token.IsOf kind) :
    token.text.countP isDelimiter % 2 = 0 := by
  cases kind with
  | string => exact IsLiteralString.even h
  | name => rw [countP_of_isNameRun h.2]
  | single =>
    rcases h with ⟨c, htext, -, hdelimiter, -⟩
    rw [htext, List.countP_cons_of_neg (by simp [hdelimiter])]
    rfl

end

/-! ## Literals -/

/-- What closes the strings of a text that stands inside or outside of one: outside, literals;
inside, the rest of a literal comes first. -/
def IsLiteralRun : (inString : Bool) → Text → Prop
  | false, text => ∃ literals : List Text, (∀ literal ∈ literals, IsLiteral literal) ∧
      text = literals.flatten
  | true, text => ∃ (body : Text) (closing : Char) (literals : List Text),
      (∀ c ∈ body, ¬ isDelimiter c = true) ∧ isDelimiter closing = true ∧
      (∀ literal ∈ literals, IsLiteral literal) ∧ text = body ++ closing :: literals.flatten

/-- A text that closes its strings consists of literals. -/
theorem isLiteralRun_of_closesStrings {inString : Bool} {text : Text}
    (h : closesStrings inString text = true) : IsLiteralRun inString text := by
  induction text generalizing inString with
  | nil =>
    cases inString with
    | false => exact ⟨[], fun _ hmem => absurd hmem List.not_mem_nil, rfl⟩
    | true => cases h
  | cons c rest ih =>
    rw [closesStrings] at h
    by_cases hdelimiter : isDelimiter c = true
    · rw [if_pos hdelimiter] at h
      cases inString with
      | false =>
        rcases ih h with ⟨body, closing, literals, hbody, hclosing, hliterals, rfl⟩
        refine ⟨(c :: (body ++ [closing])) :: literals, ?_, by simp⟩
        exact List.forall_mem_cons.mpr
          ⟨⟨c, body, closing, rfl, hdelimiter, hclosing, hbody⟩, hliterals⟩
      | true =>
        rcases ih h with ⟨literals, hliterals, rfl⟩
        exact ⟨[], c, literals, fun _ hmem => absurd hmem List.not_mem_nil, hdelimiter, hliterals,
          rfl⟩
    · rw [if_neg hdelimiter, Bool.and_eq_true] at h
      rcases h with ⟨rfl, hcloses⟩
      rcases ih hcloses with ⟨body, closing, literals, hbody, hclosing, hliterals, rfl⟩
      refine ⟨c :: body, closing, literals, ?_, hclosing, hliterals, rfl⟩
      exact List.forall_mem_cons.mpr ⟨hdelimiter, hbody⟩

/-- Literals have an even number of delimiters. -/
theorem even_of_literals {literals : List Text} (h : ∀ literal ∈ literals, IsLiteral literal) :
    literals.flatten.countP isDelimiter % 2 = 0 := by
  induction literals with
  | nil => rfl
  | cons literal rest ih =>
    rcases List.forall_mem_cons.mp h with ⟨⟨opening, body, closing, rfl, ho, hc, hbody⟩, hrest⟩
    have heven := ih hrest
    rw [List.flatten_cons, List.countP_append, List.countP_cons_of_pos ho, List.countP_append,
      List.countP_eq_zero.mpr hbody, List.countP_cons_of_pos hc, List.countP_nil]
    omega

/-- A string of which every quoted piece is closed consists of literals. -/
theorem isLiteralString_of_isClosedString {token : Token} (h : token.IsClosedString) :
    token.IsLiteralString := by
  rcases h with ⟨hne, hcloses⟩
  rcases isLiteralRun_of_closesStrings hcloses with ⟨literals, hliterals, htext⟩
  refine ⟨?_, ?_, htext ▸ even_of_literals hliterals, literals, hliterals, htext⟩
  · cases literals with
    | nil => exact absurd htext hne
    | cons literal rest =>
      rcases hliterals literal List.mem_cons_self with ⟨opening, body, closing, rfl, ho, -, -⟩
      rw [htext]
      exact ho
  · rcases List.eq_nil_or_concat literals with rfl | ⟨front, literal, rfl⟩
    · exact absurd htext hne
    · rcases hliterals literal (by simp) with ⟨opening, body, closing, rfl, -, hc, -⟩
      refine ⟨front.flatten ++ opening :: body, closing, ?_, hc⟩
      simp [htext]

/-- A string that one more delimiter closes consists of literals, the last of them open. -/
theorem isOpenString_of_closesStrings {token : Token}
    (h : closesStrings false (token.text ++ ['"']) = true) : token.IsOpenString := by
  rcases isLiteralRun_of_closesStrings h with ⟨literals, hliterals, htext⟩
  rcases List.eq_nil_or_concat literals with rfl | ⟨front, last, rfl⟩
  · simp at htext
  · rcases hliterals last (by simp) with ⟨opening, body, closing, rfl, ho, -, hbody⟩
    have hfront : ∀ literal ∈ front, IsLiteral literal :=
      fun literal hmem => hliterals literal (by simp [hmem])
    have htoken : token.text = front.flatten ++ opening :: body := by
      rw [List.concat_eq_append, List.flatten_append, List.flatten_singleton, ← List.cons_append,
        ← List.append_assoc] at htext
      exact (List.append_inj' htext rfl).1
    refine ⟨?_, ?_, front, opening :: body, hfront, ⟨opening, body, rfl, ho, hbody⟩, htoken⟩
    · rw [htoken]
      cases front with
      | nil => exact ho
      | cons literal rest =>
        rcases hfront literal List.mem_cons_self with ⟨_, _, _, rfl, ho', -, -⟩
        exact ho'
    · have heven := even_of_literals hfront
      rw [htoken, List.countP_append, List.countP_cons_of_pos ho, List.countP_eq_zero.mpr hbody]
      omega

/-- A token that has a shape is of exactly one kind. -/
theorem existsUnique_kind_of_hasShape {token : Token} (h : token.HasShape) :
    ∃! kind, token.IsOf kind := by
  have hkind : ∃ kind, token.IsOf kind := by
    rcases h with h | h | h
    · exact ⟨.string, isLiteralString_of_isClosedString h⟩
    · exact ⟨.name, h⟩
    · exact ⟨.single, h⟩
  rcases hkind with ⟨kind, hkind⟩
  exact ⟨kind, hkind, fun _ hother => hother.unique hkind⟩

/-! ## Texts with an odd number of delimiters -/

/-- Tokens that end in a string that one more delimiter would close, or in such a string and a
name, and that have shapes in front of it. -/
def EndsOpen (tokens : List Token) : Prop :=
  ∃ before string after, tokens = before ++ string :: after ∧
    (∀ token ∈ before, token.HasShape) ∧ closesStrings false (string.text ++ ['"']) = true ∧
    (after = [] ∨ ∃ name : Token, after = [name] ∧ name.IsName)

/-- Tokens that have shapes may come in front. -/
theorem EndsOpen.append_left {front tokens : List Token} (h : EndsOpen tokens)
    (hfront : ∀ token ∈ front, token.HasShape) : EndsOpen (front ++ tokens) := by
  rcases h with ⟨before, string, after, rfl, hbefore, hstring, hafter⟩
  refine ⟨front ++ before, string, after, (List.append_assoc front before _).symm, ?_, hstring,
    hafter⟩
  intro token htoken
  exact (List.mem_append.mp htoken).elim (hfront token) (hbefore token)

/-- Whether the string characters of a stretch are left open and no token follows, or they are
closed and the later tokens end open. -/
def Stretch.IsLeftOpen (inString : Bool) (stretch : Stretch) : Prop :=
  (closesStrings inString (stretch.quoted ++ ['"']) = true ∧ stretch.later = []) ∨
    (closesStrings inString stretch.quoted = true ∧ EndsOpen stretch.later)

/-- If the string of a stretch is closed, its own tokens have shapes. -/
theorem hasShape_of_mem_pending {text : Text}
    (hcloses : closesStrings false (scanFrom false text).quoted = true) :
    ∀ token ∈ (scanFrom false text).pending, token.HasShape := by
  intro token htoken
  have hmem : token ∈ ({ scanFrom false text with later := [] } : Stretch).tokens :=
    List.mem_append_left _ htoken
  rcases mem_tokens hmem with ⟨hne, rfl⟩ | ⟨hne, rfl⟩ | hlater
  · exact .inl ⟨hne, hcloses⟩
  · exact .inr (.inl ⟨hne, isNameRun_scanFrom false text⟩)
  · cases hlater

/-- The tokens of a stretch that is left open end open. -/
theorem endsOpen_tokens {text : Text} (h : (scanFrom false text).IsLeftOpen false) :
    EndsOpen (scanFrom false text).tokens := by
  rcases h with ⟨hopen, hlater⟩ | ⟨hcloses, hlater⟩
  · have hquoted : (scanFrom false text).quoted ≠ [] := by
      intro hnil
      rw [hnil] at hopen
      cases hopen
    refine ⟨[], ⟨(scanFrom false text).quoted⟩,
      if (scanFrom false text).name = [] then [] else [⟨(scanFrom false text).name⟩], ?_, ?_, hopen,
      ?_⟩
    · rw [Stretch.tokens, Stretch.pending, if_neg hquoted, hlater, List.append_nil]
      rfl
    · exact fun _ hmem => absurd hmem List.not_mem_nil
    · by_cases hname : (scanFrom false text).name = []
      · exact .inl (if_pos hname)
      · exact .inr ⟨_, if_neg hname, hname, isNameRun_scanFrom false text⟩
  · exact hlater.append_left (hasShape_of_mem_pending hcloses)

/-- In a text that does not lead out of all strings, the last string is left open, and it comes last
but for a name. -/
theorem endsOpen_scanFrom {inString : Bool} {text : Text} (h : ¬ IsBalanced inString text) :
    (scanFrom inString text).IsLeftOpen inString := by
  induction inString, text using scan_induction with
  | stop inString =>
    cases inString with
    | false => exact absurd rfl h
    | true => exact .inl ⟨rfl, rfl⟩
  | delimiter inString c rest hdelimiter ih =>
    have hrest := ih (mt (isBalanced_delimiter hdelimiter).mpr h)
    rw [scanFrom_delimiter hdelimiter]
    refine hrest.imp (And.imp_left ?_) (And.imp_left ?_)
    · intro hopen
      rwa [Stretch.quote, List.cons_append, closesStrings, if_pos hdelimiter]
    · intro hcloses
      rwa [Stretch.quote, closesStrings, if_pos hdelimiter]
  | quoted c rest hdelimiter ih =>
    have hrest := ih (mt (isBalanced_other hdelimiter).mpr h)
    rw [scanFrom_quoted hdelimiter]
    refine hrest.imp (And.imp_left ?_) (And.imp_left ?_)
    · intro hopen
      rwa [Stretch.quote, List.cons_append, closesStrings, if_neg (by simp [hdelimiter]),
        Bool.true_and]
    · intro hcloses
      rwa [Stretch.quote, closesStrings, if_neg (by simp [hdelimiter]), Bool.true_and]
  | name c rest hdelimiter hname ih =>
    rw [scanFrom_name hdelimiter hname]
    exact ih (mt (isBalanced_other hdelimiter).mpr h)
  | pause c rest hdelimiter hname ih =>
    have hrest := endsOpen_tokens (ih (mt (isBalanced_other hdelimiter).mpr h))
    rw [scanFrom_break hdelimiter hname]
    exact .inr ⟨rfl, hrest.append_left fun _ => hasShape_of_mem_ofBreak hdelimiter hname⟩

/-- Every token of a text is of exactly one kind: a string of literals, a name, or a single
character.  If the text has an odd number of delimiters, there is one exception, a string whose last
literal is open, and nothing but a name comes behind it. -/
theorem existsUnique_kind_scan (text : Text) :
    (text.countP isDelimiter % 2 = 0 →
      ∀ token ∈ scan text, token.text ≠ [] ∧ ∃! kind, token.IsOf kind) ∧
    (text.countP isDelimiter % 2 = 1 →
      ∃ before string after, scan text = before ++ string :: after ∧ string.IsOpenString ∧
        (after = [] ∨ ∃ name : Token, after = [name] ∧ name.IsName) ∧
        ∀ token ∈ before ++ after, token.text ≠ [] ∧ (∃! kind, token.IsOf kind) ∧
          token.text.countP isDelimiter % 2 = 0) := by
  constructor
  · intro heven token htoken
    have hkind := existsUnique_kind_of_hasShape (hasShape_of_mem_scan heven token htoken)
    exact ⟨hkind.choose_spec.1.text_ne_nil, hkind⟩
  · intro hodd
    have hopen : ¬ IsBalanced false text := by
      intro hbalanced
      have heven : text.countP isDelimiter % 2 = 0 := hbalanced
      omega
    rcases endsOpen_tokens (endsOpen_scanFrom hopen) with
      ⟨before, string, after, hscan, hbefore, hstring, hafter⟩
    refine ⟨before, string, after, hscan, isOpenString_of_closesStrings hstring, hafter, ?_⟩
    intro token htoken
    have hshape : token.HasShape := by
      rcases List.mem_append.mp htoken with hmem | hmem
      · exact hbefore token hmem
      · rcases hafter with rfl | ⟨name, rfl, hname⟩
        · cases hmem
        · rw [List.mem_singleton.mp hmem]
          exact .inr (.inl hname)
    have hkind := existsUnique_kind_of_hasShape hshape
    have hof := hkind.choose_spec.1
    exact ⟨hof.text_ne_nil, hkind, hof.even⟩

/-- The tokens of a text that leaves a string open, and of that text with the string closed. -/
theorem existsUnique_kind_scan_openString :
    "f(.5)'a'b \x60c".toList.countP isDelimiter % 2 = 1 ∧
      (∃ before string after, scan "f(.5)'a'b \x60c".toList = before ++ string :: after ∧
        string.IsOpenString ∧ (after = [] ∨ ∃ name : Token, after = [name] ∧ name.IsName) ∧
        ∀ token ∈ before ++ after, token.text ≠ [] ∧ (∃! kind, token.IsOf kind) ∧
          token.text.countP isDelimiter % 2 = 0) ∧
      "f(.5)'a'b \x60c\x60".toList.countP isDelimiter % 2 = 0 ∧
      ∀ token ∈ scan "f(.5)'a'b \x60c\x60".toList, token.text ≠ [] ∧
        ∃! kind, token.IsOf kind := by
  have hodd : "f(.5)'a'b \x60c".toList.countP isDelimiter % 2 = 1 := by decide
  have heven : "f(.5)'a'b \x60c\x60".toList.countP isDelimiter % 2 = 0 := by decide
  exact ⟨hodd, (existsUnique_kind_scan _).2 hodd, heven, (existsUnique_kind_scan _).1 heven⟩

/-- An open string may have a closed literal in front and a name behind it. -/
example : (scan "x = b'a''c d".toList).map text =
    ["x".toList, "=".toList, "'a''c d".toList, "b".toList] := by
  decide +kernel

end Token

end SourceMask
