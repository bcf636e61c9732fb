import SourceMask.Proofs.Role.Delimited

/-!
# Places that a sweep comes to

A sweep skips a finding as a whole, so it comes to a place of the text only if no finding that
starts further left goes beyond that place.  Then it goes on from there as if the text started with
what follows, except that it knows the character before.

At such a place the anchors are tried in their order and the names behind them by their length.  If
only one anchor has a name behind it, the order of the anchors is of no account, and the longest of
the names that stand behind it is found.

Main results:

- Theorem `exists_sweepFrom_append`: a sweep comes to a place that no finding goes beyond.
- Theorem `endsWithin_of_not_cut`: no finding goes beyond a place where none is cut.
- Theorems `hasPart_found` and `hasPart_passed`: what stands at such a place is found, or
  it is passed over.
- Theorem `find?_of_isWhole`: of several names a whole identifier is found as such.
- Theorem `findAt?_of_only`: what is found if only one anchor has a name behind it.
-/

namespace SourceMask

namespace Lexicon

variable {lexicon : Lexicon} {before : Option Char}

/-! ## Steps of a sweep -/

/-- Whether none of the names is empty. -/
def IsNamed (lexicon : Lexicon) : Prop := ∀ name ∈ lexicon.names, name ≠ []

/-- A finding of a name has some text. -/
theorem source_ne_nil (hnamed : lexicon.IsNamed) {text : Text} {finding : Finding}
    (h : lexicon.findAt? before text = some finding) : finding.source ≠ [] := by
  intro hnil
  exact hnamed finding.name (name_mem_of_findAt? h) (List.append_eq_nil_iff.mp hnil).2

/-- Where nothing is found a character is passed over. -/
theorem sweepFrom_of_none {c : Char} {rest : Text} (afresh : Bool)
    (h : lexicon.findAt? before (c :: rest) = none) :
    lexicon.sweepFrom before afresh (c :: rest) =
      .passed c :: lexicon.sweepFrom (some c) true rest := by
  rw [sweepFrom, h]

/-- A finding is skipped as a whole. -/
theorem sweepFrom_of_some (hnamed : lexicon.IsNamed) {finding : Finding} {after : Text}
    (afresh : Bool) (h : lexicon.findAt? before (finding.source ++ after) = some finding) :
    lexicon.sweepFrom before afresh (finding.source ++ after) =
      .found finding :: lexicon.sweepFrom (lastOr before finding.source) false after := by
  have hne := source_ne_nil hnamed h
  cases htext : finding.source ++ after with
  | nil => exact absurd (List.append_eq_nil_iff.mp htext).1 hne
  | cons c rest =>
    rw [sweepFrom, ← htext, h]
    dsimp only
    rw [if_neg hne, List.drop_left]

/-! ## Places -/

/-- Whether every finding that starts in the first of two parts of a text also ends there. -/
def EndsWithin (lexicon : Lexicon) (before : Option Char) (front rest : Text) : Prop :=
  ∀ start part finding, front = start ++ part → part ≠ [] →
    lexicon.findAt? (lastOr before start) (part ++ rest) = some finding →
      finding.source <+: part

/-- What holds of the findings in a part holds of those in its end. -/
theorem EndsWithin.of_append {first second rest : Text}
    (h : lexicon.EndsWithin before (first ++ second) rest) :
    lexicon.EndsWithin (lastOr before first) second rest := by
  intro start part finding hsecond hne hfind
  refine h (first ++ start) part finding ?_ hne ?_
  · rw [hsecond, List.append_assoc]
  · rw [lastOr_append]
    exact hfind

/-- A sweep comes to a place that no finding goes beyond. -/
theorem exists_sweepFrom_append (hnamed : lexicon.IsNamed) {before : Option Char}
    {front rest : Text} (afresh : Bool) (h : lexicon.EndsWithin before front rest) :
    ∃ pieces afresh', lexicon.sweepFrom before afresh (front ++ rest) =
        pieces ++ lexicon.sweepFrom (lastOr before front) afresh' rest ∧
      pieces.flatMap Piece.source = front := by
  cases front with
  | nil => exact ⟨[], afresh, rfl, rfl⟩
  | cons c others =>
    cases hfind : lexicon.findAt? before (c :: others ++ rest) with
    | none =>
      have hsplit : lexicon.EndsWithin before ([c] ++ others) rest := h
      have hothers : lexicon.EndsWithin (some c) others rest := hsplit.of_append
      rcases exists_sweepFrom_append hnamed true hothers with ⟨pieces, afresh', hpieces, hsource⟩
      refine ⟨.passed c :: pieces, afresh', ?_, ?_⟩
      · have hlast : lastOr before (c :: others) = lastOr (some c) others :=
          lastOr_append before [c] others
        rw [List.cons_append] at hfind ⊢
        rw [sweepFrom_of_none afresh hfind, hpieces, hlast, List.cons_append]
      · rw [List.flatMap_cons, hsource]
        rfl
    | some finding =>
      rcases h [] (c :: others) finding rfl (List.cons_ne_nil c others) hfind with ⟨part, hpart⟩
      have hshorter : part.length < (c :: others).length := by
        have hpos := List.length_pos_iff.mpr (source_ne_nil hnamed hfind)
        rw [← hpart, List.length_append]
        omega
      rw [← hpart] at h hfind ⊢
      rw [List.append_assoc] at hfind
      rcases exists_sweepFrom_append hnamed false h.of_append with
        ⟨pieces, afresh', hpieces, hsource⟩
      refine ⟨.found finding :: pieces, afresh', ?_, ?_⟩
      · rw [List.append_assoc, sweepFrom_of_some hnamed afresh hfind, hpieces, lastOr_append]
        rfl
      · rw [List.flatMap_cons, hsource]
        rfl
termination_by front.length

/-- Whether pieces have a part in them that stands between two parts of the text. -/
def HasPart (pieces : List Piece) (front : Text) (part : List Piece) (back : Text) : Prop :=
  ∃ earlier later, pieces = earlier ++ (part ++ later) ∧
    earlier.flatMap Piece.source = front ∧ later.flatMap Piece.source = back

/-- At a place that no finding goes beyond, a sweep finds what is found there. -/
theorem hasPart_found (hnamed : lexicon.IsNamed) (finding : Finding) {front back : Text}
    (h : lexicon.EndsWithin none front (finding.anchor ++ (finding.name ++ back)))
    (hfind : lexicon.findAt? front.getLast? (finding.anchor ++ (finding.name ++ back)) =
      some finding) :
    HasPart (lexicon.sweep (front ++ (finding.anchor ++ (finding.name ++ back)))) front
      [.found finding] back := by
  have hparts : finding.anchor ++ (finding.name ++ back) = finding.source ++ back := by
    rw [Finding.source, List.append_assoc]
  rcases exists_sweepFrom_append hnamed true h with ⟨earlier, afresh, hearlier, hsource⟩
  rw [hparts] at hfind hearlier ⊢
  rw [lastOr, Option.or_none, sweepFrom_of_some hnamed afresh hfind] at hearlier
  exact ⟨earlier, _, hearlier, hsource, source_sweepFrom _ _ _ _⟩

/-- Characters at which nothing is found are passed over. -/
theorem exists_sweepFrom_passed {before : Option Char} {kept back : Text} (afresh : Bool)
    (hnone : ∀ start c rest, kept = start ++ c :: rest →
      lexicon.findAt? (lastOr before start) (c :: rest ++ back) = none) :
    ∃ afresh', lexicon.sweepFrom before afresh (kept ++ back) =
      kept.map .passed ++ lexicon.sweepFrom (lastOr before kept) afresh' back := by
  induction kept generalizing before afresh with
  | nil => exact ⟨afresh, rfl⟩
  | cons c rest ih =>
    have hrest : ∀ start d others, rest = start ++ d :: others →
        lexicon.findAt? (lastOr (some c) start) (d :: others ++ back) = none := by
      rintro start d others rfl
      rw [← hnone (c :: start) d others rfl]
      exact congrArg (lexicon.findAt? · _) (lastOr_append before [c] start).symm
    rcases ih true hrest with ⟨afresh', hpieces⟩
    have hlast : lastOr before (c :: rest) = lastOr (some c) rest := lastOr_append before [c] rest
    have hfirst : lexicon.findAt? before (c :: (rest ++ back)) = none := hnone [] c rest rfl
    refine ⟨afresh', ?_⟩
    rw [List.cons_append, sweepFrom_of_none afresh hfirst, hpieces, hlast]
    rfl

/-- A sweep passes over a part of the text if no finding that starts further left goes beyond the
place where the part starts, and nothing is found in it. -/
theorem hasPart_passed (hnamed : lexicon.IsNamed) {front kept back : Text}
    (h : lexicon.EndsWithin none front (kept ++ back))
    (hnone : ∀ start c rest, kept = start ++ c :: rest →
      lexicon.findAt? (front ++ start).getLast? (c :: rest ++ back) = none) :
    HasPart (lexicon.sweep (front ++ (kept ++ back))) front (kept.map .passed) back := by
  have hpassed : ∀ start c rest, kept = start ++ c :: rest →
      lexicon.findAt? (lastOr (lastOr none front) start) (c :: rest ++ back) = none := by
    intro start c rest hkept
    rw [← lastOr_append, lastOr, Option.or_none]
    exact hnone start c rest hkept
  rcases exists_sweepFrom_append hnamed true h with ⟨earlier, afresh, hearlier, hsource⟩
  rcases exists_sweepFrom_passed afresh hpassed with ⟨afresh', hkept⟩
  rw [hkept] at hearlier
  exact ⟨earlier, _, hearlier, hsource, source_sweepFrom _ _ _ _⟩

/-- A finding that starts in a part of the text and goes beyond it is cut there, either in its
anchor or at or behind the start of its name. -/
theorem cut_of_not_within {part rest after : Text} {finding : Finding}
    (htext : part ++ rest = finding.source ++ after) (h : ¬finding.source <+: part) :
    (∃ second, second ≠ [] ∧ finding.anchor = part ++ second ∧
        rest = second ++ (finding.name ++ after)) ∨
      ∃ first second, second ≠ [] ∧ part = finding.anchor ++ first ∧
        finding.name = first ++ second ∧ rest = second ++ after := by
  rw [Finding.source, List.append_assoc] at htext
  rcases List.append_eq_append_iff.mp htext with ⟨second, hanchor, hrest⟩ | ⟨first, hpart, hname⟩
  · by_cases hsecond : second = []
    · subst hsecond
      rw [List.append_nil] at hanchor
      rw [List.nil_append] at hrest
      refine .inr ⟨[], finding.name, ?_, by rw [hanchor, List.append_nil], rfl, hrest⟩
      intro hnil
      rw [Finding.source, hanchor, hnil, List.append_nil] at h
      exact h (List.prefix_refl part)
    · exact .inl ⟨second, hsecond, hanchor, hrest⟩
  · rcases List.append_eq_append_iff.mp hname with ⟨third, hfirst, hafter⟩ |
      ⟨second, hname, hrest⟩
    · exact absurd ⟨third, by rw [Finding.source, hpart, hfirst, List.append_assoc]⟩ h
    · refine .inr ⟨first, second, ?_, hpart, hname, hrest⟩
      rintro rfl
      rw [List.append_nil] at hname
      rw [Finding.source, hname, ← hpart] at h
      exact h (List.prefix_refl part)

/-- No finding goes beyond a place if none is cut there, neither in its anchor nor at or behind the
start of its name. -/
theorem endsWithin_of_not_cut {front rest : Text}
    (hanchor : ∀ start first second name after, front = start ++ first → first ≠ [] →
      second ≠ [] → rest = second ++ (name ++ after) →
      ¬lexicon.role.IsAnchor (lastOr before start) (first ++ second) (name ++ after).head?)
    (hname : ∀ start anchor first second after, front = start ++ (anchor ++ first) →
      anchor ++ first ≠ [] → second ≠ [] → rest = second ++ after →
      first ++ second ∈ lexicon.names →
      lexicon.role.IsAnchor (lastOr before start) anchor (first ++ second ++ after).head? →
      endsWell (first ++ second) after = false) :
    lexicon.EndsWithin before front rest := by
  intro start part finding hfront hne hfind
  refine Classical.byContradiction fun hnot => ?_
  rcases append_of_findAt? hfind with ⟨after, hafter⟩
  have hmem := name_mem_of_findAt? hfind
  rw [hafter] at hfind
  rcases isAnchor_of_findAt? hfind with ⟨hisAnchor, -, hends⟩
  rcases cut_of_not_within hafter hnot with ⟨second, hsecond, hpart, hrest⟩ |
    ⟨first, second, hsecond, hpart, hcut, hrest⟩
  · rw [hpart] at hisAnchor
    exact hanchor start part second finding.name after hfront hne hsecond hrest hisAnchor
  · rw [hcut] at hmem hisAnchor hends
    rw [hpart] at hfront hne
    rw [hname start finding.anchor first second after hfront hne hsecond hrest hmem hisAnchor]
      at hends
    cases hends

/-! ## The longest name -/

/-- A lexicon of ASCII identifiers in the order in which they are tried. -/
structure IsAscii (lexicon : Lexicon) : Prop where
  identifiers : ∀ name ∈ lexicon.names, Text.isAsciiIdentifier name = true
  sorted : lexicon.names.Pairwise fun first second => triedBefore first second = true

theorem IsAscii.isNamed (h : lexicon.IsAscii) : lexicon.IsNamed :=
  fun name hname => Text.isAsciiIdentifier_ne_nil (h.identifiers name hname)

/-- Longer names are tried first. -/
theorem byteLength_le_of_triedBefore {first second : Text} (h : triedBefore first second = true) :
    Text.byteLength second ≤ Text.byteLength first := by
  simp only [triedBefore, Bool.or_eq_true, Bool.and_eq_true, decide_eq_true_eq] at h
  omega

theorem triedBefore_trans (first second third : Text) (h : triedBefore first second = true)
    (h' : triedBefore second third = true) : triedBefore first third = true := by
  simp only [triedBefore, Bool.or_eq_true, Bool.and_eq_true, decide_eq_true_eq] at h h' ⊢
  rcases h with h | ⟨h, hle⟩ <;> rcases h' with h' | ⟨h', hle'⟩
  · exact .inl (by omega)
  · exact .inl (by omega)
  · exact .inl (by omega)
  · exact .inr ⟨by omega, Text.le_trans hle hle'⟩

/-- Different names are tried in one order only. -/
theorem triedBefore_antisymm (first second : Text) (h : triedBefore first second = true)
    (h' : triedBefore second first = true) : first = second := by
  simp only [triedBefore, Bool.or_eq_true, Bool.and_eq_true, decide_eq_true_eq] at h h'
  rcases h with h | ⟨hlength, hle⟩ <;> rcases h' with h' | ⟨hlength', hle'⟩
  · omega
  · omega
  · omega
  · exact Text.le_antisymm hle hle'

theorem triedBefore_total (first second : Text) :
    (triedBefore first second || triedBefore second first) = true := by
  simp only [triedBefore, Bool.or_eq_true, Bool.and_eq_true, decide_eq_true_eq]
  rcases Nat.lt_trichotomy (Text.byteLength first) (Text.byteLength second) with hlt | heq | hgt
  · exact .inr (.inl hlt)
  · exact (Bool.or_eq_true_iff.mp (Text.le_total first second)).imp (fun h => .inr ⟨heq.symm, h⟩)
      fun h => .inr ⟨heq, h⟩
  · exact .inl (.inl hgt)

/-- The names of a lexicon stand in the order in which they are tried. -/
theorem pairwise_names_ofNames (role : Role) (names : List Text) :
    (ofNames role names).names.Pairwise fun first second => triedBefore first second = true := by
  rw [ofNames]
  split
  · exact List.pairwise_singleton _ _
  · exact List.pairwise_mergeSort triedBefore_trans triedBefore_total names

/-- A lexicon of ASCII identifiers. -/
theorem isAscii_ofNames {role : Role} {names : List Text} (hne : names ≠ [])
    (h : ∀ name ∈ names, Text.isAsciiIdentifier name = true) : (ofNames role names).IsAscii where
  identifiers := fun name hname => h name ((mem_names_ofNames hne).mp hname)
  sorted := pairwise_names_ofNames role names

/-- An identifier that does not go on ends well. -/
theorem endsWell_of_any_eq_false {name back : Text} (hname : Text.isAsciiIdentifier name = true)
    (hback : back.head?.any Text.isIdentifierChar = false) : endsWell name back = true := by
  rcases Text.exists_cons_of_isAsciiIdentifier hname with ⟨c, rest, rfl⟩
  have hlast := List.getLast?_eq_some_getLast (List.cons_ne_nil c rest)
  have hmem := List.getLast_mem (List.cons_ne_nil c rest)
  unfold endsWell
  split
  · rename_i hchar
    rw [hlast, Option.any_some] at hchar
    rw [hlast, Text.isWordBoundary, Text.any_isWordChar_eq_false hback, Option.any_some,
      Text.isWordChar_of_isNameChar hname hmem hchar]
    rfl
  · rfl

/-- A whole identifier starts well and ends well. -/
theorem standsAt_of_isWhole {role : Role} {name back : Text}
    (hname : Text.isAsciiIdentifier name = true) (hwhole : IsWhole before name back.head?) :
    standsAt role before (name ++ back) name = true := by
  rw [standsAt, (Text.dropStart?_eq_some_iff _ _ _).mpr rfl, Bool.and_eq_true]
  refine ⟨?_, endsWell_of_any_eq_false hname hwhole.2.2⟩
  rcases Text.exists_cons_of_isAsciiIdentifier hname with ⟨c, rest, rfl⟩
  unfold startsWell
  split
  · rename_i hstarts
    rw [Bool.and_eq_true] at hstarts
    rw [List.cons_append, List.head?_cons, Text.isWordBoundary,
      Text.any_isWordChar_eq_false hwhole.2.1, Option.any_some,
      Text.isWordChar_of_isNameChar hname List.mem_cons_self hstarts.2]
    rfl
  · rfl

/-- Of the names that start where a whole identifier stands, the identifier is found.  No longer
name stands there, and shorter ones are tried later. -/
theorem find?_of_isWhole (h : lexicon.IsAscii) {name back : Text} (hmem : name ∈ lexicon.names)
    (hwhole : IsWhole before name back.head?) :
    lexicon.names.find? (standsAt lexicon.role before (name ++ back)) = some name := by
  have hstands : standsAt lexicon.role before (name ++ back) name = true :=
    standsAt_of_isWhole (h.identifiers name hmem) hwhole
  cases hfind : lexicon.names.find? (standsAt lexicon.role before (name ++ back)) with
  | none => exact absurd hstands (List.find?_eq_none.mp hfind name hmem)
  | some other =>
    rcases List.find?_eq_some_iff_append.mp hfind with ⟨hother, earlier, later, hnames, hearlier⟩
    rcases append_of_standsAt hother with ⟨after, hafter⟩
    have hlonger : ∃ rest, name = other ++ rest := by
      rcases List.append_eq_append_iff.mp hafter with ⟨rest, hrest, hback⟩ | ⟨rest, hrest, -⟩
      · cases rest with
        | nil => exact ⟨[], by rw [hrest, List.append_nil, List.append_nil]⟩
        | cons c rest =>
          have hc : c ∈ other := by
            rw [hrest]
            exact List.mem_append_right name List.mem_cons_self
          have hidentifier := Text.isIdentifierChar_of_mem
            (h.identifiers other (List.mem_of_find?_eq_some hfind)) hc
          have hnone := hwhole.2.2
          rw [hback, List.cons_append, List.head?_cons, Option.any_some, hidentifier] at hnone
          cases hnone
      · exact ⟨rest, hrest⟩
    rcases hlonger with ⟨rest, hrest⟩
    have hle : name = other ∨ Text.byteLength name ≤ Text.byteLength other := by
      have hsorted := h.sorted
      rw [hnames] at hmem hsorted
      rcases List.mem_append.mp hmem with hmem | hmem
      · have hfalse := hearlier name hmem
        rw [hstands] at hfalse
        cases hfalse
      · rcases List.mem_cons.mp hmem with heq | hmem
        · exact .inl heq
        · have hpairs := (List.pairwise_append.mp hsorted).2.1
          exact .inr (byteLength_le_of_triedBefore ((List.pairwise_cons.mp hpairs).1 name hmem))
    rcases hle with heq | hle
    · rw [heq]
    · rw [hrest, Text.byteLength_append] at hle
      have hnil : rest = [] := (Text.byteLength_eq_zero_iff rest).mp (by omega)
      rw [hrest, hnil, List.append_nil]

/-- If only one anchor has a name behind it, then this anchor and the first of the names that stand
behind it are found, whatever the order of the anchors is. -/
theorem findAt?_of_only (finding : Finding) {back : Text}
    (hanchor : lexicon.role.IsAnchor before finding.anchor (finding.name ++ back).head?)
    (hname : lexicon.names.find? (standsAt lexicon.role (lastOr before finding.anchor)
      (finding.name ++ back)) = some finding.name)
    (honly : ∀ (other : Finding) (after : Text),
      finding.anchor ++ (finding.name ++ back) = other.anchor ++ (other.name ++ after) →
      other.name ∈ lexicon.names →
      lexicon.role.IsAnchor before other.anchor (other.name ++ after).head? →
      endsWell other.name after = true → other.anchor = finding.anchor) :
    lexicon.findAt? before (finding.anchor ++ (finding.name ++ back)) = some finding := by
  have hbehind : ∀ length,
      (finding.anchor ++ (finding.name ++ back)).take length = finding.anchor →
      lexicon.findBehind? before (finding.anchor ++ (finding.name ++ back)) length =
        some finding := by
    intro length htake
    have hsplit := List.take_append_drop length (finding.anchor ++ (finding.name ++ back))
    rw [htake] at hsplit
    simp only [findBehind?, htake, List.append_cancel_left hsplit, hname, Option.map_some]
  have hsome : (lexicon.findAt? before
      (finding.anchor ++ (finding.name ++ back))).isSome = true := by
    rw [findAt?, List.isSome_findSome?]
    refine List.any_eq_true.mpr ⟨_, Role.length_mem_anchors hanchor, ?_⟩
    rw [hbehind _ List.take_left]
    rfl
  rcases Option.isSome_iff_exists.mp hsome with ⟨other, hother⟩
  rcases append_of_findAt? hother with ⟨after, hafter⟩
  rcases List.exists_of_findSome?_eq_some hother with ⟨length, hmem, hlength⟩
  rcases isAnchor_of_findBehind? hmem hlength hafter with ⟨hotherAnchor, -, hends⟩
  rw [Finding.source, List.append_assoc] at hafter
  have hsame := honly other after hafter (name_mem_of_findAt? hother) hotherAnchor hends
  have htake : (finding.anchor ++ (finding.name ++ back)).take length = other.anchor := by
    rw [findBehind?, Option.map_eq_some_iff] at hlength
    rcases hlength with ⟨name, -, rfl⟩
    rfl
  rw [hbehind length (htake.trans hsame)] at hlength
  rw [hother, hlength]

/-! ## Words in the text -/

/-- A run at the start of a text lies in front of the first character without the property. -/
theorem prefix_of_run {p : Char → Bool} {run text rest : Text} (hrun : run.all p = true)
    (h : run <+: text ++ rest) (hrest : rest.head?.any p = false) : run <+: text := by
  rcases List.prefix_or_prefix_of_prefix h (List.prefix_append text rest) with h' | ⟨others, rfl⟩
  · exact h'
  · cases others with
    | nil => exact ⟨[], by rw [List.append_nil, List.append_nil]⟩
    | cons c others =>
      rw [List.prefix_append_right_inj] at h
      rcases h with ⟨after, rfl⟩
      rw [List.all_append, List.all_cons, Bool.and_eq_true, Bool.and_eq_true] at hrun
      rw [List.cons_append, List.head?_cons, Option.any_some, hrun.2.1] at hrest
      cases hrest

/-- A name that is cut out of a longer word does not end well. -/
theorem endsWell_of_cut {first second third : Text} (hsecond : second ≠ []) (hthird : third ≠ [])
    (hword : (second ++ third).all Text.isAsciiName = true) (rest : Text) :
    endsWell (first ++ second) (third ++ rest) = false := by
  rw [List.all_append, Bool.and_eq_true, List.all_eq_true, List.all_eq_true] at hword
  have hlast := hword.1 _ (List.getLast_mem hsecond)
  rcases List.exists_cons_of_ne_nil hthird with ⟨c, others, rfl⟩
  have hc := hword.2 c List.mem_cons_self
  rw [endsWell, List.getLast?_append, List.getLast?_eq_some_getLast hsecond, Option.some_or,
    Option.any_some, if_pos (Text.isNameChar_of_isAsciiName hlast), Text.isWordBoundary,
    List.cons_append, List.head?_cons, Option.any_some, Option.any_some,
    Text.isWordChar_of_isAsciiName hlast, Text.isWordChar_of_isAsciiName hc]
  rfl

/-- A name that goes on where a word starts, and does not have the whole word in it, does not end
well. -/
theorem endsWell_of_not_infix {word text first second after : Text}
    (hword : word.all Text.isAsciiName = true) (htext : word ++ text = second ++ after)
    (hsecond : second ≠ []) (hfree : ¬word <:+: first ++ second) :
    endsWell (first ++ second) after = false := by
  rcases List.append_eq_append_iff.mp htext with ⟨others, rfl, -⟩ | ⟨third, rfl, rfl⟩
  · exact absurd ⟨first, others, by rw [List.append_assoc]⟩ hfree
  · by_cases hthird : third = []
    · subst hthird
      exact absurd ⟨first, [], by rw [List.append_nil, List.append_nil]⟩ hfree
    · exact endsWell_of_cut hsecond hthird hword text

/-- The first character of a text is in every part at the start. -/
theorem mem_of_cons_eq_append {c : Char} {text first second : Text}
    (h : c :: text = first ++ second) (hne : first ≠ []) : c ∈ first := by
  rcases List.exists_cons_of_ne_nil hne with ⟨d, others, rfl⟩
  have hsame : c = d := (List.cons.inj h).1
  rw [hsame]
  exact List.mem_cons_self

/-- Nothing is found in the middle of a word. -/
theorem findAt?_eq_none_of_word (hnamed : lexicon.IsNamed) {c : Char} {rest : Text}
    (hbefore : before.any Text.isWordChar = true) (hc : Text.isAsciiName c = true) :
    lexicon.findAt? before (c :: rest) = none := by
  have hword : (some c).any Text.isWordChar = true := Text.isWordChar_of_isAsciiName hc
  cases hfind : lexicon.findAt? before (c :: rest) with
  | none => rfl
  | some finding =>
    exfalso
    rcases finding with ⟨anchor, name⟩
    rcases append_of_findAt? hfind with ⟨after, hafter⟩
    have hne := hnamed name (name_mem_of_findAt? hfind)
    rw [hafter] at hfind
    rcases isAnchor_of_findAt? hfind with ⟨hanchor, hstarts, -⟩
    cases anchor with
    | nil =>
      rcases Role.role_of_isAnchor_nil hanchor with hrole | ⟨-, hnone⟩
      · rcases List.exists_cons_of_ne_nil hne with ⟨d, others, rfl⟩
        cases hafter
        have hstart : Text.isWordBoundary before (some c) = true := by
          simpa [startsWell, hrole, Text.isNameChar_of_isAsciiName hc, lastOr] using hstarts
        rw [Role.isWordBoundary_eq_false hbefore hword] at hstart
        cases hstart
      · rw [hnone] at hbefore
        cases hbefore
    | cons d others =>
      cases hafter
      have hhead := Role.head?_of_isAnchor hanchor hbefore
      rw [List.head?_cons, hword] at hhead
      cases hhead

end Lexicon

end SourceMask
