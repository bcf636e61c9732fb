import SourceMask.Proofs.Names.Register
import SourceMask.Proofs.Names.Uses

/-!
# Names behind keywords

The name of a class, a function or a method is masked exactly where an anchor of its role ends in
front of it.  An anchor can be read in several ways, because a modifier may also be a name and
blanks may belong to more than one part.  So it has to be seen that no reading takes a name for more
of the anchor, and none takes a part of the anchor for a name.  This is so for names that are no
modifiers and have no keyword in them.  A name that only starts like a modifier, or a modifier that
only starts like a name, makes no difference.

Main results:

- Theorem `endsWell_of_anchor_cut`: where an anchor goes on, no name ends well.
- Theorem `anchor_eq_of_isAnchor`: an anchor in front of a whole name is read in one way only.
- Theorems `hasPart_behind` and `hasPart_kept`: a whole name behind an anchor is found, and any
  other one is passed over.
- Theorem `hasPart_iff_isAnchor`: masking exchanges names exactly behind anchors.
-/

namespace SourceMask

/-! ## Names and anchors -/

/-- Whether a name is told from anchors of a role: an ASCII identifier that is no modifier and has
no keyword of the role in it. -/
def Role.IsPlainName (role : Role) (name : Text) : Prop :=
  Text.isAsciiIdentifier name = true ∧ name ∉ modifiers ∧
    ∀ keyword ∈ role.keywords, ¬keyword <:+: name

instance (role : Role) (name : Text) : Decidable (role.IsPlainName name) :=
  inferInstanceAs (Decidable (_ ∧ _ ∧ _))

namespace Lexicon

variable {lexicon : Lexicon} {role : Role} {before after : Option Char} {name back : Text}

/-- Where an anchor goes on with a name, a word starts. -/
theorem head?_of_anchor_cut (hrole : role.isNumbered = false) {first second rest : Text}
    (hanchor : role.IsAnchor before (first ++ second) after) (hsecond : second ≠ [])
    (hname : Text.isAsciiIdentifier name = true) (htext : name ++ back = second ++ rest) :
    (name ++ back).head? = second.head? ∧ second.head?.any Text.isWordChar = true := by
  rcases Text.exists_cons_of_isAsciiIdentifier hname with ⟨c, others, rfl⟩
  rcases List.exists_cons_of_ne_nil hsecond with ⟨d, more, rfl⟩
  have hsame : c = d := (List.cons.inj htext).1
  subst hsame
  have hlower := Role.isLower_of_mem_isAnchor hrole hanchor
    (List.mem_append_right first List.mem_cons_self)
    (Text.isIdentifierChar_of_mem hname List.mem_cons_self)
  exact ⟨rfl, Text.isWordChar_of_isAsciiName (Role.isAsciiName_of_isLower hlower)⟩

/-- Where an anchor goes on, no name ends well: it is a part of a modifier there. -/
theorem endsWell_of_anchor_cut (hrole : role.isNumbered = false) {first second rest : Text}
    (hanchor : role.IsAnchor before (first ++ second) after) (hfirst : first ≠ [])
    (hlast : first.getLast?.any Text.isWordChar = false) (hsecond : second ≠ [])
    (hname : role.IsPlainName name) (htext : name ++ back = second ++ rest) :
    endsWell name back = false := by
  rcases hname with ⟨hidentifier, hmodifier, -⟩
  have hhead := (head?_of_anchor_cut hrole hanchor hsecond hidentifier htext).2
  rcases Role.exists_modifier_of_isAnchor hrole hanchor rfl hfirst hlast hhead with
    ⟨modifier, hmem, c, others, rfl, hblank⟩
  rw [List.append_assoc] at htext
  rcases prefix_of_run (Text.all_isIdentifierChar hidentifier) ⟨back, htext⟩
    (Role.isIdentifierChar_of_isBlank hblank) with ⟨third, rfl⟩
  have hthird : third ≠ [] := by
    rintro rfl
    rw [List.append_nil] at hmem
    exact hmodifier hmem
  have hne := Text.isAsciiIdentifier_ne_nil hidentifier
  have hcut : endsWell ([] ++ name) (third ++ (c :: others ++ rest)) = false :=
    endsWell_of_cut hne hthird (Role.all_isAsciiName_of_isLower (Role.all_isLower_modifier hmem)) _
  rw [List.append_assoc] at htext
  rw [List.append_cancel_left htext]
  exact hcut

/-- No anchor goes on where a whole name stands. -/
theorem not_isAnchor_of_whole (hrole : role.isNumbered = false) {first second rest : Text}
    (hfirst : first ≠ []) (hlast : first.getLast?.any Text.isIdentifierChar = false)
    (hsecond : second ≠ []) (hname : role.IsPlainName name)
    (hback : back.head?.any Text.isIdentifierChar = false) (htext : name ++ back = second ++ rest) :
    ¬role.IsAnchor before (first ++ second) after := by
  intro hanchor
  have hends := endsWell_of_anchor_cut hrole hanchor hfirst (Text.any_isWordChar_eq_false hlast)
    hsecond hname htext
  rw [endsWell_of_any_eq_false hname.1 hback] at hends
  cases hends

/-! ## Whole names in a sweep -/

/-- A lexicon of names that are told from anchors. -/
structure IsPlain (lexicon : Lexicon) : Prop extends lexicon.IsAscii where
  behindKeyword : lexicon.role.isNumbered = false
  plain : ∀ name ∈ lexicon.names, lexicon.role.IsPlainName name

/-- No finding goes beyond the start of an anchor. -/
theorem endsWithin_of_isAnchor (h : lexicon.IsPlain) {start anchor rest : Text}
    (hanchor : lexicon.role.IsAnchor start.getLast? anchor after) :
    lexicon.EndsWithin none start (anchor ++ rest) := by
  rcases Role.exists_keyword_of_isAnchor h.behindKeyword hanchor with
    ⟨keyword, hkeyword, others, rfl, hnone⟩
  rcases Role.all_isLower_keyword hkeyword with ⟨hne, hlower⟩
  have hword := Role.all_isAsciiName_of_isLower hlower
  rw [List.append_assoc]
  refine endsWithin_of_not_cut ?_ ?_
  · -- A keyword in an anchor would have to be a modifier.
    intro before first second name after hstart hfirst hsecond hrest hother
    have hlast : first.getLast?.any Text.isWordChar = false := by
      rw [hstart] at hnone
      exact Role.any_getLast?_eq_false hnone
    have hhead : second.head?.any Text.isWordChar = true := by
      rcases List.exists_cons_of_ne_nil hne with ⟨c, letters, rfl⟩
      rcases List.exists_cons_of_ne_nil hsecond with ⟨d, more, rfl⟩
      have hsame : c = d := (List.cons.inj hrest).1
      rw [List.head?_cons, Option.any_some, ← hsame]
      exact Text.isWordChar_of_isAsciiName (List.all_eq_true.mp hword c List.mem_cons_self)
    rcases Role.exists_modifier_of_isAnchor h.behindKeyword hother rfl hfirst hlast hhead with
      ⟨modifier, hmodifier, c, more, rfl, -⟩
    rw [List.append_assoc] at hrest
    have hprefix : modifier <+: keyword ++ (others ++ rest) := ⟨_, hrest.symm⟩
    rcases List.prefix_or_prefix_of_prefix hprefix (List.prefix_append keyword _) with hle | hle
    · exact (Role.not_prefix_modifier hkeyword hmodifier).2 hle
    · exact (Role.not_prefix_modifier hkeyword hmodifier).1 hle
  · intro before other first second after _ _ hsecond hrest hmem _
    exact endsWell_of_not_infix hword hrest hsecond ((h.plain _ hmem).2.2 keyword hkeyword)

/-- In front of a whole name no other anchor has a name behind it. -/
theorem anchor_eq_of_isAnchor (h : lexicon.IsPlain) {anchor rest : Text} {other : Finding}
    (hmem : name ∈ lexicon.names) (hlast : anchor.getLast?.any Text.isIdentifierChar = false)
    (hback : back.head?.any Text.isIdentifierChar = false)
    (hanchor : lexicon.role.IsAnchor before anchor (name ++ back).head?)
    (htext : anchor ++ (name ++ back) = other.anchor ++ (other.name ++ rest))
    (hother : other.name ∈ lexicon.names)
    (hotherAnchor : lexicon.role.IsAnchor before other.anchor (other.name ++ rest).head?)
    (hends : endsWell other.name rest = true) : other.anchor = anchor := by
  rcases List.append_eq_append_iff.mp htext with ⟨second, hlonger, hrest⟩ | ⟨second, rfl, hrest⟩
  · -- The other anchor would go on where the name stands.
    by_cases hsecond : second = []
    · rw [hlonger, hsecond, List.append_nil]
    · have hfirst := Role.isAnchor_ne_nil h.behindKeyword hanchor
      rw [hlonger] at hotherAnchor
      exact absurd hotherAnchor
        (not_isAnchor_of_whole h.behindKeyword hfirst hlast hsecond (h.plain name hmem) hback hrest)
  · -- The other name would stand where the anchor goes on.
    by_cases hsecond : second = []
    · rw [hsecond, List.append_nil]
    · have hotherPlain := h.plain other.name hother
      have hfirst := Role.isAnchor_ne_nil h.behindKeyword hotherAnchor
      rcases head?_of_anchor_cut h.behindKeyword hanchor hsecond hotherPlain.1 hrest with
        ⟨hsame, hhead⟩
      rw [← hsame] at hhead
      have hotherLast := Role.getLast?_of_isAnchor h.behindKeyword hotherAnchor hhead
      rw [endsWell_of_anchor_cut h.behindKeyword hanchor hfirst hotherLast hsecond hotherPlain
        hrest] at hends
      cases hends

/-- A sweep finds every whole identifier that is one of the names and stands behind an anchor. -/
theorem hasPart_behind (h : lexicon.IsPlain) (hmem : name ∈ lexicon.names)
    {start anchor : Text} (hwhole : IsWhole (start ++ anchor).getLast? name back.head?)
    (hanchor : lexicon.role.IsAnchor start.getLast? anchor (name ++ back).head?) :
    HasPart (lexicon.sweep (start ++ (anchor ++ (name ++ back)))) start [.found ⟨anchor, name⟩]
      back := by
  have hlast := Role.any_getLast?_eq_false hwhole.2.1
  have hwithin : lexicon.EndsWithin none start (anchor ++ (name ++ back)) :=
    endsWithin_of_isAnchor h hanchor
  have hfind : lexicon.findAt? start.getLast? (anchor ++ (name ++ back)) = some ⟨anchor, name⟩ := by
    refine findAt?_of_only ⟨anchor, name⟩ hanchor (find?_of_isWhole h.toIsAscii hmem ?_) ?_
    · rw [lastOr, ← List.getLast?_append]
      exact hwhole
    · intro other rest
      exact anchor_eq_of_isAnchor h hmem hlast hwhole.2.2 hanchor
  exact hasPart_found h.isNamed ⟨anchor, name⟩ hwithin hfind

/-- Nothing is found at the start of a name or in it, as there is no keyword in it. -/
theorem findAt?_eq_none_of_plain (h : lexicon.IsPlain) (hmem : name ∈ lexicon.names)
    (hback : back.head?.any Text.isIdentifierChar = false) {start rest : Text}
    (hname : name = start ++ rest) : lexicon.findAt? before (rest ++ back) = none := by
  cases hfind : lexicon.findAt? before (rest ++ back) with
  | none => rfl
  | some finding =>
    exfalso
    rcases append_of_findAt? hfind with ⟨after, hafter⟩
    rw [hafter] at hfind
    rcases Role.exists_keyword_of_isAnchor h.behindKeyword (isAnchor_of_findAt? hfind).1 with
      ⟨keyword, hkeyword, others, hanchor, -⟩
    have hrun : keyword.all Text.isIdentifierChar = true := by
      have hword := Role.all_isWordChar_of_isLower (Role.all_isLower_keyword hkeyword).2
      rw [List.all_eq_true] at hword ⊢
      intro c hc
      rw [Text.isIdentifierChar, hword c hc, Bool.true_or]
    have hprefix : keyword <+: rest ++ back := by
      rw [hafter, Finding.source, hanchor, List.append_assoc, List.append_assoc]
      exact List.prefix_append keyword _
    rcases prefix_of_run hrun hprefix hback with ⟨more, rfl⟩
    refine (h.plain name hmem).2.2 keyword hkeyword ⟨start, more, ?_⟩
    rw [hname, List.append_assoc]

/-- A sweep passes over a whole identifier that is one of the names, if no anchor ends in front of
it. -/
theorem hasPart_kept (h : lexicon.IsPlain) {front : Text} (hmem : name ∈ lexicon.names)
    (hwhole : IsWhole front.getLast? name back.head?)
    (hnone : ∀ start anchor, front = start ++ anchor →
      ¬lexicon.role.IsAnchor start.getLast? anchor (name ++ back).head?) :
    HasPart (lexicon.sweep (front ++ (name ++ back))) front (name.map .passed) back := by
  have hlast := hwhole.2.1
  refine hasPart_passed h.isNamed (endsWithin_of_not_cut ?_ ?_) ?_
  · intro start first second other after hfront hfirst hsecond hrest
    rw [hfront] at hlast
    exact not_isAnchor_of_whole h.behindKeyword hfirst (Role.any_getLast?_eq_false hlast) hsecond
      (h.plain name hmem) hwhole.2.2 hrest
  · -- A name that is cut nowhere in front of the place starts there, behind its anchor.
    intro start anchor first second after hfront _ _ hrest hcut hanchor
    rw [hfront, ← List.append_assoc] at hlast
    have hnil := eq_nil_of_cut (h.identifiers _ hcut) hlast
    rw [hnil, List.append_nil] at hfront
    rw [hnil, List.nil_append, ← hrest, lastOr, Option.or_none] at hanchor
    exact absurd hanchor (hnone start anchor hfront)
  · intro start c rest hname
    exact findAt?_eq_none_of_plain h hmem hwhole.2.2 hname

end Lexicon

/-! ## Declared names in a text -/

namespace NameTable

open Lexicon

variable {role : Role}

/-- The names of a role that is masked behind keywords make a lexicon of names that are told from
its anchors, if all of them are. -/
theorem isPlain_lexicon {table : NameTable} (hrole : role.isNumbered = false)
    (hne : table.ofRole role ≠ [])
    (hnames : ∀ entry ∈ table.ofRole role, role.IsPlainName entry.name) :
    (table.lexicon role).IsPlain where
  toIsAscii := isAscii_lexicon hne fun entry hentry => (hnames entry hentry).1
  behindKeyword := hrole
  plain := by
    intro name hname
    rcases exists_entry_of_mem_lexicon hne hname with ⟨entry, hentry, hentryRole, rfl⟩
    exact hnames entry (List.mem_filter.mpr ⟨hentry, decide_eq_true hentryRole⟩)

/-- If all names have one role that is masked behind keywords, and are told from its anchors, then
masking is a single sweep that exchanges a whole use of a name for the placeholder of the role
exactly if an anchor of the role ends in front of it.  The anchor stays, and so does every other
whole use. -/
theorem hasPart_iff_isAnchor {calls : List (Role × Text)} (hrole : role.isNumbered = false)
    (hnames : ∀ entry ∈ (empty.insertAll calls).entries,
      entry.role = role ∧ role.IsPlainName entry.name) (text : Text) :
    (empty.insertAll calls).mask text =
        ((empty.insertAll calls).pieces role text).flatMap ((empty.insertAll calls).render role) ∧
      ((empty.insertAll calls).pieces role text).flatMap Piece.source = text ∧
      ∀ entry ∈ (empty.insertAll calls).entries, ∀ front back,
        text = front ++ (entry.name ++ back) →
        IsWhole front.getLast? entry.name back.head? →
        (∀ start anchor, front = start ++ anchor →
          (HasPart ((empty.insertAll calls).pieces role text) start
              [.found ⟨anchor, entry.name⟩] back ↔
            role.IsAnchor start.getLast? anchor (entry.name ++ back).head?)) ∧
        ((∀ start anchor, front = start ++ anchor →
            ¬role.IsAnchor start.getLast? anchor (entry.name ++ back).head?) →
          HasPart ((empty.insertAll calls).pieces role text) front (entry.name.map .passed) back) ∧
        ∀ anchor, (empty.insertAll calls).render role (.found ⟨anchor, entry.name⟩) =
          anchor ++ (role.stem ++ ['_']) := by
  refine ⟨mask_of_role (fun entry hentry => (hnames entry hentry).1) text,
    source_pieces _ role text, ?_⟩
  rintro entry hentry front back rfl hwhole
  rcases hnames entry hentry with ⟨rfl, -⟩
  have hmem : entry ∈ (empty.insertAll calls).ofRole entry.role :=
    List.mem_filter.mpr ⟨hentry, decide_eq_true rfl⟩
  have hne := List.ne_nil_of_mem hmem
  have hplain := isPlain_lexicon hrole hne fun other hother =>
    (hnames other (List.mem_filter.mp hother).1).2
  rw [pieces, if_neg hne]
  refine ⟨?_, hasPart_kept hplain (name_mem_lexicon hmem) hwhole, ?_⟩
  · rintro start anchor rfl
    constructor
    · rintro ⟨earlier, later, hsweep, rfl, rfl⟩
      have hanchor := (isAnchor_of_findAt? (findAt?_of_sweepFrom hsweep)).1
      rw [lastOr, Option.or_none] at hanchor
      exact hanchor
    · intro hanchor
      rw [List.append_assoc]
      exact hasPart_behind hplain (name_mem_lexicon hmem) hwhole hanchor
  · intro anchor
    have hnumbered := isNumbered_insertAll calls
    have hget := get?_of_mem hnumbered.nodup hentry
    rcases exists_index_of_get? hnumbered hget with ⟨index, -, hplaceholder⟩
    rw [render, hget, Option.getD_some, hplaceholder, Role.placeholder_of_not_isNumbered hrole]

/-- A name that starts like a modifier is exchanged behind an anchor with a modifier and an
asterisk, and stays where it is only used. -/
theorem hasPart_iff_isAnchor_getAll :
    (∀ entry ∈ (empty.insertAll [(.methodName, "getAll".toList)]).entries,
        entry.role = .methodName ∧ Role.methodName.IsPlainName entry.name) ∧
      (empty.insertAll [(.methodName, "getAll".toList)]).mask
          "public async *getAll(getAll)".toList =
        "public async *_method_(getAll)".toList ∧
      HasPart ((empty.insertAll [(.methodName, "getAll".toList)]).pieces .methodName
          "public async *getAll(getAll)".toList) []
        [.found ⟨"public async *".toList, "getAll".toList⟩] "(getAll)".toList ∧
      HasPart ((empty.insertAll [(.methodName, "getAll".toList)]).pieces .methodName
          "public async *getAll(getAll)".toList) "public async *getAll(".toList
        ("getAll".toList.map .passed) ")".toList := by
  have hnames : ∀ entry ∈ (empty.insertAll [(.methodName, "getAll".toList)]).entries,
      entry.role = .methodName ∧ Role.methodName.IsPlainName entry.name := by decide +kernel
  have hentry : ⟨.methodName, "getAll".toList, "_method_".toList⟩ ∈
      (empty.insertAll [(.methodName, "getAll".toList)]).entries := by decide +kernel
  have hanchor : Role.methodName.IsAnchor none "public async *".toList
      "getAll(getAll)".toList.head? :=
    (Role.length_mem_anchors_iff .methodName none _ _).mp (by decide +kernel)
  have hrun : ∀ c ∈ "getAll".toList, Text.isIdentifierChar c = true :=
    fun c => Text.isIdentifierChar_of_mem (hnames _ hentry).2.1
  have huses := (hasPart_iff_isAnchor rfl hnames "public async *getAll(getAll)".toList).2.2
  refine ⟨hnames, by decide +kernel, ?_, ?_⟩
  · have hwhole : IsWhole "public async *".toList.getLast? "getAll".toList
        "(getAll)".toList.head? := ⟨hrun, by decide +kernel, by decide +kernel⟩
    exact ((huses _ hentry _ _ (by decide +kernel) hwhole).1 [] _ rfl).mpr hanchor
  · have hwhole : IsWhole "public async *getAll(".toList.getLast? "getAll".toList
        ")".toList.head? := ⟨hrun, by decide +kernel, by decide +kernel⟩
    refine (huses _ hentry _ _ (by decide +kernel) hwhole).2.1 ?_
    intro start anchor hfront hother
    rcases Role.getLast?_of_isMemberAnchor hother with hlast | ⟨-, hnone⟩
    · have hfrontLast := Role.any_getLast?_append hlast start
      rw [← hfront] at hfrontLast
      exact absurd hfrontLast (by decide +kernel)
    · exact absurd hnone (by decide +kernel)

end NameTable

end SourceMask
