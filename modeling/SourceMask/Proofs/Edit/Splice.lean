import Mathlib.Data.List.Chain
import SourceMask.Edit
import SourceMask.Proofs.Text.Exchange

/-!
# Edits from right to left and from left to right

Edits are carried out from the right, each on a text that the ones before it have changed already.
What they make of the text is told more simply from left to right: gaps are kept, and each range
gives way to the text of its edit.

Main results:

- Theorem `check_eq_ok_iff`: the checks pass exactly when every range fits the text and each edit
  ends where the one before it starts or further left.
- Theorem `applyAll_of_splices`: edits are carried out as they are told from left to right.
- Theorem `rightmostFirst_eq_reverse`: ranges that are not empty and follow one another are put in
  order by turning their list around.
-/

namespace SourceMask

namespace Edit

/-! ## Order of execution -/

theorem before_trans (first second third : Edit) (h : before first second = true)
    (h' : before second third = true) : before first third = true := by
  simp only [before, Bool.or_eq_true, Bool.and_eq_true, decide_eq_true_eq] at h h' ⊢
  omega

theorem before_total (first second : Edit) :
    (before first second || before second first) = true := by
  simp only [before, Bool.or_eq_true, Bool.and_eq_true, decide_eq_true_eq]
  omega

/-- In the order of execution every edit may be carried out before those behind it. -/
theorem pairwise_rightmostFirst (edits : List Edit) :
    (rightmostFirst edits).Pairwise fun first second => before first second = true :=
  List.pairwise_mergeSort before_trans before_total edits

/-- Ranges that are not empty and follow one another are put in order by turning their list
around. -/
theorem rightmostFirst_eq_reverse {edits : List Edit}
    (hnonempty : ∀ edit ∈ edits, edit.start < edit.stop)
    (hfollow : edits.Pairwise fun first second => first.stop ≤ second.start) :
    rightmostFirst edits = edits.reverse := by
  have hperm : (rightmostFirst edits).Perm edits.reverse :=
    (rightmostFirst_perm edits).trans edits.reverse_perm.symm
  have hsorted : edits.reverse.Pairwise fun first second => before first second = true := by
    rw [List.pairwise_reverse]
    apply hfollow.imp_of_mem
    intro first second _ hsecond hle
    have hlt := hnonempty second hsecond
    simp only [before, Bool.or_eq_true, Bool.and_eq_true, decide_eq_true_eq]
    omega
  -- Two edits that may each go before the other have one range, so they are one edit of the list.
  have hstarts : edits.Pairwise fun first second => first.start < second.start := by
    apply hfollow.imp_of_mem
    intro first second hfirst _ hle
    exact Nat.lt_of_lt_of_le (hnonempty first hfirst) hle
  have hsame : ∀ ⦃first⦄, first ∈ edits → ∀ ⦃second⦄, second ∈ edits →
      first.start = second.start → first = second := by
    refine List.Pairwise.forall_of_forall_of_flip (fun _ _ _ => rfl) ?_ ?_
    · exact hstarts.imp fun h heq => absurd heq (Nat.ne_of_lt h)
    · exact hstarts.imp fun h heq => absurd heq.symm (Nat.ne_of_lt h)
  refine List.Perm.eq_of_pairwise ?_ (pairwise_rightmostFirst edits) hsorted hperm
  intro first second hfirst hsecond h h'
  have hmem : first ∈ edits := (rightmostFirst_perm edits).mem_iff.mp hfirst
  apply hsame hmem (List.mem_reverse.mp hsecond)
  simp only [before, Bool.or_eq_true, Bool.and_eq_true, decide_eq_true_eq] at h h'
  omega

/-! ## Checks -/

/-- The checks pass exactly when every range fits the text and each edit ends where the one before
it starts or further left. -/
theorem check_eq_ok_iff (source : Text) (previous : Option Edit) (edits : List Edit) :
    check source previous edits = .ok () ↔
      (∀ edit ∈ edits, edit.fits source = true) ∧
        (previous.toList ++ edits).IsChain fun earlier later => later.stop ≤ earlier.start := by
  induction edits generalizing previous with
  | nil => cases previous <;> simp [check]
  | cons edit rest ih =>
    unfold check
    by_cases hfits : edit.fits source = true
    · cases previous with
      | none => simp [hfits, ih]
      | some earlier =>
        by_cases hlt : earlier.start < edit.stop
        · simp [hfits, hlt]
        · simp [hfits, hlt, ih, Nat.not_lt.mp hlt]
    · simp [hfits]

/-! ## From left to right -/

/-- A text with the ranges of some edits exchanged from left to right for the texts of the edits
gives a result. -/
def Splices (source : Text) (edits : List Edit) (result : Text) : Prop :=
  Text.Exchanges Edit.start Edit.stop (fun edit _ piece => piece = edit.text) 0 source edits result

/-- What can be read from left to right has ranges that fit the text. -/
theorem fits_of_exchanges {writes : Edit → Text → Text → Prop} {offset : Nat} {text result : Text}
    {edits : List Edit}
    (h : Text.Exchanges Edit.start Edit.stop writes offset text edits result) :
    ∀ {before : Text}, Text.byteLength before = offset →
      ∀ edit ∈ edits, edit.fits (before ++ text) = true := by
  induction h with
  | done => simp
  | @step offset gap slice rest piece result item items hstart hstop _ _ ih =>
    intro front hfront edit hedit
    rcases List.mem_cons.mp hedit with rfl | hedit
    · have hbegin : Text.isBoundary edit.start (front ++ (gap ++ slice ++ rest)) = true := by
        refine (Text.isBoundary_iff _ _).mpr ⟨front ++ gap, slice ++ rest, by simp, ?_⟩
        rw [Text.byteLength_append, hfront, hstart]
      have hend : Text.isBoundary edit.stop (front ++ (gap ++ slice ++ rest)) = true := by
        refine (Text.isBoundary_iff _ _).mpr ⟨front ++ gap ++ slice, rest, by simp, ?_⟩
        rw [Text.byteLength_append, Text.byteLength_append, hfront, hstop, hstart]
      have hle : edit.start ≤ edit.stop := by omega
      simp only [fits, hbegin, hend, hle, decide_true, Bool.and_self]
    · have hlen : Text.byteLength (front ++ gap ++ slice) = item.stop := by
        simp only [Text.byteLength_append]
        omega
      simpa only [List.append_assoc] using ih hlen edit hedit

/-- What can be read from left to right has ranges that follow one another. -/
theorem pairwise_of_exchanges {writes : Edit → Text → Text → Prop} {offset : Nat}
    {text result : Text} {edits : List Edit}
    (h : Text.Exchanges Edit.start Edit.stop writes offset text edits result) :
    (∀ edit ∈ edits, offset ≤ edit.start) ∧
      edits.Pairwise fun first second => first.stop ≤ second.start := by
  induction h with
  | done => simp
  | @step offset gap slice rest piece result item items hstart hstop _ _ ih =>
    rcases ih with ⟨hlow, hpairwise⟩
    constructor
    · intro edit hedit
      rcases List.mem_cons.mp hedit with rfl | hedit
      · omega
      · have hle := hlow edit hedit
        omega
    · exact List.pairwise_cons.mpr ⟨hlow, hpairwise⟩

/-- Carrying out edits from the right gives what is read from left to right.  The text in front of
the reading stays as it is while the edits behind it are carried out. -/
theorem applyInOrder_reverse_of_exchanges {offset : Nat} {text result : Text} {edits : List Edit}
    (h : Text.Exchanges Edit.start Edit.stop (fun edit _ piece => piece = edit.text) offset text
      edits result) :
    ∀ {before : Text}, Text.byteLength before = offset →
      applyInOrder (before ++ text) edits.reverse = .ok (before ++ result) := by
  induction h with
  | done => simp [applyInOrder, pure, Except.pure]
  | @step offset gap slice rest piece result item items hstart hstop hwrites _ ih =>
    intro front hfront
    subst hwrites
    have hlen : Text.byteLength (front ++ gap ++ slice) = item.stop := by
      simp only [Text.byteLength_append]
      omega
    have hlater := ih hlen
    have hgap : Text.byteLength (front ++ gap) = item.start := by
      rw [Text.byteLength_append, hfront, hstart]
    have hlast : item.apply (front ++ gap ++ slice ++ result) =
        .ok (front ++ gap ++ item.text ++ result) := by
      have hreplace := replaceRange?_append (front ++ gap) slice result item.text
      rw [hgap, hlen] at hreplace
      rw [apply, hreplace]
    simp only [applyInOrder, List.reverse_cons, List.foldlM_append, List.append_assoc] at hlater ⊢
    rw [hlater]
    simp only [List.append_assoc] at hlast
    simp [bind, Except.bind, pure, Except.pure, hlast]

/-- Edits are carried out as they are told from left to right. -/
theorem applyAll_of_splices {source result : Text} {edits : List Edit}
    (h : Splices source (rightmostFirst edits).reverse result) :
    applyAll source edits = .ok result := by
  have hfits : ∀ edit ∈ rightmostFirst edits, edit.fits source = true := by
    intro edit hedit
    have hmem : edit ∈ (rightmostFirst edits).reverse := List.mem_reverse.mpr hedit
    simpa using fits_of_exchanges h Text.byteLength_nil edit hmem
  have hchain : (rightmostFirst edits).IsChain fun earlier later =>
      later.stop ≤ earlier.start := by
    have hpairwise := (pairwise_of_exchanges h).2
    rw [List.pairwise_reverse] at hpairwise
    exact hpairwise.isChain
  have hcheck : check source none (rightmostFirst edits) = .ok () :=
    (check_eq_ok_iff source none (rightmostFirst edits)).mpr ⟨hfits, by simpa using hchain⟩
  have hrun : applyInOrder source (rightmostFirst edits) = .ok result := by
    simpa using applyInOrder_reverse_of_exchanges h Text.byteLength_nil
  simp [applyAll, hcheck, hrun, bind, Except.bind]

end Edit

end SourceMask
