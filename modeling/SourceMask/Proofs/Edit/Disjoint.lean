import SourceMask.Proofs.Edit.Splice

/-!
# Which lists of edits are carried out

A list of edits is carried out exactly when every range fits the text and no two ranges have
anything in common.  The checks compare neighbours in the order of execution only.  In that order
this is enough: a range that ends where its neighbour starts or further left also ends so for all
ranges in front of that neighbour.

What is carried out is told from left to right, in the reverse of the order of execution.  What is
refused is refused for a range, or for two ranges, that are really at fault.

Main results:

- Theorem `isChain_iff_pairwise_apart`: in the order of execution it is enough to compare
  neighbours.
- Theorem `isTrueOf_of_check`: a fault that the checks find tells the truth about the edits.
- Theorem `reading_reverse_rightmostFirst`: the order of execution, read backwards, goes from left
  to right.
- Theorem `applyAll_ok_iff_apart`: which lists are carried out, what is made of the text, and what
  the faults of all others say.
-/

namespace SourceMask

namespace Edit

variable {source result : Text} {edits : List Edit}

/-! ## Ranges -/

/-- The range of an edit fits a text if it does not end before it starts, does not leave the text,
and has both ends between characters. -/
theorem fits_iff {edit : Edit} :
    edit.fits source = true ↔
      edit.start ≤ edit.stop ∧ edit.stop ≤ Text.byteLength source ∧
        Text.isBoundary edit.start source = true ∧ Text.isBoundary edit.stop source = true := by
  rw [fits, Bool.and_eq_true, Bool.and_eq_true, decide_eq_true_eq]
  constructor
  · rintro ⟨⟨hle, hstart⟩, hstop⟩
    rcases (Text.isBoundary_iff _ _).mp hstop with ⟨front, back, rfl, hfront⟩
    refine ⟨hle, ?_, hstart, hstop⟩
    rw [Text.byteLength_append]
    omega
  · rintro ⟨hle, -, hstart, hstop⟩
    exact ⟨⟨hle, hstart⟩, hstop⟩

/-- An edit that can be carried out on a text fits it. -/
theorem fits_of_apply {edit : Edit} (h : edit.apply source = .ok result) :
    edit.fits source = true := by
  unfold apply at h
  split at h
  · rename_i text hreplace
    simp only [Text.replaceRange?, Option.bind_eq_bind, Option.bind_eq_some_iff] at hreplace
    rcases hreplace with ⟨⟨front, after⟩, hstop, ⟨before, middle⟩, hstart, -⟩
    rcases Text.eq_append_of_splitAtByte? hstop with ⟨rfl, hfront⟩
    rcases Text.eq_append_of_splitAtByte? hstart with ⟨rfl, hbefore⟩
    have hbegin : Text.isBoundary edit.start (before ++ middle ++ after) = true :=
      (Text.isBoundary_iff _ _).mpr ⟨before, middle ++ after, List.append_assoc _ _ _, hbefore⟩
    have hend : Text.isBoundary edit.stop (before ++ middle ++ after) = true :=
      (Text.isBoundary_iff _ _).mpr ⟨before ++ middle, after, rfl, hfront⟩
    have hle : edit.start ≤ edit.stop := by
      rw [← hfront, ← hbefore, Text.byteLength_append]
      omega
    simp only [fits, hbegin, hend, hle, decide_true, Bool.and_self]
  · cases h

/-- Two ranges are apart if one of them ends where the other one starts or further left.  Ranges
that touch are apart, and so are an empty range and one that starts or ends there. -/
def Apart (first second : Edit) : Prop :=
  first.stop ≤ second.start ∨ second.stop ≤ first.start

theorem Apart.symm {first second : Edit} (h : Apart first second) : Apart second first :=
  Or.symm h

/-- Of two ranges that are apart, the one that is carried out later ends where the other one
starts or further left.  Should it be the other way round, both are empty and at one place. -/
theorem stop_le_start_of_apart {first second : Edit} (hbefore : before first second = true)
    (hsecond : second.start ≤ second.stop) (h : Apart first second) :
    second.stop ≤ first.start := by
  simp only [before, Bool.or_eq_true, Bool.and_eq_true, decide_eq_true_eq] at hbefore
  rcases h with h | h
  · omega
  · exact h

/-! ## Neighbours in the order of execution -/

/-- Ranges each of which ends where its neighbour starts or further left end so for all ranges in
front of them. -/
theorem pairwise_of_isChain (hle : ∀ edit ∈ edits, edit.start ≤ edit.stop)
    (h : edits.IsChain fun earlier later => later.stop ≤ earlier.start) :
    edits.Pairwise fun earlier later => later.stop ≤ earlier.start := by
  induction edits with
  | nil => exact .nil
  | cons edit rest ih =>
    have hrest := ih (fun other hother => hle other (List.mem_cons_of_mem edit hother)) h.of_cons
    refine List.pairwise_cons.mpr ⟨?_, hrest⟩
    cases rest with
    | nil => simp
    | cons next rest =>
      have hnext : next.stop ≤ edit.start := (List.isChain_cons_cons.mp h).1
      have hordered := hle next (List.mem_cons_of_mem edit List.mem_cons_self)
      intro other hother
      rcases List.mem_cons.mp hother with rfl | hother
      · exact hnext
      · have hfollows := (List.pairwise_cons.mp hrest).1 other hother
        omega

/-- In the order of execution it is enough to compare neighbours: all ranges are apart if each ends
where its neighbour starts or further left. -/
theorem isChain_iff_pairwise_apart (hle : ∀ edit ∈ edits, edit.start ≤ edit.stop)
    (hsorted : edits.Pairwise fun first second => before first second = true) :
    (edits.IsChain fun earlier later => later.stop ≤ earlier.start) ↔
      edits.Pairwise Apart := by
  constructor
  · intro h
    exact (pairwise_of_isChain hle h).imp Or.inr
  · intro h
    refine List.Pairwise.isChain ?_
    refine (hsorted.and h).imp_of_mem ?_
    rintro first second - hsecond ⟨hbefore, hapart⟩
    exact stop_le_start_of_apart hbefore (hle second hsecond) hapart

/-- The checks pass exactly when every range fits the text and all ranges are apart. -/
theorem check_eq_ok_iff_apart (source : Text) (edits : List Edit) :
    check source none (rightmostFirst edits) = .ok () ↔
      (∀ edit ∈ edits, edit.fits source = true) ∧ edits.Pairwise Apart := by
  have hmem : (∀ edit ∈ rightmostFirst edits, edit.fits source = true) ↔
      ∀ edit ∈ edits, edit.fits source = true := by
    simp only [(rightmostFirst_perm edits).mem_iff]
  rw [check_eq_ok_iff, hmem, Option.toList_none, List.nil_append]
  refine and_congr_right fun hfits => ?_
  have hle : ∀ edit ∈ rightmostFirst edits, edit.start ≤ edit.stop :=
    fun edit hedit => (fits_iff.mp (hmem.mpr hfits edit hedit)).1
  rw [isChain_iff_pairwise_apart hle (pairwise_rightmostFirst edits)]
  exact (rightmostFirst_perm edits).pairwise_iff Apart.symm

/-! ## Faults -/

/-- What a fault says about the edits that are refused: a range of the list does not fit the text,
or two ranges of the list, both of which fit, are not apart. -/
def Fault.IsTrueOf (source : Text) (edits : List Edit) : Fault → Prop
  | .invalid start stop length =>
    length = Text.byteLength source ∧
      ∃ edit ∈ edits, edit.start = start ∧ edit.stop = stop ∧ edit.fits source = false
  | .overlap firstStart firstStop secondStart secondStop =>
    ∃ first second others, edits.Perm (first :: second :: others) ∧
      first.start = firstStart ∧ first.stop = firstStop ∧
      second.start = secondStart ∧ second.stop = secondStop ∧
      first.fits source = true ∧ second.fits source = true ∧ ¬Apart first second

/-- A fault stays true when the list is put in another order. -/
theorem Fault.IsTrueOf.perm {fault : Fault} {others : List Edit}
    (h : fault.IsTrueOf source edits) (hperm : edits.Perm others) :
    fault.IsTrueOf source others := by
  cases fault with
  | invalid start stop length =>
    rcases h with ⟨hlength, edit, hedit, hrange⟩
    exact ⟨hlength, edit, hperm.mem_iff.mp hedit, hrange⟩
  | overlap =>
    rcases h with ⟨first, second, rest, hedits, hrest⟩
    exact ⟨first, second, rest, hperm.symm.trans hedits, hrest⟩

/-- A fault stays true when an edit is added to the list. -/
theorem Fault.IsTrueOf.cons {fault : Fault} (h : fault.IsTrueOf source edits) (edit : Edit) :
    fault.IsTrueOf source (edit :: edits) := by
  cases fault with
  | invalid start stop length =>
    rcases h with ⟨hlength, other, hother, hrange⟩
    exact ⟨hlength, other, List.mem_cons_of_mem edit hother, hrange⟩
  | overlap =>
    rcases h with ⟨first, second, rest, hedits, hrest⟩
    refine ⟨first, second, edit :: rest, ?_, hrest⟩
    calc (edit :: edits).Perm (edit :: first :: second :: rest) := hedits.cons edit
      _ |>.Perm (first :: edit :: second :: rest) := .swap first edit _
      _ |>.Perm (first :: second :: edit :: rest) := (List.Perm.swap second edit rest).cons first

/-- A fault that the checks find tells the truth about the edits.  The edit that is checked last
has been found to fit. -/
theorem isTrueOf_of_check {fault : Fault} (previous : Option Edit)
    (hprevious : ∀ edit ∈ previous, edit.fits source = true)
    (hsorted : (previous.toList ++ edits).Pairwise fun first second => before first second = true)
    (h : check source previous edits = .error fault) :
    fault.IsTrueOf source (previous.toList ++ edits) := by
  induction edits generalizing previous with
  | nil => cases h
  | cons edit rest ih =>
    unfold check at h
    by_cases hfits : edit.fits source = true
    · rw [if_neg (by simp [hfits])] at h
      cases previous with
      | none => exact ih (some edit) (by simpa using hfits) hsorted h
      | some earlier =>
        by_cases hlt : earlier.start < edit.stop
        · have hearlier := hprevious earlier rfl
          have hbefore : before earlier edit = true :=
            (List.pairwise_cons.mp hsorted).1 edit List.mem_cons_self
          dsimp only at h
          rw [if_pos hlt] at h
          cases h
          refine ⟨edit, earlier, rest, .swap edit earlier rest, rfl, rfl, rfl, rfl, hfits, hearlier,
            fun hapart => ?_⟩
          have hstop := stop_le_start_of_apart hbefore (fits_iff.mp hfits).1 hapart.symm
          omega
        · dsimp only at h
          rw [if_neg hlt] at h
          exact (ih (some edit) (by simpa using hfits) hsorted.of_cons h).cons earlier
    · rw [if_pos (by simpa using hfits)] at h
      cases h
      exact ⟨rfl, edit, List.mem_append_right _ List.mem_cons_self, rfl, rfl,
        Bool.not_eq_true _ ▸ hfits⟩

/-! ## From left to right -/

/-- Whether an edit takes nothing away at an offset, but only inserts its text there. -/
def insertsAt (offset : Nat) (edit : Edit) : Bool := edit.start = offset && edit.stop = offset

/-- The order in which the edits of a list are told from left to right. -/
structure IsReading (edits ordered : List Edit) : Prop where
  /-- Every edit of the list is told once. -/
  perm : ordered.Perm edits
  /-- Each range ends where the next one starts or further left. -/
  follow : ordered.Pairwise fun first second => first.stop ≤ second.start
  /-- An insertion stands before a range that starts at its offset and after one that ends there. -/
  beside : ∀ front edit back, ordered = front ++ edit :: back → edit.start < edit.stop →
    (∀ insertion ∈ back, insertsAt edit.start insertion = false) ∧
      ∀ insertion ∈ front, insertsAt edit.stop insertion = false
  /-- The insertions at one offset are told in the reverse of their order in the list. -/
  insertions : ∀ offset,
    ordered.filter (insertsAt offset) = (edits.filter (insertsAt offset)).reverse

/-- The order of execution keeps the insertions at one offset in the order of the list. -/
theorem filter_insertsAt_rightmostFirst (offset : Nat) (edits : List Edit) :
    (rightmostFirst edits).filter (insertsAt offset) = edits.filter (insertsAt offset) := by
  have hsorted : (edits.filter (insertsAt offset)).Pairwise fun first second =>
      before first second = true := by
    refine List.pairwise_of_forall_mem_list ?_
    intro first hfirst second hsecond
    have hfirstAt := (List.mem_filter.mp hfirst).2
    have hsecondAt := (List.mem_filter.mp hsecond).2
    simp only [insertsAt, Bool.and_eq_true, decide_eq_true_eq] at hfirstAt hsecondAt
    simp only [before, Bool.or_eq_true, Bool.and_eq_true, decide_eq_true_eq]
    omega
  -- The sorting is stable, so what is sorted already is a part of what it gives.
  have hsublist : (edits.filter (insertsAt offset)).Sublist (rightmostFirst edits) :=
    List.sublist_mergeSort before_trans before_total hsorted List.filter_sublist
  have hfilter := hsublist.filter (insertsAt offset)
  simp only [List.filter_filter, Bool.and_self] at hfilter
  exact (hfilter.eq_of_length ((rightmostFirst_perm edits).filter _).length_eq.symm).symm

/-- The order of execution, read backwards, goes from left to right. -/
theorem reading_reverse_rightmostFirst (hfits : ∀ edit ∈ edits, edit.fits source = true)
    (hapart : edits.Pairwise Apart) : IsReading edits (rightmostFirst edits).reverse := by
  have hperm := (rightmostFirst edits).reverse_perm.trans (rightmostFirst_perm edits)
  have hle : ∀ edit ∈ rightmostFirst edits, edit.start ≤ edit.stop := fun edit hedit =>
    (fits_iff.mp (hfits edit ((rightmostFirst_perm edits).mem_iff.mp hedit))).1
  have hfollow : (rightmostFirst edits).reverse.Pairwise fun first second =>
      first.stop ≤ second.start := by
    rw [List.pairwise_reverse]
    refine pairwise_of_isChain hle ?_
    rw [isChain_iff_pairwise_apart hle (pairwise_rightmostFirst edits)]
    exact ((rightmostFirst_perm edits).pairwise_iff Apart.symm).mpr hapart
  refine ⟨hperm, hfollow, ?_, ?_⟩
  · intro front edit back hordered hlt
    rw [hordered, List.pairwise_append, List.pairwise_cons] at hfollow
    rcases hfollow with ⟨-, ⟨hback, -⟩, hfront⟩
    constructor
    · intro insertion hinsertion
      have hafter := hback insertion hinsertion
      rw [insertsAt, Bool.and_eq_false_iff, decide_eq_false_iff_not]
      exact .inl (by omega)
    · intro insertion hinsertion
      have hbefore := hfront insertion hinsertion edit List.mem_cons_self
      rw [insertsAt, Bool.and_eq_false_iff, decide_eq_false_iff_not, decide_eq_false_iff_not]
      exact .inr (by omega)
  · intro offset
    rw [List.filter_reverse, filter_insertsAt_rightmostFirst]

/-! ## What is carried out -/

/-- Edits that fit the text and are apart make something of it that is told from left to right. -/
theorem exists_splices (hfits : ∀ edit ∈ edits, edit.fits source = true)
    (hapart : edits.Pairwise Apart) :
    ∃ result, Splices source (rightmostFirst edits).reverse result := by
  have hreading := reading_reverse_rightmostFirst hfits hapart
  refine Text.Exchanges.exists_of_follow [] source (fun edit _ _ => ⟨edit.text, rfl⟩) ?_ ?_
    hreading.follow (List.nil_append source).symm
  · intro edit hedit
    rcases fits_iff.mp (hfits edit (hreading.perm.mem_iff.mp hedit)) with ⟨hle, -, hends⟩
    exact ⟨hle, hends⟩
  · intro edit _
    exact Nat.zero_le _

/-- While edits are carried out, each of them fits the text that those before it have left. -/
theorem fits_of_applyInOrder {front back : List Edit} {edit : Edit}
    (h : applyInOrder source (front ++ edit :: back) = .ok result) :
    ∃ current, applyInOrder source front = .ok current ∧ edit.fits current = true := by
  rw [applyInOrder, List.foldlM_append] at h
  cases hfront : applyInOrder source front with
  | error fault =>
    rw [applyInOrder] at hfront
    rw [hfront] at h
    cases h
  | ok current =>
    rw [applyInOrder] at hfront
    rw [hfront] at h
    change (edit :: back).foldlM (fun text edit => edit.apply text) current = .ok result at h
    rw [List.foldlM_cons] at h
    cases hedit : edit.apply current with
    | error fault =>
      rw [hedit] at h
      cases h
    | ok next => exact ⟨current, rfl, fits_of_apply hedit⟩

/-- What it means that a list of edits is carried out on a text and gives a result. -/
structure IsCarriedOut (source : Text) (edits : List Edit) (result : Text) : Prop where
  /-- From left to right, the gaps between the ranges are kept and the ranges give way to the texts
  of the edits. -/
  spliced : ∃ ordered, IsReading edits ordered ∧ Splices source ordered result
  /-- Each edit fits the partly edited text that it is carried out on. -/
  fitting : ∀ front edit back, rightmostFirst edits = front ++ edit :: back →
    ∃ current, applyInOrder source front = .ok current ∧ edit.fits current = true

/-- Edits that fit the text and are apart are carried out. -/
theorem exists_isCarriedOut (hfits : ∀ edit ∈ edits, edit.fits source = true)
    (hapart : edits.Pairwise Apart) :
    ∃ result, applyAll source edits = .ok result ∧ IsCarriedOut source edits result := by
  rcases exists_splices hfits hapart with ⟨result, hsplices⟩
  have hrun : applyInOrder source (rightmostFirst edits) = .ok result := by
    simpa using applyInOrder_reverse_of_exchanges hsplices Text.byteLength_nil
  refine ⟨result, applyAll_of_splices hsplices,
    ⟨_, reading_reverse_rightmostFirst hfits hapart, hsplices⟩, ?_⟩
  intro front edit back hordered
  rw [hordered] at hrun
  exact fits_of_applyInOrder hrun

/-- A list of edits is carried out exactly when every range lies in the text with both ends between
characters and all ranges are apart.  Otherwise the fault names a range of the list that is
invalid, or two ranges that are valid and not apart. -/
theorem applyAll_ok_iff_apart (source : Text) (edits : List Edit) :
    ((∃ result, applyAll source edits = .ok result) ↔
        (∀ edit ∈ edits, edit.start ≤ edit.stop ∧ edit.stop ≤ Text.byteLength source ∧
          Text.isBoundary edit.start source = true ∧ Text.isBoundary edit.stop source = true) ∧
        edits.Pairwise Apart) ∧
      (∀ result, applyAll source edits = .ok result → IsCarriedOut source edits result) ∧
      ∀ fault, applyAll source edits = .error fault → fault.IsTrueOf source edits := by
  simp only [← fits_iff]
  cases hcheck : check source none (rightmostFirst edits) with
  | ok _ =>
    have hvalid := (check_eq_ok_iff_apart source edits).mp hcheck
    rcases exists_isCarriedOut hvalid.1 hvalid.2 with ⟨result, hresult, hcarried⟩
    refine ⟨⟨fun _ => hvalid, fun _ => ⟨result, hresult⟩⟩, ?_, ?_⟩
    · intro other hother
      rw [hresult] at hother
      cases hother
      exact hcarried
    · intro fault hfault
      rw [hresult] at hfault
      cases hfault
  | error fault =>
    have hfailed : applyAll source edits = .error fault := by
      rw [applyAll, hcheck]
      rfl
    refine ⟨⟨?_, ?_⟩, ?_, ?_⟩
    · rintro ⟨result, hresult⟩
      rw [hfailed] at hresult
      cases hresult
    · intro hvalid
      rw [(check_eq_ok_iff_apart source edits).mpr hvalid] at hcheck
      cases hcheck
    · intro result hresult
      rw [hfailed] at hresult
      cases hresult
    · intro other hother
      rw [hfailed] at hother
      cases hother
      have htrue := isTrueOf_of_check none (by simp) (pairwise_rightmostFirst edits) hcheck
      exact htrue.perm (rightmostFirst_perm edits)

end Edit

end SourceMask
