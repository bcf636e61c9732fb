import SourceMask.Proofs.Edit.Disjoint

/-!
# Edits listed in any order

Edits are put in order by their ranges before anything else is done.  Edits of one range keep the
order of the list, so two listings of the same edits may be executed in different orders.  The
ranges, however, come in one order only, and the checks look at nothing else: whether the edits are
refused, and with which fault, does not depend on the listing.

If they are carried out, edits of one range are insertions at one offset, since all ranges are
apart.  As long as these insert the same text, the order of execution does not depend on the listing
either.

Main results:

- Theorem `map_range_rightmostFirst_of_perm`: the ranges come in one order.
- Theorem `check_congr`: the checks look at ranges only.
- Theorem `rightmostFirst_eq_of_perm`: edits that are carried out come in one order, if insertions
  at one offset are of one text.
- Theorem `applyAll_eq_of_perm`: the listing does not matter.
-/

namespace SourceMask

namespace Edit

variable {source : Text} {edits others : List Edit}

/-! ## The order of ranges -/

/-- The range of an edit, whatever its text is. -/
def range (edit : Edit) : Nat × Nat := (edit.start, edit.stop)

/-- Edits each of which may be carried out before the other one have one range. -/
theorem range_eq_of_before {first second : Edit} (h : before first second = true)
    (h' : before second first = true) : first.range = second.range := by
  simp only [before, Bool.or_eq_true, Bool.and_eq_true, decide_eq_true_eq] at h h'
  rw [range, range, Prod.mk.injEq]
  omega

/-- However edits are listed, the same ones are executed. -/
theorem rightmostFirst_perm_of_perm (hperm : edits.Perm others) :
    (rightmostFirst edits).Perm (rightmostFirst others) :=
  ((rightmostFirst_perm edits).trans hperm).trans (rightmostFirst_perm others).symm

/-- However edits are listed, their ranges come in one order. -/
theorem map_range_rightmostFirst_of_perm (hperm : edits.Perm others) :
    (rightmostFirst edits).map range = (rightmostFirst others).map range := by
  -- Whether an edit may be carried out before another is a matter of their ranges.
  have hsorted : ∀ list : List Edit, ((rightmostFirst list).map range).Pairwise
      fun first second => before ⟨[], first.1, first.2⟩ ⟨[], second.1, second.2⟩ = true := by
    intro list
    rw [List.pairwise_map]
    exact pairwise_rightmostFirst list
  have hranges : ((rightmostFirst edits).map range).Perm ((rightmostFirst others).map range) :=
    (rightmostFirst_perm_of_perm hperm).map range
  refine List.Perm.eq_of_pairwise ?_ (hsorted edits) (hsorted others) hranges
  intro first second _ _ h h'
  exact range_eq_of_before h h'

/-- Edits that are listed in the order of their execution keep their order. -/
theorem rightmostFirst_of_pairwise (h : edits.Pairwise fun first second => before first second) :
    rightmostFirst edits = edits :=
  List.mergeSort_of_pairwise h

/-! ## Faults -/

/-- Whether an edit fits a text is a matter of its range. -/
theorem fits_congr {first second : Edit} (h : first.range = second.range) :
    first.fits source = second.fits source := by
  rw [range, range, Prod.mk.injEq] at h
  rw [fits, fits, h.1, h.2]

/-- The checks look at ranges only. -/
theorem check_congr (h : edits.map range = others.map range) {previous previous' : Option Edit}
    (hprevious : previous.map range = previous'.map range) :
    check source previous edits = check source previous' others := by
  induction edits generalizing others previous previous' with
  | nil =>
    rw [List.map_nil, eq_comm, List.map_eq_nil_iff] at h
    rw [h, check.eq_def, check.eq_def]
  | cons edit rest ih =>
    cases others with
    | nil => cases h
    | cons other others =>
      rw [List.map_cons, List.map_cons, List.cons.injEq] at h
      rcases h with ⟨hedit, hrest⟩
      have hnext : check source (some edit) rest = check source (some other) others :=
        ih hrest (congrArg some hedit)
      have hfits : edit.fits source = other.fits source := fits_congr hedit
      rw [range, range, Prod.mk.injEq] at hedit
      rw [check.eq_def, check.eq_def source previous']
      dsimp only
      rw [hfits, hedit.1, hedit.2, hnext]
      cases previous with
      | none =>
        cases previous' with
        | none => rfl
        | some earlier' => cases hprevious
      | some earlier =>
        cases previous' with
        | none => cases hprevious
        | some earlier' =>
          rw [Option.map_some, Option.map_some, Option.some.injEq, range, range, Prod.mk.injEq]
            at hprevious
          simp only [hprevious.1, hprevious.2]

/-- The checks on the edits of a list do not depend on how they are listed. -/
theorem check_eq_of_perm (source : Text) (hperm : edits.Perm others) :
    check source none (rightmostFirst edits) = check source none (rightmostFirst others) :=
  check_congr (map_range_rightmostFirst_of_perm hperm) rfl

/-- Edits that pass the checks are carried out. -/
theorem exists_applyAll_of_check (h : check source none (rightmostFirst edits) = .ok ()) :
    ∃ result, applyAll source edits = .ok result := by
  rcases (check_eq_ok_iff_apart source edits).mp h with ⟨hfits, hapart⟩
  rcases exists_isCarriedOut hfits hapart with ⟨result, hresult, -⟩
  exact ⟨result, hresult⟩

/-- A fault that the checks find is the answer. -/
theorem applyAll_of_check {fault : Fault}
    (h : check source none (rightmostFirst edits) = .error fault) :
    applyAll source edits = .error fault := by
  rw [applyAll, h]
  rfl

/-! ## Results -/

/-- Whether the insertions at each offset are of one text. -/
def InsertsAlike (edits : List Edit) : Prop :=
  ∀ first ∈ edits, ∀ second ∈ edits, insertsAt first.start first = true →
    insertsAt first.start second = true → first.text = second.text

instance (edits : List Edit) : Decidable (InsertsAlike edits) :=
  inferInstanceAs (Decidable (∀ first ∈ edits, ∀ second ∈ edits, _ → _ → _))

/-- Of edits that are apart, only insertions can have one range. -/
theorem insertsAt_of_range_eq {first second : Edit} (hle : first.start ≤ first.stop)
    (hapart : Apart first second) (h : first.range = second.range) :
    insertsAt first.start first = true ∧ insertsAt first.start second = true := by
  rw [range, range, Prod.mk.injEq] at h
  simp only [insertsAt, Bool.and_eq_true, decide_eq_true_eq, true_and]
  unfold Apart at hapart
  omega

/-- If insertions at one offset are of one text, edits that fit the text and are apart come in one
order, however they are listed. -/
theorem rightmostFirst_eq_of_perm (hperm : edits.Perm others) (halike : InsertsAlike edits)
    (hfits : ∀ edit ∈ edits, edit.fits source = true) (hapart : edits.Pairwise Apart) :
    rightmostFirst edits = rightmostFirst others := by
  refine List.Perm.eq_of_pairwise ?_ (pairwise_rightmostFirst edits)
    (pairwise_rightmostFirst others) (rightmostFirst_perm_of_perm hperm)
  intro first second hfirst hsecond h h'
  have hmem : first ∈ edits := (rightmostFirst_perm edits).mem_iff.mp hfirst
  have hmem' : second ∈ edits :=
    hperm.mem_iff.mpr ((rightmostFirst_perm others).mem_iff.mp hsecond)
  have hrange := range_eq_of_before h h'
  refine Classical.byContradiction fun hne => hne ?_
  have : Std.Symm Apart := ⟨fun _ _ => Apart.symm⟩
  have hboth : Apart first second := hapart.forall hmem hmem' hne
  rcases insertsAt_of_range_eq (fits_iff.mp (hfits first hmem)).1 hboth hrange with ⟨hin, hin'⟩
  have htext := halike first hmem second hmem' hin hin'
  rw [range, range, Prod.mk.injEq] at hrange
  cases first
  cases second
  rw [Edit.mk.injEq]
  exact ⟨htext, hrange.1, hrange.2⟩

/-- The order in which edits are listed does not matter.  If the insertions at each offset are of
one text, the answer is the same: the same result, or the same fault.  In any case all listings are
carried out or all are refused, and all are refused with the same fault. -/
theorem applyAll_eq_of_perm (source : Text) (hperm : edits.Perm others) :
    (InsertsAlike edits → applyAll source edits = applyAll source others) ∧
      ((∃ result, applyAll source edits = .ok result) ↔
        ∃ result, applyAll source others = .ok result) ∧
      ∀ fault, applyAll source edits = .error fault ↔ applyAll source others = .error fault := by
  have hsame := check_eq_of_perm source hperm
  cases hcheck : check source none (rightmostFirst edits) with
  | ok _ =>
    rcases exists_applyAll_of_check hcheck with ⟨result, hresult⟩
    rcases exists_applyAll_of_check (hsame.symm.trans hcheck) with ⟨result', hresult'⟩
    refine ⟨fun halike => ?_, ?_, fun fault => ?_⟩
    · rcases (check_eq_ok_iff_apart source edits).mp hcheck with ⟨hfits, hapart⟩
      rw [applyAll, applyAll, rightmostFirst_eq_of_perm hperm halike hfits hapart]
    · exact iff_of_true ⟨result, hresult⟩ ⟨result', hresult'⟩
    · rw [hresult, hresult']
      constructor
      · intro h
        cases h
      · intro h
        cases h
  | error fault =>
    have heq : applyAll source edits = applyAll source others :=
      (applyAll_of_check hcheck).trans (applyAll_of_check (hsame.symm.trans hcheck)).symm
    rw [heq]
    exact ⟨fun _ => rfl, Iff.rfl, fun _ => Iff.rfl⟩

/-- A range that is exchanged, two insertions of one text at its end, and a letter of two bytes
behind them, listed in two ways. -/
theorem applyAll_eq_of_perm_insertions :
    let first : List Edit := [⟨"let".toList, 0, 3⟩, ⟨"_".toList, 3, 3⟩, ⟨"e".toList, 4, 6⟩,
      ⟨"_".toList, 3, 3⟩]
    let second : List Edit := [⟨"e".toList, 4, 6⟩, ⟨"_".toList, 3, 3⟩, ⟨"_".toList, 3, 3⟩,
      ⟨"let".toList, 0, 3⟩]
    first.Perm second ∧ InsertsAlike first ∧ applyAll "var é".toList first = .ok "let__ e".toList ∧
      applyAll "var é".toList second = .ok "let__ e".toList := by
  intro first second
  have hperm : first.Perm second := by decide
  have halike : InsertsAlike first := by decide
  have hresult : applyAll "var é".toList second = .ok "let__ e".toList := by
    rw [applyAll, rightmostFirst_of_pairwise (by decide)]
    decide +kernel
  refine ⟨hperm, halike, ?_, hresult⟩
  rw [(applyAll_eq_of_perm _ hperm).1 halike]
  exact hresult

/-- Insertions of different texts at one offset come out in the reverse of their listing. -/
example :
    applyAll "ab".toList [⟨['x'], 1, 1⟩, ⟨['y'], 1, 1⟩] = .ok "ayxb".toList ∧
      applyAll "ab".toList [⟨['y'], 1, 1⟩, ⟨['x'], 1, 1⟩] = .ok "axyb".toList := by
  rw [applyAll, applyAll, rightmostFirst_of_pairwise (by decide),
    rightmostFirst_of_pairwise (by decide)]
  decide +kernel

end Edit

end SourceMask
