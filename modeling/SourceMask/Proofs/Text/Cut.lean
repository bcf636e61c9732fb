import SourceMask.Text.Offset

/-!
# Cutting texts at byte offsets

A byte offset cuts a text where the characters before it take exactly that many bytes.  Such a cut
is the only one at its offset, so boundaries and slices can be told by the parts of the text around
them.  In this form they are found again in any longer text that has the same part in its middle.

Main results:

- Theorem `append_inj_of_byteLength`: a text has one cut at each offset.
- Theorems `isBoundary_iff` and `slice?_eq_some_iff`: boundaries and slices are told by the parts
  around them.
- Theorem `exists_gap`: behind a known beginning, the text up to a later boundary can be split off.
- Theorem `slice?_inside`: the slices of a part are slices of the whole text, shifted by the bytes
  before the part.
-/

namespace SourceMask

namespace Text

/-! ## One cut at each offset -/

/-- A text has one cut at each offset. -/
theorem append_inj_of_byteLength {first second first' second' : Text}
    (htext : first ++ second = first' ++ second') (hlen : byteLength first = byteLength first') :
    first = first' ∧ second = second' := by
  have hcut := splitAtByte?_append first second
  rw [htext, hlen, splitAtByte?_append] at hcut
  rw [Option.some.injEq, Prod.mk.injEq] at hcut
  exact ⟨hcut.1.symm, hcut.2.symm⟩

/-- An offset is a boundary exactly when some beginning of the text takes as many bytes. -/
theorem isBoundary_iff (offset : Nat) (text : Text) :
    isBoundary offset text = true ↔
      ∃ front back, text = front ++ back ∧ byteLength front = offset := by
  constructor
  · intro h
    rcases Option.isSome_iff_exists.mp h with ⟨⟨front, back⟩, hcut⟩
    exact ⟨front, back, eq_append_of_splitAtByte? hcut⟩
  · rintro ⟨front, back, rfl, rfl⟩
    rw [isBoundary, splitAtByte?_append]
    rfl

/-- The part of a text between two others is its slice between their offsets. -/
theorem slice?_append (before middle after : Text) :
    slice? (before ++ middle ++ after) (byteLength before) (byteLength (before ++ middle)) =
      some middle := by
  simp only [slice?, splitAtByte?_append, Option.bind_eq_bind, Option.bind_some, Option.pure_def]

/-- A text is a slice exactly when it is what stands between two offsets. -/
theorem slice?_eq_some_iff (text piece : Text) (start stop : Nat) :
    slice? text start stop = some piece ↔
      ∃ before after, text = before ++ piece ++ after ∧
        byteLength before = start ∧ byteLength (before ++ piece) = stop := by
  constructor
  · intro h
    simp only [slice?, Option.bind_eq_bind, Option.pure_def, Option.bind_eq_some_iff,
      Option.some.injEq] at h
    rcases h with ⟨⟨front, after⟩, hstop, ⟨before, middle⟩, hstart, rfl⟩
    rcases eq_append_of_splitAtByte? hstop with ⟨rfl, hfront⟩
    rcases eq_append_of_splitAtByte? hstart with ⟨rfl, hbefore⟩
    exact ⟨before, after, rfl, hbefore, hfront⟩
  · rintro ⟨before, after, rfl, rfl, rfl⟩
    exact slice?_append before piece after

/-! ## Cuts behind a known beginning -/

/-- Behind a known beginning, the text up to a later boundary can be split off. -/
theorem exists_gap {before text : Text} {offset : Nat}
    (hbound : isBoundary offset (before ++ text) = true) (hle : byteLength before ≤ offset) :
    ∃ gap rest, text = gap ++ rest ∧ offset = byteLength before + byteLength gap := by
  rcases (isBoundary_iff _ _).mp hbound with ⟨front, back, htext, hfront⟩
  rcases List.append_eq_append_iff.mp htext with ⟨gap, rfl, rfl⟩ | ⟨gap, rfl, rfl⟩
  · rw [byteLength_append] at hfront
    exact ⟨gap, back, rfl, hfront.symm⟩
  · -- Here the boundary would lie before the end of the beginning, so nothing is left between.
    rw [byteLength_append] at hle
    have hgap : gap = [] := (byteLength_eq_zero_iff gap).mp (by omega)
    subst hgap
    exact ⟨[], text, rfl, by simpa using hfront.symm⟩

/-- Two boundaries in order have a slice between them. -/
theorem exists_slice? {text : Text} {start stop : Nat} (hstart : isBoundary start text = true)
    (hstop : isBoundary stop text = true) (hle : start ≤ stop) :
    ∃ piece, slice? text start stop = some piece := by
  rcases (isBoundary_iff _ _).mp hstart with ⟨before, rest, rfl, rfl⟩
  rcases exists_gap hstop hle with ⟨piece, after, rfl, rfl⟩
  have hslice := slice?_append before piece after
  rw [List.append_assoc, byteLength_append] at hslice
  exact ⟨piece, hslice⟩

/-! ## Parts of longer texts -/

/-- The slices of a part are slices of the whole text. -/
theorem slice?_inside {text piece : Text} {start stop : Nat}
    (h : slice? text start stop = some piece) (before after : Text) :
    slice? (before ++ text ++ after) (start + byteLength before) (stop + byteLength before) =
      some piece := by
  rcases (slice?_eq_some_iff _ _ _ _).mp h with ⟨front, back, rfl, rfl, rfl⟩
  refine (slice?_eq_some_iff _ _ _ _).mpr ⟨before ++ front, back ++ after, ?_, ?_, ?_⟩
  · simp only [List.append_assoc]
  · rw [byteLength_append, Nat.add_comm]
  · simp only [byteLength_append]
    omega

end Text

end SourceMask
