import SourceMask.Proofs.Text.Cut

/-!
# Exchanging byte ranges from left to right

Items that claim byte ranges of a text stand in a list.  The text is read once from left to right:
what stands in front of the next range is kept, what stands in the range gives way to another text,
and after the last range the rest is kept.  What may be written for a range is told by a relation
between the item, the text in its range, and the new text.

The reading starts at a byte offset, so that a text can be cut into parts that are read one after
the other.

Main results:

- Theorem `Exchanges.append`: two texts read one after the other are read as one.
- Theorem `Exchanges.map`: a reading is moved to another offset together with its items.
- Theorem `Exchanges.exists_of_follow`: items whose ranges fit a text and follow one another can be
  read from left to right.
- Theorem `Exchanges.unique`: if every range determines what is written for it, then the result is
  determined.
-/

namespace SourceMask

namespace Text

variable {α β : Type} {start stop : α → Nat} {writes : α → Text → Text → Prop}

/-- A text that begins at a byte offset, read from left to right with the ranges of some items
exchanged, gives a result. -/
inductive Exchanges (start stop : α → Nat) (writes : α → Text → Text → Prop) :
    Nat → Text → List α → Text → Prop
  /-- Behind the last range the text is kept. -/
  | done (offset : Nat) (text : Text) : Exchanges start stop writes offset text [] text
  /-- The gap in front of the next range is kept, and the slice in the range is exchanged. -/
  | step {offset : Nat} {gap slice rest piece result : Text} {item : α} {items : List α}
      (hstart : start item = offset + byteLength gap)
      (hstop : stop item = start item + byteLength slice)
      (hwrites : writes item slice piece)
      (hrest : Exchanges start stop writes (stop item) rest items result) :
      Exchanges start stop writes offset (gap ++ slice ++ rest) (item :: items)
        (gap ++ piece ++ result)

namespace Exchanges

/-! ## Parts and wholes -/

/-- A beginning in front of all ranges is kept. -/
theorem extend {offset : Nat} {text result : Text} {items : List α} (front : Text)
    (h : Exchanges start stop writes (offset + byteLength front) text items result) :
    Exchanges start stop writes offset (front ++ text) items (front ++ result) := by
  cases h with
  | done => exact done offset (front ++ text)
  | @step _ gap slice rest piece result item items hstart hstop hwrites hrest =>
    have hgap : start item = offset + byteLength (front ++ gap) := by
      rw [byteLength_append, hstart, Nat.add_assoc]
    simpa only [List.append_assoc] using step hgap hstop hwrites hrest

/-- Two texts read one after the other are read as one. -/
theorem append {offset : Nat} {first second firstResult secondResult : Text}
    {firstItems secondItems : List α}
    (hfirst : Exchanges start stop writes offset first firstItems firstResult)
    (hsecond : Exchanges start stop writes (offset + byteLength first) second secondItems
      secondResult) :
    Exchanges start stop writes offset (first ++ second) (firstItems ++ secondItems)
      (firstResult ++ secondResult) := by
  induction hfirst with
  | done offset text => exact extend text hsecond
  | @step offset gap slice rest piece result item items hstart hstop hwrites _ ih =>
    have hoffset : offset + byteLength (gap ++ slice ++ rest) = stop item + byteLength rest := by
      simp only [byteLength_append]
      omega
    rw [hoffset] at hsecond
    simpa only [List.append_assoc, List.cons_append] using
      step hstart hstop hwrites (ih hsecond)

/-- A reading is moved to another offset together with its items. -/
theorem map {start' stop' : β → Nat} {writes' : β → Text → Text → Prop} {offset : Nat}
    {text result : Text} {items : List α} (f : α → β) (distance : Nat)
    (hstart : ∀ item ∈ items, start' (f item) = start item + distance)
    (hstop : ∀ item ∈ items, stop' (f item) = stop item + distance)
    (hwrites : ∀ item ∈ items, ∀ slice piece, writes item slice piece →
      writes' (f item) slice piece)
    (h : Exchanges start stop writes offset text items result) :
    Exchanges start' stop' writes' (offset + distance) text (items.map f) result := by
  induction h with
  | done offset text => exact done (offset + distance) text
  | @step offset gap slice rest piece result item items hs hp hw _ ih =>
    have hmem : item ∈ item :: items := List.mem_cons_self
    have hlater : Exchanges start' stop' writes' (stop' (f item)) rest (items.map f) result := by
      rw [hstop item hmem]
      exact ih (fun other hother => hstart other (List.mem_cons_of_mem item hother))
        (fun other hother => hstop other (List.mem_cons_of_mem item hother))
        (fun other hother => hwrites other (List.mem_cons_of_mem item hother))
    refine step ?_ ?_ (hwrites item hmem slice piece hw) hlater
    · rw [hstart item hmem, hs]
      omega
    · rw [hstop item hmem, hp, hstart item hmem]
      omega

/-! ## Results -/

/-- Items whose ranges fit a text and follow one another can be read from left to right, from any
place in front of the first range on. -/
theorem exists_of_follow (before after : Text) {source : Text} {items : List α}
    (hwrites : ∀ item ∈ items, ∀ slice, ∃ piece, writes item slice piece)
    (hfits : ∀ item ∈ items, start item ≤ stop item ∧ isBoundary (start item) source = true ∧
      isBoundary (stop item) source = true)
    (hlow : ∀ item ∈ items, byteLength before ≤ start item)
    (hfollow : items.Pairwise fun first second => stop first ≤ start second)
    (hsource : source = before ++ after) :
    ∃ result, Exchanges start stop writes (byteLength before) after items result := by
  induction items generalizing before after with
  | nil => exact ⟨after, done _ after⟩
  | cons item rest ih =>
    have hmem : item ∈ item :: rest := List.mem_cons_self
    rcases hfits item hmem with ⟨hle, hstart, hstop⟩
    rcases List.pairwise_cons.mp hfollow with ⟨hlater, hrest⟩
    have hfitsRest := fun other hother => hfits other (List.mem_cons_of_mem item hother)
    subst hsource
    rcases exists_gap hstart (hlow item hmem) with ⟨gap, tail, rfl, hgap⟩
    rw [← byteLength_append] at hgap
    rw [← List.append_assoc] at hstop
    rcases exists_gap hstop (hgap ▸ hle) with ⟨slice, later, rfl, hslice⟩
    rcases hwrites item hmem slice with ⟨piece, hpiece⟩
    have hend : stop item = byteLength (before ++ gap ++ slice) := by
      rw [byteLength_append, hslice]
    have hwritesRest : ∀ other ∈ rest, ∀ slice, ∃ piece, writes other slice piece :=
      fun other hother => hwrites other (List.mem_cons_of_mem item hother)
    rcases ih (before ++ gap ++ slice) later hwritesRest hfitsRest (fun other hother =>
      hend ▸ hlater other hother) hrest (by simp only [List.append_assoc]) with ⟨result, hresult⟩
    refine ⟨gap ++ piece ++ result, ?_⟩
    rw [← List.append_assoc]
    refine step ?_ ?_ hpiece (by rwa [hend])
    · rw [hgap, byteLength_append]
    · rw [hslice, hgap]

/-- If every range determines what is written for it, then the result is determined. -/
theorem unique {offset : Nat} {text result : Text} {items : List α}
    (hwrites : ∀ item slice piece piece', writes item slice piece → writes item slice piece' →
      piece = piece')
    (h : Exchanges start stop writes offset text items result) :
    ∀ {result'}, Exchanges start stop writes offset text items result' → result = result' := by
  induction h with
  | done offset text =>
    intro result' h'
    cases h'
    rfl
  | @step offset gap slice rest piece result item items hs hp hw _ ih =>
    intro result' h'
    generalize htext : gap ++ slice ++ rest = text at h'
    cases h' with
    | @step _ gap' slice' rest' piece' result' _ _ hs' hp' hw' hrest' =>
      rw [List.append_assoc, List.append_assoc] at htext
      have hgap : byteLength gap = byteLength gap' := by omega
      rcases append_inj_of_byteLength htext hgap with ⟨rfl, htail⟩
      have hslice : byteLength slice = byteLength slice' := by omega
      rcases append_inj_of_byteLength htail hslice with ⟨rfl, rfl⟩
      rw [hwrites item slice piece piece' hw hw', ih hrest']

end Exchanges

end Text

end SourceMask
