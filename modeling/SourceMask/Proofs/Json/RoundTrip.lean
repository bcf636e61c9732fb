import SourceMask.Json.Printer
import SourceMask.Json.Reader
import SourceMask.Proofs.Json.Quoted

/-!
# Reading indented documents back

Data that is made of texts, lists and records only is read back from its indented form, whatever
follows it.  The line breaks and blanks of the layout stand only where the reader skips them, and
the first character of a value is never one of them and never a closing bracket.

A reader carries a number that bounds how far it reads.  The length of what was written for a value
is always enough for it, because each step down into the value goes past at least one character.

Main results:

- Theorem `readsBack_indented`: an indented value is read back, and what follows it is left.
- Theorem `read?_pretty`: a document is read back.
-/

namespace SourceMask

namespace Data

mutual

/-- Whether data is made of texts, lists and records only. -/
def isTextual : Data → Bool
  | text _ => true
  | list items => areTextual items
  | record fields => haveTextual fields
  | null | flag _ | integer _ | decimal _ | moment _ => false

/-- Whether all items of a list are made of texts, lists and records only. -/
def areTextual : List Data → Bool
  | [] => true
  | item :: items => isTextual item && areTextual items

/-- Whether the values of all fields are made of texts, lists and records only. -/
def haveTextual : List (Text × Data) → Bool
  | [] => true
  | (_, value) :: fields => isTextual value && haveTextual fields

end

end Data

namespace Json

/-! ## Blanks -/

theorem skipBlanks_cons_of_not {c : Char} (h : isSeparator c = false) (rest : Text) :
    skipBlanks (c :: rest) = c :: rest := by
  simp [skipBlanks, h]

/-- The blanks at the start of a line are skipped. -/
theorem skipBlanks_lineStart (depth : Nat) (text : Text) :
    skipBlanks (lineStart depth ++ text) = skipBlanks text := by
  have hblank : ∀ c ∈ lineStart depth, isSeparator c = true := by
    intro c hc
    rcases List.mem_cons.mp hc with rfl | hc
    · rfl
    · rw [List.eq_of_mem_replicate hc]
      rfl
  rw [skipBlanks, List.dropWhile_append_of_pos hblank, skipBlanks]

/-- Blanks in front of a value do not matter. -/
theorem readValue?_congr {text text' : Text} (h : skipBlanks text = skipBlanks text') (n : Nat) :
    readValue? n text = readValue? n text' := by
  cases n with
  | zero => simp only [readValue?]
  | succ n => simp only [readValue?, h]

/-- Blanks in front of a field do not matter. -/
theorem readFields?_congr {text text' : Text} (h : skipBlanks text = skipBlanks text') (n : Nat) :
    readFields? n text = readFields? n text' := by
  cases n with
  | zero => simp only [readFields?]
  | succ n => simp only [readFields?, h]

/-! ## One step of a reader -/

/-- A quoted text is read as that text. -/
theorem readValue?_quote (n : Nat) (value rest : Text) :
    readValue? (n + 1) (quote value ++ rest) = some (.text value, rest) := by
  have hskip : skipBlanks (quote value ++ rest) = '"' :: (encode value ++ '"' :: rest) := by
    rw [quote, List.cons_append, skipBlanks_cons_of_not rfl, List.append_assoc,
      List.singleton_append]
  simp only [readValue?, hskip, if_true, decode?_encode, Option.map_some]

theorem readValue?_list_nil (n : Nat) (rest : Text) :
    readValue? (n + 1) ('[' :: ']' :: rest) = some (.list [], rest) := by
  simp [readValue?, skipBlanks_cons_of_not, isSeparator]

theorem readValue?_record_nil (n : Nat) (rest : Text) :
    readValue? (n + 1) ('\x7b' :: '\x7d' :: rest) = some (.record [], rest) := by
  simp [readValue?, skipBlanks_cons_of_not, isSeparator]

/-- Behind an opening bracket items are read, unless the list is closed at once. -/
theorem readValue?_list {n : Nat} {text : Text} (h : (skipBlanks text).head? ≠ some ']') :
    readValue? (n + 1) ('[' :: text) =
      (readItems? n text).map fun (items, after) => (.list items, after) := by
  rw [readValue?, skipBlanks_cons_of_not rfl]
  simp only [Char.reduceEq, if_false, if_true]
  split
  · rename_i hclosed
    simp [hclosed] at h
  · rfl

/-- Behind an opening brace fields are read, unless the record is closed at once. -/
theorem readValue?_record {n : Nat} {text : Text} (h : (skipBlanks text).head? ≠ some '\x7d') :
    readValue? (n + 1) ('\x7b' :: text) =
      (readFields? n text).map fun (fields, after) => (.record fields, after) := by
  rw [readValue?, skipBlanks_cons_of_not rfl]
  simp only [Char.reduceEq, if_false, if_true]
  split
  · rename_i hclosed
    simp [hclosed] at h
  · rfl

/-- An item in front of the closing bracket is the last one. -/
theorem readItems?_last {n : Nat} {text after : Text} {item : Data} (depth : Nat)
    (h : readValue? n text = some (item, lineStart depth ++ ']' :: after)) :
    readItems? (n + 1) text = some ([item], after) := by
  have hskip : skipBlanks (lineStart depth ++ ']' :: after) = ']' :: after := by
    rw [skipBlanks_lineStart, skipBlanks_cons_of_not rfl]
  simp only [readItems?, h, hskip]

/-- Behind an item and a comma more items are read. -/
theorem readItems?_more {n : Nat} {text rest : Text} {item : Data}
    (h : readValue? n text = some (item, ',' :: rest)) :
    readItems? (n + 1) text =
      (readItems? n rest).map fun (items, after) => (item :: items, after) := by
  simp only [readItems?, h, skipBlanks_cons_of_not (c := ',') rfl]

/-- The key of a field and the colon behind it are read in front of the value, and a field in front
of the closing brace is the last one. -/
theorem readFields?_last {n : Nat} {key rest after : Text} {value : Data} (depth : Nat)
    (h : readValue? n rest = some (value, lineStart depth ++ '\x7d' :: after)) :
    readFields? (n + 1) (quote key ++ ':' :: rest) = some ([(key, value)], after) := by
  have hskip : skipBlanks (lineStart depth ++ '\x7d' :: after) = '\x7d' :: after := by
    rw [skipBlanks_lineStart, skipBlanks_cons_of_not rfl]
  simp only [readFields?, quote, List.cons_append, List.append_assoc, List.nil_append,
    skipBlanks_cons_of_not (c := '"') rfl, decode?_encode, skipBlanks_cons_of_not (c := ':') rfl,
    h, hskip]

/-- Behind a field and a comma more fields are read. -/
theorem readFields?_more {n : Nat} {key rest later : Text} {value : Data}
    (h : readValue? n rest = some (value, ',' :: later)) :
    readFields? (n + 1) (quote key ++ ':' :: rest) =
      (readFields? n later).map fun (fields, after) => ((key, value) :: fields, after) := by
  simp only [readFields?, quote, List.cons_append, List.append_assoc, List.nil_append,
    skipBlanks_cons_of_not (c := '"') rfl, decode?_encode, skipBlanks_cons_of_not (c := ':') rfl,
    h, skipBlanks_cons_of_not (c := ',') rfl]

/-! ## Whole values -/

/-- The indented form of a value starts with a character that is no blank and closes nothing. -/
theorem exists_indented_eq_cons {data : Data} (h : data.isTextual = true) (depth : Nat) :
    ∃ c rest, indented depth data = c :: rest ∧ isSeparator c = false ∧ c ≠ ']' := by
  cases data with
  | text value => exact ⟨'"', _, rfl, rfl, by decide⟩
  | list items =>
    cases items with
    | nil => exact ⟨'[', _, rfl, rfl, by decide⟩
    | cons item items => exact ⟨'[', _, rfl, rfl, by decide⟩
  | record fields =>
    cases fields with
    | nil => exact ⟨'\x7b', _, rfl, rfl, by decide⟩
    | cons field fields => exact ⟨'\x7b', _, rfl, rfl, by decide⟩
  | null => cases h
  | flag value => cases h
  | integer value => cases h
  | decimal written => cases h
  | moment written => cases h

/-- A value is read back from its indented form at some depth, whatever follows it, if the number of
steps is at least the length of that form. -/
def ReadsBack (depth : Nat) (data : Data) : Prop :=
  ∀ n rest, (indented depth data).length ≤ n →
    readValue? n (indented depth data ++ rest) = some (data, rest)

/-- A value that is read back is also read behind the blanks of its line. -/
theorem ReadsBack.behind_lineStart {depth : Nat} {data : Data} (h : ReadsBack depth data)
    {n : Nat} (hn : (indented depth data).length ≤ n) (outer : Nat) (rest : Text) :
    readValue? n (lineStart outer ++ (indented depth data ++ rest)) = some (data, rest) := by
  rw [readValue?_congr (skipBlanks_lineStart outer _)]
  exact h n rest hn

/-- A value that is read back is also read behind the blank of its field. -/
theorem ReadsBack.behind_blank {depth : Nat} {data : Data} (h : ReadsBack depth data) {n : Nat}
    (hn : (indented depth data).length ≤ n) (rest : Text) :
    readValue? n (' ' :: (indented depth data ++ rest)) = some (data, rest) := by
  have hskip : skipBlanks (' ' :: (indented depth data ++ rest)) =
      skipBlanks (indented depth data ++ rest) := by
    simp [skipBlanks, isSeparator]
  rw [readValue?_congr hskip]
  exact h n rest hn

mutual

/-- An indented value is read back, and what follows it is left. -/
theorem readsBack_indented : ∀ (data : Data) (depth : Nat), data.isTextual = true →
    ReadsBack depth data
  | .text value, depth, _, n, rest, hn => by
    obtain ⟨n, rfl⟩ : ∃ m, n = m + 1 := ⟨n - 1, by simp [indented, scalarText, quote] at hn; omega⟩
    exact readValue?_quote n value rest
  | .list [], depth, _, n, rest, hn => by
    obtain ⟨n, rfl⟩ : ∃ m, n = m + 1 := ⟨n - 1, by simp [indented, scalarText] at hn; omega⟩
    exact readValue?_list_nil n rest
  | .list (item :: items), depth, h, n, rest, hn => by
    rw [Data.isTextual, Data.areTextual, Bool.and_eq_true] at h
    rw [indented, List.length_cons, List.length_append, List.length_append] at hn
    obtain ⟨n, rfl⟩ : ∃ m, n = m + 1 := ⟨n - 1, by omega⟩
    have hitem := readsBack_indented item (depth + 1) h.1
    have hread := readItems?_indentedItems items depth h.2 item hitem n rest (by omega)
    obtain ⟨c, after, hstart, hblank, hclose⟩ := exists_indented_eq_cons h.1 (depth + 1)
    rw [indented, List.cons_append, List.append_assoc, readValue?_list, hread, Option.map_some]
    rw [skipBlanks_lineStart, hstart, List.cons_append, List.cons_append,
      skipBlanks_cons_of_not hblank]
    simpa using hclose
  | .record [], depth, _, n, rest, hn => by
    obtain ⟨n, rfl⟩ : ∃ m, n = m + 1 := ⟨n - 1, by simp [indented, scalarText] at hn; omega⟩
    exact readValue?_record_nil n rest
  | .record ((key, value) :: fields), depth, h, n, rest, hn => by
    rw [Data.isTextual, Data.haveTextual, Bool.and_eq_true] at h
    simp only [indented, List.length_cons, List.length_append] at hn
    obtain ⟨n, rfl⟩ : ∃ m, n = m + 1 := ⟨n - 1, by omega⟩
    have hvalue := readsBack_indented value (depth + 1) h.1
    have hread := readFields?_indentedFields fields depth h.2 key value hvalue n rest (by omega)
    rw [indented, List.cons_append, List.append_assoc, readValue?_record, hread, Option.map_some]
    rw [skipBlanks_lineStart, quote, List.append_assoc, List.cons_append,
      skipBlanks_cons_of_not rfl]
    simp

/-- The items of a list are read back, given that the first one is. -/
theorem readItems?_indentedItems : ∀ (items : List Data) (depth : Nat),
    Data.areTextual items = true → ∀ item, ReadsBack (depth + 1) item →
      ∀ n rest, (indented (depth + 1) item).length + (indentedItems depth items).length ≤ n →
        readItems? n (lineStart (depth + 1) ++
          (indented (depth + 1) item ++ indentedItems depth items ++ rest)) =
            some (item :: items, rest)
  | [], depth, _, item, hitem, n, rest, hn => by
    rw [indentedItems, List.length_append, List.length_singleton] at hn
    obtain ⟨n, rfl⟩ : ∃ m, n = m + 1 := ⟨n - 1, by omega⟩
    rw [indentedItems, List.append_assoc, List.append_assoc, List.singleton_append]
    exact readItems?_last depth (hitem.behind_lineStart (by omega) (depth + 1) _)
  | next :: items, depth, h, item, hitem, n, rest, hn => by
    rw [Data.areTextual, Bool.and_eq_true] at h
    simp only [indentedItems, List.length_cons, List.length_append] at hn
    obtain ⟨n, rfl⟩ : ∃ m, n = m + 1 := ⟨n - 1, by omega⟩
    have hnext := readsBack_indented next (depth + 1) h.1
    have hread := readItems?_indentedItems items depth h.2 next hnext n rest (by omega)
    rw [indentedItems, List.append_assoc, List.cons_append, List.append_assoc,
      readItems?_more (hitem.behind_lineStart (by omega) (depth + 1) _), hread]
    rfl

/-- The fields of a record are read back, given that the value of the first one is. -/
theorem readFields?_indentedFields : ∀ (fields : List (Text × Data)) (depth : Nat),
    Data.haveTextual fields = true → ∀ key value, ReadsBack (depth + 1) value →
      ∀ n rest, (indented (depth + 1) value).length + (indentedFields depth fields).length ≤ n →
        readFields? n (lineStart (depth + 1) ++ (quote key ++ ':' :: ' ' ::
          (indented (depth + 1) value ++ indentedFields depth fields) ++ rest)) =
            some ((key, value) :: fields, rest)
  | [], depth, _, key, value, hvalue, n, rest, hn => by
    rw [indentedFields, List.length_append, List.length_singleton] at hn
    obtain ⟨n, rfl⟩ : ∃ m, n = m + 1 := ⟨n - 1, by omega⟩
    rw [readFields?_congr (skipBlanks_lineStart _ _), indentedFields]
    simp only [List.append_assoc, List.cons_append, List.nil_append]
    exact readFields?_last depth (hvalue.behind_blank (by omega) _)
  | (nextKey, next) :: fields, depth, h, key, value, hvalue, n, rest, hn => by
    rw [Data.haveTextual, Bool.and_eq_true] at h
    simp only [indentedFields, List.length_cons, List.length_append] at hn
    obtain ⟨n, rfl⟩ : ∃ m, n = m + 1 := ⟨n - 1, by omega⟩
    have hnext := readsBack_indented next (depth + 1) h.1
    have hread := readFields?_indentedFields fields depth h.2 nextKey next hnext n rest (by omega)
    rw [readFields?_congr (skipBlanks_lineStart _ _), indentedFields]
    simp only [List.append_assoc, List.cons_append] at hread ⊢
    rw [readFields?_more (hvalue.behind_blank (by omega) _), hread]
    rfl

end

/-- A document is read back. -/
theorem read?_pretty {data : Data} (h : data.isTextual = true) :
    read? (pretty data) = some data := by
  have hread : readValue? ((pretty data).length + 1) (pretty data ++ []) = some (data, []) :=
    readsBack_indented data 0 h _ [] (Nat.le_succ _)
  rw [List.append_nil] at hread
  rw [read?, hread]
  rfl

end Json

end SourceMask
