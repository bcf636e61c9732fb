import Mathlib.Data.Finset.Card
import Mathlib.Data.List.Induction
import SourceMask.Proofs.Names.Recorded

/-!
# Tables as registers

A table that grows by insertions is a register of what has been inserted.  It lists the different
pairs of a role and a name in the order in which they first occurred, numbers the names of each
numbered role on their own, and answers for a recorded name with its first placeholder for good.

Four facts carry this along a sequence of insertions.  Every recorded name has some text, no pair
is recorded twice, the counter of each numbered role is the number of its entries, and the
placeholder of the entry that is the `index`-th of its role has that index.

Main results:

- Theorem `isCounted_insert`: the counters stay in step with the entries.
- Theorem `isNumbered_insert`: every insertion keeps the four facts.
- Theorem `pairs_insertAll`: the pairs are listed by their first occurrence.
- Theorem `get?_insertAll_of_get?`: a placeholder stays for good.
- Theorem `isRegisterOf_insertAll`: after any insertions a table is their register.
-/

namespace SourceMask

/-! ## Placeholders of numbered roles -/

/-- The placeholders of a numbered role differ in their decimal index. -/
theorem Role.placeholder_injective {role : Role} (h : role.isNumbered = true) :
    Function.Injective role.placeholder := by
  intro first second hsame
  simp only [placeholder, h, if_true, List.append_cancel_right_eq, List.append_cancel_left_eq]
    at hsame
  calc
    first = Nat.ofDigitChars 10 (Nat.toDigits 10 first) 0 := Nat.ofDigitChars_ten_toDigits.symm
    _ = Nat.ofDigitChars 10 (Nat.toDigits 10 second) 0 := by rw [hsame]
    _ = second := Nat.ofDigitChars_ten_toDigits

/-- The names of the other roles share one placeholder, whatever the index. -/
theorem Role.placeholder_of_not_isNumbered {role : Role} (h : role.isNumbered = false)
    (index : Nat) : role.placeholder index = role.stem ++ ['_'] := by
  simp [placeholder, h]

namespace NameTable

variable {table : NameTable} {role : Role} {name : Text}

/-! ## Pairs -/

/-- The recorded pairs of a role and a name, in the order in which they are listed. -/
def pairs (table : NameTable) : List (Role × Text) :=
  table.entries.map fun entry => (entry.role, entry.name)

/-- The different pairs with some text in the name, in the order in which they first occur. -/
def firstOccurrences (calls : List (Role × Text)) : List (Role × Text) :=
  (calls.filter fun call => call.2 ≠ []).eraseDups

/-- The names that stand in pairs with a role. -/
def namesIn (role : Role) (pairs : List (Role × Text)) : List Text :=
  (pairs.filter fun pair => pair.1 = role).map Prod.snd

theorem mem_firstOccurrences {calls : List (Role × Text)} {pair : Role × Text} :
    pair ∈ firstOccurrences calls ↔ pair ∈ calls ∧ pair.2 ≠ [] := by
  simp [firstOccurrences, List.mem_eraseDups]

/-- One more pair is listed at the end, unless its name is empty or it is listed already. -/
theorem firstOccurrences_concat (calls : List (Role × Text)) (role : Role) (name : Text) :
    firstOccurrences (calls ++ [(role, name)]) =
      if name = [] ∨ (role, name) ∈ firstOccurrences calls then firstOccurrences calls
      else firstOccurrences calls ++ [(role, name)] := by
  rw [firstOccurrences, List.filter_append, List.eraseDups_append, ← firstOccurrences]
  by_cases hname : name = []
  · simp [hname]
  · by_cases hmem : (role, name) ∈ calls
    · simp [hname, hmem, List.removeAll, mem_firstOccurrences]
    · simp [hname, hmem, List.removeAll, mem_firstOccurrences, List.eraseDups_cons]

/-- The names of a role are those of its entries. -/
theorem namesIn_pairs (table : NameTable) (role : Role) :
    namesIn role table.pairs = (table.ofRole role).map (·.name) := by
  rw [namesIn, pairs, List.filter_map, List.map_map]
  rfl

/-- A name has a placeholder in a role exactly when the pair is recorded. -/
theorem isSome_get?_iff : (table.get? role name).isSome = true ↔ (role, name) ∈ table.pairs := by
  simp [get?, pairs, List.find?_isSome, and_comm]

/-! ## One insertion -/

/-- An insertion changes nothing, or adds one entry at the end and takes the next number of its
role. -/
theorem insert_cases (table : NameTable) (role : Role) (name : Text) :
    ((name = [] ∨ (role, name) ∈ table.pairs) ∧ (table.insert role name).2 = table) ∨
      (name ≠ [] ∧ (role, name) ∉ table.pairs ∧
        (table.insert role name).2 =
          ⟨table.entries ++ [⟨role, name, role.placeholder (table.counters.next role)⟩],
            table.counters.increment role⟩) := by
  by_cases hname : name = []
  · exact .inl ⟨.inl hname, by rw [hname, insert_nil]⟩
  · cases hget : table.get? role name with
    | some placeholder =>
      have hmem : (role, name) ∈ table.pairs := isSome_get?_iff.mp (by rw [hget]; rfl)
      exact .inl ⟨.inr hmem, by rw [insert_of_get? hname hget]⟩
    | none =>
      have hmem : (role, name) ∉ table.pairs := by
        rw [← isSome_get?_iff, hget]
        exact Bool.false_ne_true
      exact .inr ⟨hname, hmem, by rw [insert_of_get?_eq_none hname hget]⟩

/-- An insertion lists its pair at the end, unless the name is empty or the pair is listed. -/
theorem pairs_insert (table : NameTable) (role : Role) (name : Text) :
    (table.insert role name).2.pairs =
      if name = [] ∨ (role, name) ∈ table.pairs then table.pairs
      else table.pairs ++ [(role, name)] := by
  rcases table.insert_cases role name with ⟨hold, hinsert⟩ | ⟨hname, hmem, hinsert⟩
  · rw [hinsert, if_pos hold]
  · rw [hinsert, if_neg (not_or.mpr ⟨hname, hmem⟩)]
    simp [pairs]

/-- No insertion changes the placeholder of a recorded name. -/
theorem get?_insert_of_get? {placeholder : Text} (h : table.get? role name = some placeholder)
    (role' : Role) (name' : Text) :
    (table.insert role' name').2.get? role name = some placeholder := by
  rcases table.insert_cases role' name' with ⟨-, hinsert⟩ | ⟨-, -, hinsert⟩
  · rw [hinsert, h]
  · rw [get?, Option.map_eq_some_iff] at h ⊢
    rcases h with ⟨entry, hfind, hentry⟩
    rw [hinsert]
    exact ⟨entry, by simp [List.find?_append, hfind], hentry⟩

/-- The insertion of a name answers a placeholder. -/
theorem exists_insert_eq_some (table : NameTable) (role : Role) (hname : name ≠ []) :
    ∃ placeholder, (table.insert role name).1 = some placeholder := by
  cases hget : table.get? role name with
  | some placeholder => exact ⟨placeholder, by rw [insert_of_get? hname hget]⟩
  | none => exact ⟨_, by rw [insert_of_get?_eq_none hname hget]⟩

/-- A new entry goes to the end of the entries of its role. -/
theorem ofRole_concat (table : NameTable) (entry : NameEntry) (counters : RoleCounters)
    (role : Role) :
    (⟨table.entries ++ [entry], counters⟩ : NameTable).ofRole role =
      if entry.role = role then table.ofRole role ++ [entry] else table.ofRole role := by
  by_cases hrole : entry.role = role <;> simp [ofRole, hrole]

/-! ## Counters -/

/-- Whether the counter of each numbered role is the number of its entries. -/
def IsCounted (table : NameTable) : Prop :=
  ∀ role, role.isNumbered = true → table.counters.next role = (table.ofRole role).length

theorem isCounted_empty : IsCounted .empty := by
  intro role hrole
  cases role <;> rfl

/-- An insertion moves the counter of a role if it adds an entry of that role, and no other one. -/
theorem isCounted_insert (h : table.IsCounted) (role : Role) (name : Text) :
    (table.insert role name).2.IsCounted := by
  rcases table.insert_cases role name with ⟨-, hinsert⟩ | ⟨-, -, hinsert⟩
  · rw [hinsert]
    exact h
  · intro other hother
    rw [hinsert, ofRole_concat, RoleCounters.next_increment, h other hother]
    by_cases hsame : role = other
    · subst hsame
      rw [if_pos ⟨hother, rfl⟩, if_pos rfl, List.length_append, List.length_singleton]
    · rw [if_neg fun hboth => hsame hboth.2, if_neg hsame]

/-- The placeholder of a new name has the number of the entries of its role. -/
theorem placeholder_next (h : table.IsCounted) (role : Role) :
    role.placeholder (table.counters.next role) =
      role.placeholder (table.ofRole role).length := by
  cases hrole : role.isNumbered with
  | true => rw [h role hrole]
  | false =>
    rw [Role.placeholder_of_not_isNumbered hrole, Role.placeholder_of_not_isNumbered hrole]

/-! ## What insertions keep -/

/-- Every recorded name has some text, no pair is recorded twice, the counters are the numbers of
entries, and the entries of each role have the placeholders of their places among them. -/
structure IsNumbered (table : NameTable) : Prop where
  named : ∀ entry ∈ table.entries, entry.name ≠ []
  nodup : table.pairs.Nodup
  counted : table.IsCounted
  placed : ∀ (role : Role) (index : Nat) (entry : NameEntry),
    (table.ofRole role)[index]? = some entry → entry.placeholder = role.placeholder index

theorem isNumbered_empty : IsNumbered .empty where
  named := by simp [empty]
  nodup := by simp [empty, pairs]
  counted := isCounted_empty
  placed := by simp [empty, ofRole]

/-- Every insertion keeps the four facts. -/
theorem isNumbered_insert (h : table.IsNumbered) (role : Role) (name : Text) :
    (table.insert role name).2.IsNumbered := by
  have hcounted := isCounted_insert h.counted role name
  rcases table.insert_cases role name with ⟨-, hinsert⟩ | ⟨hname, hmem, hinsert⟩
  · rw [hinsert]
    exact h
  · refine ⟨?_, ?_, hcounted, ?_⟩
    · intro entry hentry
      rw [hinsert] at hentry
      rcases List.mem_append.mp hentry with hentry | hentry
      · exact h.named entry hentry
      · rw [List.mem_singleton.mp hentry]
        exact hname
    · rw [pairs_insert, if_neg (not_or.mpr ⟨hname, hmem⟩), ← List.concat_eq_append]
      exact h.nodup.concat hmem
    · intro other index entry hentry
      rw [hinsert, ofRole_concat] at hentry
      split at hentry
      · rename_i hrole
        subst hrole
        -- The new entry is the last one of its role, so its index is the number of the old ones.
        rcases Nat.lt_trichotomy index (table.ofRole role).length with hlt | rfl | hgt
        · rw [List.getElem?_append_left hlt] at hentry
          exact h.placed role index entry hentry
        · rw [List.getElem?_concat_length] at hentry
          cases hentry
          exact placeholder_next h.counted role
        · rw [List.getElem?_eq_none (by rw [List.length_append]; exact hgt)] at hentry
          cases hentry
      · exact h.placed other index entry hentry

/-! ## Sequences of insertions -/

/-- Record names one after the other. -/
def insertAll (table : NameTable) (calls : List (Role × Text)) : NameTable :=
  calls.foldl (fun table call => (table.insert call.1 call.2).2) table

theorem insertAll_cons (table : NameTable) (role : Role) (name : Text)
    (calls : List (Role × Text)) :
    table.insertAll ((role, name) :: calls) = (table.insert role name).2.insertAll calls := rfl

theorem insertAll_concat (table : NameTable) (calls : List (Role × Text)) (role : Role)
    (name : Text) :
    table.insertAll (calls ++ [(role, name)]) = ((table.insertAll calls).insert role name).2 := by
  simp [insertAll]

/-- What every insertion keeps is kept by sequences of them. -/
theorem insertAll_induction {P : NameTable → Prop} (h : P table)
    (hinsert : ∀ table role name, P table → P (table.insert role name).2)
    (calls : List (Role × Text)) : P (table.insertAll calls) := by
  induction calls generalizing table with
  | nil => exact h
  | cons call rest ih => exact ih (hinsert table call.1 call.2 h)

theorem isNumbered_insertAll (calls : List (Role × Text)) : (empty.insertAll calls).IsNumbered :=
  insertAll_induction isNumbered_empty (fun _ role name h => isNumbered_insert h role name) calls

/-- A placeholder stays for good. -/
theorem get?_insertAll_of_get? {placeholder : Text} (h : table.get? role name = some placeholder)
    (calls : List (Role × Text)) : (table.insertAll calls).get? role name = some placeholder :=
  insertAll_induction (P := fun table => table.get? role name = some placeholder) h
    (fun _ role' name' h => get?_insert_of_get? h role' name') calls

/-- The pairs are listed by their first occurrence. -/
theorem pairs_insertAll (calls : List (Role × Text)) :
    (empty.insertAll calls).pairs = firstOccurrences calls := by
  induction calls using List.reverseRecOn with
  | nil => rfl
  | append_singleton calls call ih =>
    rcases call with ⟨role, name⟩
    rw [insertAll_concat, pairs_insert, firstOccurrences_concat, ih]

/-! ## Look-up -/

/-- As no pair is recorded twice, looking up the pair of an entry finds its placeholder. -/
theorem get?_of_mem (h : table.pairs.Nodup) {entry : NameEntry} (hentry : entry ∈ table.entries) :
    table.get? entry.role entry.name = some entry.placeholder := by
  have hmem : (entry.role, entry.name) ∈ table.pairs := List.mem_map_of_mem hentry
  rcases Option.isSome_iff_exists.mp (isSome_get?_iff.mpr hmem) with ⟨placeholder, hget⟩
  rw [hget]
  rcases exists_entry_of_get? hget with ⟨found, hfound, hrole, hname, rfl⟩
  have hsame : found = entry := List.inj_on_of_nodup_map h hfound hentry (Prod.ext hrole hname)
  rw [hsame]

/-- A recorded name is the one at some place among the names of its role, and its placeholder is
that of the place. -/
theorem exists_index_of_get? (h : table.IsNumbered) {placeholder : Text}
    (hget : table.get? role name = some placeholder) :
    ∃ index, (namesIn role table.pairs)[index]? = some name ∧
      placeholder = role.placeholder index := by
  rcases exists_entry_of_get? hget with ⟨entry, hentry, rfl, rfl, rfl⟩
  have hmem : entry ∈ table.ofRole entry.role :=
    List.mem_filter.mpr ⟨hentry, decide_eq_true rfl⟩
  rcases List.getElem?_of_mem hmem with ⟨index, hindex⟩
  refine ⟨index, ?_, h.placed entry.role index entry hindex⟩
  rw [namesIn_pairs, List.getElem?_map, hindex]
  rfl

/-- The name at some place among the names of its role has the placeholder of that place. -/
theorem get?_of_index (h : table.IsNumbered) {index : Nat}
    (hindex : (namesIn role table.pairs)[index]? = some name) :
    table.get? role name = some (role.placeholder index) := by
  rw [namesIn_pairs, List.getElem?_map, Option.map_eq_some_iff] at hindex
  rcases hindex with ⟨entry, hentry, rfl⟩
  have hmem := List.mem_filter.mp (List.mem_of_getElem? hentry)
  have hrole : entry.role = role := of_decide_eq_true hmem.2
  rw [← h.placed role index entry hentry, ← hrole]
  exact get?_of_mem h.nodup hmem.1

/-- What an insertion answers is found from then on.  Every later insertion of the same pair answers
it again and changes nothing. -/
theorem exists_kept (table : NameTable) (role : Role) (hname : name ≠ [])
    (later : List (Role × Text)) :
    ∃ placeholder, (table.insert role name).1 = some placeholder ∧
      (table.insertAll ((role, name) :: later)).get? role name = some placeholder ∧
      (table.insertAll ((role, name) :: later)).insert role name =
        (some placeholder, table.insertAll ((role, name) :: later)) := by
  rcases table.exists_insert_eq_some role hname with ⟨placeholder, hanswer⟩
  have hfirst : (table.insert role name).2.get? role name = some placeholder := by
    rw [get?_insert_self hname, hanswer]
  have hlater := get?_insertAll_of_get? hfirst later
  rw [← insertAll_cons] at hlater
  exact ⟨placeholder, hanswer, hlater, insert_of_get? hname hlater⟩

/-! ## The register -/

/-- What a table tells about the insertions that made it. -/
structure IsRegisterOf (calls : List (Role × Text)) (table : NameTable) : Prop where
  /-- No pair is recorded twice. -/
  nodup : table.pairs.Nodup
  /-- The pairs are listed by their first insertion. -/
  pairs_eq : table.pairs = firstOccurrences calls
  /-- There are as many entries as different pairs with some text in the name. -/
  size_eq : table.size = (calls.filter fun call => call.2 ≠ []).toFinset.card
  /-- The counter of a numbered role is the number of its different names. -/
  counted : ∀ role, role.isNumbered = true →
    table.counters.next role = (namesIn role (firstOccurrences calls)).length
  /-- What is listed for a pair is what is found for it. -/
  listed : ∀ entry ∈ table.entries, table.get? entry.role entry.name = some entry.placeholder
  /-- A placeholder is found for the inserted pairs with some text in the name, and no others. -/
  found_iff : ∀ role name, (table.get? role name).isSome = true ↔ (role, name) ∈ calls ∧ name ≠ []
  /-- The `index`-th different name of a numbered role has the placeholder with that index. -/
  numbered : ∀ role name index, role.isNumbered = true →
    (namesIn role (firstOccurrences calls))[index]? = some name →
      table.get? role name = some (role.stem ++ Nat.toDigits 10 index ++ ['_'])
  /-- Different names of a numbered role have different placeholders. -/
  distinct : ∀ role name name' placeholder, role.isNumbered = true →
    table.get? role name = some placeholder → table.get? role name' = some placeholder →
      name = name'
  /-- The names of the other roles have the one placeholder of their role. -/
  fixed : ∀ role name placeholder, role.isNumbered = false →
    table.get? role name = some placeholder → placeholder = role.stem ++ ['_']
  /-- What an insertion answers is found from then on.  Every later insertion of the same pair
  answers it again and changes nothing. -/
  kept : ∀ role name later, name ≠ [] → ∃ placeholder,
    (table.insert role name).1 = some placeholder ∧
      (table.insertAll ((role, name) :: later)).get? role name = some placeholder ∧
      (table.insertAll ((role, name) :: later)).insert role name =
        (some placeholder, table.insertAll ((role, name) :: later))
  /-- An insertion of the empty name answers nothing and changes nothing. -/
  unnamed : ∀ role, table.insert role [] = (none, table)

/-- After any sequence of insertions a table is the register of the sequence. -/
theorem isRegisterOf_insertAll (calls : List (Role × Text)) :
    IsRegisterOf calls (empty.insertAll calls) := by
  have hnumbered := isNumbered_insertAll calls
  have hpairs := pairs_insertAll calls
  refine ⟨hnumbered.nodup, hpairs, ?_, ?_, fun _ => get?_of_mem hnumbered.nodup, ?_, ?_, ?_, ?_,
    ?_, insert_nil _⟩
  · have hset : (calls.filter fun call => call.2 ≠ []).toFinset =
        (empty.insertAll calls).pairs.toFinset := by
      ext pair
      rw [hpairs, List.mem_toFinset, List.mem_toFinset, firstOccurrences, List.mem_eraseDups]
    rw [hset, List.toFinset_card_of_nodup hnumbered.nodup, pairs, List.length_map, size]
  · intro role hrole
    rw [← hpairs, namesIn_pairs, List.length_map]
    exact hnumbered.counted role hrole
  · intro role name
    rw [isSome_get?_iff, hpairs, mem_firstOccurrences]
  · intro role name index hrole hindex
    rw [← hpairs] at hindex
    rw [get?_of_index hnumbered hindex, Role.placeholder, hrole, if_pos rfl]
  · intro role name name' placeholder hrole hget hget'
    rcases exists_index_of_get? hnumbered hget with ⟨index, hindex, rfl⟩
    rcases exists_index_of_get? hnumbered hget' with ⟨index', hindex', hsame⟩
    rw [Role.placeholder_injective hrole hsame, hindex'] at hindex
    exact (Option.some.inj hindex).symm
  · intro role name placeholder hrole hget
    rcases exists_index_of_get? hnumbered hget with ⟨index, -, rfl⟩
    exact Role.placeholder_of_not_isNumbered hrole index
  · exact fun role _ later hname => exists_kept _ role hname later

/-- Repeats, an empty name and one name in two roles: both numbered roles start from zero, and the
name of a method does not count. -/
example : (empty.insertAll [(.variableName, ['b']), (.methodName, ['b']), (.variableName, []),
      (.variableName, ['a']), (.variableName, ['b']), (.propertyName, ['a'])]).entries =
    [⟨.variableName, ['b'], "_variable0_".toList⟩, ⟨.methodName, ['b'], "_method_".toList⟩,
      ⟨.variableName, ['a'], "_variable1_".toList⟩,
      ⟨.propertyName, ['a'], "_property0_".toList⟩] := by
  decide +kernel

end NameTable

end SourceMask
