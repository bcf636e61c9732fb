import SourceMask.Store.Access

/-!
# What is written is read

To write or to remove a file changes what stands at one place of a store.  That place holds no
directory, neither before nor afterwards, so every route that leads there still does.  What was
written is found by the path that it was written to, and what was removed is found no more.

Main results:

- Theorem `locate_of_agreesBut`: a route does not depend on what stands at its end, as long as this
  is no directory.
- Theorem `find_of_write`: a file that was written is found, unless a device stands there.
- Theorem `find_of_remove`: a file that was removed is not found.
- Theorem `text_eq_error_iff`: why a file has no text.
-/

namespace SourceMask

/-- A path that ends in no slash has no slashes at its end to be taken away. -/
theorem Path.withoutSlashes_of_getLast? {path : Path} (h : path.getLast? ≠ some slash) :
    path.withoutSlashes = path := by
  rcases path with _ | ⟨c, rest⟩
  · rfl
  · rcases List.eq_nil_or_concat rest with rfl | ⟨front, last, rfl⟩
    · rfl
    · have hlast : last ≠ slash := by
        rintro rfl
        rw [List.concat_eq_append, ← List.cons_append, List.getLast?_concat] at h
        exact h rfl
      simp [withoutSlashes, hlast]

namespace Store

variable {store other after : Store} {location : Location} {path : Path}

/-! ## Changes at one place -/

/-- Whether a store has the working directory of another one, and the same content at every place
but one. -/
structure AgreesBut (store other : Store) (location : Location) : Prop where
  home : other.home = store.home
  content : ∀ place, place ≠ location → other.content? place = store.content? place

theorem agreesBut_put (store : Store) (location : Location) (content : Content) :
    store.AgreesBut (store.put location content) location :=
  ⟨rfl, fun _ hplace => content?_put_of_ne store hplace content⟩

theorem agreesBut_erase (store : Store) (location : Location) :
    store.AgreesBut (store.erase location) location := by
  refine ⟨rfl, fun place hplace => ?_⟩
  rw [content?, content?, erase, lookup_filter_ne hplace]

/-- Where no directory stands, nothing of the way to the working directory stands either. -/
theorem isPrefixOf_home_eq_false (h : store.content? location ≠ some .directory) :
    location.isPrefixOf store.home = false := by
  rw [← Bool.not_eq_true]
  intro hprefix
  rw [content?, if_pos hprefix] at h
  exact h rfl

/-- What is taken away is gone. -/
theorem content?_erase_self (h : store.content? location ≠ some .directory) :
    (store.erase location).content? location = none := by
  have hnone : (store.entries.filter fun entry => entry.1 ≠ location).lookup location = none := by
    rw [List.lookup_eq_none_iff]
    intro entry hentry
    have hne : entry.1 ≠ location := by simpa using (List.mem_filter.mp hentry).2
    simpa using hne.symm
  rw [content?, erase, if_neg (by simp [isPrefixOf_home_eq_false h])]
  exact hnone

/-- Every place that a part of a path can be followed from is a directory. -/
theorem enter_of_agreesBut (h : store.AgreesBut other location)
    (hcontent : store.content? location ≠ some .directory) {here there : Location} {part : Bytes}
    (henter : store.enter here part = .ok there) : other.enter here part = .ok there := by
  unfold enter at henter ⊢
  cases hhere : store.content? here with
  | none =>
    rw [hhere] at henter
    cases henter
  | some content =>
    have hne : here ≠ location := by
      rintro rfl
      rw [hhere] at hcontent henter
      cases content with
      | directory => exact hcontent rfl
      | file bytes => cases henter
      | device device => cases henter
    rw [h.content here hne]
    exact henter

/-- A route does not depend on what stands at one place, as long as this is no directory. -/
theorem follow_of_agreesBut (h : store.AgreesBut other location)
    (hcontent : store.content? location ≠ some .directory) {here there : Location}
    {parts : List Bytes} (hfollow : store.follow here parts = .ok there) :
    other.follow here parts = .ok there := by
  induction parts generalizing here with
  | nil => exact hfollow
  | cons part rest ih =>
    rw [follow, List.foldlM_cons] at hfollow ⊢
    cases hnext : store.enter here part with
    | error fault =>
      rw [hnext] at hfollow
      cases hfollow
    | ok next =>
      rw [hnext] at hfollow
      rw [enter_of_agreesBut h hcontent hnext]
      exact ih hfollow

/-- A path leads to the same place, whatever stands there instead of what is no directory. -/
theorem locate_of_agreesBut (h : store.AgreesBut other location)
    (hcontent : store.content? location ≠ some .directory)
    (hlocate : store.locate path = .ok location) : other.locate path = .ok location := by
  unfold locate at hlocate ⊢
  cases hfault : pathFault? path with
  | some fault =>
    rw [hfault] at hlocate
    cases hlocate
  | none =>
    rw [hfault] at hlocate
    have horigin : other.origin path = store.origin path := by
      rw [origin, origin, h.home]
    rw [horigin]
    exact follow_of_agreesBut h hcontent hlocate

/-- What is found by a path that leads to a place. -/
theorem find_of_locate {content : Content} (hlocate : store.locate path = .ok location)
    (hcontent : store.content? location = some content) : store.find path = .ok content := by
  simp only [find, hlocate, bind, Except.bind, hcontent]

/-! ## Writing and removing -/

/-- A path that leads to a place for a file leads there, and no directory stands there. -/
theorem locate_of_target (h : store.target path = .ok location) :
    store.locate path = .ok location ∧ store.content? location ≠ some .directory := by
  unfold target at h
  cases hlocate : store.locate path.withoutSlashes with
  | error fault =>
    rw [hlocate] at h
    cases h
  | ok there =>
    rw [hlocate] at h
    simp only [bind, Except.bind] at h
    by_cases hslash : path.getLast? = some Path.slash
    · rw [if_pos hslash] at h
      cases h
    · rw [if_neg hslash] at h
      rw [Path.withoutSlashes_of_getLast? hslash] at hlocate
      split at h
      · cases h
      · rename_i hcontent
        cases h
        exact ⟨hlocate, hcontent⟩

/-- A file is put at a place, or a device stands there and takes what is written. -/
theorem fill_cases (store : Store) (location : Location) (bytes : ByteArray) :
    store.fill location bytes = store.put location (.file bytes) ∨
      ∃ device, store.content? location = some (.device device) ∧
        store.fill location bytes = store := by
  unfold fill
  split
  · rename_i device hdevice
    exact .inr ⟨device, hdevice, rfl⟩
  · exact .inl rfl

/-- What is not refused is written to the place that its path leads to. -/
theorem exists_target_of_write {bytes : ByteArray} (h : store.write path bytes = (none, after)) :
    ∃ location, store.target path = .ok location ∧ store.refusal? location bytes = none ∧
      after = store.fill location bytes := by
  unfold write at h
  cases htarget : store.target path with
  | error fault =>
    rw [htarget] at h
    cases h
  | ok location =>
    rw [htarget] at h
    cases hrefusal : store.refusal? location bytes with
    | some refusal =>
      simp only [hrefusal] at h
      cases h
    | none =>
      simp only [hrefusal] at h
      cases h
      exact ⟨location, rfl, hrefusal, rfl⟩

/-- A file that was written is found by its path, unless a device stands there. -/
theorem find_of_write {bytes : ByteArray} (h : store.write path bytes = (none, after)) :
    after.find path = .ok (.file bytes) ∨ ∃ device, after.find path = .ok (.device device) := by
  rcases exists_target_of_write h with ⟨location, htarget, -, rfl⟩
  rcases locate_of_target htarget with ⟨hlocate, hcontent⟩
  rcases fill_cases store location bytes with hfill | ⟨device, hdevice, hfill⟩
  · rw [hfill]
    have hthere := locate_of_agreesBut (agreesBut_put store location (.file bytes)) hcontent hlocate
    refine .inl (find_of_locate hthere ?_)
    exact content?_put_self store (isPrefixOf_home_eq_false hcontent) _
  · rw [hfill]
    exact .inr ⟨device, find_of_locate hlocate hdevice⟩

/-- A file that was written together with the directories on the way is found by its path, unless a
device stands there. -/
theorem find_of_supply {bytes : ByteArray} (h : store.supply path bytes = (none, after)) :
    after.find path = .ok (.file bytes) ∨ ∃ device, after.find path = .ok (.device device) := by
  unfold supply at h
  split at h
  · exact find_of_write h
  · cases hmake : store.makeDirectories path.parent with
    | error fault =>
      rw [hmake] at h
      cases h
    | ok middle =>
      rw [hmake] at h
      exact find_of_write h

/-- A file that was removed is not found by its path. -/
theorem find_of_remove (h : store.remove path = .ok after) :
    after.find path = .error .notFound := by
  unfold remove at h
  cases hlocate : store.locate path with
  | error fault =>
    rw [hlocate] at h
    cases h
  | ok location =>
    rw [hlocate] at h
    simp only [bind, Except.bind] at h
    have hremoved : store.content? location ≠ some .directory ∧ after = store.erase location := by
      cases hcontent : store.content? location with
      | none =>
        rw [hcontent] at h
        cases h
      | some content =>
        rw [hcontent] at h
        cases content with
        | directory => cases h
        | file bytes => exact ⟨nofun, (Except.ok.inj h).symm⟩
        | device device => exact ⟨nofun, (Except.ok.inj h).symm⟩
    rcases hremoved with ⟨hcontent, rfl⟩
    have hthere := locate_of_agreesBut (agreesBut_erase store location) hcontent hlocate
    simp only [find, hthere, bind, Except.bind, content?_erase_self hcontent]

/-! ## Sizes and texts of files -/

/-- Whatever is found has a size, and a file that of its bytes. -/
theorem exists_size_of_find {found : Content} (h : store.find path = .ok found) :
    ∃ size, store.size path = .ok size ∧ ∀ bytes, found = .file bytes → size = bytes.size := by
  unfold Store.size
  rw [h]
  cases found with
  | file bytes => exact ⟨bytes.size, rfl, fun _ hbytes => congrArg ByteArray.size
      (Content.file.inj hbytes)⟩
  | directory => exact ⟨directorySize, rfl, nofun⟩
  | device device => exact ⟨0, rfl, nofun⟩

/-- What is not found has no size. -/
theorem size_of_find_error {fault : AccessFault} (h : store.find path = .error fault) :
    store.size path = .error fault := by
  unfold Store.size
  rw [h]
  rfl

/-- Why a path leads to no text: it leads nowhere, to a directory, or to a file that is no text. -/
inductive Unreadable (store : Store) (path : Path) : AccessFault → Prop
  | missing {fault : AccessFault} (h : store.find path = .error fault) :
    Unreadable store path fault
  | directory (h : store.find path = .ok .directory) : Unreadable store path .isDirectory
  | notText {bytes : ByteArray} (h : store.find path = .ok (.file bytes))
    (hbytes : String.fromUTF8? bytes = none) : Unreadable store path .notText

/-- A path leads to no text for these reasons only. -/
theorem text_eq_error_iff {fault : AccessFault} :
    store.text path = .error fault ↔ store.Unreadable path fault := by
  unfold Store.text Store.bytes
  constructor
  · intro h
    cases hfind : store.find path with
    | error fault' =>
      rw [hfind] at h
      cases h
      exact .missing hfind
    | ok content =>
      rw [hfind] at h
      cases content with
      | directory =>
        cases h
        exact .directory hfind
      | device device => cases h
      | file bytes =>
        simp only [bind, Except.bind] at h
        cases hbytes : String.fromUTF8? bytes with
        | some text =>
          rw [hbytes] at h
          cases h
        | none =>
          rw [hbytes] at h
          cases h
          exact .notText hfind hbytes
  · intro h
    cases h with
    | missing h => rw [h]; rfl
    | directory h => rw [h]; rfl
    | notText h hbytes =>
      simp only [h, bind, Except.bind, hbytes]

end Store

end SourceMask
