import Golden.Proofs.Files.Written
import Golden.Proofs.Path.Beneath

/-!
# Golden.Proofs.Files.Changed — what an operation leaves as it was

Files are changed at places.  `Files.ChangesOnly` says of two states that a place is as it was
unless it is one of certain places, at which a file may have been written, or a directory was made
there where nothing had been.  So no file is touched but at the places named, and none is lost.
Such changes can be put together (`ChangesOnly.trans`).

* Making directories is such a change at no place at all (`changesOnly_makeParent`), however far it
  comes.
* Writing a picture is one at the place its path leads to afterwards
  (`changesOnly_writeDiffPicture`).

If the path leads beneath a directory by plain names, that place lies beneath the place of the
directory (`exists_home_of_target`): a walk along plain names only goes down (`walk_plain`).
-/

namespace Golden

namespace Files

variable {fs after later : Files} {p dir : Path} {place : Place}

/-- Every place is as it was, but for files at certain places and for new directories. -/
structure ChangesOnly (changed : Place → Prop) (fs after : Files) : Prop where
  workingDirectory_eq : after.workingDirectory = fs.workingDirectory
  find?_eq : ∀ place, after.find? place = fs.find? place ∨
    (fs.find? place = none ∧ after.find? place = some .directory) ∨
    (changed place ∧ ∃ content, after.find? place = some (.file content))

/-- Nothing at all has been changed but by making directories. -/
abbrev OnlyMakesDirectories (fs after : Files) : Prop := ChangesOnly (fun _ => False) fs after

namespace ChangesOnly

variable {changed more : Place → Prop}

theorem refl (changed : Place → Prop) (fs : Files) : ChangesOnly changed fs fs :=
  ⟨rfl, fun _ => Or.inl rfl⟩

theorem mono (h : ChangesOnly changed fs after) (hmore : ∀ place, changed place → more place) :
    ChangesOnly more fs after := by
  refine ⟨h.workingDirectory_eq, ?_⟩
  intro place
  rcases h.find?_eq place with heq | hmade | ⟨hplace, hwritten⟩
  · exact Or.inl heq
  · exact Or.inr (Or.inl hmade)
  · exact Or.inr (Or.inr ⟨hmore place hplace, hwritten⟩)

theorem trans (h : ChangesOnly changed fs after) (h' : ChangesOnly changed after later) :
    ChangesOnly changed fs later := by
  refine ⟨h'.workingDirectory_eq.trans h.workingDirectory_eq, ?_⟩
  intro place
  rcases h'.find?_eq place with heq | ⟨hnone, hmade⟩ | hwritten
  · rw [heq]
    exact h.find?_eq place
  · -- what was nothing before the second change was nothing before the first
    rcases h.find?_eq place with heq | ⟨-, hdirectory⟩ | ⟨-, content, hfile⟩
    · rw [hnone] at heq
      exact Or.inr (Or.inl ⟨heq.symm, hmade⟩)
    · rw [hnone] at hdirectory
      cases hdirectory
    · rw [hnone] at hfile
      cases hfile
  · exact Or.inr (Or.inr hwritten)

/-- A file at any other place is the file that was there. -/
theorem file_iff (h : ChangesOnly changed fs after) (hplace : ¬ changed place) (content : Content) :
    after.find? place = some (.file content) ↔ fs.find? place = some (.file content) := by
  rcases h.find?_eq place with heq | ⟨hnone, hmade⟩ | ⟨hchanged, -⟩
  · rw [heq]
  · rw [hnone, hmade]
    constructor
    · intro hfile
      cases hfile
    · intro hfile
      cases hfile
  · exact absurd hchanged hplace

end ChangesOnly

/-! ## Directories -/

theorem changesOnly_put_directory (hplace : place ≠ []) (hnone : fs.find? place = none) :
    OnlyMakesDirectories fs (fs.put place .directory) := by
  refine ⟨rfl, ?_⟩
  intro other
  by_cases heq : other = place
  · subst heq
    exact Or.inr (Or.inl ⟨hnone, find?_put_self hplace⟩)
  · exact Or.inl (find?_put_of_ne heq)

theorem changesOnly_makeDirectory (h : fs.makeDirectory p = .ok after) :
    OnlyMakesDirectories fs after := by
  obtain ⟨⟨place, name?⟩, -, h⟩ := exists_of_bind_eq_ok h
  cases name? with
  | none => cases h
  | some name =>
      dsimp only at h
      split at h
      · cases h
      · rename_i hnone
        cases h
        exact changesOnly_put_directory (by simp) hnone

/-- However many of the directories are made, nothing else happens. -/
theorem changesOnly_makeLineage (fs : Files) (paths : List Path) :
    OnlyMakesDirectories fs (fs.makeLineage paths).files := by
  induction paths with
  | nil => exact .refl _ fs
  | cons p outer ih =>
      rw [makeLineage]
      split
      · rename_i made hmade
        exact changesOnly_makeDirectory hmade
      · dsimp only
        split
        · exact ih
        · split
          · rename_i made hmade
            exact ih.trans (changesOnly_makeDirectory hmade)
          · exact ih
      · exact .refl _ fs

theorem changesOnly_makeParent (fs : Files) (p : Path) :
    OnlyMakesDirectories fs (fs.makeParent p).files := by
  unfold makeParent
  split
  · exact .refl _ fs
  · exact changesOnly_makeLineage fs _

/-! ## Files -/

theorem changesOnly_put_file (hplace : place ≠ []) (content : Content) :
    ChangesOnly (· = place) fs (fs.put place (.file content)) := by
  refine ⟨rfl, ?_⟩
  intro other
  by_cases heq : other = place
  · subst heq
    exact Or.inr (Or.inr ⟨rfl, content, find?_put_self hplace⟩)
  · exact Or.inl (find?_put_of_ne heq)

/-- What writing a file has done, if it succeeded. -/
theorem write_eq_ok {content : Content} (h : fs.write p content = .ok after) :
    ∃ target, fs.target p = .ok target ∧ after = fs.put target (.file content) := by
  obtain ⟨target, htarget, h⟩ := exists_of_bind_eq_ok h
  cases h
  exact ⟨target, htarget, rfl⟩

theorem target_ne_nil (h : fs.target p = .ok place) : place ≠ [] := by
  obtain ⟨directory, name, rfl, -⟩ := target_eq_ok h
  simp

/-! ## Places beneath a directory -/

/-- A walk along plain names goes down by these names. -/
theorem walk_plain {names : List String} {place there : Place}
    (hplain : ∀ name ∈ names, Path.Plain name) (h : fs.walk place names = .ok there) :
    there = place ++ names := by
  induction names generalizing place with
  | nil =>
      rw [List.append_nil]
      exact (Except.ok.inj h).symm
  | cons name rest ih =>
      have hname := hplain name List.mem_cons_self
      unfold walk at h
      split at h
      · cases h
      · cases h
      · obtain ⟨next, hstep, h⟩ := exists_of_bind_eq_ok h
        rw [step, if_neg hname.ne_current, if_neg hname.ne_parent] at hstep
        split at hstep
        · cases hstep
        · cases hstep
          rw [ih (fun other hmem => hplain other (List.mem_cons_of_mem _ hmem)) h,
            List.append_assoc, List.singleton_append]

/-- **What is written beneath a directory lands beneath the place of the directory.** -/
theorem exists_home_of_target {below : List String} (hbelow : Path.Beneath dir p below)
    (hne : below ≠ []) (h : fs.target p = .ok place) (content : Content) :
    ∃ home, place = home ++ below ∧
      (fs.put place (.file content)).walk (fs.start dir) dir.names = .ok home := by
  obtain ⟨directory, name, rfl, hparent, -, hfree⟩ := target_eq_ok h
  obtain ⟨-, hwalk, -, hlast, -⟩ := resolveParent_eq_ok hparent
  have hstart : fs.start p = fs.start dir := by
    rw [start, start, hbelow.isAbsolute_eq]
  rw [hbelow.names_eq, List.dropLast_append_of_ne_nil hne, walk_append, hstart] at hwalk
  obtain ⟨home, hhome, hdown⟩ := exists_of_bind_eq_ok hwalk
  have hparents : ∀ other ∈ below.dropLast, Path.Plain other :=
    fun other hmem => hbelow.plain other (List.dropLast_subset _ hmem)
  refine ⟨home, ?_, walk_put hfree hhome⟩
  rw [hbelow.names_eq, List.getLast?_append, List.getLast?_eq_some_getLast hne] at hlast
  cases hlast
  rw [walk_plain hparents hdown, List.append_assoc, List.dropLast_concat_getLast]

/-! ## Pictures -/

/-- Storing a picture writes its file or does nothing. -/
theorem files_write_picture (fs : Files) (p : Path) (picture : Picture) :
    (picture.write fs p).files = fs ∨
      ∃ content, fs.write p content = .ok (picture.write fs p).files := by
  unfold Picture.write
  split
  · exact Or.inl rfl
  · dsimp only
    split
    · exact Or.inl rfl
    · rename_i written hwritten
      refine Or.inr ⟨if picture.width = 0 ∨ picture.height = 0 then .raw Picture.lastChunk
        else .picture picture, ?_⟩
      rw [hwritten]
      apply congrArg Except.ok
      -- a picture without pixels has been written all the same
      split
      · rfl
      · split
        · rfl
        · rfl

/-- **All that comes of writing a picture of the differences**: new directories, and then at most
the file itself. -/
theorem files_writeDiffPicture (fs : Files) (p : Path) (pixels reference : Array UInt32)
    (v : View) :
    OnlyMakesDirectories fs (writeDiffPicture fs p pixels reference v).files ∨
      ∃ made target content, OnlyMakesDirectories fs made ∧ made.target p = .ok target ∧
        (writeDiffPicture fs p pixels reference v).files = made.put target (.file content) := by
  have hmade := changesOnly_makeParent fs p
  unfold writeDiffPicture
  split
  · exact Or.inl (.refl _ fs)
  · rename_i drawing _
    dsimp only
    split
    · exact Or.inl hmade
    · rcases files_write_picture (fs.makeParent p).files p drawing.picture with hnone | hwritten
      · left
        dsimp only
        rw [hnone]
        exact hmade
      · right
        obtain ⟨content, hwritten⟩ := hwritten
        obtain ⟨target, htarget, hput⟩ := write_eq_ok hwritten
        exact ⟨_, target, content, hmade, htarget, hput⟩

/-- The place of the picture of a test: where its path leads to, which is beneath the place where
the directory of pictures is. -/
structure IsPicturePlace (fs : Files) (directory : Path) (test : String) (place : Place) : Prop where
  leads : ∃ content, fs.resolve (diffPicturePath directory test) = .ok (place, .file content)
  beneath : ∃ home, fs.walk (fs.start directory) directory.names = .ok home ∧
    place = home ++ diffPictureNames test

/-- **The picture of a test changes the one place it has beneath the directory of pictures.** -/
theorem changesOnly_writeDiffPicture (fs : Files) (directory : Path) (test : String)
    (pixels reference : Array UInt32) (v : View) :
    let after := (writeDiffPicture fs (diffPicturePath directory test) pixels reference v).files
    ChangesOnly (after.IsPicturePlace directory test) fs after := by
  intro after
  rcases files_writeDiffPicture fs (diffPicturePath directory test) pixels reference v with
    hmade | ⟨made, target, content, hmade, htarget, hput⟩
  · exact hmade.mono fun _ hfalse => hfalse.elim
  · have hafter : after = made.put target (.file content) := hput
    rw [hafter]
    have hne : diffPictureNames test ≠ [] := by
      unfold diffPictureNames
      simp
    obtain ⟨home, hplace, hhome⟩ :=
      exists_home_of_target (beneath_diffPicturePath directory test) hne htarget content
    have hwritten : ChangesOnly (IsPicturePlace (made.put target (.file content)) directory test)
        made (made.put target (.file content)) := by
      apply (changesOnly_put_file (target_ne_nil htarget) content).mono
      rintro _ rfl
      exact ⟨⟨content, resolve_put_of_target htarget content⟩, home, hhome, hplace⟩
    exact (hmade.mono fun _ hfalse => hfalse.elim).trans hwritten

end Files

end Golden
