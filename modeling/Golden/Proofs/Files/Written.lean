import Golden.Files

/-!
# Golden.Proofs.Files.Written — a written file is found where it was written

Writing checks everything on the way to a path and then lets the file stand at one place.  The same
path leads to that place afterwards (`Files.resolve_of_write`): every step of the walk starts from a
directory, the new file stands where no directory stood, and so none of the directories on the way
has been touched (`Files.walk_put`).
-/

namespace Golden

theorem exists_of_bind_eq_ok {ε α β : Type} {x : Except ε α} {f : α → Except ε β} {b : β}
    (h : x >>= f = .ok b) : ∃ a, x = .ok a ∧ f a = .ok b := by
  cases x with
  | error e => cases h
  | ok a => exact ⟨a, rfl, h⟩

namespace Files

theorem walk_append (fs : Files) (front rest : List String) (place : Place) :
    fs.walk place (front ++ rest) = (fs.walk place front).bind fun here => fs.walk here rest := by
  induction front generalizing place with
  | nil => rfl
  | cons name front ih =>
      simp only [List.cons_append, walk]
      cases fs.find? place with
      | none => rfl
      | some entry =>
          cases entry with
          | file content => rfl
          | directory =>
              cases step place name with
              | error cause => rfl
              | ok next => exact ih next

/-- An entry that replaces no directory leaves every walk as it was. -/
theorem walk_put {fs : Files} {target : Place} {entry : Entry}
    (htarget : fs.find? target ≠ some .directory) :
    ∀ {names : List String} {place there : Place}, fs.walk place names = .ok there →
      (fs.put target entry).walk place names = .ok there
  | [], _, _, h => h
  | name :: names, place, there, h => by
      unfold walk at h ⊢
      cases hfind : fs.find? place with
      | none => rw [hfind] at h; cases h
      | some here =>
          cases here with
          | file content => rw [hfind] at h; cases h
          | directory =>
              have hne : place ≠ target := fun heq => htarget (heq ▸ hfind)
              rw [find?_put_of_ne hne, hfind]
              rw [hfind] at h
              cases hstep : step place name with
              | error cause => rw [hstep] at h; cases h
              | ok next =>
                  rw [hstep] at h
                  exact walk_put htarget h

/-- What has been checked of a path that leads to a directory and a name in it. -/
theorem resolveParent_eq_ok {fs : Files} {p : Path} {place : Place} {name : String}
    (h : fs.resolveParent p = .ok (place, some name)) :
    checkText p = .ok () ∧ fs.walk (fs.start p) p.names.dropLast = .ok place ∧
      fs.find? place = some .directory ∧ p.names.getLast? = some name ∧
      step place name = .ok (place ++ [name]) := by
  obtain ⟨⟨⟩, htext, h⟩ := exists_of_bind_eq_ok h
  obtain ⟨here, hwalk, h⟩ := exists_of_bind_eq_ok h
  split at h
  · cases h
  · cases h
  · rename_i hfind
    split at h
    · cases h
    · cases h
    · cases h
    · rename_i last hdot hdots hlast
      split at h
      · cases h
      · rename_i hlength
        cases h
        refine ⟨htext, hwalk, hfind, hlast, ?_⟩
        rw [step, if_neg hdot, if_neg hdots, if_neg hlength]

/-- A file is written next to what its directory holds, where no directory stands. -/
theorem target_eq_ok {fs : Files} {p : Path} {target : Place} (h : fs.target p = .ok target) :
    ∃ place name, target = place ++ [name] ∧ fs.resolveParent p = .ok (place, some name) ∧
      ¬ asksForDirectory p ∧ fs.find? target ≠ some .directory := by
  obtain ⟨⟨place, name?⟩, hparent, h⟩ := exists_of_bind_eq_ok h
  cases name? with
  | none => cases h
  | some name =>
      dsimp only at h
      split at h
      · cases h
      · rename_i hasks
        split at h
        · cases h
        · rename_i hfree
          cases h
          exact ⟨place, name, rfl, hparent, hasks, hfree⟩

/-- A file that stands where its path may be written to is what the path leads to. -/
theorem resolve_put_of_target {fs : Files} {p : Path} {target : Place}
    (h : fs.target p = .ok target) (content : Content) :
    (fs.put target (.file content)).resolve p = .ok (target, .file content) := by
  obtain ⟨place, name, rfl, hparent, hasks, hfree⟩ := target_eq_ok h
  obtain ⟨htext, hwalk, hfind, hlast, hstep⟩ := resolveParent_eq_ok hparent
  obtain ⟨front, hfront⟩ := List.getLast?_eq_some_iff.mp hlast
  rw [hfront, List.dropLast_concat] at hwalk
  have hne : place ≠ place ++ [name] := by simp
  have hfront' : (fs.put (place ++ [name]) (.file content)).walk (fs.start p) front = .ok place :=
    walk_put hfree hwalk
  -- the last step leads from the directory to the new file
  have hlast' : (fs.put (place ++ [name]) (.file content)).walk place [name]
      = .ok (place ++ [name]) := by
    simp only [walk, find?_put_of_ne hne, hfind, hstep]
    rfl
  have hall : (fs.put (place ++ [name]) (.file content)).walk (fs.start p) p.names
      = .ok (place ++ [name]) := by
    rw [hfront, walk_append, hfront']
    exact hlast'
  have hfile : (fs.put (place ++ [name]) (.file content)).find? (place ++ [name])
      = some (.file content) := find?_put_self (by simp)
  rw [resolve, htext, if_neg hasks, List.append_nil]
  show ((fs.put (place ++ [name]) (.file content)).walk (fs.start p) p.names).bind _ = _
  rw [hall]
  simp only [Except.bind, hfile]
  rfl

/-- **A written file is what its path leads to.** -/
theorem resolve_of_write {fs written : Files} {p : Path} {content : Content}
    (h : fs.write p content = .ok written) :
    ∃ place, written.resolve p = .ok (place, .file content) := by
  obtain ⟨target, htarget, h⟩ := exists_of_bind_eq_ok h
  cases h
  exact ⟨target, resolve_put_of_target htarget content⟩

/-- The files let something be written at a path, once the directories it lies in are made. -/
structure Writable (fs : Files) (p : Path) : Prop where
  made : (fs.makeParent p).stopped = none
  free : ((fs.makeParent p).files.target p).isOk

theorem Writable.exists_write {fs : Files} {p : Path} (h : fs.Writable p) (content : Content) :
    ∃ written, (fs.makeParent p).files.write p content = .ok written := by
  have hfree := h.free
  cases htarget : (fs.makeParent p).files.target p with
  | error cause => rw [htarget] at hfree; cases hfree
  | ok place => exact ⟨_, by rw [write, htarget]; rfl⟩

end Files

end Golden
