import Golden.Comparison.Screenshot

/-!
# Golden.Proofs.Path.Beneath — paths beneath a directory

A plain name is a component of its own: it is not empty, it has no slash in it, and it is neither
`.` nor `..` (`Path.Plain`).  Joined to a directory it comes behind the components of the directory
and changes none of them (`Path.components_join`), whether the directory is absolute, ends in a
slash, or is written as nothing at all.  So whatever is joined to a directory by plain names alone
lies beneath it.

The names of a path that count as plain are plain in this sense (`Path.plain_of_mem_plainNames`).
That makes the picture of a test lie beneath its directory, whatever the test is called
(`components_diffPicturePath`); and since its last name ends in what no directory needs to end in,
**two tests share a picture only if they have the same plain names**
(`diffPicturePath_eq_iff`).  A test without any has the picture of the test `screenshot`, which is
why those are left out.
-/

namespace Golden

namespace Path

/-! ## Text cut at its slashes -/

theorem splitSlashes_cons_of_ne {c : Char} (hc : c ≠ '/') (rest : List Char) :
    ∃ piece pieces, splitSlashes rest = piece :: pieces ∧
      splitSlashes (c :: rest) = (c :: piece) :: pieces := by
  cases hrest : splitSlashes rest with
  | nil =>
      -- there is always at least one piece
      cases rest with
      | nil => cases hrest
      | cons next rest =>
          rw [splitSlashes] at hrest
          split at hrest
          · cases hrest
          · split at hrest
            · cases hrest
            · cases hrest
  | cons piece pieces =>
      refine ⟨piece, pieces, rfl, ?_⟩
      rw [splitSlashes, if_neg hc, hrest]

/-- A slash cuts a text in two. -/
theorem splitSlashes_append (front rest : List Char) :
    splitSlashes (front ++ '/' :: rest) = splitSlashes front ++ splitSlashes rest := by
  induction front with
  | nil => rfl
  | cons c front ih =>
      by_cases hc : c = '/'
      · subst hc
        show [] :: splitSlashes (front ++ '/' :: rest) = [] :: splitSlashes front ++ _
        rw [ih]
        rfl
      · obtain ⟨piece, pieces, hpieces, hcons⟩ := splitSlashes_cons_of_ne hc front
        rw [List.cons_append, splitSlashes, if_neg hc, ih, hcons, hpieces]
        rfl

theorem splitSlashes_of_notMem {text : List Char} (h : '/' ∉ text) : splitSlashes text = [text] := by
  induction text with
  | nil => rfl
  | cons c rest ih =>
      rw [List.mem_cons, not_or] at h
      obtain ⟨hc, hrest⟩ := h
      rw [splitSlashes, if_neg (Ne.symm hc), ih hrest]

theorem notMem_of_mem_splitSlashes {text piece : List Char} (h : piece ∈ splitSlashes text) :
    '/' ∉ piece := by
  induction text generalizing piece with
  | nil =>
      rw [List.mem_singleton.mp h]
      exact List.not_mem_nil
  | cons c rest ih =>
      by_cases hc : c = '/'
      · rw [splitSlashes, if_pos hc] at h
        rcases List.mem_cons.mp h with rfl | hlater
        · exact List.not_mem_nil
        · exact ih hlater
      · obtain ⟨first, pieces, hpieces, hcons⟩ := splitSlashes_cons_of_ne hc rest
        rw [hcons] at h
        rcases List.mem_cons.mp h with rfl | hlater
        · intro hslash
          rcases List.mem_cons.mp hslash with heq | hfirst
          · exact hc heq.symm
          · exact ih (hpieces ▸ List.mem_cons_self) hfirst
        · exact ih (hpieces ▸ List.mem_cons_of_mem _ hlater)

/-! ## Plain names -/

/-- A name that is a plain component of a path. -/
structure Plain (name : String) : Prop where
  notEmpty : name.toList ≠ []
  noSlash : '/' ∉ name.toList
  ne_current : name ≠ "."
  ne_parent : name ≠ ".."

theorem componentOfName_of_plain {name : String} (h : Plain name) :
    componentOfName name = some (.plain name) := by
  unfold componentOfName
  split
  · exact absurd rfl h.ne_current
  · exact absurd rfl h.ne_parent
  · rfl

theorem mem_names_iff {p : Path} {name : String} :
    name ∈ p.names ↔ name.toList ∈ splitSlashes p.text.toList ∧ name.toList ≠ [] := by
  unfold names
  constructor
  · intro h
    obtain ⟨piece, hpiece, rfl⟩ := List.mem_map.mp h
    rw [String.toList_ofList]
    simpa using hpiece
  · intro h
    refine List.mem_map.mpr ⟨name.toList, ?_, String.ofList_toList⟩
    simpa using h

/-- Of a path only its names are components. -/
theorem mem_names_of_plain_mem {p : Path} {name : String} (h : .plain name ∈ p.components) :
    name ∈ p.names ∧ componentOfName name = some (.plain name) := by
  have hfound : ∀ {names : List String}, Component.plain name ∈ names.filterMap componentOfName →
      name ∈ names ∧ componentOfName name = some (.plain name) := by
    intro names hmem
    obtain ⟨other, hother, heq⟩ := List.mem_filterMap.mp hmem
    have hname : other = name := by
      unfold componentOfName at heq
      split at heq
      · cases heq
      · cases heq
      · cases heq
        rfl
    subst hname
    exact ⟨hother, heq⟩
  unfold components at h
  split at h
  · rcases List.mem_cons.mp h with heq | hmem
    · cases heq
    · exact hfound hmem
  · split at h
    · rename_i rest hnames
      rcases List.mem_cons.mp h with heq | hmem
      · cases heq
      · obtain ⟨hrest, hplain⟩ := hfound hmem
        exact ⟨hnames ▸ List.mem_cons_of_mem _ hrest, hplain⟩
    · exact hfound h

/-- **The plain names of a path are plain.** -/
theorem plain_of_mem_plainNames {p : Path} {name : String} (h : name ∈ p.plainNames) :
    Plain name := by
  obtain ⟨component, hcomponent, heq⟩ := List.mem_filterMap.mp h
  cases component with
  | plain other =>
      cases heq
      obtain ⟨hmem, hplain⟩ := mem_names_of_plain_mem hcomponent
      obtain ⟨hpiece, hnonempty⟩ := mem_names_iff.mp hmem
      refine ⟨hnonempty, notMem_of_mem_splitSlashes hpiece, ?_, ?_⟩
      · rintro rfl
        cases hplain
      · rintro rfl
        cases hplain
  | root => cases heq
  | current => cases heq
  | parent => cases heq

/-! ## Joining plain names -/

theorem isAbsolute_of_plain {name : String} (h : Plain name) : (Path.mk name).isAbsolute = false := by
  have hslash : name.toList.head? ≠ some '/' :=
    fun heq => h.noSlash (List.mem_of_head? heq)
  simpa [isAbsolute] using hslash

/-- How a directory and a plain name are put together. -/
theorem text_join {dir : Path} {name : String} (h : Plain name) :
    (dir.join ⟨name⟩).text.toList
      = if dir.text.toList = [] ∨ dir.text.toList.getLast? = some '/' then
          dir.text.toList ++ name.toList
        else dir.text.toList ++ '/' :: name.toList := by
  have hrelative : ¬ (Path.mk name).isAbsolute = true := by
    rw [isAbsolute_of_plain h]
    exact Bool.false_ne_true
  rw [join, if_neg hrelative]
  by_cases hend : dir.text.toList = [] ∨ dir.text.toList.getLast? = some '/'
  · have hend' : (dir.text.isEmpty || dir.text.toList.getLast? == some '/') = true := by
      rcases hend with hempty | hslash
      · simp [String.toList_eq_nil_iff.mp hempty]
      · simp [hslash]
    rw [if_pos hend', if_pos hend, String.toList_append]
  · have hend' : ¬ (dir.text.isEmpty || dir.text.toList.getLast? == some '/') = true := by
      rw [not_or] at hend
      simpa [String.isEmpty_iff, String.toList_eq_nil_iff] using hend
    rw [if_neg hend', if_neg hend, String.toList_append, String.toList_append]
    simp

theorem names_join {dir : Path} {name : String} (h : Plain name) :
    (dir.join ⟨name⟩).names = dir.names ++ [name] := by
  have hname : splitSlashes name.toList = [name.toList] := splitSlashes_of_notMem h.noSlash
  unfold names
  rw [text_join h]
  split
  · rename_i hend
    rcases hend with hempty | hslash
    · rw [hempty, List.nil_append, hname]
      simp [splitSlashes, h.notEmpty]
    · obtain ⟨front, hfront⟩ := List.getLast?_eq_some_iff.mp hslash
      rw [hfront, List.append_assoc, List.singleton_append, splitSlashes_append,
        splitSlashes_append, hname]
      simp [splitSlashes, h.notEmpty]
  · rw [splitSlashes_append, hname]
    simp [h.notEmpty]

theorem isAbsolute_join {dir : Path} {name : String} (h : Plain name) :
    (dir.join ⟨name⟩).isAbsolute = dir.isAbsolute := by
  have hname := isAbsolute_of_plain h
  unfold isAbsolute at hname ⊢
  rw [text_join h]
  cases htext : dir.text.toList with
  | nil => simpa using hname
  | cons c rest => split <;> simp

/-- **A plain name comes behind the components of a directory.** -/
theorem components_join {dir : Path} {name : String} (h : Plain name) :
    (dir.join ⟨name⟩).components = dir.components ++ [.plain name] := by
  have hname := componentOfName_of_plain h
  unfold components
  rw [isAbsolute_join h, names_join h]
  split
  · rw [List.filterMap_append, List.cons_append]
    simp [hname]
  · cases hnames : dir.names with
    | nil =>
        rw [List.nil_append]
        split
        · rename_i heq
          cases heq
          exact absurd rfl h.ne_current
        · simp [hname]
    | cons first rest =>
        rw [List.cons_append]
        by_cases hfirst : first = "."
        · subst hfirst
          simp [hname]
        · split
          · rename_i heq
            cases heq
            exact absurd rfl hfirst
          · split
            · rename_i heq
              cases heq
              exact absurd rfl hfirst
            · rw [← List.cons_append, List.filterMap_append]
              simp [hname]

/-- A path that leads beneath a directory by plain names alone. -/
structure Beneath (dir p : Path) (below : List String) : Prop where
  plain : ∀ name ∈ below, Plain name
  isAbsolute_eq : p.isAbsolute = dir.isAbsolute
  names_eq : p.names = dir.names ++ below
  components_eq : p.components = dir.components ++ below.map .plain

theorem Beneath.refl (dir : Path) : Beneath dir dir [] :=
  ⟨fun _ hmem => absurd hmem List.not_mem_nil, rfl, (List.append_nil _).symm,
    (List.append_nil _).symm⟩

theorem Beneath.join {dir p : Path} {below : List String} {name : String} (h : Beneath dir p below)
    (hname : Plain name) : Beneath dir (p.join ⟨name⟩) (below ++ [name]) := by
  refine ⟨?_, ?_, ?_, ?_⟩
  · intro other hmem
    rcases List.mem_append.mp hmem with hbelow | hlast
    · exact h.plain other hbelow
    · rw [List.mem_singleton.mp hlast]
      exact hname
  · rw [isAbsolute_join hname, h.isAbsolute_eq]
  · rw [names_join hname, h.names_eq, List.append_assoc]
  · rw [components_join hname, h.components_eq, List.append_assoc, List.map_append]
    rfl

theorem Beneath.foldl_join {dir p : Path} {below names : List String} (h : Beneath dir p below)
    (hnames : ∀ name ∈ names, Plain name) :
    Beneath dir (names.foldl (fun path name => path.join ⟨name⟩) p) (below ++ names) := by
  induction names generalizing p below with
  | nil =>
      rw [List.append_nil]
      exact h
  | cons name rest ih =>
      have hjoin := h.join (hnames name List.mem_cons_self)
      rw [List.append_cons]
      exact ih hjoin fun other hmem => hnames other (List.mem_cons_of_mem _ hmem)

end Path

/-! ## The pictures of tests -/

/-- The names that lead from a directory to the picture of a test. -/
def diffPictureNames (test : String) : List String :=
  let names := (Path.mk test).plainNames
  names.dropLast ++ [diffPictureName (names.getLast?.getD "screenshot")]

theorem plain_diffPictureName {stem : String} (h : '/' ∉ stem.toList) :
    Path.Plain (diffPictureName stem) := by
  have htext : (diffPictureName stem).toList = stem.toList ++ "-diff.png".toList :=
    String.toList_append
  -- a dot is too short, and so are two
  have hlength : 9 ≤ (diffPictureName stem).toList.length := by
    rw [htext, List.length_append]
    exact Nat.le_add_left _ _
  refine ⟨?_, ?_, ?_, ?_⟩
  · intro hempty
    rw [hempty] at hlength
    exact absurd hlength (by decide)
  · rw [htext, List.mem_append, not_or]
    exact ⟨h, by decide⟩
  · intro heq
    rw [heq] at hlength
    exact absurd hlength (by decide)
  · intro heq
    rw [heq] at hlength
    exact absurd hlength (by decide)

/-- **The picture of a test lies beneath the directory of pictures.** -/
theorem beneath_diffPicturePath (directory : Path) (test : String) :
    Path.Beneath directory (diffPicturePath directory test) (diffPictureNames test) := by
  have hparents : ∀ name ∈ (Path.mk test).plainNames.dropLast, Path.Plain name :=
    fun name hmem => Path.plain_of_mem_plainNames (List.dropLast_subset _ hmem)
  have hstem : '/' ∉ ((Path.mk test).plainNames.getLast?.getD "screenshot").toList := by
    cases hlast : (Path.mk test).plainNames.getLast? with
    | none => decide
    | some last => exact (Path.plain_of_mem_plainNames (List.mem_of_getLast? hlast)).noSlash
  exact ((Path.Beneath.refl directory).foldl_join hparents).join (plain_diffPictureName hstem)

theorem diffPictureName_inj {stem other : String} :
    diffPictureName stem = diffPictureName other ↔ stem = other := by
  constructor
  · intro heq
    have htext : stem.toList ++ "-diff.png".toList = other.toList ++ "-diff.png".toList := by
      rw [← String.toList_append, ← String.toList_append]
      exact congrArg String.toList heq
    exact String.toList_inj.mp (List.append_cancel_right htext)
  · exact congrArg diffPictureName

/-- The last plain name can be told from the name of the picture. -/
theorem diffPictureNames_eq_iff {test other : String} (htest : (Path.mk test).plainNames ≠ [])
    (hother : (Path.mk other).plainNames ≠ []) :
    diffPictureNames test = diffPictureNames other
      ↔ (Path.mk test).plainNames = (Path.mk other).plainNames := by
  constructor
  · intro heq
    unfold diffPictureNames at heq
    obtain ⟨hparents, hlast⟩ := List.append_inj' heq rfl
    rw [List.getLast?_eq_some_getLast htest, List.getLast?_eq_some_getLast hother] at hlast
    have hstem := diffPictureName_inj.mp (List.singleton_inj.mp hlast)
    rw [← List.dropLast_concat_getLast htest, ← List.dropLast_concat_getLast hother, hparents]
    exact congrArg (fun stem => _ ++ [stem]) hstem
  · intro heq
    unfold diffPictureNames
    rw [heq]

/-- **Two tests share a picture exactly if they have the same plain names**, and their pictures are
then written in the same way. -/
theorem diffPicturePath_eq_iff (directory : Path) {test other : String}
    (htest : (Path.mk test).plainNames ≠ []) (hother : (Path.mk other).plainNames ≠ []) :
    ((diffPicturePath directory test).components = (diffPicturePath directory other).components
      ↔ (Path.mk test).plainNames = (Path.mk other).plainNames) ∧
    (diffPicturePath directory test = diffPicturePath directory other
      ↔ (Path.mk test).plainNames = (Path.mk other).plainNames) := by
  have hpath : (Path.mk test).plainNames = (Path.mk other).plainNames →
      diffPicturePath directory test = diffPicturePath directory other := by
    intro hnames
    unfold diffPicturePath
    rw [hnames]
  have hnames : (diffPicturePath directory test).components
      = (diffPicturePath directory other).components →
      (Path.mk test).plainNames = (Path.mk other).plainNames := by
    intro heq
    rw [(beneath_diffPicturePath directory test).components_eq,
      (beneath_diffPicturePath directory other).components_eq] at heq
    have hplain := List.append_cancel_left heq
    have hbelow := (List.map_inj_right fun _ _ hname => Component.plain.inj hname).mp hplain
    exact (diffPictureNames_eq_iff htest hother).mp hbelow
  refine ⟨⟨hnames, fun heq => congrArg Path.components (hpath heq)⟩, ?_, hpath⟩
  intro heq
  exact hnames (congrArg Path.components heq)

end Golden
