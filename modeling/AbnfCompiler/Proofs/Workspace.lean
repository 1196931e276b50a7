import AbnfCompiler.Proofs.Path

/-!
A file holds what was written to it last, and where a file was written once, it can be written
again. Writing a file and making folders leave the other files as they are.
-/
namespace AbnfCompiler.Workspace

variable {w w' : Workspace} {p folder : Path} {place : Place} {text : String}

section Places

/-- A path leads where it did when there are more folders. -/
theorem follow_eq_ok (h : ∀ place, w.isFolder place → w'.isFolder place) {start : Place}
    {parts : List String} (hw : w.follow start parts = .ok place) :
    w'.follow start parts = .ok place := by
  induction parts generalizing start with
  | nil => exact hw
  | cons part parts ih =>
    unfold follow at hw ⊢
    split at hw
    · next hstart =>
      rw [if_pos (h start hstart)]
      exact ih hw
    · cases hw

theorem locate_eq_ok (h : ∀ place, w.isFolder place → w'.isFolder place)
    (hw : w.locate p = .ok place) : w'.locate p = .ok place := follow_eq_ok h hw

theorem holdsFolder_iff :
    w.holdsFolder p ↔ ∃ place, w.locate p = .ok place ∧ w.isFolder place := by
  unfold holdsFolder
  cases w.locate p <;> simp

end Places

section Files

theorem write_eq_ok (h : w.write p text = .ok w') : ∃ place, w.locate p = .ok place ∧
    w.isFolder place = false ∧
    w' = { w with files := (place, text) :: w.files.filter (·.1 != place) } := by
  unfold write at h
  cases hplace : w.locate p with
  | error fault =>
    rw [hplace] at h
    cases h
  | ok place =>
    rw [hplace] at h
    simp only [Except.bind, bind] at h
    split at h
    · cases h
    · next hfolder =>
      cases h
      exact ⟨place, rfl, by simpa using hfolder, rfl⟩

theorem isFolder_write (h : w.write p text = .ok w') (place : Place) :
    w'.isFolder place = w.isFolder place := by
  obtain ⟨_, -, -, rfl⟩ := write_eq_ok h
  rfl

theorem locate_write {q : Path} (h : w.write p text = .ok w') :
    w'.locate q = .ok place ↔ w.locate q = .ok place := by
  have hfolders := isFolder_write h
  constructor
  · exact locate_eq_ok fun place hplace ↦ (hfolders place).symm.trans hplace
  · exact locate_eq_ok fun place hplace ↦ (hfolders place).trans hplace

theorem content_write (h : w.write p text = .ok w') : w'.content p = .ok text := by
  obtain ⟨place, hplace, hfolder, hw'⟩ := write_eq_ok h
  have hfile : w'.file? place = some text := by
    rw [hw']
    exact List.lookup_cons_self
  unfold content
  rw [(locate_write h).2 hplace]
  simp only [Except.bind, bind]
  rw [isFolder_write h, hfolder, if_neg Bool.false_ne_true, hfile]
  rfl

/-- The path leads to a place that is no folder, be there a file or not. -/
def LeadsToFile (w : Workspace) (p : Path) : Prop :=
  ∃ place, w.locate p = .ok place ∧ w.isFolder place = false

theorem exists_write_iff (w : Workspace) (p : Path) (text : String) :
    (∃ w', w.write p text = .ok w') ↔ w.LeadsToFile p := by
  constructor
  · rintro ⟨w', h⟩
    obtain ⟨place, hplace, hfolder, -⟩ := write_eq_ok h
    exact ⟨place, hplace, hfolder⟩
  · rintro ⟨place, hplace, hfolder⟩
    refine ⟨{ w with files := (place, text) :: w.files.filter (·.1 != place) }, ?_⟩
    unfold write
    rw [hplace]
    simp only [Except.bind, bind]
    rw [hfolder, if_neg Bool.false_ne_true]
    rfl

theorem LeadsToFile.write (h : w.write p text = .ok w') : w'.LeadsToFile p := by
  obtain ⟨place, hplace, hfolder, -⟩ := write_eq_ok h
  exact ⟨place, (locate_write h).2 hplace, (isFolder_write h place).trans hfolder⟩

theorem holdsFolder_write (h : w.write p text = .ok w') :
    w'.holdsFolder folder = w.holdsFolder folder := by
  rw [Bool.eq_iff_iff, holdsFolder_iff, holdsFolder_iff]
  simp only [locate_write h, isFolder_write h]

end Files

section Folders

theorem makeFolder_eq_ok (h : w.makeFolder p = .ok w') : ∃ place, w.locate p = .ok place ∧
    w.isTaken place = false ∧ w' = { w with folders := place :: w.folders } := by
  unfold makeFolder at h
  cases hplace : w.locate p with
  | error fault =>
    rw [hplace] at h
    cases h
  | ok place =>
    rw [hplace] at h
    simp only [Except.bind, bind] at h
    split at h
    · cases h
    · next hfree =>
      cases h
      exact ⟨place, rfl, by simpa using hfree, rfl⟩

theorem isFolder_makeFolder (h : w.makeFolder p = .ok w') (hplace : w.locate p = .ok place)
    (other : Place) : w'.isFolder other = (w.isFolder other || other == place) := by
  obtain ⟨_, hplace', -, rfl⟩ := makeFolder_eq_ok h
  obtain rfl := Except.ok.inj (hplace.symm.trans hplace')
  simp only [isFolder, List.contains_cons]
  rw [Bool.or_comm (other == place)]
  simp only [Bool.or_assoc]

theorem holdsFolder_of_makeFolder (h : w.makeFolder p = .ok w') : w'.holdsFolder p := by
  obtain ⟨place, hplace, -, -⟩ := makeFolder_eq_ok h
  have hfolders := isFolder_makeFolder h hplace
  refine holdsFolder_iff.2 ⟨place, locate_eq_ok ?_ hplace, ?_⟩
  · intro other hother
    rw [hfolders, hother, Bool.true_or]
  · rw [hfolders, beq_self_eq_true, Bool.or_true]

theorem makeFolder_of_holdsFolder (h : w.holdsFolder p) : w.makeFolder p = .error .taken := by
  obtain ⟨place, hplace, hfolder⟩ := holdsFolder_iff.1 h
  unfold makeFolder
  rw [hplace]
  simp only [Except.bind, bind, isTaken, hfolder, Bool.true_or, if_true]

theorem holdsFolder_of_ensureFolder (h : w.ensureFolder p = .ok w') : w'.holdsFolder p := by
  unfold ensureFolder at h
  split at h
  · next hmake =>
    cases h
    exact holdsFolder_of_makeFolder hmake
  · split at h
    · next hholds =>
      cases h
      exact hholds
    · cases h

theorem holdsFolder_of_ensureParts {anchor : Anchor} {parts : List String}
    (h : w.ensureParts anchor parts = .ok w') : w'.holdsFolder ⟨anchor, parts.reverse⟩ := by
  cases parts with
  | nil => exact holdsFolder_of_ensureFolder h
  | cons part above =>
    unfold ensureParts at h
    simp only at h
    split at h
    · next hmake =>
      cases h
      exact holdsFolder_of_makeFolder hmake
    · cases habove : w.ensureParts anchor above with
      | error e =>
        rw [habove] at h
        cases h
      | ok between =>
        rw [habove] at h
        exact holdsFolder_of_ensureFolder h
    · split at h
      · next hholds =>
        cases h
        exact hholds
      · cases h

theorem holdsFolder_of_ensure (h : w.ensure p = .ok w') : w'.holdsFolder p := by
  have hholds := holdsFolder_of_ensureParts h
  rwa [List.reverse_reverse] at hholds

/-- A folder that is there is left as it is. -/
theorem ensure_of_holdsFolder (h : w.holdsFolder p) : w.ensure p = .ok w := by
  obtain ⟨anchor, parts⟩ := p
  unfold ensure
  cases hparts : parts.reverse with
  | nil =>
    rw [List.reverse_eq_nil_iff.1 hparts] at h
    unfold ensureParts ensureFolder
    rw [makeFolder_of_holdsFolder h]
    exact if_pos h
  | cons part above =>
    have hpath : (part :: above).reverse = parts := by rw [← hparts, List.reverse_reverse]
    unfold ensureParts
    simp only
    rw [hpath, makeFolder_of_holdsFolder h]
    exact if_pos h

/-- The folder is there or can be made, and then a file can be written at the path. -/
def Admits (w : Workspace) (folder p : Path) : Prop :=
  ∃ w', w.ensure folder = .ok w' ∧ w'.LeadsToFile p

theorem Admits.of_written {ensured : Workspace} (hensure : w.ensure folder = .ok ensured)
    (hwrite : ensured.write p text = .ok w') : w'.Admits folder p := by
  have hholds : w'.holdsFolder folder :=
    (holdsFolder_write hwrite).trans (holdsFolder_of_ensure hensure)
  exact ⟨w', ensure_of_holdsFolder hholds, LeadsToFile.write hwrite⟩

end Folders

section Kept

variable {w'' : Workspace} {spot : Place}

theorem follow_eq_foldl {start : Place} {parts : List String}
    (h : w.follow start parts = .ok place) : place = parts.foldl step start := by
  induction parts generalizing start with
  | nil =>
    cases h
    rfl
  | cons part parts ih =>
    unfold follow at h
    split at h
    · exact ih h
    · cases h

theorem eq_place_of_locate (h : w.locate p = .ok place) : place = p.place := follow_eq_foldl h

/-- Nothing was changed but the file at one place, and nothing was taken away. -/
structure KeepsBut (spot : Place) (w w' : Workspace) : Prop where
  file : ∀ place, place ≠ spot → w'.file? place = w.file? place
  folder : ∀ place, w.isFolder place → w'.isFolder place
  taken : ∀ place, (w.file? place).isSome →
    (w'.file? place).isSome ∧ w'.isFolder place = w.isFolder place

theorem KeepsBut.refl (spot : Place) (w : Workspace) : KeepsBut spot w w where
  file _ _ := rfl
  folder _ h := h
  taken _ h := ⟨h, rfl⟩

theorem KeepsBut.trans (h : KeepsBut spot w w') (h' : KeepsBut spot w' w'') :
    KeepsBut spot w w'' where
  file place hne := (h'.file place hne).trans (h.file place hne)
  folder place hfolder := h'.folder place (h.folder place hfolder)
  taken place hsome := by
    obtain ⟨hsome', hfolder⟩ := h.taken place hsome
    obtain ⟨hsome'', hfolder'⟩ := h'.taken place hsome'
    exact ⟨hsome'', hfolder'.trans hfolder⟩

theorem content_eq_ok_iff : w.content p = .ok text ↔
    ∃ place, w.locate p = .ok place ∧ w.isFolder place = false ∧ w.file? place = some text := by
  unfold content
  cases hplace : w.locate p with
  | error fault => simp [bind, Except.bind]
  | ok place =>
    simp only [bind, Except.bind]
    cases hfolder : w.isFolder place <;> cases hfile : w.file? place <;>
      simp [hfolder, hfile, pure, Except.pure]

/-- The content of a file stays if the change is at another place. -/
theorem KeepsBut.content (h : KeepsBut spot w w') (hne : p.place ≠ spot)
    (hw : w.content p = .ok text) : w'.content p = .ok text := by
  obtain ⟨place, hplace, hfolder, hfile⟩ := content_eq_ok_iff.1 hw
  obtain rfl := eq_place_of_locate hplace
  obtain ⟨-, hsame⟩ := h.taken p.place (by rw [hfile]; rfl)
  exact content_eq_ok_iff.2
    ⟨p.place, locate_eq_ok h.folder hplace, hsame.trans hfolder, (h.file p.place hne).trans hfile⟩

/-- Two paths to one place show the same file. -/
theorem KeepsBut.content_of_place_eq {q : Path} (h : KeepsBut spot w w')
    (hw : w.content p = .ok text) {text' : String} (hplace : p.place = q.place)
    (hw' : w'.content q = .ok text') : w'.content p = .ok text' := by
  obtain ⟨place, hp, -, -⟩ := content_eq_ok_iff.1 hw
  obtain ⟨place', hq, hfolder, hfile⟩ := content_eq_ok_iff.1 hw'
  obtain rfl := eq_place_of_locate hp
  obtain rfl := eq_place_of_locate hq
  rw [← hplace] at hfolder hfile
  exact content_eq_ok_iff.2 ⟨p.place, locate_eq_ok h.folder hp, hfolder, hfile⟩

theorem lookup_filter_ne {files : List (Place × String)} {place : Place} (h : place ≠ spot) :
    (files.filter (·.1 != spot)).lookup place = files.lookup place := by
  induction files with
  | nil => rfl
  | cons file files ih =>
    obtain ⟨q, text⟩ := file
    by_cases hq : q = spot
    · have hplace : (place == q) = false := by simpa [hq] using h
      rw [List.filter_cons_of_neg (by simp [hq]), ih, List.lookup_cons, hplace]
    · rw [List.filter_cons_of_pos (by simpa using hq), List.lookup_cons, List.lookup_cons, ih]

theorem keepsBut_write (h : w.write p text = .ok w') : KeepsBut p.place w w' := by
  obtain ⟨place, hplace, -, hw'⟩ := write_eq_ok h
  obtain rfl := eq_place_of_locate hplace
  have hfile (place : Place) (hne : place ≠ p.place) : w'.file? place = w.file? place := by
    have hbeq : (place == p.place) = false := by simpa using hne
    rw [hw', file?, file?, List.lookup_cons, hbeq]
    exact lookup_filter_ne hne
  have hwritten : w'.file? p.place = some text := by
    rw [hw']
    exact List.lookup_cons_self
  refine ⟨hfile, fun place hfolder ↦ (isFolder_write h place).trans hfolder,
    fun place hsome ↦ ⟨?_, isFolder_write h place⟩⟩
  by_cases hne : place = p.place
  · rw [hne, hwritten]
    rfl
  · rw [hfile place hne]
    exact hsome

theorem keepsBut_makeFolder (spot : Place) (h : w.makeFolder p = .ok w') : KeepsBut spot w w' := by
  obtain ⟨made, hmade, hfree, hw'⟩ := makeFolder_eq_ok h
  have hfolders := isFolder_makeFolder h hmade
  have hfile (place : Place) : w'.file? place = w.file? place := by
    rw [hw']
    rfl
  refine ⟨fun place _ ↦ hfile place, fun place hfolder ↦ ?_, fun place hsome ↦ ⟨?_, ?_⟩⟩
  · rw [hfolders, hfolder, Bool.true_or]
  · rw [hfile]
    exact hsome
  · -- The new folder is not where the file is.
    have hne : place ≠ made := by
      rintro rfl
      rw [isTaken, hsome, Bool.or_true] at hfree
      cases hfree
    rw [hfolders, beq_eq_false_iff_ne.2 hne, Bool.or_false]

theorem keepsBut_ensureFolder (spot : Place) (h : w.ensureFolder p = .ok w') :
    KeepsBut spot w w' := by
  unfold ensureFolder at h
  split at h
  · next hmake =>
    cases h
    exact keepsBut_makeFolder spot hmake
  · split at h
    · cases h
      exact .refl spot w
    · cases h

theorem keepsBut_ensureParts (spot : Place) {anchor : Anchor} {parts : List String}
    (h : w.ensureParts anchor parts = .ok w') : KeepsBut spot w w' := by
  induction parts generalizing w' with
  | nil => exact keepsBut_ensureFolder spot h
  | cons part above ih =>
    unfold ensureParts at h
    simp only at h
    split at h
    · next hmake =>
      cases h
      exact keepsBut_makeFolder spot hmake
    · cases habove : w.ensureParts anchor above with
      | error e =>
        rw [habove] at h
        cases h
      | ok between =>
        rw [habove] at h
        exact (ih habove).trans (keepsBut_ensureFolder spot h)
    · split at h
      · cases h
        exact .refl spot w
      · cases h

theorem keepsBut_ensure (spot : Place) (h : w.ensure p = .ok w') : KeepsBut spot w w' :=
  keepsBut_ensureParts spot h

end Kept

end AbnfCompiler.Workspace
