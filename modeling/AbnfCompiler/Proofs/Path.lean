import AbnfCompiler.Workspace

/-!
When two paths lead to one place. Seen from one folder, two relative paths are one only if they have
the same parts, while an absolute path is the same from everywhere.
-/
namespace AbnfCompiler.Path

variable {p q root : Path} {s t : String}

section Below

/-- A text that names a folder below any other one. -/
def IsFolderName (s : String) : Prop := s ≠ "" ∧ s ≠ "." ∧ s ≠ ".." ∧ '/' ∉ s.toList

instance : DecidablePred IsFolderName :=
  fun s ↦ inferInstanceAs (Decidable (s ≠ "" ∧ s ≠ "." ∧ s ≠ ".." ∧ '/' ∉ s.toList))

theorem ofText_of_isFolderName (h : IsFolderName s) : ofText s = ⟨.here, [s]⟩ := by
  obtain ⟨hempty, hdot, -, hslash⟩ := h
  have hanchor : anchorOf s.toList = .here := by
    unfold anchorOf
    split <;> simp_all
  have hparts : Text.splitAt '/' s = [s] := by
    rw [Text.splitAt, Text.pieces_of_not_mem hslash]
    simp
  rw [ofText, hanchor, hparts]
  simp [hempty, hdot]

theorem join_relative (p : Path) (h : q.isAbsolute = false) :
    p.join q = ⟨p.anchor, p.parts ++ q.parts⟩ := by
  simp [join, h]

/-- There is a folder from which two paths are one: they are equal, or one is absolute and ends
with the other one. -/
def Meet (p q : Path) : Prop :=
  p = q ∨ (p.isAbsolute ∧ q.isAbsolute = false ∧ q.parts <:+ p.parts) ∨
    (q.isAbsolute ∧ p.isAbsolute = false ∧ p.parts <:+ q.parts)

theorem exists_join_eq_of_suffix (hp : p.isAbsolute) (hq : q.isAbsolute = false) :
    (∃ root : Path, root.join p = root.join q) ↔ q.parts <:+ p.parts := by
  obtain ⟨anchor, parts⟩ := p
  simp only [join_absolute hp, join_relative _ hq]
  constructor
  · rintro ⟨root, h⟩
    obtain ⟨-, rfl⟩ := Path.mk.inj h
    exact List.suffix_append _ _
  · rintro ⟨above, rfl⟩
    exact ⟨⟨anchor, above⟩, rfl⟩

theorem anchor_of_relative (h : p.isAbsolute = false) : p.anchor = .here := by
  simpa [isAbsolute] using h

theorem join_relative_inj (hp : p.isAbsolute = false) (hq : q.isAbsolute = false) :
    root.join p = root.join q ↔ p = q := by
  have hanchor : p.anchor = q.anchor := (anchor_of_relative hp).trans (anchor_of_relative hq).symm
  obtain ⟨_, parts⟩ := p
  obtain ⟨_, parts'⟩ := q
  simp only [join_relative _ hp, join_relative _ hq, mk.injEq, List.append_cancel_left_eq,
    true_and]
  exact (and_iff_right hanchor).symm

theorem exists_join_eq_iff : (∃ root : Path, root.join p = root.join q) ↔ Meet p q := by
  have hne (h : p.isAbsolute ≠ q.isAbsolute) : p ≠ q := fun heq ↦ h (congrArg isAbsolute heq)
  unfold Meet
  cases hp : p.isAbsolute <;> cases hq : q.isAbsolute
  case false.false =>
    simp only [join_relative_inj hp hq]
    exact ⟨fun ⟨_, h⟩ ↦ Or.inl h, fun h ↦ ⟨p, by simpa using h⟩⟩
  case false.true =>
    have hsuffix := exists_join_eq_of_suffix hq hp
    simp only [@eq_comm _ (join _ q)] at hsuffix
    rw [hsuffix]
    simp [hne (by simp [hp, hq])]
  case true.false =>
    rw [exists_join_eq_of_suffix hp hq]
    simp [hne (by simp [hp, hq])]
  case true.true =>
    simp only [join_absolute hp, join_absolute hq]
    exact ⟨fun ⟨_, h⟩ ↦ Or.inl h, fun h ↦ ⟨p, by simpa using h⟩⟩

end Below

section Place

/-- The place that a path leads to if nothing is in the way. -/
def place (p : Path) : Place :=
  p.parts.foldl Workspace.step (if p.isAbsolute then [] else Workspace.home)

theorem foldl_step {parts : List String} (h : ".." ∉ parts) (start : Place) :
    parts.foldl Workspace.step start = parts.reverse ++ start := by
  induction parts generalizing start with
  | nil => rfl
  | cons part parts ih =>
    obtain ⟨hpart, hparts⟩ := not_or.1 fun hmem ↦ h (List.mem_cons.2 hmem)
    have hstep : Workspace.step start part = part :: start := if_neg (Ne.symm hpart)
    rw [List.foldl_cons, ih hparts, hstep, List.reverse_cons, List.append_assoc]
    rfl

/-- The path leads to something below the folder that it is seen from. -/
def StaysBelow (p : Path) : Prop := p.isAbsolute = false ∧ ".." ∉ p.parts

instance : DecidablePred StaysBelow :=
  fun p ↦ inferInstanceAs (Decidable (p.isAbsolute = false ∧ ".." ∉ p.parts))

theorem place_join (h : StaysBelow q) (p : Path) :
    (p.join q).place = q.parts.reverse ++ p.place := by
  rw [join_relative p h.1, ← foldl_step h.2]
  exact List.foldl_append

theorem staysBelow_of_isFolderName (h : IsFolderName s) : StaysBelow (ofText s) := by
  obtain ⟨-, -, hup, -⟩ := id h
  rw [ofText_of_isFolderName h]
  exact ⟨rfl, by simpa using hup.symm⟩

/-- Files of one name in folders beside each other are apart if the folders have different names. -/
theorem place_beside_iff (hs : IsFolderName s) (ht : IsFolderName t) (hq : StaysBelow q) :
    ((root.join (ofText s)).join q).place = ((root.join (ofText t)).join q).place ↔ s = t := by
  rw [place_join hq, place_join hq, place_join (staysBelow_of_isFolderName hs),
    place_join (staysBelow_of_isFolderName ht), ofText_of_isFolderName hs,
    ofText_of_isFolderName ht]
  simp

theorem meet_iff_of_isFolderName (hs : IsFolderName s) (ht : IsFolderName t) :
    Meet (ofText s) (ofText t) ↔ s = t := by
  rw [ofText_of_isFolderName hs, ofText_of_isFolderName ht]
  simp [Meet, isAbsolute]

end Place

section Reading

variable {parts : List String}

/-- The parts are as they are when a path is read. -/
def IsProper (p : Path) : Prop := ∀ part ∈ p.parts, part ≠ "" ∧ part ≠ "." ∧ '/' ∉ part.toList

theorem isProper_ofText (s : String) : (ofText s).IsProper := by
  intro part hpart
  obtain ⟨hpiece, hkept⟩ := List.mem_filter.1 hpart
  obtain ⟨hempty, hdot⟩ := of_decide_eq_true hkept
  obtain ⟨cs, hcs, rfl⟩ := List.mem_map.1 hpiece
  refine ⟨hempty, hdot, ?_⟩
  rw [String.toList_ofList]
  exact Text.not_mem_of_mem_pieces hcs

theorem IsProper.parent (h : p.IsProper) : p.parent.IsProper :=
  fun part hpart ↦ h part (List.dropLast_subset _ hpart)

theorem IsProper.join (hp : p.IsProper) (hq : q.IsProper) : (p.join q).IsProper := by
  cases hanchor : q.isAbsolute with
  | true => rwa [join_absolute hanchor]
  | false =>
    rw [join_relative p hanchor]
    intro part hpart
    exact (List.mem_append.1 hpart).elim (hp part) (hq part)

theorem parts_ofText_slash (s : String) : (ofText ("/" ++ s)).parts = (ofText s).parts := by
  have hlist : ("/" ++ s).toList = '/' :: s.toList := by simp
  simp [ofText, Text.splitAt, hlist, Text.pieces]

theorem parts_ofText_intercalate (h : IsProper ⟨.here, parts⟩) :
    (ofText ("/".intercalate parts)).parts = parts := by
  have hkept : parts.filter (fun part ↦ part ≠ "" ∧ part ≠ ".") = parts := by
    refine List.filter_eq_self.2 fun part hpart ↦ decide_eq_true ?_
    exact ⟨(h part hpart).1, (h part hpart).2.1⟩
  cases hparts : parts with
  | nil => rfl
  | cons first others =>
    have hslash : ∀ cs ∈ parts.map String.toList, '/' ∉ cs := by
      intro cs hcs
      obtain ⟨part, hpart, rfl⟩ := List.mem_map.1 hcs
      exact (h part hpart).2.2
    have hsplit : Text.splitAt '/' ("/".intercalate parts) = parts := by
      have hlist : ("/".intercalate parts).toList = ['/'].intercalate (parts.map String.toList) :=
        String.toList_intercalate
      rw [Text.splitAt, hlist, Text.pieces_eq_splitOn,
        List.splitOn_intercalate '/' hslash (by simp [hparts])]
      simp
    rw [← hparts, ofText, hsplit]
    exact hkept

theorem anchorOf_of_head {cs : List Char} (h : cs.head? ≠ some '/') :
    anchorOf cs = .here ∧ anchorOf ('/' :: cs) = .root ∧
      anchorOf ('/' :: '/' :: cs) = .doubleRoot := by
  cases cs with
  | nil => exact ⟨rfl, rfl, rfl⟩
  | cons c cs =>
    have hc : c ≠ '/' := by simpa using h
    refine ⟨?_, ?_, ?_⟩ <;> simp [anchorOf, hc]

theorem head?_intercalate (h : IsProper ⟨.here, parts⟩) :
    ("/".intercalate parts).toList.head? ≠ some '/' := by
  have hlist : ("/".intercalate parts).toList = ['/'].intercalate (parts.map String.toList) :=
    String.toList_intercalate
  cases parts with
  | nil => simp
  | cons first others =>
    obtain ⟨hempty, -, hslash⟩ := h first List.mem_cons_self
    cases hfirst : first.toList with
    | nil => simp_all
    | cons c cs =>
      rw [hfirst, List.mem_cons, not_or] at hslash
      rw [hlist, List.map_cons, hfirst]
      cases others <;> simp [List.intercalate, Ne.symm hslash.1]

/-- A path is read as it was written. -/
theorem ofText_toText (h : p.IsProper) : ofText p.toText = p := by
  obtain ⟨anchor, parts⟩ := p
  have hparts := parts_ofText_intercalate h
  obtain ⟨hhere, hroot, hdouble⟩ := anchorOf_of_head (head?_intercalate h)
  have hread {s : String} {a : Anchor} (hanchor : anchorOf s.toList = a)
      (hs : (ofText s).parts = parts) : ofText s = ⟨a, parts⟩ := by
    rw [← hanchor, ← hs]
    rfl
  cases anchor with
  | here =>
    cases parts with
    | nil => rfl
    | cons first others => exact hread hhere hparts
  | root =>
    refine hread ?_ ((parts_ofText_slash _).trans hparts)
    simpa [toText] using hroot
  | doubleRoot =>
    have hslash : "//" ++ "/".intercalate parts = "/" ++ ("/" ++ "/".intercalate parts) := by
      rw [← String.append_assoc]
      rfl
    refine hread ?_ ?_
    · simpa [toText] using hdouble
    · rw [toText, hslash, parts_ofText_slash, parts_ofText_slash, hparts]

end Reading

end AbnfCompiler.Path
