import AbnfCompiler.Proofs.Data.Check
import AbnfCompiler.Proofs.Session.Fix

/-!
Sessions that are changed. A change keeps the canonical form, and a session after some changes is
the one that is read from the fields with the same names and groups at their ends.
-/
namespace AbnfCompiler.Session

open RuleName Data

/-- One more name to inline, or one more conflict group, each in any spelling. -/
inductive Change
  | inlined (name : String)
  | conflict (names : List String)

def Change.apply : Change → Session → Session
  | .inlined name, s => s.withInlined name
  | .conflict names, s => s.withConflict names

variable {s : Session} {entries : List (Value × Value)} {changes : List Change}

def changed (s : Session) (changes : List Change) : Session :=
  changes.foldl (fun s change ↦ change.apply s) s

section Canonical

/-- A session in normal form in which nothing stands twice and groups are in order. -/
structure InCanonicalForm (s : Session) : Prop extends s.InNormalForm where
  hidden_nodup : s.hidden.Nodup
  inlined_nodup : s.inlined.Nodup
  sorted : ∀ group ∈ s.conflicts, group.Pairwise (· < ·)
  conflicts_nodup : s.conflicts.Nodup

theorem nodup_foldl_addNew {α : Type} [DecidableEq α] {acc : List α} (h : acc.Nodup)
    (xs : List α) : (xs.foldl addNew acc).Nodup := by
  obtain ⟨added, hadded, hnodup, hmem⟩ := exists_foldl_addNew xs acc
  rw [hadded]
  exact h.append hnodup fun x hx hx' ↦ ((hmem x).1 hx').1 hx

theorem nodup_distinct {α : Type} [DecidableEq α] (xs : List α) : (distinct xs).Nodup :=
  nodup_foldl_addNew .nil xs

theorem inCanonicalForm_canonical (s : Session) : s.canonical.InCanonicalForm where
  toInNormalForm := inNormalForm_canonical s
  hidden_nodup := nodup_distinct _
  inlined_nodup := nodup_distinct _
  sorted group hgroup := by
    obtain ⟨names, -, rfl⟩ := List.mem_map.1 (mem_distinct.1 hgroup)
    exact Text.Sorted.pairwise_ofList _
  conflicts_nodup := nodup_distinct _

theorem foldl_addNew_of_nodup {α : Type} [DecidableEq α] {acc xs : List α}
    (h : (acc ++ xs).Nodup) : xs.foldl addNew acc = acc ++ xs := by
  induction xs generalizing acc with
  | nil => rw [List.foldl_nil, List.append_nil]
  | cons x xs ih =>
    have hx : x ∉ acc := fun hin ↦ (List.nodup_append.1 h).2.2 x hin x List.mem_cons_self rfl
    rw [List.append_cons] at h ⊢
    rw [List.foldl_cons, addNew, if_neg hx, ih h]

theorem groupOf_eq_self {group : List String} (hnormal : ∀ name ∈ group, normal name = name)
    (hsorted : group.Pairwise (· < ·)) : groupOf group = group := by
  rw [groupOf, List.map_congr_left hnormal, List.map_id']
  exact Text.Sorted.eq_of_mem_iff (Text.Sorted.pairwise_ofList group) hsorted fun name ↦
    Text.Sorted.mem_ofList

/-- The sessions in canonical form are those that need not be made canonical. -/
theorem canonical_eq_self_iff : s.canonical = s ↔ s.InCanonicalForm := by
  refine ⟨fun h ↦ h ▸ inCanonicalForm_canonical s, fun h ↦ ?_⟩
  have hhidden : distinct (s.hidden.map normal) = s.hidden := by
    rw [List.map_congr_left h.hidden, List.map_id']
    exact foldl_addNew_of_nodup h.hidden_nodup
  have hinlined : distinct (s.inlined.map normal) = s.inlined := by
    rw [List.map_congr_left h.inlined, List.map_id']
    exact foldl_addNew_of_nodup h.inlined_nodup
  have hconflicts : distinct (s.conflicts.map groupOf) = s.conflicts := by
    rw [List.map_congr_left fun group hgroup ↦ groupOf_eq_self (h.conflicts group hgroup)
      (h.sorted group hgroup), List.map_id']
    exact foldl_addNew_of_nodup h.conflicts_nodup
  rw [canonical, h.start, hhidden, hinlined, hconflicts]

end Canonical

section Changes

def inlinedNames (changes : List Change) : List String :=
  changes.filterMap fun
    | .inlined name => some name
    | .conflict _ => none

def declaredGroups (changes : List Change) : List (List String) :=
  changes.filterMap fun
    | .inlined _ => none
    | .conflict names => some names

theorem changed_eq (s : Session) (changes : List Change) :
    s.changed changes =
      { s with
        inlined := ((inlinedNames changes).map normal).foldl addNew s.inlined
        conflicts := ((declaredGroups changes).map groupOf).foldl addNew s.conflicts } := by
  induction changes generalizing s with
  | nil => rfl
  | cons change changes ih =>
    have hcons : s.changed (change :: changes) = (change.apply s).changed changes := rfl
    rw [hcons, ih]
    cases change <;> rfl

/-- Changing a canonical session is putting the names and groups into the session before. -/
theorem changed_canonical (s : Session) (changes : List Change) :
    s.canonical.changed changes =
      { s with
        inlined := s.inlined ++ inlinedNames changes
        conflicts := s.conflicts ++ declaredGroups changes }.canonical := by
  rw [changed_eq]
  simp only [canonical, distinct, List.map_append, List.foldl_append]

theorem InCanonicalForm.changed (h : s.InCanonicalForm) (changes : List Change) :
    (s.changed changes).InCanonicalForm := by
  rw [← canonical_eq_self_iff.2 h, changed_canonical]
  exact inCanonicalForm_canonical _

theorem apply_changed_of_mem {change : Change} (h : change ∈ changes) :
    change.apply (s.changed changes) = s.changed changes := by
  rw [changed_eq]
  cases change with
  | inlined name =>
    have hmem : normal name ∈ ((inlinedNames changes).map normal).foldl addNew s.inlined :=
      mem_foldl_addNew.2 (Or.inr (List.mem_map_of_mem (List.mem_filterMap.2 ⟨_, h, rfl⟩)))
    simp only [Change.apply, withInlined, addNew, if_pos hmem]
  | conflict names =>
    have hmem : groupOf names ∈ ((declaredGroups changes).map groupOf).foldl addNew s.conflicts :=
      mem_foldl_addNew.2 (Or.inr (List.mem_map_of_mem (List.mem_filterMap.2 ⟨_, h, rfl⟩)))
    simp only [Change.apply, withConflict, addNew, if_pos hmem]

theorem prefix_changed (s : Session) (changes : List Change) :
    s.inlined <+: (s.changed changes).inlined ∧ s.conflicts <+: (s.changed changes).conflicts := by
  rw [changed_eq]
  obtain ⟨names, hnames, -⟩ := exists_foldl_addNew ((inlinedNames changes).map normal) s.inlined
  obtain ⟨groups, hgroups, -⟩ :=
    exists_foldl_addNew ((declaredGroups changes).map groupOf) s.conflicts
  rw [hnames, hgroups]
  exact ⟨List.prefix_append _ _, List.prefix_append _ _⟩

theorem mem_changed_of_perm {changes' : List Change} (h : changes.Perm changes') :
    (∀ name, name ∈ (s.changed changes).inlined ↔ name ∈ (s.changed changes').inlined) ∧
      ∀ group, group ∈ (s.changed changes).conflicts ↔ group ∈ (s.changed changes').conflicts := by
  have hnames : (inlinedNames changes).Perm (inlinedNames changes') := h.filterMap _
  have hgroups : (declaredGroups changes).Perm (declaredGroups changes') := h.filterMap _
  simp only [changed_eq, mem_foldl_addNew]
  exact ⟨fun name ↦ or_congr_right (hnames.map normal).mem_iff,
    fun group ↦ or_congr_right (hgroups.map groupOf).mem_iff⟩

end Changes

section Fields

/-- The entries of a session with the names and groups of changes at the ends of its lists. -/
def extended (entries : List (Value × Value)) (changes : List Change) : List (Value × Value) :=
  Value.appended "conflicts" ((declaredGroups changes).map fun names ↦ .list (names.map .text))
    (Value.appended "inline_rules" ((inlinedNames changes).map .text) entries)

/-- The fields of a session before its lists of inlined names and conflict groups. -/
def leading (entries : List (Value × Value)) :
    Checked (List String → List (List String) → Session) :=
  Session.mk <$> required entries "source" asPath <*> required entries "location" asPath
    <*> required entries "start_rule" asText <*> required entries "language_name" asText
    <*> defaulted entries "include_core_rules" asTruth false
    <*> defaulted entries "hidden_rules" (asTuple asText) []

theorem ofValue_map (entries : List (Value × Value)) : ofValue (.map entries) =
    canonical <$> (leading entries <*> defaulted entries "inline_rules" (asTuple asText) []
      <*> defaulted entries "conflicts" (asTuple (asTuple asText)) []) :=
  rfl

theorem leading_extended : leading (extended entries changes) = leading entries := by
  have hfind {key : String} (hinlined : key ≠ "inline_rules") (hconflicts : key ≠ "conflicts") :
      Value.find? key (extended entries changes) = Value.find? key entries := by
    rw [extended, Value.find?_appended_ne hconflicts, Value.find?_appended_ne hinlined]
  unfold leading
  rw [required_congr (hfind (by decide) (by decide)),
    required_congr (hfind (by decide) (by decide)),
    required_congr (hfind (by decide) (by decide)),
    required_congr (hfind (by decide) (by decide)),
    defaulted_congr (hfind (by decide) (by decide)),
    defaulted_congr (hfind (by decide) (by decide))]

theorem exists_of_leading {f : List String → List (List String) → Session}
    (h : leading entries = .ok f) : ∃ r : Session, ∀ inlined conflicts,
      f inlined conflicts = { r with inlined, conflicts } := by
  obtain ⟨_, hidden, hhidden, -, rfl⟩ := seq_eq_ok.1 h
  obtain ⟨_, withCore, hcore, -, rfl⟩ := seq_eq_ok.1 hhidden
  obtain ⟨_, language, hlanguage, -, rfl⟩ := seq_eq_ok.1 hcore
  obtain ⟨_, start, hstart, -, rfl⟩ := seq_eq_ok.1 hlanguage
  obtain ⟨_, location, hlocation, -, rfl⟩ := seq_eq_ok.1 hstart
  obtain ⟨source, -, rfl⟩ := map_eq_ok.1 hlocation
  exact ⟨⟨source, location, start, language, withCore, hidden, [], []⟩, fun _ _ ↦ rfl⟩

/-- Fields that make a session make one with further names and groups as well. -/
theorem exists_of_ofValue (h : ofValue (.map entries) = .ok s) : ∃ raw : Session,
    s = raw.canonical ∧ ∀ changes, ofValue (.map (extended entries changes)) =
      .ok { raw with
        inlined := raw.inlined ++ inlinedNames changes
        conflicts := raw.conflicts ++ declaredGroups changes }.canonical := by
  rw [ofValue_map] at h
  obtain ⟨_, hraw, rfl⟩ := map_eq_ok.1 h
  obtain ⟨_, conflicts, hfields, hconflicts, rfl⟩ := seq_eq_ok.1 hraw
  obtain ⟨f, inlined, hleading, hinlined, rfl⟩ := seq_eq_ok.1 hfields
  obtain ⟨raw, hf⟩ := exists_of_leading hleading
  refine ⟨f inlined conflicts, rfl, fun changes ↦ ?_⟩
  have hnames : List.Forall₂ (fun v name ↦ asText v = .ok name)
      ((inlinedNames changes).map .text) (inlinedNames changes) :=
    List.forall₂_map_left_iff.2 (List.forall₂_same.2 fun _ _ ↦ rfl)
  have hgroups : List.Forall₂ (fun v names ↦ asTuple asText v = .ok names)
      ((declaredGroups changes).map fun names ↦ .list (names.map .text))
      (declaredGroups changes) := by
    refine List.forall₂_map_left_iff.2 (List.forall₂_same.2 fun names _ ↦ ?_)
    exact eachFrom_eq_ok.2 (List.forall₂_map_left_iff.2 (List.forall₂_same.2 fun _ _ ↦ rfl))
  have hinlined' : defaulted (extended entries changes) "inline_rules" (asTuple asText) []
      = .ok (inlined ++ inlinedNames changes) := by
    rw [extended, defaulted_congr (Value.find?_appended_ne (by decide))]
    exact defaulted_appended hinlined hnames
  have hconflicts' : defaulted (extended entries changes) "conflicts" (asTuple (asTuple asText)) []
      = .ok (conflicts ++ declaredGroups changes) := by
    refine defaulted_appended ?_ hgroups
    rw [defaulted_congr (Value.find?_appended_ne (by decide)), hconflicts]
  rw [ofValue_map, leading_extended, hleading, hinlined', hconflicts', hf]
  refine map_eq_ok.2 ⟨_, seq_eq_ok.2 ⟨_, _, seq_eq_ok.2 ⟨_, _, rfl, rfl, rfl⟩, rfl, hf _ _⟩, rfl⟩

end Fields

/-- A session that is read from fields and then changed any number of times is in canonical form. It
is the session that is read from the fields with the names and groups of the changes at their ends.
A change that was made does nothing any more, earlier names and groups keep their places, all else
stays as it was read, and the order of the changes has no influence on what the session holds. -/
theorem changed_of_ofValue (h : ofValue (.map entries) = .ok s) (changes : List Change) :
    (s.changed changes).InCanonicalForm ∧ (s.changed changes).canonical = s.changed changes ∧
      ofValue (.map (extended entries changes)) = .ok (s.changed changes) ∧
      (∀ change ∈ changes, change.apply (s.changed changes) = s.changed changes) ∧
      (∀ before after, changes = before ++ after →
        (s.changed before).inlined <+: (s.changed changes).inlined ∧
          (s.changed before).conflicts <+: (s.changed changes).conflicts) ∧
      { s.changed changes with inlined := s.inlined, conflicts := s.conflicts } = s ∧
      ∀ changes', changes.Perm changes' →
        (s.changed changes).inlined.Perm (s.changed changes').inlined ∧
          (s.changed changes).conflicts.Perm (s.changed changes').conflicts := by
  obtain ⟨raw, rfl, hextended⟩ := exists_of_ofValue h
  have hcanonical := inCanonicalForm_canonical raw
  have hform := hcanonical.changed changes
  refine ⟨hform, canonical_eq_self_iff.2 hform, ?_, fun _ ↦ apply_changed_of_mem, ?_, ?_, ?_⟩
  · rw [hextended, changed_canonical]
  · rintro before after rfl
    rw [changed, changed, List.foldl_append]
    exact prefix_changed (raw.canonical.changed before) after
  · rw [changed_eq]
  · intro changes' hperm
    obtain ⟨hnames, hgroups⟩ := mem_changed_of_perm (s := raw.canonical) hperm
    have hform' := hcanonical.changed changes'
    exact ⟨(List.perm_ext_iff_of_nodup hform.inlined_nodup hform'.inlined_nodup).2 hnames,
      (List.perm_ext_iff_of_nodup hform.conflicts_nodup hform'.conflicts_nodup).2 hgroups⟩

section Instances

def toyFields : List (Value × Value) :=
  [(.text "source", .text "toy.abnf"), (.text "location", .text "build"),
    (.text "start_rule", .text " the-start "), (.text "language_name", .text "toy"),
    (.text "inline_rules", .list [.text "a-b", .text "a_b"])]

def toySession : Session :=
  { source := .ofText "toy.abnf", location := .ofText "build", start := "the_start",
    language := "toy", inlined := ["a_b"] }

/-- The name is inlined already, and one group is declared twice in different spellings. -/
theorem ofValue_toyFields :
    ofValue (.map toyFields) = .ok toySession ∧
    ofValue (.map (extended toyFields
        [.conflict ["d", "c", "d "], .inlined " a-b", .inlined "e", .conflict ["c", "d"]]))
      = .ok { toySession with inlined := ["a_b", "e"], conflicts := [["c", "d"]] } := by
  have htoy : ofValue (.map toyFields) = .ok toySession := rfl
  refine ⟨htoy, ?_⟩
  rw [(changed_of_ofValue htoy _).2.2.1, Checked.ok.injEq]
  decide

end Instances

end AbnfCompiler.Session
