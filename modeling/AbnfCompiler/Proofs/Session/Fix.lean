import AbnfCompiler.Proofs.Session.NormalForm
import AbnfCompiler.Session.Room

/-!
What a fix does. It inlines further rules, or it declares one further conflict group, and leaves
the rest of the session alone. Inlining keeps a valid grammar valid. A new conflict group does so
unless it names a rule that is inlined already: this is not among the obstacles of a fix.
-/
namespace AbnfCompiler.Session

open RuleName

variable {s s' : Session} {d : Diagnostic} {g : Grammar}

theorem ruleOf_congr (h : s'.hidden = s.hidden) : s'.ruleOf = s.ruleOf := by
  funext reported
  rw [ruleOf, ruleOf, h]

section Cases

theorem exists_foldl_addNew {α : Type} [DecidableEq α] (xs acc : List α) :
    ∃ added, xs.foldl addNew acc = acc ++ added ∧ added.Nodup ∧
      ∀ x, x ∈ added ↔ x ∉ acc ∧ x ∈ xs := by
  induction xs generalizing acc with
  | nil => exact ⟨[], by simp, .nil, by simp⟩
  | cons y ys ih =>
    rw [List.foldl_cons]
    by_cases hy : y ∈ acc
    · obtain ⟨added, hadded, hnodup, hmem⟩ := ih acc
      refine ⟨added, by rw [addNew, if_pos hy, hadded], hnodup, fun x ↦ ?_⟩
      rw [hmem, List.mem_cons]
      exact and_congr_right fun hx ↦ ⟨Or.inr, fun h ↦ h.resolve_left fun he ↦ hx (he ▸ hy)⟩
    · obtain ⟨added, hadded, hnodup, hmem⟩ := ih (acc ++ [y])
      have hyadded : y ∉ added := fun h ↦ ((hmem y).1 h).1 (by simp)
      refine ⟨y :: added, by rw [addNew, if_neg hy, hadded]; simp, hnodup.cons hyadded, fun x ↦ ?_⟩
      rw [List.mem_cons, hmem, List.mem_append, List.mem_singleton, List.mem_cons]
      constructor
      · rintro (rfl | ⟨hx, hys⟩)
        · exact ⟨hy, Or.inl rfl⟩
        · exact ⟨fun h ↦ hx (Or.inl h), Or.inr hys⟩
      · rintro ⟨hx, rfl | hys⟩
        · exact Or.inl rfl
        · exact or_iff_not_imp_left.2 fun hne ↦ ⟨fun h ↦ h.elim hx hne, hys⟩

theorem foldl_withInlined (names : List String) (s : Session) :
    names.foldl withInlined s
      = { s with inlined := (names.map normal).foldl addNew s.inlined } := by
  induction names generalizing s with
  | nil => rfl
  | cons n ns ih => rw [List.foldl_cons, ih]; rfl

theorem amended_eq_self : s.amended d = s ↔
    if d.kind = .emptyMatch then ∀ r ∈ d.rules, normal (s.ruleOf r) ∈ s.inlined
    else groupOf (d.rules.map s.ruleOf) ∈ s.conflicts := by
  unfold amended
  split
  · constructor
    · intro h r hr
      have hin := (mem_inlined_foldl s).2 (Or.inr ⟨s.ruleOf r, List.mem_map_of_mem hr, rfl⟩)
      rwa [h] at hin
    · exact fun h ↦ foldl_withInlined_eq_self (List.forall_mem_map.2 h)
  · constructor
    · intro h
      have hin : groupOf (d.rules.map s.ruleOf)
          ∈ (s.withConflict (d.rules.map s.ruleOf)).conflicts := mem_addNew.2 (Or.inr rfl)
      rwa [h] at hin
    · intro h
      rw [withConflict, addNew, if_pos h]

theorem knows_grammar {s₀ : Session} {ds : List Definition} :
    s.knows d (s₀.grammar ds) ↔ ∀ r ∈ d.rules, s.ruleOf r ∈ ds.map Definition.name := by
  constructor
  · intro h r hr
    have hmem := mem_ruleNames_of_knows h _ (List.mem_map_of_mem hr)
    rw [ruleNames_grammar] at hmem
    exact hmem
  · refine fun h ↦ List.all_eq_true.2 fun r hr ↦ ?_
    obtain ⟨e, he, hname⟩ := List.mem_map.1 (h r hr)
    rw [Grammar.rule?, List.find?_isSome]
    exact ⟨e.toRule s₀.hidden s₀.inlined, List.mem_map_of_mem he, beq_iff_eq.2 hname⟩

/-- Nothing keeps rules from being inlined that are in no conflict group and do not come back to
themselves. -/
theorem obstacle?_eq_none (hkind : d.kind = .emptyMatch) : s.obstacle? d (some g) = none ↔
    (∀ r ∈ d.rules, ∀ group ∈ s.conflicts, s.ruleOf r ∉ group) ∧
      ∀ r ∈ d.rules, g.reachesItself (s.inlined ++ d.rules.map s.ruleOf) (s.ruleOf r) = false := by
  unfold obstacle?
  rw [if_neg (by simp [hkind]), Option.or_eq_none_iff, List.findSome?_eq_none_iff,
    Option.bind_some, Option.map_eq_none_iff, List.find?_eq_none]
  simp only [List.forall_mem_map, Option.map_eq_none_iff, List.find?_eq_none,
    List.contains_eq_mem, decide_eq_true_eq, Bool.not_eq_true]

/-- Everything that a fix can do. -/
theorem fix?_cases (h : s.fix? d (some g) = some s') :
    d.rules ≠ [] ∧ (∀ r ∈ d.rules, s.ruleOf r ∈ g.ruleNames) ∧
      ((d.kind = .emptyMatch ∧ s.obstacle? d (some g) = none ∧ ∃ added, added ≠ [] ∧ added.Nodup ∧
          (∀ n, n ∈ added ↔ n ∉ s.inlined ∧ ∃ r ∈ d.rules, normal (s.ruleOf r) = n) ∧
          s' = { s with inlined := s.inlined ++ added }) ∨
        (d.kind = .missingConflict ∧ groupOf (d.rules.map s.ruleOf) ∉ s.conflicts ∧
          s' = { s with conflicts := s.conflicts ++ [groupOf (d.rules.map s.ruleOf)] })) := by
  unfold fix? at h
  split at h
  · next hall =>
    obtain ⟨hfixable, hrules, hobstacle, hknows, hne⟩ := hall
    cases h
    have hknown := mem_ruleNames_of_knows (by simpa using hknows)
    refine ⟨hrules, fun r hr ↦ hknown _ (List.mem_map_of_mem hr), ?_⟩
    unfold amended at hne ⊢
    by_cases hk : d.kind = .emptyMatch
    · rw [if_pos hk] at hne ⊢
      rw [foldl_withInlined] at hne ⊢
      obtain ⟨added, hadded, hnodup, hmem⟩ :=
        exists_foldl_addNew ((d.rules.map s.ruleOf).map normal) s.inlined
      rw [hadded] at hne ⊢
      refine Or.inl ⟨hk, hobstacle, added, ?_, hnodup, fun n ↦ ?_, rfl⟩
      · rintro rfl
        rw [List.append_nil] at hne
        exact hne rfl
      · rw [hmem, List.map_map, List.mem_map]
        rfl
    · have hconflict : d.kind = .missingConflict := by
        cases hkind : d.kind <;> simp_all [Diagnostic.Kind.isFixable]
      rw [if_neg hk] at hne ⊢
      have hnew : groupOf (d.rules.map s.ruleOf) ∉ s.conflicts := by
        intro hin
        rw [withConflict, addNew, if_pos hin] at hne
        exact hne rfl
      refine Or.inr ⟨hconflict, hnew, ?_⟩
      rw [withConflict, addNew, if_neg hnew]
  · cases h

end Cases

section Validity

theorem normal_ruleOf (hs : s.InNormalForm) (reported : String) :
    normal (s.ruleOf reported) = s.ruleOf reported := by
  unfold ruleOf
  simp only
  split
  · split
    · next h => exact hs.hidden _ h.2
    · exact normal_normal reported
  · exact normal_normal reported

theorem mem_groupOf_ruleOf (hs : s.InNormalForm) {rules : List String} {name : String} :
    name ∈ groupOf (rules.map s.ruleOf) ↔ ∃ r ∈ rules, s.ruleOf r = name := by
  simp only [groupOf, Text.Sorted.mem_ofList, List.mem_map, exists_exists_and_eq_and,
    normal_ruleOf hs]

theorem InNormalForm.fix? (hs : s.InNormalForm) (h : s.fix? d (some g) = some s') :
    s'.InNormalForm := by
  obtain ⟨-, -, ⟨-, -, added, -, -, hadded, rfl⟩ | ⟨-, -, rfl⟩⟩ := fix?_cases h
  · refine { hs with inlined := List.forall_mem_append.2 ⟨hs.inlined, fun n hn ↦ ?_⟩ }
    obtain ⟨-, r, -, rfl⟩ := (hadded n).1 hn
    exact normal_normal (s.ruleOf r)
  · refine { hs with conflicts := List.forall_mem_append.2 ⟨hs.conflicts, ?_⟩ }
    rintro group hgroup name hname
    rw [List.mem_singleton.1 hgroup] at hname
    exact normal_of_mem_groupOf hname

/-- The diagnostic asks for a conflict that names an inlined rule. -/
def AsksForInlined (s : Session) (d : Diagnostic) : Prop :=
  d.kind = .missingConflict ∧ ∃ r ∈ d.rules, s.ruleOf r ∈ s.inlined

/-- A fix leaves a valid grammar valid, unless it declares a conflict with an inlined rule. -/
theorem flaw?_fix?_eq_none {ds : List Definition} (hds : ∀ d ∈ ds, normal d.name = d.name)
    (hs : s.InNormalForm) (hvalid : (s.grammar ds).flaw? = none)
    (h : s.fix? d (some (s.grammar ds)) = some s') :
    (s'.grammar ds).flaw? = none ↔ ¬ s.AsksForInlined d := by
  have hs' := hs.fix? h
  rw [flaw?_grammar_eq_none hds hs] at hvalid
  rw [flaw?_grammar_eq_none hds hs']
  obtain ⟨hnodup, hstart, hconflicts⟩ := hvalid
  obtain ⟨-, hknown, hcases⟩ := fix?_cases h
  rw [ruleNames_grammar] at hknown
  rcases hcases with ⟨hkind, hobstacle, added, -, -, hadded, rfl⟩ | ⟨hkind, -, rfl⟩
  · -- No conflict group of the session names a rule that the fix inlines.
    have hapart := ((obstacle?_eq_none hkind).1 hobstacle).1
    refine iff_of_true ⟨hnodup, hstart, fun group hgroup name hname ↦ ?_⟩ fun hasks ↦ ?_
    swap
    · rw [AsksForInlined, hkind] at hasks
      cases hasks.1
    obtain ⟨hmem, hinlined⟩ := hconflicts group hgroup name hname
    refine ⟨hmem, fun hin ↦ ?_⟩
    rcases List.mem_append.1 hin with hin | hin
    · exact hinlined hin
    · obtain ⟨-, r, hr, rfl⟩ := (hadded name).1 hin
      rw [normal_ruleOf hs] at hname
      exact hapart r hr group hgroup hname
  · constructor
    · rintro ⟨-, -, hall⟩ ⟨-, r, hr, hinlined⟩
      exact (hall _ (by simp) _ ((mem_groupOf_ruleOf hs).2 ⟨r, hr, rfl⟩)).2 hinlined
    · intro hplain
      refine ⟨hnodup, hstart, List.forall_mem_append.2 ⟨hconflicts, ?_⟩⟩
      intro group hgroup name hname
      rw [List.mem_singleton.1 hgroup, mem_groupOf_ruleOf hs] at hname
      obtain ⟨r, hr, rfl⟩ := hname
      exact ⟨hknown r hr, fun hinlined ↦ hplain ⟨hkind, r, hr, hinlined⟩⟩

end Validity

end AbnfCompiler.Session
