import AbnfCompiler.Session.Fix

/-!
Room for fixes: the rules that are not inlined and the groups of rules that are no conflict yet.
Every fix takes some of it, so there is no endless row of fixes.
-/
namespace AbnfCompiler.Session

variable {α : Type}

/-- All selections from a list, in its order. -/
def selections : List α → List (List α)
  | [] => [[]]
  | x :: xs => selections xs ++ (selections xs).map (x :: ·)

theorem filter_mem_selections (p : α → Bool) (xs : List α) : xs.filter p ∈ selections xs := by
  induction xs with
  | nil => simp [selections]
  | cons x xs ih =>
    by_cases h : p x
    · simp only [List.filter_cons_of_pos h, selections, List.mem_append, List.mem_map]
      exact Or.inr ⟨_, ih, rfl⟩
    · simp only [List.filter_cons_of_neg h, selections, List.mem_append]
      exact Or.inl ih

theorem countP_lt_countP {p q : α → Bool} {xs : List α} {x : α} (hpq : ∀ y, p y → q y)
    (hx : x ∈ xs) (hp : ¬ p x) (hq : q x) : xs.countP p < xs.countP q := by
  induction xs with
  | nil => simp at hx
  | cons y ys ih =>
    have hle : ys.countP p ≤ ys.countP q := List.countP_mono_left fun z _ ↦ hpq z
    rcases List.mem_cons.1 hx with rfl | hy
    · rw [List.countP_cons_of_neg hp, List.countP_cons_of_pos hq]
      omega
    · have := ih hy
      by_cases hpy : p y
      · rw [List.countP_cons_of_pos hpy, List.countP_cons_of_pos (hpq y hpy)]
        omega
      · rw [List.countP_cons_of_neg hpy]
        by_cases hqy : q y
        · rw [List.countP_cons_of_pos hqy]
          omega
        · rw [List.countP_cons_of_neg hqy]
          exact this

/-- How many of the names in normal form are not inlined. -/
def inlineRoom (s : Session) (names : List String) : Nat :=
  (names.map RuleName.normal).countP fun n ↦ !s.inlined.contains n

/-- How many selections of the names in normal form are no conflict group. -/
def conflictRoom (s : Session) (names : List String) : Nat :=
  (selections (names.map RuleName.normal)).countP fun ns ↦
    !s.conflicts.contains (Text.Sorted.ofList ns)

def room (s : Session) (names : List String) : Nat := s.inlineRoom names + s.conflictRoom names

theorem mem_inlined_foldl {x : String} {names : List String} (s : Session) :
    x ∈ (names.foldl withInlined s).inlined
      ↔ x ∈ s.inlined ∨ ∃ n ∈ names, x = RuleName.normal n := by
  induction names generalizing s with
  | nil => simp
  | cons n ns ih =>
    rw [List.foldl_cons, ih]
    simp only [withInlined, mem_addNew, List.mem_cons]
    grind

theorem conflicts_foldl (names : List String) (s : Session) :
    (names.foldl withInlined s).conflicts = s.conflicts := by
  induction names generalizing s with
  | nil => rfl
  | cons n ns ih => rw [List.foldl_cons, ih]; rfl

theorem foldl_withInlined_eq_self {names : List String} {s : Session}
    (h : ∀ n ∈ names, RuleName.normal n ∈ s.inlined) : names.foldl withInlined s = s := by
  induction names with
  | nil => rfl
  | cons n ns ih =>
    have hn : s.withInlined n = s := by
      simp [withInlined, addNew, h n (by simp)]
    rw [List.foldl_cons, hn]
    exact ih fun m hm ↦ h m (by simp [hm])

theorem mem_ruleNames_of_knows {s : Session} {d : Diagnostic} {g : Grammar} (h : s.knows d g) :
    ∀ n ∈ d.rules.map s.ruleOf, n ∈ g.ruleNames := by
  simp only [List.mem_map]
  rintro n ⟨r, hr, rfl⟩
  have hs := List.all_eq_true.1 h r hr
  obtain ⟨rule, hrule⟩ := Option.isSome_iff_exists.1 hs
  have hname : rule.name = s.ruleOf r := by simpa using List.find?_some hrule
  exact List.mem_map.2 ⟨rule, List.mem_of_find?_eq_some hrule, hname⟩

theorem inlineRoom_amended_lt {s : Session} {names known : List String}
    (hknown : ∀ n ∈ names, n ∈ known) (hne : names.foldl withInlined s ≠ s) :
    (names.foldl withInlined s).inlineRoom known < s.inlineRoom known := by
  obtain ⟨n, hn, hnew⟩ : ∃ n ∈ names, RuleName.normal n ∉ s.inlined := by
    false_or_by_contra
    rename_i h
    exact hne (foldl_withInlined_eq_self fun n hn ↦
      Decidable.byContradiction fun hnot ↦ h ⟨n, hn, hnot⟩)
  refine countP_lt_countP (x := RuleName.normal n) (fun y hy ↦ ?_)
    (List.mem_map.2 ⟨n, hknown n hn, rfl⟩) ?_ (by simpa using hnew)
  · simp only [Bool.not_eq_true', List.contains_eq_mem, decide_eq_false_iff_not] at hy ⊢
    exact fun hin ↦ hy ((mem_inlined_foldl s).2 (Or.inl hin))
  · have : RuleName.normal n ∈ (names.foldl withInlined s).inlined :=
      (mem_inlined_foldl s).2 (Or.inr ⟨n, hn, rfl⟩)
    simpa using this

theorem conflictRoom_withConflict_lt {s : Session} {names known : List String}
    (hknown : ∀ n ∈ names, n ∈ known) (hne : s.withConflict names ≠ s) :
    (s.withConflict names).conflictRoom known < s.conflictRoom known := by
  have hnew : groupOf names ∉ s.conflicts := fun h ↦ hne (by simp [withConflict, addNew, h])
  let chosen := (known.map RuleName.normal).filter fun k ↦ (names.map RuleName.normal).contains k
  have hgroup : Text.Sorted.ofList chosen = groupOf names := by
    refine Text.Sorted.ofList_eq_of_mem_iff fun z ↦ ?_
    simp only [chosen, List.mem_filter, List.contains_eq_mem, decide_eq_true_eq,
      and_iff_right_iff_imp, List.mem_map]
    rintro ⟨n, hn, rfl⟩
    exact ⟨n, hknown n hn, rfl⟩
  refine countP_lt_countP (x := chosen) (fun y hy ↦ ?_) (filter_mem_selections _ _) ?_ ?_
  · simp only [Bool.not_eq_true', List.contains_eq_mem, decide_eq_false_iff_not] at hy ⊢
    exact fun hin ↦ hy (mem_addNew.2 (Or.inl hin))
  · simp only [hgroup]
    simp [withConflict, mem_addNew]
  · simpa [hgroup] using hnew

/-- A fix that concerns rules of the grammar alone leaves less room for further ones. -/
theorem room_fix_lt {s s' : Session} {d : Diagnostic} {g : Grammar}
    (h : s.fix? d (some g) = some s') : s'.room g.ruleNames < s.room g.ruleNames := by
  unfold fix? at h
  split at h
  · next hc =>
    obtain ⟨_, _, _, hknows, hne⟩ := hc
    have hknown := mem_ruleNames_of_knows (by simpa using hknows)
    cases h
    unfold amended at hne ⊢
    split at hne
    · next hk =>
      rw [if_pos hk]
      have hc : ((d.rules.map s.ruleOf).foldl withInlined s).conflictRoom g.ruleNames
          = s.conflictRoom g.ruleNames := by
        simp [conflictRoom, conflicts_foldl]
      have := inlineRoom_amended_lt hknown hne
      simp only [room, hc]
      omega
    · next hk =>
      rw [if_neg hk]
      have hi : (s.withConflict (d.rules.map s.ruleOf)).inlineRoom g.ruleNames
          = s.inlineRoom g.ruleNames := rfl
      have := conflictRoom_withConflict_lt hknown hne
      simp only [room, hi]
      omega
  · cases h

end AbnfCompiler.Session
