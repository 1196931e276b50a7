import Mathlib.Algebra.Group.Nat.Even
import AbnfCompiler.Session.Room

/-!
Bounds on the room for changes, and so on the number of changes in a row.
-/
namespace AbnfCompiler.Session

variable {α : Type}

theorem length_selections (xs : List α) : (selections xs).length = 2 ^ xs.length := by
  induction xs with
  | nil => rfl
  | cons x xs ih => simp [selections, ih, Nat.pow_succ]; omega

theorem exists_selections (xs : List α) :
    ∃ rest, selections xs = [] :: rest ∧ rest.length + 1 = 2 ^ xs.length := by
  have hfirst : ∃ rest, selections xs = [] :: rest := by
    induction xs with
    | nil => exact ⟨[], rfl⟩
    | cons x xs ih =>
      obtain ⟨rest, hrest⟩ := ih
      exact ⟨rest ++ (selections xs).map (x :: ·), by rw [selections, hrest]; rfl⟩
  obtain ⟨rest, hrest⟩ := hfirst
  refine ⟨rest, hrest, ?_⟩
  rw [← length_selections xs, hrest, List.length_cons]

theorem inlineRoom_le (s : Session) (names : List String) :
    s.inlineRoom names ≤ names.length := by
  have hcount := List.countP_le_length (p := fun n ↦ !s.inlined.contains n)
    (l := names.map RuleName.normal)
  simpa [inlineRoom] using hcount

/-- The groups of one rule or more have room for all but one of the selections. -/
theorem conflictRoom_eq (s : Session) (names : List String) :
    ∃ k, k + 1 ≤ 2 ^ names.length ∧
      s.conflictRoom names = k + if [] ∈ s.conflicts then 0 else 1 := by
  obtain ⟨rest, hrest, hlength⟩ := exists_selections (names.map RuleName.normal)
  have hcount := List.countP_le_length
    (p := fun ns ↦ !s.conflicts.contains (Text.Sorted.ofList ns)) (l := rest)
  rw [List.length_map] at hlength
  refine ⟨rest.countP fun ns ↦ !s.conflicts.contains (Text.Sorted.ofList ns), by omega, ?_⟩
  rw [conflictRoom, hrest, List.countP_cons]
  by_cases h : [] ∈ s.conflicts
  · simp [h, Text.Sorted.ofList]
  · simp [h, Text.Sorted.ofList]

end AbnfCompiler.Session
