import Mathlib.Data.List.Nodup
import AbnfCompiler.Grammar.Rendering

/-!
Grammars without a flaw: no name is defined twice, the start rule is defined, and every member of a
conflict group is a rule of its own.
-/
namespace AbnfCompiler

theorem Text.Sorted.ofList_eq_nil {names : List String} : ofList names = [] ↔ names = [] := by
  simp only [List.eq_nil_iff_forall_not_mem, mem_ofList]

namespace Grammar

variable {g : Grammar}

theorem duplicates_eq_nil :
    g.duplicates = [] ↔ (g.rules.map fun r ↦ RuleName.normal r.name).Nodup := by
  rw [duplicates, Text.Sorted.ofList_eq_nil, List.filter_eq_nil_iff, List.nodup_iff_count_le_one]
  simp only [decide_eq_true_eq, Nat.not_lt]
  constructor
  · intro h name
    by_cases hmem : name ∈ g.rules.map fun r ↦ RuleName.normal r.name
    · exact h name hmem
    · rw [List.count_eq_zero_of_not_mem hmem]
      exact Nat.zero_le 1
  · exact fun h name _ ↦ h name

theorem conflictFlaw?_eq_none :
    g.conflictFlaw? = none ↔
      ∀ group ∈ g.conflicts, ∀ name ∈ group, ∃ r, g.resolve? name = some r ∧ r.inlined = false := by
  rw [conflictFlaw?, List.findSome?_eq_none_iff]
  constructor
  · intro h group hgroup name hname
    have hmember := h name (List.mem_flatten_of_mem hgroup hname)
    cases hresolve : g.resolve? name with
    | none => simp [hresolve] at hmember
    | some r =>
      refine ⟨r, rfl, Bool.eq_false_iff.2 fun hinlined ↦ ?_⟩
      simp [hresolve, hinlined] at hmember
  · intro h name hname
    obtain ⟨group, hgroup, hname⟩ := List.mem_flatten.1 hname
    obtain ⟨r, hresolve, hinlined⟩ := h group hgroup name hname
    simp [hresolve, hinlined]

theorem flaw?_eq_none :
    g.flaw? = none ↔ (g.rules.map fun r ↦ RuleName.normal r.name).Nodup ∧
      (∃ r, g.resolve? g.start = some r) ∧
      ∀ group ∈ g.conflicts, ∀ name ∈ group,
        ∃ r, g.resolve? name = some r ∧ r.inlined = false := by
  rw [← duplicates_eq_nil, ← conflictFlaw?_eq_none, ← Option.isSome_iff_exists, flaw?]
  split
  · next h => simp [h]
  · next h =>
    split
    · next hstart => simp [Option.isNone_iff_eq_none.1 hstart]
    · next hstart =>
      have hsome : (g.resolve? g.start).isSome :=
        Option.isSome_iff_ne_none.2 (by simpa using hstart)
      have hduplicates : g.duplicates = [] := by simpa using h
      simp [hduplicates, hsome]

theorem mapError_eq_ok {ε ε' α : Type} {f : ε → ε'} {x : Except ε α} {a : α} :
    x.mapError f = .ok a ↔ x = .ok a := by
  cases x with
  | error e => exact ⟨nofun, nofun⟩
  | ok b =>
    change Except.ok b = Except.ok a ↔ _
    rw [Except.ok.injEq, Except.ok.injEq]

theorem render_eq_flaw {f : Flaw} :
    g.render = .error (.flaw f) ↔ g.flaw? = some f := by
  have hbounds (x : Except Expression.BoundsError String) :
      x.mapError RenderError.bounds ≠ .error (.flaw f) := by
    cases x <;> simp [Except.mapError]
  unfold render
  split
  · next flaw hflaw => rw [hflaw]; simp
  · next hflaw =>
    rw [hflaw]
    exact iff_of_false (hbounds _) nofun

section Resolve

variable {name : String} {r : Rule}

theorem of_resolve?_eq_some (h : g.resolve? name = some r) :
    r ∈ g.rules ∧ RuleName.normal r.name = RuleName.normal name := by
  have hname := List.find?_some h
  rw [beq_iff_eq] at hname
  exact ⟨List.mem_reverse.1 (List.mem_of_find?_eq_some h), hname⟩

/-- Where no two rules share a name, a name refers to the one rule that has it. -/
theorem resolve?_eq_some_iff (hnodup : (g.rules.map fun r ↦ RuleName.normal r.name).Nodup) :
    g.resolve? name = some r ↔ r ∈ g.rules ∧ RuleName.normal r.name = RuleName.normal name := by
  constructor
  · exact of_resolve?_eq_some
  · rintro ⟨hr, hname⟩
    obtain ⟨r', hr'⟩ : ∃ r', g.resolve? name = some r' := by
      rw [← Option.isSome_iff_exists, resolve?, List.find?_isSome]
      exact ⟨r, List.mem_reverse.2 hr, beq_iff_eq.2 hname⟩
    obtain ⟨hmem, hname'⟩ := of_resolve?_eq_some hr'
    have hsame : r' = r := List.inj_on_of_nodup_map hnodup hmem hr (hname'.trans hname.symm)
    rw [hr', hsame]

end Resolve

end Grammar

end AbnfCompiler
