import AbnfCompiler.Proofs.Compilation.Definitions
import AbnfCompiler.Proofs.Generation.Turn
import AbnfCompiler.Proofs.Session.Fix
import AbnfCompiler.Proofs.Session.Room

/-!
The feedback loop ends, whatever the generator answers. Of `n` rules at most `n` can be inlined, and
at most `2 ^ n - 1` groups of them declared as conflicts; every retry does one of these.
-/
namespace AbnfCompiler

open RuleName

namespace Session

variable {s s' last : Session} {d : Diagnostic} {names : List String}

/-- More rules are inlined, or one more group of rules is a conflict. -/
inductive Enlarged (names : List String) (s : Session) : Session → Prop
  | inlined {added : List String} : added ≠ [] → (∀ n ∈ added, n ∈ names ∧ n ∉ s.inlined) →
      Enlarged names s { s with inlined := s.inlined ++ added }
  | conflict {group : List String} : group ≠ [] → (∀ n ∈ group, n ∈ names) →
      group ∉ s.conflicts → Enlarged names s { s with conflicts := s.conflicts ++ [group] }

theorem enlarged_fix? {g : Grammar} (hnames : ∀ n ∈ g.ruleNames, normal n = n)
    (h : s.fix? d (some g) = some s') : Enlarged g.ruleNames s s' := by
  obtain ⟨hrules, hknown, ⟨-, -, added, hne, -, hadded, rfl⟩ | ⟨-, hnew, rfl⟩⟩ := fix?_cases h
  · apply Enlarged.inlined hne
    intro n hn
    obtain ⟨hout, r, hr, rfl⟩ := (hadded n).1 hn
    have hrule := hknown r hr
    rw [hnames _ hrule] at hout ⊢
    exact ⟨hrule, hout⟩
  · refine .conflict ?_ ?_ hnew
    · rw [groupOf, Ne, Text.Sorted.ofList_eq_nil]
      simpa using hrules
    · intro n hn
      rw [groupOf, Text.Sorted.mem_ofList, List.map_map, List.mem_map] at hn
      obtain ⟨r, hr, rfl⟩ := hn
      have hrule := hknown r hr
      rwa [Function.comp_apply, hnames _ hrule]

theorem Enlarged.nil_mem (h : Enlarged names s s') : [] ∈ s'.conflicts ↔ [] ∈ s.conflicts := by
  cases h with
  | inlined => rfl
  | conflict hne =>
    rw [List.mem_append, List.mem_singleton]
    exact or_iff_left hne.symm

theorem Enlarged.kept (h : Enlarged names s s') : s'.withCore = s.withCore ∧
    s'.hidden = s.hidden ∧ s.inlined ⊆ s'.inlined ∧ s.conflicts ⊆ s'.conflicts := by
  cases h with
  | inlined => exact ⟨rfl, rfl, List.subset_append_left .., List.Subset.refl _⟩
  | conflict => exact ⟨rfl, rfl, List.Subset.refl _, List.subset_append_left ..⟩

/-- A diagnostic that nothing is left to do for stays so. -/
theorem amended_of_enlarged (h : Enlarged names s s') (hd : s.amended d = s) :
    s'.amended d = s' := by
  obtain ⟨-, hhidden, hinlined, hconflicts⟩ := h.kept
  rw [amended_eq_self] at hd ⊢
  rw [ruleOf_congr hhidden]
  split
  · next hkind =>
    rw [if_pos hkind] at hd
    exact fun r hr ↦ hinlined (hd r hr)
  · next hkind =>
    rw [if_neg hkind] at hd
    exact hconflicts hd

theorem amended_fix? {g : Grammar} (h : s.fix? d (some g) = some s') : s'.amended d = s' := by
  have hrule : s'.ruleOf = s.ruleOf := by
    obtain ⟨-, -, ⟨-, -, added, -, -, -, rfl⟩ | ⟨-, -, rfl⟩⟩ := fix?_cases h
    · exact ruleOf_congr rfl
    · exact ruleOf_congr rfl
  rw [amended_eq_self, hrule]
  obtain ⟨-, -, ⟨hkind, -, added, -, -, hadded, rfl⟩ | ⟨hkind, -, rfl⟩⟩ := fix?_cases h
  · rw [if_pos hkind]
    intro r hr
    by_cases hin : normal (s.ruleOf r) ∈ s.inlined
    · exact List.mem_append_left _ hin
    · exact List.mem_append_right _ ((hadded _).2 ⟨hin, r, hr, rfl⟩)
  · rw [if_neg (by simp [hkind])]
    exact List.mem_append_right _ (List.mem_singleton_self _)

theorem fix?_of_amended (g : Option Grammar) (h : s.amended d = s) : s.fix? d g = none := by
  rw [fix?, if_neg]
  exact fun hall ↦ hall.2.2.2.2 h

end Session

namespace Generation.Loop

open Run Session

variable {ds : List Definition} {s last : Session} {row : List (Session × Diagnostic)}

theorem Fixes.enlarged_fix? (hds : ∀ d ∈ ds, normal d.name = d.name) {s s' : Session}
    {d : Diagnostic} (h : s.fix? d (some (s.grammar ds)) = some s') :
    Enlarged (ds.map Definition.name) s s' := by
  have hgrammar := ruleNames_grammar s ds
  rw [← hgrammar]
  exact Session.enlarged_fix? (by rw [hgrammar]; exact List.forall_mem_map.2 hds) h

theorem Fixes.kept (hds : ∀ d ∈ ds, normal d.name = d.name) (h : Fixes ds s row last) :
    last.withCore = s.withCore ∧ ([] ∈ last.conflicts ↔ [] ∈ s.conflicts) ∧
      row.length + last.room (ds.map Definition.name) ≤ s.room (ds.map Definition.name) := by
  induction h with
  | nil s => simp
  | cons hfix _ ih =>
    have henlarged := Fixes.enlarged_fix? hds hfix
    have hroom := room_fix_lt hfix
    rw [ruleNames_grammar] at hroom
    obtain ⟨hcore, hnil, hlength⟩ := ih
    refine ⟨hcore.trans henlarged.kept.1, hnil.trans henlarged.nil_mem, ?_⟩
    rw [List.length_cons]
    omega

theorem Fixes.length_lt (hds : ∀ d ∈ ds, normal d.name = d.name) (h : Fixes ds s row last) :
    row.length + 1 ≤ ds.length + 2 ^ ds.length := by
  obtain ⟨-, hnil, hlength⟩ := h.kept hds
  have hinline := inlineRoom_le s (ds.map Definition.name)
  -- The empty group is never declared, so that its room is left over on both sides.
  obtain ⟨k, hk, hfirst⟩ := conflictRoom_eq s (ds.map Definition.name)
  obtain ⟨k', -, hlast⟩ := conflictRoom_eq last (ds.map Definition.name)
  rw [List.length_map] at hinline hk
  simp only [room, hfirst, hlast, hnil] at hlength
  split at hlength <;> omega

/-- A diagnostic that the session was changed for is not one that it is changed for again. -/
theorem Fixes.fix?_eq_none (hds : ∀ d ∈ ds, normal d.name = d.name) (h : Fixes ds s row last)
    {u : Session} {d : Diagnostic} (hmem : (u, d) ∈ row) (g : Option Grammar) :
    last.fix? d g = none := by
  apply fix?_of_amended
  have hstays {d : Diagnostic} {s last : Session} {row : List (Session × Diagnostic)}
      (h : Fixes ds s row last) (hd : s.amended d = s) : last.amended d = last := by
    induction h with
    | nil s => exact hd
    | cons hfix _ ih => exact ih (amended_of_enlarged (Fixes.enlarged_fix? hds hfix) hd)
  induction h with
  | nil s => cases hmem
  | cons hfix hrest ih =>
    rcases List.mem_cons.1 hmem with heq | hmem
    · cases heq
      exact hstays hrest (amended_fix? hfix)
    · exact ih hmem

section Runs

variable (c : Loop) (tree : SyntaxTree) (s : Session) (site : Site) (ds : List Definition)

/-- How a run goes whose syntax tree has the definitions `ds`. It comes to an end within a number of
calls. All its turns are about the same rules, each enlarges the session, and no diagnostic that
the session was changed for leads to a further change. -/
structure Bounded : Prop where
  turns : ∃ row t site', c.Reaches ds tree s site row (t, site') ∧
    ∃ result last, (c.turnOf ds tree s t).exec site' = (result.map .inl, last) ∧
      (c.run tree s).exec site = (result, last)
  calls : ((c.run tree s).exec site).2.calls.length
    ≤ site.calls.length + (ds.length + 2 ^ ds.length)
  ends : ∀ r, ((c.run tree s).exec site).1 = .ok r → r.phase = .done ∨ r.phase = .givenUp
  same : ∀ row t site', c.Reaches ds tree s site row (t, site') →
    (Compilation.definitions tree t.session.withCore).result = .ok ds
  enlarged : ∀ row t site', c.Reaches ds tree s site row (t, site') → ∀ d t' last,
    (c.turnOf ds tree s t).exec site' = (.ok (.inr (d, t')), last) →
      Enlarged (ds.map Definition.name) t.session t'.session
  settled : ∀ row t site', c.Reaches ds tree s site row (t, site') → ∀ u d, (u, d) ∈ row →
    t.session.fix? d (some (t.session.grammar ds)) = none

/-- A run ends, without any limit on attempts: either the tree is not compiled, and the generator
is not called, or there are at most `n + 2 ^ n` calls for `n` rules. -/
theorem run_bounded :
    (∃ failure last, (c.run tree s).exec site = (.error (.compilation failure), last) ∧
        last.calls = site.calls) ∨
      ∃ ds, (Compilation.definitions tree s.withCore).result = .ok ds ∧
        c.Bounded tree s site ds := by
  cases hcompiled : (Compilation.definitions tree s.withCore).result with
  | error failure => exact Or.inl ⟨failure, exec_run_of_error hcompiled site⟩
  | ok ds =>
    have hds := Compilation.normal_of_definitions hcompiled
    have hturns := exists_reaches c site hcompiled
    refine Or.inr ⟨ds, rfl, hturns, ?_, ?_, ?_, ?_, ?_⟩
    · obtain ⟨row, t, site', hreaches, result, last, hturn, hrun⟩ := hturns
      have hrow := hreaches.fixes.length_lt hds
      have hcalls := hreaches.calls_le
      have hlast := calls_turn_le hturn
      rw [hrun]
      simp only at hcalls hlast ⊢
      omega
    · intro r hr
      obtain ⟨row, t, site', hreaches, result, last, hturn, hrun⟩ := hturns
      rw [hrun] at hr
      cases hr
      exact (of_turn_inl hturn).2
    · intro row t site' hreaches
      rw [(hreaches.fixes.kept hds).1]
      exact hcompiled
    · intro row t site' hreaches d t' last hturn
      exact Fixes.enlarged_fix? hds (fix?_of_turn_inr hturn)
    · intro row t site' hreaches u d hmem
      exact hreaches.fixes.fix?_eq_none hds hmem _

end Runs

end Generation.Loop

end AbnfCompiler
