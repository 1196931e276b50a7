import AbnfCompiler.Proofs.Compilation.NormalForm
import AbnfCompiler.Proofs.Grammar.Presentation
import AbnfCompiler.Proofs.Session.NormalForm

/-!
What is compiled can be rendered. The bodies are in normal form, so that every one of them can be
written down, and the grammar of a session fails to be rendered only for the names that the session
gives.
-/
namespace AbnfCompiler

namespace Grammar

variable {g : Grammar}

theorem render_of_isNormal (hnormal : ∀ r ∈ g.rules, r.body.isNormal) :
    (∃ f, g.flaw? = some f ∧ g.render = .error (.flaw f)) ∨
      (g.flaw? = none ∧ g.render = .ok g.text) := by
  cases hflaw : g.flaw? with
  | some f => exact Or.inl ⟨f, rfl, render_eq_flaw.2 hflaw⟩
  | none =>
    refine Or.inr ⟨rfl, render_eq_text hflaw fun r hr ↦ ?_⟩
    exact Expression.spelled_of_isNormal (hnormal r hr)

theorem flaw?_ne_duplicates (h : (g.rules.map fun r ↦ RuleName.normal r.name).Nodup)
    (names : List String) : g.flaw? ≠ some (.duplicates names) := by
  intro hflaw
  rw [flaw?, if_neg (not_not_intro (duplicates_eq_nil.2 h))] at hflaw
  split at hflaw
  · cases hflaw
  · obtain ⟨name, -, hname⟩ := List.exists_of_findSome?_eq_some hflaw
    split at hname
    · cases hname
    · split at hname <;> cases hname

end Grammar

namespace Session

open RuleName

variable {s : Session} {tree : SyntaxTree} {ds : List Definition}

theorem isNormal_grammar (hds : ∀ d ∈ ds, d.body.isNormal) :
    ∀ r ∈ (s.grammar ds).rules, r.body.isNormal := by
  intro r hr
  obtain ⟨d, hd, rfl⟩ := List.mem_map.1 hr
  exact hds d hd

/-- All bodies are in normal form. Rendering fails for a flaw exactly if the start is no rule, or a
member of a conflict group is none or an inlined one; else there is a text. It fails in no other
way, and for no name that is defined twice. -/
theorem render_grammar_of_definitions (hs : s.InNormalForm)
    (hds : (Compilation.definitions tree s.withCore).result = .ok ds) :
    (∀ d ∈ ds, d.body.isNormal) ∧
      ((∃ f, (s.grammar ds).render = .error (.flaw f)) ↔
        s.start ∉ ds.map Definition.name ∨
          ∃ group ∈ s.conflicts, ∃ name ∈ group,
            name ∉ ds.map Definition.name ∨ name ∈ s.inlined) ∧
      ((∃ text, (s.grammar ds).render = .ok text) ↔
        ¬ ∃ f, (s.grammar ds).render = .error (.flaw f)) ∧
      (∀ e, (s.grammar ds).render ≠ .error (.bounds e)) ∧
      ∀ names, (s.grammar ds).render ≠ .error (.flaw (.duplicates names)) := by
  have hnames := Compilation.normal_of_definitions hds
  have hnodup := Compilation.nodup_of_definitions hds
  have hnormal := Compilation.isNormal_of_definitions hds
  have hrules := isNormal_grammar (s := s) hnormal
  have hnodup' : ((s.grammar ds).rules.map fun r ↦ normal r.name).Nodup := by
    rw [grammar, List.map_map]
    rw [← List.map_congr_left hnames] at hnodup
    exact hnodup
  have hflaw : (∃ f, (s.grammar ds).render = .error (.flaw f)) ↔ (s.grammar ds).flaw? ≠ none := by
    simp only [Grammar.render_eq_flaw, Option.ne_none_iff_exists']
  refine ⟨hnormal, ?_, ?_, ?_, ?_⟩
  · rw [hflaw, ne_eq, flaw?_grammar_eq_none hnames hs]
    simp only [hnodup, true_and, not_and_or, not_forall, exists_prop, not_not]
  · rw [hflaw, not_not]
    rcases Grammar.render_of_isNormal hrules with ⟨f, hf, hrender⟩ | ⟨hnone, hrender⟩
    · rw [hf, hrender]
      simp
    · rw [hrender]
      exact iff_of_true ⟨_, rfl⟩ hnone
  · intro e he
    rcases Grammar.render_of_isNormal hrules with ⟨f, -, hrender⟩ | ⟨-, hrender⟩
    · rw [hrender] at he
      cases he
    · rw [hrender] at he
      cases he
  · intro names hrender
    exact Grammar.flaw?_ne_duplicates hnodup' names (Grammar.render_eq_flaw.1 hrender)

section Instances

/-- The rule `run = 2*"x"`. -/
def runTree : SyntaxTree :=
  .branch "rulelist"
    [.branch "rule" [.leaf "rulename" "run", .leaf "defined_as" "=",
      .branch "elements" [.branch "repetition" [.leaf "repeat" "2*",
        .leaf "quoted_string" "\"x\""]]]]

def runSession (start : String) (inlined : List String) : Session :=
  { source := .ofText "run.abnf", location := .ofText "build", start, language := "run", inlined
    conflicts := [["run"]] }

def runDefinitions : List Definition :=
  [⟨"run", .sequence [.text "x", .text "x", .repetition (.text "x") (.atLeast 0)], [], false⟩]

theorem inNormalForm_runSession {start : String} {inlined : List String}
    (hstart : normal start = start) (hinlined : ∀ name ∈ inlined, normal name = name) :
    (runSession start inlined).InNormalForm where
  start := hstart
  hidden := nofun
  inlined := hinlined
  conflicts := by
    have hrun : normal "run" = "run" := by decide
    simp only [runSession, List.forall_mem_singleton]
    exact hrun

/-- There is a text, unless another rule is to be the start or the rule in conflict is inlined. -/
theorem render_runDefinitions :
    (∃ text, ((runSession "run" []).grammar runDefinitions).render = .ok text) ∧
      (∃ f, ((runSession "go" []).grammar runDefinitions).render = .error (.flaw f)) ∧
      ∃ f, ((runSession "run" ["run"]).grammar runDefinitions).render = .error (.flaw f) := by
  have hcompiled : (Compilation.definitions runTree false).result = .ok runDefinitions := rfl
  have hplain := render_grammar_of_definitions
    (inNormalForm_runSession (by decide) nofun : (runSession "run" []).InNormalForm) hcompiled
  have hstart := render_grammar_of_definitions
    (inNormalForm_runSession (by decide) nofun : (runSession "go" []).InNormalForm) hcompiled
  have hinlined := render_grammar_of_definitions
    (inNormalForm_runSession (by decide) (by decide) :
      (runSession "run" ["run"]).InNormalForm) hcompiled
  refine ⟨hplain.2.2.1.2 ?_, hstart.2.1.2 (Or.inl (by decide)), hinlined.2.1.2 (Or.inr ?_)⟩
  · rw [hplain.2.1]
    decide
  · exact ⟨["run"], List.mem_singleton_self _, "run", List.mem_singleton_self _,
      Or.inr (List.mem_singleton_self _)⟩

end Instances

end Session

end AbnfCompiler
