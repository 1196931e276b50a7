import AbnfCompiler.Proofs.Compilation.Definitions
import AbnfCompiler.Proofs.Generation.Turn
import AbnfCompiler.Proofs.Session.Circle

/-!
Inlining makes no circles. A fix inlines the rules of a diagnostic exactly if no rule comes to call
itself by this, and so no turn of a run has inlined rules that do.
-/
namespace AbnfCompiler.Generation.Loop

variable {tree : SyntaxTree} {ds : List Definition} {s last : Session}
  {row : List (Session × Diagnostic)}

theorem Fixes.acyclic (hnodup : (ds.map Definition.name).Nodup) (hs : s.InNormalForm)
    (hacyclic : Acyclic ds s.inlined) (h : Fixes ds s row last) : Acyclic ds last.inlined := by
  induction h with
  | nil s => exact hacyclic
  | cons hfix _ ih => exact ih (hs.fix? hfix) (Session.acyclic_fix? hnodup hs hacyclic hfix)

/-- Rules that match the empty word are inlined exactly if no circle is made by it; then they are
inlined besides those that were before. No run that starts without circles comes to one. -/
theorem inlined_iff_acyclic {s₀ : Session}
    (hds : (Compilation.definitions tree s₀.withCore).result = .ok ds) (hs : s.InNormalForm)
    (hacyclic : Acyclic ds s.inlined) :
    (∀ d : Diagnostic, d.kind = .emptyMatch →
      (∀ r ∈ d.rules, s.ruleOf r ∈ ds.map Definition.name ∧
        ∀ group ∈ s.conflicts, s.ruleOf r ∉ group) →
      (∃ r ∈ d.rules, s.ruleOf r ∉ s.inlined) →
      ((s.fix? d (some (s₀.grammar ds))).isSome ↔
        Acyclic ds (s.inlined ++ d.rules.map s.ruleOf)) ∧
      ∀ s', s.fix? d (some (s₀.grammar ds)) = some s' →
        ∀ n, n ∈ s'.inlined ↔ n ∈ s.inlined ++ d.rules.map s.ruleOf) ∧
    ∀ (c : Loop) (site : Site) (row : List (Session × Diagnostic)) (x : Turn × Site),
      c.Reaches ds tree s site row x → Acyclic ds x.1.session.inlined := by
  have hnodup := Compilation.nodup_of_definitions hds
  constructor
  · intro d hkind hrules hnew
    refine ⟨?_, fun s' ↦ Session.mem_inlined_of_fix? hs hkind⟩
    exact Session.isSome_fix?_iff hnodup hs hacyclic hkind (fun r hr ↦ (hrules r hr).1)
      (fun r hr ↦ (hrules r hr).2) hnew
  · exact fun c site row x hreaches ↦ hreaches.fixes.acyclic hnodup hs hacyclic

section Instances

def referringRule (name target : String) : SyntaxTree :=
  .branch "rule" [.leaf "rulename" name, .leaf "defined_as" " = ",
    .branch "elements" [.branch "element" [.leaf "rulename" target]]]

/-- Three rules in a ring. -/
def ringTree : SyntaxTree :=
  .branch "rulelist" [referringRule "a" "b", referringRule "b" "c", referringRule "c" "a"]

def ringDefinitions : List Definition :=
  [⟨"a", .reference "b", [], false⟩, ⟨"b", .reference "c", [], false⟩,
    ⟨"c", .reference "a", [], false⟩]

def ringSession (inlined : List String) : Session :=
  { source := .ofText "ring.abnf", location := .ofText "build", start := "a", language := "ring",
    inlined }

/-- Two rules of the ring can be inlined, the third one cannot be added to them. -/
theorem inlined_ring :
    Acyclic ringDefinitions ["a", "b"] ∧ ¬ Acyclic ringDefinitions ["a", "b", "c"] := by
  have hcompiled : (Compilation.definitions ringTree (ringSession []).withCore).result
      = .ok ringDefinitions := rfl
  have hnodup := Compilation.nodup_of_definitions hcompiled
  have hacyclic : Acyclic ringDefinitions ([] ++ ["a"]) := by
    refine (acyclic_append (s := ringSession []) hnodup acyclic_nil).2 ?_
    exact List.forall_mem_singleton.2 (Grammar.reachesItself_of_forall (by decide) (by decide))
  have hs : (ringSession ["a"]).InNormalForm := ⟨by decide, nofun, by decide, nofun⟩
  have hinlined := (inlined_iff_acyclic hcompiled hs hacyclic).1
  constructor
  · have hobstacle : (ringSession ["a"]).obstacle? { kind := .emptyMatch, rules := ["b"] }
        (some ((ringSession []).grammar ringDefinitions)) = none :=
      (Session.obstacle?_eq_none rfl).2 ⟨by decide, List.forall_mem_singleton.2
        (Grammar.reachesItself_of_forall (by decide) (by decide))⟩
    refine (hinlined { kind := .emptyMatch, rules := ["b"] } rfl (by decide) (by decide)).1.1 ?_
    exact Option.isSome_iff_exists.2 ⟨_, if_pos ⟨rfl, by decide, hobstacle, rfl, by decide⟩⟩
  · refine (hinlined { kind := .emptyMatch, rules := ["b", "c"] } rfl (by decide)
      (by decide)).1.not.1 ?_
    intro hfix
    obtain ⟨s', hfix⟩ := Option.isSome_iff_exists.1 hfix
    obtain ⟨-, -, ⟨-, hobstacle, -⟩ | ⟨hkind, -, -⟩⟩ := Session.fix?_cases hfix
    · have hb := ((Session.obstacle?_eq_none rfl).1 hobstacle).2 "b" (by decide)
      have hring := Grammar.not_transGen_of_reachesItself hb
      refine hring (.tail (b := "a") (.tail (b := "c") (.single ?_) ?_) ?_)
      all_goals exact ⟨by decide, by decide⟩
    · cases hkind

end Instances

end AbnfCompiler.Generation.Loop
