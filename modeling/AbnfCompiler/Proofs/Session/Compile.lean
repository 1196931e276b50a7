import AbnfCompiler.Proofs.Compilation.Definitions
import AbnfCompiler.Proofs.Session.Fix
import AbnfCompiler.Session.Compile

/-!
What a session decides about a compilation. The walk over the rules gives the definitions of the
tree, marked by the policy of the session, so that two sessions with the same start, name and wish
for core rules come to the same definitions with the same reports, or fail for the same cause.
-/
namespace AbnfCompiler

/-- What a rule is apart from the marks that a session gives it. -/
def Rule.definition (r : Rule) : Definition := ⟨r.name, r.body, r.comments, r.core⟩

namespace Session

open Compilation

variable {s t : Session}

section Walk

variable {w : Walk} {node : SyntaxTree}

theorem makeRule_eq (hs : s.InNormalForm) (name : String) (body : Expression)
    (comments : List String) (core : Bool) :
    s.makeRule name body comments core
      = (⟨name, body, comments, core⟩ : Definition).toRule s.hidden s.inlined := by
  have hhidden : s.hidden.map RuleName.normal = s.hidden :=
    (List.map_congr_left hs.hidden).trans (List.map_id _)
  have hinlined : s.inlined.map RuleName.normal = s.inlined :=
    (List.map_congr_left hs.inlined).trans (List.map_id _)
  rw [makeRule, hhidden, hinlined]
  rfl

theorem visit_comment (h : node.kind = "comment") :
    s.visit w node = pure { w with comments := w.comments ++ [commentText node.text] } :=
  if_pos h

theorem visit_rule (h : node.kind = "rule") :
    s.visit w node = rule? node >>= fun
      | none => pure { w with comments := [] }
      | some (name, body) =>
        if (w.rules.map Rule.name).contains name then violation node (.duplicate name)
        else pure ⟨w.rules ++ [s.makeRule name body w.comments false], []⟩ := by
  have hcomment : node.kind ≠ "comment" := by simp [h]
  unfold visit
  exact (if_neg hcomment).trans (if_pos h)

theorem visit_other (hcomment : node.kind ≠ "comment") (hrule : node.kind ≠ "rule") :
    s.visit w node = Traced.reportWhen (!Text.isAllBlank node.text) (.unsupported (.of node .kind))
      >>= fun _ ↦ pure w := by
  unfold visit
  rw [if_neg hcomment, if_neg hrule]

/-- The walk from some rules on appends the definitions that follow, marked by the session. -/
theorem foldlM_visit (hs : s.InNormalForm) {seen : List String}
    (hseen : ∀ name, seen.contains name = (w.rules.map Rule.name).contains name)
    (nodes : List SyntaxTree) :
    Walk.rules <$> nodes.foldlM s.visit w
      = (fun ds ↦ w.rules ++ ds.map (Definition.toRule s.hidden s.inlined))
        <$> definitionsFrom seen w.comments nodes := by
  induction nodes generalizing w seen with
  | nil => simp [definitionsFrom]
  | cons node nodes ih =>
    rw [List.foldlM_cons]
    by_cases hcomment : node.kind = "comment"
    · rw [visit_comment hcomment, definitionsFrom_comment hcomment, pure_bind]
      exact ih hseen
    by_cases hrule : node.kind = "rule"
    · rw [visit_rule hrule, definitionsFrom_rule hrule, bind_assoc, map_bind, map_bind]
      apply bind_congr
      rintro (_ | ⟨name, body⟩)
      · rw [pure_bind]
        exact ih hseen
      · simp only [hseen]
        split
        · rfl
        · have hnames : ∀ n, (name :: seen).contains n = ((w.rules
              ++ [s.makeRule name body w.comments false]).map Rule.name).contains n := by
            intro n
            rw [List.map_append, List.contains_append, ← hseen, Bool.or_comm]
            exact (congrArg (· || seen.contains n) (Bool.or_false _)).symm
          rw [pure_bind, ih hnames]
          simp [makeRule_eq hs]
    · rw [visit_other hcomment hrule, definitionsFrom_other hcomment hrule]
      simp only [bind_assoc, map_bind, pure_bind, ih hseen]

end Walk

section Core

theorem foldlM_addCore (hs : s.InNormalForm) (taken : List String) (rules : List Rule)
    (bodies : List (String × Expression)) :
    bodies.foldlM (s.addCore taken) rules
      = (fun ds ↦ rules ++ ds.map (Definition.toRule s.hidden s.inlined))
        <$> coreFrom taken bodies := by
  induction bodies generalizing rules with
  | nil => simp [coreFrom]
  | cons core bodies ih =>
    obtain ⟨name, body⟩ := core
    have hstep : s.addCore taken rules (name, body) = if taken.contains name then do
        .report (.keptCore name)
        return rules
      else return rules ++ [s.makeRule name body [] true] := rfl
    rw [List.foldlM_cons, hstep]
    conv_rhs => unfold coreFrom
    split
    · simp only [bind_assoc, map_bind, pure_bind, ih]
    · simp [makeRule_eq hs, ih]

end Core

section Compile

theorem rulesOf_eq (hs : s.InNormalForm) (root : SyntaxTree) :
    s.rulesOf root
      = List.map (Definition.toRule s.hidden s.inlined) <$> Compilation.rules root s.withCore := by
  have hown (nodes : List SyntaxTree) : Walk.rules <$> nodes.foldlM s.visit {}
      = List.map (Definition.toRule s.hidden s.inlined) <$> definitionsFrom [] [] nodes :=
    foldlM_visit hs (fun _ ↦ rfl) nodes
  unfold rulesOf Compilation.rules
  simp only [hown, map_bind, bind_map_left]
  refine bind_congr fun list ↦ bind_congr fun own ↦ ?_
  have hnames : (own.map (Definition.toRule s.hidden s.inlined)).map Rule.name
      = own.map Definition.name := List.map_map
  rw [hnames]
  split
  · simp [foldlM_addCore hs]
  · simp

/-- A session compiles a tree to its grammar of the definitions of the tree. -/
theorem compile_eq (hs : s.InNormalForm) (root : SyntaxTree) :
    s.compile root = s.grammar <$> definitions root s.withCore := by
  unfold compile definitions
  simp only [rulesOf_eq hs, Traced.trace_map, bind_map_left, map_bind, List.length_map, hs.start]
  rfl

/-- A fix changes nothing but the policy, so that every attempt compiles to the grammar of the
definitions that were found first. -/
theorem compile_of_fix? {s' : Session} {d : Diagnostic} {g : Grammar} (hs : s.InNormalForm)
    (h : s.fix? d (some g) = some s') (root : SyntaxTree) :
    s'.compile root = s'.grammar <$> definitions root s.withCore := by
  rw [compile_eq (hs.fix? h)]
  obtain ⟨-, -, ⟨-, -, added, -, -, -, rfl⟩ | ⟨-, -, rfl⟩⟩ := fix?_cases h
  · rfl
  · rfl

end Compile

section Policy

/-- A grammar whose marks and conflicts are those of the session. -/
structure Governs (s : Session) (g : Grammar) : Prop where
  name : g.name = s.language
  start : g.start = s.start
  withCore : g.withCore = s.withCore
  hidden : ∀ r ∈ g.rules, r.hidden = true ↔ r.name ∈ s.hidden
  inlined : ∀ r ∈ g.rules, r.inlined = true ↔ r.name ∈ s.inlined
  conflicts : g.conflicts = s.conflicts

theorem governs_grammar (s : Session) (ds : List Definition) : s.Governs (s.grammar ds) where
  name := rfl
  start := rfl
  withCore := rfl
  hidden r hr := by
    obtain ⟨d, -, rfl⟩ := List.mem_map.1 hr
    exact List.contains_iff_mem
  inlined r hr := by
    obtain ⟨d, -, rfl⟩ := List.mem_map.1 hr
    exact List.contains_iff_mem
  conflicts := rfl

/-- Two sessions that agree on everything but the source, the folder and the policy. -/
structure Agree (s t : Session) : Prop where
  start : s.start = t.start
  language : s.language = t.language
  withCore : s.withCore = t.withCore

/-- The policy of a session has no part in what is reported, the unsupported constructs among it,
nor in whether the compilation fails and for which cause. In the grammar only the marks of the rules
and the conflicts depend on it. -/
theorem compile_policy (hs : s.InNormalForm) (ht : t.InNormalForm) (hagree : s.Agree t)
    (root : SyntaxTree) :
    (s.compile root).trace = (t.compile root).trace ∧
      ((∃ f, (s.compile root).result = .error f ∧ (t.compile root).result = .error f) ∨
        ∃ g h, (s.compile root).result = .ok g ∧ (t.compile root).result = .ok h ∧
          g.rules.map Rule.definition = h.rules.map Rule.definition ∧
          h = { g with rules := h.rules, conflicts := h.conflicts } ∧
          s.Governs g ∧ t.Governs h) := by
  rw [compile_eq hs, compile_eq ht, ← hagree.withCore]
  simp only [Traced.trace_map, Traced.result_map, true_and]
  cases (definitions root s.withCore).result with
  | error f => exact Or.inl ⟨f, rfl, rfl⟩
  | ok ds =>
    refine Or.inr ⟨s.grammar ds, t.grammar ds, rfl, rfl, ?_, ?_, governs_grammar s ds,
      governs_grammar t ds⟩
    · simp only [grammar, List.map_map]
      rfl
    · simp only [grammar, hagree.start, hagree.language, hagree.withCore]

/-- The rules `a = b` and `b = "x"`, with a comment before the second. -/
def remarkTree : SyntaxTree :=
  .branch "rulelist"
    [.branch "rule" [.leaf "rulename" "a", .leaf "defined_as" "=",
      .branch "elements" [.branch "element" [.leaf "rulename" "b"]]],
    .leaf "comment" "; the end\n",
    .branch "rule" [.leaf "rulename" "b", .leaf "defined_as" "=",
      .branch "elements" [.leaf "quoted_string" "\"x\""]]]

def remarkSession (hidden inlined : List String) (conflicts : List (List String)) : Session :=
  { source := .ofText "remark.abnf", location := .ofText "build", start := "a", language := "remark"
    withCore := true, hidden, inlined, conflicts }

/-- One session hides the second rule, the other one inlines it and accepts a conflict. -/
theorem compile_policy_remarkTree :
    ((remarkSession ["b"] [] []).compile remarkTree).trace
        = ((remarkSession [] ["b"] [["a"]]).compile remarkTree).trace ∧
      ∃ g h, ((remarkSession ["b"] [] []).compile remarkTree).result = .ok g ∧
        ((remarkSession [] ["b"] [["a"]]).compile remarkTree).result = .ok h ∧
        g.rules.map Rule.definition = h.rules.map Rule.definition ∧
        h = { g with rules := h.rules, conflicts := [["a"]] } := by
  have hs : (remarkSession ["b"] [] []).InNormalForm := ⟨by decide, by decide, nofun, nofun⟩
  have ht : (remarkSession [] ["b"] [["a"]]).InNormalForm :=
    ⟨by decide, nofun, by decide, by decide⟩
  obtain ⟨htrace, hresult⟩ := compile_policy hs ht ⟨rfl, rfl, rfl⟩ remarkTree
  refine ⟨htrace, ?_⟩
  obtain ⟨f, hf, -⟩ | ⟨g, h, hg, hh, hrules, hfields, -, hgoverned⟩ := hresult
  · rw [compile_eq hs] at hf
    cases hf
  · have hconflicts : h.conflicts = [["a"]] := hgoverned.conflicts
    rw [hconflicts] at hfields
    exact ⟨g, h, hg, hh, hrules, hfields⟩

end Policy

end Session

end AbnfCompiler
