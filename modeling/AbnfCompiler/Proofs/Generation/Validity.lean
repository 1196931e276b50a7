import AbnfCompiler.Proofs.Compilation.Definitions
import AbnfCompiler.Proofs.Generation.Turn
import AbnfCompiler.Proofs.Session.Fix

/-!
When a fix spoils a grammar. Once the grammar of a session is valid, it stays so along a run until a
conflict is declared that names an inlined rule; the next attempt then fails, since its grammar has
a flaw.
-/
namespace AbnfCompiler

open RuleName

variable {s s' : Session} {d : Diagnostic} {ds : List Definition}

namespace Generation.Loop

open Run

variable {c : Loop} {tree : SyntaxTree} {site : Site} {row : List (Session × Diagnostic)}

theorem Fixes.flaw?_eq_none {last : Session} (hds : ∀ d ∈ ds, normal d.name = d.name)
    (hs : s.InNormalForm) (hvalid : (s.grammar ds).flaw? = none) (h : Fixes ds s row last)
    (hrow : ∀ u d, (u, d) ∈ row → ¬ u.AsksForInlined d) : (last.grammar ds).flaw? = none := by
  induction h with
  | nil s => exact hvalid
  | cons hfix _ ih =>
    refine ih (hs.fix? hfix) ?_ fun u d hmem ↦ hrow u d (List.mem_cons_of_mem _ hmem)
    exact (Session.flaw?_fix?_eq_none hds hs hvalid hfix).2 (hrow _ _ (List.mem_cons_self ..))

/-- After a fix that asks for an inlined rule, the run fails at its next turn. -/
theorem Retries.flaw_of_asksForInlined {reports : List Log.Entry} {unsupported : List Unsupported}
    {x y : Turn × Site} (hds : ∀ d ∈ ds, normal d.name = d.name)
    (hs : x.1.session.InNormalForm) (h : c.Retries reports ds unsupported x row y)
    {u : Session} {d : Diagnostic} (hmem : (u, d) ∈ row) (hasks : u.AsksForInlined d) :
    ∃ f, ((c.attemptsFrom reports ds unsupported x.1.session x.1.number x.1.fixes
      x.1.before).exec x.2).1 = .error (.rendering (.flaw f)) := by
  induction h with
  | nil x => cases hmem
  | @cons t t' site site' d' row last hturn hrest ih =>
    rw [attemptsFrom_eq_turn, exec_bind_of_ok hturn]
    have hfix := fix?_of_turn_inr hturn
    rcases List.mem_cons.1 hmem with heq | hmem
    · cases heq
      have hvalid : (t.session.grammar ds).flaw? = none := by
        obtain ⟨text, htext⟩ := (of_turn_ok hturn).1
        by_contra hflaw
        obtain ⟨f, hf⟩ := Option.ne_none_iff_exists'.1 hflaw
        rw [Grammar.render_eq_flaw.2 hf] at htext
        cases htext
      have hflaw := (Session.flaw?_fix?_eq_none hds hs hvalid hfix).not.2 (not_not.2 hasks)
      obtain ⟨f, hf⟩ := Option.ne_none_iff_exists'.1 hflaw
      have hturn' : ((c.turn reports ds unsupported t').exec site').1
          = .error (.rendering (.flaw f)) := turn_rendering_iff.2 (Grammar.render_eq_flaw.2 hf)
      refine ⟨f, ?_⟩
      simp only
      rw [attemptsFrom_eq_turn, exec_bind_of_error (Prod.ext hturn' rfl)]
    · exact ih (hs.fix? hfix) hmem

/-- A fix gives a valid grammar for a valid one, and a run whose first grammar is valid never comes
to one that has a flaw, except for a conflict that names an inlined rule. -/
theorem valid_unless_asksForInlined (hs : s.InNormalForm)
    (hds : (Compilation.definitions tree s.withCore).result = .ok ds)
    (hvalid : (s.grammar ds).flaw? = none) :
    (∀ d s', s.fix? d (some (s.grammar ds)) = some s' →
      (Compilation.definitions tree s'.withCore).result = .ok ds ∧
        ((s'.grammar ds).flaw? = none ↔ ¬ s.AsksForInlined d)) ∧
      ∀ (c : Loop) (site : Site),
        (∃ f, ((c.run tree s).exec site).1 = .error (.rendering (.flaw f))) ↔
          ∃ row x, c.Reaches ds tree s site row x ∧ ∃ u d, (u, d) ∈ row ∧ u.AsksForInlined d := by
  have hnames := Compilation.normal_of_definitions hds
  refine ⟨fun d s' hfix ↦ ⟨?_, Session.flaw?_fix?_eq_none hnames hs hvalid hfix⟩, fun c site ↦ ?_⟩
  · obtain ⟨-, -, ⟨-, -, added, -, -, -, rfl⟩ | ⟨-, -, rfl⟩⟩ := Session.fix?_cases hfix
    · exact hds
    · exact hds
  · constructor
    · rintro ⟨f, hf⟩
      obtain ⟨row, t, site', hreaches, result, last, hturn, hrun⟩ := exists_reaches c site hds
      rw [hrun] at hf
      subst hf
      have hflaw := Grammar.render_eq_flaw.1 (turn_rendering_iff.1 (congrArg Prod.fst hturn))
      by_contra hnone
      have hrow : ∀ u d, (u, d) ∈ row → ¬ u.AsksForInlined d :=
        fun u d hmem hasks ↦ hnone ⟨row, _, hreaches, u, d, hmem, hasks⟩
      rw [hreaches.fixes.flaw?_eq_none hnames hs hvalid hrow] at hflaw
      cases hflaw
    · rintro ⟨row, x, hreaches, u, d, hmem, hasks⟩
      rw [run_eq_attemptsFrom hds]
      exact hreaches.flaw_of_asksForInlined hnames hs hmem hasks

section Instances

def quotedRule (name text : String) : SyntaxTree :=
  .branch "rule" [.leaf "rulename" name, .leaf "defined_as" " = ",
    .branch "elements" [.leaf "quoted_string" ("\"" ++ text ++ "\"")]]

def pairTree : SyntaxTree := .branch "rulelist" [quotedRule "foo" "x", quotedRule "bar" "y"]

def pairDefinitions : List Definition :=
  [⟨"foo", .text "x", [], false⟩, ⟨"bar", .text "y", [], false⟩]

def pairSession (inlined : List String) : Session :=
  { source := .ofText "pair.abnf", location := .ofText "build", start := "bar", language := "pair",
    inlined }

def pairConflict : Diagnostic := { kind := .missingConflict, rules := ["foo", "bar"] }

theorem inNormalForm_pairSession {inlined : List String}
    (h : ∀ name ∈ inlined, normal name = name) : (pairSession inlined).InNormalForm where
  start := by
    have hbar : normal "bar" = "bar" := by decide
    exact hbar
  hidden := nofun
  inlined := h
  conflicts := nofun

/-- A conflict between two rules that are not inlined may be declared. -/
theorem valid_pairConflict : ∃ s', (pairSession []).fix? pairConflict
    (some ((pairSession []).grammar pairDefinitions)) = some s' ∧
      (s'.grammar pairDefinitions).flaw? = none := by
  have hfix : (pairSession []).fix? pairConflict
      (some ((pairSession []).grammar pairDefinitions))
        = some ((pairSession []).withConflict ["foo", "bar"]) := by decide
  have hnormal : (pairSession []).InNormalForm := inNormalForm_pairSession nofun
  have hcompiled : (Compilation.definitions pairTree (pairSession []).withCore).result
      = .ok pairDefinitions := rfl
  have hvalid := valid_unless_asksForInlined hnormal hcompiled (by decide)
  refine ⟨_, hfix, (hvalid.1 _ _ hfix).2.2 ?_⟩
  rintro ⟨-, r, -, hr⟩
  cases hr

/-- The grammar is valid and the fix is made, but the next grammar has a flaw. -/
theorem flaw_pairConflict : (pairSession ["foo"]).InNormalForm ∧
    (Compilation.definitions pairTree (pairSession ["foo"]).withCore).result = .ok pairDefinitions ∧
    ((pairSession ["foo"]).grammar pairDefinitions).flaw? = none ∧
    ∃ s', (pairSession ["foo"]).fix? pairConflict
        (some ((pairSession ["foo"]).grammar pairDefinitions)) = some s' ∧
      (s'.grammar pairDefinitions).flaw? = some (.inlinedConflict "foo") := by
  refine ⟨inNormalForm_pairSession (by decide), rfl, by decide,
    (pairSession ["foo"]).withConflict ["foo", "bar"], by decide, by decide⟩

end Instances

end Generation.Loop

end AbnfCompiler
