import AbnfCompiler.Proofs.Expression.Substitution
import AbnfCompiler.Proofs.Grammar.Language

/-!
Grammars with every name in its normal form. They are rendered as the same text, and fail to be
rendered for the same reason, however their names were spelled.
-/
namespace AbnfCompiler

open RuleName

namespace Expression

/-- The expression with the names that it refers to in their normal forms. -/
def normalized (e : Expression) : Expression := e.subst fun name ↦ .reference (normal name)

mutual

theorem normalized_normalized : ∀ e : Expression, e.normalized.normalized = e.normalized
  | .reference name => congrArg Expression.reference (normal_normal name)
  | .literal _ => rfl
  | .charClass _ => rfl
  | .sequence items => congrArg Expression.sequence (normalizedAll_normalizedAll items)
  | .choice items => congrArg Expression.choice (normalizedAll_normalizedAll items)
  | .repetition element bounds =>
    congrArg (Expression.repetition · bounds) (normalized_normalized element)
  | .optional element => congrArg Expression.optional (normalized_normalized element)

theorem normalizedAll_normalizedAll : ∀ es : List Expression,
    substAll (fun name ↦ .reference (normal name))
        (substAll (fun name ↦ .reference (normal name)) es)
      = substAll (fun name ↦ .reference (normal name)) es
  | [] => rfl
  | e :: es => congrArg₂ List.cons (normalized_normalized e) (normalizedAll_normalizedAll es)

end

theorem spelledOut_normalized (e : Expression) :
    e.normalized.spelledOut = e.spelledOut.map normalized :=
  spelledOut_subst (fun _ ↦ rfl) e

end Expression

def Rule.normalized (r : Rule) : Rule :=
  { r with name := normal r.name, body := r.body.normalized }

theorem Rule.inlined_normalized (r : Rule) : r.normalized.inlined = r.inlined := by
  rw [normalized]

theorem Rule.hidden_normalized (r : Rule) : r.normalized.hidden = r.hidden := by
  rw [normalized]

/-- What keeps the grammar from being rendered, with the name in its normal form. -/
def Flaw.normalized : Flaw → Flaw
  | .unknownConflict name => .unknownConflict (normal name)
  | .inlinedConflict name => .inlinedConflict (normal name)
  | flaw => flaw

def RenderError.normalized : RenderError → RenderError
  | .flaw f => .flaw f.normalized
  | .bounds e => .bounds e

namespace Grammar

/-- The grammar with the names of rules, of the start, in conflict groups and in bodies in their
normal forms. -/
def normalized (g : Grammar) : Grammar :=
  { g with
    start := normal g.start
    rules := g.rules.map Rule.normalized
    conflicts := g.conflicts.map fun group ↦ group.map normal }

variable (g : Grammar)

theorem rules_normalized : g.normalized.rules = g.rules.map Rule.normalized := rfl

theorem normalized_normalized : g.normalized.normalized = g.normalized := by
  have hrule : Rule.normalized ∘ Rule.normalized = Rule.normalized := by
    funext r
    rw [Function.comp_apply, Rule.normalized, Rule.normalized, normal_normal,
      Expression.normalized_normalized]
  have hgroup : (fun group ↦ List.map normal group) ∘ (fun group ↦ List.map normal group)
      = fun group ↦ group.map normal := by
    funext group
    simp
  rw [normalized, normalized, normal_normal, List.map_map, List.map_map, hrule, hgroup]

section Names

variable (name : String)

theorem resolve?_normal : g.resolve? (normal name) = g.resolve? name := by
  rw [resolve?, resolve?, normal_normal]

theorem resolve?_normalized :
    g.normalized.resolve? name = (g.resolve? name).map Rule.normalized := by
  have hname (r : Rule) : normal r.normalized.name = normal r.name := normal_normal r.name
  rw [resolve?, resolve?, normalized, ← List.map_reverse, List.find?_map]
  simp only [Function.comp_def, hname]

theorem isInlined_normalized : g.normalized.isInlined name = g.isInlined name := by
  rw [isInlined, isInlined, resolve?_normalized, Option.any_map]
  simp only [Rule.inlined_normalized]

theorem isHidden_normalized : g.normalized.isHidden name = g.isHidden name := by
  rw [isHidden, isHidden, resolve?_normalized, Option.any_map]
  simp only [Rule.hidden_normalized]

theorem symbol_normalized : g.normalized.symbol (normal name) = g.symbol name := by
  rw [symbol_normal, symbol, symbol, isHidden_normalized]

theorem reference_normalized : g.normalized.reference (normal name) = g.reference name := by
  rw [reference, reference, isInlined_normal, isInlined_normalized, symbol_normalized, helper,
    helper, normal_normal]

end Names

section Text

mutual

theorem nativeText_normalized : ∀ e : Expression,
    g.normalized.nativeText e.normalized = g.nativeText e
  | .reference name => g.reference_normalized name
  | .literal _ => rfl
  | .charClass _ => rfl
  | .sequence items => congrArg (call "seq") (nativeTexts_normalized items)
  | .choice items => congrArg (call "choice") (nativeTexts_normalized items)
  | .repetition element bounds =>
    congrArg (fun text ↦ call (if bounds.least = 1 then "repeat1" else "repeat") [text])
      (nativeText_normalized element)
  | .optional element =>
    congrArg (fun text ↦ call "optional" [text]) (nativeText_normalized element)

theorem nativeTexts_normalized : ∀ es : List Expression,
    g.normalized.nativeTexts (Expression.substAll (fun name ↦ .reference (normal name)) es)
      = g.nativeTexts es
  | [] => rfl
  | e :: es => congrArg₂ List.cons (nativeText_normalized e) (nativeTexts_normalized es)

end

theorem expressionText_normalized (e : Expression) :
    g.normalized.expressionText e.normalized = g.expressionText e := by
  rw [expressionText, expressionText, Expression.spelledOut_normalized]
  cases e.spelledOut with
  | error _ => rfl
  | ok e' => exact congrArg Except.ok (g.nativeText_normalized e')

theorem helperLine_normalized (r : Rule) :
    g.normalized.helperLine r.normalized = g.helperLine r := by
  rw [helperLine, helperLine, Rule.normalized, expressionText_normalized, helper, helper,
    normal_normal]

theorem ruleEntry_normalized (comments : List String) (r : Rule) :
    g.normalized.ruleEntry comments r.normalized = g.ruleEntry comments r := by
  rw [ruleEntry, ruleEntry, Rule.normalized, expressionText_normalized, symbol_normalized]

theorem conflictLine_normalized (group : List String) :
    g.normalized.conflictLine (group.map normal) = g.conflictLine group := by
  simp only [conflictLine, List.map_map, Function.comp_def, symbol_normalized]

theorem conflictLines_normalized : g.normalized.conflictLines = g.conflictLines := by
  have hlines : g.normalized.conflicts.map g.normalized.conflictLine
      = g.conflicts.map g.conflictLine := by
    rw [normalized, List.map_map]
    exact List.map_congr_left fun group _ ↦ g.conflictLine_normalized group
  have hempty : g.normalized.conflicts = [] ↔ g.conflicts = [] := List.map_eq_nil_iff
  simp only [conflictLines, hlines, hempty]

theorem withHeading_normalized (rs : List Rule) : withHeading (rs.map Rule.normalized)
    = (withHeading rs).map (Prod.map id Rule.normalized) := by
  induction rs with
  | nil => rfl
  | cons r rs ih =>
    rw [List.map_cons, withHeading, withHeading, ih]
    cases hcore : r.core with
    | true => simp [Rule.normalized, hcore]
    | false => simp [Rule.normalized, hcore]

end Text

section Flaws

theorem duplicates_normalized : g.normalized.duplicates = g.duplicates := by
  have hnames : g.normalized.rules.map (fun r ↦ normal r.name)
      = g.rules.map fun r ↦ normal r.name := by
    rw [normalized, List.map_map]
    exact List.map_congr_left fun r _ ↦ normal_normal r.name
  rw [duplicates, duplicates, hnames]

theorem conflictFlaw?_normalized :
    g.normalized.conflictFlaw? = g.conflictFlaw?.map Flaw.normalized := by
  have hmembers : g.normalized.conflicts.flatten = g.conflicts.flatten.map normal := by
    rw [normalized, List.map_flatten]
  rw [conflictFlaw?, conflictFlaw?, hmembers, List.findSome?_map, List.map_findSome?]
  congr 1
  funext name
  rw [Function.comp_apply, Function.comp_apply, resolve?_normal, resolve?_normalized]
  cases g.resolve? name with
  | none => rfl
  | some r =>
    simp only [Option.map_some, Rule.inlined_normalized]
    split <;> rfl

theorem flaw?_normalized : g.normalized.flaw? = g.flaw?.map Flaw.normalized := by
  have hstart : (g.normalized.resolve? g.normalized.start).isNone
      = (g.resolve? g.start).isNone := by
    rw [normalized, resolve?_normal, ← normalized, resolve?_normalized, Option.isNone_map]
  rw [flaw?, flaw?, duplicates_normalized, hstart, conflictFlaw?_normalized]
  split
  · rfl
  · split
    · exact congrArg (fun name ↦ some (Flaw.noStart name)) (normal_normal g.start)
    · rfl

end Flaws

theorem mapError_bounds (x : Except Expression.BoundsError String) :
    (x.mapError RenderError.bounds).mapError RenderError.normalized = x.mapError .bounds := by
  cases x <;> rfl

theorem helpers_normalized : (g.normalized.rules.filter Rule.inlined).mapM g.normalized.helperLine
    = (g.rules.filter Rule.inlined).mapM g.helperLine := by
  have hline : g.normalized.helperLine ∘ Rule.normalized = g.helperLine :=
    funext g.helperLine_normalized
  have hinlined : Rule.inlined ∘ Rule.normalized = Rule.inlined :=
    funext Rule.inlined_normalized
  rw [g.rules_normalized, List.filter_map, List.mapM_map, hline, hinlined]

theorem entries_normalized :
    (withHeading (g.normalized.rules.filter fun r ↦ !r.inlined)).mapM
        (fun (cs, r) ↦ g.normalized.ruleEntry cs r)
      = (withHeading (g.rules.filter fun r ↦ !r.inlined)).mapM fun (cs, r) ↦ g.ruleEntry cs r := by
  have hentry : (fun (cs, r) ↦ g.normalized.ruleEntry cs r) ∘ Prod.map id Rule.normalized
      = fun (cs, r) ↦ g.ruleEntry cs r := by
    funext entry
    obtain ⟨cs, r⟩ := entry
    exact g.ruleEntry_normalized cs r
  have hown : (fun r : Rule ↦ !r.inlined) ∘ Rule.normalized = fun r ↦ !r.inlined :=
    funext fun r ↦ congrArg Bool.not r.inlined_normalized
  rw [g.rules_normalized, List.filter_map, withHeading_normalized, List.mapM_map, hentry, hown]

theorem render_normalized_eq : g.normalized.render = g.render.mapError RenderError.normalized := by
  have hstart : g.normalized.reference g.normalized.start = g.reference g.start :=
    g.reference_normalized g.start
  have hname : g.normalized.name = g.name := rfl
  rw [render, render, flaw?_normalized]
  cases g.flaw? with
  | some flaw => rfl
  | none =>
    rw [helpers_normalized, entries_normalized, hstart, hname, conflictLines_normalized]
    exact (mapError_bounds _).symm

/-- A grammar has a text exactly if it has one with all names in their normal forms, and it is the
same text. -/
theorem render_normalized :
    (∀ text, g.normalized.render = .ok text ↔ g.render = .ok text) ∧
      g.normalized.normalized = g.normalized := by
  constructor
  · intro text
    rw [render_normalized_eq, mapError_eq_ok]
  · exact g.normalized_normalized

end Grammar

end AbnfCompiler
