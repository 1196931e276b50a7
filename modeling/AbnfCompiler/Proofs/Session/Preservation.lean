import AbnfCompiler.Proofs.Grammar.Preservation
import AbnfCompiler.Proofs.Session.Circle

/-!
Rendering keeps the language of a grammar, whatever is hidden or inlined, and so does a fix of the
session: the rules that it inlines do not come back to themselves.
-/
namespace AbnfCompiler

open RuleName Relation

namespace Grammar

/-- The rules without the policy for them. -/
def rows (g : Grammar) : List (String × Expression) := g.rules.map fun r ↦ (r.name, r.body)

theorem language_congr {g g' : Grammar} (h : g.rows = g'.rows) : g.language = g'.language := by
  have hrule (g : Grammar) (n : String) (e : Expression) :
      (∃ r ∈ g.rules, normal r.name = normal n ∧ r.body = e)
        ↔ ∃ row ∈ g.rows, normal row.1 = normal n ∧ row.2 = e := by
    simp only [rows, List.mem_map, exists_exists_and_eq_and]
  simp only [language, hrule, h]

end Grammar

namespace Session

variable {s s' : Session} {ds : List Definition} {d : Diagnostic}

theorem start_of_fix? {g : Option Grammar} (h : s.fix? d g = some s') : s'.start = s.start := by
  unfold fix? at h
  split at h
  · cases h
    unfold amended
    split
    · rw [foldl_withInlined]
    · rfl
  · cases h

theorem rows_grammar (s : Session) (ds : List Definition) :
    (s.grammar ds).rows = ds.map fun d ↦ (d.name, d.body) := by
  rw [Grammar.rows, grammar, List.map_map]
  rfl

theorem mem_rules_grammar {r : Rule} :
    r ∈ (s.grammar ds).rules ↔ ∃ d ∈ ds, d.toRule s.hidden s.inlined = r :=
  List.mem_map

theorem isSome_resolve?_grammar (s : Session) (ds : List Definition) (n : String) :
    ((s.grammar ds).resolve? n).isSome ↔ ∃ d ∈ ds, normal d.name = normal n := by
  rw [Grammar.resolve?, List.find?_isSome]
  simp only [List.mem_reverse, mem_rules_grammar, exists_exists_and_eq_and, beq_iff_eq]
  rfl

theorem normal_name_of_presentable (hg : (s.grammar ds).Presentable) :
    ∀ d ∈ ds, normal d.name = d.name := by
  intro d hd
  have hname := hg.normal_name (mem_rules_grammar.2 ⟨d, hd, rfl⟩)
  exact hname

theorem isInlined_grammar (hds : ∀ d ∈ ds, normal d.name = d.name) {n : String} :
    (s.grammar ds).isInlined n ↔ normal n ∈ ds.map Definition.name ∧ normal n ∈ s.inlined := by
  rw [← Grammar.isInlined_normal, Grammar.isInlined, Option.any_eq_true]
  constructor
  · rintro ⟨r, hr, hinlined⟩
    obtain ⟨hmem, hcontains⟩ := of_resolve?_grammar hds (normal_normal n) hr
    rw [hcontains, List.contains_iff_mem] at hinlined
    exact ⟨hmem, hinlined⟩
  · rintro ⟨hmem, hinlined⟩
    obtain ⟨r, hr⟩ := exists_resolve?_grammar (s := s) hmem
    obtain ⟨-, hcontains⟩ := of_resolve?_grammar hds (normal_normal n) hr
    exact ⟨r, hr, by rw [hcontains, List.contains_iff_mem]; exact hinlined⟩

/-- The inlined rules of a grammar refer to each other as the inlined names of the session do. -/
theorem inlines_iff_refers (hds : ∀ d ∈ ds, normal d.name = d.name) {a b : String} :
    (s.grammar ds).Inlines a b ↔ Refers ds s.inlined a b := by
  constructor
  · rintro ⟨r, hr, hinlined, rfl, n, hn, rfl, htarget⟩
    obtain ⟨d, hd, rfl⟩ := mem_rules_grammar.1 hr
    obtain ⟨hmem, hin⟩ := (isInlined_grammar hds).1 htarget
    have hname : normal (d.toRule s.hidden s.inlined).name = d.name := hds d hd
    rw [hname]
    exact ⟨List.contains_iff_mem.1 hinlined, hin, hmem, d, hd, rfl, n, hn, rfl⟩
  · rintro ⟨ha, hb, hmem, d, hd, rfl, n, hn, rfl⟩
    exact ⟨d.toRule s.hidden s.inlined, mem_rules_grammar.2 ⟨d, hd, rfl⟩,
      List.contains_iff_mem.2 ha, hds d hd, n, hn, rfl, (isInlined_grammar hds).2 ⟨hmem, hb⟩⟩

theorem acyclic_inlines_iff (hds : ∀ d ∈ ds, normal d.name = d.name) :
    (∀ name, ¬ TransGen (s.grammar ds).Inlines name name) ↔ Acyclic ds s.inlined := by
  have heq : (s.grammar ds).Inlines = Refers ds s.inlined := by
    funext a b
    exact propext (inlines_iff_refers hds)
  rw [heq, Acyclic]

/-- After a fix, too, no inlined rule comes back to itself. -/
theorem acyclic_of_fix? (hs : s.InNormalForm) (hg : (s.grammar ds).Presentable)
    (h : s.fix? d (some (s.grammar ds)) = some s') (name : String) :
    ¬ TransGen (s'.grammar ds).Inlines name name := by
  have hds := normal_name_of_presentable hg
  have hnodup := hg.nodup
  rw [← Grammar.ruleNames, ruleNames_grammar] at hnodup
  exact (acyclic_inlines_iff hds).2
    (acyclic_fix? hnodup hs ((acyclic_inlines_iff hds).1 hg.acyclic) h) name

/-- Two sessions have presentable grammars together, if both grammars are valid and without
circles. -/
theorem presentable_grammar (hg : (s.grammar ds).Presentable)
    (hvalid : (s'.grammar ds).flaw? = none)
    (hacyclic : ∀ name, ¬ TransGen (s'.grammar ds).Inlines name name) :
    (s'.grammar ds).Presentable where
  valid := hvalid
  plain r hr := by
    obtain ⟨d, hd, rfl⟩ := mem_rules_grammar.1 hr
    have hplain := hg.plain _ (mem_rules_grammar.2 ⟨d, hd, rfl⟩)
    exact hplain
  defined r hr n hn := by
    obtain ⟨d, hd, rfl⟩ := mem_rules_grammar.1 hr
    rw [isSome_resolve?_grammar, ← isSome_resolve?_grammar s]
    have hdefined := hg.defined _ (mem_rules_grammar.2 ⟨d, hd, rfl⟩)
    exact hdefined n hn
  acyclic := hacyclic
  writable r hr := by
    obtain ⟨d, hd, rfl⟩ := mem_rules_grammar.1 hr
    have hwritable := hg.writable _ (mem_rules_grammar.2 ⟨d, hd, rfl⟩)
    exact hwritable
  comments r hr := by
    obtain ⟨d, hd, rfl⟩ := mem_rules_grammar.1 hr
    have hcomments := hg.comments _ (mem_rules_grammar.2 ⟨d, hd, rfl⟩)
    exact hcomments

end Session

namespace Grammar

variable {g : Grammar}

theorem Presentable.render_of_rows_eq {g' : Grammar} (hg' : g'.Presentable)
    (hstart : g'.start = g.start) (hrows : g'.rows = g.rows) :
    ∃ text, g'.render = .ok text ∧
      Script.language? text entryRule = some (g.language g.start) :=
  ⟨g'.text, hg'.render_eq, by rw [hg'.language?_text, language_congr hrows, hstart]⟩

/-- The text of a grammar has the language of its start rule. So has that of another grammar with
the same rules, whichever of them are hidden or inlined, and that of the grammar after a fix. -/
theorem language_render (hg : g.Presentable) :
    (∃ text, g.render = .ok text ∧
      Script.language? text entryRule = some (g.language g.start)) ∧
    (∀ g' : Grammar, g'.Presentable → g'.start = g.start → g'.rows = g.rows →
      ∃ text, g'.render = .ok text ∧
        Script.language? text entryRule = some (g.language g.start)) ∧
    ∀ (s s' : Session) (ds : List Definition) (d : Diagnostic) (known : Option Grammar),
      s.InNormalForm → s.grammar ds = g → s.fix? d known = some s' →
      (s'.grammar ds).flaw? = none →
      (known = some g ∨ ∀ name, ¬ TransGen (s'.grammar ds).Inlines name name) →
      ∃ text, (s'.grammar ds).render = .ok text ∧
        Script.language? text entryRule = some (g.language g.start) := by
  refine ⟨hg.render_of_rows_eq rfl rfl, fun g' hg' ↦ hg'.render_of_rows_eq, ?_⟩
  rintro s s' ds d known hs rfl hfix hvalid hknown
  have hacyclic : ∀ name, ¬ TransGen (s'.grammar ds).Inlines name name := by
    rcases hknown with rfl | hacyclic
    · exact Session.acyclic_of_fix? hs hg hfix
    · exact hacyclic
  have hg' := Session.presentable_grammar hg hvalid hacyclic
  have hrows : (s'.grammar ds).rows = (s.grammar ds).rows := by
    rw [Session.rows_grammar, Session.rows_grammar]
  exact hg'.render_of_rows_eq (Session.start_of_fix? hfix) hrows

section Instances

/-- One to three items with commas between them; an item may be empty. -/
def listDefinitions : List Definition :=
  [⟨"list", .sequence [.reference "item",
      .repetition (.sequence [.text ",", .reference "item"]) ⟨0, some 2, by decide⟩], [], false⟩,
    ⟨"item", .optional (.text "x"), ["An item."], false⟩]

def listSession (hidden : List String) : Session :=
  { source := .ofText "list.abnf", location := .ofText "build", start := "list",
    language := "list", hidden }

theorem acyclic_list (hidden : List String) (name : String) :
    ¬ TransGen ((listSession hidden).grammar listDefinitions).Inlines name name := by
  intro hcircle
  have hds : ∀ d ∈ listDefinitions, normal d.name = d.name := by decide
  obtain ⟨b, hstep, -⟩ := TransGen.head'_iff.1 hcircle
  exact List.not_mem_nil ((Session.inlines_iff_refers hds).1 hstep).1

theorem presentable_list : ((listSession []).grammar listDefinitions).Presentable where
  valid := by decide
  plain := by decide
  defined := by decide
  acyclic := acyclic_list []
  writable := by decide
  comments := by
    have hall : ((listSession []).grammar listDefinitions).rules.all fun r ↦
        r.comments.all fun comment ↦ comment.toList.all fun c ↦ !Script.isLineBreak c := rfl
    simpa using hall

/-- The item may be hidden. It matches the empty word, so that a fix may also inline it. -/
theorem language_render_list :
    (∃ text, ((listSession ["item"]).grammar listDefinitions).render = .ok text ∧
      Script.language? text entryRule
        = some (((listSession []).grammar listDefinitions).language "list")) ∧
    ∃ s', (listSession []).fix? { kind := .emptyMatch, rules := ["item"] }
        (some ((listSession []).grammar listDefinitions)) = some s' ∧
      ∃ text, (s'.grammar listDefinitions).render = .ok text ∧
        Script.language? text entryRule
          = some (((listSession []).grammar listDefinitions).language "list") := by
  have hlanguage := language_render presentable_list
  have hsearch : ((listSession []).grammar listDefinitions).reachesItself ["item"] "item"
      = false :=
    reachesItself_of_forall (by decide) nofun
  have hobstacle : (listSession []).obstacle? { kind := .emptyMatch, rules := ["item"] }
      (some ((listSession []).grammar listDefinitions)) = none :=
    (Session.obstacle?_eq_none rfl).2 ⟨by decide, List.forall_mem_singleton.2 hsearch⟩
  have hfix : (listSession []).fix? { kind := .emptyMatch, rules := ["item"] }
      (some ((listSession []).grammar listDefinitions)) = some ((listSession []).withInlined "item") :=
    if_pos ⟨rfl, by decide, hobstacle, rfl, by decide⟩
  refine ⟨hlanguage.2.1 _ ?_ rfl rfl, _, hfix, ?_⟩
  · exact Session.presentable_grammar presentable_list (by decide) (acyclic_list ["item"])
  · refine hlanguage.2.2 (listSession []) _ listDefinitions _ _ ?_ rfl hfix (by decide) (Or.inl rfl)
    exact ⟨by decide, nofun, nofun, nofun⟩

end Instances

end Grammar

end AbnfCompiler
