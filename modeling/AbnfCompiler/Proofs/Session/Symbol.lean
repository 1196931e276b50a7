import AbnfCompiler.Proofs.Diagnostic.Report
import AbnfCompiler.Proofs.Grammar.Script
import AbnfCompiler.Proofs.Session.Order

/-!
The symbol of a rule leads back to the rule. What the generator writes about symbols is classified
with these symbols, and the fix for it is about the rules that they belong to.
-/
namespace AbnfCompiler.Session

open RuleName Diagnostic

variable {s : Session} {ds : List Definition} {d : Diagnostic} {name : String}

section Symbol

theorem isHidden_grammar (hds : ∀ d ∈ ds, normal d.name = d.name)
    (hname : name ∈ ds.map Definition.name) :
    (s.grammar ds).isHidden name = s.hidden.contains name := by
  obtain ⟨r, hr⟩ := exists_resolve?_grammar (s := s) hname
  obtain ⟨hmem, hnormal⟩ := Grammar.of_resolve?_eq_some hr
  obtain ⟨d, hd, rfl⟩ := List.mem_map.1 hmem
  obtain ⟨d', hd', rfl⟩ := List.mem_map.1 hname
  have hsame : d.name = d'.name := (hds d hd).symm.trans (hnormal.trans (hds d' hd'))
  rw [Grammar.isHidden, hr, ← hsame]
  rfl

theorem ruleOf_hidden (hplain : isPlain name) (hhidden : name ∈ s.hidden) :
    s.ruleOf (RuleName.hidden name) = name := by
  have hnormal : normal (RuleName.hidden name) = RuleName.hidden name := by
    obtain ⟨c, cs, hlist, -, hall⟩ := exists_cons_of_isPlain hplain
    rw [← hlist] at hall
    have hchars : ∀ x ∈ (RuleName.hidden name).toList, isNameChar x := by
      rw [RuleName.hidden, String.toList_ofList, normal_of_isPlain hplain]
      exact List.forall_mem_cons.2 ⟨rfl, hall⟩
    rw [← String.toList_inj,
      toList_normal_of_forall fun x hx ↦ isBlank_of_isNameChar (hchars x hx)]
    exact (List.map_congr_left fun x hx ↦ plainMark_of_isNameChar (hchars x hx)).trans
      (List.map_id _)
  rw [ruleOf, hnormal, RuleName.hidden, String.toList_ofList, normal_of_isPlain hplain]
  simp only [String.ofList_toList, hhidden, and_self, if_true]

theorem ruleOf_of_isPlain (hplain : isPlain name) : s.ruleOf name = name := by
  obtain ⟨c, cs, hlist, hletter, -⟩ := exists_cons_of_isPlain hplain
  have hmark : c ≠ hiddenMark := by
    rintro rfl
    cases hletter
  rw [ruleOf, normal_of_isPlain hplain, hlist]
  simp only [hmark, false_and, if_false]

/-- A symbol that the generator reports belongs to the rule that it was made for. -/
theorem ruleOf_symbol (hds : ∀ d ∈ ds, normal d.name = d.name)
    (hname : name ∈ ds.map Definition.name) (hplain : isPlain name) :
    s.ruleOf ((s.grammar ds).symbol name) = name := by
  rw [Grammar.symbol, isHidden_grammar hds hname]
  split
  · next hhidden => exact ruleOf_hidden hplain (List.contains_iff_mem.1 hhidden)
  · rw [normal_of_isPlain hplain, ruleOf_of_isPlain hplain]

theorem quotable_symbol (g : Grammar) (hplain : isPlain name) : Quotable (g.symbol name) := by
  rw [← normal_of_isPlain hplain] at hplain
  obtain ⟨hne, hchars⟩ := g.isNameChar_symbol hplain
  have hout {c : Char} (hc : isNameChar c = false) : c ∉ (g.symbol name).toList := by
    intro hmem
    rw [hchars c hmem] at hc
    cases hc
  refine ⟨fun hempty ↦ hne ?_, hout (c := '\x60') (by decide), hout (c := '\n') (by decide)⟩
  rw [hempty]
  rfl

end Symbol

section Fix

/-- The rule that an obstacle is about. -/
def Obstacle.rule : Obstacle → String
  | .conflict name _ | .recursion name => name

theorem mem_of_obstacle? {g : Option Grammar} {o : Obstacle} (h : s.obstacle? d g = some o) :
    o.rule ∈ d.rules.map s.ruleOf := by
  unfold obstacle? at h
  split at h
  · cases h
  rcases Option.or_eq_some_iff.1 h with h | ⟨-, h⟩
  · obtain ⟨name, hname, hgroup⟩ := List.exists_of_findSome?_eq_some h
    obtain ⟨_, -, rfl⟩ := Option.map_eq_some_iff.1 hgroup
    exact hname
  · obtain ⟨g, -, h⟩ := Option.bind_eq_some_iff.1 h
    obtain ⟨name, hfind, rfl⟩ := Option.map_eq_some_iff.1 h
    exact List.mem_of_find?_eq_some hfind

/-- A single rule that is defined and not inlined yet is inlined, unless there is an obstacle. -/
theorem fix?_or_obstacle? (hnodup : (ds.map Definition.name).Nodup) (hs : s.InNormalForm)
    {r : String} (hkind : d.kind = .emptyMatch) (hrules : d.rules = [r])
    (hknown : s.ruleOf r ∈ ds.map Definition.name) (hnew : s.ruleOf r ∉ s.inlined) :
    (s.obstacle? d (some (s.grammar ds)) = none ∧
      s.fix? d (some (s.grammar ds)) = some (s.inlining [s.ruleOf r])) ∨
    ∃ o, s.obstacle? d (some (s.grammar ds)) = some o ∧ o.rule = s.ruleOf r ∧
      s.fix? d (some (s.grammar ds)) = none := by
  cases hobstacle : s.obstacle? d (some (s.grammar ds)) with
  | none =>
    obtain ⟨hapart, hstraight⟩ := (obstacle?_eq_none_iff hnodup hkind hrules).1 hobstacle
    have hcan : s.CanInline ds [s.ruleOf r] :=
      ⟨List.nodup_singleton _, List.forall_mem_singleton.2 hnew, List.forall_mem_singleton.2 hknown,
        List.forall_mem_singleton.2 hapart, List.forall_mem_singleton.2 hstraight⟩
    exact Or.inl ⟨rfl, (fix?_eq_some hnodup hs hkind hrules).2 ⟨hcan, rfl⟩⟩
  | some o =>
    have hrule := mem_of_obstacle? hobstacle
    rw [hrules, List.map_singleton, List.mem_singleton] at hrule
    refine Or.inr ⟨o, rfl, hrule, if_neg ?_⟩
    rintro ⟨-, -, hnone, -⟩
    rw [hobstacle] at hnone
    cases hnone

/-- Defined rules are declared as a conflict, unless they are one already. -/
theorem fix?_missingConflict (hkind : d.kind = .missingConflict) (hne : d.rules ≠ [])
    (hknown : ∀ r ∈ d.rules, s.ruleOf r ∈ ds.map Definition.name) :
    s.fix? d (some (s.grammar ds)) =
      if groupOf (d.rules.map s.ruleOf) ∈ s.conflicts then none
      else some { s with conflicts := s.conflicts ++ [groupOf (d.rules.map s.ruleOf)] } := by
  have hempty : d.kind ≠ .emptyMatch := by simp [hkind]
  have hself := amended_eq_self (s := s) (d := d)
  rw [if_neg hempty] at hself
  have hobstacle : s.obstacle? d (some (s.grammar ds)) = none := if_pos hempty
  have hknows : s.knows d (s.grammar ds) := knows_grammar.2 hknown
  have hfixable : d.kind.isFixable := by rw [hkind]; rfl
  by_cases hgroup : groupOf (d.rules.map s.ruleOf) ∈ s.conflicts
  · rw [if_pos hgroup, fix?, if_neg]
    rintro ⟨-, -, -, -, hchange⟩
    exact hchange (hself.2 hgroup)
  · rw [if_neg hgroup, fix?,
      if_pos ⟨hfixable, hne, hobstacle, hknows, hself.not.2 hgroup⟩, amended, if_neg hempty]
    simp only [withConflict, addNew, if_neg hgroup]

end Fix

/-- Reports are classified with the symbols that they name, and each symbol stands for the rule that
it was made for. A rule that matches the empty string is inlined unless it is itself the obstacle.
Rules in conflict are declared, unless they are declared before. -/
theorem reports_lead_back {tree : SyntaxTree} (hs : s.InNormalForm)
    (hds : (Compilation.definitions tree s.withCore).result = .ok ds)
    (hplain : ∀ d ∈ ds, isPlain d.name) :
    (∀ name ∈ ds.map Definition.name, name ∉ s.inlined →
      ∀ before after : String, '\x60' ∉ before.toList →
        let symbol := (s.grammar ds).symbol name
        let text := before ++ emptyMatchReport symbol ++ after
        let d : Diagnostic := ⟨.emptyMatch, [symbol], text⟩
        (Classifier.bundled.classify text none).2 = d ∧
          ((s.obstacle? d (some (s.grammar ds)) = none ∧
              s.fix? d (some (s.grammar ds)) = some (s.inlining [name])) ∨
            ∃ o, s.obstacle? d (some (s.grammar ds)) = some o ∧ o.rule = name ∧
              s.fix? d (some (s.grammar ds)) = none)) ∧
    ∀ names : List String, names ≠ [] → (∀ name ∈ names, name ∈ ds.map Definition.name) →
      ∀ text : String, Bundled.emptyMatch.search text = none →
        AsksForConflict (names.map (s.grammar ds).symbol) text →
        let d : Diagnostic := ⟨.missingConflict, names.map (s.grammar ds).symbol, text⟩
        (Classifier.bundled.classify text none).2 = d ∧
          s.fix? d (some (s.grammar ds)) =
            if groupOf names ∈ s.conflicts then none
            else some { s with conflicts := s.conflicts ++ [groupOf names] } := by
  have hnodup := Compilation.nodup_of_definitions hds
  have hplain' : ∀ name ∈ ds.map Definition.name, isPlain name := List.forall_mem_map.2 hplain
  have hback : ∀ name ∈ ds.map Definition.name, s.ruleOf ((s.grammar ds).symbol name) = name :=
    fun name hname ↦ ruleOf_symbol (Compilation.normal_of_definitions hds) hname
      (hplain' name hname)
  constructor
  · intro name hname hnew before after hbefore symbol text d
    have hclass : (Classifier.bundled.classify text none).2 = d :=
      classify_emptyMatchReport hbefore (quotable_symbol (s.grammar ds) (hplain' name hname))
    have hfix := fix?_or_obstacle? (r := symbol) (d := d) hnodup hs rfl rfl
    rw [hback name hname] at hfix
    exact ⟨hclass, hfix hname hnew⟩
  · intro names hne hnames text hempty hasks d
    have hsymbols : names.map (s.grammar ds).symbol ≠ [] := by simpa using hne
    have hquotable : ∀ n ∈ names.map (s.grammar ds).symbol, Quotable n :=
      List.forall_mem_map.2 fun name hname ↦
        quotable_symbol (s.grammar ds) (hplain' name (hnames name hname))
    have hrules : (names.map (s.grammar ds).symbol).map s.ruleOf = names := by
      have heach : ∀ name ∈ names, (s.ruleOf ∘ (s.grammar ds).symbol) name = name := by
        intro name hname
        rw [Function.comp_apply, hback name (hnames name hname)]
      rw [List.map_map, List.map_congr_left heach, List.map_id']
    have hclass := classify_conflict hasks hsymbols hquotable hempty
    have hknown : ∀ r ∈ d.rules, s.ruleOf r ∈ ds.map Definition.name := by
      refine List.forall_mem_map.2 fun name hname ↦ ?_
      rw [hback name (hnames name hname)]
      exact hnames name hname
    have hfix := fix?_missingConflict (d := d) rfl hsymbols hknown
    rw [hrules] at hfix
    exact ⟨hclass, hfix⟩

section Instances

/-- The second rule of the chain is hidden. -/
def hiddenSession : Session := { chainSession with hidden := ["b"] }

def conflictText : String := "add a conflict for these rules: `a`, `_b`\nSpecify a higher precedence"

theorem asksForConflict_conflictText : AsksForConflict ["a", "_b"] conflictText := by
  have hsplit : conflictText.toList = [] ++ ("add a conflict for these rules:".toList
      ++ ([' '] ++ quotedRow [("a", [',', ' ']), ("_b", [])]
        ++ "\nSpecify a higher precedence".toList)) := rfl
  refine .intro hsplit ?_ (fun _ _ _ _ _ ↦ Nat.zero_le _) (by decide) (by decide) rfl ?_
  · refine .cons (by decide) ?_
    exact Pattern.spells_self "dd a conflict for these rules:".toList
  · rintro _ ⟨⟩
    rfl

/-- The hidden rule is inlined, or it is declared to be in conflict with the other one. -/
theorem reports_hiddenSession :
    (∃ d, (Classifier.bundled.classify ("Error: " ++ emptyMatchReport "_b" ++ ".") none).2 = d ∧
      hiddenSession.fix? d (some (hiddenSession.grammar chainDefinitions))
        = some (hiddenSession.inlining ["b"])) ∧
    ∃ d, (Classifier.bundled.classify conflictText none).2 = d ∧
      hiddenSession.fix? d (some (hiddenSession.grammar chainDefinitions))
        = some { hiddenSession with conflicts := [["a", "b"]] } := by
  have hcompiled : (Compilation.definitions chainTree false).result = .ok chainDefinitions := rfl
  have hs : hiddenSession.InNormalForm := ⟨by decide, by decide, nofun, nofun⟩
  have hnodup := Compilation.nodup_of_definitions hcompiled
  have hback := reports_lead_back hs hcompiled (by decide)
  have hsymbol : (hiddenSession.grammar chainDefinitions).symbol "b" = "_b" := by decide
  have hsymbols : ["a", "b"].map (hiddenSession.grammar chainDefinitions).symbol = ["a", "_b"] := by
    decide
  constructor
  · have hempty := hback.1 "b" (by decide) (by decide) "Error: " "." (by decide)
    rw [hsymbol] at hempty
    obtain ⟨hclass, ⟨-, hfix⟩ | ⟨o, hobstacle, -, -⟩⟩ := hempty
    · exact ⟨_, hclass, hfix⟩
    · have hnone : hiddenSession.obstacle?
          ⟨.emptyMatch, ["_b"], "Error: " ++ emptyMatchReport "_b" ++ "."⟩
          (some (hiddenSession.grammar chainDefinitions)) = none :=
        (obstacle?_eq_none_iff hnodup rfl rfl).2 ⟨nofun, straight_chain _ _⟩
      rw [hnone] at hobstacle
      cases hobstacle
  · have hconflict := hback.2 ["a", "b"] (by decide) (by decide) conflictText (by decide +kernel)
    rw [hsymbols] at hconflict
    obtain ⟨hclass, hfix⟩ := hconflict asksForConflict_conflictText
    exact ⟨_, hclass, hfix⟩

end Instances

end AbnfCompiler.Session
