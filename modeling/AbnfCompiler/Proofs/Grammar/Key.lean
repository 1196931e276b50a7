import AbnfCompiler.Proofs.Grammar.Naming

/-!
The keys of the entries in the text of a grammar. Distinct names have distinct symbols, so that two
keys can only be the same where a rule that is not hidden is named as the entry rule is.
-/
namespace AbnfCompiler.Grammar

open RuleName Piece

variable {g : Grammar} {r r' : Rule}

def keyText? (g : Grammar) : Piece → Option String
  | .key rule => some (g.write (.key rule))
  | .entryKey => some (g.write .entryKey)
  | _ => none

/-- The keys of the entries in the order of the text. -/
def keys (g : Grammar) : List String := g.pieces.filterMap g.keyText?

theorem keys_eq (g : Grammar) : g.keys =
    entryRule :: (g.rules.filter fun r ↦ !r.inlined).map fun r ↦ g.symbol r.name := by
  rw [keys, filterMap_definitions g (fun _ ↦ rfl) fun _ ↦ rfl]
  simp [keyText?, write]

theorem symbol_eq_entryRule (hvalid : g.flaw? = none) (hr : r ∈ g.rules) :
    g.symbol r.name = entryRule ↔ r.hidden = false ∧ normal r.name = entryRule := by
  rw [symbol_name hvalid hr]
  split
  · next hhidden =>
    rw [hhidden]
    refine ⟨fun h ↦ ?_, nofun⟩
    have hmark := congrArg (fun s ↦ s.toList.head?) h
    rw [RuleName.hidden, String.toList_ofList] at hmark
    cases hmark
  · next hhidden =>
    rw [Bool.eq_false_iff.2 hhidden]
    exact ⟨fun h ↦ ⟨rfl, h⟩, And.right⟩

/-- The keys of a valid grammar are distinct unless a rule among the entries has the name of the
entry rule and shows it. -/
theorem nodup_keys_iff (hvalid : g.flaw? = none)
    (hnames : ∀ r ∈ g.rules, ∃ name, isAbnf name ∧ normal name = normal r.name) :
    (∀ text, g.render = .ok text → text = g.written g.pieces) ∧
    (g.keys.Nodup ↔ ∀ r ∈ g.rules, normal r.name = entryRule → r.inlined ∨ r.hidden) := by
  have hnodup := (flaw?_eq_none.1 hvalid).1
  have hplain : ∀ r ∈ g.rules, isPlain (normal r.name) := by
    intro r hr
    obtain ⟨name, hname, hnormal⟩ := hnames r hr
    exact hnormal ▸ isPlain_normal_of_isAbnf hname
  have hsymbols : ((g.rules.filter fun r ↦ !r.inlined).map fun r ↦ g.symbol r.name).Nodup := by
    apply List.Nodup.map_on
    · intro r hr r' hr' h
      have hr := List.mem_of_mem_filter hr
      have hr' := List.mem_of_mem_filter hr'
      have hname : normal r.name = normal r'.name := by
        rw [← g.ofSymbol_symbol (hplain r hr), h, g.ofSymbol_symbol (hplain r' hr')]
      exact List.inj_on_of_nodup_map hnodup hr hr' hname
    · exact (List.Nodup.of_map _ hnodup).filter _
  constructor
  · intro text h
    rw [written_pieces hvalid, (render_eq_ok.1 h).2.2]
  · rw [keys_eq, List.nodup_cons, and_iff_left hsymbols]
    constructor
    · intro hentry r hr hname
      by_contra hneither
      rw [not_or] at hneither
      refine hentry (List.mem_map.2 ⟨r, List.mem_filter.2 ⟨hr, ?_⟩, ?_⟩)
      · rw [Bool.eq_false_iff.2 hneither.1]
        rfl
      · exact (symbol_eq_entryRule hvalid hr).2 ⟨Bool.eq_false_iff.2 hneither.2, hname⟩
    · intro hrules hmem
      obtain ⟨r, hr, hsymbol⟩ := List.mem_map.1 hmem
      obtain ⟨hr, hinlined⟩ := List.mem_filter.1 hr
      obtain ⟨hhidden, hname⟩ := (symbol_eq_entryRule hvalid hr).1 hsymbol
      rcases hrules r hr hname with h | h
      · rw [h] at hinlined
        cases hinlined
      · rw [h] at hhidden
        cases hhidden

section Instances

/-- A grammar with a rule that has the name of the entry rule, spelled with a hyphen. -/
def sourceGrammar (hidden : Bool) : Grammar where
  name := "sources"
  start := "start"
  rules := [
    { name := "start", body := .reference "source-file" },
    { name := "source-file", body := .text "x", hidden := hidden }]

theorem flaw_sourceGrammar (hidden : Bool) : (sourceGrammar hidden).flaw? = none := by
  cases hidden with
  | false => decide +kernel
  | true => decide +kernel

theorem isAbnf_sourceGrammar (hidden : Bool) :
    ∀ r ∈ (sourceGrammar hidden).rules, isAbnf r.name := by
  have hnames : isAbnf "start" ∧ isAbnf "source-file" := by decide +kernel
  exact List.forall_mem_cons.2 ⟨hnames.1, List.forall_mem_singleton.2 hnames.2⟩

theorem nodup_hiddenSource : (sourceGrammar true).flaw? = none ∧
    (∀ r ∈ (sourceGrammar true).rules, isAbnf r.name) ∧ (sourceGrammar true).keys.Nodup := by
  have hvalid := flaw_sourceGrammar true
  have hnames := isAbnf_sourceGrammar true
  refine ⟨hvalid, hnames, (nodup_keys_iff hvalid fun r hr ↦ ⟨_, hnames r hr, rfl⟩).2.2 ?_⟩
  exact List.forall_mem_cons.2 ⟨fun h ↦ absurd h (by decide +kernel),
    List.forall_mem_singleton.2 fun _ ↦ Or.inr rfl⟩

theorem not_nodup_shownSource : (sourceGrammar false).flaw? = none ∧
    (∀ r ∈ (sourceGrammar false).rules, isAbnf r.name) ∧
    (sourceGrammar false).keys = ["source_file", "start", "source_file"] ∧
    ¬ (sourceGrammar false).keys.Nodup := by
  have hkeys : (sourceGrammar false).keys = ["source_file", "start", "source_file"] := by
    decide +kernel
  refine ⟨flaw_sourceGrammar false, isAbnf_sourceGrammar false, hkeys, ?_⟩
  rw [hkeys]
  decide

end Instances

end AbnfCompiler.Grammar
