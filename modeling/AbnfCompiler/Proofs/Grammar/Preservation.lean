import AbnfCompiler.Proofs.Grammar.Presentation
import AbnfCompiler.Proofs.Grammar.Reading

/-!
The script of a grammar has the language of the grammar. Inlined rules are no symbols of the script:
given the languages of the symbols, theirs are those of their bodies.
-/
namespace AbnfCompiler.Grammar

open RuleName Script

variable {g : Grammar}

/-- The languages `ρ` of the rules go with the languages `σ` of the symbols. -/
structure Agrees (g : Grammar) (ρ σ : String → Language Codepoint) : Prop where
  plain : ∀ n r, g.resolve? n = some r → r.inlined = false → ρ n = σ (g.symbol n)
  inlined : ∀ n r, g.resolve? n = some r → r.inlined → ρ n = r.body.language ρ

/-- In the script `e'` means what `e` means in the grammar. -/
def Means (g : Grammar) (e' e : Expression) : Prop :=
  ∀ ρ σ, g.Agrees ρ σ → e'.language σ = e.language ρ

section Expressions

theorem isInlined_eq {n : String} {r : Rule} (h : g.resolve? n = some r) :
    g.isInlined n = r.inlined := by
  rw [isInlined, h, Option.any_some]

variable {call : String → Option Expression}

/-- What calls give for the inlined rules that some names refer to. -/
def Calls (g : Grammar) (call : String → Option Expression) (names : List String) : Prop :=
  ∀ n ∈ names, (g.resolve? n).isSome ∧
    (g.isInlined n → ∃ e, call (helper n) = some e ∧ g.Means e (.reference n))

/-- What a name is read as. -/
def readAs (g : Grammar) (call : String → Option Expression) (name : String) : Expression :=
  ((g.term (.reference name)).expression? call).getD (.reference name)

theorem Calls.expression?_reference {names : List String} (h : g.Calls call names) :
    ∀ n ∈ names, (g.term (.reference n)).expression? call = some (g.readAs call n) ∧
      g.Means (g.readAs call n) (.reference n) := by
  intro n hn
  obtain ⟨hsome, hcall⟩ := h n hn
  obtain ⟨r, hr⟩ := Option.isSome_iff_exists.1 hsome
  rw [readAs, Grammar.expression?_reference]
  split
  · next hinlined =>
    obtain ⟨e, he, hmeans⟩ := hcall hinlined
    rw [he]
    exact ⟨rfl, hmeans⟩
  · next hinlined =>
    rw [isInlined_eq hr, Bool.not_eq_true] at hinlined
    exact ⟨rfl, fun ρ σ hagrees ↦ (hagrees.plain n r hr hinlined).symm⟩

/-- The term of an expression is read as an expression of the same meaning. -/
theorem exists_expression? {e : Expression} (hn : e.isNative) (hw : e.isWritable)
    (hcalls : g.Calls call e.references) :
    ∃ e', (g.term e).expression? call = some e' ∧ g.Means e' e := by
  have hread := hcalls.expression?_reference
  refine ⟨e.subst (g.readAs call), expression?_term hn hw fun n hn ↦ (hread n hn).1, ?_⟩
  exact fun ρ σ hagrees ↦ Expression.language_subst fun n hn ↦ (hread n hn).2 ρ σ hagrees

end Expressions

section Constants

variable {r : Rule}

theorem helper_inj {a b : String} : helper a = helper b ↔ normal a = normal b := by
  rw [helper, helper, ← String.toList_inj, String.toList_append, String.toList_append,
    List.append_cancel_left_eq, String.toList_inj]

theorem lookup_without {cs : List (String × Term)} {f f' : String} (h : f' ≠ f) :
    (without cs f).lookup f' = cs.lookup f' := by
  induction cs with
  | nil => rfl
  | cons c cs ih =>
    obtain ⟨k, t⟩ := c
    rw [without, List.filter_cons]
    split
    · rw [List.lookup_cons, List.lookup_cons, ← without, ih]
    · next hk =>
      have hk : k = f := by simpa using hk
      rw [List.lookup_cons, ← without, ih, hk, beq_false_of_ne h]

/-- The constants of all inlined rules that an inlined rule comes to are among some constants. -/
def Provides (g : Grammar) (cs : List (String × Term)) (r : Rule) : Prop :=
  ∀ r' ∈ g.rules, r'.inlined → Relation.ReflTransGen g.Inlines r.name r'.name →
    cs.lookup (helper r'.name) = some (g.bodyTerm r')

/-- The body of an inlined rule calls no constant that leads back to it. -/
theorem Presentable.provides_without (hg : g.Presentable) {cs : List (String × Term)} {r' : Rule}
    (hr : r ∈ g.rules) (hcs : g.Provides cs r) (h : g.Inlines r.name r'.name) :
    g.Provides (without cs (helper r.name)) r' := by
  intro r'' hr'' hinlined hreach
  have hne : helper r''.name ≠ helper r.name := by
    rw [Ne, helper_inj, hg.normal_name hr'', hg.normal_name hr]
    intro heq
    rw [heq] at hreach
    exact hg.acyclic r.name (.head' h hreach)
  rw [lookup_without hne]
  exact hcs r'' hr'' hinlined (.head h hreach)

theorem Presentable.calls_constant? (hg : g.Presentable) {cs : List (String × Term)}
    {names : List String} (hdefined : ∀ n ∈ names, (g.resolve? n).isSome)
    (h : ∀ n ∈ names, ∀ r', g.resolve? n = some r' → r'.inlined →
      ∃ e, constant? cs (helper r'.name) = some e ∧ g.Means e r'.body) :
    g.Calls (constant? cs) names := by
  intro n hn
  refine ⟨hdefined n hn, fun hinlined ↦ ?_⟩
  obtain ⟨r', hr'⟩ := Option.isSome_iff_exists.1 (hdefined n hn)
  rw [isInlined_eq hr'] at hinlined
  obtain ⟨e, he, hmeans⟩ := h n hn r' hr' hinlined
  obtain ⟨hmem, hname⟩ := hg.resolve?_eq_some.1 hr'
  have hhelper : helper r'.name = helper n := by
    rw [helper_inj, hg.normal_name hmem, hname]
  rw [hhelper] at he
  exact ⟨e, he, fun ρ σ hagrees ↦
    (hmeans ρ σ hagrees).trans (hagrees.inlined n r' hr' hinlined).symm⟩

/-- The constant of an inlined rule means the body of the rule. -/
theorem Presentable.exists_constant? (hg : g.Presentable) (cs : List (String × Term))
    (hr : r ∈ g.rules) (hinlined : r.inlined) (hcs : g.Provides cs r) :
    ∃ e, constant? cs (helper r.name) = some e ∧ g.Means e r.body := by
  -- Fewer constants are left for every call inside a body.
  induction hlength : cs.length using Nat.strongRecOn generalizing cs r with
  | _ n ih =>
    have hlookup := hcs r hr hinlined .refl
    obtain ⟨-, hspelled⟩ := Expression.spelledOut_eq_ok (hg.writable r hr)
    have hcalls : g.Calls (constant? (without cs (helper r.name))) r.body.spelled.references := by
      refine hg.calls_constant? (fun n hn ↦ hg.defined r hr n (hspelled.references n hn)) ?_
      intro n hn r' hr' hinlined'
      obtain ⟨hmem, hname⟩ := hg.resolve?_eq_some.1 hr'
      have hedge : g.Inlines r.name r'.name := ⟨r, hr, hinlined, hg.normal_name hr, n,
        hspelled.references n hn, hname.symm, by rw [isInlined_eq hr']; exact hinlined'⟩
      exact ih _ (hlength ▸ length_without_lt hlookup) _ hmem hinlined'
        (hg.provides_without hr hcs hedge) rfl
    obtain ⟨e, he, hmeans⟩ := exists_expression? hspelled.native hspelled.writable hcalls
    refine ⟨e, ?_, fun ρ σ hagrees ↦ ?_⟩
    · rw [constant?]
      split
      · next body hbody =>
        rw [hlookup] at hbody
        cases hbody
        exact he
      · next hnone => exact absurd hlookup (hnone _)
    · rw [hmeans ρ σ hagrees, hspelled.language]

end Constants

section Productions

theorem lookup_eq_some_of_mem {α : Type} {es : List (String × α)} {k : String} {a : α}
    (hnodup : (es.map Prod.fst).Nodup) (h : (k, a) ∈ es) : es.lookup k = some a := by
  induction es with
  | nil => cases h
  | cons e es ih =>
    obtain ⟨k', a'⟩ := e
    obtain ⟨hnot, hnodup⟩ := List.nodup_cons.1 hnodup
    rw [List.lookup_cons]
    rcases List.mem_cons.1 h with heq | hmem
    · cases heq
      rw [beq_self_eq_true]
    · have hne : k ≠ k' := by
        rintro rfl
        exact hnot (List.mem_map.2 ⟨(k, a), hmem, rfl⟩)
      rw [beq_false_of_ne hne, ih hnodup hmem]

theorem Presentable.nodup_filter_map (hg : g.Presentable) (p : Rule → Bool) {f : Rule → String}
    (hf : ∀ r ∈ g.rules, ∀ r' ∈ g.rules, f r = f r' → r = r') :
    ((g.rules.filter p).map f).Nodup := by
  refine List.Nodup.map_on ?_ (hg.nodup.of_map.filter p)
  intro r hr r' hr'
  exact hf r (List.mem_of_mem_filter hr) r' (List.mem_of_mem_filter hr')

theorem Presentable.nodup_helpers (hg : g.Presentable) : (g.helpers.map Prod.fst).Nodup := by
  rw [helpers, List.map_map]
  apply hg.nodup_filter_map
  intro r hr r' hr' h
  apply List.inj_on_of_nodup_map hg.nodup hr hr'
  rwa [Function.comp_apply, Function.comp_apply, helper_inj, hg.normal_name hr,
    hg.normal_name hr'] at h

theorem Presentable.nodup_entries (hg : g.Presentable) : (g.entries.map Prod.fst).Nodup := by
  have hkeys : g.entries.map Prod.fst
      = entryRule :: (g.rules.filter fun r ↦ !r.inlined).map fun r ↦ g.symbol r.name := by
    simp [entries, sources, Function.comp_def]
  rw [hkeys, List.nodup_cons]
  refine ⟨fun hmem ↦ ?_, hg.nodup_filter_map _ fun r hr r' hr' ↦ hg.symbol_injective hr hr'⟩
  obtain ⟨r, hr, heq⟩ := List.mem_map.1 hmem
  exact hg.symbol_ne_entryRule (List.mem_of_mem_filter hr) heq

theorem Presentable.provides_helpers (hg : g.Presentable) (r : Rule) : g.Provides g.helpers r := by
  intro r' hr' hinlined _
  exact lookup_eq_some_of_mem hg.nodup_helpers
    (List.mem_map.2 ⟨r', List.mem_filter.2 ⟨hr', hinlined⟩, rfl⟩)

theorem Presentable.of_mem_sources (hg : g.Presentable) {source : String × Expression}
    (h : source ∈ g.sources) :
    source.2.isWritable ∧ ∀ n ∈ source.2.references, (g.resolve? n).isSome := by
  rcases List.mem_cons.1 h with rfl | h
  · obtain ⟨r, hr⟩ := (flaw?_eq_none.1 hg.valid).2.1
    refine ⟨rfl, fun n hn ↦ ?_⟩
    rw [List.mem_singleton.1 hn, hr]
    rfl
  · obtain ⟨r, hr, rfl⟩ := List.mem_map.1 h
    have hmem := List.mem_of_mem_filter hr
    exact ⟨hg.writable r hmem, hg.defined r hmem⟩

theorem Presentable.exists_production? (hg : g.Presentable) {source : String × Expression}
    (h : source ∈ g.sources) :
    ∃ e, production? g.helpers (source.1, .function (g.term source.2.spelled))
      = some (source.1, e) ∧ g.Means e source.2 := by
  obtain ⟨hwritable, hdefined⟩ := hg.of_mem_sources h
  obtain ⟨-, hspelled⟩ := Expression.spelledOut_eq_ok hwritable
  have hcalls : g.Calls (constant? g.helpers) source.2.spelled.references := by
    refine hg.calls_constant? (fun n hn ↦ hdefined n (hspelled.references n hn)) ?_
    intro n hn r hr hinlined
    have hmem := (hg.resolve?_eq_some.1 hr).1
    exact hg.exists_constant? g.helpers hmem hinlined (hg.provides_helpers r)
  obtain ⟨e, he, hmeans⟩ := exists_expression? hspelled.native hspelled.writable hcalls
  refine ⟨e, by rw [production?, he]; rfl, fun ρ σ hagrees ↦ ?_⟩
  rw [hmeans ρ σ hagrees, hspelled.language]

theorem exists_mapM {α β : Type} {f : α → Option β} {P : α → β → Prop} {xs : List α}
    (h : ∀ x ∈ xs, ∃ y, f x = some y ∧ P x y) :
    ∃ ys, xs.mapM f = some ys ∧ (∀ x ∈ xs, ∃ y ∈ ys, P x y) ∧ ∀ y ∈ ys, ∃ x ∈ xs, P x y := by
  induction xs with
  | nil => exact ⟨[], rfl, List.forall_mem_nil _, List.forall_mem_nil _⟩
  | cons x xs ih =>
    rw [List.forall_mem_cons] at h
    obtain ⟨y, hy, hp⟩ := h.1
    obtain ⟨ys, hys, hleft, hright⟩ := ih h.2
    refine ⟨y :: ys, by rw [List.mapM_cons, hy, hys]; rfl, ?_, ?_⟩
    · refine List.forall_mem_cons.2 ⟨⟨y, List.mem_cons_self .., hp⟩, fun x hx ↦ ?_⟩
      obtain ⟨y', hy', hp⟩ := hleft x hx
      exact ⟨y', List.mem_cons_of_mem _ hy', hp⟩
    · refine List.forall_mem_cons.2 ⟨⟨x, List.mem_cons_self .., hp⟩, fun y' hy' ↦ ?_⟩
      obtain ⟨x', hx', hp⟩ := hright y' hy'
      exact ⟨x', List.mem_cons_of_mem _ hx', hp⟩

theorem Presentable.productions?_script (hg : g.Presentable) :
    productions? g.script = g.entries.mapM (production? g.helpers) := by
  have hconstants : constants g.script = g.helpers := by
    simp [constants, script, List.filterMap_append, List.filterMap_map]
  have hexported : exported g.script = [.call "grammar" [.object g.fields]] := by
    simp [exported, script, List.filterMap_append, List.filterMap_map]
  have hfields : distinct? g.fields = some g.fields := by
    rw [distinct?, if_pos]
    rw [fields, conflictFields]
    split
    · simp
    · simp
  have hlookup : g.fields.lookup "rules" = some (.object g.entries) := by
    rw [fields, conflictFields]
    split
    · rfl
    · rfl
  rw [productions?, hconstants, hexported, distinct?, if_pos hg.nodup_helpers]
  simp only [Option.bind_eq_bind, Option.bind_some, hfields, hlookup]
  rw [distinct?, if_pos hg.nodup_entries, Option.bind_some]

/-- The productions of the script are the symbols with expressions that mean theirs. -/
theorem Presentable.exists_productions? (hg : g.Presentable) :
    ∃ rules, productions? g.script = some rules ∧
      (∀ source ∈ g.sources, ∃ e, (source.1, e) ∈ rules ∧ g.Means e source.2) ∧
      ∀ symbol e, (symbol, e) ∈ rules →
        ∃ source ∈ g.sources, source.1 = symbol ∧ g.Means e source.2 := by
  have hrule : ∀ source ∈ g.sources, ∃ rule,
      production? g.helpers (source.1, .function (g.term source.2.spelled)) = some rule ∧
        rule.1 = source.1 ∧ g.Means rule.2 source.2 := by
    intro source hmem
    obtain ⟨e, he, hmeans⟩ := hg.exists_production? hmem
    exact ⟨_, he, rfl, hmeans⟩
  obtain ⟨rules, hrules, hleft, hright⟩ := exists_mapM hrule
  refine ⟨rules, ?_, ?_, ?_⟩
  · rw [hg.productions?_script, entries, List.mapM_map]
    exact hrules
  · intro source hmem
    obtain ⟨⟨symbol, e⟩, he, rfl, hmeans⟩ := hleft source hmem
    exact ⟨e, he, hmeans⟩
  · intro symbol e hmem
    obtain ⟨source, hsource, heq, hmeans⟩ := hright _ hmem
    exact ⟨source, hsource, heq.symm, hmeans⟩

end Productions

section Languages

/-- The languages of the rules, where those of the symbols are given. -/
def interpretation (g : Grammar) (σ : String → Language Codepoint) :
    (String → Language Codepoint) →o (String → Language Codepoint) where
  toFun ρ n := {w | (∃ r, g.resolve? n = some r ∧ r.inlined ∧ w ∈ r.body.language ρ) ∨
    (g.isInlined n = false ∧ w ∈ σ (g.symbol n))}
  monotone' _ _ h _ _ := Or.imp_left fun ⟨r, hr, hinlined, hw⟩ ↦
    ⟨r, hr, hinlined, r.body.language_mono h hw⟩

theorem exists_agrees (g : Grammar) (σ : String → Language Codepoint) : ∃ ρ, g.Agrees ρ σ := by
  refine ⟨(g.interpretation σ).lfp, fun n r hr hinlined ↦ ?_, fun n r hr hinlined ↦ ?_⟩
  · rw [← congrFun (OrderHom.map_lfp (g.interpretation σ)) n]
    rw [← isInlined_eq hr] at hinlined
    ext w
    refine ⟨fun hw ↦ ?_, fun hw ↦ Or.inr ⟨hinlined, hw⟩⟩
    rcases hw with ⟨r', hr', hinlined', -⟩ | ⟨-, hw⟩
    · rw [← isInlined_eq hr', hinlined] at hinlined'
      cases hinlined'
    · exact hw
  · have hstep := congrFun (OrderHom.map_lfp (g.interpretation σ)) n
    refine hstep.symm.trans ?_
    ext w
    refine ⟨fun hw ↦ ?_, fun hw ↦ Or.inl ⟨r, hr, hinlined, hw⟩⟩
    rcases hw with ⟨r', hr', -, hw⟩ | ⟨hplain, -⟩
    · rw [hr] at hr'
      cases hr'
      exact hw
    · rw [isInlined_eq hr, hinlined] at hplain
      cases hplain

/-- The languages of the symbols, where those of the rules are the grammar's. -/
def symbolLanguage (g : Grammar) (symbol : String) : Language Codepoint :=
  {w | (symbol = entryRule → w ∈ g.language g.start) ∧
    ∀ r ∈ g.rules, g.symbol r.name = symbol → w ∈ g.language r.name}

theorem Presentable.symbolLanguage_entryRule (hg : g.Presentable) :
    g.symbolLanguage entryRule = g.language g.start := by
  ext w
  exact ⟨fun hw ↦ hw.1 rfl,
    fun hw ↦ ⟨fun _ ↦ hw, fun r hr heq ↦ absurd heq (hg.symbol_ne_entryRule hr)⟩⟩

theorem Presentable.symbolLanguage_symbol (hg : g.Presentable) {r : Rule} (hr : r ∈ g.rules) :
    g.symbolLanguage (g.symbol r.name) = g.language r.name := by
  ext w
  refine ⟨fun hw ↦ hw.2 r hr rfl, fun hw ↦ ⟨fun heq ↦ ?_, fun r' hr' heq ↦ ?_⟩⟩
  · exact absurd heq (hg.symbol_ne_entryRule hr)
  · rw [hg.symbol_injective hr' hr heq]
    exact hw

theorem Presentable.agrees_language (hg : g.Presentable) :
    g.Agrees g.language g.symbolLanguage where
  plain n r hr _ := by
    obtain ⟨hmem, hname⟩ := hg.resolve?_eq_some.1 hr
    rw [← g.symbol_normal, ← hname, hg.symbolLanguage_symbol hmem,
      hg.language_eq (hg.resolve?_name hmem), hg.language_eq hr]
  inlined n r hr _ := hg.language_eq hr

theorem Presentable.language_le_symbolLanguage (hg : g.Presentable)
    {source : String × Expression} (h : source ∈ g.sources) :
    source.2.language g.language ≤ g.symbolLanguage source.1 := by
  rcases List.mem_cons.1 h with rfl | h
  · exact hg.symbolLanguage_entryRule.ge
  · obtain ⟨r, hr, rfl⟩ := List.mem_map.1 h
    have hmem := List.mem_of_mem_filter hr
    rw [hg.symbolLanguage_symbol hmem, hg.language_eq (hg.resolve?_name hmem)]

/-- The grammar's languages satisfy productions that mean its rules. -/
theorem Presentable.generated_le_symbolLanguage (hg : g.Presentable)
    {rules : List (String × Expression)}
    (h : ∀ symbol e, (symbol, e) ∈ rules →
      ∃ source ∈ g.sources, source.1 = symbol ∧ g.Means e source.2) :
    generated (fun symbol e ↦ (symbol, e) ∈ rules) ≤ g.symbolLanguage := by
  apply generated_le
  intro symbol e hmem
  obtain ⟨source, hsource, rfl, hmeans⟩ := h symbol e hmem
  rw [hmeans _ _ hg.agrees_language]
  exact hg.language_le_symbolLanguage hsource

/-- With the bodies in place of the inlined rules, the languages of such productions satisfy the
rules of the grammar. -/
theorem Presentable.language_start_le (hg : g.Presentable) {rules : List (String × Expression)}
    (h : ∀ source ∈ g.sources, ∃ e, (source.1, e) ∈ rules ∧ g.Means e source.2) :
    g.language g.start ≤ generated (fun symbol e ↦ (symbol, e) ∈ rules) entryRule := by
  obtain ⟨ρ, hagrees⟩ := g.exists_agrees (generated fun symbol e ↦ (symbol, e) ∈ rules)
  have hsource : ∀ source ∈ g.sources,
      source.2.language ρ ≤ generated (fun symbol e ↦ (symbol, e) ∈ rules) source.1 := by
    intro source hmem
    obtain ⟨e, he, hmeans⟩ := h source hmem
    rw [← hmeans _ _ hagrees]
    exact language_le_generated he
  have hle : g.language ≤ ρ := by
    apply generated_le
    rintro n _ ⟨r, hr, hname, rfl⟩
    rw [hg.normal_name hr] at hname
    have hresolve := hg.resolve?_eq_some.2 ⟨hr, hname⟩
    by_cases hinlined : r.inlined
    · exact (hagrees.inlined n r hresolve hinlined).ge
    · rw [Bool.not_eq_true] at hinlined
      rw [hagrees.plain n r hresolve hinlined, ← g.symbol_normal, ← hname]
      have hplain : r ∈ g.rules.filter fun r ↦ !r.inlined :=
        List.mem_filter.2 ⟨hr, by rw [hinlined]; rfl⟩
      exact hsource (g.symbol r.name, r.body)
        (List.mem_cons_of_mem _ (List.mem_map.2 ⟨r, hplain, rfl⟩))
  exact (hle g.start).trans (hsource _ (List.mem_cons_self ..))

/-- The entry rule of the script has the language of the start rule. -/
theorem Presentable.language?_text (hg : g.Presentable) :
    language? g.text entryRule = some (g.language g.start) := by
  obtain ⟨rules, hrules, hleft, hright⟩ := hg.exists_productions?
  have hsome : language? g.text entryRule
      = some (generated (fun symbol e ↦ (symbol, e) ∈ rules) entryRule) := by
    rw [language?, hg.statements?_text]
    simp only [Option.bind_eq_bind, Option.bind_some, hrules]
    rfl
  have hle : generated (fun symbol e ↦ (symbol, e) ∈ rules) entryRule ≤ g.language g.start :=
    (hg.generated_le_symbolLanguage hright entryRule).trans hg.symbolLanguage_entryRule.le
  rw [hsome, le_antisymm hle (hg.language_start_le hleft)]

end Languages

end AbnfCompiler.Grammar
